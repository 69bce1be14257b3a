import GraphSchema.Error

/-!
# Keys

Which values can be keys of a map, and what a map has under any key. What can change is no key:
neither a list nor a map, nor a tuple that contains one.

## Main definitions

* `Value.notKey?` — what keeps a value from being a key.
* `Value.under` — the value under a key.
* `Value.addEntry` — a map with a further entry.
-/

namespace GraphSchema.Value

mutual

/-- The class of what keeps a value from being a key. -/
def notKey? : Value → Option String
  | list items => some (list items).className
  | map entries => some (map entries).className
  | tuple items => firstNotKey? items
  | _ => none

/-- The class of what keeps the first such value from being a key. -/
def firstNotKey? : List Value → Option String
  | [] => none
  | x :: xs => notKey? x <|> firstNotKey? xs

end

/-- The value under a key in the entries of a map, if there is one. Only what can be a key can
be looked up. -/
def under (entries : List (Value × Value)) (key : Value) : Except Error (Option Value) :=
  match key.notKey? with
  | some className => .error (.notAKey className)
  | none => .ok ((entries.find? fun e => same e.1 key).map (·.2))

/-- The entries of a map with a further one, if its key can be one. -/
def addEntry (entries : List (Value × Value)) (key v : Value) :
    Except Error (List (Value × Value)) :=
  match key.notKey? with
  | some className => .error (.notAKey className)
  | none => .ok (insertEntry same entries key v)

end GraphSchema.Value
