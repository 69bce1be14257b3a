import GraphSchema.Yaml.Style

/-!
# Written collections

Collections in block style: each item and each entry starts a line, and what belongs to it is
indented by two columns. A list right under a key is not indented, since its dashes set it off.
Empty collections are written in brackets.

## Main definitions

* `isSimpleKey` — whether a key stands on the line of its value.
* `block`, `afterKey` — a value on lines of its own, and after a key.
* `write` — the document of the entries of a map.
-/

namespace GraphSchema.Yaml

/-- Lines below each other, the first of which is indented already. -/
def stacked (indent : Nat) (lines : List String) : String :=
  (String.ofList (newLine indent)).intercalate lines

/-- The characters that count as line breaks in a document. -/
def endsLine (c : Char) : Bool := ['\n', '\u0085', '\u2028', '\u2029'].contains c

/-- Whether a key stands on the line of its value: if it is not empty, has no line breaks, and is
short. -/
def isSimpleKey (s : String) : Bool := s != "" && !s.toList.any endsLine && s.length ≤ 122

/-- A key on the line of its value, if it can stand there. -/
def keyText? : Value → Option String
  | .str s => if isSimpleKey s then some (writeKey s) else none
  | k => (writeValue 0 0 k).filter isSimpleKey

mutual

/-- A value on lines of its own, the first of which is indented already. Only lists, maps and
what is not compound can be written. -/
def block (indent : Nat) : Value → Option String
  | .list xs => if xs.isEmpty then some "[]" else stacked indent <$> itemLines indent xs
  | .map es => if es.isEmpty then some "\x7b\x7d" else stacked indent <$> entryLines indent es
  | v => writeValue indent indent v

/-- The items of a list, each after a dash. -/
def itemLines (indent : Nat) : List Value → Option (List String)
  | [] => some []
  | x :: xs => do return ("- " ++ (← block (indent + 2) x)) :: (← itemLines indent xs)

/-- The entries of a map. A key that does not stand on the line of its value follows a question
mark. -/
def entryLines (indent : Nat) : List (Value × Value) → Option (List String)
  | [] => some []
  | (k, x) :: es => do
    let entry ← match keyText? k with
      | some key => (key ++ ":" ++ ·) <$> afterKey indent (indent + key.length + 2) x
      | none => do
        let key ← writeValue (indent + 2) (indent + 2) k
        let value ← block (indent + 2) x
        pure (stacked indent ["? " ++ key, ": " ++ value])
    return entry :: (← entryLines indent es)

/-- A value after a key and a colon: on the same line from a column, or on the lines below. -/
def afterKey (indent column : Nat) : Value → Option String
  | .list xs =>
    if xs.isEmpty then some " []"
    else (fun lines => stacked indent ("" :: lines)) <$> itemLines indent xs
  | .map es =>
    if es.isEmpty then some " \x7b\x7d"
    else (fun lines => stacked (indent + 2) ("" :: lines)) <$> entryLines (indent + 2) es
  | v => (" " ++ ·) <$> writeValue (indent + 2) column v

end

/-- The document of the entries of a map, if they can be written. -/
def write (es : List (Value × Value)) : Option String :=
  (entryLines 0 es).map fun lines => stacked 0 lines ++ "\n"

end GraphSchema.Yaml
