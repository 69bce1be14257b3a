import GraphSchema.Decimal.Notation
import GraphSchema.Text.Escape
import GraphSchema.Value

/-!
# Values in messages

The text of a value where a message shows it. Texts inside are quoted; an object shows the name
of its class in angle brackets.

## Main definitions

* `Value.inspect` — a value in a message, texts quoted.
* `Value.display` — a value on its own: a text as it is, everything else as inspected.
-/

namespace GraphSchema

namespace Value

/-- A text in quotes. -/
def quote (s : String) : String := String.ofList (Text.quoted s.toList)

/-- Texts with a comma and a space between. -/
def commas (parts : List String) : String := String.intercalate ", " parts

mutual

/-- A value in a message. -/
def inspect : Value → String
  | null => "None"
  | bool true => "True"
  | bool false => "False"
  | int i => toString i
  | float x => Decimal.floatText x
  | str s => quote s
  | list items => "[" ++ commas (inspectAll items) ++ "]"
  | tuple [x] => "(" ++ inspect x ++ ",)"
  | tuple items => "(" ++ commas (inspectAll items) ++ ")"
  | map entries => "\x7b" ++ commas (inspectEntries entries) ++ "\x7d"
  | object lineage _ _ => "<" ++ (lineage.headD default).name ++ ">"

/-- The values of a sequence in a message. -/
def inspectAll : List Value → List String
  | [] => []
  | x :: xs => inspect x :: inspectAll xs

/-- The entries of a map in a message. -/
def inspectEntries : List (Value × Value) → List String
  | [] => []
  | (k, v) :: es => (inspect k ++ ": " ++ inspect v) :: inspectEntries es

end

/-- A value on its own. -/
def display : Value → String
  | str s => s
  | v => inspect v

/-- An optional text as a value: nothing is null. -/
def ofOption : Option String → Value
  | some s => str s
  | none => null

end Value

end GraphSchema
