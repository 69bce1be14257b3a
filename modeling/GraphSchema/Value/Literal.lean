import GraphSchema.Value.Display

/-!
# Literals

The literal of a value in a printed schema: sequences in brackets, maps in braces with their
keys unquoted, texts in double quotes with everything beyond ASCII escaped.

## Main definitions

* `Value.literalChars`, `Value.literal` — the literal of a value.
-/

namespace GraphSchema

namespace Value

/-- Texts with a comma and a space between. -/
def joinComma : List (List Char) → List Char
  | [] => []
  | [x] => x
  | x :: xs => x ++ ',' :: ' ' :: joinComma xs

/-- Numbers that are not finite are written by name. -/
def floatLiteral (x : Float) : String :=
  if x.isNaN then "NaN"
  else if x.isInf then (if x < 0 then "-Infinity" else "Infinity")
  else Decimal.floatText x

mutual

/-- The characters of a value's literal. -/
def literalChars : Value → List Char
  | null => "null".toList
  | bool true => "true".toList
  | bool false => "false".toList
  | int i => (toString i).toList
  | float x => (floatLiteral x).toList
  | str s => Text.jsonQuoted s.toList
  | list items => '[' :: joinComma (literals items) ++ [']']
  | tuple items => '[' :: joinComma (literals items) ++ [']']
  | map entries => '\x7b' :: joinComma (literalEntries entries) ++ ['\x7d']
  | object lineage _ _ =>
    Text.jsonQuoted ('<' :: (lineage.headD default).name.toList ++ ['>'])

/-- The literals of a sequence. -/
def literals : List Value → List (List Char)
  | [] => []
  | x :: xs => literalChars x :: literals xs

/-- The literals of the entries of a map, keys as displayed. -/
def literalEntries : List (Value × Value) → List (List Char)
  | [] => []
  | (k, v) :: es => ((display k).toList ++ ':' :: ' ' :: literalChars v) :: literalEntries es

end

/-- A value's literal. -/
def literal (v : Value) : String := String.ofList (literalChars v)

end Value

end GraphSchema
