import GraphSchema.Error
import GraphSchema.Name
import GraphSchema.Text.CharClass

/-!
# Reading type references

Type expressions are read from the outside in: first a trailing non-null mark, then a pair of
brackets, then a name. Blanks may stand around every part.

## Main definitions

* `TypeRef.named?` — the reference to a type called by a valid name.
* `TypeRef.parse` — the reference written in a text.
-/

namespace GraphSchema

namespace Text

theorem length_trimStart_le (cs : List Char) : (trimStart cs).length ≤ cs.length :=
  (List.dropWhile_suffix isBlank).length_le

theorem length_trimEnd_le (cs : List Char) : (trimEnd cs).length ≤ cs.length := by
  have h := length_trimStart_le cs.reverse
  simpa [trimEnd, trimStart] using h

theorem length_trim_le (cs : List Char) : (trim cs).length ≤ cs.length :=
  Nat.le_trans (length_trimEnd_le _) (length_trimStart_le _)

end Text

namespace TypeRef

/-- The reference to the type of a name, which must be valid. -/
def named? (name : String) : Except Error TypeRef :=
  if Name.isTypeName name.toList then .ok (named name) else .error (.invalidName name)

/-- Reads an expression without blanks at its ends; `source` is the whole text. -/
def parseTrimmed (source : String) (cs : List Char) : Except Error TypeRef :=
  if cs = [] then .error (.emptyType source)
  else if cs.getLast? = some '!' then do
    let inner ← parseTrimmed source (Text.trimEnd cs.dropLast)
    if inner.isNonNull then throw (.doubledNonNull source)
    return nonNull inner
  else if cs.head? = some '[' then
    if cs.getLast? = some ']' then
      list <$> parseTrimmed source (Text.trim cs.tail.dropLast)
    else .error (.unbalancedBrackets source)
  else if Name.isTypeName cs then .ok (named (String.ofList cs))
  else .error (.invalidNameIn (String.ofList cs) source)
termination_by cs.length
decreasing_by
  · have h := Text.length_trimEnd_le cs.dropLast
    have : 0 < cs.length := List.length_pos_iff.2 (by assumption)
    simp only [List.length_dropLast] at h
    omega
  · have h := Text.length_trim_le cs.tail.dropLast
    have : 0 < cs.length := List.length_pos_iff.2 (by assumption)
    simp only [List.length_dropLast, List.length_tail] at h
    omega

/-- The reference written in a text. -/
def parse (source : String) : Except Error TypeRef :=
  parseTrimmed source (Text.trim source.toList)

end TypeRef

end GraphSchema
