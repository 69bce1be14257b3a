import GraphSchema.Error
import GraphSchema.Text.CharClass

/-!
# Numbers from texts

Numbers in positional or exponent notation, the doubles nearest to them, and the values that they
are.

## Main definitions

* `Decimal.nearestFloat` — the double nearest to a decimal.
* `Decimal.readFloat?` — the double nearest to a number in either notation.
* `Value.ofNumberText` — the number that a text stands for, where there has to be one.
-/

namespace GraphSchema

namespace Decimal

/-- The double nearest to `digits * 10 ^ exponent`, infinity beyond the largest. -/
def nearestFloat (digits : Nat) (exponent : Int) : Float :=
  let magnitude : Int := (toString digits).length + exponent
  if digits = 0 ∨ magnitude < -330 then 0
  else if magnitude > 310 then 1 / 0
  else Float.ofScientific digits (exponent < 0) exponent.natAbs

/-- The number that decimal digits stand for, if there is at least one and nothing else. -/
def readDigits? (cs : List Char) : Option Nat :=
  if cs.isEmpty || !cs.all Char.isDigit then none
  else some (cs.foldl (fun n c => n * 10 + (c.toNat - '0'.toNat)) 0)

/-- Splits off a sign; true stands for a minus. -/
def readSign : List Char → Bool × List Char
  | '-' :: cs => (true, cs)
  | '+' :: cs => (false, cs)
  | cs => (false, cs)

/-- The exponent after the digits of a number: none at all counts as zero. -/
def readExponent? : List Char → Option Int
  | [] => some 0
  | _ :: cs =>
    let (negative, digits) := readSign cs
    (readDigits? digits).map fun n => if negative then -n else n

/-- The double nearest to a number without a sign, in positional or exponent notation. -/
def readUnsigned? (cs : List Char) : Option Float := do
  let isMark (c : Char) : Bool := c == 'e' || c == 'E'
  let number := cs.takeWhile (!isMark ·)
  let exponent ← readExponent? (cs.dropWhile (!isMark ·))
  let whole := number.takeWhile (· != '.')
  let fraction := (number.dropWhile (· != '.')).drop 1
  let digits ← readDigits? (whole ++ fraction)
  return nearestFloat digits (exponent - fraction.length)

/-- A number without the underscores between its digits. An underscore elsewhere is no part of a
number. -/
def ungrouped? : List Char → Option (List Char)
  | [] => some []
  | [c] => if c == '_' then none else some [c]
  | c :: d :: cs =>
    if c == '_' || (d == '_' && !(c.isDigit && cs.head?.any Char.isDigit)) then none
    else if d == '_' then (c :: ·) <$> ungrouped? cs
    else (c :: ·) <$> ungrouped? (d :: cs)

/-- A digit of any script as the digit of its value, and any white space as a space. -/
def plainChar (c : Char) : Char :=
  if Text.isWhiteSpace c then ' ' else ((Text.digitValue? c).map Nat.digitChar).getD c

/-- The double nearest to a number in either notation, also by the names of infinity and of
what is no number, in letters of any case. The digits may be those of any script, and white
space may stand around the number. -/
def readFloat? (cs : List Char) : Option Float :=
  let (negative, cs) := readSign (Text.trimWhere (· == ' ') (cs.map plainChar))
  (match String.ofList (cs.map Char.toLower) with
    | "inf" | "infinity" => some (1 / 0)
    | "nan" => some (0 / 0)
    | _ => (ungrouped? cs).bind readUnsigned?).map fun x => if negative then -x else x

end Decimal

/-- The number that a text stands for. -/
def Value.ofNumberText (text : String) : Except Error Value :=
  match Decimal.readFloat? text.toList with
  | some x => .ok (float x)
  | none => .error (.notANumber text)

end GraphSchema
