import GraphSchema.Text.Pattern
import GraphSchema.Value.Number

/-!
# Plain scalars

What a scalar without quotes stands for in YAML 1.1: null, a truth value, a number, a date, or
a text.

## Main definitions

* `PlainKind`, `plainKind` — what a plain scalar stands for, by its form.
* `intValue`, `floatValue`, `checkDate`, `checkTime` — numbers and points in time.
* `plainValue` — the value of a plain scalar.
-/

namespace GraphSchema.Yaml

open Text (Pattern)

open Text.Pattern in
/-- Null. -/
def nullPattern : Pattern := choice [empty, word "~", word "null", word "Null", word "NULL"]

/-- The words for true. -/
def trueWords : List String :=
  ["yes", "Yes", "YES", "true", "True", "TRUE", "on", "On", "ON"]

/-- The words for false. -/
def falseWords : List String :=
  ["no", "No", "NO", "false", "False", "FALSE", "off", "Off", "OFF"]

/-- A decimal digit. -/
def digit : Pattern := .one Char.isDigit

/-- Decimal digits and underscores. -/
def digitsOrBars : Pattern := .many (.among "0123456789_")

/-- An optional sign. -/
def sign : Pattern := .optional (.among "+-")

open Text.Pattern in
/-- Further places of a number to the base sixty. -/
def sixties : Pattern := some (sequence [word ":", optional (among "012345"), digit])

open Text.Pattern in
/-- Integers: binary, octal, decimal, hexadecimal, or to the base sixty. -/
def intPattern : Pattern := seq sign <| choice [
  seq (word "0b") (some (among "01_")),
  seq (word "0") (some (among "01234567_")),
  word "0",
  seq (among "123456789") digitsOrBars,
  seq (word "0x") (some (among "0123456789abcdefABCDEF_")),
  sequence [among "123456789", digitsOrBars, sixties]]

open Text.Pattern in
/-- The exponent of a number; its sign is not optional. -/
def exponent : Pattern := optional (sequence [among "eE", among "+-", some digit])

open Text.Pattern in
/-- Numbers with a point, to the base ten or sixty, infinity, and what is no number. -/
def floatPattern : Pattern := choice [
  sequence [sign, digit, digitsOrBars, word ".", digitsOrBars, exponent],
  sequence [word ".", digit, digitsOrBars, exponent],
  sequence [sign, digit, digitsOrBars, sixties, word ".", digitsOrBars],
  sequence [sign, word ".", choice [word "inf", word "Inf", word "INF"]],
  seq (word ".") (choice [word "nan", word "NaN", word "NAN"])]

open Text.Pattern in
/-- A date without a time. -/
def datePattern : Pattern :=
  sequence [digit, digit, digit, digit, word "-", digit, digit, word "-", digit, digit]

open Text.Pattern in
/-- A date with a time and perhaps a zone. -/
def timePattern : Pattern :=
  let blanks := many (among " \t")
  let oneOrTwo := seq digit (optional digit)
  sequence [digit, digit, digit, digit, word "-", oneOrTwo, word "-", oneOrTwo,
    either (among "Tt") (some (among " \t")), oneOrTwo, word ":", digit, digit, word ":", digit,
    digit, optional (seq (word ".") (many digit)),
    optional (seq blanks (either (word "Z")
      (sequence [among "+-", oneOrTwo, optional (sequence [word ":", digit, digit])])))]

/-- What a plain scalar stands for. -/
inductive PlainKind where
  | null
  | bool (b : Bool)
  | int
  | float
  | date
  | time
  /-- The marks `<<` and `=`, which stand for no value. -/
  | mark
  | text
deriving DecidableEq

/-- What a plain scalar stands for, by its form. -/
def plainKind (cs : List Char) : PlainKind :=
  if nullPattern.accepts cs then .null
  else if trueWords.contains (String.ofList cs) then .bool true
  else if falseWords.contains (String.ofList cs) then .bool false
  else if intPattern.accepts cs then .int
  else if floatPattern.accepts cs then .float
  else if datePattern.accepts cs then .date
  else if timePattern.accepts cs then .time
  else if cs = ['<', '<'] ∨ cs = ['='] then .mark
  else .text

/-! ## Numbers -/

/-- The parts of a text between the characters that separate them. -/
def splitWhere (separates : Char → Bool) (cs : List Char) : List (List Char) :=
  cs.foldr (fun c parts =>
    if separates c then [] :: parts
    else match parts with
      | [] => [[c]]
      | part :: rest => (c :: part) :: rest) [[]]

/-- The parts of a text between colons. -/
def splitColons : List Char → List (List Char) := splitWhere (· == ':')

/-- The value of a digit, up to sixteen. -/
def digitValue (c : Char) : Nat :=
  if c.isDigit then c.toNat - '0'.toNat else c.toLower.toNat - 'a'.toNat + 10

/-- The number that digits stand for. -/
def digitsValue (base : Nat) (cs : List Char) : Nat :=
  cs.foldl (fun n c => n * base + digitValue c) 0

/-- The number that the digits after the mark of a base stand for. Only underscores may have
stood there. -/
def markedValue (base : Nat) (cs : List Char) : Except Fault Nat :=
  if cs.isEmpty then .error (.noDigits base) else .ok (digitsValue base cs)

/-- The number that decimal digits stand for, if they are not too many. -/
def decimalValue (cs : List Char) : Except Fault Nat :=
  if cs.length > maxDigits then .error (.manyDigits cs.length) else .ok (digitsValue 10 cs)

/-- The integer of a scalar that has the form of one. -/
def intValue (cs : List Char) : Except Fault Int := do
  let (negative, digits) := Decimal.readSign (cs.filter (· != '_'))
  let n ← match digits with
    | '0' :: 'b' :: ds => markedValue 2 ds
    | '0' :: 'x' :: ds => markedValue 16 ds
    | '0' :: ds => pure (digitsValue 8 ds)
    | ds => (splitColons ds).foldlM (fun n part => (n * 60 + ·) <$> decimalValue part) 0
  return if negative then -n else n

/-- The most places of a number with a point to the base sixty: the next power of sixty is
beyond the largest double. -/
def maxPlaces : Nat := 174

/-- The number of a scalar that has the form of one with a point. Places to the base sixty are
summed up from the last. -/
def floatValue (cs : List Char) : Except Fault Float := do
  let (negative, digits) := Decimal.readSign ((cs.filter (· != '_')).map Char.toLower)
  let x : Float ← match digits with
    | ['.', 'i', 'n', 'f'] => pure (1 / 0)
    | ['.', 'n', 'a', 'n'] => pure (0 / 0)
    | ds =>
      let parts := splitColons ds
      if parts.length > maxPlaces then throw .manyPlaces
      let (total, _) := parts.foldr (fun part (total, place) =>
        let scale := Decimal.nearestFloat (Nat.pow 60 place) 0
        (total + (Decimal.readFloat? part).getD 0 * scale, place + 1)) ((0 : Float), 0)
      pure total
  return if negative then -x else x

/-! ## Points in time -/

/-- The number of days of a month. -/
def daysInMonth (year month : Nat) : Nat :=
  if month = 2 then
    if year % 4 = 0 ∧ (year % 100 ≠ 0 ∨ year % 400 = 0) then 29 else 28
  else if [4, 6, 9, 11].contains month then 30
  else 31

/-- Whether there is a day in the calendar. -/
def checkDay (year month day : Nat) : Except TimeFault Unit := do
  if year = 0 then throw (.year year)
  if month = 0 ∨ 12 < month then throw .month
  if day = 0 ∨ daysInMonth year month < day then throw .day

/-- Whether there is a time of day. -/
def checkClock (hour minute second : Nat) : Except TimeFault Unit := do
  if 23 < hour then throw .hour
  if 59 < minute then throw .minute
  if 59 < second then throw .second

/-- A zone is less than a day away from universal time. -/
def checkZone (minutes : Int) : Except TimeFault Unit :=
  if minutes.natAbs < 1440 then .ok () else .error (.zone minutes)

/-- The numbers in a text. -/
def numbers (cs : List Char) : List Nat :=
  ((splitWhere (!·.isDigit) cs).filter (!·.isEmpty)).map (digitsValue 10)

/-- The distance in minutes from universal time that follows a time of day. -/
def zoneOf (cs : List Char) : Int :=
  match cs.dropWhile fun c => c != '+' && c != '-' with
  | [] => 0
  | sign :: cs =>
    let minutes : Int := match numbers cs with
      | [hours] => hours * 60
      | hours :: minutes :: _ => hours * 60 + minutes
      | [] => 0
    if sign == '-' then -minutes else minutes

/-- Whether there is a day of the form of a date. -/
def checkDate (cs : List Char) : Except TimeFault Unit :=
  match numbers cs with
  | year :: month :: day :: _ => checkDay year month day
  | _ => .ok ()

/-- Whether there is a point in time of the form of a date with a time. A sign after the first
colon is that of the zone. -/
def checkTime (cs : List Char) : Except TimeFault Unit := do
  checkZone (zoneOf (cs.dropWhile (· != ':')))
  checkDate cs
  match (numbers cs).drop 3 with
  | hour :: minute :: second :: _ => checkClock hour minute second
  | _ => return

/-! ## Values -/

/-- A value of a class of points in time. -/
def timeValue (lineage : List Class) (check : Except TimeFault Unit) : Except Fault Value :=
  match check with
  | .ok () => .ok (.object lineage [] [])
  | .error fault => .error (.time fault)

/-- The value of a plain scalar. -/
def plainValue (cs : List Char) : Except Fault Value :=
  match plainKind cs with
  | .null => .ok .null
  | .bool b => .ok (.bool b)
  | .int => .int <$> intValue cs
  | .float => .float <$> floatValue cs
  | .date => timeValue [⟨"datetime.date", none⟩, ⟨"object", none⟩] (checkDate cs)
  | .time =>
    timeValue [⟨"datetime.datetime", none⟩, ⟨"datetime.date", none⟩, ⟨"object", none⟩]
      (checkTime cs)
  | .mark => .error .malformed
  | .text => .ok (.str (String.ofList cs))

end GraphSchema.Yaml
