/-!
# Faults of YAML documents

Why a text has no value as a YAML document: mostly because it does not follow the grammar, and
sometimes because a scalar of the right form stands for nothing, such as a date that is not in
the calendar.

## Main definitions

* `TimeFault` — what is wrong with a point in time.
* `Fault` — why a document has no value.
* `Fault.message` — its wording.
-/

namespace GraphSchema.Yaml

/-- What is wrong with a point in time. The zone is the distance from universal time in
minutes. -/
inductive TimeFault where
  | year (n : Nat)
  | month
  | day
  | hour
  | minute
  | second
  | zone (minutes : Int)
deriving DecidableEq, Inhabited

/-- A distance in time in a message: whole days, and the seconds beyond them. -/
def durationText (minutes : Int) : String :=
  let seconds := minutes % 1440 * 60
  "datetime.timedelta(days=" ++ toString (minutes / 1440) ++
    (if seconds = 0 then "" else ", seconds=" ++ toString seconds) ++ ")"

/-- The wording of a fault in a point in time. -/
def TimeFault.message : TimeFault → String
  | year n => "year " ++ toString n ++ " is out of range"
  | month => "month must be in 1..12"
  | day => "day is out of range for month"
  | hour => "hour must be in 0..23"
  | minute => "minute must be in 0..59"
  | second => "second must be in 0..59"
  | zone minutes =>
    "offset must be a timedelta strictly between -timedelta(hours=24) and " ++
      "timedelta(hours=24), not " ++ durationText minutes ++ "."

/-- Why a document has no value: it does not follow the grammar; an escape is beyond the last
code point; an integer has no digits, or more decimal digits than are read; a number to the base
sixty has more places than a double can scale; or a point in time does not exist. -/
inductive Fault where
  | malformed
  | codePoint (n : Nat)
  | noDigits (base : Nat)
  | manyDigits (n : Nat)
  | manyPlaces
  | time (fault : TimeFault)
deriving DecidableEq, Inhabited

/-- The most decimal digits of an integer. -/
def maxDigits : Nat := 4300

namespace Fault

/-- Whether a number is too large to be represented, rather than not allowed. -/
def isOverflow : Fault → Bool
  | codePoint n => n.log2 ≥ 31
  | manyPlaces => true
  | _ => false

/-- The wording of a fault. Of a document that does not follow the grammar nothing is said. -/
def message : Fault → String
  | malformed => ""
  | codePoint n =>
    if (codePoint n).isOverflow then "Python int too large to convert to C int"
    else "chr() arg not in range(0x110000)"
  | noDigits base => "invalid literal for int() with base " ++ toString base ++ ": ''"
  | manyDigits n =>
    "Exceeds the limit (" ++ toString maxDigits ++ " digits) for integer string conversion: " ++
      "value has " ++ toString n ++ " digits; " ++
      "use sys.set_int_max_str_digits() to increase the limit"
  | manyPlaces => "int too large to convert to float"
  | time fault => fault.message

end Fault

end GraphSchema.Yaml
