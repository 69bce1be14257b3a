/-!
# Shortest decimals

The shortest decimal that reads back as a given binary floating-point number: among the
decimals of the fewest digits the one nearest to the number, and of two equally near ones the
one with an even last digit.

## Main definitions

* `Binary` — a positive number `mantissa * 2 ^ exponent` with the interval that rounds to it.
* `Scaled` — a number `digits * 10 ^ exponent`.
* `Binary.shortest` — the shortest decimal in the interval.
* `Binary.ofFloat` — the positive number behind a double.
-/

namespace GraphSchema.Decimal

/-- The positive number `mantissa * 2 ^ exponent`, and whether the next smaller number of its
format is only half as far away as the next larger one. -/
structure Binary where
  mantissa : Nat
  exponent : Int
  narrowBelow : Bool
deriving DecidableEq

/-- The number `digits * 10 ^ exponent`. -/
structure Scaled where
  digits : Nat
  exponent : Int
deriving DecidableEq

/-- `b ^ e` when `e` is not negative, and one otherwise. -/
def power (b : Nat) (e : Int) : Nat := Nat.pow b e.toNat

/-- Compares `a * 2 ^ q` with `d * 10 ^ k`, without fractions. -/
def compareScaled (a : Nat) (q : Int) (d : Nat) (k : Int) : Ordering :=
  compare (a * power 2 q * power 10 (-k)) (d * power 10 k * power 2 (-q))

/-- Whether `d * 10 ^ k` rounds to the number: it lies between the midpoints to the number's
neighbours, which themselves round to an even mantissa. -/
def Binary.admits (b : Binary) (d : Nat) (k : Int) : Bool :=
  let low := 4 * b.mantissa - (if b.narrowBelow then 1 else 2)
  let high := 4 * b.mantissa + 2
  let even := b.mantissa % 2 == 0
  (match compareScaled low (b.exponent - 2) d k with
    | .lt => true
    | .eq => even
    | .gt => false) &&
  (match compareScaled high (b.exponent - 2) d k with
    | .lt => false
    | .eq => even
    | .gt => true)

/-- The largest `d` with `d * 10 ^ k` at most the number. -/
def Binary.below (b : Binary) (k : Int) : Nat :=
  (b.mantissa * power 2 b.exponent * power 10 (-k)) / (power 10 k * power 2 (-b.exponent))

/-- Of `d` and `d + 1` the one whose multiple of `10 ^ k` is nearer to the number, on a tie the
even one. -/
def Binary.nearer (b : Binary) (d : Nat) (k : Int) : Nat :=
  match compareScaled (2 * b.mantissa) b.exponent (2 * d + 1) k with
  | .lt => d
  | .gt => d + 1
  | .eq => if d % 2 = 0 then d else d + 1

/-- The admitted multiple of `10 ^ k` nearest to the number, if one of its two neighbours on
that grid is admitted. -/
def Binary.onGrid? (b : Binary) (k : Int) : Option Nat :=
  let d := b.below k
  match b.admits d k, b.admits (d + 1) k with
  | true, true => some (b.nearer d k)
  | true, false => some d
  | false, true => some (d + 1)
  | false, false => none

/-- The first `e` at or above the start, with at most `steps` steps, for which the number is
less than `10 ^ e`. -/
def Binary.magnitude (b : Binary) : (steps : Nat) → Int → Int
  | 0, e => e
  | steps + 1, e =>
    match compareScaled b.mantissa b.exponent 1 e with
    | .lt => e
    | _ => b.magnitude steps (e + 1)

/-- The first grid, from the coarser to the finer, that holds an admitted decimal. -/
def Binary.search (b : Binary) : (steps : Nat) → Int → Scaled
  | 0, k => ⟨b.below k, k⟩
  | steps + 1, k =>
    match b.onGrid? k with
    | some d => ⟨d, k⟩
    | none => b.search steps (k - 1)

/-- Moves trailing zeros of the digits into the exponent. -/
def Scaled.normalize (x : Scaled) : Scaled :=
  if x.digits ≠ 0 ∧ x.digits % 10 = 0 then normalize ⟨x.digits / 10, x.exponent + 1⟩ else x
termination_by x.digits

/-- The shortest decimal that rounds to the number. Seventeen digits always suffice for a
double, and the estimate of the magnitude is low by at most two. -/
def Binary.shortest (b : Binary) : Scaled :=
  let bits : Int := b.exponent + b.mantissa.log2
  let e := b.magnitude 4 (Int.fdiv (bits * 30103) 100000 - 1)
  (b.search 18 e).normalize

/-- The sign bit of a double. -/
def isNegative (x : Float) : Bool := x.toBits.toNat >>> 63 == 1

/-- The number behind a finite double other than zero, without its sign. -/
def Binary.ofFloat (x : Float) : Binary :=
  let bits := x.toBits.toNat
  let hidden : Nat := 1 <<< 52
  let fraction : Nat := bits % hidden
  let biased : Nat := (bits >>> 52) % 2048
  if biased = 0 then ⟨fraction, -1074, false⟩
  else ⟨fraction + hidden, biased - 1075, fraction == 0 && biased != 1⟩

end GraphSchema.Decimal
