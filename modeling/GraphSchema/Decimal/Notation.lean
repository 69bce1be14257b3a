import GraphSchema.Decimal.Shortest

/-!
# Decimal notation

How floating-point numbers are written: positionally with a decimal point while the point
stands close to the digits, and with an exponent of at least two digits beyond.

## Main definitions

* `Scaled.text` — the notation of a positive decimal.
* `floatText` — the notation of a double.
-/

namespace GraphSchema.Decimal

/-- Decimals from here on, as powers of ten, are written with an exponent. -/
def exponentFrom : Int := 16

/-- Decimals below this power of ten are written with an exponent. -/
def exponentBelow : Int := -4

/-- An exponent with its sign and at least two digits. -/
def exponentText (e : Int) : String :=
  let digits := toString e.natAbs
  (if e < 0 then "e-" else "e+") ++ (if digits.length < 2 then "0" ++ digits else digits)

/-- The notation of a positive decimal without trailing zeros in its digits. -/
def Scaled.text (x : Scaled) : String :=
  let digits := toString x.digits
  let point : Int := digits.length + x.exponent
  if exponentBelow < point ∧ point ≤ exponentFrom then
    if point ≤ 0 then "0." ++ zeros (-point) ++ digits
    else if point < digits.length then
      String.ofList (digits.toList.take point.toNat) ++ "." ++
        String.ofList (digits.toList.drop point.toNat)
    else digits ++ zeros x.exponent ++ ".0"
  else
    let rest := String.ofList (digits.toList.drop 1)
    String.ofList (digits.toList.take 1) ++ (if rest.isEmpty then "" else "." ++ rest) ++
      exponentText (point - 1)
where
  zeros (n : Int) : String := String.ofList (List.replicate n.toNat '0')

/-- The notation of a double: the shortest decimal that reads back as it. -/
def floatText (x : Float) : String :=
  if x.isNaN then "nan"
  else
    let sign := if isNegative x then "-" else ""
    if x.isInf then sign ++ "inf"
    else if x == 0 then sign ++ "0.0"
    else sign ++ (Binary.ofFloat x).shortest.text

end GraphSchema.Decimal
