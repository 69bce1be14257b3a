/-!
# Base64

Octets as characters of the alphabet `A-Z a-z 0-9 + /`, four characters for three octets, with
padding. The decoder is strict: it refuses characters outside the alphabet, padding at the
start, inside or missing, and anything after the padding. It does not look at the unused bits
of the last character, and padding after complete groups is ignored.

## Main definitions

* `encode` — the padded characters of a sequence of octets.
* `Refusal` — why a text is not Base64.
* `decode` — the octets of a text.
-/

namespace GraphSchema.Base64

/-- The character for a value below 64. -/
def digit (n : Nat) : Char :=
  if n < 26 then Char.ofNat (0x41 + n)
  else if n < 52 then Char.ofNat (0x61 + (n - 26))
  else if n < 62 then Char.ofNat (0x30 + (n - 52))
  else if n = 62 then '+'
  else '/'

/-- The value of a character of the alphabet. -/
def value? (c : Char) : Option Nat :=
  let n := c.toNat
  if 0x41 ≤ n ∧ n ≤ 0x5a then some (n - 0x41)
  else if 0x61 ≤ n ∧ n ≤ 0x7a then some (n - 0x61 + 26)
  else if 0x30 ≤ n ∧ n ≤ 0x39 then some (n - 0x30 + 52)
  else if c = '+' then some 62
  else if c = '/' then some 63
  else none

/-- Three octets at a time; one or two octets at the end are padded to a full group. -/
def encode : List UInt8 → List Char
  | [] => []
  | [a] =>
    let n := a.toNat * 16
    [digit (n / 64), digit (n % 64), '=', '=']
  | [a, b] =>
    let n := (a.toNat * 256 + b.toNat) * 4
    [digit (n / 4096), digit (n / 64 % 64), digit (n % 64), '=']
  | a :: b :: c :: rest =>
    let n := (a.toNat * 256 + b.toNat) * 256 + c.toNat
    digit (n / 262144) :: digit (n / 4096 % 64) :: digit (n / 64 % 64) :: digit (n % 64) ::
      encode rest

/-- Why a text is refused. -/
inductive Refusal where
  | leadingPadding
  | outsideAlphabet
  | discontinuousPadding
  | excessData
  | incorrectPadding
  /-- The `count` data characters leave a single one without a partner. -/
  | loneCharacter (count : Nat)
deriving DecidableEq

/-- The octets of a group of two, three or four values; unused bits are dropped. -/
def groupOctets : List Nat → List UInt8
  | [a, b] => [(a * 4 + b / 16).toUInt8]
  | [a, b, c] => [(a * 4 + b / 16).toUInt8, (b % 16 * 16 + c / 4).toUInt8]
  | [a, b, c, d] =>
    [(a * 4 + b / 16).toUInt8, (b % 16 * 16 + c / 4).toUInt8, (c % 4 * 64 + d).toUInt8]
  | _ => []

/-- Decodes the rest of a text. `group` holds the values read of the group begun, `pads` the
padding that completes it so far, `padded` says whether padding has begun, and `count` is the
number of data characters read. -/
def decodeFrom (group : List Nat) (pads : Nat) (padded : Bool) (count : Nat) :
    List Char → Except Refusal (List UInt8)
  | [] =>
    match group with
    | [] => .ok []
    | [_] => .error (.loneCharacter count)
    | _ => .error .incorrectPadding
  | c :: cs =>
    if c = '=' then
      if group.length < 2 then decodeFrom group pads true count cs
      else if group.length + pads + 1 < 4 then decodeFrom group (pads + 1) true count cs
      else if cs = [] then .ok (groupOctets group)
      else .error .excessData
    else match value? c with
      | none => .error .outsideAlphabet
      | some v =>
        if padded then .error .discontinuousPadding
        else if group.length = 3 then
          (groupOctets (group ++ [v]) ++ ·) <$> decodeFrom [] 0 false (count + 1) cs
        else decodeFrom (group ++ [v]) 0 false (count + 1) cs

/-- The octets of a text, or the first refusal. -/
def decode (cs : List Char) : Except Refusal (List UInt8) :=
  if cs.head? = some '=' then .error .leadingPadding else decodeFrom [] 0 false 0 cs

/-- The wording of a refusal. -/
def Refusal.message : Refusal → String
  | .leadingPadding => "Leading padding not allowed"
  | .outsideAlphabet => "Only base64 data is allowed"
  | .discontinuousPadding => "Discontinuous padding not allowed"
  | .excessData => "Excess data after padding"
  | .incorrectPadding => "Incorrect padding"
  | .loneCharacter count =>
    "Invalid base64-encoded string: number of data characters (" ++ toString count ++
      ") cannot be 1 more than a multiple of 4"

end GraphSchema.Base64
