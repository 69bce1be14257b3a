/-!
# UTF-8

Texts as octets. The decoder reads one octet at a time and refuses the first octet, or the end
of the input, that no UTF-8 text can have there.

## Main definitions

* `encodeChar`, `encode` — the octets of a character and of a text.
* `Refusal` — where and why a sequence of octets is not UTF-8.
* `decode` — the text of a sequence of octets.
-/

namespace GraphSchema.Utf8

/-- An octet `10xxxxxx` that carries the low six bits of `n`. -/
def continuation (n : Nat) : UInt8 := (0x80 + n % 64).toUInt8

/-- One to four octets, by the size of the code point. -/
def encodeChar (c : Char) : List UInt8 :=
  let n := c.toNat
  if n < 0x80 then [n.toUInt8]
  else if n < 0x800 then [(0xc0 + n / 64).toUInt8, continuation n]
  else if n < 0x10000 then [(0xe0 + n / 4096).toUInt8, continuation (n / 64), continuation n]
  else [(0xf0 + n / 262144).toUInt8, continuation (n / 4096), continuation (n / 64),
    continuation n]

/-- The octets of a text. -/
def encode (cs : List Char) : List UInt8 := cs.flatMap encodeChar

/-- Why octets are refused. -/
inductive Reason where
  /-- No character starts with the octet. -/
  | start
  /-- The octets read start a character that the next octet cannot continue. -/
  | continuation
  /-- The input ends inside a character. -/
  | truncated
deriving DecidableEq

/-- The refused octets, a character begun or an octet that begins none, and their place. -/
structure Refusal where
  position : Nat
  octets : List UInt8
  reason : Reason
deriving DecidableEq

/-- A character begun: the octets read, the value they carry, how many more are due, and the
range in which the next one must lie. -/
structure Partial where
  octets : List UInt8
  value : Nat
  due : Nat
  low : Nat
  high : Nat

/-- What the first octet of a character of more than one octet announces. Overlong forms,
surrogates and code points beyond U+10FFFF are ruled out by the range of the second octet. -/
def Partial.start? (b : UInt8) : Option Partial :=
  let n := b.toNat
  if 0xc2 ≤ n ∧ n ≤ 0xdf then some ⟨[b], n - 0xc0, 1, 0x80, 0xbf⟩
  else if 0xe0 ≤ n ∧ n ≤ 0xef then
    some ⟨[b], n - 0xe0, 2, if n = 0xe0 then 0xa0 else 0x80, if n = 0xed then 0x9f else 0xbf⟩
  else if 0xf0 ≤ n ∧ n ≤ 0xf4 then
    some ⟨[b], n - 0xf0, 3, if n = 0xf0 then 0x90 else 0x80, if n = 0xf4 then 0x8f else 0xbf⟩
  else none

/-- The character begun, with a further octet in its range. -/
def Partial.push (p : Partial) (b : UInt8) : Partial :=
  ⟨p.octets ++ [b], p.value * 64 + (b.toNat - 0x80), p.due - 1, 0x80, 0xbf⟩

/-- Decodes octets from `position` on, the first of the character begun, if there is one. -/
def decodeFrom (position : Nat) : Option Partial → List UInt8 → Except Refusal (List Char)
  | none, [] => .ok []
  | some p, [] => .error ⟨position, p.octets, .truncated⟩
  | none, b :: bs =>
    if b.toNat < 0x80 then (Char.ofNat b.toNat :: ·) <$> decodeFrom (position + 1) none bs
    else match Partial.start? b with
      | some p => decodeFrom position (some p) bs
      | none => .error ⟨position, [b], .start⟩
  | some p, b :: bs =>
    if p.low ≤ b.toNat ∧ b.toNat ≤ p.high then
      let q := p.push b
      if q.due = 0 then
        (Char.ofNat q.value :: ·) <$> decodeFrom (position + q.octets.length) none bs
      else decodeFrom position (some q) bs
    else .error ⟨position, p.octets, .continuation⟩

/-- The text of a sequence of octets, or the first refusal. -/
def decode (bs : List UInt8) : Except Refusal (List Char) := decodeFrom 0 none bs

/-- The wording of a reason. -/
def Reason.message : Reason → String
  | .start => "invalid start byte"
  | .continuation => "invalid continuation byte"
  | .truncated => "unexpected end of data"

/-- An octet as two hexadecimal digits. -/
def hexOctet (b : UInt8) : String :=
  String.ofList [Nat.digitChar (b.toNat / 16), Nat.digitChar (b.toNat % 16)]

/-- The wording of a refusal: one octet is shown, of several the positions. -/
def Refusal.message (r : Refusal) : String :=
  "'utf-8' codec can't decode " ++
    (match r.octets with
      | [b] => "byte 0x" ++ hexOctet b ++ " in position " ++ toString r.position
      | bs => "bytes in position " ++ toString r.position ++ "-" ++
          toString (r.position + bs.length - 1)) ++
    ": " ++ r.reason.message

end GraphSchema.Utf8
