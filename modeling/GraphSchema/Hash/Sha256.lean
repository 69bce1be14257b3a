/-!
# SHA-256

The hash of a sequence of octets as FIPS 180-4 defines it, written in hexadecimal.

## Main definitions

* `pad` — the message with its padding, a multiple of 64 octets.
* `compress` — the compression function on one block.
* `hexDigest` — the hash of a message as 64 hexadecimal digits.
-/

namespace GraphSchema.Sha256

/-- The round constants: the first 32 bits of the fractions of the cube roots of primes. -/
def roundConstants : List UInt32 := [
  0x428a2f98, 0x71374491, 0xb5c0fbcf, 0xe9b5dba5, 0x3956c25b, 0x59f111f1, 0x923f82a4, 0xab1c5ed5,
  0xd807aa98, 0x12835b01, 0x243185be, 0x550c7dc3, 0x72be5d74, 0x80deb1fe, 0x9bdc06a7, 0xc19bf174,
  0xe49b69c1, 0xefbe4786, 0x0fc19dc6, 0x240ca1cc, 0x2de92c6f, 0x4a7484aa, 0x5cb0a9dc, 0x76f988da,
  0x983e5152, 0xa831c66d, 0xb00327c8, 0xbf597fc7, 0xc6e00bf3, 0xd5a79147, 0x06ca6351, 0x14292967,
  0x27b70a85, 0x2e1b2138, 0x4d2c6dfc, 0x53380d13, 0x650a7354, 0x766a0abb, 0x81c2c92e, 0x92722c85,
  0xa2bfe8a1, 0xa81a664b, 0xc24b8b70, 0xc76c51a3, 0xd192e819, 0xd6990624, 0xf40e3585, 0x106aa070,
  0x19a4c116, 0x1e376c08, 0x2748774c, 0x34b0bcb5, 0x391c0cb3, 0x4ed8aa4a, 0x5b9cca4f, 0x682e6ff3,
  0x748f82ee, 0x78a5636f, 0x84c87814, 0x8cc70208, 0x90befffa, 0xa4506ceb, 0xbef9a3f7, 0xc67178f2]

/-- The eight working words. -/
structure State where
  a : UInt32
  b : UInt32
  c : UInt32
  d : UInt32
  e : UInt32
  f : UInt32
  g : UInt32
  h : UInt32
deriving DecidableEq

/-- The initial words: the first 32 bits of the fractions of the square roots of primes. -/
def State.initial : State :=
  ⟨0x6a09e667, 0xbb67ae85, 0x3c6ef372, 0xa54ff53a, 0x510e527f, 0x9b05688c, 0x1f83d9ab, 0x5be0cd19⟩

/-- Wordwise addition modulo `2 ^ 32`. -/
def State.add (s t : State) : State :=
  ⟨s.a + t.a, s.b + t.b, s.c + t.c, s.d + t.d, s.e + t.e, s.f + t.f, s.g + t.g, s.h + t.h⟩

/-- The word turned to the right by `n` bits, for `n` from 1 to 31. -/
def rotateRight (x n : UInt32) : UInt32 := (x >>> n) ||| (x <<< (32 - n))

/-- One round with its constant and its word of the message schedule. -/
def State.round (s : State) (k w : UInt32) : State :=
  let sum1 := rotateRight s.e 6 ^^^ rotateRight s.e 11 ^^^ rotateRight s.e 25
  let choice := (s.e &&& s.f) ^^^ (~~~s.e &&& s.g)
  let t1 := s.h + sum1 + choice + k + w
  let sum0 := rotateRight s.a 2 ^^^ rotateRight s.a 13 ^^^ rotateRight s.a 22
  let majority := (s.a &&& s.b) ^^^ (s.a &&& s.c) ^^^ (s.b &&& s.c)
  ⟨t1 + (sum0 + majority), s.a, s.b, s.c, s.d + t1, s.e, s.f, s.g⟩

/-- The rounds of one block. `window` holds the sixteen schedule words that are due next; each
round uses its first and appends the word sixteen places on. -/
def State.rounds : State → (window : List UInt32) → (constants : List UInt32) → State
  | s, _, [] => s
  | s, window, k :: ks =>
    let w := window.getD 0 0
    let w1 := window.getD 1 0
    let w14 := window.getD 14 0
    let small0 := rotateRight w1 7 ^^^ rotateRight w1 18 ^^^ (w1 >>> 3)
    let small1 := rotateRight w14 17 ^^^ rotateRight w14 19 ^^^ (w14 >>> 10)
    (s.round k w).rounds (window.drop 1 ++ [w + small0 + window.getD 9 0 + small1]) ks

/-- Big-endian words of a sequence of octets whose length is a multiple of four. -/
def words : List UInt8 → List UInt32
  | a :: b :: c :: d :: rest =>
    (a.toUInt32 <<< 24 ||| b.toUInt32 <<< 16 ||| c.toUInt32 <<< 8 ||| d.toUInt32) :: words rest
  | _ => []

/-- The state after one block of sixteen words. -/
def State.compress (s : State) (block : List UInt32) : State :=
  s.add (s.rounds block roundConstants)

/-- The `n` low octets of `x`, the highest first. -/
def bigEndian (x : Nat) : (n : Nat) → List UInt8
  | 0 => []
  | n + 1 => (x / 256 ^ n).toUInt8 :: bigEndian x n

/-- A one bit, zeros up to eight octets before a full block, and the length in bits. -/
def pad (message : List UInt8) : List UInt8 :=
  let zeros := (64 - (message.length + 9) % 64) % 64
  message ++ 0x80 :: List.replicate zeros 0 ++ bigEndian (8 * message.length) 8

/-- The state after the blocks of a sequence of words. -/
def State.absorb (s : State) (ws : List UInt32) : State :=
  if ws.length < 16 then s else (s.compress (ws.take 16)).absorb (ws.drop 16)
termination_by ws.length
decreasing_by grind

/-- A word as eight hexadecimal digits. -/
def hexWord (w : UInt32) : List Char :=
  (bigEndian w.toNat 4).flatMap fun b =>
    [Nat.digitChar (b.toNat / 16), Nat.digitChar (b.toNat % 16)]

/-- The hash of a message as 64 hexadecimal digits. -/
def hexDigest (message : List UInt8) : String :=
  let s := State.initial.absorb (words (pad message))
  String.ofList ([s.a, s.b, s.c, s.d, s.e, s.f, s.g, s.h].flatMap hexWord)

end GraphSchema.Sha256
