import GraphSchema.Encoding.Utf8
import GraphSchema.Proofs.Encoding.Base64
import GraphSchema.Proofs.Traversal
import Mathlib.Algebra.Group.Nat.Defs

/-!
# UTF-8 round trip

What is encoded is decoded again, and nothing else is decoded.

## Main definitions

* `Utf8.Partial.Announces` — whether the octets read start every character that they leave open.

## Main statements

* `Utf8.decodeFrom_encodeChar` — the decoder reads one encoded character.
* `Utf8.decode_encode` — the decoder gives back the text.
* `Utf8.toByteArray_encode` — texts are encoded as the standard library does it.
* `Utf8.decode_eq_ok_iff` — the decoder accepts exactly the octets of texts.
-/

namespace GraphSchema.Utf8

open Base64 (toUInt8_eq)

variable {n position : Nat} {bs : List UInt8}

/-! ## Octets -/

theorem toNat_toUInt8 (h : n < 256) : n.toUInt8.toNat = n :=
  Nat.mod_eq_of_lt h

theorem toNat_continuation : (continuation n).toNat = 0x80 + n % 64 :=
  toNat_toUInt8 (by omega)

/-- Code points are below the surrogates or above them. -/
theorem toNat_cases (c : Char) :
    c.toNat < 0xd800 ∨ (0xdfff < c.toNat ∧ c.toNat < 0x110000) := c.valid

/-! ## The first octet -/

theorem start?_two (hlow : 0x80 ≤ n) (hhigh : n < 0x800) :
    Partial.start? (0xc0 + n / 64).toUInt8 =
      some ⟨[(0xc0 + n / 64).toUInt8], n / 64, 1, 0x80, 0xbf⟩ := by
  have hoctet : (0xc0 + n / 64).toUInt8.toNat = 0xc0 + n / 64 := toNat_toUInt8 (by omega)
  simp only [Partial.start?, hoctet]
  rw [if_pos (by omega), Nat.add_sub_cancel_left]

/-- The range that the first of three octets announces has the second one in it. -/
theorem exists_start?_three (hlow : 0x800 ≤ n) (hhigh : n < 0x10000)
    (hvalid : n < 0xd800 ∨ 0xdfff < n) :
    ∃ low high, Partial.start? (0xe0 + n / 4096).toUInt8 =
        some ⟨[(0xe0 + n / 4096).toUInt8], n / 4096, 2, low, high⟩ ∧
      low ≤ 0x80 + n / 64 % 64 ∧ 0x80 + n / 64 % 64 ≤ high := by
  have hoctet : (0xe0 + n / 4096).toUInt8.toNat = 0xe0 + n / 4096 := toNat_toUInt8 (by omega)
  simp only [Partial.start?, hoctet]
  rw [if_neg (by omega), if_pos (by omega), Nat.add_sub_cancel_left]
  refine ⟨_, _, rfl, ?_, ?_⟩
  · split <;> omega
  · split <;> omega

/-- The range that the first of four octets announces has the second one in it. -/
theorem exists_start?_four (hlow : 0x10000 ≤ n) (hhigh : n < 0x110000) :
    ∃ low high, Partial.start? (0xf0 + n / 262144).toUInt8 =
        some ⟨[(0xf0 + n / 262144).toUInt8], n / 262144, 3, low, high⟩ ∧
      low ≤ 0x80 + n / 4096 % 64 ∧ 0x80 + n / 4096 % 64 ≤ high := by
  have hoctet : (0xf0 + n / 262144).toUInt8.toNat = 0xf0 + n / 262144 := toNat_toUInt8 (by omega)
  simp only [Partial.start?, hoctet]
  rw [if_neg (by omega), if_neg (by omega), if_pos (by omega), Nat.add_sub_cancel_left]
  refine ⟨_, _, rfl, ?_, ?_⟩
  · split <;> omega
  · split <;> omega

theorem decodeFrom_start {b : UInt8} {p : Partial} (hb : 0x80 ≤ b.toNat)
    (hp : Partial.start? b = some p) :
    decodeFrom position none (b :: bs) = decodeFrom position (some p) bs := by
  rw [decodeFrom, if_neg (by omega), hp]

/-! ## Further octets -/

section Further

variable {octets : List UInt8} {value due low high : Nat}

/-- An octet in its range continues the character begun. -/
theorem decodeFrom_push (hlow : low ≤ 0x80 + n % 64) (hhigh : 0x80 + n % 64 ≤ high) :
    decodeFrom position (some ⟨octets, value, due + 2, low, high⟩) (continuation n :: bs) =
      decodeFrom position (some ⟨octets ++ [continuation n], value * 64 + n % 64, due + 1,
        0x80, 0xbf⟩) bs := by
  rw [decodeFrom, toNat_continuation, if_pos ⟨hlow, hhigh⟩]
  simp only [Partial.push, toNat_continuation, Nat.add_sub_cancel_left]
  rw [if_neg (by omega)]
  rfl

/-- The last octet due ends the character. -/
theorem decodeFrom_last (hlow : low ≤ 0x80 + n % 64) (hhigh : 0x80 + n % 64 ≤ high) :
    decodeFrom position (some ⟨octets, value, 1, low, high⟩) (continuation n :: bs) =
      (Char.ofNat (value * 64 + n % 64) :: ·) <$>
        decodeFrom (position + (octets ++ [continuation n]).length) none bs := by
  rw [decodeFrom, toNat_continuation, if_pos ⟨hlow, hhigh⟩]
  simp only [Partial.push, toNat_continuation, Nat.add_sub_cancel_left]
  rfl

end Further

/-! ## Texts -/

/-- The decoder reads one encoded character, and goes on after it. -/
theorem decodeFrom_encodeChar (c : Char) :
    decodeFrom position none (encodeChar c ++ bs) =
      (c :: ·) <$> decodeFrom (position + (encodeChar c).length) none bs := by
  have hvalid := toNat_cases c
  have hback : Char.ofNat c.toNat = c := Char.ofNat_toNat c
  unfold encodeChar
  generalize c.toNat = n at *
  dsimp only
  split
  · next h =>
    have hoctet : n.toUInt8.toNat = n := toNat_toUInt8 (by omega)
    rw [List.singleton_append, decodeFrom, hoctet, if_pos h, hback]
    rfl
  split
  · next h =>
    have hoctet : (0xc0 + n / 64).toUInt8.toNat = 0xc0 + n / 64 := toNat_toUInt8 (by omega)
    have hvalue : n / 64 * 64 + n % 64 = n := by omega
    simp only [List.cons_append, List.nil_append]
    rw [decodeFrom_start (by omega) (start?_two (by omega) h),
      decodeFrom_last (by omega) (by omega), hvalue, hback]
    rfl
  split
  · next h =>
    have hoctet : (0xe0 + n / 4096).toUInt8.toNat = 0xe0 + n / 4096 := toNat_toUInt8 (by omega)
    have hvalue : (n / 4096 * 64 + n / 64 % 64) * 64 + n % 64 = n := by omega
    obtain ⟨low, high, hstart, hlow, hhigh⟩ :=
      exists_start?_three (n := n) (by omega) h (by omega)
    simp only [List.cons_append, List.nil_append]
    rw [decodeFrom_start (by omega) hstart, decodeFrom_push hlow hhigh,
      decodeFrom_last (by omega) (by omega), hvalue, hback]
    rfl
  · next h =>
    have hoctet : (0xf0 + n / 262144).toUInt8.toNat = 0xf0 + n / 262144 :=
      toNat_toUInt8 (by omega)
    have hvalue : ((n / 262144 * 64 + n / 4096 % 64) * 64 + n / 64 % 64) * 64 + n % 64 = n := by
      omega
    obtain ⟨low, high, hstart, hlow, hhigh⟩ := exists_start?_four (n := n) (by omega) (by omega)
    simp only [List.cons_append, List.nil_append]
    rw [decodeFrom_start (by omega) hstart, decodeFrom_push hlow hhigh,
      decodeFrom_push (by omega) (by omega), decodeFrom_last (by omega) (by omega), hvalue, hback]
    rfl

theorem decodeFrom_encode (cs : List Char) :
    ∀ position, decodeFrom position none (encode cs) = .ok cs := by
  induction cs with
  | nil => exact fun _ => rfl
  | cons c cs ih =>
    intro position
    rw [encode, List.flatMap_cons, decodeFrom_encodeChar, ← encode, ih]
    rfl

/-- What is encoded is decoded again. -/
theorem decode_encode (cs : List Char) : decode (encode cs) = .ok cs :=
  decodeFrom_encode cs 0

/-! ## The standard encoding -/

/-- A character is encoded as the standard library does it. -/
theorem encodeChar_eq_utf8EncodeChar (c : Char) : encodeChar c = String.utf8EncodeChar c := by
  have hvalid := toNat_cases c
  have hval : c.val.toNat = c.toNat := rfl
  simp only [encodeChar, String.utf8EncodeChar, continuation, Nat.toUInt8, hval]
  generalize c.toNat = n at *
  have hone : n < 0x80 ↔ n ≤ 127 := by omega
  have htwo : n < 0x800 ↔ n ≤ 2047 := by omega
  have hthree : n < 0x10000 ↔ n ≤ 65535 := by omega
  simp only [hone, htwo, hthree]
  split
  · rfl
  split
  · have hfirst : 0xc0 + n / 64 = n / 64 % 32 + 192 := by omega
    rw [hfirst, Nat.add_comm (n % 64)]
  split
  · have hfirst : 0xe0 + n / 4096 = n / 4096 % 16 + 224 := by omega
    simp only [hfirst, Nat.add_comm 0x80]
  · have hfirst : 0xf0 + n / 262144 = n / 262144 % 8 + 240 := by omega
    simp only [hfirst, Nat.add_comm 0x80]

/-- A text is encoded as the standard library does it. -/
theorem toByteArray_encode (text : String) : (encode text.toList).toByteArray = text.toUTF8 := by
  have hchars : encodeChar = String.utf8EncodeChar := funext encodeChar_eq_utf8EncodeChar
  rw [encode, hchars, String.toUTF8_eq_toByteArray, ← String.utf8Encode_toList]
  rfl

/-! ## Characters begun -/

theorem toNat_ofNat (h : n < 0xd800 ∨ (0xdfff < n ∧ n < 0x110000)) : (Char.ofNat n).toNat = n := by
  have hvalid : n.isValidChar := h
  rw [Char.ofNat, dif_pos hvalid]
  rfl

/-- The octets that carry the lowest `due` groups of six bits of `n`. -/
def trailing (n : Nat) : Nat → List UInt8
  | 0 => []
  | due + 1 => continuation (n / 64 ^ due) :: trailing n due

theorem encodeChar_one (h : n < 0x80) : encodeChar (Char.ofNat n) = [n.toUInt8] := by
  simp only [encodeChar, toNat_ofNat (n := n) (by omega), if_pos h]

theorem encodeChar_two (hlow : 0x80 ≤ n) (hhigh : n < 0x800) :
    encodeChar (Char.ofNat n) = (0xc0 + n / 64).toUInt8 :: trailing n 1 := by
  simp only [encodeChar, toNat_ofNat (n := n) (by omega)]
  rw [if_neg (by omega), if_pos hhigh]
  simp [trailing]

theorem encodeChar_three (hlow : 0x800 ≤ n) (hhigh : n < 0x10000)
    (hvalid : n < 0xd800 ∨ 0xdfff < n) :
    encodeChar (Char.ofNat n) = (0xe0 + n / 4096).toUInt8 :: trailing n 2 := by
  simp only [encodeChar, toNat_ofNat (n := n) (by omega)]
  rw [if_neg (by omega), if_neg (by omega), if_pos hhigh]
  simp [trailing]

theorem encodeChar_four (hlow : 0x10000 ≤ n) (hhigh : n < 0x110000) :
    encodeChar (Char.ofNat n) = (0xf0 + n / 262144).toUInt8 :: trailing n 3 := by
  simp only [encodeChar, toNat_ofNat (n := n) (by omega)]
  rw [if_neg (by omega), if_neg (by omega), if_neg (by omega)]
  simp [trailing]

/-- Whether the octets read start every character that they announce: every one with their value in
front of the groups that are due, the first of these in its range. -/
structure Partial.Announces (p : Partial) : Prop where
  due_pos : 0 < p.due
  low_le : 0x80 ≤ p.low
  le_high : p.high ≤ 0xbf
  encodeChar_eq : ∀ n, n / 64 ^ p.due = p.value →
    p.low ≤ 0x80 + n / 64 ^ (p.due - 1) % 64 → 0x80 + n / 64 ^ (p.due - 1) % 64 ≤ p.high →
      encodeChar (Char.ofNat n) = p.octets ++ trailing n p.due

/-- The first octet of a character announces it. -/
theorem Partial.announces_of_start? {b : UInt8} {p : Partial} (h : Partial.start? b = some p) :
    p.octets = [b] ∧ p.Announces := by
  simp only [Partial.start?] at h
  split at h
  · cases h
    refine ⟨rfl, by simp, by simp, by simp, fun n hn _ _ => ?_⟩
    simp only [Nat.pow_one] at hn
    rw [encodeChar_two (by omega) (by omega), toUInt8_eq (a := b) (by omega)]
    rfl
  split at h
  · cases h
    refine ⟨rfl, by simp, by grind, by grind, fun n hn hlow hhigh => ?_⟩
    simp only [Nat.reducePow, Nat.reduceSub, Nat.pow_one] at hn hlow hhigh
    -- the range of the second octet rules out what two octets can say, and the surrogates
    have hvalid : 0x800 ≤ n ∧ (n < 0xd800 ∨ 0xdfff < n) := by
      split at hlow <;> split at hhigh <;> omega
    rw [encodeChar_three hvalid.1 (by omega) hvalid.2, toUInt8_eq (a := b) (by omega)]
    rfl
  split at h
  · cases h
    refine ⟨rfl, by simp, by grind, by grind, fun n hn hlow hhigh => ?_⟩
    simp only [Nat.reducePow, Nat.reduceSub] at hn hlow hhigh
    -- here what three octets can say, and what no code point is
    have hvalid : 0x10000 ≤ n ∧ n < 0x110000 := by
      split at hlow <;> split at hhigh <;> omega
    rw [encodeChar_four hvalid.1 hvalid.2, toUInt8_eq (a := b) (by omega)]
    rfl
  · cases h

namespace Partial.Announces

variable {p : Partial} {b : UInt8}

/-- An octet in its range is the next group of the characters that it leaves. -/
theorem encodeChar_push (h : p.Announces) (hlow : p.low ≤ b.toNat) (hhigh : b.toNat ≤ p.high)
    (hn : n / 64 ^ (p.push b).due = (p.push b).value) :
    encodeChar (Char.ofNat n) = (p.push b).octets ++ trailing n (p.push b).due := by
  obtain ⟨octets, value, due, low, high⟩ := p
  obtain ⟨hdue, hlow', hhigh', hchar⟩ := h
  obtain ⟨due, rfl⟩ : ∃ k, due = k + 1 := Nat.exists_eq_add_one.2 hdue
  simp only [Partial.push, Nat.add_sub_cancel] at *
  have hgroup : n / 64 ^ due % 64 = b.toNat - 0x80 := by omega
  have hvalue : n / 64 ^ (due + 1) = value := by
    rw [Nat.pow_succ, ← Nat.div_div_eq_div_mul]
    omega
  have hb : continuation (n / 64 ^ due) = b := toUInt8_eq (a := b) (by omega)
  rw [hchar n hvalue (by omega) (by omega), trailing, hb, List.append_assoc]
  rfl

/-- As long as something is due, the octets read announce a character. -/
theorem push (h : p.Announces) (hlow : p.low ≤ b.toNat) (hhigh : b.toNat ≤ p.high)
    (hdue : (p.push b).due ≠ 0) : (p.push b).Announces :=
  ⟨Nat.pos_of_ne_zero hdue, Nat.le_refl _, Nat.le_refl _,
    fun _ hn _ _ => h.encodeChar_push hlow hhigh hn⟩

/-- When nothing is due, the octets read are the character. -/
theorem encodeChar_last (h : p.Announces) (hlow : p.low ≤ b.toNat) (hhigh : b.toNat ≤ p.high)
    (hdue : (p.push b).due = 0) :
    encodeChar (Char.ofNat (p.push b).value) = (p.push b).octets := by
  have hchar := h.encodeChar_push hlow hhigh (n := (p.push b).value) (by rw [hdue]; simp)
  rwa [hdue, trailing, List.append_nil] at hchar

end Partial.Announces

/-! ## Decoded octets -/

/-- What is decoded is encoded to the octets read, those of the character begun among them. -/
theorem encode_of_decodeFrom {begun : Option Partial} {cs : List Char}
    (hbegun : ∀ p ∈ begun, p.Announces) (h : decodeFrom position begun bs = .ok cs) :
    encode cs = begun.elim [] Partial.octets ++ bs := by
  -- on the steps of the decoder; the octets of the character begun are not decoded yet
  fun_induction decodeFrom position begun bs generalizing cs with
  | case1 position =>
    cases h
    rfl
  | case2 position p => cases h
  | case3 position b bs hb ih =>
    obtain ⟨rest, hrest, rfl⟩ := exists_of_map_eq_ok h
    rw [encode, List.flatMap_cons, encodeChar_one hb, toUInt8_eq (a := b) rfl, ← encode,
      ih (by simp) hrest]
    rfl
  | case4 position b bs hb p hp ih =>
    obtain ⟨hoctets, hannounces⟩ := Partial.announces_of_start? hp
    rw [ih (by simpa using hannounces) h, Option.elim_some, hoctets]
    rfl
  | case5 position b bs hb hp => cases h
  | case6 position p b bs hrange q hdue =>
    rename_i ih
    obtain ⟨rest, hrest, rfl⟩ := exists_of_map_eq_ok h
    rw [encode, List.flatMap_cons, (hbegun p rfl).encodeChar_last hrange.1 hrange.2 hdue, ← encode,
      ih (by simp) hrest]
    exact List.append_assoc _ _ _
  | case7 position p b bs hrange q hdue =>
    rename_i ih
    have hannounces := (hbegun p rfl).push hrange.1 hrange.2 hdue
    rw [ih (by simpa using hannounces) h]
    exact List.append_assoc _ _ _
  | case8 position p b bs hrange => cases h

/-- The decoder accepts exactly the octets of texts. -/
theorem decode_eq_ok_iff {cs : List Char} : decode bs = .ok cs ↔ bs = encode cs := by
  constructor
  · intro h
    exact (encode_of_decodeFrom (by simp) h).symm
  · rintro rfl
    exact decode_encode cs

end GraphSchema.Utf8
