import GraphSchema.Encoding.Base64

/-!
# Base64 round trip

What is encoded is decoded again, and is ASCII.

## Main statements

* `Base64.decode_encode` — the decoder gives back the octets.
* `Base64.ascii_encode` — the characters are ASCII.
-/

namespace GraphSchema.Base64

variable {n : Nat} {a b : UInt8}

/-! ## Digits -/

theorem value?_digit (h : n < 64) : value? (digit n) = some n := by
  have hall : ∀ n < 64, value? (digit n) = some n := by decide +kernel
  exact hall n h

theorem digit_ne_padding (h : n < 64) : digit n ≠ '=' := by
  have hall : ∀ n < 64, digit n ≠ '=' := by decide +kernel
  exact hall n h

theorem ascii_digit (h : n < 64) : (digit n).toNat < 0x80 := by
  have hall : ∀ n < 64, (digit n).toNat < 0x80 := by decide +kernel
  exact hall n h

theorem ascii_encode (bs : List UInt8) : ∀ c ∈ encode bs, c.toNat < 0x80 := by
  fun_induction encode bs with
  | case1 => simp
  | case2 a n =>
    have ha := a.toNat_lt
    simp only [List.forall_mem_cons]
    exact ⟨ascii_digit (by omega), ascii_digit (by omega), by decide, by decide, by simp⟩
  | case3 a b n =>
    have ha := a.toNat_lt
    have hb := b.toNat_lt
    simp only [List.forall_mem_cons]
    exact ⟨ascii_digit (by omega), ascii_digit (by omega), ascii_digit (by omega), by decide,
      by simp⟩
  | case4 a b c rest n ih =>
    have ha := a.toNat_lt
    have hb := b.toNat_lt
    have hc := c.toNat_lt
    simp only [List.forall_mem_cons]
    exact ⟨ascii_digit (by omega), ascii_digit (by omega), ascii_digit (by omega),
      ascii_digit (by omega), ih⟩

/-! ## Groups -/

/-- A digit completes a group of four, or joins a shorter one. -/
theorem decodeFrom_digit {group : List Nat} {pads count : Nat} {cs : List Char} (h : n < 64) :
    decodeFrom group pads false count (digit n :: cs) =
      if group.length = 3 then
        (groupOctets (group ++ [n]) ++ ·) <$> decodeFrom [] 0 false (count + 1) cs
      else decodeFrom (group ++ [n]) 0 false (count + 1) cs := by
  rw [decodeFrom, if_neg (digit_ne_padding h), value?_digit h]
  rfl

/-- Padding completes a group of two. -/
theorem decodeFrom_padding_two {x y count : Nat} :
    decodeFrom [x, y] 0 false count ['=', '='] = .ok (groupOctets [x, y]) := rfl

/-- Padding completes a group of three. -/
theorem decodeFrom_padding_three {x y z count : Nat} :
    decodeFrom [x, y, z] 0 false count ['='] = .ok (groupOctets [x, y, z]) := rfl

theorem toUInt8_eq (h : n = a.toNat) : n.toUInt8 = a := by
  subst h
  exact UInt8.ofNat_toNat

/-! ## Texts -/

theorem decodeFrom_encode (bs : List UInt8) :
    ∀ count, decodeFrom [] 0 false count (encode bs) = .ok bs := by
  fun_induction encode bs with
  | case1 => exact fun _ => rfl
  | case2 a n =>
    intro count
    have ha := a.toNat_lt
    have hgroup : groupOctets [n / 64, n % 64] = [a] := by
      rw [groupOctets, toUInt8_eq (a := a) (by omega)]
    rw [decodeFrom_digit (by omega), if_neg (by simp), decodeFrom_digit (by omega),
      if_neg (by simp)]
    exact decodeFrom_padding_two.trans (congrArg Except.ok hgroup)
  | case3 a b n =>
    intro count
    have ha := a.toNat_lt
    have hb := b.toNat_lt
    have hgroup : groupOctets [n / 4096, n / 64 % 64, n % 64] = [a, b] := by
      rw [groupOctets, toUInt8_eq (a := a) (by omega), toUInt8_eq (a := b) (by omega)]
    rw [decodeFrom_digit (by omega), if_neg (by simp), decodeFrom_digit (by omega),
      if_neg (by simp), decodeFrom_digit (by omega), if_neg (by simp)]
    exact decodeFrom_padding_three.trans (congrArg Except.ok hgroup)
  | case4 a b c rest n ih =>
    intro count
    have ha := a.toNat_lt
    have hb := b.toNat_lt
    have hc := c.toNat_lt
    have hgroup : groupOctets [n / 262144, n / 4096 % 64, n / 64 % 64, n % 64] = [a, b, c] := by
      rw [groupOctets, toUInt8_eq (a := a) (by omega), toUInt8_eq (a := b) (by omega),
        toUInt8_eq (a := c) (by omega)]
    rw [decodeFrom_digit (by omega), if_neg (by simp), decodeFrom_digit (by omega),
      if_neg (by simp), decodeFrom_digit (by omega), if_neg (by simp),
      decodeFrom_digit (by omega), if_pos (by simp), ih]
    exact congrArg (fun octets => Except.ok (octets ++ rest)) hgroup

theorem head_encode_ne_padding (bs : List UInt8) : (encode bs).head? ≠ some '=' := by
  fun_cases encode bs with
  | case1 => simp
  | case2 a n =>
    have ha := a.toNat_lt
    simpa using digit_ne_padding (by omega)
  | case3 a b n =>
    have ha := a.toNat_lt
    have hb := b.toNat_lt
    simpa using digit_ne_padding (by omega)
  | case4 a b c rest n =>
    have ha := a.toNat_lt
    have hb := b.toNat_lt
    have hc := c.toNat_lt
    simpa using digit_ne_padding (by omega)

/-- What is encoded is decoded again. -/
theorem decode_encode (bs : List UInt8) : decode (encode bs) = .ok bs := by
  rw [decode, if_neg (head_encode_ne_padding bs)]
  exact decodeFrom_encode bs 0

end GraphSchema.Base64
