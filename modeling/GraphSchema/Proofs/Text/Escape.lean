import GraphSchema.Proofs.Text.Reading
import GraphSchema.Text.Escape
import Mathlib.Tactic.NormNum

/-!
# Literals of texts

A text can be read off its literal, whatever follows: the escapes of no two characters start with
one another, and a quote in the text does not end it.

## Main definitions

* `Text.Escapes` — the ways to write a character in a literal.

## Main statements

* `Text.hex_inj` — numbers of a fixed width.
* `Text.jsonChar_append_inj` — single characters.
* `Text.jsonQuoted_append_inj` — whole texts.
-/

namespace GraphSchema.Text

variable {n m k : Nat} {c d : Char} {s t u v x y : List Char}

/-! ## Numbers of a fixed width -/

theorem digitChar_inj (hn : n < 16) (hm : m < 16) (h : n.digitChar = m.digitChar) : n = m := by
  have hall : ∀ i < 16, ∀ j < 16, Nat.digitChar i = Nat.digitChar j → i = j := by decide
  exact hall n hn m hm h

theorem length_hex (hk : 0 < k) (hn : n < 16 ^ k) : (hex k n).length = k := by
  have := (Nat.length_toDigits_le_iff (b := 16) (by norm_num) hk).2 hn
  simp only [hex, List.length_append, List.length_replicate]
  omega

/-- The last digit, and those before it. -/
theorem hex_succ (hk : 0 < k) : hex (k + 1) n = hex k (n / 16) ++ [(n % 16).digitChar] := by
  unfold hex
  by_cases hn : n < 16
  · rw [Nat.div_eq_of_lt hn, Nat.mod_eq_of_lt hn, Nat.toDigits_of_lt_base hn, Nat.toDigits_zero]
    obtain ⟨k, rfl⟩ := Nat.exists_eq_succ_of_ne_zero hk.ne'
    simp [← List.replicate_succ']
  · rw [Nat.toDigits_of_base_le (by norm_num) (not_lt.1 hn)]
    simp

/-- A number is known from its digits, if there are enough of them. -/
theorem hex_inj (hk : 0 < k) (hn : n < 16 ^ k) (hm : m < 16 ^ k) (h : hex k n = hex k m) :
    n = m := by
  induction k, hk using Nat.le_induction generalizing n m with
  | base =>
    rw [hex, hex, Nat.toDigits_of_lt_base (by simpa using hn),
      Nat.toDigits_of_lt_base (by simpa using hm)] at h
    exact digitChar_inj (by simpa using hn) (by simpa using hm) (by simpa using h)
  | succ k hk ih =>
    rw [hex_succ hk, hex_succ hk] at h
    obtain ⟨hrest, hlast⟩ := List.append_inj' h rfl
    have hdiv : n / 16 = m / 16 :=
      ih (by rw [pow_succ] at hn; omega) (by rw [pow_succ] at hm; omega) hrest
    have hmod : n % 16 = m % 16 :=
      digitChar_inj (Nat.mod_lt n (by norm_num)) (Nat.mod_lt m (by norm_num)) (by simpa using hlast)
    omega

/-- Units are read one by one. -/
theorem unitEscape_append_inj (hn : n < 0x10000) (hm : m < 0x10000)
    (h : unitEscape n ++ x = unitEscape m ++ y) : n = m ∧ x = y := by
  have hlength {i : Nat} (hi : i < 0x10000) : (hex 4 i).length = 4 := length_hex (by norm_num) hi
  simp only [unitEscape, List.cons_append, List.cons.injEq, true_and] at h
  obtain ⟨hdigits, hrest⟩ := List.append_inj h (by rw [hlength hn, hlength hm])
  exact ⟨hex_inj (by norm_num) hn hm hdigits, hrest⟩

/-! ## Single characters -/

/-- The letters of the escapes that have one, with what they stand for. -/
def letters : List (Char × Char) :=
  [('"', '"'), ('\\', '\\'), ('n', '\n'), ('r', '\r'), ('t', '\t'), ('b', '\x08'), ('f', '\x0c')]

/-- The ways to write a character in a literal: as it is, with the letter that stands for it, as a
unit, or as two units. -/
inductive Escapes (c : Char) : List Char → Prop
  | plain : c ≠ '"' → c ≠ '\\' → Escapes c [c]
  | letter {l : Char} : (l, c) ∈ letters → Escapes c ['\\', l]
  | unit : c.toNat < 0x10000 → Escapes c (unitEscape c.toNat)
  | pair {high low : Nat} : 0x10000 ≤ c.toNat → high = 0xd800 + (c.toNat - 0x10000) / 0x400 →
      low = 0xdc00 + (c.toNat - 0x10000) % 0x400 → Escapes c (unitEscape high ++ unitEscape low)

theorem escapes_jsonChar (c : Char) : Escapes c (jsonChar c) := by
  have hof {c d : Char} (h : c.toNat = d.toNat) : c = d := Char.toNat_inj.1 h
  unfold jsonChar
  dsimp only
  split
  · next h =>
    rcases h with rfl | rfl
    · exact .letter (by decide)
    · exact .letter (by decide)
  next hc =>
  obtain ⟨hquote, hbackslash⟩ := not_or.1 hc
  split
  · next h => exact .letter (h ▸ by decide)
  split
  · next h => exact .letter (h ▸ by decide)
  split
  · next h => exact .letter (h ▸ by decide)
  split
  · next h => exact .letter (hof (d := '\x08') h ▸ by decide)
  split
  · next h => exact .letter (hof (d := '\x0c') h ▸ by decide)
  split
  · exact .plain hquote hbackslash
  split
  · next h => exact .unit h
  · next h => exact .pair (not_lt.1 h) rfl rfl

/-- The letter of an escape says what it stands for, and is not that of a unit. -/
theorem letters_inj {l : Char} (hc : (l, c) ∈ letters) (hd : (l, d) ∈ letters) : c = d := by
  have hall : ∀ e ∈ letters, ∀ e' ∈ letters, e.1 = e'.1 → e.2 = e'.2 := by decide
  exact hall _ hc _ hd rfl

theorem ne_of_mem_letters {l : Char} (hc : (l, c) ∈ letters) : l ≠ 'u' := by
  have hall : ∀ e ∈ letters, e.1 ≠ 'u' := by decide
  exact hall _ hc

/-- No character has the number of a surrogate. -/
theorem not_surrogate (c : Char) : c.toNat < 0xd800 ∨ 0xdfff < c.toNat ∧ c.toNat < 0x110000 :=
  c.valid

/-- A character is read off the way it is written. -/
theorem Escapes.append_inj (hu : Escapes c u) (hv : Escapes d v) (h : u ++ x = v ++ y) :
    c = d ∧ x = y := by
  have hof {c d : Char} (h : c.toNat = d.toNat) : c = d := Char.toNat_inj.1 h
  have hc := not_surrogate c
  have hd := not_surrogate d
  cases hu with
  | plain hquote hbackslash =>
    cases hv with
    | plain => simpa using h
    | letter | unit | pair => simp [unitEscape, hbackslash] at h
  | letter hl =>
    cases hv with
    | plain _ hbackslash => simp [hbackslash.symm] at h
    | letter hl' =>
      simp only [List.cons_append, List.nil_append, List.cons.injEq, true_and] at h
      obtain ⟨rfl, h⟩ := h
      exact ⟨letters_inj hl hl', h⟩
    | unit | pair => simp [unitEscape, ne_of_mem_letters hl] at h
  | unit hn =>
    cases hv with
    | plain _ hbackslash => simp [unitEscape, hbackslash.symm] at h
    | letter hl' => simp [unitEscape, (ne_of_mem_letters hl').symm] at h
    | unit hm =>
      obtain ⟨heq, hxy⟩ := unitEscape_append_inj hn hm h
      exact ⟨hof heq, hxy⟩
    | pair hm hhigh =>
      rw [List.append_assoc] at h
      obtain ⟨heq, -⟩ := unitEscape_append_inj hn (by omega) h
      omega
  | pair hn hhigh hlow =>
    cases hv with
    | plain _ hbackslash => simp [unitEscape, hbackslash.symm] at h
    | letter hl' => simp [unitEscape, (ne_of_mem_letters hl').symm] at h
    | unit hm =>
      rw [List.append_assoc] at h
      obtain ⟨heq, -⟩ := unitEscape_append_inj (by omega) hm h
      omega
    | pair hm hhigh' hlow' =>
      rw [List.append_assoc, List.append_assoc] at h
      obtain ⟨hhighs, h⟩ := unitEscape_append_inj (by omega) (by omega) h
      obtain ⟨hlows, hxy⟩ := unitEscape_append_inj (by omega) (by omega) h
      exact ⟨hof (by omega), hxy⟩

theorem jsonChar_append_inj (h : jsonChar c ++ x = jsonChar d ++ y) : c = d ∧ x = y :=
  (escapes_jsonChar c).append_inj (escapes_jsonChar d) h

/-! ## Whole texts -/

theorem Escapes.append_ne_quote (hu : Escapes c u) : u ++ x ≠ '"' :: y := by
  cases hu with
  | plain hquote => simp [hquote]
  | letter | unit | pair => simp [unitEscape]

/-- A text is read off its literal. -/
theorem jsonQuoted_append_inj (h : jsonQuoted s ++ x = jsonQuoted t ++ y) : s = t ∧ x = y := by
  simp only [jsonQuoted, List.cons_append, List.append_assoc, List.cons.injEq, true_and] at h
  obtain ⟨hst, hxy⟩ := flatMap_append_inj (R := Eq) (fun c _ d _ x y h => jsonChar_append_inj h)
    (fun c _ _ => (escapes_jsonChar c).append_ne_quote)
    (fun d _ _ => (escapes_jsonChar d).append_ne_quote) h
  rw [List.forall₂_eq_eq_eq] at hst
  exact ⟨hst, by simpa using hxy⟩

end GraphSchema.Text
