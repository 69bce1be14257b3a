import GraphSchema.TypeRef.Subtype
import Mathlib.Order.Defs.Unbundled

/-!
# Subtypes as a relation

The decision of subtypes against the rules that it stands for. Where no type that belongs to an
abstract type is abstract itself, these rules make a partial order.

## Main definitions

* `TypeRef.Sub` — the rules, given which named types belong to which abstract types.
* `TypeRef.NoChains` — whether nothing belongs to a type that belongs to another.

## Main statements

* `TypeRef.isSubtype_iff_sub` — the decision agrees with the rules.
* `TypeRef.Sub.trans`, `TypeRef.Sub.antisymm` — the rules are transitive and antisymmetric.
* `TypeRef.isPartialOrder_isSubtype` — the decision is a partial order.
-/

namespace GraphSchema.TypeRef

/-- When one reference may stand for another, where `belongs type abstract` says that the named type
belongs to the abstract one. -/
inductive Sub (belongs : String → String → Prop) : TypeRef → TypeRef → Prop
  | refl (t : TypeRef) : Sub belongs t t
  | nonNull {s t : TypeRef} : Sub belongs s t → Sub belongs (nonNull s) (nonNull t)
  | strict {s t : TypeRef} : Sub belongs s t → t.isNonNull = false → Sub belongs (nonNull s) t
  | list {s t : TypeRef} : Sub belongs s t → Sub belongs (list s) (list t)
  | named {type abstract : String} : belongs type abstract →
      Sub belongs (named type) (named abstract)

variable {belongs : String → String → Prop} {possible : String → String → Bool}
  {s t u : TypeRef}

/-! ## The decision -/

/-- What the rules allow is decided to be a subtype. -/
theorem isSubtype_of_sub (hpossible : ∀ type abstract, belongs type abstract →
    possible abstract type = true) (h : Sub belongs s t) : s.isSubtype possible t = true := by
  induction h with
  | refl t => exact isSubtype_self
  | nonNull _ ih => simp [isSubtype, ih]
  | @strict s t _ hnull ih =>
    cases t with
    | nonNull t => cases hnull
    | named name => simp [isSubtype, ih]
    | list t => simp [isSubtype, ih]
  | list _ ih => simp [isSubtype, ih]
  | named hb => simp [isSubtype, hpossible _ _ hb]

/-- What is decided to be a subtype is one by the rules. -/
theorem sub_of_isSubtype (hbelongs : ∀ type abstract, possible abstract type = true →
    belongs type abstract) (h : s.isSubtype possible t = true) : Sub belongs s t := by
  -- the decision looks at the wrapper of the subtype first, and equality is a rule of its own
  induction s generalizing t with
  | named name =>
    simp only [isSubtype, Bool.or_eq_true, beq_iff_eq] at h
    rcases h with rfl | h
    · exact .refl _
    · cases t with
      | named abstract => exact .named (hbelongs _ _ h)
      | list t => cases h
      | nonNull t => cases h
  | list s ih =>
    simp only [isSubtype, Bool.or_eq_true, beq_iff_eq] at h
    rcases h with rfl | h
    · exact .refl _
    · cases t with
      | named abstract => cases h
      | list t => exact .list (ih h)
      | nonNull t => cases h
  | nonNull s ih =>
    simp only [isSubtype, Bool.or_eq_true, beq_iff_eq] at h
    rcases h with rfl | h
    · exact .refl _
    · cases t with
      | named abstract => exact .strict (ih h) rfl
      | list t => exact .strict (ih h) rfl
      | nonNull t => exact .nonNull (ih h)

/-- The decision agrees with the rules. -/
theorem isSubtype_iff_sub (h : ∀ type abstract, possible abstract type = true ↔
    belongs type abstract) : s.isSubtype possible t = true ↔ Sub belongs s t :=
  ⟨sub_of_isSubtype fun type abstract => (h type abstract).1,
    isSubtype_of_sub fun type abstract => (h type abstract).2⟩

/-! ## The order -/

/-- Whether nothing belongs to a type that belongs to another, where `possible abstract type` says
that the named type belongs to the abstract one. -/
def NoChains (possible : String → String → Bool) : Prop :=
  ∀ abstract type, possible abstract type = true → ∀ name, possible type name = false

/-- A type that may be null stands for no type that may not. -/
theorem Sub.isNonNull_eq_false (h : Sub belongs s t) (hs : s.isNonNull = false) :
    t.isNonNull = false := by
  cases h with
  | refl => exact hs
  | nonNull => cases hs
  | strict _ ht => exact ht
  | list => rfl
  | named => rfl

theorem Sub.trans (hchains : ∀ a b c, belongs a b → ¬ belongs b c) (hst : Sub belongs s t)
    (htu : Sub belongs t u) : Sub belongs s u := by
  induction hst generalizing u with
  | refl => exact htu
  | nonNull hst ih =>
    cases htu with
    | refl => exact .nonNull hst
    | nonNull htu => exact .nonNull (ih htu)
    | strict htu hu => exact .strict (ih htu) hu
  | strict hst ht ih => exact .strict (ih htu) (htu.isNonNull_eq_false ht)
  | list hst ih =>
    cases htu with
    | refl => exact .list hst
    | list htu => exact .list (ih htu)
  | named hb =>
    cases htu with
    | refl => exact .named hb
    | named hc => exact absurd hc (hchains _ _ _ hb)

theorem Sub.antisymm (hchains : ∀ a b c, belongs a b → ¬ belongs b c) (hst : Sub belongs s t)
    (hts : Sub belongs t s) : s = t := by
  induction hst with
  | refl => rfl
  | nonNull hst ih =>
    cases hts with
    | refl => rfl
    | nonNull hts => exact congrArg TypeRef.nonNull (ih hts)
    | strict _ hs => cases hs
  | strict _ ht _ =>
    have hs := hts.isNonNull_eq_false ht
    cases hs
  | list hst ih =>
    cases hts with
    | refl => rfl
    | list hts => exact congrArg TypeRef.list (ih hts)
  | named hb =>
    cases hts with
    | refl => rfl
    | named hc => exact absurd hc (hchains _ _ _ hb)

/-- Without chains the decision is a partial order on all references. -/
theorem isPartialOrder_isSubtype (h : NoChains possible) :
    IsPartialOrder TypeRef fun s t => s.isSubtype possible t = true := by
  have hsub {s t : TypeRef} : s.isSubtype possible t = true ↔
      Sub (fun type abstract => possible abstract type = true) s t :=
    isSubtype_iff_sub fun _ _ => Iff.rfl
  have hchains (a b c : String) (hb : possible b a = true) : ¬ possible c b = true := by
    intro hc
    have := h c b hc a
    rw [hb] at this
    cases this
  exact {
    refl := fun t => isSubtype_self
    trans := fun s t u hst htu => hsub.2 ((hsub.1 hst).trans hchains (hsub.1 htu))
    antisymm := fun s t hst hts => (hsub.1 hst).antisymm hchains (hsub.1 hts) }

end GraphSchema.TypeRef
