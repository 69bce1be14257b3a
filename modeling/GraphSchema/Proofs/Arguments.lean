import GraphSchema.Field.Declare
import GraphSchema.Proofs.Composition.Contract
import GraphSchema.Proofs.Traversal
import GraphSchema.Schema.Execution

/-!
# Accepted arguments

Which arguments a field accepts, and how the arguments of a field that satisfies the field of an
interface relate to those of the latter. The check of the two fields compares the types of their
arguments but not the defaults, so an argument that the interface has a default for may be required
by the field.

## Main definitions

* `Argument.Admits`, `Field.Accepts` — what may be given for one argument, and for all.
* `Argument.IsDeclared` — an argument that has been declared.

## Main statements

* `Field.accepts_iff` — a field accepts what all its arguments admit.
* `Field.accepts_iff_of_fulfills` — what a field accepts of that which the field of an interface
  accepts.
-/

namespace GraphSchema

/-! ## Arguments of one field -/

/-- Whether what is given for an argument will do: null only where null may stand, and nothing at
all only where there is a default or none is needed. -/
structure Argument.Admits (a : Argument) (args : Arguments) : Prop where
  null : Table.get? args a.name = some .null → a.type.isNonNull = false
  absent : Table.get? args a.name = none → a.defaultValue = none → a.required = false

namespace Field

variable {f expected found : Field} {a : Argument} {args : Arguments}

/-- Whether the field of a type accepts arguments. -/
def Accepts (f : Field) (type : String) (args : Arguments) : Prop :=
  ∃ passed, f.coerce type args = .ok passed

theorem exists_coerceArgument_iff :
    (∃ v, coerceArgument a args = .ok v) ↔ a.Admits args := by
  unfold coerceArgument
  constructor
  · rintro ⟨v, hv⟩
    constructor
    · intro hnull
      rw [hnull] at hv
      dsimp only at hv
      split at hv
      · cases hv
      · next hn => simpa using hn
    · intro habsent hdefault
      rw [habsent, hdefault] at hv
      dsimp only at hv
      split at hv
      · cases hv
      · next hr => simpa using hr
  · intro h
    cases hg : Table.get? args a.name with
    | none =>
      cases hdefault : a.defaultValue with
      | none => exact ⟨none, by simp [h.absent hg hdefault]⟩
      | some v => exact ⟨some v, rfl⟩
    | some v =>
      cases v with
      | null => exact ⟨some .null, by simp [h.null hg]⟩
      | _ => exact ⟨_, rfl⟩

/-- All arguments are passed exactly if each of them admits what is given. -/
theorem exists_coerceAll_iff {arguments : List Argument} :
    ∀ {passed : Arguments}, (∃ r, coerceAll args passed arguments = .ok r) ↔
      ∀ a ∈ arguments, a.Admits args := by
  induction arguments with
  | nil => simp [coerceAll]
  | cons a arguments ih =>
    intro passed
    rw [List.forall_mem_cons, ← exists_coerceArgument_iff]
    cases ha : coerceArgument a args with
    | error fault => simp [coerceAll, ha, bind, Except.bind]
    | ok v =>
      cases v with
      | none => simpa [coerceAll, ha, bind, Except.bind] using ih
      | some v => simpa [coerceAll, ha, bind, Except.bind] using ih

theorem unknownArguments_eq_nil_iff :
    f.unknownArguments args = [] ↔
      ∀ name ∈ Table.keys args, ∃ a, f.argument? name = some a := by
  have hlength : f.unknownArguments args = [] ↔
      ((Table.keys args).filter fun name => (f.argument? name).isNone) = [] := by
    rw [unknownArguments, ← List.length_eq_zero_iff, List.length_mergeSort,
      List.length_eq_zero_iff]
  rw [hlength, List.filter_eq_nil_iff]
  simp [Option.eq_none_iff_forall_not_mem]

/-- A field accepts arguments exactly if it has all that are given, and each of its own admits what
is given for it. -/
theorem accepts_iff {type : String} :
    f.Accepts type args ↔
      (∀ name ∈ Table.keys args, ∃ a, f.argument? name = some a) ∧
        ∀ a ∈ f.arguments, a.Admits args := by
  have hall : (∃ passed, coerceAll args [] f.arguments = .ok passed) ↔
      ∀ a ∈ f.arguments, a.Admits args := exists_coerceAll_iff
  rw [← unknownArguments_eq_nil_iff, ← hall]
  unfold Accepts coerce
  cases hu : f.unknownArguments args with
  | cons name names => simp
  | nil =>
    cases coerceAll args [] f.arguments <;> simp [Except.mapError]

/-- A field can be called without arguments exactly if it requires none but with a default. -/
theorem accepts_nil_iff {type : String} :
    f.Accepts type [] ↔ ∀ a ∈ f.arguments, a.defaultValue = none → a.required = false := by
  rw [accepts_iff]
  constructor
  · rintro ⟨-, h⟩ a ha
    exact (h a ha).absent rfl
  · exact fun h => ⟨by simp, fun a ha => ⟨by simp [Table.get?], fun _ => h a ha⟩⟩

theorem argument?_of_mem (h : (f.arguments.map (·.name)).Nodup) (ha : a ∈ f.arguments) :
    f.argument? a.name = some a :=
  Table.find?_of_mem h ha

theorem argument?_eq_some {name : String} (h : f.argument? name = some a) :
    a ∈ f.arguments ∧ a.name = name :=
  ⟨List.mem_of_find?_eq_some h, by simpa using List.find?_some h⟩

end Field

/-! ## Declared arguments -/

namespace Argument

variable {a : Argument}

/-- Whether an argument is one that can be declared. -/
def IsDeclared (a : Argument) : Prop :=
  ∃ name type required defaultValue description,
    declare name type required defaultValue description = .ok a

/-- A declared argument is required if it is not null and has no default. -/
theorem IsDeclared.required_eq (h : a.IsDeclared) :
    a.required = (a.type.isNonNull && a.defaultValue.isNone) := by
  obtain ⟨name, type, required, defaultValue, description, h⟩ := h
  obtain ⟨ref, -, h⟩ := exists_of_bind_eq_ok h
  cases h
  rfl

theorem IsDeclared.camelized (h : a.IsDeclared) : a.camelized.IsDeclared := by
  obtain ⟨name, type, required, defaultValue, description, h⟩ := h
  obtain ⟨ref, hr, h⟩ := exists_of_bind_eq_ok h
  cases h
  exact ⟨camelCase name, type, required, defaultValue, description, by rw [declare, hr]; rfl⟩

end Argument

/-! ## Two fields -/

namespace Field

variable {expected found : Field} {args : Arguments}

/-- Of the arguments that the field of an interface accepts, a field that satisfies it accepts those
in which nothing is missing that it requires and the interface has a default for. -/
theorem accepts_iff_of_fulfills {ds : Declarations} {abstract type : String}
    (hexpected : ∀ a ∈ expected.arguments, a.IsDeclared)
    (hfound : ∀ a ∈ found.arguments, a.IsDeclared)
    (hdistinct : (found.arguments.map (·.name)).Nodup)
    (h : ds.Fulfills expected found) (haccepts : expected.Accepts abstract args) :
    found.Accepts type args ↔
      ∀ a ∈ found.arguments, a.required = true → ∀ b, expected.argument? a.name = some b →
        b.defaultValue.isSome = true → Table.contains args a.name = true := by
  obtain ⟨hknown, hadmits⟩ := accepts_iff.1 haccepts
  -- what both fields have under one name has one type
  have htype {a b : Argument} (ha : a ∈ found.arguments)
      (hb : expected.argument? a.name = some b) : b ∈ expected.arguments ∧ b.name = a.name ∧
        a.type = b.type := by
    obtain ⟨hmem, hname⟩ := argument?_eq_some hb
    obtain ⟨c, hc, ht⟩ := h.arguments b hmem
    rw [hname, argument?_of_mem hdistinct ha] at hc
    cases hc
    exact ⟨hmem, hname, ht⟩
  rw [accepts_iff]
  constructor
  · rintro ⟨-, hall⟩ a ha hrequired b - -
    by_contra hc
    have habsent : Table.get? args a.name = none := by simpa [Table.contains] using hc
    have hdefault : a.defaultValue = none := by
      have := (hfound a ha).required_eq.symm.trans hrequired
      simp only [Bool.and_eq_true, Option.isNone_iff_eq_none] at this
      exact this.2
    have := (hall a ha).absent habsent hdefault
    simp [hrequired] at this
  · intro hgiven
    refine ⟨fun name hn => ?_, fun a ha => ⟨fun hnull => ?_, fun habsent hdefault => ?_⟩⟩
    · obtain ⟨b, hb⟩ := hknown name hn
      obtain ⟨hmem, rfl⟩ := argument?_eq_some hb
      obtain ⟨a, ha, -⟩ := h.arguments b hmem
      exact ⟨a, ha⟩
    · obtain ⟨b, hb⟩ := hknown a.name
        (Table.contains_iff_mem_keys.1 (by simp [Table.contains, hnull]))
      obtain ⟨hmem, hname, ht⟩ := htype ha hb
      rw [ht]
      exact (hadmits b hmem).null (hname ▸ hnull)
    · by_contra hrequired
      rw [Bool.not_eq_false] at hrequired
      cases hb : expected.argument? a.name with
      | none => simp [h.extra a ha hb] at hrequired
      | some b =>
        obtain ⟨hmem, hname, ht⟩ := htype ha hb
        cases hbd : b.defaultValue with
        | some v =>
          have := hgiven a ha hrequired b hb (by rw [hbd]; rfl)
          simp [Table.contains, habsent] at this
        | none =>
          have hb' := (hadmits b hmem).absent (hname ▸ habsent) hbd
          rw [(hexpected b hmem).required_eq, ← ht, hbd] at hb'
          rw [(hfound a ha).required_eq, hdefault, hb'] at hrequired
          cases hrequired

/-- A field with distinct arguments satisfies itself. -/
theorem fulfills_self {ds : Declarations} {f : Field}
    (h : (f.arguments.map (·.name)).Nodup) : ds.Fulfills f f where
  type := TypeRef.isSubtype_self
  arguments a ha := ⟨a, argument?_of_mem h ha, rfl⟩
  extra a ha hn := by
    rw [argument?_of_mem h ha] at hn
    cases hn

end Field

end GraphSchema
