import GraphSchema.Proofs.Composition.Reference
import Mathlib.Data.List.Nodup

/-!
# Contracts

What it means that a composed field satisfies the field of an interface, what a field fails that
does not, and which composed fields come from elsewhere than the interface.

## Main definitions

* `Declarations.Fulfills` — a field that satisfies the field of an interface.
* `Declarations.Fails` — what a field that does not satisfy it fails first.
* `Declarations.Replaced` — whether a composed field comes from elsewhere than an interface.

## Main statements

* `Declarations.incompatibility?_eq_none_iff` — what the check of two fields decides.
* `Declarations.incompatibility?_eq_some_iff` — what it finds.
* `Declarations.Coherent.inherits_eq_false_iff` — which fields are checked.
* `Declarations.Coherent.exists_fulfilling` — without contract errors every interface field has a
  composed field, which is the field itself or satisfies it.
-/

namespace GraphSchema

/-! ## Two lists of arguments -/

namespace Field

variable {expected found : Field} {a b : Argument} {reason : Incompatibility}

/-- Whether a field takes an argument that the field of an interface has: it has one of the name,
with the type. -/
def Takes (found : Field) (a : Argument) : Prop :=
  ∃ b, found.argument? a.name = some b ∧ b.type = a.type

/-- How a field fails an argument that the field of an interface has: it has none of the name, or one
with another type. -/
inductive Lacks (found : Field) (a : Argument) : Incompatibility → Prop
  | missing : found.argument? a.name = none → found.Lacks a (.missingArgument a.name)
  | type {b : Argument} : found.argument? a.name = some b → b.type ≠ a.type →
    found.Lacks a (.argumentType a.name b.type a.type)

/-- The check of one argument that the field of an interface has. -/
def lack? (found : Field) (a : Argument) : Option Incompatibility :=
  match found.argument? a.name with
  | none => some (.missingArgument a.name)
  | some b => if b.type = a.type then none else some (.argumentType a.name b.type a.type)

/-- The check of one argument against the field of an interface, which need not have it. -/
def excess? (expected : Field) (b : Argument) : Option Incompatibility :=
  if (expected.argument? b.name).isNone && b.required then some (.requiredExtra b.name) else none

theorem lack?_eq_none_iff : found.lack? a = none ↔ found.Takes a := by
  unfold lack? Takes
  cases found.argument? a.name <;> simp

theorem lack?_eq_some_iff : found.lack? a = some reason ↔ found.Lacks a reason := by
  unfold lack?
  constructor
  · intro h
    split at h
    · next hnone =>
      obtain rfl := Option.some.inj h
      exact .missing hnone
    · next b hb =>
      split at h
      · cases h
      · next htype =>
        obtain rfl := Option.some.inj h
        exact .type hb htype
  · rintro (hnone | ⟨hb, htype⟩)
    · simp [hnone]
    · simp [hb, htype]

theorem excess?_eq_none_iff :
    expected.excess? b = none ↔ (expected.argument? b.name = none → b.required = false) := by
  unfold excess?
  cases expected.argument? b.name <;> simp

theorem excess?_eq_some_iff : expected.excess? b = some reason ↔
    expected.argument? b.name = none ∧ b.required = true ∧ .requiredExtra b.name = reason := by
  unfold excess?
  cases expected.argument? b.name <;> simp

end Field

namespace Declarations

variable {ds : Declarations} {d : Definition} {o : ObjectType} {i : Implemented} {name : String}
  {expected found : Field}

/-! ## Two fields -/

/-- Whether a field satisfies the field of an interface: its type is a subtype, it has all the
arguments with their types, and its further arguments may be left out. -/
structure Fulfills (ds : Declarations) (expected found : Field) : Prop where
  type : found.type.isSubtype ds.isPossible expected.type = true
  arguments : ∀ a ∈ expected.arguments, ∃ b, found.argument? a.name = some b ∧ b.type = a.type
  extra : ∀ b ∈ found.arguments, expected.argument? b.name = none → b.required = false

/-- What a field that does not satisfy the field of an interface fails first: the type, then the
arguments of the latter in their order, then its own further arguments in theirs. -/
inductive Fails (ds : Declarations) (expected found : Field) : Incompatibility → Prop
  | type : found.type.isSubtype ds.isPossible expected.type = false →
    ds.Fails expected found (.type found.type expected.type)
  | argument {before after : List Argument} {a : Argument} {reason : Incompatibility} :
    found.type.isSubtype ds.isPossible expected.type = true →
    expected.arguments = before ++ a :: after → (∀ a' ∈ before, found.Takes a') →
    found.Lacks a reason → ds.Fails expected found reason
  | extra {before after : List Argument} {b : Argument} :
    found.type.isSubtype ds.isPossible expected.type = true →
    (∀ a ∈ expected.arguments, found.Takes a) → found.arguments = before ++ b :: after →
    (∀ b' ∈ before, expected.argument? b'.name = none → b'.required = false) →
    expected.argument? b.name = none → b.required = true →
    ds.Fails expected found (.requiredExtra b.name)

theorem incompatibility?_of_isSubtype
    (h : found.type.isSubtype ds.isPossible expected.type = true) :
    ds.incompatibility? expected found =
      (expected.arguments.findSome? found.lack?).or (found.arguments.findSome? expected.excess?) := by
  rw [incompatibility?, h, if_neg (by decide), Option.orElse_eq_orElse, Option.orElse_eq_or]
  rfl

theorem incompatibility?_of_not_isSubtype
    (h : found.type.isSubtype ds.isPossible expected.type = false) :
    ds.incompatibility? expected found = some (.type found.type expected.type) := by
  rw [incompatibility?, h]
  rfl

/-- The check of two fields finds nothing exactly if one satisfies the other. -/
theorem incompatibility?_eq_none_iff :
    ds.incompatibility? expected found = none ↔ ds.Fulfills expected found := by
  cases ht : found.type.isSubtype ds.isPossible expected.type with
  | false =>
    rw [incompatibility?_of_not_isSubtype ht]
    exact ⟨nofun, fun h => absurd h.type (Bool.eq_false_iff.1 ht)⟩
  | true =>
    rw [incompatibility?_of_isSubtype ht, Option.or_eq_none_iff, List.findSome?_eq_none_iff,
      List.findSome?_eq_none_iff]
    simp only [Field.lack?_eq_none_iff, Field.excess?_eq_none_iff]
    exact ⟨fun h => ⟨ht, h.1, h.2⟩, fun h => ⟨h.arguments, h.extra⟩⟩

/-- The check of two fields finds what one of them fails first. -/
theorem incompatibility?_eq_some_iff {reason : Incompatibility} :
    ds.incompatibility? expected found = some reason ↔ ds.Fails expected found reason := by
  constructor
  · intro h
    cases ht : found.type.isSubtype ds.isPossible expected.type with
    | false =>
      rw [incompatibility?_of_not_isSubtype ht] at h
      obtain rfl := Option.some.inj h
      exact .type ht
    | true =>
      rw [incompatibility?_of_isSubtype ht, Option.or_eq_some_iff] at h
      simp only [List.findSome?_eq_some_iff, List.findSome?_eq_none_iff, Field.lack?_eq_some_iff,
        Field.lack?_eq_none_iff, Field.excess?_eq_some_iff, Field.excess?_eq_none_iff] at h
      rcases h with ⟨before, a, after, ha, hlacks, hbefore⟩ |
        ⟨htakes, before, b, after, hb, ⟨hnone, hrequired, rfl⟩, hbefore⟩
      · exact .argument ht ha hbefore hlacks
      · exact .extra ht htakes hb hbefore hnone hrequired
  · rintro (ht | ⟨ht, ha, hbefore, hlacks⟩ | ⟨ht, htakes, hb, hbefore, hnone, hrequired⟩)
    · exact incompatibility?_of_not_isSubtype ht
    · rw [incompatibility?_of_isSubtype ht]
      refine Option.or_eq_some_iff.2 (.inl (List.findSome?_eq_some_iff.2 ⟨_, _, _, ha, ?_⟩))
      exact ⟨Field.lack?_eq_some_iff.2 hlacks, fun a' ha' =>
        Field.lack?_eq_none_iff.2 (hbefore a' ha')⟩
    · rw [incompatibility?_of_isSubtype ht]
      refine Option.or_eq_some_iff.2 (.inr ⟨List.findSome?_eq_none_iff.2 fun a ha =>
        Field.lack?_eq_none_iff.2 (htakes a ha), List.findSome?_eq_some_iff.2 ⟨_, _, _, hb, ?_⟩⟩)
      exact ⟨Field.excess?_eq_some_iff.2 ⟨hnone, hrequired, rfl⟩, fun b' hb' =>
        Field.excess?_eq_none_iff.2 (hbefore b' hb')⟩

/-- A field fails something exactly if it does not satisfy the other. -/
theorem exists_fails_iff : (∃ reason, ds.Fails expected found reason) ↔
    ¬ ds.Fulfills expected found := by
  simp only [← incompatibility?_eq_some_iff, ← incompatibility?_eq_none_iff,
    Option.ne_none_iff_exists']

/-! ## Composed fields -/

/-- Whether the composed field of a name comes from elsewhere than an interface that has one: the
type has one of its own, or an interface before has one. -/
def Replaced (ds : Declarations) (o : ObjectType) (i : Implemented) (name : String) : Prop :=
  name ∈ o.fields.map (·.name) ∨ ∃ before after, ds.implemented o.interfaces = before ++ i :: after ∧
    ∃ j ∈ before, name ∈ j.body.fields.map (·.name)

theorem interface?_of_implemented {names : List String} (hi : i ∈ ds.implemented names) :
    ds.interface? i.name = some i := by
  obtain ⟨n, -, hn⟩ := interface?_of_mem_implemented hi
  obtain ⟨rfl, -⟩ := interface?_eq_some_iff.1 hn
  exact hn

/-- Every interface is implemented once. -/
theorem nodup_name_implemented (names : List String) :
    ((ds.implemented names).map (·.name)).Nodup := by
  rw [implemented, List.map_filterMap]
  refine (nodup_eraseDups names).filterMap fun n n' name hn hn' => ?_
  obtain ⟨i, hi, rfl⟩ := Option.map_eq_some_iff.1 hn
  obtain ⟨i', hi', hname⟩ := Option.map_eq_some_iff.1 hn'
  rw [← (interface?_eq_some_iff.1 hi).1, ← (interface?_eq_some_iff.1 hi').1, hname]

theorem findSome?_of_find? {interfaces : List Implemented} {j : Implemented}
    (hj : (interfaces.find? fun k => Table.contains (ds.interfaceFields k) name) = some j) :
    (interfaces.findSome? fun k => Table.get? (ds.interfaceFields k) name) =
      Table.get? (ds.interfaceFields j) name := by
  induction interfaces with
  | nil => cases hj
  | cons k interfaces ih =>
    rw [List.find?_cons] at hj
    rw [List.findSome?_cons]
    cases hk : Table.get? (ds.interfaceFields k) name with
    | some f =>
      simp only [Table.contains, hk, Option.isSome_some, Option.some.injEq] at hj
      exact (hj ▸ hk).symm
    | none =>
      simp only [Table.contains, hk, Option.isSome_none] at hj
      exact ih hj

/-- Of interfaces with distinct names one is the first to meet a condition exactly if it meets it and
none before does. -/
theorem map_name_find?_eq_iff {before after : List Implemented} {p : Implemented → Bool}
    (hdistinct : ((before ++ i :: after).map (·.name)).Nodup) (hi : p i = true) :
    ((before ++ i :: after).find? p).map (·.name) = some i.name ↔ ∀ j ∈ before, p j = false := by
  rw [List.find?_append]
  cases hj : before.find? p with
  | none => simpa [hi] using hj
  | some j =>
    have hmem : j ∈ before := List.mem_of_find?_eq_some hj
    have hne : j.name ≠ i.name := by
      rw [List.map_append, List.nodup_append] at hdistinct
      exact hdistinct.2.2 _ (List.mem_map_of_mem hmem) _ List.mem_cons_self
    simp only [Option.some_or, Option.map_some, Option.some.injEq, hne, false_iff]
    intro h
    exact Bool.false_ne_true ((h j hmem).symm.trans (List.find?_some hj))

namespace Coherent

/-- An inherited field is the field of the interface. -/
theorem get?_of_inherits (hc : ds.Coherent) (hd : d ∈ ds.definitions)
    (ho : d.body = .object o) (hi : i ∈ ds.implemented o.interfaces)
    (h : ds.inherits d.name (ds.implemented o.interfaces) i name = true) :
    Table.get? (ds.compose d.name o).fields name = Table.get? (ds.interfaceFields i) name := by
  simp only [inherits, Bool.and_eq_true, Bool.not_eq_true', beq_iff_eq, Option.map_eq_some_iff]
    at h
  obtain ⟨hown, j, hj, hname⟩ := h
  have hji : j = i := Option.some.inj
    ((interface?_of_implemented (List.mem_of_find?_eq_some hj)).symm.trans
      (hname ▸ interface?_of_implemented hi))
  have hnone : o.fields.find? (·.name == name) = none := by
    rw [← Field.get?_table, ← hc.ownFields hd ho]
    simpa [Table.contains] using hown
  rw [hc.get?_composeFields hd ho, hnone, Option.none_or, findSome?_of_find? hj, hji]

/-- Whether an interface has a field of a name, by the store. -/
theorem contains_interfaceFields_iff (hc : ds.Coherent) (hi : i ∈ ds.implemented o.interfaces) :
    Table.contains (ds.interfaceFields i) name = true ↔ name ∈ i.body.fields.map (·.name) := by
  rw [hc.interfaceFields (interface?_of_implemented hi), Table.contains_iff_mem_keys,
    Field.keys_table]

/-- The composed field of the name of an interface field is checked exactly if it comes from
elsewhere. -/
theorem inherits_eq_false_iff (hc : ds.Coherent) (hd : d ∈ ds.definitions)
    (ho : d.body = .object o) (hi : i ∈ ds.implemented o.interfaces)
    (he : name ∈ i.body.fields.map (·.name)) :
    ds.inherits d.name (ds.implemented o.interfaces) i name = false ↔ ds.Replaced o i name := by
  have hown : Table.contains (ds.fields.declared d.name .own) name = true ↔
      name ∈ o.fields.map (·.name) := by
    rw [hc.ownFields hd ho, Table.contains_iff_mem_keys, Field.keys_table]
  have hfirst {before after : List Implemented}
      (hsplit : ds.implemented o.interfaces = before ++ i :: after) :
      ((ds.implemented o.interfaces).find? fun j =>
        Table.contains (ds.interfaceFields j) name).map (·.name) = some i.name ↔
        ∀ j ∈ before, name ∉ j.body.fields.map (·.name) := by
    have hdistinct : ((ds.implemented o.interfaces).map (·.name)).Nodup :=
      nodup_name_implemented o.interfaces
    rw [hsplit] at hdistinct ⊢
    rw [map_name_find?_eq_iff hdistinct ((hc.contains_interfaceFields_iff hi).2 he)]
    refine forall₂_congr fun j hj => ?_
    have hj : j ∈ ds.implemented o.interfaces := hsplit ▸ List.mem_append_left _ hj
    rw [← hc.contains_interfaceFields_iff hj, Bool.not_eq_true]
  have hinherits : ds.inherits d.name (ds.implemented o.interfaces) i name = false ↔
      name ∈ o.fields.map (·.name) ∨ ((ds.implemented o.interfaces).find? fun j =>
        Table.contains (ds.interfaceFields j) name).map (·.name) ≠ some i.name := by
    rw [inherits, Bool.and_eq_false_iff, Bool.not_eq_false', hown, beq_eq_false_iff_ne]
  rw [hinherits]
  refine or_congr_right ⟨fun hne => ?_, ?_⟩
  · obtain ⟨before, after, hsplit⟩ := List.append_of_mem hi
    simp only [ne_eq, hfirst hsplit, not_forall, not_not] at hne
    obtain ⟨j, hj, hname⟩ := hne
    exact ⟨before, after, hsplit, j, hj, hname⟩
  · rintro ⟨before, after, hsplit, j, hj, hname⟩ hinherited
    exact (hfirst hsplit).1 hinherited j hj hname

theorem get?_interfaceFields (hc : ds.Coherent) (hi : i ∈ ds.implemented o.interfaces)
    (he : expected ∈ i.body.fields) :
    Table.get? (ds.interfaceFields i) expected.name = some expected := by
  have hiface := interface?_of_implemented hi
  rw [hc.interfaceFields hiface]
  refine (Table.get?_eq_some_iff ?_).2 (List.mem_map.2 ⟨expected, he, rfl⟩)
  rw [Field.keys_table]
  exact hc.distinct_interface hiface

/-- Every field of an interface has a composed field of its name. -/
theorem exists_composed (hc : ds.Coherent) (hd : d ∈ ds.definitions) (ho : d.body = .object o)
    (hi : i ∈ ds.implemented o.interfaces) (he : expected ∈ i.body.fields) :
    ∃ found, Table.get? (ds.compose d.name o).fields expected.name = some found := by
  cases hfound : Table.get? (ds.compose d.name o).fields expected.name with
  | some found => exact ⟨found, rfl⟩
  | none =>
    rw [hc.get?_composeFields hd ho, Option.or_eq_none_iff] at hfound
    have := List.findSome?_eq_none_iff.1 hfound.2 i hi
    rw [hc.get?_interfaceFields hi he] at this
    cases this

/-- Without contract errors an interface field has a composed field: the field itself, or one that
satisfies it. -/
theorem exists_fulfilling (hc : ds.Coherent) (hd : d ∈ ds.definitions)
    (ho : d.body = .object o) (hi : i ∈ ds.implemented o.interfaces)
    (herrors : ds.contractErrors d.name (ds.implemented o.interfaces)
      (ds.compose d.name o).fields i = []) (he : expected ∈ i.body.fields) :
    ∃ found, Table.get? (ds.compose d.name o).fields expected.name = some found ∧
      (found = expected ∨ ds.Fulfills expected found) := by
  have hget := hc.get?_interfaceFields hi he
  have hnone := List.filterMap_eq_nil_iff.1 herrors _ (Table.mem_of_get?_eq_some hget)
  dsimp only at hnone
  split at hnone
  · next hinherits =>
    refine ⟨expected, ?_, .inl rfl⟩
    rw [hc.get?_of_inherits hd ho hi hinherits, hget]
  · obtain ⟨found, hfound⟩ := hc.exists_composed hd ho hi he
    refine ⟨found, hfound, .inr (incompatibility?_eq_none_iff.1 ?_)⟩
    cases hreason : ds.incompatibility? expected found with
    | none => rfl
    | some reason => simp [hfound, hreason] at hnone

end Coherent

end Declarations

end GraphSchema
