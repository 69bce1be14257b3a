import GraphSchema.Proofs.Declarations.Violations
import GraphSchema.Proofs.Name.Twice
import GraphSchema.Proofs.Schema.StrayBehaviors
import Mathlib.Data.List.Perm.Subperm

/-!
# Definitions that are registered again

Registering a definition returns it in the form that is stored, with all names spelled as the
settings say. To register that form in a fresh registry is to spell the names once more. So the form
is stored as it is exactly if all names that are spelled come out the same a second time, and these
are the names of fields that allow it, those of their arguments, those of input fields, and the keys
of behaviors that do not stand for a field.

## Main definitions

* `Steady` — whether a name is spelled once and for all.
* `Definition.Settled` — whether all names of a definition are steady that are spelled.
* `Registry.Stores` — what a fresh registry makes of a definition without problems.

## Main statements

* `Table.ofList_map_eq_self_iff` — a table is kept when its keys are.
* `Definition.final_final_eq_iff` — when the form of a definition is its own form.
* `Registry.register_again_iff` — when a stored definition can be registered again.
-/

namespace GraphSchema

variable {camelize : Bool} {name : String}

/-- Whether the spelling of a name stays when it is spelled again: names are not spelled with
capitals, or no digit stands behind two underscores that are not in front. -/
def Steady (camelize : Bool) (name : String) : Prop := camelize = true → Name.Steady name.toList

/-- Whether all names of a definition are steady that are spelled: the names of fields and of their
arguments, if the field allows it, those of input fields, and the keys of behaviors which no field
is declared under and which are not spelled like one. -/
structure Definition.Settled (camelize : Bool) (d : Definition) : Prop where
  fields : ∀ f ∈ d.fields, Steady (camelize && f.camelize) f.name ∧
    ∀ a ∈ f.arguments, Steady (camelize && f.camelize) a.name
  inputs : ∀ inputs, d.body = .inputObject inputs → ∀ a ∈ inputs, Steady camelize a.name
  behaviors : ∀ key ∈ Table.keys d.behaviors, key ∉ d.fields.map (·.name) →
    spelling camelize key ∉ (d.finalFields camelize).map (·.name) → Steady camelize key

instance : Decidable (Steady camelize name) :=
  inferInstanceAs (Decidable (camelize = true → Name.Steady name.toList))

theorem spelling_spelling_eq_iff :
    spelling camelize (spelling camelize name) = spelling camelize name ↔ Steady camelize name := by
  unfold spelling Steady
  cases camelize with
  | false => simp
  | true => simp [camelCase_camelCase_eq_iff]

/-! ## Keys -/

/-- A table whose keys are changed is the same table exactly if no key changes. -/
theorem Table.ofList_map_eq_self_iff {κ ν : Type} [DecidableEq κ] {t : Table κ ν} {g : κ → κ}
    (h : (keys t).Nodup) :
    ofList (t.map fun e => (g e.1, e.2)) = t ↔ ∀ k ∈ keys t, g k = k := by
  have hkeys : keys (t.map fun e => (g e.1, e.2)) = (keys t).map g := by
    simp [keys, Function.comp_def]
  constructor
  · intro hsame
    -- no two keys become one, as otherwise there would be less of them
    have hsub : keys t ⊆ (keys t).map g := by
      intro k hk
      rw [← hsame, mem_keys_ofList, hkeys] at hk
      exact hk
    have hperm : (keys t).Perm ((keys t).map g) :=
      (h.subperm hsub).perm_of_length_le (List.length_map g).le
    rw [ofList_eq_self (hkeys ▸ hperm.nodup_iff.1 h)] at hsame
    have hid : (keys t).map g = (keys t).map id := by
      rw [← hkeys, hsame, List.map_id]
    exact List.map_inj_left.1 hid
  · intro hfixed
    have hid : (t.map fun e => (g e.1, e.2)) = t := by
      refine (List.map_congr_left fun e he => ?_).trans (List.map_id t)
      rw [hfixed e.1 (List.mem_map_of_mem he)]
      rfl
    rw [hid, ofList_eq_self h]

/-! ## Fields and arguments -/

theorem map_spelled_eq_iff {args : List Argument} :
    (args.map (Argument.spelled camelize)).map (Argument.spelled camelize) =
      args.map (Argument.spelled camelize) ↔ ∀ a ∈ args, Steady camelize a.name := by
  rw [List.map_map, List.map_inj_left]
  refine forall₂_congr fun a _ => ?_
  rw [← spelling_spelling_eq_iff]
  simp [Argument.spelled]

namespace Registry

variable {fields : List Field} {behaviors : Table String Behavior} {f : Field} {key : String}

theorem finalField_finalField_eq_iff :
    finalField camelize (finalField camelize f) = finalField camelize f ↔
      Steady (camelize && f.camelize) f.name ∧
        ∀ a ∈ f.arguments, Steady (camelize && f.camelize) a.name := by
  rw [← spelling_spelling_eq_iff, ← map_spelled_eq_iff]
  simp only [finalField_eq, Field.mk.injEq, true_and, and_true]

theorem map_finalField_eq_iff :
    (fields.map (finalField camelize)).map (finalField camelize) =
        fields.map (finalField camelize) ↔
      ∀ f ∈ fields, Steady (camelize && f.camelize) f.name ∧
        ∀ a ∈ f.arguments, Steady (camelize && f.camelize) a.name := by
  rw [List.map_map, List.map_inj_left]
  exact forall₂_congr fun f _ => finalField_finalField_eq_iff

theorem finalBehaviors_nil : finalBehaviors camelize fields [] = [] := rfl

/-- A key under which a field is declared is kept with the name of the field. -/
theorem finalKey_eq_self (hfields : ∀ f ∈ fields, finalField camelize f = f)
    (h : key ∈ fields.map (·.name)) :
    finalKey camelize (finalNames camelize fields) key = key := by
  have hget : Table.get? (finalNames camelize fields) key = some key := by
    refine Table.get?_ofList (by simpa [Table.keys] using h) fun e he hname => ?_
    obtain ⟨f, hf, rfl⟩ := List.mem_map.1 he
    rw [hfields f hf]
    exact hname
  rw [finalKey, hget]
  rfl

/-- Where the fields are final already, the keys of behaviors change no more exactly if those are
steady that stand for no field. -/
theorem finalBehaviors_finalBehaviors_eq_iff
    (hfields : ∀ f ∈ fields.map (finalField camelize), finalField camelize f = f) :
    finalBehaviors camelize (fields.map (finalField camelize))
        (finalBehaviors camelize fields behaviors) = finalBehaviors camelize fields behaviors ↔
      ∀ key ∈ Table.keys behaviors, key ∉ fields.map (·.name) →
        spelling camelize key ∉ (fields.map (finalField camelize)).map (·.name) →
          Steady camelize key := by
  refine (Table.ofList_map_eq_self_iff Table.nodup_keys_ofList).trans ?_
  change (∀ k ∈ Table.keys (finalBehaviors camelize fields behaviors), _) ↔ _
  simp only [mem_keys_finalBehaviors, forall_exists_index, and_imp, forall_apply_eq_imp_iff₂]
  refine forall₂_congr fun key _ => ?_
  by_cases hdeclared : ∃ f ∈ fields, f.name = key
  · have hmem : key ∈ fields.map (·.name) := List.mem_map.2 hdeclared
    simp only [finalKey_eq_self hfields (finalKey_mem hdeclared), hmem, not_true, false_imp_iff]
  · have hnot : key ∉ fields.map (·.name) := mt List.mem_map.1 hdeclared
    rw [finalKey_of_undeclared hdeclared, ← spelling_spelling_eq_iff]
    by_cases hspelled : spelling camelize key ∈ (fields.map (finalField camelize)).map (·.name)
    · simp only [finalKey_eq_self hfields hspelled, hspelled, not_true, false_imp_iff, imp_true_iff]
    · rw [finalKey_of_undeclared (mt List.mem_map.2 hspelled)]
      simp only [hnot, hspelled, not_false_iff, true_imp_iff]

end Registry

/-! ## Definitions -/

namespace Definition

variable {d : Definition}

/-- A definition is settled exactly if its final parts are final parts of themselves. -/
theorem settled_iff : d.Settled camelize ↔
    (∀ inputs, d.body = .inputObject inputs → ∀ a ∈ inputs, Steady camelize a.name) ∧
    (d.fields.map (Registry.finalField camelize)).map (Registry.finalField camelize) =
      d.fields.map (Registry.finalField camelize) ∧
    Registry.finalBehaviors camelize (d.fields.map (Registry.finalField camelize))
        (Registry.finalBehaviors camelize d.fields d.behaviors) =
      Registry.finalBehaviors camelize d.fields d.behaviors := by
  constructor
  · intro h
    have hfields := Registry.map_finalField_eq_iff.2 h.fields
    refine ⟨h.inputs, hfields, (Registry.finalBehaviors_finalBehaviors_eq_iff ?_).2 h.behaviors⟩
    exact List.map_inj_left.1 (hfields.trans (List.map_id _).symm)
  · rintro ⟨hinputs, hfields, hbehaviors⟩
    refine ⟨Registry.map_finalField_eq_iff.1 hfields, hinputs,
      (Registry.finalBehaviors_finalBehaviors_eq_iff ?_).1 hbehaviors⟩
    exact List.map_inj_left.1 (hfields.trans (List.map_id _).symm)

/-- The final form of a definition is its own final form exactly if the definition is settled. -/
theorem final_final_eq_iff :
    (d.final camelize).final camelize = d.final camelize ↔ d.Settled camelize := by
  rw [settled_iff]
  obtain ⟨name, description, body⟩ := d
  cases body with
  | interface i => simp [final, InterfaceType.final, fields, behaviors]
  | object o => simp [final, ObjectType.final, fields, behaviors]
  | inputObject inputs =>
    have hfinal (args : List Argument) : final camelize ⟨name, description, .inputObject args⟩ =
        ⟨name, description, .inputObject (args.map (Argument.spelled camelize))⟩ := by
      simp only [final, map_camelized_eq]
    rw [hfinal, hfinal]
    simpa [fields, behaviors, Registry.finalBehaviors_nil] using map_spelled_eq_iff
  | scalar | enum | union => simp [final, fields, behaviors, Registry.finalBehaviors_nil]

theorem layer_final : (d.final camelize).layer = d.layer := by
  unfold layer final
  cases d.body <;> rfl

end Definition

/-! ## Registering again -/

namespace Registry

variable {settings : Settings} {d d' : Definition} {r : Registry}

/-- Whether a fresh registry takes a definition in without problems, and returns and stores the
other one. -/
def Stores (settings : Settings) (d d' : Definition) : Prop :=
  ∃ r, ({ settings } : Registry).register d = .ok (d', r) ∧ r.problems = [] ∧
    r.declarations.find d'.name = some d'

/-- What is registered without problems has a new name and new names of fields, and is returned in
its final form. -/
theorem of_register (h : ({ settings } : Registry).register d = .ok (d', r))
    (hp : r.problems = []) :
    ({ settings } : Registry).declarations.find d.name = none ∧
      (accepted settings.autoCamelize.truthy d).2 = [] ∧
      d' = d.final settings.autoCamelize.truthy := by
  rcases register_of_open (open_fresh settings) d with ⟨-, hd⟩ | ⟨e, store, problems, ha, hd, hr⟩
  · obtain ⟨rfl, rfl⟩ := Prod.mk.inj (Except.ok.inj (hd.symm.trans h))
    simp at hp
  · obtain ⟨rfl, rfl⟩ := Prod.mk.inj (Except.ok.inj (hd.symm.trans h))
    obtain rfl : (accepted settings.autoCamelize.truthy d).1 = e := congrArg Prod.fst ha
    obtain rfl : (accepted settings.autoCamelize.truthy d).2 = problems := congrArg Prod.snd ha
    exact ⟨name_accepted (d := d) ▸ hr.fresh, hp, fst_accepted hp⟩

/-- A definition whose name is new, with new names of fields, is stored in its final form. -/
theorem stores_final (hfresh : ({ settings } : Registry).declarations.find d.name = none)
    (haccepted : (accepted settings.autoCamelize.truthy d).2 = []) :
    Stores settings d (d.final settings.autoCamelize.truthy) := by
  rcases register_of_open (open_fresh settings) d with ⟨hd, -⟩ | ⟨e, store, problems, ha, hd, hr⟩
  · rw [hfresh] at hd
    cases hd
  · obtain rfl : (accepted settings.autoCamelize.truthy d).1 = e := congrArg Prod.fst ha
    obtain rfl : (accepted settings.autoCamelize.truthy d).2 = problems := congrArg Prod.snd ha
    rw [← fst_accepted haccepted]
    have hopen := (open_fresh settings).add hr (accepted settings.autoCamelize.truthy d).2
    refine ⟨_, hd, haccepted, hopen.coherent.find_of_mem ?_⟩
    exact List.mem_append_right _ (List.mem_singleton_self _)

/-- What a fresh registry has taken in without problems it has stored, and another one with the same
settings stores that as it is exactly if the definition that was given is settled. -/
theorem register_again_iff (h : ({ settings } : Registry).register d = .ok (d', r))
    (hp : r.problems = []) :
    r.declarations.find d'.name = some d' ∧
    (Stores settings d' d' ↔ d.Settled settings.autoCamelize.truthy) := by
  obtain ⟨hfresh, haccepted, rfl⟩ := of_register h hp
  constructor
  · obtain ⟨r', h', -, hfind⟩ := stores_final hfresh haccepted
    obtain ⟨-, rfl⟩ := Prod.mk.inj (Except.ok.inj (h.symm.trans h'))
    exact hfind
  rw [← Definition.final_final_eq_iff]
  constructor
  · rintro ⟨r', h', hp', -⟩
    exact (of_register h' hp').2.2.symm
  · intro hfinal
    have haccepted' : (accepted settings.autoCamelize.truthy
        (d.final settings.autoCamelize.truthy)).2 = [] := by
      rw [snd_accepted, Definition.layer_final, Definition.finalFields, ← Definition.fields_final,
        hfinal, Definition.fields_final]
      rwa [snd_accepted] at haccepted
    have hstores := stores_final (d := d.final settings.autoCamelize.truthy) hfresh haccepted'
    rwa [hfinal] at hstores

/-! ## Doubled underscores -/

namespace Lines

/-- A type whose doubled underscores stand before a letter, or before a digit in the name of a field
that is not to be spelled with capitals. Two behaviors stand for its fields, and one is astray. -/
def settled : Definition where
  name := "Address"
  body := .object {
    fields := [
      { name := "post__code", type := .named "String",
        arguments := [{ name := "with_country", type := .named "Boolean" }] },
      { name := "line__1", type := .named "String", camelize := false }]
    behaviors := [
      ("post__code", .always "code" (.ok (.str "1010"))),
      ("line__1", .always "line" (.ok (.str "Ring 1"))),
      ("no_field", .always "nope" (.ok .null))] }

/-- A type with two fields whose names differ by an underscore before a digit. -/
def given : Definition where
  name := "Query"
  body := .object { fields := [
    { name := "line__1", type := .named "String" },
    { name := "line_1", type := .named "String" }] }

/-- The same type as it is stored. -/
def stored : Definition where
  name := "Query"
  body := .object { fields := [
    { name := "line_1", type := .named "String" },
    { name := "line1", type := .named "String" }] }

theorem settled_settled : settled.Settled true where
  fields := by decide +kernel
  inputs := nofun
  behaviors := by decide +kernel

end Lines

/-- The first type is stored as it is when it is registered again. -/
theorem lines_register_again :
    ∃ d r, ({} : Registry).register Lines.settled = .ok (d, r) ∧ r.problems = [] ∧
      Stores {} d d := by
  obtain ⟨r, h, hp, -⟩ : Stores {} Lines.settled (Lines.settled.final true) := stores_final rfl rfl
  exact ⟨_, r, h, hp, (register_again_iff h hp).2.2 Lines.settled_settled⟩

/-- The second type is registered without problems. What is returned is not in its final form: the
names of its fields meet when they are spelled again, which is a problem, and one field is lost. -/
theorem lines_lost :
    Stores {} Lines.given Lines.stored ∧ ¬ Stores {} Lines.stored Lines.stored ∧
      ∃ d r, ({} : Registry).register Lines.stored = .ok (d, r) ∧
        d.fields.map (·.name) = ["line1"] ∧
        r.problems = [.duplicateField "Query" "line1" .own] := by
  obtain ⟨d, r, h, hnames, hp⟩ : ∃ d r, ({} : Registry).register Lines.stored = .ok (d, r) ∧
      d.fields.map (·.name) = ["line1"] ∧
      r.problems = [.duplicateField "Query" "line1" .own] := ⟨_, _, rfl, rfl, rfl⟩
  refine ⟨⟨_, rfl, rfl, rfl⟩, ?_, d, r, h, hnames, hp⟩
  rintro ⟨r', h', hp', -⟩
  obtain ⟨-, rfl⟩ := Prod.mk.inj (Except.ok.inj (h.symm.trans h'))
  rw [hp] at hp'
  cases hp'

end Registry

end GraphSchema
