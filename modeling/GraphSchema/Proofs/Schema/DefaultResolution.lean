import GraphSchema.Proofs.Arguments
import GraphSchema.Proofs.Name
import GraphSchema.Proofs.Schema.Declared

/-!
# Default resolution

What a field without a behavior finds in a parent value that has it under the declared name. Only
the final name is left to look for: the field finds the declared one if that is what the final name
comes back to.

## Main definitions

* `Field.Recovered` — whether the declared name of a field can be told from the final one.

## Main statements

* `Value.resolve_singleton` — what is found in a map with one entry.
* `Registry.run_resolve_default` — a field without a behavior finds what is there under its declared
  name exactly if that can be told.
* `Registry.address_lost` — a field that finds nothing.
-/

namespace GraphSchema

/-! ## Names to look for -/

/-- Whether the declared name of a field can be told from the final one: it is kept, or comes back
from it. -/
def Field.Recovered (f : Field) : Prop :=
  f.camelize = false ∨ camelCase f.name = f.name ∨ Name.Recoverable f.name.toList

/-- The declared name can be told exactly if default resolution looks for it. -/
theorem Field.recovered_iff {f : Field} (h : Name.isName f.name.toList = true) :
    f.Recovered ↔ snakeCase f.camelized.name = f.name ∨ f.camelized.name = f.name := by
  unfold Recovered camelized
  cases f.camelize with
  | false => simp
  | true =>
    have hback := snakeCase_camelCase_eq_iff h
    simp only [reduceIte, Bool.true_eq_false, false_or, ← hback]
    exact Or.comm

/-- In a map with one entry that is found which bears one of the two names. -/
theorem Value.resolve_singleton {key name : String} {v : Value} :
    (Value.map [(.str key, v)]).resolve name =
      if snakeCase name = key ∨ name = key then v else .null := by
  have hlookup (n : String) : lookup [(.str key, v)] n = if key = n then some v else none := rfl
  simp only [resolve, part?, hlookup, eq_comm (a := key)]
  by_cases hs : snakeCase name = key
  · simp [hs]
  · by_cases hn : name = key
    · subst hn
      simp [hs]
    · simp [hs, hn]

/-- A field without a behavior resolves to the part of the parent that bears its name. -/
theorem Schema.resolveField_of_default {s : Schema} {type name : String} {f : Field}
    {parent : Value} {args : Arguments} {ctx : Option Context}
    (h : s.lookupField type name = .ok f)
    (hbehavior : s.effectiveBehavior type name = .error (.behaviorNotFound type name))
    (haccepts : f.Accepts type args) :
    s.resolveField type name parent args ctx = .ok (parent.resolve name) := by
  obtain ⟨passed, hpassed⟩ := haccepts
  rw [effectiveBehavior_of_lookup h] at hbehavior
  rw [resolveField_of_coerce h hpassed]
  cases hget : Table.get? (s.behaviorTable type) name with
  | none => rfl
  | some b => simp [hget] at hbehavior

namespace Registry

/-! ## Runs -/

variable {settings : Settings} {ops : List Operation} {s : Schema} {d : Definition}
  {o : ObjectType} {f : Field}

/-- For a visible object type of a schema with names in the spelling with capitals, and a field that
it or one of its interfaces declares: if the field has no behavior, it resolves to what a parent
value has under the declared name exactly if that can be told from the final one, and to null
otherwise. -/
theorem run_resolve_default (hs : (run settings ops).build.outcome = .ok s)
    (hcamelize : settings.autoCamelize.truthy = true) (hd : d ∈ declared settings ops)
    (ho : d.body = .object o) (hr : s.isReachable d.name = true)
    (hf : o.Declares (declared settings ops) f) (hname : Name.isName f.name.toList = true)
    (hbehavior : s.effectiveBehavior d.name f.camelized.name =
      .error (.behaviorNotFound d.name f.camelized.name)) :
    ∃ found, s.lookupField d.name f.camelized.name = .ok found ∧
      ∀ args ctx v, found.Accepts d.name args →
        (f.Recovered → s.resolveField d.name f.camelized.name (.map [(.str f.name, v)]) args ctx =
          .ok v) ∧
        (¬ f.Recovered →
          s.resolveField d.name f.camelized.name (.map [(.str f.name, v)]) args ctx =
            .ok .null) := by
  obtain ⟨found, hfound, -⟩ := exists_composed hs hd ho hf
  rw [hcamelize, finalField, if_pos rfl] at hfound
  have hlookup := lookupField_of_declared hs hd hr hfound
  refine ⟨found, hlookup, fun args ctx v haccepts => ?_⟩
  rw [Schema.resolveField_of_default hlookup hbehavior haccepts, Value.resolve_singleton,
    Field.recovered_iff hname]
  exact ⟨fun h => by rw [if_pos h], fun h => by rw [if_neg h]⟩

/-! ## A field that finds nothing -/

namespace Address

/-- An object type whose fields have names of several words, one of which is a number. -/
def query : ObjectType where
  fields := [
    { name := "street_name", type := .named "String" },
    { name := "address_1", type := .named "String" }]

/-- It is declared, and the query root. -/
def operations : List Operation := [
  .register ⟨"Query", none, .object query⟩,
  .declareRoots { query := some (some (.text "Query")) }]

theorem exists_build : ∃ s, (run {} operations).build.outcome = .ok s :=
  exists_build_of_violations rfl rfl

theorem query_mem : ⟨"Query", none, .object query⟩ ∈ declared {} operations :=
  List.mem_singleton.2 rfl

theorem isReachable_query (hs : (run {} operations).build.outcome = .ok s) :
    s.isReachable "Query" = true :=
  isReachable_of_root hs query_mem rfl (by decide)

/-- Both fields are there, and need no arguments. -/
theorem lookupField_query (hs : (run {} operations).build.outcome = .ok s) (hf : f ∈ query.fields) :
    s.lookupField "Query" f.camelized.name = .ok f.camelized := by
  have hfound : Table.get? (s.fieldTable "Query") f.camelized.name = some f.camelized :=
    composed_own hs query_mem rfl hf
  exact lookupField_of_declared hs query_mem (isReachable_query hs) hfound

theorem effectiveBehavior_query (hs : (run {} operations).build.outcome = .ok s)
    (hf : f ∈ query.fields) :
    s.effectiveBehavior "Query" f.camelized.name =
      .error (.behaviorNotFound "Query" f.camelized.name) := by
  have hnone : s.behaviorTable "Query" = [] := (builtFrom_run hs).behaviorTable "Query"
  rw [Schema.effectiveBehavior_of_lookup (lookupField_query hs hf), hnone]
  rfl

end Address

/-- One field finds what its parent has under the declared name. -/
theorem street_resolve_default :
    ∃ s, (run {} Address.operations).build.outcome = .ok s ∧
      ∀ v, s.resolveField "Query" "streetName" (.map [(.str "street_name", v)]) [] none =
        .ok v := by
  obtain ⟨s, hs⟩ := Address.exists_build
  have hmem : Address.query.fields[0] ∈ Address.query.fields := List.getElem_mem _
  obtain ⟨found, hlookup, hresolve⟩ := run_resolve_default hs rfl Address.query_mem rfl
    (Address.isReachable_query hs) (.own hmem) (by decide) (Address.effectiveBehavior_query hs hmem)
  obtain rfl : _ = found := Except.ok.inj ((Address.lookupField_query hs hmem).symm.trans hlookup)
  have hrecovered : Address.query.fields[0].Recovered :=
    (Field.recovered_iff (by decide)).2 (.inl (by decide))
  refine ⟨s, hs, fun v => (hresolve [] none v ?_).1 hrecovered⟩
  exact Field.accepts_nil_iff.2 (by simp [Address.query, Field.camelized])

/-- The other one does not: nothing tells the underscore before a digit. -/
theorem address_lost :
    ∃ s, (run {} Address.operations).build.outcome = .ok s ∧
      s.effectiveBehavior "Query" "address1" = .error (.behaviorNotFound "Query" "address1") ∧
      ∃ found, s.lookupField "Query" "address1" = .ok found ∧ found.Accepts "Query" [] ∧
        s.resolveField "Query" "address1" (.map [(.str "address_1", .str "here")]) [] none =
          .ok .null := by
  obtain ⟨s, hs⟩ := Address.exists_build
  have hmem : Address.query.fields[1] ∈ Address.query.fields := List.getElem_mem _
  have hlookup := Address.lookupField_query hs hmem
  have hbehavior := Address.effectiveBehavior_query hs hmem
  have haccepts : Address.query.fields[1].camelized.Accepts "Query" [] :=
    Field.accepts_nil_iff.2 (by simp [Address.query, Field.camelized])
  refine ⟨s, hs, hbehavior, _, hlookup, haccepts, ?_⟩
  exact Schema.resolveField_of_default hlookup hbehavior haccepts

end Registry

end GraphSchema
