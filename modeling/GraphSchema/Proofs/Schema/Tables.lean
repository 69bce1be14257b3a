import GraphSchema.Proofs.Reachability
import GraphSchema.Proofs.Registry.Run
import GraphSchema.Schema.Execution

/-!
# The tables of a built schema

What a built schema answers about its types, in terms of the declarations that it is built from.

## Main statements

* `Schema.BuiltFrom.getType_of_reachable` — reachable types are found.
* `Schema.BuiltFrom.isReachable_of_start`, `Schema.BuiltFrom.isReachable_of_refers` — what is
  reachable.
* `Registry.run_composition` — the fields and behaviors of composed types after any run, and of
  the types of the schema that is built.
-/

namespace GraphSchema

/-! ## Look-up -/

/-- The composed behavior of a field that is there. -/
theorem Schema.effectiveBehavior_of_lookup {s : Schema} {type name : String} {f : Field}
    (h : s.lookupField type name = .ok f) :
    s.effectiveBehavior type name =
      match Table.get? (s.behaviorTable type) name with
      | some b => .ok b
      | none => .error (.behaviorNotFound type name) := by
  rw [effectiveBehavior, h]
  rfl

/-- The value of a field that accepts the arguments: what its behavior computes, or the part of the
parent that bears its name. -/
theorem Schema.resolveField_of_coerce {s : Schema} {type name : String} {f : Field}
    {parent : Value} {args passed : Arguments} {ctx : Option Context}
    (h : s.lookupField type name = .ok f) (hpassed : f.coerce type args = .ok passed) :
    s.resolveField type name parent args ctx =
      match Table.get? (s.behaviorTable type) name with
      | some b => b.run parent passed (some (s.fieldContext ctx type name))
      | none => .ok (parent.resolve name) := by
  simp only [resolveField, h, bind, Except.bind, hpassed]
  rfl

namespace Schema.BuiltFrom

variable {s : Schema} {r : Registry} {d : Definition} {name : String}

theorem find_eq (h : s.BuiltFrom r) : s.find name = r.declarations.find name := by
  rw [Schema.find, h.definitions]
  rfl

theorem definition_of_mem (h : s.BuiltFrom r) (hd : d ∈ r.declarations.definitions) :
    s.definition (some d.name) = .ok d := by
  rw [Schema.definition, Option.bind_some, h.find_eq, h.coherent.find_of_mem hd]

theorem exists_of_reachable (h : s.BuiltFrom r) (hr : s.isReachable name = true) :
    ∃ d ∈ r.declarations.definitions, d.name = name := by
  obtain ⟨store, -, hreach⟩ := h.reachability
  rw [isReachable, hreach] at hr
  have hdefines : Declarations.Defines ⟨s.definitions, store⟩ name :=
    Declarations.defines_of_reachable (h.definitions.symm ▸ h.coherent.distinct) hr
  exact h.definitions ▸ hdefines

theorem getType_of_reachable (h : s.BuiltFrom r) (hd : d ∈ r.declarations.definitions)
    (hr : s.isReachable d.name = true) :
    s.getType d.name = .ok d := by
  rw [getType, if_pos hr, h.definition_of_mem hd]

theorem of_getType (h : s.BuiltFrom r) (hd : s.getType name = .ok d) :
    d ∈ r.declarations.definitions ∧ d.name = name ∧ s.isReachable name = true := by
  unfold getType at hd
  split at hd
  · next hr =>
    unfold definition at hd
    split at hd
    · next e he =>
      obtain rfl := Except.ok.inj hd
      rw [Option.bind_some, h.find_eq] at he
      exact ⟨mem_of_findDefinition he, name_of_findDefinition he, hr⟩
    · cases hd
  · cases hd

theorem lookupField_of_reachable (h : s.BuiltFrom r) (hd : d ∈ r.declarations.definitions)
    (hr : s.isReachable d.name = true) {name : String}
    {f : Field} (hf : Table.get? (s.fieldTable d.name) name = some f) :
    s.lookupField d.name name = .ok f := by
  simp only [lookupField, h.getType_of_reachable hd hr, hf]
  rfl

/-- The reachable types are the least closed set. -/
theorem exists_isLeast (h : s.BuiltFrom r) :
    ∃ ds : Declarations, ds.definitions = r.declarations.definitions ∧
      (∀ owner, ds.fields.effective owner = s.fieldTable owner) ∧
      IsLeast {S | ds.ReferenceClosed (s.roots.names ++ s.roots.orphans) S}
        {n | s.isReachable n = true} := by
  obtain ⟨store, hstore, hreach⟩ := h.reachability
  refine ⟨⟨s.definitions, store⟩, h.definitions, hstore, ?_⟩
  simp only [isReachable, hreach]
  exact Declarations.isLeast_reachability (h.definitions.symm ▸ h.coherent.distinct)

theorem exists_referenceClosed (h : s.BuiltFrom r) :
    ∃ ds : Declarations, ds.definitions = r.declarations.definitions ∧
      (∀ owner, ds.fields.effective owner = s.fieldTable owner) ∧
      ds.ReferenceClosed (s.roots.names ++ s.roots.orphans) {n | s.isReachable n = true} := by
  obtain ⟨ds, hdefs, hfields, hleast⟩ := h.exists_isLeast
  exact ⟨ds, hdefs, hfields, hleast.1⟩

theorem isReachable_of_start (h : s.BuiltFrom r) (hd : d ∈ r.declarations.definitions)
    (hn : d.name ∈ s.roots.names ++ s.roots.orphans) :
    s.isReachable d.name = true := by
  obtain ⟨ds, hdefs, -, hclosed⟩ := h.exists_referenceClosed
  exact hclosed.start d.name hn ⟨d, hdefs ▸ hd, rfl⟩

/-- With a type, every defined type that it refers to is reachable. -/
theorem isReachable_of_refers (h : s.BuiltFrom r) {e : Definition}
    (hd : d ∈ r.declarations.definitions) (he : e ∈ r.declarations.definitions)
    (hr : s.isReachable d.name = true)
    (hrefers : d.Refers (Table.values (s.fieldTable d.name)) e.name) :
    s.isReachable e.name = true := by
  obtain ⟨ds, hdefs, hfields, hclosed⟩ := h.exists_referenceClosed
  refine hclosed.step d (hdefs ▸ hd) hr e.name ?_ ⟨e, hdefs ▸ he, rfl⟩
  rw [Declarations.Refers, hfields]
  exact hrefers

end Schema.BuiltFrom

/-! ## Composed types -/

namespace Schema.BuiltFrom

variable {s : Schema} {r : Registry} {d : Definition} {o : ObjectType} {i : InterfaceType}

theorem fieldTable_object (h : s.BuiltFrom r) (hd : d ∈ r.declarations.definitions)
    (ho : d.body = .object o) :
    s.fieldTable d.name = (r.declarations.compose d.name o).fields := by
  rw [h.fieldTable, Declarations.finalFields, h.coherent.body?_of_mem hd, ho]

theorem fieldTable_interface (h : s.BuiltFrom r) (hd : d ∈ r.declarations.definitions)
    (hi : d.body = .interface i) :
    s.fieldTable d.name = Field.table i.fields := by
  rw [h.fieldTable, Declarations.finalFields, h.coherent.body?_of_mem hd, hi]
  exact h.coherent.interfaceFields (h.coherent.interface?_of_mem hd hi)

theorem behaviorTable_object (h : s.BuiltFrom r) (hd : d ∈ r.declarations.definitions)
    (ho : d.body = .object o) :
    s.behaviorTable d.name = (r.declarations.compose d.name o).behaviors := by
  rw [h.behaviorTable, Declarations.finalBehaviors, h.coherent.body?_of_mem hd, ho]

/-- The behavior of a composed field. -/
theorem get?_behaviorTable_object (h : s.BuiltFrom r) (hd : d ∈ r.declarations.definitions)
    (ho : d.body = .object o) {name : String} {f : Field}
    (hf : Table.get? (s.fieldTable d.name) name = some f) :
    Table.get? (s.behaviorTable d.name) name =
      (o.composedBehavior? (r.declarations.interfacesOf o) name).map (·.bind d.name) := by
  have hname : name ∈ o.composedNames (r.declarations.interfacesOf o) := by
    rw [← h.coherent.keys_compose_fields hd ho, ← h.fieldTable_object hd ho,
      ← Table.contains_iff_mem_keys, Table.contains, hf]
    rfl
  rw [h.behaviorTable_object hd ho, h.coherent.get?_compose_behaviors hd ho, if_pos hname]

/-- The behaviors of an interface are those of its own layer. -/
theorem get?_behaviorTable_interface (h : s.BuiltFrom r) (hd : d ∈ r.declarations.definitions)
    (hi : d.body = .interface i) {name : String} :
    Table.get? (s.behaviorTable d.name) name = layerBehavior? i.fields i.behaviors name := by
  have hfind := h.coherent.interface?_of_mem hd hi
  have hlisted : (Table.keys i.behaviors).Nodup := by
    simpa [Definition.behaviors, hi] using h.coherent.distinctBehaviors d hd
  rw [h.behaviorTable, Declarations.finalBehaviors, h.coherent.body?_of_mem hd, hi]
  exact Declarations.get?_layerBehaviors (h.coherent.interfaceFields hfind)
    (h.coherent.distinct_interface hfind) hlisted name

theorem isTable_fieldTable (h : s.BuiltFrom r) (owner : String) :
    Field.IsTable (s.fieldTable owner) :=
  h.fieldTable owner ▸ h.coherent.isTable_finalFields owner

/-- The names of composed fields are the keys of their table. -/
theorem map_name_fieldTable (h : s.BuiltFrom r) (owner : String) :
    (Table.values (s.fieldTable owner)).map (·.name) = Table.keys (s.fieldTable owner) := by
  rw [← Field.keys_table, (h.isTable_fieldTable owner).table_values]

theorem effectiveFields_of_reachable (h : s.BuiltFrom r) (hd : d ∈ r.declarations.definitions)
    (hr : s.isReachable d.name = true)
    (hf : d.hasFields = true) :
    s.effectiveFields d.name = .ok (Table.values (s.fieldTable d.name)) := by
  rw [effectiveFields, h.getType_of_reachable hd hr]
  exact if_pos hf

theorem effectiveBehaviors_of_reachable (h : s.BuiltFrom r) (hd : d ∈ r.declarations.definitions)
    (hr : s.isReachable d.name = true) :
    s.effectiveBehaviors d.name = .ok (s.behaviorTable d.name) := by
  rw [effectiveBehaviors, h.getType_of_reachable hd hr]
  rfl

end Schema.BuiltFrom

namespace Registry

/-- The fields and behaviors of every type after any run. An object type is composed name by name
from its own layer and those of its registered interfaces; when a schema is built, it has the
composed fields and behaviors, and every interface has those of its own layer. -/
theorem run_composition (settings : Settings) (ops : List Operation) {d : Definition}
    (hd : d ∈ (run settings ops).declarations.definitions) :
    (∀ o, d.body = .object o → ∃ c, (run settings ops).declarations.composition d = .ok c ∧
      c.Matches (run settings ops).declarations d.name o ∧
      ∀ s, (run settings ops).build.outcome = .ok s → s.isReachable d.name = true →
        s.effectiveFields d.name = .ok (Table.values c.fields) ∧
        s.effectiveBehaviors d.name = .ok c.behaviors) ∧
    ∀ i, d.body = .interface i →
      ∀ s, (run settings ops).build.outcome = .ok s → s.isReachable d.name = true →
        s.effectiveFields d.name = .ok i.fields ∧
        ∃ t, s.effectiveBehaviors d.name = .ok t ∧
          ∀ name, Table.get? t name = layerBehavior? i.fields i.behaviors name := by
  have hc := (sound_run settings ops).coherent
  refine ⟨fun o ho => ?_, fun i hi s hs hr => ?_⟩
  · refine ⟨(run settings ops).declarations.compose d.name o, ?_, hc.compose_matches hd ho,
      fun s hs hr => ?_⟩
    · rw [Declarations.composition, ho]
    · have hb := builtFrom_run hs
      rw [hb.effectiveFields_of_reachable hd hr (Definition.hasFields_of_object ho),
        hb.effectiveBehaviors_of_reachable hd hr, hb.fieldTable_object hd ho,
        hb.behaviorTable_object hd ho]
      exact ⟨rfl, rfl⟩
  · have hb := builtFrom_run hs
    refine ⟨?_, _, hb.effectiveBehaviors_of_reachable hd hr,
      fun _ => hb.get?_behaviorTable_interface hd hi⟩
    rw [hb.effectiveFields_of_reachable hd hr (Definition.hasFields_of_interface hi),
      hb.fieldTable_interface hd hi, Field.values_table]

/-- The query type of the small run is found in its schema. -/
theorem Sample.getType_query {s : Schema} (hs : (run {} operations).build.outcome = .ok s) :
    s.getType "Query" = .ok queryType := by
  have hb := builtFrom_run hs
  have hroots : s.roots = { query := some "Query" } := Option.some.inj hb.roots.symm
  have hr : s.isReachable queryType.name = true :=
    hb.isReachable_of_start queryType_mem (by rw [hroots]; decide)
  exact hb.getType_of_reachable queryType_mem hr

/-- It has the inherited field first, and the behavior of that field is bound to it. -/
theorem sample_composition :
    ∃ (s : Schema) (c : Composition), (run {} Sample.operations).build.outcome = .ok s ∧
      Table.keys c.fields = ["id", "nextNode"] ∧
      s.effectiveFields "Query" = .ok (Table.values c.fields) ∧
      s.effectiveBehaviors "Query" = .ok c.behaviors ∧
      Table.get? c.behaviors "id" = some ⟨"id", .globalId "id", some "Query"⟩ := by
  obtain ⟨s, hs⟩ := Sample.exists_build
  obtain ⟨-, -, hr⟩ := (builtFrom_run hs).of_getType (Sample.getType_query hs)
  obtain ⟨c, -, hc, hbuild⟩ := (run_composition {} Sample.operations Sample.queryType_mem).1 _ rfl
  obtain ⟨hfields, hbehaviors⟩ := hbuild s hs hr
  exact ⟨s, c, hs, hc.names, hfields, hbehaviors, hc.behaviors "id"⟩

end Registry

end GraphSchema
