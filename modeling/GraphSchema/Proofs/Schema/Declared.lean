import GraphSchema.Proofs.Registry.Provenance
import GraphSchema.Proofs.Schema.References

/-!
# Declared fields

What has become of the fields that a run declares, once its schema is built. Every field that an
object type or one of its interfaces declares is a composed field of the object type, under its
final name.

## Main definitions

* `ObjectType.Declares` — a field of an object type by declaration: its own, or that of one of its
  interfaces.

## Main statements

* `Registry.final_mem` — what a run declares is defined, in its final form.
* `Registry.isReachable_of_root` — what is declared and named as a root is reachable.
* `Registry.composed_own` — an own field is the composed field of its final name.
* `Registry.exists_composed` — every declared field has a composed field of its final name.
* `Registry.forall_arguments` — what holds of all declared arguments holds of all composed ones.
-/

namespace GraphSchema

/-- The fields of an object type by declaration: its own, and those of the interfaces among the
definitions that it implements. -/
inductive ObjectType.Declares (definitions : List Definition) (o : ObjectType) (f : Field) : Prop
  | own (hf : f ∈ o.fields)
  | inherited (e : Definition) (i : InterfaceType) (he : e ∈ definitions)
      (hi : e.body = .interface i) (hn : e.name ∈ o.interfaces) (hf : f ∈ i.fields)

theorem Definition.body_final_object {d : Definition} {o : ObjectType} {camelize : Bool}
    (h : d.body = .object o) : (d.final camelize).body = .object (o.final camelize) := by
  rw [final, h]

theorem Definition.body_final_interface {d : Definition} {i : InterfaceType} {camelize : Bool}
    (h : d.body = .interface i) : (d.final camelize).body = .interface (i.final camelize) := by
  rw [final, h]

/-- The fields of a definition as it is registered. -/
theorem Definition.fields_final {d : Definition} {camelize : Bool} :
    (d.final camelize).fields = d.fields.map (Registry.finalField camelize) := by
  unfold fields final
  cases d.body <;> rfl

namespace Registry

variable {settings : Settings} {ops : List Operation} {s : Schema} {d e : Definition}
  {o : ObjectType} {i : InterfaceType} {f : Field}

/-! ## Definitions -/

/-- A run whose schema is built has had no problems. -/
theorem problems_eq_nil (hs : (run settings ops).build.outcome = .ok s) :
    (run settings ops).problems = [] := by
  have hviolations := (builtFrom_run hs).violations
  simp only [violations, List.append_eq_nil_iff] at hviolations
  exact hviolations.1.1

/-- What a run declares is defined, in its final form. -/
theorem final_mem (hs : (run settings ops).build.outcome = .ok s)
    (hd : d ∈ declared settings ops) :
    d.final settings.autoCamelize.truthy ∈ (run settings ops).declarations.definitions := by
  rw [definitions_run (problems_eq_nil hs)]
  exact List.mem_append_right _ (List.mem_map_of_mem hd)

/-- What is defined is a scalar, or declared by the run. -/
theorem scalar_or_declared (hs : (run settings ops).build.outcome = .ok s)
    (hd : d ∈ (run settings ops).declarations.definitions) :
    d.body = .scalar ∨
      ∃ e ∈ declared settings ops, d = e.final settings.autoCamelize.truthy := by
  rw [definitions_run (problems_eq_nil hs), List.mem_append, List.mem_map] at hd
  rcases hd with hd | ⟨e, he, rfl⟩
  · exact .inl (body_of_mem_builtins hd)
  · exact .inr ⟨e, he, rfl⟩

/-- What is declared and named as a root is reachable. -/
theorem isReachable_of_root (hs : (run settings ops).build.outcome = .ok s)
    (hd : d ∈ declared settings ops) {roots : Roots}
    (hroots : (run settings ops).roots = some roots)
    (hn : d.name ∈ roots.names ++ roots.orphans) : s.isReachable d.name = true := by
  have hb := builtFrom_run hs
  obtain rfl : roots = s.roots := Option.some.inj (hroots.symm.trans hb.roots)
  have hreach := hb.isReachable_of_start (final_mem hs hd) (by rwa [Definition.name_final])
  rwa [Definition.name_final] at hreach

/-- A declared interface is implemented by the types that name it. -/
theorem implemented_final (hs : (run settings ops).build.outcome = .ok s)
    (he : e ∈ declared settings ops) (hi : e.body = .interface i) (hn : e.name ∈ o.interfaces) :
    ⟨e.name, i.final settings.autoCamelize.truthy⟩ ∈
      (run settings ops).declarations.implemented o.interfaces := by
  have hc := (builtFrom_run hs).coherent
  refine List.mem_filterMap.2 ⟨e.name, List.mem_eraseDups.2 hn, ?_⟩
  exact hc.interface?_of_mem (final_mem hs he) (Definition.body_final_interface hi)

/-! ## Composed fields -/

/-- An own field is the composed field of its final name. -/
theorem composed_own (hs : (run settings ops).build.outcome = .ok s)
    (hd : d ∈ declared settings ops) (ho : d.body = .object o) (hf : f ∈ o.fields) :
    Table.get? (s.fieldTable d.name) (finalField settings.autoCamelize.truthy f).name =
      some (finalField settings.autoCamelize.truthy f) := by
  have hb := builtFrom_run hs
  have hmem := final_mem hs hd
  have hbody : (d.final settings.autoCamelize.truthy).body =
      .object (o.final settings.autoCamelize.truthy) := Definition.body_final_object ho
  have hown : finalField settings.autoCamelize.truthy f ∈
      (o.final settings.autoCamelize.truthy).fields := List.mem_map_of_mem hf
  rw [← Definition.name_final, hb.fieldTable_object hmem hbody,
    hb.coherent.get?_compose_fields hmem hbody, ObjectType.composedField?,
    Table.find?_of_mem (hb.coherent.distinct_own hmem hbody) hown]
  rfl

/-- Every declared field has a composed field of its final name: the very field in its final form,
or one that satisfies it. -/
theorem exists_composed (hs : (run settings ops).build.outcome = .ok s)
    (hd : d ∈ declared settings ops) (ho : d.body = .object o)
    (hf : o.Declares (declared settings ops) f) :
    ∃ found,
      Table.get? (s.fieldTable d.name) (finalField settings.autoCamelize.truthy f).name =
        some found ∧
      (found = finalField settings.autoCamelize.truthy f ∨
        (run settings ops).declarations.Fulfills
          (finalField settings.autoCamelize.truthy f) found) := by
  cases hf with
  | own hf => exact ⟨_, composed_own hs hd ho hf, .inl rfl⟩
  | inherited e i he hi hn hf =>
    exact (builtFrom_run hs).exists_fulfilling (final_mem hs hd)
      (Definition.body_final_object ho) (implemented_final hs he hi hn) (List.mem_map_of_mem hf)

/-- A composed field of a declared type is found if the type is reachable. -/
theorem lookupField_of_declared (hs : (run settings ops).build.outcome = .ok s)
    (hd : d ∈ declared settings ops) (hr : s.isReachable d.name = true) {name : String}
    (hf : Table.get? (s.fieldTable d.name) name = some f) : s.lookupField d.name name = .ok f :=
  (builtFrom_run hs).lookupField_of_reachable (final_mem hs hd) hr hf

/-- The behavior of a composed field of a declared type. -/
theorem get?_behaviorTable_of_declared (hs : (run settings ops).build.outcome = .ok s)
    (hd : d ∈ declared settings ops) (ho : d.body = .object o) {name : String}
    (hf : Table.get? (s.fieldTable d.name) name = some f) :
    Table.get? (s.behaviorTable d.name) name =
      ((o.final settings.autoCamelize.truthy).composedBehavior?
        ((run settings ops).declarations.interfacesOf o) name).map (·.bind d.name) :=
  (builtFrom_run hs).get?_behaviorTable_object (final_mem hs hd)
    (Definition.body_final_object ho) hf

/-- What holds of all declared arguments, and of arguments under their final names, holds of the
arguments of all composed fields. -/
theorem forall_arguments (hs : (run settings ops).build.outcome = .ok s) {p : Argument → Prop}
    (hp : ∀ e ∈ declared settings ops, ∀ f ∈ e.fields, ∀ a ∈ f.arguments, p a)
    (hfinal : ∀ a, p a → p a.camelized) (hd : d ∈ (run settings ops).declarations.definitions)
    (hf : f ∈ Table.values (s.fieldTable d.name)) {a : Argument} (ha : a ∈ f.arguments) : p a := by
  obtain ⟨_, hmem, hfe⟩ := (builtFrom_run hs).exists_declaring hd hf
  rcases scalar_or_declared hs hmem with hscalar | ⟨e, he, rfl⟩
  · simp [Definition.fields, hscalar] at hfe
  · rw [Definition.fields_final] at hfe
    obtain ⟨g, hg, rfl⟩ := List.mem_map.1 hfe
    unfold finalField Field.camelized at ha
    split at ha
    · split at ha
      · obtain ⟨b, hb, rfl⟩ := List.mem_map.1 ha
        exact hfinal b (hp e he g hg b hb)
      · exact hp e he g hg a ha
    · exact hp e he g hg a ha

end Registry

end GraphSchema
