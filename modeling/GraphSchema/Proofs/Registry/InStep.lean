import GraphSchema.Proofs.Registry.Session

/-!
# The store in step with the definitions

A registry keeps the fields of its interfaces and object types twice. Validation reads them in the
definitions, composition and reachability read them in the store. As long as nothing is written past
the declarations, both say the same, whatever is declared twice and however often a build fails. The
composed tables stay empty until a build succeeds, and are those of its compositions from then on.

## Main definitions

* `Declarations.InStep` — a store that holds what the definitions declare, and nothing else.
* `Declarations.HoldsComposed` — a store that holds what composition gives, and nothing else.
* `Request.isWrite`, `Request.operation?` — requests past the declarations, and the operation that
  any other request amounts to.

## Main statements

* `Declarations.Coherent.inStep`, `Declarations.Coherent.holdsComposed` — coherent declarations are
  in step, and what their final tables are.
* `Registry.Sound.effective` — what the composed tables are before and after the build.
* `Registry.after_eq_run` — sessions without writes are runs.
* `Registry.session_inStep` — the store after any session without writes.
-/

namespace GraphSchema

theorem Definition.layerFields_interface_eq_nil {d : Definition} (h : d.kind ≠ .interface) :
    d.layerFields .interface = [] := by
  cases hb : d.body <;> simp_all [layerFields, kind, TypeBody.kind]

theorem Definition.layerFields_own_eq_nil {d : Definition} (h : d.kind ≠ .object) :
    d.layerFields .own = [] := by
  cases hb : d.body <;> simp_all [layerFields, kind, TypeBody.kind]

namespace Declarations

/-- Declarations whose store holds the fields of every registered interface in the interface layer
and those of every registered object type in its own layer, in order and by name. Every other table
of these two layers is empty. -/
structure InStep (ds : Declarations) : Prop where
  isTable : ∀ owner layer, layer ≠ .effective → Field.IsTable (ds.fields.declared owner layer)
  interface : ∀ d ∈ ds.definitions, ∀ i, d.body = .interface i →
    ds.fields.declared d.name .interface = Field.table i.fields
  own : ∀ d ∈ ds.definitions, ∀ o, d.body = .object o →
    ds.fields.declared d.name .own = Field.table o.fields
  noInterface : ∀ owner, (∀ d ∈ ds.definitions, d.name = owner → d.kind ≠ .interface) →
    ds.fields.declared owner .interface = []
  noOwn : ∀ owner, (∀ d ∈ ds.definitions, d.name = owner → d.kind ≠ .object) →
    ds.fields.declared owner .own = []

/-- Declarations whose store holds the composed fields of every object type and the declared fields
of every interface in the effective layer, where every other table is empty. -/
structure HoldsComposed (ds : Declarations) : Prop where
  isTable : ∀ owner, Field.IsTable (ds.fields.effective owner)
  object : ∀ d ∈ ds.definitions, ∀ o, d.body = .object o →
    ds.fields.effective d.name = (ds.compose d.name o).fields
  interface : ∀ d ∈ ds.definitions, ∀ i, d.body = .interface i →
    ds.fields.effective d.name = ds.fields.declared d.name .interface
  noOther : ∀ owner,
    (∀ d ∈ ds.definitions, d.name = owner → d.kind ≠ .object ∧ d.kind ≠ .interface) →
      ds.fields.effective owner = []

variable {ds : Declarations} {owner : String} {layer : Layer}

/-- A table is empty if no definition has fields for it. -/
theorem Coherent.declared_eq_nil (h : ds.Coherent) (hl : layer ≠ .effective)
    (hnone : ∀ d ∈ ds.definitions, d.name = owner → d.layerFields layer = []) :
    ds.fields.declared owner layer = [] := by
  rw [h.declared owner layer hl]
  cases hd : ds.find owner with
  | none => rfl
  | some d =>
    rw [Option.map_some, Option.getD_some,
      hnone d (mem_of_findDefinition hd) (name_of_findDefinition hd)]
    rfl

theorem Coherent.inStep (h : ds.Coherent) : ds.InStep where
  isTable owner layer hl := by
    rw [h.declared owner layer hl]
    cases hd : ds.find owner with
    | none => exact Field.isTable_table List.nodup_nil
    | some d => exact Field.isTable_table (h.distinctFields d (mem_of_findDefinition hd) layer)
  interface d hd i hi := h.interfaceFields (h.interface?_of_mem hd hi)
  own d hd o ho := h.ownFields hd ho
  noInterface owner hkind := by
    apply h.declared_eq_nil (by decide)
    intro d hd hn
    exact Definition.layerFields_interface_eq_nil (hkind d hd hn)
  noOwn owner hkind := by
    apply h.declared_eq_nil (by decide)
    intro d hd hn
    exact Definition.layerFields_own_eq_nil (hkind d hd hn)

theorem Coherent.holdsComposed (h : ds.Coherent)
    (heffective : ∀ owner, ds.fields.effective owner = ds.finalFields owner) :
    ds.HoldsComposed where
  isTable owner := heffective owner ▸ h.isTable_finalFields owner
  object d hd o ho := by simp only [heffective, finalFields, h.body?_of_mem hd, ho]
  interface d hd i hi := by
    simp only [heffective, finalFields, h.body?_of_mem hd, hi]
    rfl
  noOther owner hkind := by
    rw [heffective]
    refine Registry.finalFields_eq_nil (r := { declarations := ds }) fun d hd hn => ?_
    simp [Definition.hasFields, hkind d hd hn]

end Declarations

/-! ## Sessions without writes -/

/-- Whether a request is a write past the declarations. -/
def Request.isWrite : Request → Bool
  | .write _ => true
  | _ => false

/-- The operation of a run that a request amounts to, if it does anything but read or write. -/
def Request.operation? : Request → Option Registry.Operation
  | .register d => some (.register d)
  | .declareRoots given => some (.declareRoots given)
  | .build | .finalize => some .build
  | .write _ | .inquire _ => none

namespace Registry

variable {r : Registry} {settings : Settings} {req : Request} {reqs : List Request}

theorem serve_eq_perform (r : Registry) (h : req.isWrite = false) :
    (r.serve req).2 = req.operation?.elim r r.perform := by
  cases req with
  | register d => exact serve_request r (.register d)
  | declareRoots given => exact serve_request r (.declareRoots given)
  | build | finalize | inquire => rfl
  | write w => cases h

/-- Sessions without writes are runs. -/
theorem after_eq_run (h : ∀ req ∈ reqs, req.isWrite = false) :
    after { settings } reqs = run settings (reqs.filterMap Request.operation?) := by
  suffices hfold : ∀ r : Registry,
      r.after reqs = (reqs.filterMap Request.operation?).foldl perform r from hfold _
  induction reqs with
  | nil => intro r; rfl
  | cons req reqs ih =>
    intro r
    obtain ⟨hreq, hreqs⟩ := List.forall_mem_cons.1 h
    rw [after, List.foldl_cons, ← after, ih hreqs, serve_eq_perform r hreq]
    cases hop : req.operation? with
    | none => rw [List.filterMap_cons_none hop]; rfl
    | some op => rw [List.filterMap_cons_some hop]; rfl

/-- Composed tables are empty as long as there is no schema, and then they are the final ones. -/
theorem Sound.effective (h : r.Sound) :
    (r.schema = none → ∀ owner, r.declarations.fields.effective owner = []) ∧
    (r.schema.isSome → r.declarations.HoldsComposed) := by
  rcases h with h | ⟨s, h⟩
  · exact ⟨fun _ => h.effective, by simp [h.schema]⟩
  · refine ⟨by simp [h.schema], fun _ => h.coherent.holdsComposed fun owner => ?_⟩
    rw [h.effective, h.built.fieldTable]

/-- The store after any session without writes past the declarations. It is in step with the
definitions. Its composed tables are empty as long as no build has succeeded, and once one has they
are those of the composed types and of the interfaces. -/
theorem session_inStep (settings : Settings) (reqs : List Request)
    (h : ∀ req ∈ reqs, req.isWrite = false) :
    (after { settings } reqs).declarations.InStep ∧
    ((trace { settings } reqs).findSome? Entry.built? = none →
      ∀ owner, (after { settings } reqs).declarations.fields.effective owner = []) ∧
    (((trace { settings } reqs).findSome? Entry.built?).isSome →
      (after { settings } reqs).declarations.HoldsComposed) := by
  have hsound : (after { settings } reqs).Sound := by
    rw [after_eq_run h]
    exact sound_run settings _
  have hschema : (after { settings } reqs).schema =
      (trace { settings } reqs).findSome? Entry.built? := (guarded_fresh settings).schema_after
  rw [← hschema]
  exact ⟨hsound.coherent.inStep, hsound.effective⟩

namespace Sample

/-- A name is declared twice, and then a type that has a field in two spellings. Both builds fail. -/
def repeated : List Request := [
  .register ⟨"Node", none, .interface node⟩,
  .register ⟨"Node", none, .object query⟩,
  .register ⟨"Query", none, .object { query with
    fields := query.fields ++ [{ name := "nextNode", type := .named "Int" }] }⟩,
  .declareRoots { query := some (some (.text "Query")) },
  .build,
  .finalize]

end Sample

/-- What is declared twice leaves nothing in the store, and neither do builds that fail. In the other
session the second build succeeds. -/
theorem sample_inStep :
    ((after {} Sample.repeated).declarations.InStep ∧
      Table.keys ((after {} Sample.repeated).declarations.fields.declared "Query" .own) =
        ["nextNode"] ∧
      ∀ owner, (after {} Sample.repeated).declarations.fields.effective owner = []) ∧
    (after {} Sample.retried).declarations.HoldsComposed ∧
      Table.keys ((after {} Sample.retried).declarations.fields.effective "Query") =
        ["id", "nextNode"] := by
  have hrepeated : ∀ req ∈ Sample.repeated, req.isWrite = false := by decide
  have hretried : ∀ req ∈ Sample.retried, req.isWrite = false := by decide
  obtain ⟨hstep, hempty, -⟩ := session_inStep {} Sample.repeated hrepeated
  obtain ⟨-, -, hcomposed⟩ := session_inStep {} Sample.retried hretried
  exact ⟨⟨hstep, rfl, hempty rfl⟩, hcomposed rfl, rfl⟩

end Registry

end GraphSchema
