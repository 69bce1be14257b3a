import GraphSchema.Composition

/-!
# Coherent declarations

The fields of a definition are held twice: in the definition, and by owner and layer in the
store. In coherent declarations both say the same.

## Main definitions

* `Definition.layerFields`, `Definition.behaviors` — the fields that a definition has in a layer,
  and the behaviors that it lists.
* `Declarations.Coherent` — distinct names, and a store that holds the fields of the definitions.

## Main statements

* `findDefinition_eq_some_iff` — among definitions with distinct names look-up is membership.
* `Declarations.Coherent.interfaceFields`, `Declarations.Coherent.ownFields` — the tables that
  composition reads hold the fields of the definitions.
-/

namespace GraphSchema

/-! ## Look-up among definitions with distinct names -/

theorem findDefinition_of_mem {definitions : List Definition} {d : Definition}
    (h : (definitions.map (·.name)).Nodup) (hd : d ∈ definitions) :
    findDefinition definitions d.name = some d :=
  Table.find?_of_mem h hd

theorem findDefinition_eq_some_iff {definitions : List Definition} {name : String}
    {d : Definition} (h : (definitions.map (·.name)).Nodup) :
    findDefinition definitions name = some d ↔ d ∈ definitions ∧ d.name = name := by
  refine ⟨fun hd => ⟨mem_of_findDefinition hd, name_of_findDefinition hd⟩, ?_⟩
  rintro ⟨hd, rfl⟩
  exact findDefinition_of_mem h hd

theorem findDefinition_eq_none_iff {definitions : List Definition} {name : String} :
    findDefinition definitions name = none ↔ name ∉ definitions.map (·.name) := by
  simp [findDefinition]

/-! ## Coherence -/

theorem Definition.hasFields_of_object {d : Definition} {o : ObjectType} (h : d.body = .object o) :
    d.hasFields = true := by
  simp [hasFields, kind, h, TypeBody.kind]

theorem Definition.hasFields_of_interface {d : Definition} {i : InterfaceType}
    (h : d.body = .interface i) : d.hasFields = true := by
  simp [hasFields, kind, h, TypeBody.kind]

theorem Definition.exists_object {d : Definition} (h : d.kind = .object) :
    ∃ o, d.body = .object o := by
  unfold kind at h
  cases hb : d.body <;> simp_all [TypeBody.kind]

theorem Definition.exists_interface {d : Definition} (h : d.kind = .interface) :
    ∃ i, d.body = .interface i := by
  unfold kind at h
  cases hb : d.body <;> simp_all [TypeBody.kind]

/-- The fields that a definition has in a layer of its own. -/
def Definition.layerFields (d : Definition) : Layer → List Field
  | .interface => match d.body with
    | .interface i => i.fields
    | _ => []
  | .own => match d.body with
    | .object o => o.fields
    | _ => []
  | .effective => []

/-- The behaviors that a definition lists. -/
def Definition.behaviors (d : Definition) : Table String Behavior :=
  match d.body with
  | .interface i => i.behaviors
  | .object o => o.behaviors
  | _ => []

namespace Declarations

/-- Distinct definitions, each with distinct fields and behaviors, and a store that holds
exactly these fields in the layers of declarations. -/
structure Coherent (ds : Declarations) : Prop where
  distinct : (ds.definitions.map (·.name)).Nodup
  distinctFields : ∀ d ∈ ds.definitions, ∀ layer, ((d.layerFields layer).map (·.name)).Nodup
  distinctBehaviors : ∀ d ∈ ds.definitions, (Table.keys d.behaviors).Nodup
  declared : ∀ owner layer, layer ≠ .effective →
    ds.fields.declared owner layer =
      Field.table (((ds.find owner).map (·.layerFields layer)).getD [])

variable {ds : Declarations} {name : String} {d : Definition}

theorem interface?_eq_some_iff {i : Implemented} :
    ds.interface? name = some i ↔
      i.name = name ∧ ∃ d, ds.find name = some d ∧ d.body = .interface i.body := by
  simp only [interface?, body?]
  cases hd : ds.find name with
  | none => simp
  | some d =>
    obtain ⟨n, b⟩ := i
    cases hb : d.body <;> simp [hb, eq_comm]

namespace Coherent

theorem find_of_mem (h : ds.Coherent) (hd : d ∈ ds.definitions) : ds.find d.name = some d :=
  findDefinition_of_mem h.distinct hd

theorem body?_of_mem (h : ds.Coherent) (hd : d ∈ ds.definitions) :
    ds.body? d.name = some d.body := by
  rw [body?, h.find_of_mem hd, Option.map_some]

theorem interface?_of_mem (h : ds.Coherent) (hd : d ∈ ds.definitions) {i : InterfaceType}
    (hi : d.body = .interface i) : ds.interface? d.name = some ⟨d.name, i⟩ :=
  interface?_eq_some_iff.2 ⟨rfl, d, h.find_of_mem hd, hi⟩

theorem eq_of_name_eq (h : ds.Coherent) {e : Definition} (hd : d ∈ ds.definitions)
    (he : e ∈ ds.definitions) (hn : e.name = d.name) : e = d :=
  Option.some.inj ((h.find_of_mem he).symm.trans (hn ▸ h.find_of_mem hd))

theorem interfaceFields (h : ds.Coherent) {i : Implemented} (hi : ds.interface? name = some i) :
    ds.interfaceFields i = Field.table i.body.fields := by
  obtain ⟨rfl, d, hd, hb⟩ := interface?_eq_some_iff.1 hi
  rw [Declarations.interfaceFields, h.declared _ _ (by decide), hd]
  simp [Definition.layerFields, hb]

theorem distinct_interface (h : ds.Coherent) {i : Implemented}
    (hi : ds.interface? name = some i) : (i.body.fields.map (·.name)).Nodup := by
  obtain ⟨-, d, hd, hb⟩ := interface?_eq_some_iff.1 hi
  simpa [Definition.layerFields, hb] using
    h.distinctFields d (mem_of_findDefinition hd) .interface

theorem ownFields (h : ds.Coherent) {o : ObjectType} (hd : d ∈ ds.definitions)
    (ho : d.body = .object o) : ds.fields.declared d.name .own = Field.table o.fields := by
  rw [h.declared _ _ (by decide), h.find_of_mem hd]
  simp [Definition.layerFields, ho]

theorem distinct_own (h : ds.Coherent) {o : ObjectType} (hd : d ∈ ds.definitions)
    (ho : d.body = .object o) : (o.fields.map (·.name)).Nodup := by
  simpa [Definition.layerFields, ho] using h.distinctFields d hd .own

end Coherent

end Declarations

end GraphSchema
