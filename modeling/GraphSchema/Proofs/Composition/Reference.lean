import GraphSchema.Proofs.Declarations.Coherence

/-!
# Composition by name

What composition gives for each name, said without the order in which tables are merged.

## Main definitions

* `Declarations.interfacesOf` — the interfaces that a type implements.
* `ObjectType.composedNames`, `ObjectType.composedField?` — the names of the fields of a composed
  type, and the field of a name.
* `layerBehavior?`, `ObjectType.composedBehavior?` — the behavior of a name in one layer, and in
  a composed type.

* `Composition.Matches` — a composition with these fields and behaviors.

## Main statements

* `Declarations.Coherent.keys_compose_fields`, `Declarations.Coherent.get?_compose_fields` — the
  composed fields of coherent declarations.
* `Declarations.Coherent.get?_compose_behaviors` — their composed behaviors.
* `Declarations.Coherent.compose_matches` — composition as a whole.
-/

namespace GraphSchema

/-! ## The composed type, name by name -/

/-- The registered interfaces among the names that a type lists, each once, in order. -/
def Declarations.interfacesOf (ds : Declarations) (o : ObjectType) : List InterfaceType :=
  o.interfaces.eraseDups.filterMap fun name =>
    match ds.body? name with
    | some (.interface i) => some i
    | _ => none

/-- The behavior of a name in one layer: the one that is listed, else that of the field. -/
def layerBehavior? (fields : List Field) (listed : Table String Behavior) (name : String) :
    Option Behavior :=
  Table.get? listed name <|> (fields.find? (·.name == name)).bind (·.resolver)

namespace ObjectType

variable (o : ObjectType) (interfaces : List InterfaceType)

/-- The names of the fields of a composed type: those of its interfaces, each where it comes
first, and after them the further names of its own fields. -/
def composedNames : List String :=
  let inherited := (interfaces.flatMap fun i => i.fields.map (·.name)).eraseDups
  inherited ++ (o.fields.map (·.name)).filter fun name => name ∉ inherited

/-- The field of a name in a composed type: its own, else that of the first interface with one. -/
def composedField? (name : String) : Option Field :=
  o.fields.find? (·.name == name) <|>
    interfaces.findSome? fun i => i.fields.find? (·.name == name)

/-- The behavior of a name in a composed type: its own, else that of the first interface with
one. -/
def composedBehavior? (name : String) : Option Behavior :=
  layerBehavior? o.fields o.behaviors name <|>
    interfaces.findSome? fun i => layerBehavior? i.fields i.behaviors name

end ObjectType

theorem ObjectType.mem_of_composedField? {o : ObjectType} {interfaces : List InterfaceType}
    {name : String} {f : Field} (h : o.composedField? interfaces name = some f) :
    f ∈ o.fields ∨ ∃ i ∈ interfaces, f ∈ i.fields := by
  rw [composedField?, Option.orElse_eq_orElse, Option.orElse_eq_or, Option.or_eq_some_iff] at h
  rcases h with h | ⟨-, h⟩
  · exact .inl (List.mem_of_find?_eq_some h)
  · obtain ⟨i, hi, hf⟩ := List.exists_of_findSome?_eq_some h
    exact .inr ⟨i, hi, List.mem_of_find?_eq_some hf⟩

/-- A composition that is as its definition by names: the names of the fields in order, the field of
every name, and the behavior of every name, bound to the type. -/
structure Composition.Matches (c : Composition) (ds : Declarations) (type : String)
    (o : ObjectType) : Prop where
  names : Table.keys c.fields = o.composedNames (ds.interfacesOf o)
  fields : ∀ name, Table.get? c.fields name = o.composedField? (ds.interfacesOf o) name
  distinct : (Table.keys c.behaviors).Nodup
  behaviors : ∀ name, Table.get? c.behaviors name =
    if name ∈ o.composedNames (ds.interfacesOf o) then
      (o.composedBehavior? (ds.interfacesOf o) name).map (·.bind type)
    else none

/-! ## Distinct names -/

theorem eraseDups_of_nodup {names : List String} (h : names.Nodup) : names.eraseDups = names := by
  induction names with
  | nil => rfl
  | cons name names ih =>
    obtain ⟨hn, h⟩ := List.nodup_cons.1 h
    have hf : (names.filter fun b => !b == name) = names :=
      List.filter_eq_self.2 fun b hb => by
        have hne : b ≠ name := fun he => hn (he ▸ hb)
        simpa using hne
    rw [List.eraseDups_cons, hf, ih h]

theorem nodup_eraseDups (names : List String) : names.eraseDups.Nodup := by
  have hkeys : Table.keys (Table.ofList (names.map fun name => (name, ()))) = names.eraseDups := by
    rw [Table.ofList, Table.keys_merge, Table.keys_nil, Table.foldl_addKey_nil]
    simp [Table.keys, Function.comp_def]
  exact hkeys ▸ Table.nodup_keys_ofList

/-! ## Layers -/

namespace Declarations

variable {ds : Declarations} {d : Definition} {o : ObjectType}

theorem get?_inlineBehaviors {fs : List Field} (h : (fs.map (·.name)).Nodup) {name : String} :
    Table.get? (inlineBehaviors (Field.table fs)) name =
      (fs.find? (·.name == name)).bind (·.resolver) := by
  rw [inlineBehaviors, Field.table, List.filterMap_map]
  exact Table.get?_filterMap h

theorem get?_layerBehaviors {owner : String} {layer : Layer} {fs : List Field}
    {listed : Table String Behavior} (hf : ds.fields.declared owner layer = Field.table fs)
    (hfs : (fs.map (·.name)).Nodup) (hl : (Table.keys listed).Nodup) (name : String) :
    Table.get? (ds.layerBehaviors owner layer listed) name = layerBehavior? fs listed name := by
  rw [layerBehaviors, Table.get?_merge hl, hf, get?_inlineBehaviors hfs]
  cases h : Table.get? listed name <;> simp [layerBehavior?, h]

theorem map_body_implemented :
    (ds.implemented o.interfaces).map (·.body) = ds.interfacesOf o := by
  rw [implemented, interfacesOf, List.map_filterMap]
  congr 1
  funext name
  unfold interface?
  split <;> simp_all

theorem exists_of_mem_interfacesOf {i : InterfaceType} (h : i ∈ ds.interfacesOf o) :
    ∃ name ∈ o.interfaces, ∃ d, ds.find name = some d ∧ d.body = .interface i := by
  obtain ⟨name, hn, hi⟩ := List.mem_filterMap.1 h
  refine ⟨name, List.mem_eraseDups.1 hn, ?_⟩
  unfold body? at hi
  cases hd : ds.find name with
  | none => simp [hd] at hi
  | some d =>
    cases hb : d.body <;> simp [hd, hb] at hi
    exact ⟨d, rfl, hi ▸ hb⟩

theorem interface?_of_mem_implemented {names : List String} {i : Implemented}
    (h : i ∈ ds.implemented names) : ∃ name ∈ names, ds.interface? name = some i := by
  obtain ⟨name, hn, hi⟩ := List.mem_filterMap.1 h
  exact ⟨name, List.mem_eraseDups.1 hn, hi⟩

/-- A composed behavior belongs to a composed field, and is bound to the type. -/
theorem compose_behaviors {type : String} :
    (ds.compose type o).behaviors =
      ((ds.composeBehaviors type o (ds.implemented o.interfaces)).filter fun e =>
        Table.contains (ds.compose type o).fields e.1).map fun e => (e.1, e.2.bind type) := by
  simp only [compose, List.partition_eq_filter_filter]

theorem nodup_keys_compose_behaviors {type : String} :
    (Table.keys (ds.compose type o).behaviors).Nodup := by
  rw [compose_behaviors, Table.keys_map (g := fun b : Behavior => b.bind type)]
  exact Table.nodup_keys_filter
    (Table.nodup_keys_merge (Table.nodup_keys_foldl_mergeNew List.nodup_nil))

namespace Coherent

theorem map_interfaceFields (h : ds.Coherent) :
    (ds.implemented o.interfaces).map ds.interfaceFields =
      (ds.interfacesOf o).map fun i => Field.table i.fields := by
  rw [← map_body_implemented, List.map_map]
  refine List.map_congr_left fun i hi => ?_
  obtain ⟨n, -, hi⟩ := interface?_of_mem_implemented hi
  exact h.interfaceFields hi

theorem map_interfaceBehaviors (h : ds.Coherent) (name : String) :
    (ds.implemented o.interfaces).map (fun i => Table.get? (ds.interfaceBehaviors i) name) =
      (ds.interfacesOf o).map fun i => layerBehavior? i.fields i.behaviors name := by
  rw [← map_body_implemented, List.map_map]
  refine List.map_congr_left fun i hi => ?_
  obtain ⟨n, -, hi⟩ := interface?_of_mem_implemented hi
  obtain ⟨-, d, hd, hb⟩ := interface?_eq_some_iff.1 hi
  refine get?_layerBehaviors (h.interfaceFields hi) (h.distinct_interface hi) ?_ name
  simpa [Definition.behaviors, hb] using h.distinctBehaviors d (mem_of_findDefinition hd)

/-! ## Fields -/

theorem keys_compose_fields (h : ds.Coherent) (hd : d ∈ ds.definitions)
    (ho : d.body = .object o) :
    Table.keys (ds.compose d.name o).fields = o.composedNames (ds.interfacesOf o) := by
  have hi : ((ds.implemented o.interfaces).flatMap fun i => Table.keys (ds.interfaceFields i)) =
      (ds.interfacesOf o).flatMap fun i => i.fields.map (·.name) := by
    have := congrArg (List.flatMap Table.keys) (h.map_interfaceFields (o := o))
    simpa only [List.flatMap_map, Field.keys_table] using this
  have hown := h.distinct_own hd ho
  change Table.keys (ds.composeFields d.name _) = _
  rw [composeFields, Table.keys_merge, Table.keys_foldl_mergeNew, h.ownFields hd ho, hi,
    Field.keys_table, Table.keys_nil, Table.foldl_addKey_nil, Table.foldl_addKey,
    eraseDups_of_nodup (hown.filter _)]
  rfl

/-- The composed field of a name: the own one, else that of the first interface whose table has
the name. -/
theorem get?_composeFields (h : ds.Coherent) (hd : d ∈ ds.definitions)
    (ho : d.body = .object o) {name : String} :
    Table.get? (ds.compose d.name o).fields name =
      (o.fields.find? (·.name == name)).or
        ((ds.implemented o.interfaces).findSome? fun i =>
          Table.get? (ds.interfaceFields i) name) := by
  have hown : (Table.keys (Field.table o.fields)).Nodup := by
    rw [Field.keys_table]
    exact h.distinct_own hd ho
  change Table.get? (ds.composeFields d.name _) name = _
  rw [composeFields, h.ownFields hd ho, Table.get?_merge hown, Table.get?_foldl_mergeNew,
    Field.get?_table]
  rfl

theorem get?_compose_fields (h : ds.Coherent) (hd : d ∈ ds.definitions)
    (ho : d.body = .object o) {name : String} :
    Table.get? (ds.compose d.name o).fields name =
      o.composedField? (ds.interfacesOf o) name := by
  have hi : ((ds.implemented o.interfaces).findSome? fun i =>
        Table.get? (ds.interfaceFields i) name) =
      (ds.interfacesOf o).findSome? fun i => i.fields.find? (·.name == name) := by
    have := congrArg (List.findSome? (Table.get? · name)) (h.map_interfaceFields (o := o))
    simpa only [List.findSome?_map, Function.comp_def, Field.get?_table] using this
  rw [h.get?_composeFields hd ho, hi, ObjectType.composedField?, Option.orElse_eq_orElse,
    Option.orElse_eq_or]

theorem isTable_compose_fields (h : ds.Coherent) (hd : d ∈ ds.definitions)
    (ho : d.body = .object o) : Field.IsTable (ds.compose d.name o).fields where
  distinct := Table.nodup_keys_merge (Table.nodup_keys_foldl_mergeNew List.nodup_nil)
  named e he := by
    rcases Table.mem_merge he with he | he
    · rcases Table.mem_foldl_mergeNew he with he | ⟨i, hi, he⟩
      · cases he
      · obtain ⟨n, -, hi⟩ := interface?_of_mem_implemented hi
        rw [h.interfaceFields hi] at he
        exact (Field.isTable_table (h.distinct_interface hi)).named e he
    · rw [h.ownFields hd ho] at he
      exact (Field.isTable_table (h.distinct_own hd ho)).named e he

/-! ## Behaviors -/

theorem nodup_keys_layerBehaviors (h : ds.Coherent) (hd : d ∈ ds.definitions)
    (ho : d.body = .object o) :
    (Table.keys (ds.layerBehaviors d.name .own o.behaviors)).Nodup := by
  refine Table.nodup_keys_merge ?_
  rw [h.ownFields hd ho, inlineBehaviors, Field.table, List.filterMap_map]
  exact Table.nodup_keys_filterMap (h.distinct_own hd ho)

/-- The behavior of a name before those without a field fall away. -/
theorem get?_composeBehaviors (h : ds.Coherent) (hd : d ∈ ds.definitions)
    (ho : d.body = .object o) {name : String} :
    Table.get? (ds.composeBehaviors d.name o (ds.implemented o.interfaces)) name =
      o.composedBehavior? (ds.interfacesOf o) name := by
  have hi : ((ds.implemented o.interfaces).findSome? fun i =>
        Table.get? (ds.interfaceBehaviors i) name) =
      (ds.interfacesOf o).findSome? fun i => layerBehavior? i.fields i.behaviors name := by
    have := congrArg (List.findSome? id) (h.map_interfaceBehaviors name (o := o))
    simpa only [List.findSome?_map, Function.comp_def, id] using this
  have hlisted : (Table.keys o.behaviors).Nodup := by
    simpa [Definition.behaviors, ho] using h.distinctBehaviors d hd
  have hown := get?_layerBehaviors (h.ownFields hd ho) (h.distinct_own hd ho) hlisted name
  rw [composeBehaviors, Table.get?_merge (h.nodup_keys_layerBehaviors hd ho),
    Table.get?_foldl_mergeNew, hi, hown]
  simp [ObjectType.composedBehavior?, Table.get?]

theorem get?_compose_behaviors (h : ds.Coherent) (hd : d ∈ ds.definitions)
    (ho : d.body = .object o) {name : String} :
    Table.get? (ds.compose d.name o).behaviors name =
      if name ∈ o.composedNames (ds.interfacesOf o) then
        (o.composedBehavior? (ds.interfacesOf o) name).map (·.bind d.name)
      else none := by
  rw [compose_behaviors, Table.get?_map (g := fun b : Behavior => b.bind d.name), Table.get?_filter,
    h.get?_composeBehaviors hd ho, ← h.keys_compose_fields hd ho]
  by_cases hn : name ∈ Table.keys (ds.compose d.name o).fields
  · rw [if_pos hn, if_pos (Table.contains_iff_mem_keys.2 hn)]
  · rw [if_neg hn, if_neg (mt Table.contains_iff_mem_keys.1 hn)]
    rfl

/-- Composition is as its definition by names. -/
theorem compose_matches (h : ds.Coherent) (hd : d ∈ ds.definitions) (ho : d.body = .object o) :
    (ds.compose d.name o).Matches ds d.name o where
  names := h.keys_compose_fields hd ho
  fields _ := h.get?_compose_fields hd ho
  distinct := nodup_keys_compose_behaviors
  behaviors _ := h.get?_compose_behaviors hd ho

end Coherent

end Declarations

end GraphSchema
