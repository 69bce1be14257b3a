import GraphSchema.Proofs.Schema.References

/-!
# Covariance at run time

A field of an object type may have a narrower type than the field of its interface. The build
decides this over all declarations, and a running schema tells types apart by what is reachable.
Both agree on the types that values can have: what conforms to the narrower type conforms to the
wider one.

## Main definitions

* `RuntimeValue` — values that tell their type.
* `TypeRef.Conforms` — when a value is one of a type.

## Main statements

* `TypeRef.Conforms.of_isSubtype` — values of a subtype are values of the supertype, if the
  possible types agree.
* `Schema.BuiltFrom.isPossible_of_declared` — they do, for reachable types.
* `Schema.BuiltFrom.isSubtype_composed` — the types of composed fields are subtypes.
* `Registry.run_covariant` — the values of a composed field are values of the interface field.
-/

namespace GraphSchema

/-! ## Values and types -/

/-- A value at run time: nothing, items, or a leaf that tells the name of its type. -/
inductive RuntimeValue where
  | null
  | list (items : List RuntimeValue)
  | leaf (type : String)

namespace TypeRef

variable {possible running : String → String → Bool}

/-- Whether a value is one of the type, where `possible abstract name` says that the named type
belongs to the abstract one. -/
def Conforms (possible : String → String → Bool) : TypeRef → RuntimeValue → Prop
  | named name, v => v = .null ∨ ∃ type, v = .leaf type ∧ (type = name ∨ possible name type = true)
  | list t, v => v = .null ∨ ∃ items, v = .list items ∧ ∀ item ∈ items, Conforms possible t item
  | nonNull t, v => v ≠ .null ∧ Conforms possible t v

/-- The values of a subtype are values of the supertype. The subtype is decided by `possible` and
values conform by `running`: the types that belong to the innermost name have to belong to all
abstract types that it is said to belong to. -/
theorem Conforms.of_isSubtype {sub sup : TypeRef} {v : RuntimeValue}
    (hinner : ∀ abstract, possible abstract sub.innermost = true →
      ∀ type, type = sub.innermost ∨ running sub.innermost type = true →
        running abstract type = true)
    (hsub : sub.isSubtype possible sup = true) (hv : sub.Conforms running v) :
    sup.Conforms running v := by
  -- by the wrappers of the subtype, which all have the same innermost name
  induction sub generalizing sup v with
  | named name =>
    simp only [isSubtype, Bool.or_eq_true, beq_iff_eq] at hsub
    rcases hsub with rfl | hsub
    · exact hv
    · cases sup with
      | named abstract =>
        rcases hv with hv | ⟨type, hv, htype⟩
        · exact .inl hv
        · exact .inr ⟨type, hv, .inr (hinner abstract hsub type htype)⟩
      | list t => cases hsub
      | nonNull t => cases hsub
  | list s ih =>
    simp only [isSubtype, Bool.or_eq_true, beq_iff_eq] at hsub
    rcases hsub with rfl | hsub
    · exact hv
    · cases sup with
      | named abstract => cases hsub
      | list t =>
        rcases hv with hv | ⟨items, hv, hitems⟩
        · exact .inl hv
        · exact .inr ⟨items, hv, fun item hmem => ih hinner hsub (hitems item hmem)⟩
      | nonNull t => cases hsub
  | nonNull s ih =>
    simp only [isSubtype, Bool.or_eq_true, beq_iff_eq] at hsub
    rcases hsub with rfl | hsub
    · exact hv
    · cases sup with
      | named abstract => exact ih hinner hsub hv.2
      | list t => exact ih hinner hsub hv.2
      | nonNull t => exact ⟨hv.1, ih hinner hsub hv.2⟩

end TypeRef

/-! ## Possible types -/

theorem Declarations.isPossible_cases {ds : Declarations} {abstract type : String}
    (h : ds.isPossible abstract type = true) :
    (∃ i o, ds.body? abstract = some (.interface i) ∧ ds.body? type = some (.object o) ∧
      o.interfaces.contains abstract = true) ∨
    ∃ u, ds.body? abstract = some (.union u) ∧ u.members.contains type = true := by
  unfold isPossible at h
  split at h
  · next i hi =>
    split at h
    · next o ho => exact .inl ⟨i, o, hi, ho, h⟩
    · cases h
  · next u hu => exact .inr ⟨u, hu, h⟩
  · cases h

namespace Schema.BuiltFrom

variable {s : Schema} {r : Registry} {abstract type : String}

theorem map_body_find (h : s.BuiltFrom r) {name : String} :
    (s.find name).map Definition.body = r.declarations.body? name := by
  rw [h.find_eq, Declarations.body?]

/-- What belongs to an abstract type by the declarations is an object type. -/
theorem object_of_possible (h : s.BuiltFrom r)
    (hp : r.declarations.isPossible abstract type = true) :
    ∃ o, r.declarations.body? type = some (.object o) := by
  rcases Declarations.isPossible_cases hp with ⟨i, o, -, ho, -⟩ | ⟨u, hu, hm⟩
  · exact ⟨o, ho⟩
  · obtain ⟨d, hd, hb⟩ := Option.map_eq_some_iff.1 hu
    obtain ⟨e, he, hk⟩ :=
      h.admits_member (mem_of_findDefinition hd) hb (List.contains_iff_mem.1 hm)
    have hobject : e.kind = .object := by simpa [Position.admits, Position.kinds] using hk
    obtain ⟨o, ho⟩ := Definition.exists_object hobject
    exact ⟨o, Option.map_eq_some_iff.2 ⟨e, he, ho⟩⟩

/-- What belongs to an abstract type by the declarations does so in the schema, if it is
reachable. -/
theorem isPossible_of_declared (h : s.BuiltFrom r) (hr : s.isReachable type = true)
    (hp : r.declarations.isPossible abstract type = true) : s.isPossible abstract type = true := by
  obtain ⟨o, ho⟩ := h.object_of_possible hp
  rw [isPossible, hr, h.map_body_find, h.map_body_find, ho, Bool.true_and]
  rcases Declarations.isPossible_cases hp with ⟨i, o', hi, ho', hm⟩ | ⟨u, hu, hm⟩
  · obtain rfl : o = o' := by simpa [ho] using ho'
    rw [hi]
    exact hm
  · rw [hu]
    exact hm

theorem isPossible_object (h : s.BuiltFrom r) {o : ObjectType}
    (ho : r.declarations.body? abstract = some (.object o)) :
    s.isPossible abstract type = false := by
  rw [isPossible, h.map_body_find, h.map_body_find, ho]
  cases r.declarations.body? type with
  | none => exact Bool.and_false _
  | some body => cases body <;> exact Bool.and_false _

/-- The possible types agree where values conform. -/
theorem possible_of_conforms (h : s.BuiltFrom r) {name : String}
    (hr : s.isReachable name = true) (hp : r.declarations.isPossible abstract name = true)
    (ht : type = name ∨ s.isPossible name type = true) : s.isPossible abstract type = true := by
  rcases ht with rfl | ht
  · exact h.isPossible_of_declared hr hp
  · obtain ⟨o, ho⟩ := h.object_of_possible hp
    rw [h.isPossible_object ho] at ht
    cases ht

end Schema.BuiltFrom

/-! ## Contracts -/

/-- The type of a composed field is a subtype of that of the interface field. -/
theorem Schema.BuiltFrom.isSubtype_composed {s : Schema} {r : Registry} {d : Definition}
    {o : ObjectType} (h : s.BuiltFrom r) (hd : d ∈ r.declarations.definitions)
    (ho : d.body = .object o) {i : Declarations.Implemented}
    (hi : i ∈ r.declarations.implemented o.interfaces) {expected : Field}
    (he : expected ∈ i.body.fields) :
    ∃ found, Table.get? (s.fieldTable d.name) expected.name = some found ∧
      found.type.isSubtype r.declarations.isPossible expected.type = true := by
  obtain ⟨found, hfound, rfl | hfulfills⟩ := h.exists_fulfilling hd ho hi he
  · exact ⟨found, hfound, TypeRef.isSubtype_self⟩
  · exact ⟨found, hfound, hfulfills.type⟩

/-! ## Runs -/

namespace Registry

/-- For a visible object type of a built schema and each of its interfaces: every field of the
interface is there on the object type, and the values of its type there are values of its type on
the interface. -/
theorem run_covariant {settings : Settings} {ops : List Operation} {s : Schema}
    (hs : (run settings ops).build.outcome = .ok s) {type : String} {d : Definition}
    {o : ObjectType} (hd : s.getType type = .ok d) (ho : d.body = .object o) {abstract : String}
    (hi : abstract ∈ o.interfaces) :
    ∃ fields, s.effectiveFields abstract = .ok fields ∧ ∀ expected ∈ fields,
      ∃ found, s.lookupField type expected.name = .ok found ∧
        ∀ v, found.type.Conforms s.isPossible v → expected.type.Conforms s.isPossible v := by
  have hb := builtFrom_run hs
  obtain ⟨hmem, rfl, hr⟩ : d ∈ (run settings ops).declarations.definitions ∧ d.name = type ∧
      s.isReachable type = true := hb.of_getType hd
  obtain ⟨e, he, hk⟩ := hb.interface_of_mem hmem ho hi
  obtain ⟨i, hbody⟩ := Definition.exists_interface hk
  have hemem := mem_of_findDefinition he
  obtain rfl := name_of_findDefinition he
  obtain ⟨-, -, -, hereach⟩ := hb.reachable_of_refers hmem hr (.implements ho hi)
  have himpl : ⟨e.name, i⟩ ∈ (run settings ops).declarations.implemented o.interfaces :=
    List.mem_filterMap.2 ⟨e.name, List.mem_eraseDups.2 hi,
      Declarations.interface?_eq_some_iff.2 ⟨rfl, e, he, hbody⟩⟩
  refine ⟨i.fields, ?_, fun expected hexp => ?_⟩
  · rw [hb.effectiveFields_of_reachable hemem hereach (Definition.hasFields_of_interface hbody),
      hb.fieldTable_interface hemem hbody, Field.values_table]
  · obtain ⟨found, hfound, hsub⟩ := hb.isSubtype_composed hmem ho himpl hexp
    refine ⟨found, hb.lookupField_of_reachable hmem hr hfound, fun v hv => ?_⟩
    have hmemf : found ∈ Table.values (s.fieldTable d.name) :=
      List.mem_map.2 ⟨_, Table.mem_of_get?_eq_some hfound, rfl⟩
    -- the build compared types by declarations, while values conform by what is reachable: the
    -- named type of the field is reachable since the object type is
    obtain ⟨-, -, -, hleaf⟩ := hb.reachable_of_refers hmem hr
      (.fieldType (Definition.hasFields_of_object ho) hmemf)
    exact TypeRef.Conforms.of_isSubtype
      (fun _ hp _ ht => hb.possible_of_conforms hleaf hp ht) hsub hv

namespace Sample

/-- The interface as it is registered. -/
def nodeType : Definition :=
  ⟨"Node", none, .interface { node with fields := node.fields.map Field.camelized }⟩

theorem nodeType_mem : nodeType ∈ (run {} operations).declarations.definitions :=
  List.mem_of_getElem? (i := 5) rfl

theorem effectiveFields_node {s : Schema} (hs : (run {} operations).build.outcome = .ok s) :
    s.effectiveFields "Node" = .ok (node.fields.map Field.camelized) := by
  have hb := builtFrom_run hs
  have hfields : Table.values (s.fieldTable "Node") = node.fields.map Field.camelized :=
    congrArg Table.values (hb.fieldTable "Node")
  rw [← hfields]
  exact hb.effectiveFields_of_reachable nodeType_mem (isReachable_node hs) rfl

/-- The field of the query type that narrows one of the interface. -/
def narrowed : Field where
  name := "nextNode"
  type := .nonNull (.named "Query")
  arguments := [{ name := "stepSize", type := .named "Int" }]

theorem lookupField_narrowed {s : Schema} (hs : (run {} operations).build.outcome = .ok s) :
    s.lookupField "Query" "nextNode" = .ok narrowed := by
  have hb := builtFrom_run hs
  obtain ⟨-, -, hr⟩ := hb.of_getType (getType_query hs)
  have hfield : Table.get? (s.fieldTable "Query") "nextNode" = some narrowed := by
    rw [hb.fieldTable]
    rfl
  exact hb.lookupField_of_reachable queryType_mem hr hfield

end Sample

/-- In the small run the query type narrows the second field of its interface: what is a query and
not null is a node, and a leaf of the query type is one. -/
theorem sample_covariant :
    ∃ s, (run {} Sample.operations).build.outcome = .ok s ∧
      s.getType "Query" = .ok Sample.queryType ∧
      ∃ fields, s.effectiveFields "Node" = .ok fields ∧
        ∃ expected ∈ fields, expected.name = "nextNode" ∧ expected.type = .named "Node" ∧
          ∃ found, s.lookupField "Query" expected.name = .ok found ∧
            found.type = .nonNull (.named "Query") ∧
            (∀ v, found.type.Conforms s.isPossible v → expected.type.Conforms s.isPossible v) ∧
            expected.type.Conforms s.isPossible (.leaf "Query") := by
  obtain ⟨s, hs⟩ := Sample.exists_build
  have hd := Sample.getType_query hs
  obtain ⟨fields, hfields, hvalues⟩ := run_covariant hs hd rfl (by decide : "Node" ∈ _)
  obtain rfl := Except.ok.inj ((Sample.effectiveFields_node hs).symm.trans hfields)
  have hmem : Sample.node.fields[1].camelized ∈ Sample.node.fields.map Field.camelized :=
    List.mem_map_of_mem (List.getElem_mem _)
  obtain ⟨found, hfound, hcovariant⟩ := hvalues _ hmem
  obtain rfl : Sample.narrowed = found :=
    Except.ok.inj ((Sample.lookupField_narrowed hs).symm.trans hfound)
  have hleaf : Sample.narrowed.type.Conforms s.isPossible (.leaf "Query") :=
    ⟨nofun, .inr ⟨"Query", rfl, .inl rfl⟩⟩
  exact ⟨s, hs, hd, _, hfields, _, hmem, by decide, rfl, _, hfound, rfl, hcovariant,
    hcovariant _ hleaf⟩

end Registry

end GraphSchema
