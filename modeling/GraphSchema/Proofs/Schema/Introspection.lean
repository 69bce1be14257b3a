import GraphSchema.Proofs.Schema.References
import GraphSchema.Proofs.Traversal
import GraphSchema.Schema.Introspection
import GraphSchema.Schema.Printer

/-!
# Closed descriptions

The description of a built schema can always be given. It describes the visible types and no others,
and whatever it mentions is one of these, with the kind that is mentioned. What is printed is closed
in the same way.

## Main definitions

* `SchemaInfo.mentions` — the types that a description mentions anywhere, with their kinds.
* `Schema.Shows` — whether a name is that of a visible type, and of the kind that is said.

## Main statements

* `Schema.BuiltFrom.exists_typeInfo` — every visible type can be described.
* `Schema.BuiltFrom.map_types_introspect` — the types of a description are the visible ones.
* `Schema.BuiltFrom.exists_introspect` — the description as a whole.
* `Registry.run_introspect` — descriptions and printed schemas are closed after every run.
-/

namespace GraphSchema

/-! ## What a description mentions -/

/-- The type that a reference wraps, with its kind. -/
def TypeRefInfo.leaf : TypeRefInfo → TypeKind × String
  | named kind name => (kind, name)
  | list t => t.leaf
  | nonNull t => t.leaf

/-- The types that a field mentions: its own and those of its arguments. -/
def FieldInfo.mentions (f : FieldInfo) : List (TypeKind × String) :=
  f.type.leaf :: f.args.map (·.type.leaf)

/-- The types that the description of a type mentions. -/
def TypeInfo.mentions (t : TypeInfo) : List (TypeKind × String) :=
  (t.fields.getD []).flatMap FieldInfo.mentions ++ (t.interfaces.getD []).map (·.leaf) ++
    (t.possibleTypes.getD []).map (·.leaf) ++ (t.inputFields.getD []).map (·.type.leaf)

/-- The types that a description mentions: its roots, and what is mentioned in its types. -/
def SchemaInfo.mentions (info : SchemaInfo) : List (TypeKind × String) :=
  info.queryType.leaf :: info.mutationType.toList.map (·.leaf) ++
    info.subscriptionType.toList.map (·.leaf) ++ info.types.flatMap TypeInfo.mentions

theorem TypeInfo.forall_mem_mentions {t : TypeInfo} {P : TypeKind × String → Prop} :
    (∀ m ∈ t.mentions, P m) ↔
      (∀ f ∈ t.fields.getD [], ∀ m ∈ f.mentions, P m) ∧
      (∀ i ∈ t.interfaces.getD [], P i.leaf) ∧
      (∀ i ∈ t.possibleTypes.getD [], P i.leaf) ∧
      ∀ i ∈ t.inputFields.getD [], P i.type.leaf := by
  simp only [mentions, List.forall_mem_append, List.forall_mem_flatMap, List.forall_mem_map,
    and_assoc]

namespace Schema

/-- Whether a name is that of a visible type. -/
def Names (s : Schema) (name : String) : Prop := ∃ d ∈ s.reachableTypes, d.name = name

/-- Whether a name is that of a visible type of a kind. -/
def Shows (s : Schema) (m : TypeKind × String) : Prop :=
  ∃ d ∈ s.reachableTypes, d.kind = m.1 ∧ d.name = m.2

namespace BuiltFrom

variable {s : Schema} {r : Registry} {d : Definition} {name : String}

theorem mem_reachableTypes (h : s.BuiltFrom r) :
    d ∈ s.reachableTypes ↔ d ∈ r.declarations.definitions ∧ s.isReachable d.name = true := by
  rw [reachableTypes, List.mem_filterMap]
  constructor
  · rintro ⟨n, hn, hd⟩
    rw [h.find_eq] at hd
    obtain rfl := name_of_findDefinition hd
    exact ⟨mem_of_findDefinition hd, Declarations.contains_iff_mem_reachable.2 hn⟩
  · rintro ⟨hd, hr⟩
    exact ⟨d.name, Declarations.contains_iff_mem_reachable.1 hr,
      h.find_eq.trans (h.coherent.find_of_mem hd)⟩

/-- Whatever a visible type refers to is visible. -/
theorem names_of_refers (h : s.BuiltFrom r) (hd : d ∈ s.reachableTypes)
    (hr : d.Refers (Table.values (s.fieldTable d.name)) name) :
    s.Names name := by
  obtain ⟨hmem, hreach⟩ := h.mem_reachableTypes.1 hd
  obtain ⟨e, he, rfl, hename⟩ := h.reachable_of_refers hmem hreach hr
  exact ⟨e, h.mem_reachableTypes.2 ⟨he, hename⟩, rfl⟩

/-! ## Parts of a description -/

theorem namedInfo_of_mem (h : s.BuiltFrom r) (hd : d ∈ r.declarations.definitions) :
    s.namedInfo (some d.name) = .ok (.named d.kind d.name) := by
  rw [namedInfo, h.definition_of_mem hd]
  rfl

theorem exists_namedInfo (h : s.BuiltFrom r) (hn : s.Names name) :
    ∃ info, s.namedInfo (some name) = .ok info ∧ s.Shows info.leaf := by
  obtain ⟨d, hd, rfl⟩ := hn
  exact ⟨.named d.kind d.name, h.namedInfo_of_mem (h.mem_reachableTypes.1 hd).1, d, hd, rfl, rfl⟩

theorem exists_typeRefInfo (h : s.BuiltFrom r) {t : TypeRef}
    (hn : s.Names t.innermost) : ∃ info, s.typeRefInfo t = .ok info ∧ s.Shows info.leaf := by
  induction t with
  | named name => exact h.exists_namedInfo hn
  | list t ih =>
    obtain ⟨info, hi, hs⟩ := ih hn
    exact ⟨.list info, by rw [typeRefInfo, hi]; rfl, hs⟩
  | nonNull t ih =>
    obtain ⟨info, hi, hs⟩ := ih hn
    exact ⟨.nonNull info, by rw [typeRefInfo, hi]; rfl, hs⟩

theorem exists_inputValueInfo (h : s.BuiltFrom r) {a : Argument}
    (hn : s.Names a.type.innermost) :
    ∃ info, s.inputValueInfo a = .ok info ∧ s.Shows info.type.leaf := by
  obtain ⟨type, ht, hs⟩ := h.exists_typeRefInfo hn
  exact ⟨⟨a.name, a.description, type, a.defaultValue.map Value.literal⟩,
    by rw [inputValueInfo, ht]; rfl, hs⟩

theorem exists_fieldInfo (h : s.BuiltFrom r) {f : Field}
    (ht : s.Names f.type.innermost) (ha : ∀ a ∈ f.arguments, s.Names a.type.innermost) :
    ∃ info, s.fieldInfo f = .ok info ∧ ∀ m ∈ info.mentions, s.Shows m := by
  obtain ⟨args, hargs, hshown⟩ := exists_mapM_mem fun a hmem =>
    h.exists_inputValueInfo (ha a hmem)
  obtain ⟨type, htype, hs⟩ := h.exists_typeRefInfo ht
  refine ⟨⟨f.name, f.description, args, type, f.deprecation⟩,
    by rw [fieldInfo, hargs, htype]; rfl, fun m hm => ?_⟩
  rcases List.mem_cons.1 hm with rfl | hm
  · exact hs
  · obtain ⟨info, hi, rfl⟩ := List.mem_map.1 hm
    exact hshown info hi

theorem exists_fieldInfos (h : s.BuiltFrom r) (hd : d ∈ s.reachableTypes)
    (hf : d.hasFields = true) :
    ∃ infos, (Table.values (s.fieldTable d.name)).mapM s.fieldInfo = .ok infos ∧
      ∀ info ∈ infos, ∀ m ∈ info.mentions, s.Shows m :=
  exists_mapM_mem fun _ hmem => h.exists_fieldInfo
    (h.names_of_refers hd (.fieldType hf hmem))
    fun _ ha => h.names_of_refers hd (.argumentType hf hmem ha)

/-- The possible types of any type can be described: they are visible. -/
theorem exists_possibleInfo (h : s.BuiltFrom r) (abstract : String) :
    ∃ infos, s.possibleInfo abstract = .ok infos ∧ ∀ info ∈ infos, s.Shows info.leaf :=
  exists_mapM_mem fun d hd =>
    h.exists_namedInfo ⟨d, (List.mem_filter.1 hd).1, rfl⟩

/-- Every visible type can be described. -/
theorem exists_typeInfo (h : s.BuiltFrom r) (hd : d ∈ s.reachableTypes) :
    ∃ info, s.typeInfo d = .ok info ∧ info.kind = d.kind ∧ info.name = d.name ∧
      ∀ m ∈ info.mentions, s.Shows m := by
  have hrefers {n : String} (hr : d.Refers (Table.values (s.fieldTable d.name)) n) : s.Names n :=
    h.names_of_refers hd hr
  unfold typeInfo
  cases hb : d.body with
  | scalar => exact ⟨_, rfl, rfl, rfl, by simp [TypeInfo.mentions]⟩
  | enum values => exact ⟨_, rfl, rfl, rfl, by simp [TypeInfo.mentions]⟩
  | inputObject inputs =>
    obtain ⟨infos, hi, hs⟩ : ∃ infos, inputs.mapM s.inputValueInfo = .ok infos ∧
        ∀ info ∈ infos, s.Shows info.type.leaf :=
      exists_mapM_mem fun a ha => h.exists_inputValueInfo (hrefers (.inputField hb ha))
    refine ⟨_, by dsimp only; rw [hi]; rfl, rfl, rfl, TypeInfo.forall_mem_mentions.2 ?_⟩
    exact ⟨by simp, by simp, by simp, hs⟩
  | object o =>
    obtain ⟨fields, hfields, hs⟩ := h.exists_fieldInfos hd (Definition.hasFields_of_object hb)
    obtain ⟨interfaces, hi, his⟩ :
        ∃ infos, (o.interfaces.mapM fun n => s.namedInfo (some n)) = .ok infos ∧
          ∀ info ∈ infos, s.Shows info.leaf :=
      exists_mapM_mem fun n hn => h.exists_namedInfo (hrefers (.implements hb hn))
    refine ⟨_, by dsimp only; rw [hfields, hi]; rfl, rfl, rfl, TypeInfo.forall_mem_mentions.2 ?_⟩
    exact ⟨hs, his, by simp, by simp⟩
  | interface i =>
    obtain ⟨fields, hfields, hs⟩ :=
      h.exists_fieldInfos hd (Definition.hasFields_of_interface hb)
    obtain ⟨possible, hp, hps⟩ := h.exists_possibleInfo d.name
    refine ⟨_, by dsimp only; rw [hfields, hp]; rfl, rfl, rfl, TypeInfo.forall_mem_mentions.2 ?_⟩
    exact ⟨hs, by simp, hps, by simp⟩
  | union u =>
    obtain ⟨possible, hp, hps⟩ := h.exists_possibleInfo d.name
    refine ⟨_, by dsimp only; rw [hp]; rfl, rfl, rfl, TypeInfo.forall_mem_mentions.2 ?_⟩
    exact ⟨by simp, by simp, hps, by simp⟩

/-! ## The description -/

theorem map_name_reachableTypes (h : s.BuiltFrom r) :
    s.reachableTypes.map (·.name) = s.reachability.reachable := by
  rw [reachableTypes, List.map_filterMap]
  refine (List.filterMap_congr fun n hn => ?_).trans List.filterMap_some
  obtain ⟨d, hd, rfl⟩ := h.exists_of_reachable (Declarations.contains_iff_mem_reachable.2 hn)
  rw [h.find_eq, h.coherent.find_of_mem hd]
  rfl

/-- The visible types stand in the order of their names. -/
theorem pairwise_name_reachableTypes (h : s.BuiltFrom r) :
    (s.reachableTypes.map (·.name)).Pairwise (· < ·) := by
  obtain ⟨store, -, hreach⟩ := h.reachability
  have hdistinct := h.definitions.symm ▸ h.coherent.distinct
  rw [h.map_name_reachableTypes, hreach]
  exact Declarations.pairwise_reachable hdistinct

theorem nodup_name_reachableTypes (h : s.BuiltFrom r) :
    (s.reachableTypes.map (·.name)).Nodup :=
  h.pairwise_name_reachableTypes.imp String.ne_of_lt

theorem names_of_root (h : s.BuiltFrom r) {role : Role}
    (hr : s.roots.type? role = some name) : s.Names name := by
  obtain ⟨d, hd, -⟩ := h.admits_root hr
  have hmem := mem_of_findDefinition hd
  obtain rfl := name_of_findDefinition hd
  refine ⟨d, h.mem_reachableTypes.2 ⟨hmem, h.isReachable_of_start hmem ?_⟩, rfl⟩
  exact List.mem_append_left _ (Roots.mem_names.2 ⟨role, hr⟩)

/-- The type of a root operation can be described, if there is one. -/
theorem exists_rootInfo (h : s.BuiltFrom r) (role : Role) :
    ∃ info, ((s.roots.type? role).mapM fun n => s.namedInfo (some n)) = .ok info ∧
      ∀ i ∈ info.toList, s.Shows i.leaf := by
  cases hr : s.roots.type? role with
  | none => exact ⟨none, rfl, by simp⟩
  | some n =>
    obtain ⟨info, hi, hs⟩ := h.exists_namedInfo (h.names_of_root hr)
    exact ⟨some info, by rw [Option.mapM_some, hi]; rfl, by simpa using hs⟩

/-- If the query root can be described, so can the schema. -/
theorem exists_introspect_of_query (h : s.BuiltFrom r) {query : TypeRefInfo}
    (hq : s.namedInfo s.roots.query = .ok query) : ∃ info, s.introspect = .ok info := by
  obtain ⟨mutation, hm, -⟩ := h.exists_rootInfo .mutation
  obtain ⟨subscription, hs, -⟩ := h.exists_rootInfo .subscription
  obtain ⟨types, ht, -⟩ := exists_mapM fun d hd => h.exists_typeInfo hd
  exact ⟨⟨query, mutation, subscription, types⟩, by rw [introspect, hq, hm, hs, ht]; rfl⟩

/-- The types of a description are those of the visible types, one by one. -/
theorem forall₂_introspect (h : s.BuiltFrom r) {info : SchemaInfo}
    (hinfo : s.introspect = .ok info) :
    List.Forall₂ (fun d t => s.typeInfo d = .ok t ∧ t.kind = d.kind ∧ t.name = d.name ∧
      ∀ m ∈ t.mentions, s.Shows m) s.reachableTypes info.types := by
  obtain ⟨query, -, hinfo⟩ := exists_of_bind_eq_ok hinfo
  obtain ⟨mutation, -, hinfo⟩ := exists_of_bind_eq_ok hinfo
  obtain ⟨subscription, -, hinfo⟩ := exists_of_bind_eq_ok hinfo
  obtain ⟨types, htypes, hinfo⟩ := exists_of_bind_eq_ok hinfo
  obtain rfl := Except.ok.inj hinfo
  refine forall₂_of_mem (forall₂_of_mapM htypes) fun d hd t _ ht => ?_
  obtain ⟨t', ht', hdescribes⟩ := h.exists_typeInfo hd
  obtain rfl := Except.ok.inj (ht'.symm.trans ht)
  exact ⟨ht, hdescribes⟩

/-- The types of a description have the kinds and names of the visible types, in the same order. -/
theorem map_types_introspect (h : s.BuiltFrom r) {info : SchemaInfo}
    (hinfo : s.introspect = .ok info) : info.types.map (fun t => (t.kind, t.name)) =
      s.reachableTypes.map fun d => (d.kind, d.name) :=
  map_eq_of_forall₂ (h.forall₂_introspect hinfo) fun _ _ ht => Prod.ext ht.2.1 ht.2.2.1

/-- What is shown is described exactly once, with its kind. -/
theorem exists_described (h : s.BuiltFrom r) {info : SchemaInfo} (hinfo : s.introspect = .ok info)
    {m : TypeKind × String} (hm : s.Shows m) :
    ∃ t, info.types.filter (·.name == m.2) = [t] ∧ t.kind = m.1 := by
  obtain ⟨d, hd, hkind, hname⟩ := hm
  have hnodup : (info.types.map (·.name)).Nodup := by
    have hnames := congrArg (List.map Prod.snd) (h.map_types_introspect hinfo)
    rw [List.map_map, List.map_map] at hnames
    exact (congrArg List.Nodup hnames).mpr h.nodup_name_reachableTypes
  obtain ⟨t, ht, -, htkind, htname, -⟩ := exists_mem_of_forall₂ (h.forall₂_introspect hinfo) hd
  exact ⟨t, hname ▸ htname ▸ filter_eq_singleton hnodup ht, htkind.trans hkind⟩

/-- With a query root the description can be given. It describes the visible types, and it is
closed. -/
theorem exists_introspect (h : s.BuiltFrom r) {query : String}
    (hq : s.roots.type? .query = some query) :
    ∃ info, s.introspect = .ok info ∧
      info.types.map (fun t => (t.kind, t.name)) =
        s.reachableTypes.map (fun d => (d.kind, d.name)) ∧
      ∀ m ∈ info.mentions, ∃ t, info.types.filter (·.name == m.2) = [t] ∧ t.kind = m.1 := by
  have hquery : s.roots.query = some query := (Option.filter_eq_some_iff.1 hq).1
  obtain ⟨queryInfo, hqi, hqs⟩ := h.exists_namedInfo (h.names_of_root hq)
  obtain ⟨mutationInfo, hmi, hms⟩ := h.exists_rootInfo .mutation
  obtain ⟨subscriptionInfo, hsi, hss⟩ := h.exists_rootInfo .subscription
  obtain ⟨types, ht, -⟩ := exists_mapM fun d hd => h.exists_typeInfo hd
  have hinfo : s.introspect = .ok ⟨queryInfo, mutationInfo, subscriptionInfo, types⟩ := by
    rw [introspect, hquery, hqi, hmi, hsi, ht]
    rfl
  refine ⟨_, hinfo, h.map_types_introspect hinfo, fun m hm => h.exists_described hinfo ?_⟩
  simp only [SchemaInfo.mentions, List.mem_append, List.mem_cons, List.mem_map,
    List.mem_flatMap] at hm
  rcases hm with ((rfl | ⟨i, hi, rfl⟩) | ⟨i, hi, rfl⟩) | ⟨t, ht, hm⟩
  · exact hqs
  · exact hms i hi
  · exact hss i hi
  · obtain ⟨d, -, -, -, -, hmentions⟩ := exists_of_mem_forall₂ (h.forall₂_introspect hinfo) ht
    exact hmentions m hm

/-! ## What is printed -/

theorem printType_of_reachable (h : s.BuiltFrom r) (hd : d ∈ s.reachableTypes) :
    s.printType d = .ok (Printer.definitionLines d (Table.values (s.fieldTable d.name))) := by
  obtain ⟨hmem, hreach⟩ := h.mem_reachableTypes.1 hd
  unfold printType
  split
  · next hf =>
    rw [h.effectiveFields_of_reachable hmem hreach hf]
    rfl
  · next hf =>
    have htable : s.fieldTable d.name = [] := by
      rw [h.fieldTable]
      refine Registry.finalFields_eq_nil fun e he hn => ?_
      simpa [h.coherent.eq_of_name_eq hmem he hn] using hf
    rw [htable]
    rfl

/-- The root types are visible, and stand in the order of the roots that bear names. -/
theorem exists_rootTypes_map (h : s.BuiltFrom r) :
    ∃ types, s.rootTypes = .ok types ∧ types.map (·.name) = s.roots.names ∧
      ∀ d ∈ types, d ∈ s.reachableTypes := by
  have hfound : ∀ n ∈ s.roots.names, ∃ d, s.definition (some n) = .ok d ∧
      d.name = n ∧ d ∈ s.reachableTypes := by
    intro n hn
    obtain ⟨role, hr⟩ := Roots.mem_names.1 hn
    obtain ⟨d, hd, rfl⟩ := h.names_of_root hr
    exact ⟨d, h.definition_of_mem (h.mem_reachableTypes.1 hd).1, rfl, hd⟩
  obtain ⟨types, htypes, hall⟩ := exists_mapM hfound
  refine ⟨types, htypes, ?_, fun d hd => ?_⟩
  · rw [map_eq_of_forall₂ (g := id) hall fun _ _ hp => hp.1, List.map_id]
  · obtain ⟨_, -, -, hvisible⟩ := exists_of_mem_forall₂ hall hd
    exact hvisible

theorem exists_rootTypes (h : s.BuiltFrom r) :
    ∃ types, s.rootTypes = .ok types ∧ ∀ d ∈ types, d ∈ s.reachableTypes := by
  obtain ⟨types, htypes, -, hvisible⟩ := h.exists_rootTypes_map
  exact ⟨types, htypes, hvisible⟩

theorem mapM_definition_reachable (h : s.BuiltFrom r) :
    (s.reachability.reachable.mapM fun n => s.definition (some n)) = .ok s.reachableTypes := by
  rw [← h.map_name_reachableTypes, List.mapM_map]
  refine (mapM_eq_ok_map fun d hd => ?_).trans (congrArg Except.ok (List.map_id _))
  exact h.definition_of_mem (h.mem_reachableTypes.1 hd).1

end BuiltFrom

end Schema

/-! ## Runs -/

namespace Registry

/-- A schema that is built after a run whose root declarations name a query type is closed under
reference. Its description can be given, the types described are the visible ones, and whatever it
mentions is exactly one of these, of the kind that is mentioned. Every type can be printed, with
interfaces and members that are visible. The root types and all reachable names are found. -/
theorem run_introspect {settings : Settings} {ops : List Operation} {s : Schema}
    (hquery : ∀ given, Operation.declareRoots given ∈ ops → given.NamesQuery)
    (hs : (run settings ops).build.outcome = .ok s) :
    (∃ info, s.introspect = .ok info ∧
      info.types.map (fun t => (t.kind, t.name)) =
        s.reachableTypes.map (fun d => (d.kind, d.name)) ∧
      ∀ m ∈ info.mentions, ∃ t, info.types.filter (·.name == m.2) = [t] ∧ t.kind = m.1) ∧
    (∀ d ∈ s.printedTypes,
      s.printType d = .ok (Printer.definitionLines d (Table.values (s.fieldTable d.name))) ∧
      (∀ o, d.body = .object o → ∀ name ∈ o.interfaces, s.Names name) ∧
      ∀ u, d.body = .union u → ∀ name ∈ u.members, s.Names name) ∧
    (∃ types, s.rootTypes = .ok types ∧ ∀ d ∈ types, d ∈ s.reachableTypes) ∧
    (s.reachability.reachable.mapM fun n => s.definition (some n)) = .ok s.reachableTypes := by
  have hb := builtFrom_run hs
  obtain ⟨op, hop, given, query, rfl, hgiven, hroots⟩ := roots_run hb.roots
  obtain ⟨name, hq⟩ := (hquery given hop).exists_type hgiven hroots
  refine ⟨hb.exists_introspect hq, fun d hd => ?_, hb.exists_rootTypes,
    hb.mapM_definition_reachable⟩
  have hmem := (List.mem_filter.1 hd).1
  exact ⟨hb.printType_of_reachable hmem,
    fun o ho n hn => hb.names_of_refers hmem (.implements ho hn),
    fun u hu n hn => hb.names_of_refers hmem (.member hu hn)⟩

/-- The small run names a query type. In the description of its schema exactly one type is the one
that queries start from. -/
theorem sample_introspect :
    (∀ given, Operation.declareRoots given ∈ Sample.operations → given.NamesQuery) ∧
    ∃ s, (run {} Sample.operations).build.outcome = .ok s ∧
      ∃ info, s.introspect = .ok info ∧
        ∃ t, info.types.filter (·.name == info.queryType.leaf.2) = [t] ∧
          t.kind = info.queryType.leaf.1 := by
  have hquery (given : RootSpecs) (hg : Operation.declareRoots given ∈ Sample.operations) :
      given.NamesQuery := by
    obtain rfl : given = { query := some (some (.text "Query")) } := by
      simpa [Sample.operations] using hg
    have hname : (Spec.text "Query").typeName = .ok "Query" := rfl
    refine ⟨by simp, fun spec hspec => ?_⟩
    cases hspec
    simp [hname]
  obtain ⟨s, hs⟩ := Sample.exists_build
  obtain ⟨⟨info, hi, -, hmentions⟩, -⟩ := run_introspect hquery hs
  exact ⟨hquery, s, hs, info, hi, hmentions _ (by simp [SchemaInfo.mentions])⟩

end Registry

end GraphSchema
