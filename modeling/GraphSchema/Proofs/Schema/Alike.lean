import GraphSchema.Proofs.Printer.Schemas
import GraphSchema.Proofs.Schema.Introspection

/-!
# Like descriptions

Schemas whose visible types are all shown in the same way have descriptions that differ at most in
the wording of what they say: texts have the same lines, and nothing is said of the texts that
belong to the arguments of fields.

## Main definitions

* `SchemaInfo.Alike` — whether two descriptions differ in their texts only.
* `SchemaInfo.fieldArgs` — the arguments of fields in a description.
* `Schema.ShownAs` — whether two schemas have the same roots and show their types in the same way.

## Main statements

* `SchemaInfo.Alike.of_fieldArgs` — how the texts of these arguments are compared.
* `Schema.ShownAs.exists_introspect` — both descriptions can be given, and they are alike.
-/

namespace GraphSchema

/-! ## Descriptions that are alike -/

section Alike

variable (D : Option String → Option String → Prop)

/-- Whether two inputs are described alike. How their texts are compared is said by the relation. -/
structure InputValueInfo.Alike (a b : InputValueInfo) : Prop where
  name : a.name = b.name
  description : D a.description b.description
  type : a.type = b.type
  defaultValue : a.defaultValue = b.defaultValue

/-- Whether two fields are described alike. The relation is for the texts of their arguments. -/
structure FieldInfo.Alike (f g : FieldInfo) : Prop where
  name : f.name = g.name
  description : SameLines f.description g.description
  args : List.Forall₂ (InputValueInfo.Alike D) f.args g.args
  type : f.type = g.type
  deprecation : f.deprecation = g.deprecation

/-- Whether two enum values are described alike. -/
structure EnumValueInfo.Alike (v w : EnumValueInfo) : Prop where
  name : v.name = w.name
  description : SameLines v.description w.description
  deprecation : v.deprecation = w.deprecation

/-- Whether two types are described alike. The relation is for the texts of arguments of fields. -/
structure TypeInfo.Alike (t u : TypeInfo) : Prop where
  kind : t.kind = u.kind
  name : t.name = u.name
  description : SameLines t.description u.description
  fields : Option.Rel (List.Forall₂ (FieldInfo.Alike D)) t.fields u.fields
  interfaces : t.interfaces = u.interfaces
  possibleTypes : t.possibleTypes = u.possibleTypes
  enumValues : Option.Rel (List.Forall₂ EnumValueInfo.Alike) t.enumValues u.enumValues
  inputFields : Option.Rel (List.Forall₂ (InputValueInfo.Alike SameLines)) t.inputFields
    u.inputFields

/-- Whether two schemas are described alike. The relation is for the texts of arguments of
fields. -/
structure SchemaInfo.Alike (info info' : SchemaInfo) : Prop where
  queryType : info.queryType = info'.queryType
  mutationType : info.mutationType = info'.mutationType
  subscriptionType : info.subscriptionType = info'.subscriptionType
  types : List.Forall₂ (TypeInfo.Alike D) info.types info'.types

/-- The arguments of the fields of a type. -/
def TypeInfo.fieldArgs (t : TypeInfo) : List InputValueInfo := (t.fields.getD []).flatMap (·.args)

/-- The arguments of the fields of all types in a description. -/
def SchemaInfo.fieldArgs (info : SchemaInfo) : List InputValueInfo :=
  info.types.flatMap TypeInfo.fieldArgs

variable {D} {E : Option String → Option String → Prop}

theorem FieldInfo.Alike.of_args {f g : FieldInfo} (h : f.Alike D g)
    (hE : ∀ a ∈ f.args, ∀ b ∈ g.args, E a.description b.description) : f.Alike E g where
  name := h.name
  description := h.description
  args := forall₂_of_mem h.args fun a ha b hb hab =>
    ⟨hab.name, hE a ha b hb, hab.type, hab.defaultValue⟩
  type := h.type
  deprecation := h.deprecation

theorem TypeInfo.Alike.of_fieldArgs {t u : TypeInfo} (h : t.Alike D u)
    (hE : ∀ a ∈ t.fieldArgs, ∀ b ∈ u.fieldArgs, E a.description b.description) : t.Alike E u where
  kind := h.kind
  name := h.name
  description := h.description
  fields := by
    have hfields := h.fields
    unfold fieldArgs at hE
    generalize t.fields = fs, u.fields = gs at hfields hE ⊢
    cases hfields with
    | none => exact .none
    | some halike =>
      exact .some (forall₂_of_mem halike fun f hf g hg hfg => hfg.of_args fun a ha b hb =>
        hE a (List.mem_flatMap.2 ⟨f, hf, ha⟩) b (List.mem_flatMap.2 ⟨g, hg, hb⟩))
  interfaces := h.interfaces
  possibleTypes := h.possibleTypes
  enumValues := h.enumValues
  inputFields := h.inputFields

/-- What is said of the texts of the arguments of fields is said of nothing else. -/
theorem SchemaInfo.Alike.of_fieldArgs {info info' : SchemaInfo} (h : info.Alike D info')
    (hE : ∀ a ∈ info.fieldArgs, ∀ b ∈ info'.fieldArgs, E a.description b.description) :
    info.Alike E info' where
  queryType := h.queryType
  mutationType := h.mutationType
  subscriptionType := h.subscriptionType
  types := forall₂_of_mem h.types fun t ht u hu htu => htu.of_fieldArgs fun a ha b hb =>
    hE a (List.mem_flatMap.2 ⟨t, ht, ha⟩) b (List.mem_flatMap.2 ⟨u, hu, hb⟩)

end Alike

/-! ## Schemas that are shown in the same way -/

/-- Whether two schemas have the same roots and show their visible types in the same way. -/
structure Schema.ShownAs (s s' : Schema) : Prop where
  roots : ∀ role, s.roots.type? role = s'.roots.type? role
  types : List.Forall₂ (fun d d' => d.ShownAs (s.fieldList d) (s'.fieldList d') d') s.reachableTypes
    s'.reachableTypes

namespace Schema.ShownAs

variable {s s' : Schema} {r r' : Registry} {d d' : Definition} {name abstract : String}

theorem exists_shownAs (h : s.ShownAs s') (hd : d ∈ s.reachableTypes) :
    ∃ d' ∈ s'.reachableTypes, d.ShownAs (s.fieldList d) (s'.fieldList d') d' :=
  exists_mem_of_forall₂ h.types hd

/-- Types that are shown in the same way belong to the same abstract types. -/
theorem isPossible_eq {t t' : Definition} (hb : s.BuiltFrom r) (hb' : s'.BuiltFrom r')
    (hd : d ∈ s.reachableTypes) (hd' : d' ∈ s'.reachableTypes)
    (hshown : d.ShownAs (s.fieldList d) (s'.fieldList d') d')
    (ht : t ∈ s.reachableTypes) (ht' : t' ∈ s'.reachableTypes)
    (hshown' : t.ShownAs (s.fieldList t) (s'.fieldList t') t') :
    s.isPossible d.name t.name = s'.isPossible d'.name t'.name := by
  have hfind {s : Schema} {r : Registry} {d : Definition} (hb : s.BuiltFrom r)
      (hd : d ∈ s.reachableTypes) : s.find d.name = some d ∧ s.isReachable d.name = true :=
    ⟨hb.find_eq.trans (hb.coherent.find_of_mem (hb.mem_reachableTypes.1 hd).1),
      (hb.mem_reachableTypes.1 hd).2⟩
  rw [isPossible, isPossible, (hfind hb hd).1, (hfind hb ht).1, (hfind hb ht).2,
    (hfind hb' hd').1, (hfind hb' ht').1, (hfind hb' ht').2, ← hshown.name, ← hshown'.name]
  have hbody := hshown.body
  have hbody' := hshown'.body
  simp only [Option.map_some]
  generalize d.body = b, d'.body = b' at hbody ⊢
  generalize t.body = u, t'.body = u' at hbody' ⊢
  -- only object types belong to a type, and only to interfaces and unions
  cases hbody' with
  | object hinterfaces =>
    cases hbody with
    | interface => simp only [hinterfaces]
    | union hmembers => simp only [hmembers]
    | scalar | enum | inputObject | object => rfl
  | scalar | enum | inputObject | interface | union => rfl

section

variable (h : s.ShownAs s') (hb : s.BuiltFrom r) (hb' : s'.BuiltFrom r')
include h hb hb'

/-- A visible type is referred to in the same way. -/
theorem exists_namedInfo (hn : s.Names name) :
    ∃ info, s.namedInfo (some name) = .ok info ∧ s'.namedInfo (some name) = .ok info := by
  obtain ⟨d, hd, rfl⟩ := hn
  obtain ⟨d', hd', hshown⟩ := h.exists_shownAs hd
  refine ⟨_, hb.namedInfo_of_mem (hb.mem_reachableTypes.1 hd).1, ?_⟩
  rw [hshown.name, hshown.kind_eq]
  exact hb'.namedInfo_of_mem (hb'.mem_reachableTypes.1 hd').1

theorem namedInfo_eq (hn : s.Names name) :
    s.namedInfo (some name) = s'.namedInfo (some name) := by
  obtain ⟨info, hi, hi'⟩ := h.exists_namedInfo hb hb' hn
  rw [hi, hi']

theorem exists_namedInfos {names : List String} (hn : ∀ n ∈ names, s.Names n) :
    ∃ infos, (names.mapM fun n => s.namedInfo (some n)) = .ok infos ∧
      (names.mapM fun n => s'.namedInfo (some n)) = .ok infos := by
  obtain ⟨infos, hi, -⟩ := exists_mapM_mem fun n hmem => hb.exists_namedInfo (hn n hmem)
  refine ⟨infos, hi, ?_⟩
  rw [← hi]
  exact mapM_congr fun n hmem => (h.namedInfo_eq hb hb' (hn n hmem)).symm

theorem exists_typeRefInfo {t : TypeRef} (hn : s.Names t.innermost) :
    ∃ info, s.typeRefInfo t = .ok info ∧ s'.typeRefInfo t = .ok info := by
  induction t with
  | named name => exact h.exists_namedInfo hb hb' hn
  | list t ih =>
    obtain ⟨info, hi, hi'⟩ := ih hn
    exact ⟨.list info, by rw [typeRefInfo, hi]; rfl, by rw [typeRefInfo, hi']; rfl⟩
  | nonNull t ih =>
    obtain ⟨info, hi, hi'⟩ := ih hn
    exact ⟨.nonNull info, by rw [typeRefInfo, hi]; rfl, by rw [typeRefInfo, hi']; rfl⟩

theorem exists_inputValueInfo {D : Option String → Option String → Prop} {a b : Argument}
    (hshown : a.ShownAs b) (hD : D a.description b.description) (hn : s.Names a.type.innermost) :
    ∃ info info', s.inputValueInfo a = .ok info ∧ s'.inputValueInfo b = .ok info' ∧
      info.Alike D info' := by
  obtain ⟨type, ht, ht'⟩ := h.exists_typeRefInfo hb hb' hn
  rw [hshown.type] at ht
  refine ⟨⟨a.name, a.description, type, a.defaultValue.map Value.literal⟩,
    ⟨b.name, b.description, type, b.defaultValue.map Value.literal⟩, ?_, ?_,
    ⟨hshown.name, hD, rfl, hshown.default⟩⟩
  · rw [inputValueInfo, hshown.type, ht]
    rfl
  · rw [inputValueInfo, ← hshown.type, ht']
    rfl

theorem exists_fieldInfo {f g : Field} (hshown : f.ShownAs g) (ht : s.Names f.type.innermost)
    (ha : ∀ a ∈ f.arguments, s.Names a.type.innermost) :
    ∃ info info', s.fieldInfo f = .ok info ∧ s'.fieldInfo g = .ok info' ∧
      info.Alike (fun _ _ => True) info' := by
  obtain ⟨args, args', hargs, hargs', halike⟩ := exists_mapM_forall₂ hshown.arguments
    fun a hmem _ hab =>
      h.exists_inputValueInfo (D := fun _ _ => True) hb hb' hab trivial (ha a hmem)
  obtain ⟨type, htype, htype'⟩ := h.exists_typeRefInfo hb hb' ht
  refine ⟨⟨f.name, f.description, args, type, f.deprecation⟩,
    ⟨g.name, g.description, args', type, g.deprecation⟩, ?_, ?_,
    ⟨hshown.name, hshown.description, halike, rfl, hshown.deprecation⟩⟩
  · rw [fieldInfo, hargs, htype]
    rfl
  · rw [fieldInfo, hargs', ← hshown.type, htype']
    rfl

theorem exists_fieldInfos (hd : d ∈ s.reachableTypes) (hf : d.hasFields = true)
    (hshown : List.Forall₂ Field.ShownAs (s.fieldList d) (s'.fieldList d')) :
    ∃ infos infos', (s.fieldList d).mapM s.fieldInfo = .ok infos ∧
      (s'.fieldList d').mapM s'.fieldInfo = .ok infos' ∧
      List.Forall₂ (FieldInfo.Alike fun _ _ => True) infos infos' :=
  exists_mapM_forall₂ hshown fun _ hmem _ hfg => h.exists_fieldInfo hb hb' hfg
    (hb.names_of_refers hd (.fieldType hf hmem))
    fun _ ha => hb.names_of_refers hd (.argumentType hf hmem ha)

/-- The possible types of a visible type are the same. -/
theorem exists_possibleInfo (hd : d ∈ s.reachableTypes) (hd' : d' ∈ s'.reachableTypes)
    (hshown : d.ShownAs (s.fieldList d) (s'.fieldList d') d') :
    ∃ infos, s.possibleInfo d.name = .ok infos ∧ s'.possibleInfo d'.name = .ok infos := by
  have hvisible := forall₂_of_mem (Q := fun t t' => t.name = t'.name ∧
      (s.isPossible d.name t.name = true ↔ s'.isPossible d'.name t'.name = true)) h.types
    fun t ht t' ht' hshown' => ⟨hshown'.name,
      Bool.eq_iff_iff.1 (isPossible_eq hb hb' hd hd' hshown ht ht' hshown')⟩
  have hnames : (s'.possibleTypes d'.name).map (·.name) = (s.possibleTypes d.name).map (·.name) :=
    map_eq_of_forall₂ (List.rel_filter (fun _ _ hR => hR.2) hvisible) fun _ _ hR => hR.1.symm
  have hnamed : ∀ n ∈ (s.possibleTypes d.name).map (·.name), s.Names n :=
    List.forall_mem_map.2 fun t ht => ⟨t, (List.mem_filter.1 ht).1, rfl⟩
  obtain ⟨infos, hi, hi'⟩ := h.exists_namedInfos hb hb' hnamed
  rw [← hnames, List.mapM_map] at hi'
  rw [List.mapM_map] at hi
  exact ⟨infos, hi, hi'⟩

/-- Types that are shown in the same way are described alike. -/
theorem exists_typeInfo (hd : d ∈ s.reachableTypes) (hd' : d' ∈ s'.reachableTypes)
    (hshown : d.ShownAs (s.fieldList d) (s'.fieldList d') d') :
    ∃ info info', s.typeInfo d = .ok info ∧ s'.typeInfo d' = .ok info' ∧
      info.Alike (fun _ _ => True) info' := by
  have hkind := hshown.kind_eq
  have hname := hshown.name
  have hdescription := hshown.description
  have hbody := hshown.body
  unfold typeInfo
  generalize hdb : d.body = b, d'.body = b' at hbody ⊢
  cases hbody with
  | scalar =>
    exact ⟨_, _, rfl, rfl, hkind, hname, hdescription, .none, rfl, rfl, .none, .none⟩
  | enum hvalues =>
    refine ⟨_, _, rfl, rfl, hkind, hname, hdescription, .none, rfl, rfl, .some ?_, .none⟩
    rw [List.forall₂_map_left_iff, List.forall₂_map_right_iff]
    exact hvalues.imp fun _ _ hv => ⟨hv.name, hv.description, hv.deprecation⟩
  | inputObject hinputs =>
    obtain ⟨infos, infos', hi, hi', halike⟩ := exists_mapM_forall₂ hinputs
      fun a ha _ hab => h.exists_inputValueInfo hb hb' (D := SameLines) hab.argument
        hab.description (hb.names_of_refers hd (.inputField hdb ha))
    dsimp only
    rw [hi, hi']
    exact ⟨_, _, rfl, rfl, hkind, hname, hdescription, .none, rfl, rfl, .none, .some halike⟩
  | interface hfields =>
    obtain ⟨infos, infos', hi, hi', halike⟩ :=
      h.exists_fieldInfos hb hb' hd (Definition.hasFields_of_interface hdb) hfields
    obtain ⟨possible, hp, hp'⟩ := h.exists_possibleInfo hb hb' hd hd' hshown
    rw [fieldList] at hi hi'
    dsimp only
    rw [hi, hi', hp, hp']
    exact ⟨_, _, rfl, rfl, hkind, hname, hdescription, .some halike, rfl, rfl, .none, .none⟩
  | object hinterfaces hfields =>
    obtain ⟨infos, infos', hi, hi', halike⟩ :=
      h.exists_fieldInfos hb hb' hd (Definition.hasFields_of_object hdb) hfields
    obtain ⟨interfaces, hn, hn'⟩ := h.exists_namedInfos hb hb'
      fun n hn => hb.names_of_refers hd (.implements hdb hn)
    rw [fieldList] at hi hi'
    rw [hinterfaces] at hn'
    dsimp only
    rw [hi, hi', hn, hn']
    exact ⟨_, _, rfl, rfl, hkind, hname, hdescription, .some halike, rfl, rfl, .none, .none⟩
  | union hmembers =>
    obtain ⟨possible, hp, hp'⟩ := h.exists_possibleInfo hb hb' hd hd' hshown
    dsimp only
    rw [hp, hp']
    exact ⟨_, _, rfl, rfl, hkind, hname, hdescription, .none, rfl, rfl, .none, .none⟩

/-- The type of a root operation is described in the same way, if there is one. -/
theorem exists_rootInfo (role : Role) :
    ∃ info, ((s.roots.type? role).mapM fun n => s.namedInfo (some n)) = .ok info ∧
      ((s'.roots.type? role).mapM fun n => s'.namedInfo (some n)) = .ok info := by
  rw [← h.roots role]
  cases hr : s.roots.type? role with
  | none => exact ⟨none, rfl, rfl⟩
  | some n =>
    obtain ⟨info, hi, hi'⟩ := h.exists_namedInfo hb hb' (hb.names_of_root hr)
    exact ⟨some info, by rw [Option.mapM_some, hi]; rfl, by rw [Option.mapM_some, hi']; rfl⟩

/-- Schemas that are shown in the same way are described alike, apart from the texts that belong to
the arguments of fields. -/
theorem exists_introspect {query : String} (hq : s.roots.type? .query = some query) :
    ∃ info info', s.introspect = .ok info ∧ s'.introspect = .ok info' ∧
      info.Alike (fun _ _ => True) info' := by
  have hnamed {r : Roots} (hq : r.type? .query = some query) : r.query = some query :=
    (Option.filter_eq_some_iff.1 hq).1
  obtain ⟨queryInfo, hqi, hqi'⟩ := h.exists_namedInfo hb hb' (hb.names_of_root hq)
  obtain ⟨mutation, hm, hm'⟩ := h.exists_rootInfo hb hb' .mutation
  obtain ⟨subscription, hs, hs'⟩ := h.exists_rootInfo hb hb' .subscription
  have hvisible := forall₂_of_mem (Q := fun d d' => d' ∈ s'.reachableTypes ∧
      d.ShownAs (s.fieldList d) (s'.fieldList d') d') h.types fun _ _ _ hd' hR => ⟨hd', hR⟩
  obtain ⟨types, types', ht, ht', halike⟩ := exists_mapM_forall₂ hvisible
    fun d hd _ hR => h.exists_typeInfo hb hb' hd hR.1 hR.2
  refine ⟨⟨queryInfo, mutation, subscription, types⟩, ⟨queryInfo, mutation, subscription, types'⟩,
    ?_, ?_, rfl, rfl, rfl, halike⟩
  · rw [introspect, hnamed hq, hqi, hm, hs, ht]
    rfl
  · rw [introspect, hnamed (h.roots _ ▸ hq), hqi', hm', hs', ht']
    rfl

end

end Schema.ShownAs

end GraphSchema
