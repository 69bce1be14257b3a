import GraphSchema.Proofs.Schema.Introspection
import GraphSchema.Proofs.Schema.Resolution

/-!
# Schemas that agree

Everything that is asked of a schema is answered from its roots, from what is reachable, and from
the definitions and tables of a few names. So schemas that agree on these give the same answers.
The names have to include the roots, all that is reachable, and what reachable types refer to.

## Main definitions

* `Schema.AgreeOn` — schemas that show the same of certain names.
* `Schema.SameButHint` — outcomes that differ in a hint of the failure at most.
* `Schema.SameAnswers` — schemas whose resolvers have the same results.
* `Schema.Indistinguishable` — schemas that give the same answers to everything.

## Main statements

* `Schema.AgreeOn.introspect`, `Schema.AgreeOn.print` — the description and the text are the same.
* `Schema.AgreeOn.resolveType` — type resolution has the same outcomes but for a hint.
* `Schema.AgreeOn.indistinguishable` — agreement on every name.
-/

namespace GraphSchema

namespace Schema

/-- Schemas that show the same of certain names. These include the roots, everything reachable,
and what reachable types refer to. -/
structure AgreeOn (N : Set String) (s s' : Schema) : Prop where
  roots : s'.roots = s.roots
  reachable : s'.reachability.reachable = s.reachability.reachable
  find : ∀ name ∈ N, s'.find name = s.find name
  fieldTable : ∀ name ∈ N, s'.fieldTable name = s.fieldTable name
  behaviorTable : ∀ name ∈ N, s'.behaviorTable name = s.behaviorTable name
  rooted : ∀ name ∈ s.roots.names, name ∈ N
  visible : ∀ name, s.isReachable name = true → name ∈ N
  refers : ∀ d ∈ s.reachableTypes, ∀ name,
    d.Refers (Table.values (s.fieldTable d.name)) name → name ∈ N

/-- Outcomes that are the same, or that fail for the same type that is not part of the schema. The
hint that it is declared at all is given by each schema for itself. -/
def SameButHint (s s' : Schema) (x x' : Except Error Definition) : Prop :=
  x' = x ∨ ∃ name place, x = .error (.unknownType name place (s.find name).isSome) ∧
    x' = .error (.unknownType name place (s'.find name).isSome)

/-- Whether the resolvers that are asked about a value have the same results with both schemas. A
resolver that answers with a definition looks it up, and fails if there is none of the name. -/
def SameAnswers (s s' : Schema) (v : Value) (ctx : Option Context) : Prop :=
  ∀ f, s.Resolver f → ∀ name, f v ctx = .ok (.definition name) → s'.find name = s.find name

theorem SameAnswers.ask {s s' : Schema} {v : Value} {ctx : Option Context} {f : ResolveType}
    (h : s.SameAnswers s' v ctx) (hf : s.Resolver f) : s'.ask f v ctx = s.ask f v ctx := by
  unfold Schema.ask
  cases hanswer : f v ctx with
  | error e => rfl
  | ok answer =>
    cases answer with
    | value v => rfl
    | definition name =>
      simp only [bind, Except.bind, definition, Option.bind_some, h f hf name hanswer]

namespace AgreeOn

variable {N : Set String} {s s' : Schema} {name abstract : String} {d : Definition}

/-! ## Types -/

theorem isReachable (h : s.AgreeOn N s') : s'.isReachable = s.isReachable := by
  funext name
  rw [Schema.isReachable, Schema.isReachable, Reachability.contains, h.reachable,
    ← Reachability.contains]

theorem definition (h : s.AgreeOn N s') (hn : name ∈ N) :
    s'.definition (some name) = s.definition (some name) := by
  simp only [Schema.definition, Option.bind_some, h.find name hn]

theorem getType (h : s.AgreeOn N s') (hn : name ∈ N) : s'.getType name = s.getType name := by
  rw [Schema.getType, h.isReachable, h.definition hn, h.find name hn, ← Schema.getType]

theorem reachableTypes (h : s.AgreeOn N s') : s'.reachableTypes = s.reachableTypes := by
  rw [Schema.reachableTypes, h.reachable]
  refine List.filterMap_congr fun n hn => h.find n (h.visible n ?_)
  exact Declarations.contains_iff_mem_reachable.2 hn

theorem name_mem (h : s.AgreeOn N s') (hd : d ∈ s.reachableTypes) : d.name ∈ N := by
  obtain ⟨n, hn, hfind⟩ := List.mem_filterMap.1 hd
  obtain rfl := name_of_findDefinition hfind
  exact h.visible d.name (Declarations.contains_iff_mem_reachable.2 hn)

theorem isPossible (h : s.AgreeOn N s') (ha : abstract ∈ N) :
    s'.isPossible abstract = s.isPossible abstract := by
  funext type
  rw [Schema.isPossible, Schema.isPossible, h.isReachable]
  cases hr : s.isReachable type with
  | false => rfl
  | true => rw [h.find type (h.visible type hr), h.find abstract ha]

theorem possibleTypes (h : s.AgreeOn N s') (ha : abstract ∈ N) :
    s'.possibleTypes abstract = s.possibleTypes abstract := by
  rw [Schema.possibleTypes, h.reachableTypes, h.isPossible ha, ← Schema.possibleTypes]

/-! ## Fields and behaviors -/

theorem effectiveFields (h : s.AgreeOn N s') (hn : name ∈ N) :
    s'.effectiveFields name = s.effectiveFields name := by
  rw [Schema.effectiveFields, h.getType hn, h.fieldTable name hn, ← Schema.effectiveFields]

theorem effectiveBehaviors (h : s.AgreeOn N s') (hn : name ∈ N) :
    s'.effectiveBehaviors name = s.effectiveBehaviors name := by
  rw [Schema.effectiveBehaviors, h.getType hn, h.behaviorTable name hn,
    ← Schema.effectiveBehaviors]

/-! ## The text -/

theorem print (h : s.AgreeOn N s') : s'.print = s.print := by
  have hprinted : s'.printedTypes = s.printedTypes := by
    rw [printedTypes, h.reachableTypes, ← printedTypes]
  have hlines : (s.printedTypes.map fun d =>
        Printer.definitionLines d (Table.values (s'.fieldTable d.name))) =
      s.printedTypes.map fun d =>
        Printer.definitionLines d (Table.values (s.fieldTable d.name)) := by
    refine List.map_congr_left fun d hd => ?_
    rw [h.fieldTable d.name (h.name_mem (List.mem_filter.1 hd).1)]
  simp only [Schema.print, h.roots, hprinted, hlines]

theorem fingerprint (h : s.AgreeOn N s') : s'.fingerprint = s.fingerprint := by
  rw [Schema.fingerprint, h.print, ← Schema.fingerprint]

/-! ## The description -/

theorem namedInfo (h : s.AgreeOn N s') (hn : name ∈ N) :
    s'.namedInfo (some name) = s.namedInfo (some name) := by
  rw [Schema.namedInfo, h.definition hn, ← Schema.namedInfo]

theorem typeRefInfo (h : s.AgreeOn N s') {t : TypeRef} (ht : t.innermost ∈ N) :
    s'.typeRefInfo t = s.typeRefInfo t := by
  induction t with
  | named name => exact h.namedInfo ht
  | list t ih => rw [Schema.typeRefInfo, ih ht, ← Schema.typeRefInfo]
  | nonNull t ih => rw [Schema.typeRefInfo, ih ht, ← Schema.typeRefInfo]

theorem inputValueInfo (h : s.AgreeOn N s') {a : Argument} (ha : a.type.innermost ∈ N) :
    s'.inputValueInfo a = s.inputValueInfo a := by
  rw [Schema.inputValueInfo, h.typeRefInfo ha, ← Schema.inputValueInfo]

theorem fieldInfo (h : s.AgreeOn N s') {f : Field} (hf : f.type.innermost ∈ N)
    (ha : ∀ a ∈ f.arguments, a.type.innermost ∈ N) : s'.fieldInfo f = s.fieldInfo f := by
  have hargs : f.arguments.mapM s'.inputValueInfo = f.arguments.mapM s.inputValueInfo :=
    mapM_congr fun a hmem => h.inputValueInfo (ha a hmem)
  rw [Schema.fieldInfo, hargs, h.typeRefInfo hf, ← Schema.fieldInfo]

theorem fieldInfos (h : s.AgreeOn N s') (hd : d ∈ s.reachableTypes) (hf : d.hasFields = true) :
    (Table.values (s'.fieldTable d.name)).mapM s'.fieldInfo =
      (Table.values (s.fieldTable d.name)).mapM s.fieldInfo := by
  rw [h.fieldTable d.name (h.name_mem hd)]
  exact mapM_congr fun f hmem => h.fieldInfo (h.refers d hd _ (.fieldType hf hmem))
    fun a ha => h.refers d hd _ (.argumentType hf hmem ha)

theorem possibleInfo (h : s.AgreeOn N s') (ha : abstract ∈ N) :
    s'.possibleInfo abstract = s.possibleInfo abstract := by
  rw [Schema.possibleInfo, h.possibleTypes ha, Schema.possibleInfo]
  exact mapM_congr fun d hd => h.namedInfo (h.name_mem (List.mem_filter.1 hd).1)

theorem typeInfo (h : s.AgreeOn N s') (hd : d ∈ s.reachableTypes) :
    s'.typeInfo d = s.typeInfo d := by
  have hrefers {n : String} (hr : d.Refers (Table.values (s.fieldTable d.name)) n) : n ∈ N :=
    h.refers d hd n hr
  unfold Schema.typeInfo
  cases hb : d.body with
  | scalar | enum => rfl
  | inputObject inputs =>
    have hinputs : inputs.mapM s'.inputValueInfo = inputs.mapM s.inputValueInfo :=
      mapM_congr fun a ha => h.inputValueInfo (hrefers (.inputField hb ha))
    simp only [hinputs]
  | object o =>
    have hinterfaces : (o.interfaces.mapM fun n => s'.namedInfo (some n)) =
        o.interfaces.mapM fun n => s.namedInfo (some n) :=
      mapM_congr fun n hn => h.namedInfo (hrefers (.implements hb hn))
    simp only [h.fieldInfos hd (Definition.hasFields_of_object hb), hinterfaces]
  | interface i =>
    simp only [h.fieldInfos hd (Definition.hasFields_of_interface hb),
      h.possibleInfo (h.name_mem hd)]
  | union u => simp only [h.possibleInfo (h.name_mem hd)]

theorem rootInfo (h : s.AgreeOn N s') (role : Role) :
    ((s.roots.type? role).mapM fun n => s'.namedInfo (some n)) =
      (s.roots.type? role).mapM fun n => s.namedInfo (some n) := by
  cases hr : s.roots.type? role with
  | none => rfl
  | some n =>
    have hn := h.rooted n (Roots.mem_names.2 ⟨role, hr⟩)
    rw [Option.mapM_some, Option.mapM_some, h.namedInfo hn]

/-- The description is the same if the query root is described in the same way. -/
theorem introspect (h : s.AgreeOn N s')
    (hquery : s'.namedInfo s.roots.query = s.namedInfo s.roots.query) :
    s'.introspect = s.introspect := by
  have htypes : s.reachableTypes.mapM s'.typeInfo = s.reachableTypes.mapM s.typeInfo :=
    mapM_congr fun d hd => h.typeInfo hd
  simp only [Schema.introspect, h.roots, hquery, h.rootInfo, h.reachableTypes, htypes]

/-! ## Type resolution -/

section Resolution

variable {v : Value} {ctx : Option Context} {own : Option ResolveType}

theorem answer (h : s.AgreeOn N s')
    (hask : ∀ f, own = some f ∨ s.roots.resolveType = some f →
      s'.ask f v ctx = s.ask f v ctx) :
    s'.answer own v ctx = s.answer own v ctx := by
  unfold Schema.answer
  rw [h.roots]
  cases hroot : s.roots.resolveType with
  | none => cases own with
    | none => rfl
    | some f => simp only [hask f (.inl rfl)]
  | some g => cases own with
    | none => simp only [hask g (.inr hroot)]
    | some f => simp only [hask g (.inr hroot), hask f (.inl rfl)]

theorem conclude (h : s.AgreeOn N s') (ha : abstract ∈ N) (answer : Answer) :
    s.SameButHint s' (s.conclude abstract answer) (s'.conclude abstract answer) := by
  cases htruthy : answer.truthy with
  | false =>
    refine .inl ?_
    rw [Schema.conclude, Schema.conclude, htruthy]
    rfl
  | true =>
    cases hname : answer.typeName with
    | error e =>
      refine .inl ?_
      rw [Schema.conclude, Schema.conclude, htruthy, hname]
      rfl
    | ok name =>
      rw [conclude_of_typeName htruthy hname, conclude_of_typeName htruthy hname, h.isPossible ha,
        h.isReachable]
      cases hr : s.isReachable name with
      | false => exact .inr ⟨name, some (.resolution abstract), rfl, rfl⟩
      | true =>
        rw [h.definition (h.visible name hr)]
        exact .inl rfl

theorem conclude_answer (h : s.AgreeOn N s') (ha : abstract ∈ N)
    (hask : ∀ f, own = some f ∨ s.roots.resolveType = some f →
      s'.ask f v ctx = s.ask f v ctx) :
    s.SameButHint s' (s.answer own v ctx >>= s.conclude abstract)
      (s'.answer own v ctx >>= s'.conclude abstract) := by
  rw [h.answer hask]
  cases s.answer own v ctx with
  | error e => exact .inl rfl
  | ok answer => exact h.conclude ha answer

/-- Type resolution comes to the same if resolvers have the same results. -/
theorem resolveType (h : s.AgreeOn N s') {declared : Spec} (hanswers : s.SameAnswers s' v ctx) :
    s.SameButHint s' (s.resolveType v declared ctx) (s'.resolveType v declared ctx) := by
  cases hname : declared.typeName with
  | error e =>
    refine .inl ?_
    rw [Schema.resolveType, Schema.resolveType, hname]
    rfl
  | ok name =>
    cases hr : s.isReachable name with
    | false =>
      have hr' : s'.isReachable name = false := by rw [h.isReachable, hr]
      exact .inr ⟨name, none, resolveType_of_getType_error hname (getType_of_unreachable hr),
        resolveType_of_getType_error hname (getType_of_unreachable hr')⟩
    | true =>
      have hn := h.visible name hr
      cases hd : s.getType name with
      | error e =>
        refine .inl ?_
        rw [resolveType_of_getType_error hname hd,
          resolveType_of_getType_error hname ((h.getType hn).trans hd)]
      | ok d =>
        rw [resolveType_of_getType hname hd,
          resolveType_of_getType hname ((h.getType hn).trans hd)]
        have hmem := mem_reachableTypes_of_getType hd
        cases hb : d.body with
        | object o | scalar | enum | inputObject => exact .inl rfl
        | interface i =>
          exact h.conclude_answer hn fun f hf =>
            hanswers.ask (hf.elim (.interface hmem hb) .schema)
        | union u =>
          exact h.conclude_answer hn fun f hf => hanswers.ask (hf.elim (.union hmem hb) .schema)

end Resolution

end AgreeOn

/-! ## Agreement on every name -/

/-- Schemas that cannot be told apart by what is asked of them. -/
structure Indistinguishable (s s' : Schema) : Prop where
  find : s'.find = s.find
  reachability : s'.reachability = s.reachability
  excludedTypes : s'.excludedTypes = s.excludedTypes
  excludedImplementers : s'.excludedImplementers = s.excludedImplementers
  fieldTable : s'.fieldTable = s.fieldTable
  behaviorTable : s'.behaviorTable = s.behaviorTable
  effectiveFields : s'.effectiveFields = s.effectiveFields
  effectiveBehaviors : s'.effectiveBehaviors = s.effectiveBehaviors
  possibleTypes : s'.possibleTypes = s.possibleTypes
  introspect : s'.introspect = s.introspect
  print : s'.print = s.print
  fingerprint : s'.fingerprint = s.fingerprint
  resolveType : s'.resolveType = s.resolveType

theorem AgreeOn.indistinguishable {s s' : Schema} (h : s.AgreeOn Set.univ s')
    (hreachability : s'.reachability = s.reachability) : s.Indistinguishable s' where
  find := funext fun name => h.find name (Set.mem_univ name)
  reachability := hreachability
  excludedTypes := by rw [excludedTypes, hreachability, ← excludedTypes]
  excludedImplementers := by rw [excludedImplementers, hreachability, ← excludedImplementers]
  fieldTable := funext fun name => h.fieldTable name (Set.mem_univ name)
  behaviorTable := funext fun name => h.behaviorTable name (Set.mem_univ name)
  effectiveFields := funext fun name => h.effectiveFields (Set.mem_univ name)
  effectiveBehaviors := funext fun name => h.effectiveBehaviors (Set.mem_univ name)
  possibleTypes := funext fun name => h.possibleTypes (Set.mem_univ name)
  introspect := by
    refine h.introspect ?_
    cases s.roots.query with
    | none => rfl
    | some name => exact h.namedInfo (Set.mem_univ name)
  print := h.print
  fingerprint := h.fingerprint
  resolveType := by
    funext v declared ctx
    have hanswers : s.SameAnswers s' v ctx := fun _ _ name _ => h.find name (Set.mem_univ name)
    rcases h.resolveType hanswers with hsame | ⟨name, place, he, he'⟩
    · exact hsame
    · rw [he, he', h.find name (Set.mem_univ name)]

/-! ## Built schemas -/

namespace BuiltFrom

variable {N : Set String} {s s' : Schema} {r r' : Registry}

/-- The declarations that a schema is built from. -/
theorem declarations_agreeOn (h : s.BuiltFrom r) (h' : s'.BuiltFrom r')
    (hfind : ∀ name ∈ N, r'.declarations.find name = r.declarations.find name)
    (hdefined : ∀ name d, r.declarations.find name = some d → name ∈ N) :
    Declarations.AgreeOn N r.declarations r'.declarations := by
  refine h.coherent.agreeOn h'.coherent hfind fun name _ d hd i hi => ?_
  cases hb : d.body with
  | object o =>
    rw [Definition.interfaces, hb] at hi
    obtain ⟨e, he, -⟩ := h.interface_of_mem (mem_of_findDefinition hd) hb hi
    exact hdefined i e he
  | scalar | enum | inputObject | interface | union => simp [Definition.interfaces, hb] at hi

/-- Among names with everything that is defined no reference is lost. -/
theorem confined (h : s.BuiltFrom r) (h' : s'.BuiltFrom r')
    (hfind : ∀ name ∈ N, r'.declarations.find name = r.declarations.find name)
    (hdefined : ∀ name d, r.declarations.find name = some d → name ∈ N)
    {store store' : FieldStore} (hstore : ∀ owner, store.effective owner = s.fieldTable owner)
    (hstore' : ∀ owner, store'.effective owner = s'.fieldTable owner) :
    Declarations.Confined N ⟨s.definitions, store⟩ ⟨s'.definitions, store'⟩
      (s.roots.names ++ s.roots.orphans) where
  distinct := h.definitions.symm ▸ h.coherent.distinct
  distinct' := h'.definitions.symm ▸ h'.coherent.distinct
  find name hn := by
    have hfound : s'.find name = s.find name := by rw [h.find_eq, h'.find_eq, hfind name hn]
    exact hfound
  effective name hn := by
    rw [hstore, hstore', h.fieldTable, h'.fieldTable,
      (h.declarations_agreeOn h' hfind hdefined).finalFields hn]
  starts name hn := by
    rcases List.mem_append.1 hn with hn | hn
    · obtain ⟨role, hr⟩ := Roots.mem_names.1 hn
      obtain ⟨d, hd, -⟩ := h.admits_root hr
      exact hdefined name d hd
    · obtain ⟨d, hd, -⟩ := h.admits_schemaOrphan hn
      exact hdefined name d hd
  refers d hd _ name hr := by
    rw [Declarations.Refers, hstore] at hr
    obtain ⟨e, he⟩ := h.exists_of_refers (h.definitions ▸ hd) hr
    exact hdefined name e he

theorem roots_eq (h : s.BuiltFrom r) (h' : s'.BuiltFrom r') (hroots : r'.roots = r.roots) :
    s'.roots = s.roots :=
  Option.some.inj (h'.roots.symm.trans (hroots.trans h.roots))

/-- Built schemas agree on names that are declared alike, if the first one declares no others. -/
theorem agreeOn (h : s.BuiltFrom r) (h' : s'.BuiltFrom r') (hroots : r'.roots = r.roots)
    (hfind : ∀ name ∈ N, r'.declarations.find name = r.declarations.find name)
    (hdefined : ∀ name d, r.declarations.find name = some d → name ∈ N) : s.AgreeOn N s' := by
  have hagree := h.declarations_agreeOn h' hfind hdefined
  have hsame := h.roots_eq h' hroots
  obtain ⟨store, hstore, hreach⟩ := h.reachability
  obtain ⟨store', hstore', hreach'⟩ := h'.reachability
  have hconfined := h.confined h' hfind hdefined hstore hstore'
  exact {
    roots := hsame
    reachable := by
      rw [hreach, hreach', hsame]
      exact hconfined.reachable_eq fun _ => Iff.rfl
    find := fun name hn => by rw [h.find_eq, h'.find_eq, hfind name hn]
    fieldTable := fun name hn => by rw [h.fieldTable, h'.fieldTable, hagree.finalFields hn]
    behaviorTable := fun name hn => by
      rw [h.behaviorTable, h'.behaviorTable, hagree.finalBehaviors hn]
    rooted := fun name hn => hconfined.starts name (List.mem_append_left _ hn)
    visible := fun name hr => by
      obtain ⟨d, hd, rfl⟩ := h.exists_of_reachable hr
      exact hdefined d.name d (h.coherent.find_of_mem hd)
    refers := fun d hd name hr => by
      obtain ⟨e, he⟩ := h.exists_of_refers (h.mem_reachableTypes.1 hd).1 hr
      exact hdefined name e he }

/-- Schemas that are built from the same roots and what is found under the same names cannot be
told apart. -/
theorem indistinguishable (h : s.BuiltFrom r) (h' : s'.BuiltFrom r') (hroots : r'.roots = r.roots)
    (hfind : r'.declarations.find = r.declarations.find) : s.Indistinguishable s' := by
  have hagree : s.AgreeOn Set.univ s' :=
    h.agreeOn h' hroots (fun name _ => congrFun hfind name) fun _ _ _ => Set.mem_univ _
  obtain ⟨store, hstore, hreach⟩ := h.reachability
  obtain ⟨store', hstore', hreach'⟩ := h'.reachability
  refine hagree.indistinguishable ?_
  rw [hreach, hreach', hagree.roots]
  refine Declarations.reachability_eq_of_find (h.definitions.symm ▸ h.coherent.distinct)
    (h'.definitions.symm ▸ h'.coherent.distinct) ?_ (fun owner => ?_) fun _ => Iff.rfl
  · exact funext fun name => hagree.find name (Set.mem_univ name)
  · rw [hstore, hstore', hagree.fieldTable owner (Set.mem_univ owner)]

end BuiltFrom

end Schema

end GraphSchema
