import GraphSchema.Proofs.Schema.Alike
import GraphSchema.Proofs.Schema.Declared

/-!
# What a printed schema says

The text of a schema says what its roots are, how its types are shown, and with that everything in
its description but the texts that belong to the arguments of fields: these are not printed. The
built-in scalars are not printed either, but they are visible exactly where something that is
printed refers to them.

## Main definitions

* `Schema.Legible` — whether a schema has a query root, names everywhere, and texts that can be told
  from the quotes around them.

## Main statements

* `Schema.BuiltFrom.exists_refers` — a visible type that is no object type is referred to.
* `Schema.BuiltFrom.shownAs` — what schemas of the same text have in common.
* `Registry.run_print` — their descriptions after runs.
-/

namespace GraphSchema

/-- Whether a schema has a query root, and only names and texts that can be read off when they are
printed. -/
structure Schema.Legible (s : Schema) : Prop where
  query : (s.roots.type? .query).isSome = true
  types : ∀ d ∈ s.reachableTypes, d.Legible (s.fieldList d)

/-! ## What is visible -/

theorem TypeKind.eq_object_of_admits {k : TypeKind} (h : Position.object.admits k = true) :
    k = .object := by
  cases k <;> first | rfl | cases h

/-- Whether all built-in scalars are defined. -/
def Declarations.HasBuiltins (ds : Declarations) : Prop :=
  ∀ d ∈ Definition.builtins, d ∈ ds.definitions

namespace Schema.BuiltFrom

variable {s s' : Schema} {r r' : Registry} {d : Definition}

/-- A visible type is an object type, or a visible type refers to it. -/
theorem exists_refers (h : s.BuiltFrom r) (hd : d ∈ s.reachableTypes) (hk : d.kind ≠ .object) :
    ∃ e ∈ s.reachableTypes, e.Refers (s.fieldList e) d.name := by
  obtain ⟨ds, hdefs, hfields, hleast⟩ := h.exists_isLeast
  have hclosed : ds.ReferenceClosed _ _ := hleast.1
  -- what is kept among the reachable names is closed, because all starts are object types
  have hkept : ds.ReferenceClosed (s.roots.names ++ s.roots.orphans)
      {n | s.isReachable n = true ∧ (r.declarations.Admits .object n ∨
        ∃ e ∈ s.reachableTypes, e.Refers (s.fieldList e) n)} := by
    refine ⟨fun n hn hdef => ⟨hclosed.start n hn hdef, .inl ?_⟩, fun e he hmem n hr hdef => ?_⟩
    · rcases List.mem_append.1 hn with hn | hn
      · obtain ⟨role, hrole⟩ := Roots.mem_names.1 hn
        exact h.admits_root hrole
      · exact h.admits_schemaOrphan hn
    · refine ⟨hclosed.step e he hmem.1 n hr hdef, .inr ⟨e, ?_, ?_⟩⟩
      · exact h.mem_reachableTypes.2 ⟨hdefs ▸ he, hmem.1⟩
      · rw [fieldList, ← hfields]
        exact hr
  obtain ⟨hmem, hreach⟩ := h.mem_reachableTypes.1 hd
  obtain ⟨-, ⟨e, he, hadmits⟩ | hrefers⟩ := hleast.2 hkept hreach
  · rw [h.coherent.find_of_mem hmem] at he
    obtain rfl := Option.some.inj he
    exact absurd (TypeKind.eq_object_of_admits hadmits) hk
  · exact hrefers

/-- What bears the name of a built-in scalar is that scalar. -/
theorem mem_builtins (h : s.BuiltFrom r) (hbuiltins : r.declarations.HasBuiltins)
    (hd : d ∈ r.declarations.definitions) (hname : Definition.isBuiltin d.name = true) :
    d ∈ Definition.builtins := by
  obtain ⟨e, he, hname⟩ := List.any_eq_true.1 hname
  rwa [h.coherent.eq_of_name_eq (hbuiltins e he) hd (eq_of_beq hname).symm]

/-- If whatever a schema prints is shown in the same way by another one, then whatever is visible in
it is also visible there. -/
theorem names_of_printed (h : s.BuiltFrom r) (h' : s'.BuiltFrom r')
    (hbuiltins : r.declarations.HasBuiltins)
    (hprinted : ∀ d ∈ s.printedTypes, ∃ d' ∈ s'.printedTypes,
      d.ShownAs (s.fieldList d) (s'.fieldList d') d') (hd : d ∈ s.reachableTypes) :
    s'.Names d.name := by
  have hscalar {e : Definition} (he : e ∈ s.reachableTypes)
      (hname : Definition.isBuiltin e.name = true) : e.body = .scalar :=
    Registry.body_of_mem_builtins
      (h.mem_builtins hbuiltins (h.mem_reachableTypes.1 he).1 hname)
  cases hname : Definition.isBuiltin d.name with
  | false =>
    obtain ⟨d', hd', hshown⟩ := hprinted d (List.mem_filter.2 ⟨hd, by rw [hname]; rfl⟩)
    exact ⟨d', (List.mem_filter.1 hd').1, hshown.name.symm⟩
  | true =>
    -- a built-in scalar is not printed, but the type that refers to it is
    have hkind : d.kind = .scalar := by rw [Definition.kind, hscalar hd hname, TypeBody.kind]
    obtain ⟨e, he, hrefers⟩ := h.exists_refers hd (by rw [hkind]; decide)
    have hprints : Definition.isBuiltin e.name = false := Bool.eq_false_iff.2 fun hname =>
      Definition.not_refers_of_scalar (hscalar he hname) hrefers
    obtain ⟨e', he', hshown⟩ := hprinted e (List.mem_filter.2 ⟨he, by rw [hprints]; rfl⟩)
    rcases hshown.refers hrefers with hrefers' | ⟨i, hi, hn⟩
    · exact h'.names_of_refers (List.mem_filter.1 he').1 hrefers'
    · obtain ⟨o, ho, hadmits⟩ := h.admits_orphan (h.mem_reachableTypes.1 he).1 hi hn
      rw [h.coherent.find_of_mem (h.mem_reachableTypes.1 hd).1] at ho
      obtain rfl := Option.some.inj ho
      rw [hkind] at hadmits
      cases hadmits

/-- Schemas that print the same things show the same types. -/
theorem shownAs_of_printed (h : s.BuiltFrom r) (h' : s'.BuiltFrom r')
    (hbuiltins : r.declarations.HasBuiltins) (hbuiltins' : r'.declarations.HasBuiltins)
    (hroots : ∀ role, s.roots.type? role = s'.roots.type? role)
    (hprinted : List.Forall₂ (fun d d' => d.ShownAs (s.fieldList d) (s'.fieldList d') d')
      s.printedTypes s'.printedTypes) : s.ShownAs s' := by
  have hprinted' := forall₂_symm hprinted fun _ _ hshown => hshown.symm
  have hnames : s.reachableTypes.map (·.name) = s'.reachableTypes.map (·.name) := by
    refine Declarations.increasing_ext h.pairwise_name_reachableTypes
      h'.pairwise_name_reachableTypes fun name => ?_
    rw [List.mem_map, List.mem_map]
    constructor
    · rintro ⟨d, hd, rfl⟩
      exact h.names_of_printed h' hbuiltins (fun _ => exists_mem_of_forall₂ hprinted) hd
    · rintro ⟨d, hd, rfl⟩
      exact h'.names_of_printed h hbuiltins' (fun _ => exists_mem_of_forall₂ hprinted') hd
  rw [← List.forall₂_eq_eq_eq, List.forall₂_map_left_iff, List.forall₂_map_right_iff] at hnames
  refine ⟨hroots, forall₂_of_mem hnames fun d hd d' hd' hname => ?_⟩
  obtain ⟨hmem, -⟩ := h.mem_reachableTypes.1 hd
  obtain ⟨hmem', -⟩ := h'.mem_reachableTypes.1 hd'
  cases hbuiltin : Definition.isBuiltin d.name with
  | false =>
    obtain ⟨e, he, hshown⟩ :=
      exists_mem_of_forall₂ hprinted (List.mem_filter.2 ⟨hd, by rw [hbuiltin]; rfl⟩)
    obtain ⟨he, -⟩ := h'.mem_reachableTypes.1 (List.mem_filter.1 he).1
    obtain rfl := h'.coherent.eq_of_name_eq hmem' he (hshown.name.symm.trans hname)
    exact hshown
  | true =>
    have hin := h.mem_builtins hbuiltins hmem hbuiltin
    obtain rfl := h'.coherent.eq_of_name_eq hmem' (hbuiltins' d hin) hname
    have hbody := Registry.body_of_mem_builtins hin
    exact ⟨rfl, rfl, by rw [hbody]; exact .scalar⟩

/-- Legible schemas of the same text have the same roots and show the same types. -/
theorem shownAs (h : s.BuiltFrom r) (h' : s'.BuiltFrom r') (hbuiltins : r.declarations.HasBuiltins)
    (hbuiltins' : r'.declarations.HasBuiltins) (hlegible : s.Legible) (hlegible' : s'.Legible)
    (hprint : s.print = s'.print) : s.ShownAs s' := by
  have hnamed {s : Schema} (hlegible : s.Legible) {name : String} (hn : s.Names name) :
      Name.isName name.toList = true := by
    obtain ⟨d, hd, rfl⟩ := hn
    exact (hlegible.types d hd).name
  have htypes {s : Schema} {r : Registry} (h : s.BuiltFrom r) (hlegible : s.Legible) :
      ∀ d ∈ s.printedTypes, d.Legible (s.fieldList d) ∧
        ∀ n, d.Refers (s.fieldList d) n → Name.isName n.toList = true := by
    intro d hd
    have hvisible := (List.mem_filter.1 hd).1
    exact ⟨hlegible.types d hvisible, fun n hr =>
      hnamed hlegible (h.names_of_refers hvisible hr)⟩
  obtain ⟨query, hq⟩ := Option.isSome_iff_exists.1 hlegible.query
  obtain ⟨query', hq'⟩ := Option.isSome_iff_exists.1 hlegible'.query
  obtain ⟨hroots, hprinted⟩ := shownAs_of_print hq hq'
    (fun _ _ hr => hnamed hlegible (h.names_of_root hr))
    (fun _ _ hr => hnamed hlegible' (h'.names_of_root hr)) (htypes h hlegible)
    (htypes h' hlegible') hprint
  exact h.shownAs_of_printed h' hbuiltins hbuiltins' hroots hprinted

end Schema.BuiltFrom

/-! ## Runs -/

namespace Registry

variable {settings settings' : Settings} {ops ops' : List Operation} {s s' : Schema}

theorem hasBuiltins_run (hs : (run settings ops).build.outcome = .ok s) :
    (run settings ops).declarations.HasBuiltins := by
  intro d hd
  rw [definitions_run (problems_eq_nil hs)]
  exact List.mem_append_left _ hd

/-- Two schemas that are built after runs and have the same text have the same roots. Both can be
described, and the descriptions are alike in everything but the texts that belong to the arguments
of fields. If there are no such texts, they are alike in everything. -/
theorem run_print (hs : (run settings ops).build.outcome = .ok s)
    (hs' : (run settings' ops').build.outcome = .ok s') (hlegible : s.Legible)
    (hlegible' : s'.Legible) (hprint : s.print = s'.print) :
    (∀ role, s.roots.type? role = s'.roots.type? role) ∧
    ∃ info info', s.introspect = .ok info ∧ s'.introspect = .ok info' ∧
      info.Alike (fun _ _ => True) info' ∧
      ((∀ a ∈ info.fieldArgs ++ info'.fieldArgs, a.description.getD "" = "") →
        info.Alike SameLines info') := by
  have hb := builtFrom_run hs
  have hb' := builtFrom_run hs'
  have hshown := hb.shownAs hb' (hasBuiltins_run hs) (hasBuiltins_run hs') hlegible hlegible' hprint
  obtain ⟨query, hq⟩ := Option.isSome_iff_exists.1 hlegible.query
  obtain ⟨info, info', hi, hi', halike⟩ := hshown.exists_introspect hb hb' hq
  refine ⟨hshown.roots, info, info', hi, hi', halike, fun hnone => halike.of_fieldArgs ?_⟩
  intro a ha b hb
  rw [SameLines, hnone a (List.mem_append_left _ ha), hnone b (List.mem_append_right _ hb)]

/-! ## A text that is not printed -/

namespace Paged

/-- A field whose argument may have a description. -/
def items (text : Option String) : Field where
  name := "items"
  type := .named "Int"
  arguments := [{ name := "first", type := .named "Int", description := text }]

/-- A type with this field. -/
def query (text : Option String) : Definition where
  name := "Query"
  body := .object { fields := [items text] }

/-- The scalar that the field is of. -/
def int : Definition where
  name := "Int"
  description := some "Signed 32-bit integer."
  body := .scalar

/-- The type is declared as the query root. -/
def operations (text : Option String) : List Operation := [
  .register (query text),
  .declareRoots { query := some (some (.text "Query")) }]

/-- The description of the field. -/
def itemsInfo (text : Option String) : FieldInfo where
  name := "items"
  description := none
  args := [⟨"first", text, .named .scalar "Int", none⟩]
  type := .named .scalar "Int"
  deprecation := none

/-- The description of the type. -/
def queryInfo (text : Option String) : TypeInfo where
  kind := .object
  name := "Query"
  description := none
  fields := some [itemsInfo text]
  interfaces := some []

/-- The description of the schema. -/
def info (text : Option String) : SchemaInfo where
  queryType := .named .object "Query"
  mutationType := none
  subscriptionType := none
  types := [⟨.scalar, "Int", int.description, none, none, none, none, none⟩, queryInfo text]

theorem exists_build (text : Option String) :
    ∃ s, (run {} (operations text)).build.outcome = .ok s :=
  exists_build_of_violations rfl rfl

theorem final_query (text : Option String) : (query text).final true = query text := by
  have hitems : camelCase "items" = "items" := rfl
  have hfirst : camelCase "first" = "first" := rfl
  have hfield : finalField true (items text) = items text := by
    simp [finalField, Field.camelized, items, Argument.camelized, hitems, hfirst]
  simp only [Definition.final, query, ObjectType.final, List.map_cons, List.map_nil, hfield]
  rfl

/-- The type refers to the scalar only. -/
theorem refers_query {text : Option String} {name : String} :
    (query text).Refers [items text] name ↔ name = int.name := by
  constructor
  · intro h
    cases h with
    | fieldType _ hf =>
      rw [List.mem_singleton.1 hf]
      rfl
    | argumentType _ hf ha =>
      obtain rfl := List.mem_singleton.1 hf
      rw [List.mem_singleton.1 ha]
      rfl
    | implements hb hn =>
      cases hb
      cases hn
    | orphan hb | member hb | inputField hb => cases hb
  · rintro rfl
    exact .fieldType rfl List.mem_cons_self

theorem legible_int : int.Legible [] where
  name := by decide
  description := by
    unfold Quotable
    decide
  fields := List.forall_mem_nil _
  values := nofun
  inputs := nofun

theorem legible_items (text : Option String) : (items text).Legible where
  name := (by decide : Name.isName "items".toList = true)
  description := (by decide : ¬ ['"', '"', '"'] <:+: "".toList)
  arguments := List.forall_mem_singleton.2
    ⟨(by decide : Name.isName "first".toList = true), nofun⟩

theorem legible_query (text : Option String) : (query text).Legible [items text] where
  name := (by decide : Name.isName "Query".toList = true)
  description := (by decide : ¬ ['"', '"', '"'] <:+: "".toList)
  fields := List.forall_mem_singleton.2 (legible_items text)
  values := nofun
  inputs := nofun

section

variable {text : Option String} {s : Schema}
  (hs : (run {} (operations text)).build.outcome = .ok s)
include hs

theorem definitions_eq :
    (run {} (operations text)).declarations.definitions = Definition.builtins ++ [query text] := by
  have hdeclared : declared {} (operations text) = [query text] := rfl
  rw [definitions_run (problems_eq_nil hs), hdeclared]
  exact congrArg (Definition.builtins ++ [·]) (final_query text)

theorem query_mem : query text ∈ (run {} (operations text)).declarations.definitions := by
  rw [definitions_eq hs]
  exact List.mem_append_right _ List.mem_cons_self

theorem int_mem : int ∈ (run {} (operations text)).declarations.definitions :=
  hasBuiltins_run hs int (.tail _ List.mem_cons_self)

theorem roots_eq : s.roots = { query := some "Query" } :=
  (Option.some.inj (builtFrom_run hs).roots).symm

theorem fieldList_query : s.fieldList (query text) = [items text] := by
  have hb := builtFrom_run hs
  have hown := hb.coherent.ownFields (query_mem hs) (o := { fields := [items text] }) rfl
  rw [Schema.fieldList, hb.fieldTable_object (query_mem hs) rfl]
  change Table.values (Table.merge [] _) = _
  rw [hown]
  rfl

theorem fieldList_int : s.fieldList int = [] := by
  have hb := builtFrom_run hs
  rw [Schema.fieldList, hb.fieldTable, Declarations.finalFields,
    hb.coherent.body?_of_mem (int_mem hs)]
  rfl

/-- The type is visible as the root, and the scalar by way of it. -/
theorem isReachable_iff {name : String} :
    s.isReachable name = true ↔ name = "Int" ∨ name = "Query" := by
  have hb := builtFrom_run hs
  have hquery : s.isReachable "Query" = true :=
    hb.isReachable_of_start (query_mem hs) (by rw [roots_eq hs]; exact List.mem_cons_self)
  obtain ⟨ds, hdefs, hfields, hleast⟩ := hb.exists_isLeast
  constructor
  · intro hreach
    have hclosed : ds.ReferenceClosed (s.roots.names ++ s.roots.orphans)
        {n | n = "Int" ∨ n = "Query"} := by
      refine ⟨fun n hn _ => .inr ?_, fun d hd _ n hr _ => .inl ?_⟩
      · rw [roots_eq hs] at hn
        exact List.mem_singleton.1 hn
      · rw [hdefs, definitions_eq hs, List.mem_append, List.mem_singleton] at hd
        rcases hd with hd | rfl
        · exact absurd hr (Definition.not_refers_of_scalar (body_of_mem_builtins hd))
        · rw [Declarations.Refers, hfields, ← Schema.fieldList, fieldList_query hs] at hr
          exact refers_query.1 hr
    exact hleast.2 hclosed hreach
  · rintro (rfl | rfl)
    · refine hb.isReachable_of_refers (query_mem hs) (int_mem hs) hquery ?_
      rw [← Schema.fieldList, fieldList_query hs]
      exact refers_query.2 rfl
    · exact hquery

theorem reachableTypes_eq : s.reachableTypes = [int, query text] := by
  have hb := builtFrom_run hs
  have hnames : s.reachability.reachable = ["Int", "Query"] := by
    have hpairwise := hb.pairwise_name_reachableTypes
    rw [hb.map_name_reachableTypes] at hpairwise
    refine Declarations.increasing_ext hpairwise (by decide) fun name => ?_
    rw [← Declarations.contains_iff_mem_reachable, ← Schema.isReachable, isReachable_iff hs]
    simp
  have hint := hb.find_eq.trans (hb.coherent.find_of_mem (int_mem hs))
  have hquery := hb.find_eq.trans (hb.coherent.find_of_mem (query_mem hs))
  rw [Schema.reachableTypes, hnames]
  change List.filterMap s.find [int.name, (query text).name] = _
  simp only [List.filterMap_cons, List.filterMap_nil, hint, hquery]

theorem legible : s.Legible where
  query := by
    rw [roots_eq hs]
    rfl
  types := by
    rw [reachableTypes_eq hs, List.forall_mem_cons, List.forall_mem_singleton, fieldList_int hs,
      fieldList_query hs]
    exact ⟨legible_int, legible_query text⟩

/-- The text does not depend on the description. -/
theorem print_eq :
    s.print = String.intercalate "\n\n" ([Printer.rootLines { query := some "Query" },
      Printer.definitionLines (query none) [items none]].map (String.intercalate "\n")) ++
        "\n" := by
  have hprinted : s.printedTypes = [query text] := by
    rw [Schema.printedTypes, reachableTypes_eq hs]
    rfl
  rw [Schema.print, hprinted, roots_eq hs]
  change String.intercalate "\n\n" ([_, Printer.definitionLines (query text)
    (s.fieldList (query text))].map _) ++ "\n" = _
  rw [fieldList_query hs]
  rfl

theorem introspect_eq : s.introspect = .ok (info text) := by
  have hb := builtFrom_run hs
  have hint : s.namedInfo (some "Int") = .ok (.named .scalar "Int") :=
    hb.namedInfo_of_mem (int_mem hs)
  have hquery : s.namedInfo (some "Query") = .ok (.named .object "Query") :=
    hb.namedInfo_of_mem (query_mem hs)
  have hfield : s.fieldInfo (items text) = .ok (itemsInfo text) := by
    simp only [Schema.fieldInfo, items, List.mapM_cons, List.mapM_nil, Schema.inputValueInfo,
      Schema.typeRefInfo, hint]
    rfl
  have hfields : (s.fieldList (query text)).mapM s.fieldInfo = .ok [itemsInfo text] := by
    rw [fieldList_query hs, List.mapM_cons, hfield]
    rfl
  have htype : s.typeInfo (query text) = .ok (queryInfo text) := by
    rw [Schema.fieldList] at hfields
    rw [Schema.typeInfo, hfields]
    rfl
  have htypes : s.reachableTypes.mapM s.typeInfo = .ok (info text).types := by
    rw [reachableTypes_eq hs, List.mapM_cons, List.mapM_cons, htype]
    rfl
  have hnone (role : Role) (h : role ≠ .query) : s.roots.type? role = none := by
    rw [roots_eq hs]
    cases role <;> first | rfl | exact absurd rfl h
  rw [Schema.introspect, hnone .mutation (by decide), hnone .subscription (by decide), roots_eq hs,
    hquery, htypes]
  rfl

end

end Paged

/-- Two runs whose query type differs in the description of an argument. The schemas have the same
text, and what is said of both is alike but for that description. -/
theorem paged_print :
    ∃ s s', (run {} (Paged.operations none)).build.outcome = .ok s ∧
      (run {} (Paged.operations (some "Page size"))).build.outcome = .ok s' ∧
      s.Legible ∧ s'.Legible ∧ s.print = s'.print ∧
      ∃ info info', s.introspect = .ok info ∧ s'.introspect = .ok info' ∧
        info.Alike (fun _ _ => True) info' := by
  obtain ⟨s, hs⟩ := Paged.exists_build none
  obtain ⟨s', hs'⟩ := Paged.exists_build (some "Page size")
  have hprint : s.print = s'.print := (Paged.print_eq hs).trans (Paged.print_eq hs').symm
  obtain ⟨-, info, info', hi, hi', halike, -⟩ :=
    run_print hs hs' (Paged.legible hs) (Paged.legible hs') hprint
  exact ⟨s, s', hs, hs', Paged.legible hs, Paged.legible hs', hprint, info, info', hi, hi', halike⟩

/-- The description of an argument is given to those who ask for a description of the schema, but it
is not printed. So schemas of the same text, and of the same fingerprint, need not be alike. -/
theorem paged_not_alike :
    ∃ s s', (run {} (Paged.operations none)).build.outcome = .ok s ∧
      (run {} (Paged.operations (some "Page size"))).build.outcome = .ok s' ∧
      s.Legible ∧ s'.Legible ∧ s.print = s'.print ∧ s.fingerprint = s'.fingerprint ∧
      ∀ info info', s.introspect = .ok info → s'.introspect = .ok info' →
        ¬ info.Alike SameLines info' := by
  obtain ⟨s, hs⟩ := Paged.exists_build none
  obtain ⟨s', hs'⟩ := Paged.exists_build (some "Page size")
  have hprint : s.print = s'.print := (Paged.print_eq hs).trans (Paged.print_eq hs').symm
  refine ⟨s, s', hs, hs', Paged.legible hs, Paged.legible hs', hprint,
    by rw [Schema.fingerprint, hprint, ← Schema.fingerprint], fun info info' hi hi' halike => ?_⟩
  obtain rfl := Except.ok.inj ((Paged.introspect_eq hs).symm.trans hi)
  obtain rfl := Except.ok.inj ((Paged.introspect_eq hs').symm.trans hi')
  have hquery := (List.forall₂_cons.1 (List.forall₂_cons.1 halike.types).2).1
  have hfields : List.Forall₂ (FieldInfo.Alike SameLines) [Paged.itemsInfo none]
      [Paged.itemsInfo (some "Page size")] := Option.rel_some_some.1 hquery.fields
  have hargs := (List.forall₂_cons.1 hfields).1.args
  have hlines : SameLines none (some "Page size") := (List.forall₂_cons.1 hargs).1.description
  exact absurd hlines (by unfold SameLines; decide)

end Registry

end GraphSchema
