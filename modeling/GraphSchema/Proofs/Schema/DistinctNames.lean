import GraphSchema.Proofs.Schema.Declared

/-!
# Distinct names

The composed fields of a type have distinct names in every schema. Arguments of a field, and the
fields of an input object, are renamed as fields are, but nothing keeps two of them from getting one
name: they have distinct names exactly if the declared spellings do not meet.

## Main definitions

* `Schema.DistinctNames` — whether no two fields, arguments or input fields share a name.
* `Definition.SpelledApart` — whether the declared spellings of arguments and input fields do not
  meet.

## Main statements

* `Schema.BuiltFrom.nodup_fieldNames` — composed fields have distinct names.
* `Registry.run_distinctNames_iff` — when all names are distinct after a run.
* `Registry.spellings_meet` — a schema with two arguments, and two input fields, of one name.
-/

namespace GraphSchema

/-- Whether no two composed fields of a type share a name, nor two arguments of such a field, nor
two fields of an input object. -/
structure Schema.DistinctNames (s : Schema) : Prop where
  fields : ∀ d ∈ s.definitions, ((Table.values (s.fieldTable d.name)).map (·.name)).Nodup
  arguments : ∀ d ∈ s.definitions, ∀ f ∈ Table.values (s.fieldTable d.name),
    (f.arguments.map (·.name)).Nodup
  inputs : ∀ d ∈ s.definitions, ∀ inputs, d.body = .inputObject inputs →
    (inputs.map (·.name)).Nodup

/-! ## Spellings -/

/-- The spelling of a name in a schema. -/
def spelling (camelize : Bool) (name : String) : String :=
  if camelize then camelCase name else name

/-- Whether the spellings of the arguments of every declared field differ, and those of the declared
input fields. -/
structure Definition.SpelledApart (camelize : Bool) (d : Definition) : Prop where
  arguments : ∀ f ∈ d.fields,
    (f.arguments.map fun a => spelling (camelize && f.camelize) a.name).Nodup
  inputs : ∀ inputs, d.body = .inputObject inputs →
    (inputs.map fun a => spelling camelize a.name).Nodup

variable {camelize : Bool}

/-- An argument under its final name. -/
def Argument.spelled (camelize : Bool) (a : Argument) : Argument :=
  { a with name := spelling camelize a.name }

@[simp] theorem Argument.name_spelled (a : Argument) :
    (a.spelled camelize).name = spelling camelize a.name := rfl

theorem map_spelled_false (args : List Argument) : args.map (Argument.spelled false) = args :=
  List.map_id args

theorem map_camelized_eq {args : List Argument} :
    (if camelize then args.map Argument.camelized else args) =
      args.map (Argument.spelled camelize) := by
  cases camelize with
  | false => exact (map_spelled_false args).symm
  | true => rfl

/-- A field is registered with its name and the names of its arguments spelled as it allows. -/
theorem Registry.finalField_eq {f : Field} : finalField camelize f = { f with
    name := spelling (camelize && f.camelize) f.name
    arguments := f.arguments.map (Argument.spelled (camelize && f.camelize)) } := by
  unfold finalField Field.camelized
  cases hc : camelize && f.camelize with
  | false =>
    rw [map_spelled_false]
    cases camelize with
    | false => rfl
    | true => rw [if_pos rfl, if_neg (by simpa using hc)]; rfl
  | true =>
    obtain ⟨rfl, hf⟩ := Bool.and_eq_true_iff.1 hc
    rw [if_pos rfl, if_pos hf]
    rfl

theorem map_name_arguments_finalField (f : Field) :
    (Registry.finalField camelize f).arguments.map (·.name) =
      f.arguments.map fun a => spelling (camelize && f.camelize) a.name := by
  rw [Registry.finalField_eq]
  exact List.map_map

theorem Definition.body_final_inputObject {d : Definition} {inputs : List Argument} :
    (d.final camelize).body = .inputObject inputs ↔ ∃ given, d.body = .inputObject given ∧
      inputs = given.map (Argument.spelled camelize) := by
  unfold final
  cases d.body <;> simp [map_camelized_eq, eq_comm]

/-! ## Built schemas -/

namespace Schema.BuiltFrom

variable {s : Schema} {r : Registry} {d : Definition}

/-- Composed fields have distinct names. -/
theorem nodup_fieldNames (h : s.BuiltFrom r) (owner : String) :
    ((Table.values (s.fieldTable owner)).map (·.name)).Nodup := by
  rw [h.map_name_fieldTable]
  exact (h.isTable_fieldTable owner).distinct

/-- The own fields of a type are composed as they are. -/
theorem mem_fieldTable_of_own (h : s.BuiltFrom r) (hd : d ∈ r.declarations.definitions) {f : Field}
    (hf : f ∈ d.fields) : f ∈ Table.values (s.fieldTable d.name) := by
  unfold Definition.fields at hf
  cases hb : d.body with
  | object o =>
    rw [hb] at hf
    have hget : Table.get? (s.fieldTable d.name) f.name = some f := by
      rw [h.fieldTable_object hd hb, h.coherent.get?_compose_fields hd hb,
        ObjectType.composedField?, Table.find?_of_mem (h.coherent.distinct_own hd hb) hf]
      rfl
    exact List.mem_map_of_mem (f := Prod.snd) (Table.mem_of_get?_eq_some hget)
  | interface i =>
    rw [hb] at hf
    rwa [h.fieldTable_interface hd hb, Field.values_table]
  | scalar | enum | inputObject | union => simp [hb] at hf

end Schema.BuiltFrom

/-! ## Runs -/

namespace Registry

variable {settings : Settings} {ops : List Operation} {s : Schema}

/-- Among distinct names the declared spellings do not meet: every declared field is a composed one,
and every declared input object is defined. -/
theorem spelledApart_of_distinctNames (hs : (run settings ops).build.outcome = .ok s)
    (h : s.DistinctNames) {e : Definition} (he : e ∈ declared settings ops) :
    e.SpelledApart settings.autoCamelize.truthy where
  arguments f hf := by
    have hb := builtFrom_run hs
    have hmem := final_mem hs he
    have hown : finalField settings.autoCamelize.truthy f ∈
        (e.final settings.autoCamelize.truthy).fields :=
      Definition.fields_final ▸ List.mem_map_of_mem hf
    rw [← map_name_arguments_finalField]
    exact h.arguments _ (hb.definitions ▸ hmem) _ (hb.mem_fieldTable_of_own hmem hown)
  inputs given hg := by
    have hmem := (builtFrom_run hs).definitions ▸ final_mem hs he
    have hinputs := h.inputs _ hmem _ (Definition.body_final_inputObject.2 ⟨given, hg, rfl⟩)
    simpa [Function.comp_def] using hinputs

/-- Where the declared spellings do not meet names are distinct: there are no other arguments and
input fields than those that are declared. -/
theorem distinctNames_of_spelledApart (hs : (run settings ops).build.outcome = .ok s)
    (h : ∀ e ∈ declared settings ops, e.SpelledApart settings.autoCamelize.truthy) :
    s.DistinctNames where
  fields d _ := (builtFrom_run hs).nodup_fieldNames d.name
  arguments d hd f hf := by
    have hb := builtFrom_run hs
    obtain ⟨_, hmem, hfe⟩ := hb.exists_declaring (hb.definitions ▸ hd) hf
    rcases scalar_or_declared hs hmem with hscalar | ⟨e, he, rfl⟩
    · simp [Definition.fields, hscalar] at hfe
    · rw [Definition.fields_final] at hfe
      obtain ⟨g, hg, rfl⟩ := List.mem_map.1 hfe
      rw [map_name_arguments_finalField]
      exact (h e he).arguments g hg
  inputs d hd inputs hi := by
    rcases scalar_or_declared hs ((builtFrom_run hs).definitions ▸ hd) with hscalar | ⟨e, he, rfl⟩
    · simp [hscalar] at hi
    · obtain ⟨given, hg, rfl⟩ := Definition.body_final_inputObject.1 hi
      simpa [Function.comp_def] using (h e he).inputs given hg

/-- In the schema that is built after a run, composed fields have distinct names. All names are
distinct exactly if the spellings of arguments and input fields do not meet in any type that the run
declares. -/
theorem run_distinctNames_iff (hs : (run settings ops).build.outcome = .ok s) :
    (∀ d ∈ s.definitions, ((Table.values (s.fieldTable d.name)).map (·.name)).Nodup) ∧
    (s.DistinctNames ↔
      ∀ e ∈ declared settings ops, e.SpelledApart settings.autoCamelize.truthy) :=
  ⟨fun d _ => (builtFrom_run hs).nodup_fieldNames d.name,
    fun h _ he => spelledApart_of_distinctNames hs h he, distinctNames_of_spelledApart hs⟩

/-- In the small run no spellings meet. -/
theorem sample_distinctNames :
    ∃ s, (run {} Sample.operations).build.outcome = .ok s ∧ s.DistinctNames := by
  obtain ⟨s, hs⟩ := Sample.exists_build
  refine ⟨s, hs, (run_distinctNames_iff hs).2.2 fun e he => ?_⟩
  have hdeclared : declared {} Sample.operations =
      [⟨"Node", none, .interface Sample.node⟩, ⟨"Query", none, .object Sample.query⟩] := rfl
  simp only [hdeclared, List.mem_cons, List.not_mem_nil, or_false] at he
  rcases he with rfl | rfl
  · constructor <;> simp [Definition.fields, Sample.node]
  · constructor <;> simp [Definition.fields, Sample.query]

/-! ## Spellings that meet -/

namespace Spellings

/-- A type whose field has two arguments that differ in their spelling only. -/
def query : Definition where
  name := "Query"
  body := .object {
    fields := [{
      name := "search", type := .named "String",
      arguments := [
        { name := "order_by", type := .named "String" },
        { name := "orderBy", type := .named "String" }] }] }

/-- An input object with two such fields. -/
def filter : Definition where
  name := "Filter"
  body := .inputObject [
    { name := "min_size", type := .named "Int" },
    { name := "minSize", type := .named "Int" }]

/-- Both are declared, and the object type is the query root. -/
def operations : List Operation := [
  .register query,
  .register filter,
  .declareRoots { query := some (some (.text "Query")) }]

theorem exists_build : ∃ s, (run {} operations).build.outcome = .ok s :=
  exists_build_of_violations rfl rfl

end Spellings

/-- A schema is built, and the names meet. -/
theorem spellings_meet :
    ∃ s, (run {} Spellings.operations).build.outcome = .ok s ∧
      (∃ d ∈ s.definitions, ∃ f ∈ Table.values (s.fieldTable d.name),
        f.arguments.map (·.name) = ["orderBy", "orderBy"]) ∧
      (∃ d ∈ s.definitions, ∃ inputs, d.body = .inputObject inputs ∧
        inputs.map (·.name) = ["minSize", "minSize"]) ∧
      ¬ s.DistinctNames := by
  obtain ⟨s, hs⟩ := Spellings.exists_build
  have hb := builtFrom_run hs
  have hquery : Spellings.query ∈ declared {} Spellings.operations := List.mem_cons_self
  have hfilter : Spellings.filter ∈ declared {} Spellings.operations :=
    List.mem_cons_of_mem _ List.mem_cons_self
  have hown : ∃ f ∈ (Spellings.query.final true).fields,
      f.arguments.map (·.name) = ["orderBy", "orderBy"] := ⟨_, List.mem_cons_self, rfl⟩
  obtain ⟨f, hf, hnames⟩ := hown
  refine ⟨s, hs, ⟨_, hb.definitions ▸ final_mem hs hquery, f,
    hb.mem_fieldTable_of_own (final_mem hs hquery) hf, hnames⟩,
    ⟨_, hb.definitions ▸ final_mem hs hfilter, _, rfl, rfl⟩, fun h => ?_⟩
  have hnodup := h.arguments _ (hb.definitions ▸ final_mem hs hquery) f
    (hb.mem_fieldTable_of_own (final_mem hs hquery) hf)
  rw [hnames] at hnodup
  exact absurd hnodup (by decide)

end Registry

end GraphSchema
