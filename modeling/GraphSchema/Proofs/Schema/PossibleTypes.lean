import GraphSchema.Proofs.Schema.Introspection
import GraphSchema.Proofs.Schema.Resolution
import GraphSchema.ResolveType

/-!
# Possible types

The type that a value of an interface or union is found to have is one of the possible types, and
every other answer of the resolvers fails in its own way.

## Main definitions

* `Answer.Names` — the type that an answer names.
* `Schema.told`, `Schema.Answers` — what one resolver says of a value, and what all of them come to.
* `Schema.Decides` — the outcome of type resolution, decided by the answer.

## Main statements

* `Schema.BuiltFrom.decides` — what an answer comes to.
* `Registry.run_resolveType` — type resolution after any run.
* `Registry.nameless_unresolvable` — an empty answer stands for no type, not even for one whose name
  is empty.
-/

namespace GraphSchema

/-! ## Answers -/

/-- An answer names a type: it is the name, or it has the name as an attribute, or it is the
definition. -/
inductive Answer.Names : Answer → String → Prop
  | text (name : String) : (Answer.value (.str name)).Names name
  | attribute {v : Value} {name : String} :
    v.attribute? "name" = some (.str name) → (Answer.value v).Names name
  | definition (name : String) : (Answer.definition name).Names name

theorem Spec.typeName_value {v : Value} {name : String} :
    (Spec.value v).typeName = .ok name ↔ v.attribute? "name" = some (.str name) := by
  simp only [typeName, name?]
  cases v.attribute? "name" with
  | none => simp
  | some w => cases w <;> simp

/-- What stands for a type has a name, or is refused for what it is. -/
theorem Spec.typeName_cases (spec : Spec) :
    (∃ name, spec.typeName = .ok name) ∨
      ∃ shown, spec.typeName = .error (.notATypeName shown) := by
  unfold typeName
  split
  · exact .inl ⟨_, rfl⟩
  · split
    · exact .inl ⟨_, rfl⟩
    · exact .inr ⟨_, rfl⟩

/-- Texts have no attribute of that name. -/
theorem Value.attribute?_str (text : String) : (Value.str text).attribute? "name" = none := by
  simp only [attribute?, toInt?]
  exact if_neg (by simp [operations])

namespace Answer

variable {a : Answer} {name name' : String}

/-- The name of the type in an answer is found exactly if it names one. -/
theorem names_iff : a.Names name ↔ a.typeName = .ok name := by
  constructor
  · rintro (_ | @⟨v, _, hv⟩ | _)
    · rfl
    · cases v
      case str text => rw [Value.attribute?_str] at hv; cases hv
      all_goals exact Spec.typeName_value.2 hv
    · rfl
  · intro h
    cases a with
    | definition n => exact Except.ok.inj h ▸ .definition n
    | value v =>
      cases v
      case str text => exact Except.ok.inj h ▸ .text text
      all_goals exact .attribute (Spec.typeName_value.1 h)

theorem Names.unique (h : a.Names name) (h' : a.Names name') : name = name' :=
  Except.ok.inj ((names_iff.1 h).symm.trans (names_iff.1 h'))

/-- An answer that names no type is of the wrong class. -/
theorem typeName_of_not_names (h : ∀ name, ¬ a.Names name) :
    ∃ shown, a.typeName = .error (.notATypeName shown) := by
  simp only [names_iff] at h
  cases a with
  | definition n => exact absurd rfl (h n)
  | value v =>
    rcases (Spec.ofValue v).typeName_cases with ⟨n, hn⟩ | hrefused
    · exact absurd hn (h n)
    · exact hrefused

end Answer

/-! ## What the resolvers come to -/

/-- The resolver that an interface or union comes with. -/
def Definition.resolver? (d : Definition) : Option ResolveType :=
  match d.body with
  | .interface i => i.resolveType
  | .union u => u.resolveType
  | _ => none

namespace Schema

/-- What a resolver says of a value: nothing if there is none. -/
def told (s : Schema) (f : Option ResolveType) (v : Value) (ctx : Option Context) :
    Except Error Answer :=
  f.elim (.ok (.value .null)) fun f => s.ask f v ctx

/-- What the resolvers of an abstract type come to: what its own resolver says or fails with, and if
that says something empty, what the resolver of the schema comes to. -/
inductive Answers (s : Schema) (own : Option ResolveType) (v : Value) (ctx : Option Context) :
    Except Error Answer → Prop
  | own {a : Answer} : s.told own v ctx = .ok a → a.truthy = true → s.Answers own v ctx (.ok a)
  | failure {e : Error} : s.told own v ctx = .error e → s.Answers own v ctx (.error e)
  | further {a : Answer} : s.told own v ctx = .ok a → a.truthy = false →
    s.Answers own v ctx (s.told s.roots.resolveType v ctx)

variable {s : Schema} {own : Option ResolveType} {v : Value} {ctx : Option Context}
  {abstract name : String} {a : Answer} {r r' : Except Error Answer} {d : Definition}
  {declared : Spec}

theorem exists_answers (s : Schema) (own : Option ResolveType) (v : Value)
    (ctx : Option Context) : ∃ r, s.Answers own v ctx r := by
  cases h : s.told own v ctx with
  | error e => exact ⟨_, .failure h⟩
  | ok a =>
    cases ha : a.truthy with
    | true => exact ⟨_, .own h ha⟩
    | false => exact ⟨_, .further h ha⟩

/-- The resolvers come to one thing at most. -/
theorem Answers.unique (h : s.Answers own v ctx r) (h' : s.Answers own v ctx r') : r = r' := by
  cases h <;> cases h' <;> simp_all

theorem answer_eq (s : Schema) (own : Option ResolveType) (v : Value) (ctx : Option Context) :
    s.answer own v ctx = s.told own v ctx >>= fun first =>
      if first.truthy then .ok first
      else s.roots.resolveType.elim (.ok first) fun f => s.ask f v ctx := by
  unfold answer told
  cases own <;> cases s.roots.resolveType <;> rfl

theorem conclude_of_empty (h : a.truthy = false) :
    s.conclude abstract a = .error (.unresolvable abstract) := by
  rw [Schema.conclude, h]
  rfl

theorem conclude_of_typeName_error {e : Error} (h : a.truthy = true) (he : a.typeName = .error e) :
    s.conclude abstract a = .error e := by
  rw [Schema.conclude, h, he]
  rfl

/-- Without a resolver of the schema an empty answer stands, and is as good as none. -/
theorem Answers.conclude (h : s.Answers own v ctx r) :
    s.answer own v ctx >>= s.conclude abstract = r >>= s.conclude abstract := by
  rw [answer_eq]
  cases h with
  | own h ha => rw [h]; simp [bind, Except.bind, ha]
  | failure h => rw [h]; rfl
  | further h ha =>
    rw [h, told]
    cases s.roots.resolveType with
    | some f => simp [bind, Except.bind, ha]
    | none =>
      simp only [bind, Except.bind, Option.elim_none, ite_self]
      rw [conclude_of_empty ha, conclude_of_empty rfl]

/-- Type resolution for an interface or union of the schema. -/
theorem resolveType_of_answers (hname : declared.typeName = .ok d.name)
    (hd : s.getType d.name = .ok d) (hk : d.kind = .interface ∨ d.kind = .union)
    (h : s.Answers d.resolver? v ctx r) :
    s.resolveType v declared ctx = r >>= s.conclude d.name := by
  rw [resolveType_of_getType hname hd, ← h.conclude]
  unfold Definition.resolver?
  cases hb : d.body with
  | interface i => rfl
  | union u => rfl
  | scalar | enum _ | inputObject _ | object _ =>
    simp [Definition.kind, hb, TypeBody.kind] at hk

/-! ## What an answer comes to -/

/-- The outcome of type resolution for an abstract type, decided by the answer: one that is not
empty and names a possible type gives this, and any other fails in its own way. -/
structure Decides (s : Schema) (abstract : String) (a : Answer)
    (outcome : Except Error Definition) : Prop where
  returns : ∀ t, outcome = .ok t ↔
    a.truthy = true ∧ a.Names t.name ∧ t ∈ s.possibleTypes abstract
  registered : ∀ t, outcome = .ok t → s.getType t.name = .ok t ∧ t.kind = .object
  unresolvable : outcome.mapError Error.category = .error .unresolvable ↔ a.truthy = false
  unknown : outcome.mapError Error.category = .error .unknownType ↔
    a.truthy = true ∧ ∃ name, a.Names name ∧ s.isReachable name = false
  -- whether the wording advises to add the type to the orphans
  advised : ∀ name place advice, outcome = .error (.unknownType name place advice) →
    a.Names name ∧ place = some (.resolution abstract) ∧
      (advice = true ↔ ∃ d ∈ s.definitions, d.name = name)
  impossible : outcome.mapError Error.category = .error .impossible ↔
    a.truthy = true ∧ ∃ t ∈ s.reachableTypes, a.Names t.name ∧ t ∉ s.possibleTypes abstract
  mistyped : outcome.mapError Error.category = .error .badType ↔
    a.truthy = true ∧ ∀ name, ¬ a.Names name

namespace BuiltFrom

variable {r : Registry} {t : Definition}

theorem mem_possibleTypes : t ∈ s.possibleTypes abstract ↔
    t ∈ s.reachableTypes ∧ s.isPossible abstract t.name = true :=
  List.mem_filter

/-- A possible type is an object type. -/
theorem getType_of_possible (h : s.BuiltFrom r) (ht : t ∈ s.possibleTypes abstract) :
    s.getType t.name = .ok t ∧ t.kind = .object := by
  obtain ⟨hreachable, hp⟩ := mem_possibleTypes.1 ht
  obtain ⟨hmem, hr⟩ := h.mem_reachableTypes.1 hreachable
  refine ⟨h.getType_of_reachable hmem hr, ?_⟩
  have hfind : s.find t.name = some t := h.find_eq.trans (h.coherent.find_of_mem hmem)
  rw [isPossible, hfind] at hp
  unfold Definition.kind
  cases hb : t.body <;> simp_all [TypeBody.kind]

/-- A visible member of a visible union is a possible type. -/
theorem possible_of_member (h : s.BuiltFrom r) {o : ObjectType} {u : UnionType}
    (ht : t ∈ s.reachableTypes) (ho : t.body = .object o) (hd : d ∈ s.reachableTypes)
    (hu : d.body = .union u) (hm : t.name ∈ u.members) : t ∈ s.possibleTypes d.name := by
  obtain ⟨htmem, hr⟩ := h.mem_reachableTypes.1 ht
  have hfind {e : Definition} (he : e ∈ r.declarations.definitions) : s.find e.name = some e :=
    h.find_eq.trans (h.coherent.find_of_mem he)
  refine mem_possibleTypes.2 ⟨ht, ?_⟩
  rw [isPossible, hr, hfind htmem, hfind (h.mem_reachableTypes.1 hd).1, Option.map_some,
    Option.map_some, ho, hu]
  simpa using hm

theorem decides_of_empty (ha : a.truthy = false) :
    s.Decides abstract a (.error (.unresolvable abstract)) := by
  constructor <;> simp [ha, Except.mapError, Error.category]

theorem decides_of_unnamed (ha : a.truthy = true) (hnames : ∀ name, ¬ a.Names name)
    (shown : String) : s.Decides abstract a (.error (.notATypeName shown)) := by
  constructor <;> simp [ha, hnames, Except.mapError, Error.category]

/-- A name that is not reachable is unknown, even if it is declared. -/
theorem decides_of_unreachable (h : s.BuiltFrom r) (ha : a.truthy = true)
    (hnames : ∀ name', a.Names name' ↔ name' = name) (hr : s.isReachable name = false) :
    s.Decides abstract a
      (.error (.unknownType name (some (.resolution abstract)) (s.find name).isSome)) := by
  have hhidden : ∀ t ∈ s.reachableTypes, t.name ≠ name := by
    rintro t ht rfl
    exact Bool.false_ne_true (hr.symm.trans (h.mem_reachableTypes.1 ht).2)
  constructor
  case returns =>
    simp only [reduceCtorEq, hnames, false_iff]
    rintro t ⟨-, hn, ht⟩
    exact hhidden t (mem_possibleTypes.1 ht).1 hn
  case advised =>
    rintro _ _ _ ⟨⟩
    refine ⟨(hnames _).2 rfl, rfl, ?_⟩
    simp [find, findDefinition]
  case impossible =>
    simp only [Except.mapError, Error.category, Except.error.injEq, reduceCtorEq, hnames, false_iff]
    rintro ⟨-, t, ht, hn, -⟩
    exact hhidden t ht hn
  all_goals simp [ha, hnames, hr, Except.mapError, Error.category]

/-- A visible type is given if it is a possible one, and is impossible otherwise. -/
theorem decides_of_visible (h : s.BuiltFrom r) (ha : a.truthy = true) {t : Definition}
    (ht : t ∈ s.reachableTypes) (hnames : ∀ name, a.Names name ↔ name = t.name) :
    s.Decides abstract a
      (if s.isPossible abstract t.name then .ok t else .error (.impossible abstract t.name)) := by
  obtain ⟨hmem, hr⟩ := h.mem_reachableTypes.1 ht
  have hunique : ∀ t' ∈ s.reachableTypes, t'.name = t.name → t' = t := fun t' ht' hn =>
    h.coherent.eq_of_name_eq hmem (h.mem_reachableTypes.1 ht').1 hn
  by_cases hpossible : t ∈ s.possibleTypes abstract
  · rw [if_pos (mem_possibleTypes.1 hpossible).2]
    constructor
    case returns =>
      simp only [ha, hnames, true_and, Except.ok.injEq]
      refine fun t' => ⟨?_, fun ⟨hn, ht'⟩ => (hunique t' (mem_possibleTypes.1 ht').1 hn).symm⟩
      rintro rfl
      exact ⟨rfl, hpossible⟩
    case registered =>
      rintro _ ⟨⟩
      exact h.getType_of_possible hpossible
    case impossible =>
      simp only [Except.mapError, reduceCtorEq, hnames, false_iff]
      rintro ⟨-, t', ht', hn, hnot⟩
      exact hnot (hunique t' ht' hn ▸ hpossible)
    all_goals simp [ha, hnames, hr, Except.mapError]
  · rw [if_neg fun hp => hpossible (mem_possibleTypes.2 ⟨ht, hp⟩)]
    constructor
    case returns =>
      simp only [reduceCtorEq, hnames, false_iff]
      rintro t' ⟨-, hn, ht'⟩
      exact hpossible (hunique t' (mem_possibleTypes.1 ht').1 hn ▸ ht')
    case impossible =>
      simp only [Except.mapError, Error.category, ha, hnames, true_and, true_iff]
      exact ⟨t, ht, rfl, hpossible⟩
    all_goals simp [ha, hnames, hr, Except.mapError, Error.category]

/-- What an answer comes to. -/
theorem decides (h : s.BuiltFrom r) (abstract : String) (a : Answer) :
    s.Decides abstract a (s.conclude abstract a) := by
  cases ha : a.truthy with
  | false =>
    rw [conclude_of_empty ha]
    exact decides_of_empty ha
  | true =>
    by_cases hnames : ∃ name, a.Names name
    · obtain ⟨name, hn⟩ := hnames
      have hnames (name' : String) : a.Names name' ↔ name' = name :=
        ⟨fun h' => h'.unique hn, fun h' => h' ▸ hn⟩
      rw [conclude_of_typeName ha (Answer.names_iff.1 hn)]
      cases hr : s.isReachable name with
      | false => exact h.decides_of_unreachable ha hnames hr
      | true =>
        obtain ⟨t, ht, rfl⟩ := h.exists_of_reachable hr
        rw [if_pos rfl, h.definition_of_mem ht]
        exact h.decides_of_visible ha (h.mem_reachableTypes.2 ⟨ht, hr⟩) hnames
    · obtain ⟨shown, hshown⟩ := Answer.typeName_of_not_names (not_exists.1 hnames)
      rw [conclude_of_typeName_error ha hshown]
      exact decides_of_unnamed ha (not_exists.1 hnames) shown

end BuiltFrom

end Schema

/-! ## Runs -/

namespace Registry

/-- For every visible interface or union of a schema that is built after a run, the resolvers come
to one thing. If that is a failure, type resolution fails with it, and otherwise the answer decides:
a type is found exactly if the answer is not empty, names the type, and the type is a possible one,
and every other answer fails in its own way. -/
theorem run_resolveType {settings : Settings} {ops : List Operation} {s : Schema} {d : Definition}
    {declared : Spec} (hs : (run settings ops).build.outcome = .ok s) (hd : d ∈ s.reachableTypes)
    (hk : d.kind = .interface ∨ d.kind = .union) (hname : declared.typeName = .ok d.name)
    (v : Value) (ctx : Option Context) :
    (∃! r, s.Answers d.resolver? v ctx r) ∧
    (∀ e, s.Answers d.resolver? v ctx (.error e) → s.resolveType v declared ctx = .error e) ∧
    ∀ a, s.Answers d.resolver? v ctx (.ok a) →
      s.Decides d.name a (s.resolveType v declared ctx) := by
  have hb := builtFrom_run hs
  obtain ⟨hmem, hr⟩ := hb.mem_reachableTypes.1 hd
  have hget := hb.getType_of_reachable hmem hr
  obtain ⟨r, hr⟩ := s.exists_answers d.resolver? v ctx
  refine ⟨⟨r, hr, fun _ h => h.unique hr⟩, fun e h => ?_, fun a h => ?_⟩
  · rw [Schema.resolveType_of_answers hname hget hk h]
    rfl
  · rw [Schema.resolveType_of_answers hname hget hk h]
    exact hb.decides d.name a

/-! ## A type without a name -/

namespace Nameless

/-- A union with a member whose name is empty. Its own resolver says nothing. -/
def item : Definition where
  name := "Item"
  body := .union { members := ["", "Book"], resolveType := some (.always (.ok .null)) }

theorem typeName_item : (Spec.text "Item").typeName = .ok item.name := rfl

/-- A member of the union. -/
def member (name : String) : Definition where
  name
  body := .object {}

/-- A type with a field of the union. -/
def query : Definition where
  name := "Query"
  body := .object { fields := [{ name := "item", type := .named "Item" }] }

/-- They are declared, with a resolver of the schema. -/
def operations (f : ResolveType) : List Operation := [
  .register (member ""),
  .register (member "Book"),
  .register item,
  .register query,
  .declareRoots { query := some (some (.text "Query")), resolveType := some f }]

variable {f : ResolveType} {s : Schema} {name : String}

theorem exists_build (f : ResolveType) : ∃ s, (run {} (operations f)).build.outcome = .ok s :=
  exists_build_of_violations rfl rfl

theorem roots_eq (hs : (run {} (operations f)).build.outcome = .ok s) :
    s.roots = { query := some "Query", resolveType := some f } :=
  (Option.some.inj (builtFrom_run hs).roots).symm

/-- The union is visible by way of the field. -/
theorem item_visible (hs : (run {} (operations f)).build.outcome = .ok s) :
    item ∈ s.reachableTypes := by
  have hb := builtFrom_run hs
  have hquery : query ∈ (run {} (operations f)).declarations.definitions :=
    List.mem_of_getElem? (i := 8) rfl
  have hitem : item ∈ (run {} (operations f)).declarations.definitions :=
    List.mem_of_getElem? (i := 7) rfl
  have hroot : s.isReachable "Query" = true :=
    hb.isReachable_of_start hquery (by rw [roots_eq hs]; exact List.mem_cons_self)
  have htable : Table.values (s.fieldTable "Query") = query.fields :=
    congrArg Table.values (hb.fieldTable "Query")
  have hfield :
      { name := "item", type := .named "Item" } ∈ Table.values (s.fieldTable "Query") := by
    rw [htable]
    exact List.mem_cons_self
  have hreach : s.isReachable "Item" = true :=
    hb.isReachable_of_refers hquery hitem hroot (.fieldType rfl hfield)
  exact hb.mem_reachableTypes.2 ⟨hitem, hreach⟩

/-- Both members are possible types. -/
theorem possible (hs : (run {} (operations f)).build.outcome = .ok s)
    (hn : name = "" ∨ name = "Book") : member name ∈ s.possibleTypes "Item" := by
  have hb := builtFrom_run hs
  have hmem : member name ∈ (run {} (operations f)).declarations.definitions := by
    rcases hn with rfl | rfl
    · exact List.mem_of_getElem? (i := 5) rfl
    · exact List.mem_of_getElem? (i := 6) rfl
  have hlisted : name ∈ ["", "Book"] := by simpa using hn
  obtain ⟨hitem, hr⟩ := hb.mem_reachableTypes.1 (item_visible hs)
  have hreach : s.isReachable name = true :=
    hb.isReachable_of_refers hitem hmem hr (.member rfl hlisted)
  exact hb.possible_of_member (hb.mem_reachableTypes.2 ⟨hmem, hreach⟩) rfl (item_visible hs) rfl
    hlisted

/-- As the union says nothing, the resolver of the schema decides. -/
theorem answers (hs : (run {} (operations f)).build.outcome = .ok s) (v : Value) :
    s.Answers item.resolver? v none (s.ask f v none) := by
  have hfurther : s.Answers item.resolver? v none (s.told s.roots.resolveType v none) :=
    .further rfl rfl
  rwa [roots_eq hs] at hfurther

end Nameless

/-- A definition that the resolver of the schema gives is found. -/
theorem book_resolveType :
    ∃ s, (run {} (Nameless.operations (.definition "Book"))).build.outcome = .ok s ∧
      ∀ v, s.resolveType v (.text "Item") none = .ok (Nameless.member "Book") := by
  obtain ⟨s, hs⟩ := Nameless.exists_build (.definition "Book")
  refine ⟨s, hs, fun v => ?_⟩
  have hpossible := Nameless.possible hs (.inr rfl)
  obtain ⟨-, -, hdecides⟩ :=
    run_resolveType hs (Nameless.item_visible hs) (.inr rfl) Nameless.typeName_item v none
  have hdef : s.definition (some "Book") = .ok (Nameless.member "Book") :=
    (builtFrom_run hs).definition_of_mem
      ((builtFrom_run hs).mem_reachableTypes.1 (Schema.BuiltFrom.mem_possibleTypes.1 hpossible).1).1
  have hask : s.ask (.definition "Book") v none = .ok (.definition "Book") := by
    change (fun _ => _) <$> s.definition (some "Book") = _
    rw [hdef]
    rfl
  have hbook := hdecides (.definition "Book") (hask ▸ Nameless.answers hs v)
  exact (hbook.returns _).2 ⟨rfl, .definition "Book", hpossible⟩

/-- An empty text is the name of a possible type, but it is no answer. -/
theorem nameless_unresolvable :
    ∃ s, (run {} (Nameless.operations (.always (.ok (.str ""))))).build.outcome = .ok s ∧
      Nameless.item ∈ s.reachableTypes ∧ ∀ v,
      s.Answers Nameless.item.resolver? v none (.ok (.value (.str ""))) ∧
      (Answer.value (.str "")).Names (Nameless.member "").name ∧
      Nameless.member "" ∈ s.possibleTypes "Item" ∧
      s.resolveType v (.text "Item") none = .error (.unresolvable "Item") := by
  obtain ⟨s, hs⟩ := Nameless.exists_build (.always (.ok (.str "")))
  refine ⟨s, hs, Nameless.item_visible hs, fun v => ?_⟩
  have hanswers : s.Answers Nameless.item.resolver? v none (.ok (.value (.str ""))) :=
    Nameless.answers hs v
  refine ⟨hanswers, .text "", Nameless.possible hs (.inl rfl), ?_⟩
  obtain ⟨hmem, hr⟩ := (builtFrom_run hs).mem_reachableTypes.1 (Nameless.item_visible hs)
  have hget := (builtFrom_run hs).getType_of_reachable hmem hr
  rw [Schema.resolveType_of_answers Nameless.typeName_item hget (.inr rfl) hanswers]
  change s.conclude "Item" (.value (.str "")) = _
  exact Schema.conclude_of_empty rfl

end Registry

end GraphSchema
