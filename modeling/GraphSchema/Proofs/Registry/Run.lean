import GraphSchema.Proofs.Registry.Assembly
import GraphSchema.Proofs.Traversal

/-!
# Runs of a registry

Declarations and builds in any order, from a fresh registry on. What one operation keeps holds
after every run.

## Main definitions

* `Registry.Operation`, `Registry.perform`, `Registry.run` — operations and runs.
* `Registry.sifted`, `Registry.accepted` — what is taken of fields and of a new type, and what is
  wrong with them.
* `Registry.Registered` — the store after the declaration of a type.
* `Registry.Sound` — the invariant of runs: a registry is open or closed.
* `Registry.Operation.Gives` — whether an operation declares certain roots.
* `RootSpecs.NamesQuery` — whether the declared roots have a query type.

## Main statements

* `Registry.register_of_open` — what the declaration of a type does to an open registry.
* `Registry.Sound.perform` — one operation keeps the invariant.
* `Registry.sound_run` — it holds after every run.
* `Registry.builtFrom_run` — what is built after any run is built from its declarations.
* `Registry.roots_run` — roots are declared by an operation of the run.
-/

namespace GraphSchema

namespace Registry

/-- What is done to a registry until its schema is used. -/
inductive Operation where
  | register (d : Definition)
  | declareRoots (given : RootSpecs)
  | build

/-- The registry after an operation. One that is refused changes nothing. -/
def perform (r : Registry) : Operation → Registry
  | .register d => match r.register d with
    | .ok (_, r') => r'
    | .error _ => r
  | .declareRoots given => match r.declareRoots given with
    | .ok (_, r') => r'
    | .error _ => r
  | .build => r.build.registry

/-- The registry after operations in order. -/
def run (settings : Settings) (ops : List Operation) : Registry :=
  ops.foldl perform { settings }

/-! ## The intake of fields -/

/-- Takes the first field of a name. Any further one is a problem. -/
def sift (owner : String) (layer : Layer) (x : List Field × List Error) (f : Field) :
    List Field × List Error :=
  if f.name ∈ x.1.map (·.name) then (x.1, x.2 ++ [.duplicateField owner f.name layer])
  else (x.1 ++ [f], x.2)

/-- The fields that are taken of those of an owner, and what is wrong with the others. -/
def sifted (owner : String) (layer : Layer) (fields : List Field) : List Field × List Error :=
  fields.foldl (sift owner layer) ([], [])

/-- Fields on their way into the open store of an owner without fields: the store holds those
that have been taken, each name once. -/
structure Intake.Consistent (x : Intake) (owner : String) (layer : Layer) : Prop where
  frozen : x.store.frozen = false
  declared : x.store.declared owner layer = Field.table x.taken
  distinct : (x.taken.map (·.name)).Nodup

/-- A field is taken or skipped, and no other table changes. -/
theorem Intake.Consistent.add {x : Intake} {owner : String} {layer : Layer}
    (h : x.Consistent owner layer) (f : Field) :
    ∃ x' : Intake, x.add owner layer f = .ok x' ∧ x'.Consistent owner layer ∧
      (x'.taken, x'.problems) = sift owner layer (x.taken, x.problems) f ∧
      ∀ o l, (owner, layer) ≠ (o, l) → x'.store.declared o l = x.store.declared o l := by
  unfold Intake.add sift
  rcases FieldStore.define_of_open h.frozen owner f layer with ⟨hn, hd⟩ | ⟨hn, store, hd⟩
  · rw [h.declared, Field.keys_table] at hn
    rw [hd, if_pos hn]
    exact ⟨_, rfl, ⟨h.frozen, h.declared, h.distinct⟩, rfl, fun _ _ _ => rfl⟩
  · rw [h.declared, Field.keys_table] at hn
    rw [hd, if_neg hn]
    refine ⟨_, rfl, ⟨FieldStore.frozen_define hd, ?_, ?_⟩, rfl, fun o l ho => ?_⟩
    · rw [FieldStore.declared_define hd, if_pos rfl, h.declared, Field.table, Field.table,
        Field.table, List.map_append]
    · rw [List.map_append]
      exact Table.nodup_concat h.distinct hn
    · rw [FieldStore.declared_define hd, if_neg ho]

theorem Intake.Consistent.foldlM {fields : List Field} {owner : String} {layer : Layer} :
    ∀ {x : Intake}, x.Consistent owner layer →
      ∃ x' : Intake, fields.foldlM (fun x f => x.add owner layer f) x = Except.ok x' ∧
        x'.Consistent owner layer ∧
        (x'.taken, x'.problems) = fields.foldl (sift owner layer) (x.taken, x.problems) ∧
        ∀ o l, (owner, layer) ≠ (o, l) → x'.store.declared o l = x.store.declared o l := by
  induction fields with
  | nil => exact fun {x} h => ⟨x, rfl, h, rfl, fun _ _ _ => rfl⟩
  | cons f fields ih =>
    intro x h
    obtain ⟨y, hy, hcy, hsy, hey⟩ := h.add f
    obtain ⟨z, hz, hcz, hsz, hez⟩ := ih hcy
    refine ⟨z, ?_, hcz, ?_, fun o l ho => (hez o l ho).trans (hey o l ho)⟩
    · rw [List.foldlM_cons, hy]
      exact hz
    · rw [hsz, hsy, List.foldl_cons]

/-- The fields of an owner without fields are sifted on their way into an open store. -/
theorem intake_of_open {store : FieldStore} {owner : String} {layer : Layer}
    (hopen : store.frozen = false) (hempty : store.declared owner layer = [])
    (fields : List Field) :
    ∃ x : Intake, intake store owner layer fields = .ok x ∧ x.Consistent owner layer ∧
      (x.taken, x.problems) = sifted owner layer fields ∧
      ∀ o l, (owner, layer) ≠ (o, l) → x.store.declared o l = store.declared o l :=
  Intake.Consistent.foldlM (x := { store }) ⟨hopen, hempty, List.nodup_nil⟩

/-! ## The declaration of a type -/

/-- What is registered of a new type, and what is wrong with its fields. -/
def accepted (camelize : Bool) (d : Definition) : Definition × List Error :=
  match d.body with
  | .interface i =>
    let (fields, problems) := sifted d.name .interface (i.fields.map (finalField camelize))
    ({ d with
      body := .interface { i with
        fields
        behaviors := finalBehaviors camelize i.fields i.behaviors } }, problems)
  | .object o =>
    let (fields, problems) := sifted d.name .own (o.fields.map (finalField camelize))
    ({ d with
      body := .object { o with
        fields
        behaviors := finalBehaviors camelize o.fields o.behaviors } }, problems)
  | .inputObject inputs =>
    ({ d with body := .inputObject (if camelize then inputs.map Argument.camelized else inputs) },
      [])
  | _ => (d, [])

@[simp] theorem name_accepted {camelize : Bool} {d : Definition} :
    (accepted camelize d).1.name = d.name := by
  unfold accepted
  cases d.body <;> rfl

/-- A store that has taken in the fields of a new definition. -/
structure Registered (ds : Declarations) (d : Definition) (store : FieldStore) : Prop where
  fresh : ds.find d.name = none
  frozen : store.frozen = false
  declared : ∀ layer, layer ≠ .effective →
    store.declared d.name layer = Field.table (d.layerFields layer)
  others : ∀ owner layer, owner ≠ d.name ∨ layer = .effective →
    store.declared owner layer = ds.fields.declared owner layer
  distinctFields : ∀ layer, ((d.layerFields layer).map (·.name)).Nodup
  distinctBehaviors : (Table.keys d.behaviors).Nodup

variable {ds : Declarations} {d : Definition} {store : FieldStore}

/-- A definition whose fields all stand in one layer, and that is the one that took them in. -/
theorem Intake.Consistent.registered {x : Intake} {layer : Layer}
    (hx : x.Consistent d.name layer) (hfresh : ds.find d.name = none)
    (hempty : ∀ l, l ≠ .effective → ds.fields.declared d.name l = [])
    (hothers : ∀ o l, (d.name, layer) ≠ (o, l) →
      x.store.declared o l = ds.fields.declared o l)
    (hlayer : layer ≠ .effective) (htaken : d.layerFields layer = x.taken)
    (hrest : ∀ l, l ≠ layer → d.layerFields l = [])
    (hbehaviors : (Table.keys d.behaviors).Nodup) : Registered ds d x.store where
  fresh := hfresh
  frozen := hx.frozen
  declared l hl := by
    by_cases h : l = layer
    · subst h
      rw [hx.declared, htaken]
    · rw [hothers _ _ fun he => h (Prod.mk.inj he).2.symm, hempty l hl, hrest l h]
      rfl
  others o l h := by
    refine hothers o l fun he => ?_
    obtain ⟨rfl, rfl⟩ := Prod.mk.inj he
    exact h.elim (· rfl) hlayer
  distinctFields l := by
    by_cases h : l = layer
    · subst h
      exact htaken ▸ hx.distinct
    · rw [hrest l h]
      exact List.nodup_nil
  distinctBehaviors := hbehaviors

/-- A definition without fields leaves the store as it is. -/
theorem registered_of_noFields (hfresh : ds.find d.name = none)
    (hopen : ds.fields.frozen = false)
    (hempty : ∀ l, l ≠ .effective → ds.fields.declared d.name l = [])
    (hfields : ∀ l, d.layerFields l = []) (hbehaviors : d.behaviors = []) :
    Registered ds d ds.fields where
  fresh := hfresh
  frozen := hopen
  declared l hl := by
    rw [hempty l hl, hfields]
    rfl
  others _ _ _ := rfl
  distinctFields l := by
    rw [hfields]
    exact List.nodup_nil
  distinctBehaviors := by
    rw [hbehaviors]
    exact List.nodup_nil

/-- What the declaration of a type does to an open registry: a second type of a name is a
problem, and of any other everything is added that is accepted. -/
theorem register_of_open {r : Registry} (h : r.Open) (d : Definition) :
    ((r.declarations.find d.name).isSome ∧
      r.register d = .ok (d, { r with problems := r.problems ++ [.duplicateType d.name] })) ∨
    ∃ d' store problems, accepted r.camelizes d = (d', problems) ∧
      r.register d = .ok (d', r.add d' store problems) ∧
      Registered r.declarations d' store := by
  by_cases hd : (r.declarations.find d.name).isSome = true
  · refine .inl ⟨hd, ?_⟩
    simp [register, h.schema, hd]
  · have hfresh : r.declarations.find d.name = none := by simpa using hd
    have hempty (layer : Layer) (hl : layer ≠ .effective) :
        r.declarations.fields.declared d.name layer = [] := by
      rw [h.coherent.declared _ _ hl, hfresh]
      rfl
    obtain ⟨name, description, body⟩ := d
    unfold register
    rw [h.schema, if_neg (by simp), if_neg hd]
    refine .inr ?_
    cases body with
    | interface i =>
      obtain ⟨x, hx, hc, hsifted, hothers⟩ := intake_of_open h.frozen (hempty .interface (by decide))
        (i.fields.map (finalField r.camelizes))
      dsimp only at hx ⊢
      rw [hx]
      refine ⟨_, _, _, by simp only [accepted, ← hsifted], rfl, ?_⟩
      refine Intake.Consistent.registered hc hfresh hempty hothers (by decide) rfl ?_
        Table.nodup_keys_ofList
      intro l hl
      cases l <;> first | rfl | exact absurd rfl hl
    | object o =>
      obtain ⟨x, hx, hc, hsifted, hothers⟩ := intake_of_open h.frozen (hempty .own (by decide))
        (o.fields.map (finalField r.camelizes))
      dsimp only at hx ⊢
      rw [hx]
      refine ⟨_, _, _, by simp only [accepted, ← hsifted], rfl, ?_⟩
      refine Intake.Consistent.registered hc hfresh hempty hothers (by decide) rfl ?_
        Table.nodup_keys_ofList
      intro l hl
      cases l <;> first | rfl | exact absurd rfl hl
    | inputObject inputs =>
      refine ⟨_, _, _, rfl, rfl, registered_of_noFields hfresh h.frozen hempty ?_ rfl⟩
      intro l
      cases l <;> rfl
    | scalar | enum | union =>
      refine ⟨_, _, _, rfl, rfl, registered_of_noFields hfresh h.frozen hempty ?_ rfl⟩
      intro l
      cases l <;> rfl

/-- A definition that has been taken in keeps the registry open. -/
theorem Open.add {r : Registry} (h : r.Open) (hd : Registered r.declarations d store)
    (problems : List Error) : (r.add d store problems).Open where
  schema := h.schema
  coherent := {
    distinct := by
      change ((r.declarations.definitions ++ [d]).map (·.name)).Nodup
      rw [List.map_append]
      exact Table.nodup_concat h.coherent.distinct (findDefinition_eq_none_iff.1 hd.fresh)
    distinctFields := by
      intro e he
      rcases List.mem_append.1 he with he | he
      · exact h.coherent.distinctFields e he
      · exact List.mem_singleton.1 he ▸ hd.distinctFields
    distinctBehaviors := by
      intro e he
      rcases List.mem_append.1 he with he | he
      · exact h.coherent.distinctBehaviors e he
      · exact List.mem_singleton.1 he ▸ hd.distinctBehaviors
    declared := by
      intro owner layer hl
      have hfind : (r.add d store problems).declarations.find owner =
          (r.declarations.find owner).or (if d.name = owner then some d else none) := by
        change List.find? _ (r.declarations.definitions ++ [d]) = _
        rw [List.find?_append, List.find?_singleton]
        simp only [beq_iff_eq]
        rfl
      rw [hfind]
      by_cases ho : d.name = owner
      · subst ho
        rw [hd.fresh, if_pos rfl]
        exact hd.declared layer hl
      · rw [if_neg ho, Option.or_none, ← h.coherent.declared owner layer hl]
        exact hd.others owner layer (.inl (Ne.symm ho)) }
  frozen := hd.frozen
  effective owner := (hd.others owner .effective (.inr rfl)).trans (h.effective owner)

/-! ## The declaration of roots -/

variable {r : Registry}

/-- How the declaration of roots ends: it is refused, or the roots as given are set in a registry
without a schema. -/
theorem declareRoots_cases (r : Registry) (given : RootSpecs) :
    (∃ e, r.declareRoots given = .error e) ∨
    ∃ query roots, r.declareRoots given = .ok (roots, r.setRoots roots) ∧ r.schema = none ∧
      given.query = some query ∧ given.toRoots query = .ok roots := by
  unfold declareRoots
  cases hq : given.query with
  | none => exact .inl ⟨_, rfl⟩
  | some query =>
    cases hs : r.schema with
    | some s => exact .inl ⟨_, rfl⟩
    | none =>
      cases hroots : given.toRoots query with
      | error e => exact .inl ⟨e, by simp only [hroots]; rfl⟩
      | ok roots => exact .inr ⟨query, roots, by simp only [hroots]; rfl, rfl, rfl, hroots⟩

@[simp] theorem schema_setRoots {roots : Roots} : (r.setRoots roots).schema = r.schema := by
  unfold setRoots
  cases r.roots <;> rfl

@[simp] theorem declarations_setRoots {roots : Roots} :
    (r.setRoots roots).declarations = r.declarations := by
  unfold setRoots
  cases r.roots <;> rfl

theorem Open.setRoots (h : r.Open) (roots : Roots) : (r.setRoots roots).Open where
  schema := schema_setRoots.trans h.schema
  coherent := declarations_setRoots.symm ▸ h.coherent
  frozen := declarations_setRoots.symm ▸ h.frozen
  effective := declarations_setRoots.symm ▸ h.effective

/-! ## Runs -/

/-- A registry is open, or closed over its schema. -/
def Sound (r : Registry) : Prop := r.Open ∨ ∃ s, r.Closed s

theorem Sound.coherent (h : r.Sound) : r.declarations.Coherent := by
  rcases h with h | ⟨s, h⟩
  · exact h.coherent
  · exact h.coherent

theorem Sound.builtFrom {s : Schema} (h : r.Sound) (hs : r.build.outcome = .ok s) :
    s.BuiltFrom r := by
  rcases h with h | ⟨s', h⟩
  · rcases build_of_open h with ⟨s', hs', hbuilt, -⟩ | ⟨-, -, he⟩
    · rw [hs'] at hs
      exact Except.ok.inj hs ▸ hbuilt
    · rw [he] at hs
      cases hs
  · rw [(build_of_closed h).1] at hs
    exact Except.ok.inj hs ▸ h.built

theorem Closed.perform {s : Schema} (h : r.Closed s) (op : Operation) : r.perform op = r := by
  cases op with
  | register d => simp [Registry.perform, register, h.schema]
  | declareRoots given =>
    rcases declareRoots_cases r given with ⟨e, he⟩ | ⟨query, roots, -, hs, -⟩
    · simp only [Registry.perform, he]
    · rw [h.schema] at hs
      cases hs
  | build => exact (build_of_closed h).2

/-- One operation keeps the invariant. -/
theorem Sound.perform (h : r.Sound) (op : Operation) : (r.perform op).Sound := by
  rcases h with h | ⟨s, h⟩
  · cases op with
    | register d =>
      rcases register_of_open h d with ⟨-, hd⟩ | ⟨d', store, problems, -, hd, hreg⟩
      · simp only [Registry.perform, hd]
        exact .inl ⟨h.schema, h.coherent, h.frozen, h.effective⟩
      · simp only [Registry.perform, hd]
        exact .inl (h.add hreg problems)
    | declareRoots given =>
      rcases declareRoots_cases r given with ⟨e, he⟩ | ⟨query, roots, he, -⟩
      · simp only [Registry.perform, he]
        exact .inl h
      · simp only [Registry.perform, he]
        exact .inl (h.setRoots roots)
    | build =>
      rcases build_of_open h with ⟨s, -, -, hs⟩ | ⟨-, hr, -⟩
      · exact .inr ⟨s, hs⟩
      · simp only [Registry.perform, hr]
        exact .inl h
  · rw [h.perform op]
    exact .inr ⟨s, h⟩

theorem body_of_mem_builtins {d : Definition} (h : d ∈ Definition.builtins) :
    d.body = .scalar := by
  simp only [Definition.builtins, List.mem_cons, List.not_mem_nil, or_false] at h
  rcases h with rfl | rfl | rfl | rfl | rfl <;> rfl

theorem layerFields_of_scalar {d : Definition} (h : d.body = .scalar) (layer : Layer) :
    d.layerFields layer = [] := by
  cases layer <;> simp [Definition.layerFields, h]

theorem open_fresh (settings : Settings) : ({ settings } : Registry).Open where
  schema := rfl
  coherent := {
    distinct := by
      change (Definition.builtins.map (·.name)).Nodup
      decide
    distinctFields := by
      intro d hd layer
      rw [layerFields_of_scalar (body_of_mem_builtins hd)]
      exact List.nodup_nil
    distinctBehaviors := by
      intro d hd
      simp [Definition.behaviors, body_of_mem_builtins hd]
    declared := by
      intro owner layer hl
      cases hd : ({ settings } : Registry).declarations.find owner with
      | none => rfl
      | some d =>
        have hbody := body_of_mem_builtins (mem_of_findDefinition hd)
        rw [Option.map_some, Option.getD_some, layerFields_of_scalar hbody]
        rfl }
  frozen := rfl
  effective _ := rfl

/-- A registry is open or closed after every run. -/
theorem sound_run (settings : Settings) (ops : List Operation) : (run settings ops).Sound := by
  suffices h : ∀ r : Registry, r.Sound → (ops.foldl Registry.perform r).Sound from
    h _ (.inl (open_fresh settings))
  induction ops with
  | nil => exact fun r h => h
  | cons op ops ih => exact fun r h => ih _ (h.perform op)

/-- What is built after a run is built from its declarations. -/
theorem builtFrom_run {settings : Settings} {ops : List Operation} {s : Schema}
    (hs : (run settings ops).build.outcome = .ok s) : s.BuiltFrom (run settings ops) :=
  (sound_run settings ops).builtFrom hs

end Registry

/-! ## The roots of a run -/

/-- Whether a declaration of roots, if it is not refused, names a query type. -/
structure RootSpecs.NamesQuery (given : RootSpecs) : Prop where
  root : given.query ≠ some none
  named : ∀ spec, given.query = some (some spec) → spec.typeName ≠ .ok ""

theorem RootSpecs.query_of_toRoots {given : RootSpecs} {query : Option Spec} {roots : Roots}
    (h : given.toRoots query = .ok roots) : query.mapM Spec.typeName = .ok roots.query := by
  unfold toRoots at h
  obtain ⟨name, hn, h⟩ := exists_of_bind_eq_ok h
  obtain ⟨mutation, -, h⟩ := exists_of_bind_eq_ok h
  obtain ⟨subscription, -, h⟩ := exists_of_bind_eq_ok h
  obtain ⟨orphans, -, h⟩ := exists_of_bind_eq_ok h
  cases h
  exact hn

theorem RootSpecs.NamesQuery.exists_type {given : RootSpecs} {query : Option Spec} {roots : Roots}
    (h : given.NamesQuery) (hq : given.query = some query)
    (hr : given.toRoots query = .ok roots) : ∃ name, roots.type? .query = some name := by
  have hquery := query_of_toRoots hr
  cases query with
  | none => exact absurd hq h.root
  | some spec =>
    cases hn : spec.typeName with
    | error e => simp [hn, Functor.map, Except.map] at hquery
    | ok name =>
      have hne : name ≠ "" := fun he => h.named spec hq (he ▸ hn)
      have hname : some name = roots.query := by
        simpa [hn, Functor.map, Except.map] using hquery
      exact ⟨name, by simp [Roots.type?, ← hname, hne]⟩

namespace Registry

variable {r : Registry}


/-- Roots are given by the operation that declares them. -/
def Operation.Gives (op : Operation) (roots : Roots) : Prop :=
  ∃ given query, op = .declareRoots given ∧ given.query = some query ∧
    given.toRoots query = .ok roots

/-- One operation keeps the roots, or gives them. -/
theorem Sound.roots_perform (h : r.Sound) {op : Operation} {roots : Roots}
    (hr : (r.perform op).roots = some roots) : r.roots = some roots ∨ op.Gives roots := by
  rcases h with h | ⟨s, h⟩
  · cases op with
    | register d =>
      rcases register_of_open h d with ⟨-, hd⟩ | ⟨d', store, problems, -, hd, -⟩
      · simp only [Registry.perform, hd] at hr
        exact .inl hr
      · simp only [Registry.perform, hd] at hr
        exact .inl hr
    | declareRoots given =>
      rcases declareRoots_cases r given with ⟨e, he⟩ | ⟨query, given', he, -, hq, hg⟩
      · simp only [Registry.perform, he] at hr
        exact .inl hr
      · simp only [Registry.perform, he, setRoots] at hr
        cases hroots : r.roots with
        | none =>
          simp only [hroots, Option.some.injEq] at hr
          exact .inr ⟨given, query, rfl, hq, hr ▸ hg⟩
        | some _ =>
          simp only [hroots] at hr
          exact .inl hr
    | build =>
      rcases build_of_open h with ⟨s, -, hbuilt, hs⟩ | ⟨-, hb, -⟩
      · exact .inl (hbuilt.roots.trans (hs.built.roots.symm.trans hr))
      · simp only [Registry.perform, hb] at hr
        exact .inl hr
  · rw [h.perform op] at hr
    exact .inl hr

/-- The roots after a run are given by one of its operations. -/
theorem roots_run {settings : Settings} {ops : List Operation} {roots : Roots}
    (h : (run settings ops).roots = some roots) : ∃ op ∈ ops, op.Gives roots := by
  suffices hrun : ∀ r : Registry, r.Sound → (ops.foldl Registry.perform r).roots = some roots →
      r.roots = some roots ∨ ∃ op ∈ ops, op.Gives roots by
    rcases hrun _ (.inl (open_fresh settings)) h with h | h
    · cases h
    · exact h
  clear h
  induction ops with
  | nil => exact fun r _ hr => .inl hr
  | cons op ops ih =>
    intro r hs hr
    rcases ih _ (hs.perform op) hr with hr | ⟨op', hop, hgives⟩
    · rcases hs.roots_perform hr with hr | hgives
      · exact .inl hr
      · exact .inr ⟨op, List.mem_cons_self, hgives⟩
    · exact .inr ⟨op', List.mem_cons_of_mem _ hop, hgives⟩

/-- Without violations a schema is built. -/
theorem exists_build_of_violations {settings : Settings} {ops : List Operation}
    (hviolations : (run settings ops).violations = [])
    (hschema : (run settings ops).schema = none) :
    ∃ s, (run settings ops).build.outcome = .ok s := by
  rcases sound_run settings ops with h | ⟨s, h⟩
  · rcases build_of_open h with ⟨s, hs, -⟩ | ⟨hv, -⟩
    · exact ⟨s, hs⟩
    · exact absurd hviolations hv
  · cases h.schema.symm.trans hschema

/-! ## A small run -/

namespace Sample

/-- An interface with a behavior that knows its owner, and a field of its own type. -/
def node : InterfaceType where
  fields := [
    { name := "id", type := .nonNull (.named "ID"),
      resolver := some (Behavior.globalId "id" "id") },
    { name := "next_node", type := .named "Node" }]

/-- An object type that narrows the field. -/
def query : ObjectType where
  fields := [
    { name := "next_node", type := .nonNull (.named "Query"),
      arguments := [{ name := "step_size", type := .named "Int" }] }]
  interfaces := ["Node"]

/-- Both are declared, and the object type is the query root. -/
def operations : List Operation := [
  .register ⟨"Node", none, .interface node⟩,
  .register ⟨"Query", none, .object query⟩,
  .declareRoots { query := some (some (.text "Query")) }]

/-- The object type as it is registered. -/
def queryType : Definition :=
  ⟨"Query", none, .object { query with fields := query.fields.map Field.camelized }⟩

theorem queryType_mem : queryType ∈ (run {} operations).declarations.definitions :=
  List.mem_of_getElem? (i := 6) rfl

/-- A schema is built after this run. -/
theorem exists_build : ∃ s, (run {} operations).build.outcome = .ok s :=
  exists_build_of_violations rfl rfl

end Sample

end Registry

end GraphSchema
