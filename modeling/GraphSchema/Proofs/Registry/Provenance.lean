import GraphSchema.Proofs.Registry.Run

/-!
# Where registered definitions come from

A run whose registry has no problems has registered what it declares: the definitions are the
built-in ones, and after them the declared ones in order, each in its final form.

## Main definitions

* `InterfaceType.final`, `ObjectType.final`, `Definition.final` — what is registered of an
  interface, of an object type, and of any definition.
* `Registry.declares`, `Registry.declared` — the definitions that one operation, and a run,
  declare before the schema is built.

## Main statements

* `Registry.fst_accepted` — a type that makes no problems is registered in its final form.
* `Registry.Sound.definitions_perform` — what one operation does to the definitions.
* `Registry.definitions_run` — the definitions after a run.
-/

namespace GraphSchema

/-- An interface as it is registered: fields under their final names, behaviors under the final
keys. -/
def InterfaceType.final (camelize : Bool) (i : InterfaceType) : InterfaceType :=
  { i with
    fields := i.fields.map (Registry.finalField camelize)
    behaviors := Registry.finalBehaviors camelize i.fields i.behaviors }

/-- An object type as it is registered. -/
def ObjectType.final (camelize : Bool) (o : ObjectType) : ObjectType :=
  { o with
    fields := o.fields.map (Registry.finalField camelize)
    behaviors := Registry.finalBehaviors camelize o.fields o.behaviors }

/-- A definition as it is registered. -/
def Definition.final (camelize : Bool) (d : Definition) : Definition :=
  { d with
    body := match d.body with
      | .interface i => .interface (i.final camelize)
      | .object o => .object (o.final camelize)
      | .inputObject inputs =>
        .inputObject (if camelize then inputs.map Argument.camelized else inputs)
      | body => body }

@[simp] theorem Definition.name_final {camelize : Bool} {d : Definition} :
    (d.final camelize).name = d.name := rfl

namespace Registry

variable {r r' : Registry} {d d' : Definition} {op : Operation} {ops : List Operation}

/-! ## What is registered without problems -/

/-- Without problems all fields are taken. -/
theorem fst_sifted {owner : String} {layer : Layer} {fields : List Field}
    (h : (sifted owner layer fields).2 = []) : (sifted owner layer fields).1 = fields := by
  suffices hfold : ∀ x : List Field × List Error, (fields.foldl (sift owner layer) x).2 = [] →
      x.2 = [] ∧ (fields.foldl (sift owner layer) x).1 = x.1 ++ fields by
    exact (hfold ([], []) h).2
  clear h
  -- problems only become more, so there are none at any step
  induction fields with
  | nil => exact fun x h => ⟨h, by simp⟩
  | cons f fields ih =>
    intro x h
    obtain ⟨hproblems, htaken⟩ := ih _ h
    rw [List.foldl_cons, htaken]
    unfold sift at hproblems ⊢
    split at hproblems
    · simp at hproblems
    · next hf =>
      rw [if_neg hf]
      exact ⟨hproblems, by simp⟩

/-- Without problems a type is registered in its final form. -/
theorem fst_accepted {camelize : Bool} (h : (accepted camelize d).2 = []) :
    (accepted camelize d).1 = d.final camelize := by
  unfold accepted at h ⊢
  unfold Definition.final
  cases hb : d.body with
  | interface i | object o =>
    simp only [hb] at h
    simp only [fst_sifted h]
    rfl
  | inputObject inputs => rfl
  | scalar | enum | union => simp [← hb]

/-! ## Operations -/

@[simp] theorem settings_build : r.build.registry.settings = r.settings := by
  unfold build
  split
  · rfl
  · split
    · split <;> rfl
    · rfl

@[simp] theorem problems_build : r.build.registry.problems = r.problems := by
  unfold build
  split
  · rfl
  · split
    · split <;> rfl
    · rfl

@[simp] theorem definitions_build :
    r.build.registry.declarations.definitions = r.declarations.definitions := by
  unfold build
  split
  · rfl
  · split
    · split <;> rfl
    · rfl

/-- The definition that an operation declares, unless the schema is built. -/
def declares (r : Registry) : Operation → List Definition
  | .register d => if r.schema.isNone then [d] else []
  | _ => []

/-- The definitions that operations declare in order, until the schema is built. -/
def declaredFrom (r : Registry) : List Operation → List Definition
  | [] => []
  | op :: ops => r.declares op ++ declaredFrom (r.perform op) ops

theorem declaredFrom_append {ops' : List Operation} :
    r.declaredFrom (ops ++ ops') = r.declaredFrom ops ++ (ops.foldl perform r).declaredFrom ops' := by
  induction ops generalizing r with
  | nil => rfl
  | cons op ops ih =>
    rw [List.cons_append, declaredFrom, ih, declaredFrom, List.append_assoc, List.foldl_cons]

/-- The definitions that a run declares. -/
def declared (settings : Settings) (ops : List Operation) : List Definition :=
  declaredFrom { settings } ops

theorem Sound.settings_perform (h : r.Sound) : (r.perform op).settings = r.settings := by
  rcases h with h | ⟨s, h⟩
  · cases op with
    | register d =>
      rcases register_of_open h d with ⟨-, hd⟩ | ⟨d', store, problems, -, hd, -⟩
      · simp only [Registry.perform, hd]
      · simp only [Registry.perform, hd]
        rfl
    | declareRoots given =>
      rcases declareRoots_cases r given with ⟨e, he⟩ | ⟨query, roots, he, -⟩
      · simp only [Registry.perform, he]
      · simp only [Registry.perform, he, setRoots]
        cases r.roots <;> rfl
    | build => exact settings_build
  · rw [h.perform op]

/-- One operation that leaves no problems has registered what it declares. -/
theorem Sound.definitions_perform (h : r.Sound) (hp : (r.perform op).problems = []) :
    r.problems = [] ∧ (r.perform op).declarations.definitions =
      r.declarations.definitions ++ (r.declares op).map (Definition.final r.camelizes) := by
  rcases h with h | ⟨s, h⟩
  · cases op with
    | register d =>
      rcases register_of_open h d with ⟨-, hd⟩ | ⟨d', store, problems, haccepted, hd, -⟩
      · simp [Registry.perform, hd] at hp
      · simp only [Registry.perform, hd, add, List.append_eq_nil_iff] at hp
        have hfinal : d' = d.final r.camelizes := by
          rw [← fst_accepted (congrArg Prod.snd haccepted |>.trans hp.2), haccepted]
        simp [Registry.perform, hd, declares, h.schema, hp.1, add, hfinal]
    | declareRoots given =>
      rcases declareRoots_cases r given with ⟨e, he⟩ | ⟨query, roots, he, -⟩
      · simp only [Registry.perform, he] at hp ⊢
        exact ⟨hp, by simp [declares]⟩
      · simp only [Registry.perform, he, declarations_setRoots] at hp ⊢
        refine ⟨?_, by simp [declares]⟩
        unfold setRoots at hp
        split at hp
        · exact hp
        · simp at hp
    | build => simpa [Registry.perform, declares] using hp
  · rw [h.perform op] at hp ⊢
    refine ⟨hp, ?_⟩
    cases op <;> simp [declares, h.schema]

/-! ## Runs -/

/-- A run keeps the settings. -/
theorem settings_run {settings : Settings} : (run settings ops).settings = settings := by
  suffices hrun : ∀ r : Registry, r.Sound → (ops.foldl perform r).settings = r.settings from
    hrun _ (.inl (open_fresh settings))
  induction ops with
  | nil => exact fun r _ => rfl
  | cons op ops ih => exact fun r h => (ih _ (h.perform op)).trans h.settings_perform

/-- The definitions after a run without problems. -/
theorem definitions_run {settings : Settings} (hp : (run settings ops).problems = []) :
    (run settings ops).declarations.definitions =
      Definition.builtins ++
        (declared settings ops).map (Definition.final settings.autoCamelize.truthy) := by
  suffices hrun : ∀ r : Registry, r.Sound → (ops.foldl perform r).problems = [] →
      r.problems = [] ∧ (ops.foldl perform r).declarations.definitions =
        r.declarations.definitions ++
          (declaredFrom r ops).map (Definition.final r.settings.autoCamelize.truthy) from
    (hrun _ (.inl (open_fresh settings)) hp).2
  clear hp
  induction ops with
  | nil => exact fun r _ hp => ⟨hp, by simp [declaredFrom]⟩
  | cons op ops ih =>
    intro r hr hp
    obtain ⟨hp, hrest⟩ := ih _ (hr.perform op) hp
    obtain ⟨hp, hstep⟩ := hr.definitions_perform hp
    refine ⟨hp, ?_⟩
    rw [List.foldl_cons, hrest, hstep, hr.settings_perform, declaredFrom, List.map_append,
      List.append_assoc, camelizes]

end Registry

end GraphSchema
