import GraphSchema.Proofs.Schema.Agreement

/-!
# The order of declarations

Types of distinct names can be declared in any order, and the roots among them wherever one likes.
What one declaration adds to a registry does not depend on what has been declared before, so the
order shows in the order of what is added only, and neither a build nor its schema depends on that.

## Main definitions

* `Registry.Operation.adds`, `Registry.Operation.objections`, `Registry.Operation.roots?` — what a
  declaration adds to a registry: definitions, problems and roots.
* `Registry.Extends` — a registry to which such things have been added.
* `Registry.DeclaredOnce` — operations that declare every type and the roots once.

## Main statements

* `Registry.Open.extends_perform` — what one declaration adds.
* `Registry.extends_run` — what declarations add in any number.
* `Registry.violations_perm` — the violations are the same but for their order.
* `Registry.run_order` — declarations in another order: builds fail or succeed alike, with the same
  errors but for their order, or with schemas that cannot be told apart.
-/

namespace GraphSchema

namespace Registry

/-! ## What a declaration adds -/

namespace Operation

/-- The name of the type that an operation declares. -/
def typeNames : Operation → List String
  | .register d => [d.name]
  | _ => []

/-- The definitions that an operation adds to those of other names. -/
def adds (camelize : Bool) : Operation → List Definition
  | .register d => if Definition.isBuiltin d.name then [] else [(accepted camelize d).1]
  | _ => []

/-- The problems that an operation adds: those of a new type, or that it is built in. -/
def objections (camelize : Bool) : Operation → List Error
  | .register d =>
    if Definition.isBuiltin d.name then [.duplicateType d.name] else (accepted camelize d).2
  | _ => []

/-- The roots that an operation declares, unless they are refused. -/
def roots : Operation → List Roots
  | .declareRoots given => match given.query.map given.toRoots with
    | some (.ok roots) => [roots]
    | _ => []
  | _ => []

theorem map_name_adds_subset {camelize : Bool} {op : Operation} :
    (op.adds camelize).map (·.name) ⊆ op.typeNames := by
  cases op with
  | register d => cases hd : Definition.isBuiltin d.name <;> simp [adds, typeNames, hd]
  | declareRoots | build => exact List.nil_subset _

end Operation

/-- A registry to which definitions, problems and roots have been added. -/
structure Extends (r r' : Registry) (definitions : List Definition) (problems : List Error)
    (roots : List Roots) : Prop where
  isOpen : r'.Open
  settings : r'.settings = r.settings
  definitions : r'.declarations.definitions = r.declarations.definitions ++ definitions
  problems : r'.problems = r.problems ++ problems
  roots : r'.roots.toList = r.roots.toList ++ roots

variable {r r' r'' : Registry} {op : Operation} {ops ops' : List Operation}

namespace Extends

variable {ds ds' : List Definition} {es es' : List Error} {rs rs' : List Roots}

theorem refl (h : r.Open) : r.Extends r [] [] [] :=
  ⟨h, rfl, (List.append_nil _).symm, (List.append_nil _).symm, (List.append_nil _).symm⟩

theorem trans (h : r.Extends r' ds es rs) (h' : r'.Extends r'' ds' es' rs') :
    r.Extends r'' (ds ++ ds') (es ++ es') (rs ++ rs') where
  isOpen := h'.isOpen
  settings := h'.settings.trans h.settings
  definitions := by rw [h'.definitions, h.definitions, List.append_assoc]
  problems := by rw [h'.problems, h.problems, List.append_assoc]
  roots := by rw [h'.roots, h.roots, List.append_assoc]

/-- Other names stand for what they stood for. -/
theorem find_eq (h : r.Extends r' ds es rs) {name : String} (hname : name ∉ ds.map (·.name)) :
    r'.declarations.find name = r.declarations.find name := by
  have hnone : findDefinition ds name = none := findDefinition_eq_none_iff.2 hname
  rw [findDefinition] at hnone
  rw [Declarations.find, h.definitions, findDefinition, List.find?_append, hnone, Option.or_none]
  rfl

end Extends

theorem setRoots_of_none (h : r.roots = none) (roots : Roots) :
    r.setRoots roots = { r with roots := some roots } := by
  rw [setRoots, h]

theorem Open.declareRoots (h : r.Open) (given : RootSpecs) :
    (∃ e, r.declareRoots given = .error e ∧ (Operation.declareRoots given).roots = []) ∨
    ∃ roots, r.declareRoots given = .ok (roots, r.setRoots roots) ∧
      (Operation.declareRoots given).roots = [roots] := by
  unfold Registry.declareRoots Operation.roots
  rw [h.schema]
  cases hq : given.query with
  | none => exact .inl ⟨_, rfl, by simp only [hq, Option.map_none]⟩
  | some query =>
    simp only [hq, Option.map_some]
    cases given.toRoots query with
    | error e => exact .inl ⟨e, rfl, rfl⟩
    | ok roots => exact .inr ⟨roots, rfl, rfl⟩

/-- What one declaration adds to a registry, if it declares no type that has been declared before,
and the roots for the first time. -/
theorem Open.extends_perform (h : r.Open) (hbuild : op ≠ .build)
    (hfresh : ∀ name ∈ op.typeNames,
      (r.declarations.find name).isSome = Definition.isBuiltin name)
    (hroots : (r.roots.toList ++ op.roots).length ≤ 1) :
    r.Extends (r.perform op) (op.adds r.camelizes) (op.objections r.camelizes) op.roots := by
  cases op with
  | register d =>
    have hbuiltin := hfresh d.name List.mem_cons_self
    rcases register_of_open h d with ⟨hd, hr⟩ | ⟨d', store, problems, haccepted, hr, hreg⟩
    · rw [hbuiltin] at hd
      simp only [Registry.perform, hr, Operation.adds, Operation.objections, if_pos hd]
      exact ⟨⟨h.schema, h.coherent, h.frozen, h.effective⟩, rfl, (List.append_nil _).symm, rfl,
        (List.append_nil _).symm⟩
    · have hname : d'.name = d.name := by rw [← name_accepted (d := d), haccepted]
      have hnew : ¬ Definition.isBuiltin d.name = true := by
        rw [← hbuiltin, ← hname, hreg.fresh]
        exact Bool.false_ne_true
      simp only [Registry.perform, hr, Operation.adds, Operation.objections, if_neg hnew, haccepted]
      exact ⟨h.add hreg problems, rfl, rfl, rfl, (List.append_nil _).symm⟩
  | declareRoots given =>
    rcases h.declareRoots given with ⟨e, he, hnone⟩ | ⟨roots, he, hsome⟩
    · simp only [Registry.perform, he, hnone]
      exact .refl h
    · have hfirst : r.roots = none := by
        rw [hsome, List.length_append] at hroots
        cases hr : r.roots with
        | none => rfl
        | some _ => simp [hr] at hroots
      have hopen := h.setRoots roots
      rw [setRoots_of_none hfirst] at hopen
      simp only [Registry.perform, he, hsome, setRoots_of_none hfirst]
      exact ⟨hopen, rfl, (List.append_nil _).symm, (List.append_nil _).symm, by rw [hfirst]; rfl⟩
  | build => exact absurd rfl hbuild

/-! ## Runs of declarations -/

/-- Operations that declare types of distinct names and the roots at most once, and do not build
yet. -/
structure DeclaredOnce (ops : List Operation) : Prop where
  types : (ops.flatMap Operation.typeNames).Nodup
  roots : (ops.flatMap Operation.roots).length ≤ 1
  noBuild : .build ∉ ops

theorem DeclaredOnce.perm (h : DeclaredOnce ops) (hperm : ops'.Perm ops) : DeclaredOnce ops' where
  types := (hperm.flatMap_right _).nodup_iff.2 h.types
  roots := (hperm.flatMap_right Operation.roots).length_eq ▸ h.roots
  noBuild hmem := h.noBuild (hperm.mem_iff.1 hmem)

/-- What any number of declarations add to a registry in which nothing of this is declared. -/
theorem Open.extends_foldl (h : r.Open) (hbuild : .build ∉ ops)
    (hdistinct : (ops.flatMap Operation.typeNames).Nodup)
    (hfresh : ∀ name ∈ ops.flatMap Operation.typeNames,
      (r.declarations.find name).isSome = Definition.isBuiltin name)
    (hroots : (r.roots.toList ++ ops.flatMap Operation.roots).length ≤ 1) :
    r.Extends (ops.foldl perform r) (ops.flatMap (Operation.adds r.camelizes))
      (ops.flatMap (Operation.objections r.camelizes)) (ops.flatMap Operation.roots) := by
  induction ops generalizing r with
  | nil => exact .refl h
  | cons op ops ih =>
    simp only [List.flatMap_cons] at hdistinct hfresh hroots ⊢
    obtain ⟨-, hrest, hdisjoint⟩ := List.nodup_append.1 hdistinct
    have hstep := h.extends_perform (Ne.symm (List.ne_of_not_mem_cons hbuild))
      (fun name hn => hfresh name (List.mem_append_left _ hn)) (by grind)
    have hcamelizes : (r.perform op).camelizes = r.camelizes := by
      rw [camelizes, hstep.settings, ← camelizes]
    -- the names that are still to come are none of those that have just been declared
    have hnext := ih hstep.isOpen (List.not_mem_of_not_mem_cons hbuild) hrest
      (fun name hn => by
        rw [hstep.find_eq fun hmem => ?_]
        · exact hfresh name (List.mem_append_right _ hn)
        · exact hdisjoint name (Operation.map_name_adds_subset hmem) name hn rfl)
      (by rw [hstep.roots]; grind)
    rw [hcamelizes] at hnext
    exact hstep.trans hnext

theorem find_builtins {settings : Settings} {name : String} :
    (({ settings } : Registry).declarations.find name).isSome = Definition.isBuiltin name := by
  rw [Bool.eq_iff_iff, ← Declarations.defines_iff_find]
  simp [Declarations.Defines, Definition.isBuiltin]

/-- What the registry holds after a run of declarations. -/
theorem extends_run (settings : Settings) (h : DeclaredOnce ops) :
    Extends { settings } (run settings ops)
      (ops.flatMap (Operation.adds settings.autoCamelize.truthy))
      (ops.flatMap (Operation.objections settings.autoCamelize.truthy))
      (ops.flatMap Operation.roots) :=
  (open_fresh settings).extends_foldl h.noBuild h.types (fun _ _ => find_builtins) h.roots

/-! ## Another order -/

/-- The violations of the same definitions, problems and roots are the same but for their order. -/
theorem violations_perm
    (hdefinitions : r'.declarations.definitions.Perm r.declarations.definitions)
    (hagree : Declarations.Agree r.declarations r'.declarations)
    (hproblems : r'.problems.Perm r.problems) (hroots : r'.roots = r.roots) :
    r'.violations.Perm r.violations := by
  unfold violations referenceErrors Declarations.compositions
  rw [hroots, hagree.rootErrors, hagree.definitionErrors, hagree.compose]
  exact (hproblems.append ((List.Perm.refl _).append (hdefinitions.flatMap_right _))).append
    ((hdefinitions.filterMap _).flatMap_right _)

/-- Types of distinct names and the roots, declared in any order on a fresh registry. Either both
builds fail, with the same errors but for their order, or both succeed, with schemas that cannot be
told apart. -/
theorem run_order (settings : Settings) (honce : DeclaredOnce ops) (hperm : ops'.Perm ops) :
    (∃ errors errors',
      (run settings ops).build.outcome = .error (.violations errors) ∧
      (run settings ops').build.outcome = .error (.violations errors') ∧
      errors'.Perm errors) ∨
    ∃ s s', (run settings ops).build.outcome = .ok s ∧
      (run settings ops').build.outcome = .ok s' ∧ s.Indistinguishable s' := by
  have hrun := extends_run settings honce
  have hrun' := extends_run settings (honce.perm hperm)
  have hdefinitions : (run settings ops').declarations.definitions.Perm
      (run settings ops).declarations.definitions := by
    rw [hrun.definitions, hrun'.definitions]
    exact (hperm.flatMap_right _).append_left _
  have hproblems : (run settings ops').problems.Perm (run settings ops).problems := by
    rw [hrun.problems, hrun'.problems]
    exact (hperm.flatMap_right _).append_left _
  have hroots : (run settings ops').roots = (run settings ops).roots := by
    refine Option.ext fun roots => ?_
    rw [← Option.mem_toList, ← Option.mem_toList, hrun.roots, hrun'.roots]
    exact ((hperm.flatMap_right _).append_left _).mem_iff
  have hfind : (run settings ops').declarations.find = (run settings ops).declarations.find :=
    funext (Declarations.find_perm hrun.isOpen.coherent.distinct hdefinitions)
  have hviolations : (run settings ops').violations.Perm (run settings ops).violations :=
    violations_perm hdefinitions (hrun.isOpen.coherent.agree hrun'.isOpen.coherent hfind) hproblems
      hroots
  rcases build_of_open hrun.isOpen with ⟨s, hs, hbuilt, -⟩ | ⟨hne, -, he⟩
  · rcases build_of_open hrun'.isOpen with ⟨s', hs', hbuilt', -⟩ | ⟨hne, -, -⟩
    · exact .inr ⟨s, s', hs, hs', hbuilt.indistinguishable hbuilt' hroots hfind⟩
    · rw [hbuilt.violations] at hviolations
      exact absurd hviolations.eq_nil hne
  · rcases build_of_open hrun'.isOpen with ⟨s', -, hbuilt', -⟩ | ⟨-, -, he'⟩
    · rw [hbuilt'.violations] at hviolations
      exact absurd hviolations.nil_eq.symm hne
    · exact .inl ⟨_, _, he, he', hviolations⟩

/-- The small run declares everything once. In reverse order it gives a schema that prints the
same. -/
theorem sample_order :
    DeclaredOnce Sample.operations ∧ Sample.operations.reverse.Perm Sample.operations ∧
    ∃ s s', (run {} Sample.operations).build.outcome = .ok s ∧
      (run {} Sample.operations.reverse).build.outcome = .ok s' ∧ s'.print = s.print := by
  have honce : DeclaredOnce Sample.operations := by
    refine ⟨by decide, by decide, ?_⟩
    simp [Sample.operations]
  have hperm := List.reverse_perm Sample.operations
  refine ⟨honce, hperm, ?_⟩
  obtain ⟨s, hs⟩ := Sample.exists_build
  rcases run_order {} honce hperm with ⟨_, _, he, -⟩ | ⟨t, t', ht, ht', hsame⟩
  · rw [hs] at he
    cases he
  · exact ⟨t, t', ht, ht', hsame.print⟩

end Registry

end GraphSchema
