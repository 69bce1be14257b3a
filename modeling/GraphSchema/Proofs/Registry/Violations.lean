import GraphSchema.Proofs.Declarations.Violations
import GraphSchema.Proofs.Registry.Order

/-!
# The violations of a run

What a build reports after any declarations: one error for every site where a declaration goes
wrong, whatever else is wrong, and nothing else. The sites are told from the calls themselves and the
kinds of the types that they declare. Only the sites of contracts look at what has been registered:
there the interfaces of an object type are found, and the field that its composition has by the
definition by names.

## Main definitions

* `Registry.kind?` — the kind of type that a name stands for after declarations.
* `Site`, `Registry.Violation` — the sites of violations, and the error of each.
* `Registry.After` — what a registry knows after declarations.

## Main statements

* `Registry.After.extends_perform`, `Registry.After.perform` — what one more declaration adds, and
  that the registry knows what it should after it.
* `Registry.after_run` — the invariant after any declarations.
* `Registry.run_violations` — a build reports every violation once.
-/

namespace GraphSchema

/-- A place where declarations go wrong: a part of one of them, or what they come to together. -/
inductive Site where
  | declaration (call : Nat) (part : Part)
  | noRoots
  | root (role : Role)
  | schemaOrphan (index : Nat)

/-- The check that looks at a site. -/
def Site.check : Site → Check
  | .declaration _ part => part.check
  | _ => .roots

theorem Site.declaration_injective :
    Function.Injective fun x : Nat × Part => Site.declaration x.1 x.2 := fun _ _ h =>
  Prod.ext (Site.declaration.inj h).1 (Site.declaration.inj h).2

namespace Registry

/-! ## What declarations say -/

/-- The kind of type that an operation declares under a name. -/
def Operation.declaredKind? (name : String) : Operation → Option TypeKind
  | .register d => if d.name = name then some d.kind else none
  | _ => none

/-- The kind of type that a name stands for after operations: that of the first type which is
declared under it, if it is not built in. -/
def kind? (ops : List Operation) (name : String) : Option TypeKind :=
  if Definition.isBuiltin name then some .scalar else ops.findSome? (Operation.declaredKind? name)

/-- Whether a call declares a type under a name that stands for none before. -/
def Declares (ops : List Operation) (call : Nat) (d : Definition) : Prop :=
  ops[call]? = some (.register d) ∧ kind? (ops.take call) d.name = none

/-- What is wrong with the roots: there are none, or the first ones refer to something else than an
object type. A root without a name is no reference. -/
inductive Unrooted (ops : List Operation) : Site → Error → Prop
  | noRoots : ops.flatMap Operation.roots = [] → Unrooted ops .noRoots .noQueryRoot
  | root {roots : Roots} {role : Role} {name : String} {e : Error} :
    (ops.flatMap Operation.roots).head? = some roots → roots.type? role = some name →
    Misplaced (kind? ops) name .object (.root role) e → Unrooted ops (.root role) e
  | schemaOrphan {roots : Roots} {index : Nat} {name : String} {e : Error} :
    (ops.flatMap Operation.roots).head? = some roots → roots.orphans[index]? = some name →
    Misplaced (kind? ops) name .object .schemaOrphan e → Unrooted ops (.schemaOrphan index) e

/-- The violations of a run, each with its error: a type under a name that is taken, whatever is
wrong with a type under a new name, roots after the first ones, and what is wrong with these. -/
inductive Violation (settings : Settings) (ops : List Operation) : Site → Error → Prop
  | taken {call : Nat} {d : Definition} {k : TypeKind} : ops[call]? = some (.register d) →
    kind? (ops.take call) d.name = some k →
    Violation settings ops (.declaration call .name) (.duplicateType d.name)
  | repeats {call : Nat} {d : Definition} {part : Part} {e : Error} : Declares ops call d →
    d.Repeats settings.autoCamelize.truthy part e →
    Violation settings ops (.declaration call part) e
  | mistypes {call : Nat} {d : Definition} {part : Part} {e : Error} : Declares ops call d →
    d.Mistypes settings.autoCamelize.truthy (kind? ops) part e →
    Violation settings ops (.declaration call part) e
  | misrefers {call : Nat} {d : Definition} {part : Part} {e : Error} : Declares ops call d →
    (accepted settings.autoCamelize.truthy d).1.Misrefers (kind? ops) part e →
    Violation settings ops (.declaration call part) e
  | misimplements {call : Nat} {d : Definition} {part : Part} {e : Error} : Declares ops call d →
    (accepted settings.autoCamelize.truthy d).1.Misimplements (kind? ops)
      (run settings ops).declarations part e →
    Violation settings ops (.declaration call part) e
  | furtherRoots {call : Nat} {op : Operation} : ops[call]? = some op → op.roots ≠ [] →
    (ops.take call).flatMap Operation.roots ≠ [] →
    Violation settings ops (.declaration call .roots) .duplicateRoots
  | unrooted {x : Site} {e : Error} : Unrooted ops x e → Violation settings ops x e

variable {settings : Settings} {ops pre : List Operation} {op : Operation} {r : Registry}
  {d : Definition} {name : String}

theorem kind?_concat : kind? (pre ++ [op]) name = (kind? pre name).or (op.declaredKind? name) := by
  unfold kind?
  split
  · rfl
  · simp [List.findSome?_append]

/-! ## What one declaration adds -/

/-- The definitions that one more operation adds. -/
def Operation.added (camelize : Bool) (pre : List Operation) : Operation → List Definition
  | .register d => if (kind? pre d.name).isNone then [(accepted camelize d).1] else []
  | _ => []

/-- What one more operation is told to be wrong. -/
def Operation.refused (camelize : Bool) (pre : List Operation) : Operation → List Error
  | .register d =>
    if (kind? pre d.name).isNone then (accepted camelize d).2 else [.duplicateType d.name]
  | op => if op.roots.isEmpty || (pre.flatMap Operation.roots).isEmpty then [] else
    [.duplicateRoots]

/-- The registry after declarations: it is open, and knows the kinds of types and the first
roots. -/
structure After (settings : Settings) (ops : List Operation) (r : Registry) : Prop where
  isOpen : r.Open
  settings : r.settings = settings
  kinds : r.declarations.kind? = kind? ops
  roots : r.roots = (ops.flatMap Operation.roots).head?

theorem kind_accepted {camelize : Bool} : (accepted camelize d).1.kind = d.kind := by
  obtain ⟨name, description, body⟩ := d
  cases body <;> rfl

namespace After

theorem find_isSome (h : After settings pre r) :
    (r.declarations.find name).isSome = (kind? pre name).isSome := by
  rw [← h.kinds, Declarations.kind?, Option.isSome_map]

/-- What one more declaration adds. -/
theorem extends_perform (h : After settings pre r) (hop : op ≠ .build) :
    r.Extends (r.perform op) (op.added settings.autoCamelize.truthy pre)
      (op.refused settings.autoCamelize.truthy pre)
      (if pre.flatMap Operation.roots = [] then op.roots else []) := by
  have hcamelizes : r.camelizes = settings.autoCamelize.truthy := by rw [camelizes, h.settings]
  cases op with
  | register d =>
    have hroots : (if pre.flatMap Operation.roots = [] then (Operation.register d).roots else []) =
        [] := ite_self _
    rcases register_of_open h.isOpen d with
      ⟨hd, hr⟩ | ⟨d', store, problems, haccepted, hr, hreg⟩
    · rw [h.find_isSome] at hd
      have hold : ¬ (kind? pre d.name).isNone = true := by
        simpa [Option.isSome_iff_ne_none] using hd
      simp only [Registry.perform, hr, Operation.added, Operation.refused, if_neg hold, hroots]
      exact ⟨⟨h.isOpen.schema, h.isOpen.coherent, h.isOpen.frozen, h.isOpen.effective⟩, rfl,
        (List.append_nil _).symm, rfl, (List.append_nil _).symm⟩
    · have hname : d'.name = d.name := by rw [← name_accepted (d := d), haccepted]
      have hnew : (kind? pre d.name).isNone = true := by
        rw [Option.isNone_iff_eq_none, ← Option.not_isSome_iff_eq_none, ← h.find_isSome, ← hname,
          hreg.fresh]
        exact Bool.false_ne_true
      rw [hcamelizes] at haccepted
      simp only [Registry.perform, hr, Operation.added, Operation.refused, if_pos hnew, haccepted,
        hroots]
      exact ⟨h.isOpen.add hreg problems, rfl, rfl, rfl, (List.append_nil _).symm⟩
  | declareRoots given =>
    rcases h.isOpen.declareRoots given with ⟨e, he, hnone⟩ | ⟨roots, he, hsome⟩
    · simp only [Registry.perform, he, Operation.added, Operation.refused, hnone, ite_self]
      exact .refl h.isOpen
    · have hopen := h.isOpen.setRoots roots
      have hfirst := h.roots
      simp only [Registry.perform, he, Operation.added, Operation.refused, hsome]
      cases hpre : pre.flatMap Operation.roots with
      | nil =>
        rw [hpre, List.head?_nil] at hfirst
        rw [setRoots_of_none hfirst] at hopen ⊢
        exact ⟨hopen, rfl, (List.append_nil _).symm, (List.append_nil _).symm, by rw [hfirst]; rfl⟩
      | cons first rest =>
        rw [hpre, List.head?_cons] at hfirst
        rw [setRoots, hfirst] at hopen ⊢
        exact ⟨hopen, rfl, (List.append_nil _).symm, rfl, by simp [hfirst]⟩
  | build => exact absurd rfl hop

theorem perform (h : After settings pre r) (hop : op ≠ .build) :
    After settings (pre ++ [op]) (r.perform op) := by
  have hext := h.extends_perform hop
  refine ⟨hext.isOpen, hext.settings.trans h.settings, funext fun name => ?_, ?_⟩
  · have hkind : (r.perform op).declarations.kind? name = (kind? pre name).or
        (((op.added settings.autoCamelize.truthy pre).find? (·.name == name)).map (·.kind)) := by
      rw [← h.kinds, Declarations.kind?, Declarations.find, hext.definitions, findDefinition,
        List.find?_append, Option.map_or]
      rfl
    rw [hkind, kind?_concat]
    cases hpre : kind? pre name with
    | some k => rfl
    | none =>
      rw [Option.none_or, Option.none_or]
      cases op with
      | register d =>
        rw [Operation.added, Operation.declaredKind?]
        by_cases hd : d.name = name
        · rw [if_pos hd, hd, hpre, Option.isNone_none, if_pos rfl]
          simp [hd, kind_accepted]
        · rw [if_neg hd]
          split <;> simp [hd]
      | declareRoots | build => rfl
  · have hroots := hext.roots
    rw [h.roots] at hroots
    rw [List.flatMap_append, List.flatMap_singleton]
    cases hpre : pre.flatMap Operation.roots with
    | nil => simpa [hpre, eq_comm] using congrArg List.head? hroots
    | cons first rest => simpa [hpre] using congrArg List.head? hroots

end After

/-- Nothing but the built-in scalars is known at first. -/
theorem after_nil (settings : Settings) : After settings [] { settings } where
  isOpen := open_fresh settings
  settings := rfl
  kinds := by
    funext name
    have hfind : (({ settings } : Registry).declarations.find name).isSome =
        Definition.isBuiltin name := find_builtins
    unfold kind? Declarations.kind?
    cases hd : ({ settings } : Registry).declarations.find name with
    | none =>
      rw [hd] at hfind
      rw [← hfind]
      rfl
    | some d =>
      have hbody := body_of_mem_builtins (mem_of_findDefinition hd)
      rw [hd] at hfind
      rw [← hfind, Option.map_some, Definition.kind, hbody]
      rfl
  roots := rfl

theorem run_concat : run settings (pre ++ [op]) = (run settings pre).perform op := by
  simp [run]

theorem after_run (hbuild : .build ∉ ops) : After settings ops (run settings ops) := by
  induction ops using List.reverseRecOn with
  | nil => exact after_nil settings
  | append_singleton ops op ih =>
    simp only [List.mem_append, List.mem_singleton, not_or] at hbuild
    rw [run_concat]
    exact (ih hbuild.1).perform (Ne.symm hbuild.2)

/-- What one more declaration adds to a run. -/
theorem extends_run_concat (hbuild : .build ∉ pre ++ [op]) :
    (run settings pre).Extends (run settings (pre ++ [op]))
      (op.added settings.autoCamelize.truthy pre) (op.refused settings.autoCamelize.truthy pre)
      (if pre.flatMap Operation.roots = [] then op.roots else []) := by
  simp only [List.mem_append, List.mem_singleton, not_or] at hbuild
  rw [run_concat]
  exact (after_run hbuild.1).extends_perform (Ne.symm hbuild.2)

/-- What is registered stays. -/
theorem definitions_subset_run (hbuild : .build ∉ ops) (hpre : pre <+: ops) :
    (run settings pre).declarations.definitions ⊆ (run settings ops).declarations.definitions := by
  obtain ⟨rest, rfl⟩ := hpre
  induction rest using List.reverseRecOn with
  | nil =>
    rw [List.append_nil]
    exact List.Subset.refl _
  | append_singleton rest op ih =>
    rw [← List.append_assoc] at hbuild ⊢
    rw [(extends_run_concat hbuild).definitions]
    exact List.subset_append_of_subset_left _
      (ih fun hmem => hbuild (List.mem_append_left _ hmem))

/-! ## Problems -/

/-- What one more operation is told to be wrong, part by part. -/
inductive Operation.Refused (camelize : Bool) (pre : List Operation) :
    Operation → Part → Error → Prop
  | taken {d : Definition} {k : TypeKind} : kind? pre d.name = some k →
    Refused camelize pre (.register d) .name (.duplicateType d.name)
  | repeats {d : Definition} {part : Part} {e : Error} : kind? pre d.name = none →
    d.Repeats camelize part e → Refused camelize pre (.register d) part e
  | furtherRoots {op : Operation} : op.roots ≠ [] → pre.flatMap Operation.roots ≠ [] →
    Refused camelize pre op .roots .duplicateRoots

theorem reports_refused (camelize : Bool) (pre : List Operation) (op : Operation) :
    Reports (op.refused camelize pre) (op.Refused camelize pre) := by
  cases op with
  | register d =>
    rw [Operation.refused]
    cases hd : kind? pre d.name with
    | some k =>
      refine Reports.singleton (x := Part.name) fun part e => ⟨?_, ?_⟩
      · rintro (hk | ⟨hnone, -⟩ | ⟨hroots, -⟩)
        · exact ⟨rfl, rfl⟩
        · cases hd.symm.trans hnone
        · exact absurd rfl hroots
      · rintro ⟨rfl, rfl⟩
        exact .taken hd
    | none =>
      refine (reports_accepted camelize d).congr fun part e => ⟨.repeats hd, ?_⟩
      rintro (hk | ⟨-, hrepeats⟩ | ⟨hroots, -⟩)
      · cases hd.symm.trans hk
      · exact hrepeats
      · exact absurd rfl hroots
  | declareRoots given =>
    have hrefused : (Operation.declareRoots given).refused camelize pre =
        if (Operation.declareRoots given).roots.isEmpty || (pre.flatMap Operation.roots).isEmpty
        then [] else [.duplicateRoots] := rfl
    rw [hrefused]
    split
    · next hnone =>
      refine Reports.nil fun part e h => ?_
      cases h with
      | furtherRoots hroots hpre => simp_all
    · next hfurther =>
      refine Reports.singleton (x := Part.roots) fun part e => ⟨fun h => ?_, ?_⟩
      · cases h
        exact ⟨rfl, rfl⟩
      · rintro ⟨rfl, rfl⟩
        simp only [Bool.or_eq_true, List.isEmpty_iff, not_or] at hfurther
        exact .furtherRoots hfurther.1 hfurther.2
  | build =>
    refine Reports.nil fun part e h => ?_
    cases h with
    | furtherRoots hroots => exact hroots rfl

theorem Operation.Refused.check {camelize : Bool} {part : Part} {e : Error}
    (h : op.Refused camelize pre part e) : part.check = .intake := by
  cases h with
  | repeats _ h => exact h.check
  | taken | furtherRoots => rfl

/-- Problems are reported as they are met. -/
theorem reports_problems (settings : Settings) (hbuild : .build ∉ ops) :
    Reports (run settings ops).problems fun x e =>
      x.check = .intake ∧ Violation settings ops x e := by
  have hcalls := Reports.of_prefix (E := fun ops => (run settings ops).problems)
    (P := fun pre op => op.Refused settings.autoCamelize.truthy pre) rfl
    (fun _ _ hpre => (extends_run_concat fun hmem => hbuild (hpre.subset hmem)).problems)
    fun pre op _ => reports_refused settings.autoCamelize.truthy pre op
  refine (hcalls.map Site.declaration_injective).congr fun x e => ⟨?_, ?_⟩
  · rintro ⟨⟨call, part⟩, rfl, op, hop, h⟩
    change op.Refused _ _ part e at h
    refine ⟨h.check, ?_⟩
    cases h with
    | taken hk => exact .taken hop hk
    | repeats hk h => exact .repeats ⟨hop, hk⟩ h
    | furtherRoots hroots hpre => exact .furtherRoots hop hroots hpre
  · rintro ⟨hcheck, h⟩
    cases h with
    | taken hop hk => exact ⟨(_, _), rfl, _, hop, .taken hk⟩
    | repeats hd h => exact ⟨(_, _), rfl, _, hd.1, .repeats hd.2 h⟩
    | furtherRoots hop hroots hpre => exact ⟨(_, _), rfl, _, hop, .furtherRoots hroots hpre⟩
    | mistypes _ h | misrefers _ h | misimplements _ h => cases h.check.symm.trans hcheck
    | unrooted h => cases h <;> cases hcheck

/-! ## Definitions -/

/-- What is wrong with registered definitions is reported call by call. -/
theorem reports_flatMap_definitions (settings : Settings) {G : Definition → List Error}
    {P : Definition → Part → Error → Prop} (hbuild : .build ∉ ops)
    (hscalar : ∀ d, d.body = .scalar → G d = [])
    (h : ∀ d, (accepted settings.autoCamelize.truthy d).1 ∈
      (run settings ops).declarations.definitions →
      Reports (G (accepted settings.autoCamelize.truthy d).1) (P d)) :
    Reports ((run settings ops).declarations.definitions.flatMap G)
      fun (x : Nat × Part) e => ∃ d, Declares ops x.1 d ∧ P d x.2 e := by
  have hbuiltins : Definition.builtins.flatMap G = [] :=
    List.flatMap_eq_nil_iff.2 fun d hd => hscalar d (body_of_mem_builtins hd)
  have hrun {pre : List Operation} {op : Operation} (hpre : pre ++ [op] <+: ops) :
      .build ∉ pre ++ [op] := fun hmem => hbuild (hpre.subset hmem)
  refine (Reports.of_prefix (E := fun ops => (run settings ops).declarations.definitions.flatMap G)
    (g := fun pre op => (op.added settings.autoCamelize.truthy pre).flatMap G)
    (P := fun pre op part e => ∃ d, op = .register d ∧ kind? pre d.name = none ∧ P d part e)
    hbuiltins (fun pre op hpre => ?_) fun pre op hpre => ?_).congr fun x e => ?_
  · rw [(extends_run_concat (hrun hpre)).definitions, List.flatMap_append]
  · have hmem : op.added settings.autoCamelize.truthy pre ⊆
        (run settings ops).declarations.definitions := by
      refine List.Subset.trans ?_ (definitions_subset_run hbuild hpre)
      rw [(extends_run_concat (hrun hpre)).definitions]
      exact List.subset_append_right _ _
    cases op with
    | register d =>
      rw [Operation.added] at hmem ⊢
      cases hd : kind? pre d.name with
      | some k => exact Reports.nil fun part e => by simp [hd]
      | none =>
        rw [hd, Option.isNone_none, if_pos rfl] at hmem
        rw [Option.isNone_none, if_pos rfl, List.flatMap_singleton]
        exact (h d (hmem List.mem_cons_self)).congr fun part e => by simp [hd]
    | declareRoots | build => exact Reports.nil fun part e => by simp
  · simp only [Declares]
    constructor
    · rintro ⟨_, hop, d, rfl, hd, hP⟩
      exact ⟨d, ⟨hop, hd⟩, hP⟩
    · rintro ⟨d, ⟨hop, hd⟩, hP⟩
      exact ⟨_, hop, d, rfl, hd, hP⟩

/-! ## Roots -/

theorem rootErrors_some (ds : Declarations) (roots : Roots) :
    ds.rootErrors (some roots) = (Roots.roles.flatMap fun role =>
      (roots.type? role).elim [] fun name => ds.expect name .object (.root role)) ++
      roots.orphans.flatMap fun name => ds.expect name .object .schemaOrphan := by
  refine congrArg (· ++ _) (List.flatMap_congr fun role _ => ?_)
  cases roots.type? role <;> rfl

theorem reports_root (ds : Declarations) (role : Role) (name? : Option String) :
    Reports (name?.elim [] fun name => ds.expect name .object (.root role)) fun (_ : Unit) e =>
      ∃ name, name? = some name ∧ Misplaced ds.kind? name .object (.root role) e := by
  cases name? with
  | none => exact Reports.nil fun _ e => by simp
  | some name => exact (ds.reports_expect name .object (.root role)).congr fun _ e => by simp

/-- The references of roots are reported one by one. -/
theorem reports_roots (ds : Declarations) (roots : Roots) :
    Reports (ds.rootErrors (some roots)) fun x e =>
      (∃ role, Site.root role = x ∧ ∃ name, roots.type? role = some name ∧
        Misplaced ds.kind? name .object (.root role) e) ∨
      ∃ k, Site.schemaOrphan k = x ∧ ∃ name, roots.orphans[k]? = some name ∧
        Misplaced ds.kind? name .object .schemaOrphan e := by
  have hroles : (Roots.roles.map id).Nodup := by decide
  have hroots := (Reports.flatMap_of_nodup hroles fun role _ =>
    reports_root ds role (roots.type? role)).map (f := fun x => Site.root x.1)
      fun _ _ h => Prod.ext (Site.root.inj h) rfl
  rw [rootErrors_some]
  refine (hroots.append (Declarations.reports_flatMap_expect (fun _ _ => Site.schemaOrphan.inj) ds
    id .object (fun _ => .schemaOrphan) roots.orphans) ?_).congr fun x e => or_congr_left ?_
  · rintro _ _ _ ⟨_, rfl, -⟩ ⟨_, ⟨⟩, -⟩
  · constructor
    · rintro ⟨⟨role, _⟩, rfl, role', -, hrole, h⟩
      obtain rfl : role' = role := hrole
      exact ⟨role', rfl, h⟩
    · rintro ⟨role, rfl, h⟩
      exact ⟨(role, ()), rfl, role, by cases role <;> decide, rfl, h⟩

/-- What is wrong with the roots is reported. -/
theorem reports_rootErrors (settings : Settings) (hbuild : .build ∉ ops) :
    Reports ((run settings ops).declarations.rootErrors (run settings ops).roots)
      fun x e => x.check = .roots ∧ Violation settings ops x e := by
  have hafter : After settings ops (run settings ops) := after_run hbuild
  have hunrooted (x : Site) (e : Error) :
      x.check = .roots ∧ Violation settings ops x e ↔ Unrooted ops x e := by
    constructor
    · rintro ⟨hcheck, h⟩
      cases h with
      | unrooted h => exact h
      | taken | furtherRoots => cases hcheck
      | repeats _ h | mistypes _ h | misrefers _ h | misimplements _ h =>
        cases h.check.symm.trans hcheck
    · intro h
      exact ⟨by cases h <;> rfl, .unrooted h⟩
  simp only [hunrooted, hafter.roots]
  cases hroots : ops.flatMap Operation.roots with
  | nil =>
    refine Reports.singleton (x := Site.noRoots) fun x e => ⟨fun h => ?_, ?_⟩
    · cases h with
      | noRoots => exact ⟨rfl, rfl⟩
      | root hr | schemaOrphan hr => simp [hroots] at hr
    · rintro ⟨rfl, rfl⟩
      exact .noRoots hroots
  | cons roots rest =>
    have hfirst : (ops.flatMap Operation.roots).head? = some roots := by rw [hroots]; rfl
    refine (reports_roots _ roots).congr fun x e => ?_
    rw [hafter.kinds]
    constructor
    · rintro (⟨role, rfl, name, hname, hplace⟩ | ⟨k, rfl, name, hname, hplace⟩)
      · exact .root hfirst hname hplace
      · exact .schemaOrphan hfirst hname hplace
    · rintro (hnone | ⟨hr, hname, hplace⟩ | ⟨hr, hname, hplace⟩)
      · cases hroots.symm.trans hnone
      · obtain rfl := Option.some.inj (hfirst.symm.trans hr)
        exact .inl ⟨_, rfl, _, hname, hplace⟩
      · obtain rfl := Option.some.inj (hfirst.symm.trans hr)
        exact .inr ⟨_, rfl, _, hname, hplace⟩

/-! ## Runs -/

theorem flatMap_compositions (ds : Declarations) :
    ds.compositions.flatMap (·.errors) = ds.definitions.flatMap fun d =>
      match d.body with
      | .object o => (ds.compose d.name o).errors
      | _ => [] := by
  rw [Declarations.compositions, List.filterMap_eq_flatMap_toList, List.flatMap_assoc]
  refine List.flatMap_congr fun d _ => ?_
  cases d.body <;> simp

/-- The references of all definitions are reported. -/
theorem reports_references (settings : Settings) (hbuild : .build ∉ ops) :
    Reports ((run settings ops).declarations.definitions.flatMap
        (run settings ops).declarations.definitionErrors)
      fun x e => x.check = .references ∧ Violation settings ops x e := by
  have hafter : After settings ops (run settings ops) := after_run hbuild
  have hcalls := reports_flatMap_definitions settings hbuild
    (P := fun d part e => d.Mistypes settings.autoCamelize.truthy (kind? ops) part e ∨
      (accepted settings.autoCamelize.truthy d).1.Misrefers (kind? ops) part e)
    (fun d hd => by rw [Declarations.definitionErrors, hd])
    fun d _ => hafter.kinds ▸
      (run settings ops).declarations.reports_definitionErrors settings.autoCamelize.truthy d
  refine (hcalls.map Site.declaration_injective).congr fun x e => ⟨?_, ?_⟩
  · rintro ⟨x, rfl, d, hd, h | h⟩
    · exact ⟨h.check, .mistypes hd h⟩
    · exact ⟨h.check, .misrefers hd h⟩
  · rintro ⟨hcheck, h⟩
    cases h with
    | mistypes hd h => exact ⟨(_, _), rfl, _, hd, .inl h⟩
    | misrefers hd h => exact ⟨(_, _), rfl, _, hd, .inr h⟩
    | taken | furtherRoots => cases hcheck
    | repeats _ h | misimplements _ h => cases h.check.symm.trans hcheck
    | unrooted h => cases h <;> cases hcheck

/-- The interfaces of all object types are reported. -/
theorem reports_compositions (settings : Settings) (hbuild : .build ∉ ops) :
    Reports ((run settings ops).declarations.compositions.flatMap (·.errors))
      fun x e => x.check = .composition ∧ Violation settings ops x e := by
  have hafter : After settings ops (run settings ops) := after_run hbuild
  have hcalls := reports_flatMap_definitions settings hbuild
    (G := fun d => match d.body with
      | .object o => ((run settings ops).declarations.compose d.name o).errors
      | _ => [])
    (P := fun d => (accepted settings.autoCamelize.truthy d).1.Misimplements (kind? ops)
      (run settings ops).declarations)
    (fun d hd => by simp only [hd])
    fun d hmem => hafter.kinds ▸ hafter.isOpen.coherent.reports_objectErrors hmem
  rw [flatMap_compositions]
  refine (hcalls.map Site.declaration_injective).congr fun x e => ⟨?_, ?_⟩
  · rintro ⟨x, rfl, d, hd, h⟩
    exact ⟨h.check, .misimplements hd h⟩
  · rintro ⟨hcheck, h⟩
    cases h with
    | misimplements hd h => exact ⟨(_, _), rfl, _, hd, h⟩
    | taken | furtherRoots => cases hcheck
    | repeats _ h | mistypes _ h | misrefers _ h => cases h.check.symm.trans hcheck
    | unrooted h => cases h <;> cases hcheck

/-- The violations of a run are reported site by site: no site is looked at by two checks. -/
theorem reports_violations (settings : Settings) (hbuild : .build ∉ ops) :
    Reports (run settings ops).violations (Violation settings ops) := by
  refine (((reports_problems settings hbuild).append
    ((reports_rootErrors settings hbuild).append (reports_references settings hbuild) ?_)
    ?_).append (reports_compositions settings hbuild) ?_).congr fun x e => ?_
  · rintro x _ _ ⟨hx, -⟩ ⟨hx', -⟩
    cases hx.symm.trans hx'
  · rintro x _ _ ⟨hx, -⟩ (⟨hx', -⟩ | ⟨hx', -⟩) <;> cases hx.symm.trans hx'
  · rintro x _ _ (⟨hx, -⟩ | ⟨hx, -⟩ | ⟨hx, -⟩) ⟨hx', -⟩ <;> cases hx.symm.trans hx'
  · cases x.check <;> simp

/-- What any declarations come to. The violations are reported site by site, each with one error
whatever else is wrong, and nothing else is reported. If there are none a schema is built, and
otherwise the build fails with all of them. -/
theorem run_violations (settings : Settings) (hbuild : .build ∉ ops) :
    ∃ t : Table Site Error, (Table.keys t).Nodup ∧
      (∀ x e, (x, e) ∈ t ↔ Violation settings ops x e) ∧
      (t = [] → ∃ s, (run settings ops).build.outcome = .ok s) ∧
      (t ≠ [] → (run settings ops).build.outcome = .error (.violations (Table.values t))) := by
  obtain ⟨t, hvalues, hkeys, hmem⟩ := reports_violations settings hbuild
  have hopen : (run settings ops).Open := (after_run hbuild).isOpen
  refine ⟨t, hkeys, hmem, ?_, ?_⟩
  · rintro rfl
    exact exists_build_of_violations hvalues.symm hopen.schema
  · rintro ht
    rcases build_of_open hopen with ⟨s, -, hbuilt, -⟩ | ⟨-, -, he⟩
    · rw [hbuilt.violations] at hvalues
      exact absurd (List.map_eq_nil_iff.1 hvalues) ht
    · rw [he, hvalues]

namespace Draft

/-- A title that may be null. -/
def title : Field := { name := "title", type := .named "String" }

/-- A title that is there. -/
def promised : Field := { name := "title", type := .nonNull (.named "String") }

/-- An interface that promises a title. -/
def work : InterfaceType where
  fields := [promised]

/-- An object type with two fields of one name, the first of a type that is not there, and with an
interface that is none. It does not keep the promise of the other one. -/
def book : Definition where
  name := "Book"
  body := .object {
    fields := [
      { name := "author", type := .named "Author" },
      { name := "author", type := .named "String" },
      title]
    interfaces := ["Genre", "Work"] }

/-- An enumeration without values. -/
def genre : Definition where
  name := "Genre"
  body := .enum []

/-- A type under the name of the first one. -/
def again : Definition where
  name := "Book"
  body := .scalar

/-- All four are declared, and no roots. -/
def operations : List Operation := [
  .register book,
  .register genre,
  .register again,
  .register ⟨"Work", none, .interface work⟩]

/-- What is wrong. -/
def violations : Table Site Error := [
  (.declaration 0 (.field 1), .duplicateField "Book" "author" .own),
  (.declaration 0 (.fieldType 0), .unknownType "Author" (some (.field "Book" "author")) false),
  (.declaration 0 (.interface 0), .notAnInterface "Book" "Genre" .enum),
  (.declaration 0 (.contract "Work" "title"), .contractViolation "Work" "Book" "title"
    (.type title.type promised.type)),
  (.declaration 1 .values, .emptyEnum "Genre"),
  (.declaration 2 .name, .duplicateType "Book"),
  (.noRoots, .noQueryRoot)]

/-- The object type as it is taken in, without the further field of the first name. -/
def taken : ObjectType where
  fields := [{ name := "author", type := .named "Author" }, title]
  interfaces := ["Genre", "Work"]

/-- The object type has the title as a field of its own, which is wider than the promised one. -/
theorem breaks_title : (run {} operations).declarations.Breaks "Book" taken ⟨"Work", work⟩ promised
    (.contractViolation "Work" "Book" "title" (.type title.type promised.type)) := by
  have hfails : (run {} operations).declarations.Fails promised title
      (.type title.type promised.type) := .type rfl
  exact .intro (.inl (by decide)) rfl (Declarations.exists_fails_iff.1 ⟨_, hfails⟩) hfails

theorem misimplements_book : (accepted true book).1.Misimplements (kind? operations)
    (run {} operations).declarations (.contract "Work" "title")
    (.contractViolation "Work" "Book" "title" (.type title.type promised.type)) := by
  have himplemented : (run {} operations).declarations.implemented taken.interfaces =
      [⟨"Work", work⟩] := rfl
  have hi : ⟨"Work", work⟩ ∈ (run {} operations).declarations.implemented taken.interfaces := by
    rw [himplemented]
    exact List.mem_cons_self
  have he : promised ∈ work.fields := List.mem_cons_self
  exact .contract (o := taken) (i := ⟨"Work", work⟩) rfl hi he breaks_title

theorem violation {x : Site} {e : Error} (h : (x, e) ∈ violations) :
    Violation {} operations x e := by
  have hbook : Declares operations 0 book := ⟨rfl, by decide⟩
  have hgenre : Declares operations 1 genre := ⟨rfl, by decide⟩
  simp only [violations, List.mem_cons, Prod.mk.injEq, List.not_mem_nil, or_false] at h
  rcases h with
    ⟨rfl, rfl⟩ | ⟨rfl, rfl⟩ | ⟨rfl, rfl⟩ | ⟨rfl, rfl⟩ | ⟨rfl, rfl⟩ | ⟨rfl, rfl⟩ | ⟨rfl, rfl⟩
  · exact .repeats hbook (.field (f := { name := "author", type := .named "String" }) rfl
      (show "author" ∈ ["author"] by decide))
  · refine .mistypes hbook (.fieldType (f := { name := "author", type := .named "Author" }) rfl
      ?_ (.unknown ?_))
    · simp [Definition.IsRepeated]
    · decide
  · exact .misimplements hbook (.wrongKind (k := .enum) rfl (by decide) rfl (by decide))
  · exact .misimplements hbook misimplements_book
  · exact .misrefers hgenre (.noValues rfl)
  · exact .taken (d := again) (k := .object) rfl (by decide)
  · exact .unrooted (.noRoots rfl)

end Draft

/-- A draft in which much is wrong: all of it is reported together. -/
theorem draft_violations :
    .build ∉ Draft.operations ∧
      ∃ t : Table Site Error, (Table.keys t).Nodup ∧
        (∀ x e, (x, e) ∈ t ↔ Violation {} Draft.operations x e) ∧ Draft.violations ⊆ t ∧
        (run {} Draft.operations).build.outcome = .error (.violations (Table.values t)) := by
  have hbuild : .build ∉ Draft.operations := by simp [Draft.operations]
  obtain ⟨t, hkeys, hmem, -, hfails⟩ := run_violations {} hbuild
  have hviolations : Draft.violations ⊆ t := fun x hx => (hmem x.1 x.2).2 (Draft.violation hx)
  refine ⟨hbuild, t, hkeys, hmem, hviolations, hfails ?_⟩
  rintro rfl
  exact List.not_mem_nil (hviolations List.mem_cons_self)

end Registry

end GraphSchema
