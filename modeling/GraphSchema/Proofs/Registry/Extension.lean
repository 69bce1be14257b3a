import GraphSchema.Proofs.Registry.Provenance
import GraphSchema.Proofs.Schema.Agreement
import GraphSchema.Proofs.Schema.Declared
import GraphSchema.Proofs.Schema.Roots

/-!
# Further types

Types that are declared in addition to those of a schema, and that nothing of it refers to, do not
show in it. Whatever the schema refers to has been declared before, so no reference of it can lead
to one of them.

## Main definitions

* `SameClass` — outcomes that differ in the wording of a failure at most.

## Main statements

* `Registry.find_append` — names that were declared before stand for the same.
* `Registry.roots_append` — the roots are those that were declared before.
* `Registry.run_extension` — what the schema shows is the same.
-/

namespace GraphSchema

/-- Outcomes with the same result, or with failures of the same class. -/
def SameClass {α : Type} (x x' : Except Error α) : Prop :=
  x'.mapError Error.category = x.mapError Error.category

theorem Schema.SameButHint.sameClass {s s' : Schema} {x x' : Except Error Definition}
    (h : s.SameButHint s' x x') : SameClass x x' := by
  rcases h with rfl | ⟨name, place, rfl, rfl⟩
  · rfl
  · rfl

namespace Registry

variable {settings : Settings} {ops : List Operation} {types : List Definition} {s s' : Schema}

/-- The declaration of types leaves the roots. -/
theorem Sound.roots_foldl_register {r : Registry} (h : r.Sound) {roots : Roots}
    (hr : ((types.map Operation.register).foldl Registry.perform r).roots = some roots) :
    r.roots = some roots := by
  induction types generalizing r with
  | nil => exact hr
  | cons d types ih =>
    rcases h.roots_perform (ih (h.perform _) hr) with hr | ⟨_, _, hop, -⟩
    · exact hr
    · cases hop

theorem roots_append
    (hs' : (run settings (ops ++ types.map .register)).build.outcome = .ok s') :
    (run settings (ops ++ types.map .register)).roots = (run settings ops).roots := by
  have hroots := (builtFrom_run hs').roots
  rw [hroots]
  rw [run, List.foldl_append] at hroots
  exact ((sound_run settings ops).roots_foldl_register hroots).symm

/-- What has been declared before is found again. -/
theorem find_append (hs : (run settings ops).build.outcome = .ok s)
    (hs' : (run settings (ops ++ types.map .register)).build.outcome = .ok s') {name : String}
    {d : Definition} (hd : (run settings ops).declarations.find name = some d) :
    (run settings (ops ++ types.map .register)).declarations.find name = some d := by
  have hdefinitions : (run settings ops).declarations.definitions <+:
      (run settings (ops ++ types.map .register)).declarations.definitions := by
    rw [definitions_run (problems_eq_nil hs), definitions_run (problems_eq_nil hs'), declared,
      declared, declaredFrom_append, List.map_append, ← List.append_assoc]
    exact List.prefix_append _ _
  obtain ⟨further, hfurther⟩ := hdefinitions
  rw [Declarations.find, findDefinition] at hd ⊢
  rw [← hfurther, List.find?_append, hd, Option.some_or]

/-- What both runs show alike: everything that the shorter one declares. -/
theorem agreeOn_append (hs : (run settings ops).build.outcome = .ok s)
    (hs' : (run settings (ops ++ types.map .register)).build.outcome = .ok s') :
    s.AgreeOn {name | ∃ d, s.find name = some d} s' := by
  have hb := builtFrom_run hs
  refine hb.agreeOn (builtFrom_run hs') (roots_append hs') ?_ ?_
  · rintro name ⟨d, hd⟩
    rw [hb.find_eq] at hd
    rw [hd, find_append hs hs' hd]
  · intro name d hd
    exact ⟨d, hb.find_eq.trans hd⟩

/-- The description is the same, unless the empty name is given as the query root and is that of a
type only in the longer run. -/
theorem introspect_append (hs : (run settings ops).build.outcome = .ok s)
    (hs' : (run settings (ops ++ types.map .register)).build.outcome = .ok s') :
    s'.introspect = s.introspect ↔
      ¬ (s.roots.query = some "" ∧ s.find "" = none ∧ ∃ d, s'.find "" = some d) := by
  have hagree := agreeOn_append hs hs'
  constructor
  · rintro hsame ⟨hquery, hnone, d, hd⟩
    have hnamed : s'.namedInfo s'.roots.query = .ok (.named d.kind d.name) := by
      rw [hagree.roots, hquery, Schema.namedInfo, Schema.definition, Option.bind_some, hd]
      rfl
    obtain ⟨info, hinfo⟩ := (builtFrom_run hs').exists_introspect_of_query hnamed
    rw [hsame, Schema.introspect_of_missing_query (by rw [hquery, Option.bind_some, hnone])]
      at hinfo
    cases hinfo
  · intro hempty
    refine hagree.introspect ?_
    cases hquery : s.roots.query with
    | none => rfl
    | some name =>
      cases hfind : s.find name with
      | some d => exact hagree.namedInfo ⟨d, hfind⟩
      | none =>
        -- every other name that is given as a root has been checked
        have hname : name = "" := by
          by_contra hne
          obtain ⟨d, hd⟩ := hagree.rooted name
            (Roots.mem_names.2 ⟨.query, Roots.type?_query_eq_some_iff.2 ⟨hquery, hne⟩⟩)
          rw [hfind] at hd
          cases hd
        subst hname
        have hfind' : s'.find "" = none := by
          cases hd : s'.find "" with
          | none => rfl
          | some d => exact absurd ⟨hquery, hfind, d, hd⟩ hempty
        rw [Schema.namedInfo, Schema.namedInfo, Schema.definition, Schema.definition,
          Option.bind_some, Option.bind_some, hfind, hfind']

/-- What a schema shows when further types are declared and a schema is built nevertheless: what is
reachable, the text, the fields and behaviors of reachable types and their possible types are the
same, and type resolution has outcomes of the same class if resolvers have the same results. The
description is the same, unless the empty name is given as the query root and is that of a type only
among the further ones. -/
theorem run_extension (hs : (run settings ops).build.outcome = .ok s)
    (hs' : (run settings (ops ++ types.map .register)).build.outcome = .ok s') :
    s'.reachability.reachable = s.reachability.reachable ∧
    s'.print = s.print ∧ s'.fingerprint = s.fingerprint ∧
    (s'.introspect = s.introspect ↔
      ¬ (s.roots.query = some "" ∧ s.find "" = none ∧ ∃ d, s'.find "" = some d)) ∧
    (∀ name, s.isReachable name = true →
      s'.effectiveFields name = s.effectiveFields name ∧
      s'.effectiveBehaviors name = s.effectiveBehaviors name ∧
      s'.possibleTypes name = s.possibleTypes name) ∧
    ∀ v declared ctx, s.SameAnswers s' v ctx →
      SameClass (s.resolveType v declared ctx) (s'.resolveType v declared ctx) := by
  have hagree := agreeOn_append hs hs'
  refine ⟨hagree.reachable, hagree.print, hagree.fingerprint, introspect_append hs hs',
    fun name hr => ?_, fun v declared ctx hanswers => (hagree.resolveType hanswers).sameClass⟩
  have hn := hagree.visible name hr
  exact ⟨hagree.effectiveFields hn, hagree.effectiveBehaviors hn, hagree.possibleTypes hn⟩

namespace Sample

/-- A further type that implements the interface of the small run. -/
def draft : Definition :=
  ⟨"Draft", none, .object { fields := query.fields, interfaces := ["Node"] }⟩

end Sample

/-- The small run with a further type that implements its interface: the type does not become one
of the possible types. -/
theorem sample_extension :
    ∃ s s', (run {} Sample.operations).build.outcome = .ok s ∧
      (run {} (Sample.operations ++ [Sample.draft].map .register)).build.outcome = .ok s' ∧
      s'.possibleTypes "Node" = s.possibleTypes "Node" ∧ s'.fingerprint = s.fingerprint := by
  obtain ⟨s, hs⟩ := Sample.exists_build
  obtain ⟨s', hs'⟩ : ∃ s',
      (run {} (Sample.operations ++ [Sample.draft].map .register)).build.outcome = .ok s' :=
    exists_build_of_violations rfl rfl
  obtain ⟨-, -, hfingerprint, -, htypes, -⟩ := run_extension hs hs'
  have hnode := Sample.isReachable_node hs
  exact ⟨s, s', hs, hs', (htypes "Node" hnode).2.2, hfingerprint⟩

/-- A type of the empty name, declared after the empty name has been given as the query root, shows
in the description: there is one only with it. -/
theorem rootless_extension :
    ∃ s s', (run {} Rootless.operations).build.outcome = .ok s ∧
      (run {} (Rootless.operations ++
        [⟨"", none, .object {}⟩].map .register)).build.outcome = .ok s' ∧
      s'.introspect ≠ s.introspect := by
  obtain ⟨s, hs⟩ : ∃ s, (run {} Rootless.operations).build.outcome = .ok s :=
    exists_build_of_violations rfl rfl
  obtain ⟨s', hs'⟩ : ∃ s', (run {} (Rootless.operations ++
      [⟨"", none, .object {}⟩].map .register)).build.outcome = .ok s' :=
    exists_build_of_violations rfl rfl
  refine ⟨s, s', hs, hs', fun hsame => (introspect_append hs hs').1 hsame ?_⟩
  have hroots : s.roots = { query := some "" } := Option.some.inj (builtFrom_run hs).roots.symm
  exact ⟨by rw [hroots], (builtFrom_run hs).find_eq, _, (builtFrom_run hs').find_eq⟩

end Registry

end GraphSchema
