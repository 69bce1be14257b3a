import GraphSchema.Proofs.FieldStore
import GraphSchema.Proofs.Registry.Run
import GraphSchema.Schema.Resolution

/-!
# Sessions

Everything that can be asked of a registry, in any order: declarations, builds, writes to its store
of fields, and inquiries about the schema. A registry goes through two phases. Until a schema is
built, inquiries are refused, and a build that fails leaves no trace. From then on the registry
does not change any more, and replies from that schema.

## Main definitions

* `Inquiry`, `Schema.reply` — what is asked of a schema, and what it replies.
* `Request`, `Reply`, `Registry.serve` — what is asked of a registry, and what it replies.
* `Registry.after`, `Registry.trace` — the registry after a session, and the requests with replies.
* `Registry.Sealed` — a registry that replies from its schema and refuses to change.

## Main statements

* `Registry.Guarded.serve`, `Registry.Guarded.schema_serve` — what one request keeps.
* `Registry.Guarded.schema_after` — the schema is that of the first build.
* `Registry.Guarded.trace_kept` — builds that fail can be left out.
* `Registry.after_map_request` — runs are sessions.
* `Registry.session_phases` — both phases of any session.
-/

namespace GraphSchema

/-! ## Requests and replies -/

/-- What is asked about a schema through its registry. -/
inductive Inquiry where
  | schema
  | effectiveFields (type : String)
  | effectiveBehavior (type fieldName : String)
  | lookupField (type fieldName : String)
  | resolveType (v : Value) (declared : Spec) (ctx : Option Context)
  | reachableTypes

/-- The name of the operation that an inquiry calls. -/
def Inquiry.operation : Inquiry → String
  | schema => "schema"
  | effectiveFields _ => "effective_fields"
  | effectiveBehavior .. => "effective_behavior"
  | lookupField .. => "lookup_field"
  | resolveType .. => "resolve_type"
  | reachableTypes => "reachable_types"

/-- What is asked of a registry. A build reports its errors, and `finalize` fails with them. -/
inductive Request where
  | register (d : Definition)
  | declareRoots (given : RootSpecs)
  | build
  | finalize
  | write (w : Write)
  | inquire (q : Inquiry)

/-- What a registry replies. -/
inductive Reply where
  | registered (d : Definition)
  | declared (roots : Roots)
  | built (s : Schema)
  | rejected (errors : List Error)
  | written
  | schema (s : Schema)
  | fields (fs : List Field)
  | behavior (b : Behavior)
  | field (f : Field)
  | type (d : Definition)
  | types (ds : List Definition)

/-- What a schema replies to an inquiry. -/
def Schema.reply (s : Schema) : Inquiry → Except Error Reply
  | .schema => .ok (.schema s)
  | .effectiveFields type => .fields <$> s.effectiveFields type
  | .effectiveBehavior type fieldName => .behavior <$> s.effectiveBehavior type fieldName
  | .lookupField type fieldName => .field <$> s.lookupField type fieldName
  | .resolveType v declared ctx => .type <$> s.resolveType v declared ctx
  | .reachableTypes => .ok (.types s.reachableTypes)

/-- What is reported of a build: its schema, or its errors unless it is refused. -/
def Build.reply (b : Build) : Except BuildFailure Reply :=
  match b.outcome with
  | .ok s => .ok (.built s)
  | .error (.violations errors) => .ok (.rejected errors)
  | .error (.refused e) => .error (.refused e)

namespace Registry

/-- The reply to an operation on the registry, which stays as it is if the operation fails. -/
def settle {α : Type} (r : Registry) (reply : α → Reply) :
    Except Error (α × Registry) → Except BuildFailure Reply × Registry
  | .ok (a, r') => (.ok (reply a), r')
  | .error e => (.error (.refused e), r)

/-- The reply to a request, and the registry after it. -/
def serve (r : Registry) : Request → Except BuildFailure Reply × Registry
  | .register d => r.settle .registered (r.register d)
  | .declareRoots given => r.settle .declared (r.declareRoots given)
  | .build => (r.build.reply, r.build.registry)
  | .finalize => (.built <$> r.build.outcome, r.build.registry)
  | .write w =>
    r.settle (fun _ => .written) ((fun store => ((), r.withFields store)) <$>
      w.apply r.declarations.fields)
  | .inquire q => ((do (← r.requireSchema q.operation).reply q).mapError .refused, r)

/-- The registry after requests in order. -/
def after (r : Registry) (reqs : List Request) : Registry :=
  reqs.foldl (fun r req => (r.serve req).2) r

/-- A request with its reply. -/
abbrev Entry := Request × Except BuildFailure Reply

/-- Requests in order, each with its reply. -/
def trace (r : Registry) : List Request → List Entry
  | [] => []
  | req :: reqs => (req, (r.serve req).1) :: trace (r.serve req).2 reqs

/-- The schema of a build that succeeds. -/
def Entry.built? : Entry → Option Schema
  | (_, .ok (.built s)) => some s
  | _ => none

/-- Whether an entry is that of a build which fails. -/
def Entry.failedBuild : Entry → Bool
  | (.build, reply) | (.finalize, reply) => (Entry.built? (.build, reply)).isNone
  | _ => false

/-- A registry over a schema. Inquiries are answered by the schema, builds give it again, every
declaration and every write is refused, and nothing changes. -/
structure Sealed (r : Registry) (s : Schema) : Prop where
  inquire : ∀ q, r.serve (.inquire q) = ((s.reply q).mapError .refused, r)
  build : r.serve .build = (.ok (.built s), r)
  finalize : r.serve .finalize = (.ok (.built s), r)
  register : ∀ d, r.serve (.register d) = (.error (.refused (.frozenType d.name)), r)
  declareRoots : ∀ given, given.query.isSome →
    r.serve (.declareRoots given) = (.error (.refused .frozenRoots), r)
  define : ∀ owner f layer,
    r.serve (.write (.define owner f layer)) = (.error (.refused (.frozenField owner f.name)), r)
  setEffective : ∀ owner fields,
    r.serve (.write (.setEffective owner fields)) = (.error (.refused (.frozenEffective owner)), r)
  unchanged : ∀ req, (r.serve req).2 = r

/-! ## A registry with a schema -/

/-- A registry whose store is closed once there is a schema. -/
def Guarded (r : Registry) : Prop := r.schema.isSome → r.declarations.fields.frozen = true

variable {r : Registry} {s : Schema} {req : Request} {reqs later : List Request}

/-- Over a schema with a closed store a registry is sealed. -/
theorem Guarded.isSealed (h : r.Guarded) (hs : r.schema = some s) : r.Sealed s := by
  have hfrozen : r.declarations.fields.frozen = true := h (by rw [hs]; rfl)
  have hbuild : r.build = { registry := r, outcome := .ok s } := by rw [Registry.build, hs]
  have hinquire (q : Inquiry) :
      r.serve (.inquire q) = ((s.reply q).mapError .refused, r) := by
    rw [serve, requireSchema, hs]
    rfl
  have hregister (d : Definition) :
      r.serve (.register d) = (.error (.refused (.frozenType d.name)), r) := by
    simp [serve, Registry.register, hs, settle]
  have hdeclare (given : RootSpecs) : r.serve (.declareRoots given) =
      (.error (.refused (if given.query.isSome then .frozenRoots else .missingQuery)), r) := by
    rw [serve, Registry.declareRoots, hs]
    cases given.query <;> rfl
  have hdefine (owner : String) (f : Field) (layer : Layer) :
      r.serve (.write (.define owner f layer)) =
        (.error (.refused (.frozenField owner f.name)), r) := by
    rw [serve, Write.apply, FieldStore.define, if_pos hfrozen]
    rfl
  have hset (owner : String) (fields : List Field) :
      r.serve (.write (.setEffective owner fields)) =
        (.error (.refused (.frozenEffective owner)), r) := by
    rw [serve, Write.apply, FieldStore.setEffective, if_pos hfrozen]
    rfl
  have hfreeze : r.serve (.write .freeze) = (.ok .written, r) := by
    rw [serve, Write.apply, FieldStore.freeze_of_frozen hfrozen]
    rfl
  exact {
    inquire := hinquire
    build := by rw [serve, hbuild]; rfl
    finalize := by rw [serve, hbuild]; rfl
    register := hregister
    declareRoots := fun given hg => by rw [hdeclare, if_pos hg]
    define := hdefine
    setEffective := hset
    unchanged := fun req => by
      cases req with
      | register d => rw [hregister]
      | declareRoots given => rw [hdeclare]
      | build | finalize => rw [serve, hbuild]
      | write w => cases w with
        | define owner f layer => rw [hdefine]
        | setEffective owner fields => rw [hset]
        | freeze => rw [hfreeze]
      | inquire q => rw [hinquire] }

/-! ## A registry without a schema -/

theorem schema_of_register {d d' : Definition} {r' : Registry} (h : r.register d = .ok (d', r')) :
    r'.schema = r.schema := by
  unfold register at h
  split at h
  · cases h
  · split at h
    · cases h
      rfl
    · split at h
      · obtain ⟨x, -, h⟩ := exists_of_bind_eq_ok h
        cases h
        rfl
      · obtain ⟨x, -, h⟩ := exists_of_bind_eq_ok h
        cases h
        rfl
      · cases h
        rfl
      · cases h
        rfl

/-- How the first build ends: with a schema over which the registry is closed, or in failure, which
leaves the registry as it is. -/
theorem build_of_schema_none (h : r.schema = none) :
    (∃ s, r.build.outcome = .ok s ∧ r.build.registry.schema = some s ∧
      r.build.registry.declarations.fields.frozen = true) ∨
    ∃ failure, r.build.outcome = .error failure ∧ r.build.registry = r := by
  unfold build
  rw [h]
  split
  · next s hs => cases hs
  · split
    · cases hstore : r.composedStore with
      | ok store => exact .inl ⟨_, rfl, rfl, rfl⟩
      | error e => exact .inr ⟨_, rfl, rfl⟩
    · exact .inr ⟨_, rfl, rfl⟩

/-- Without a schema inquiries are refused, and no request but a build that succeeds brings one. -/
theorem schema_serve_of_none (h : r.schema = none) (req : Request) :
    (r.serve req).2.schema = Entry.built? (req, (r.serve req).1) ∧ (r.serve req).2.Guarded := by
  have hguarded {r' : Registry} (hr : r'.schema = none) : r'.Guarded := by
    simp [Guarded, hr]
  cases req with
  | register d =>
    cases hd : r.register d with
    | error e =>
      simp only [serve, hd, settle]
      exact ⟨h, hguarded h⟩
    | ok out =>
      have hs : out.2.schema = none := (schema_of_register hd).trans h
      simp only [serve, hd, settle]
      exact ⟨hs, hguarded hs⟩
  | declareRoots given =>
    rcases declareRoots_cases r given with ⟨e, he⟩ | ⟨query, roots, he, -⟩
    · simp only [serve, he, settle]
      exact ⟨h, hguarded h⟩
    · have hs : (r.setRoots roots).schema = none := schema_setRoots.trans h
      simp only [serve, he, settle]
      exact ⟨hs, hguarded hs⟩
  | build | finalize =>
    rcases build_of_schema_none h with ⟨s, ho, hs, hf⟩ | ⟨failure, ho, hr⟩
    · simp only [serve, Build.reply, ho]
      exact ⟨hs, fun _ => hf⟩
    · simp only [serve, Build.reply, ho, hr]
      refine ⟨?_, hguarded h⟩
      cases failure <;> exact h
  | write w =>
    cases hw : w.apply r.declarations.fields with
    | error e =>
      simp only [serve, hw]
      exact ⟨h, hguarded h⟩
    | ok store =>
      have hs : (r.withFields store).schema = none := h
      simp only [serve, hw]
      exact ⟨hs, hguarded hs⟩
  | inquire q =>
    simp only [serve, requireSchema, h]
    exact ⟨rfl, hguarded h⟩

theorem inquire_of_none (h : r.schema = none) (q : Inquiry) :
    r.serve (.inquire q) = (.error (.refused (.notFinalized q.operation)), r) := by
  rw [serve, requireSchema, h]
  rfl

/-! ## Any request -/

theorem Guarded.serve (h : r.Guarded) (req : Request) : (r.serve req).2.Guarded := by
  cases hs : r.schema with
  | none => exact (schema_serve_of_none hs req).2
  | some s =>
    rw [(h.isSealed hs).unchanged]
    exact h

/-- After a request there is the schema that there was, or else the one that has been built. -/
theorem Guarded.schema_serve (h : r.Guarded) (req : Request) :
    (r.serve req).2.schema = r.schema.or (Entry.built? (req, (r.serve req).1)) := by
  cases hs : r.schema with
  | none => exact (schema_serve_of_none hs req).1
  | some s => rw [(h.isSealed hs).unchanged, hs, Option.some_or]

/-- A build that fails leaves no trace. -/
theorem Guarded.serve_of_failedBuild (h : r.Guarded)
    (hfailed : Entry.failedBuild (req, (r.serve req).1) = true) : (r.serve req).2 = r := by
  cases hs : r.schema with
  | some s => exact (h.isSealed hs).unchanged req
  | none =>
    cases req with
    | build | finalize =>
      rcases build_of_schema_none hs with ⟨s, ho, -⟩ | ⟨failure, -, hr⟩
      · simp [Registry.serve, Build.reply, ho, Entry.failedBuild, Entry.built?] at hfailed
      · exact hr
    | register | declareRoots | write | inquire => cases hfailed

/-! ## Sessions -/

theorem guarded_fresh (settings : Settings) : ({ settings } : Registry).Guarded := by
  simp [Guarded]

theorem Guarded.after (h : r.Guarded) : (r.after reqs).Guarded := by
  induction reqs generalizing r with
  | nil => exact h
  | cons req reqs ih => exact ih (h.serve req)

/-- After a session there is the schema that there was, or else the first one that has been
built. -/
theorem Guarded.schema_after (h : r.Guarded) :
    (r.after reqs).schema = r.schema.or ((r.trace reqs).findSome? Entry.built?) := by
  induction reqs generalizing r with
  | nil => simp [Registry.after, trace]
  | cons req reqs ih =>
    rw [trace, List.findSome?_cons]
    refine (ih (h.serve req)).trans ?_
    rw [h.schema_serve req, Option.or_assoc]
    cases Entry.built? (req, (r.serve req).1) <;> rfl

/-- The requests of a session but for the builds that failed. -/
def kept (r : Registry) (reqs : List Request) : List Request :=
  ((r.trace reqs).filter (!Entry.failedBuild ·)).map (·.1)

/-- The builds that fail can be left out: every other request has the same reply, and the registry
ends up the same. -/
theorem Guarded.trace_kept (h : r.Guarded) :
    r.trace (r.kept reqs) = (r.trace reqs).filter (!Entry.failedBuild ·) ∧
      r.after (r.kept reqs) = r.after reqs := by
  induction reqs generalizing r with
  | nil => exact ⟨rfl, rfl⟩
  | cons req reqs ih =>
    cases hfailed : Entry.failedBuild (req, (r.serve req).1) with
    | true =>
      have hsame := h.serve_of_failedBuild hfailed
      have hkept : r.kept (req :: reqs) = r.kept reqs := by simp [kept, trace, hfailed, hsame]
      rw [hkept, trace, List.filter_cons_of_neg (by simp [hfailed]), hsame]
      refine ⟨(ih h).1, (ih h).2.trans ?_⟩
      rw [Registry.after, Registry.after, List.foldl_cons, hsame]
    | false =>
      have hkept : r.kept (req :: reqs) = req :: (r.serve req).2.kept reqs := by
        simp [kept, trace, hfailed]
      obtain ⟨htrace, hafter⟩ := ih (h.serve req)
      rw [hkept, trace, trace, List.filter_cons_of_pos (by simp [hfailed]), htrace]
      exact ⟨rfl, hafter⟩

/-- An operation of a run as a request. -/
def Operation.request : Operation → Request
  | .register d => .register d
  | .declareRoots given => .declareRoots given
  | .build => .build

theorem serve_request (r : Registry) (op : Operation) :
    (r.serve op.request).2 = r.perform op := by
  cases op with
  | register d =>
    simp only [Operation.request, serve, perform]
    cases r.register d <;> rfl
  | declareRoots given =>
    simp only [Operation.request, serve, perform]
    cases r.declareRoots given <;> rfl
  | build => rfl

/-- Runs are sessions. -/
theorem after_map_request (r : Registry) (ops : List Operation) :
    r.after (ops.map Operation.request) = ops.foldl perform r := by
  rw [after, List.foldl_map]
  exact List.foldl_ext _ _ _ fun r op _ => serve_request r op

theorem Sealed.after (h : r.Sealed s) : r.after later = r := by
  induction later with
  | nil => rfl
  | cons req later ih => rw [Registry.after, List.foldl_cons, h.unchanged, ← Registry.after, ih]

/-- The phases of any session on a fresh registry. Until a build succeeds every inquiry is refused.
Builds that fail can be left out, and every other reply and the registry stay the same. Once a
build has succeeded the registry is sealed over its schema, whatever is asked of it later. -/
theorem session_phases (settings : Settings) (reqs : List Request) :
    ((trace { settings } reqs).findSome? Entry.built? = none → ∀ q,
      (after { settings } reqs).serve (.inquire q) =
        (.error (.refused (.notFinalized q.operation)), after { settings } reqs)) ∧
    (trace { settings } (kept { settings } reqs) =
        (trace { settings } reqs).filter (!Entry.failedBuild ·) ∧
      after { settings } (kept { settings } reqs) = after { settings } reqs) ∧
    ∀ s, (trace { settings } reqs).findSome? Entry.built? = some s →
      (after { settings } reqs).Sealed s ∧
      ∀ later, after { settings } (reqs ++ later) = after { settings } reqs := by
  have hguarded := guarded_fresh settings
  have hschema : (after { settings } reqs).schema =
      (trace { settings } reqs).findSome? Entry.built? := hguarded.schema_after
  refine ⟨fun hnone q => inquire_of_none (hschema.trans hnone) q, hguarded.trace_kept,
    fun s hs => ?_⟩
  have hafter : (after { settings } reqs).Guarded := hguarded.after
  have hsealed := hafter.isSealed (hschema.trans hs)
  refine ⟨hsealed, fun later => ?_⟩
  rw [after, List.foldl_append]
  exact hsealed.after

namespace Sample

/-- The small run with a build before the object type is declared, and one after it. -/
def retried : List Request := [
  .register ⟨"Node", none, .interface node⟩,
  .declareRoots { query := some (some (.text "Query")) },
  .build,
  .register ⟨"Query", none, .object query⟩,
  .finalize]

end Sample

/-- The first build fails, so that it can be left out, and the second one seals the registry. -/
theorem sample_session :
    kept {} Sample.retried = Sample.retried.eraseIdx 2 ∧
    ∃ s, (after {} (Sample.retried.eraseIdx 2)).Sealed s := by
  have hkept : kept {} Sample.retried = Sample.retried.eraseIdx 2 := rfl
  obtain ⟨-, ⟨-, hafter⟩, hsealed⟩ := session_phases {} Sample.retried
  rw [hkept] at hafter
  refine ⟨hkept, ?_⟩
  rw [hafter]
  cases hs : (trace {} Sample.retried).findSome? Entry.built? with
  | some s => exact ⟨s, (hsealed s hs).1⟩
  | none => cases hs

end Registry

end GraphSchema
