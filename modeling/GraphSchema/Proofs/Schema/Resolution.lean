import GraphSchema.Proofs.Reachability
import GraphSchema.Schema.Resolution

/-!
# What type resolution comes to

The outcome of type resolution, case by case: by what is declared for the value, and by what the
resolvers answer.

## Main definitions

* `Schema.Resolver` — the resolvers that a schema asks.

## Main statements

* `Schema.resolveType_of_getType` — resolution for a type of the schema.
* `Schema.conclude_of_typeName` — what the name of a type in an answer comes to.
-/

namespace GraphSchema

namespace Schema

variable {s : Schema} {abstract name : String} {answer : Answer} {v : Value} {declared : Spec}
variable {ctx : Option Context} {d : Definition}

/-! ## Types -/

theorem getType_of_unreachable (h : s.isReachable name = false) :
    s.getType name = .error (.unknownType name none (s.find name).isSome) := by
  rw [getType, h]
  rfl

theorem mem_reachableTypes_of_getType (h : s.getType name = .ok d) : d ∈ s.reachableTypes := by
  unfold getType definition at h
  split at h
  · next hr =>
    split at h
    · next e he =>
      obtain rfl := Except.ok.inj h
      exact List.mem_filterMap.2 ⟨name, Declarations.contains_iff_mem_reachable.1 hr, he⟩
    · cases h
  · cases h

/-! ## Outcomes -/

/-- The resolvers that a schema asks: those of its abstract types, and its own. -/
inductive Resolver (s : Schema) (f : ResolveType) : Prop
  | interface {d : Definition} {i : InterfaceType} : d ∈ s.reachableTypes →
      d.body = .interface i → i.resolveType = some f → s.Resolver f
  | union {d : Definition} {u : UnionType} : d ∈ s.reachableTypes →
      d.body = .union u → u.resolveType = some f → s.Resolver f
  | schema : s.roots.resolveType = some f → s.Resolver f

theorem resolveType_of_getType_error {e : Error} (hname : declared.typeName = .ok name)
    (h : s.getType name = .error e) : s.resolveType v declared ctx = .error e := by
  rw [resolveType, hname]
  simp only [bind, Except.bind, h]

/-- An object type is its own concrete type, and for an abstract type the resolvers are asked. -/
theorem resolveType_of_getType (hname : declared.typeName = .ok name)
    (h : s.getType name = .ok d) :
    s.resolveType v declared ctx =
      match d.body with
      | .object _ => .ok d
      | .interface i => s.answer i.resolveType v ctx >>= s.conclude name
      | .union u => s.answer u.resolveType v ctx >>= s.conclude name
      | _ => .error (.notAbstract name d.kind) := by
  rw [resolveType, hname]
  simp only [bind, Except.bind, h]
  cases d.body <;> rfl

/-- The name of a type in an answer has to be that of a possible type. -/
theorem conclude_of_typeName (h : answer.truthy = true) (hname : answer.typeName = .ok name) :
    s.conclude abstract answer =
      if s.isReachable name then
        if s.isPossible abstract name then s.definition (some name)
        else .error (.impossible abstract name)
      else .error (.unknownType name (some (.resolution abstract)) (s.find name).isSome) := by
  rw [conclude, h, hname]
  cases hr : s.isReachable name with
  | false => simp [bind, Except.bind, throw, throwThe, MonadExceptOf.throw, hr]
  | true =>
    cases hp : s.isPossible abstract name with
    | false => simp [bind, Except.bind, throw, throwThe, MonadExceptOf.throw, hr, hp]
    | true => simp [bind, Except.bind, hr, hp]

end Schema

end GraphSchema
