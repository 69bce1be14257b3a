import GraphSchema.Schema

/-!
# Type resolution

The concrete type of a value that a field of an abstract type has returned. The resolver of the
abstract type is asked first, then that of the schema; a resolver that answers with something
empty has not answered.

## Main definitions

* `Schema.ask` — the answer of one resolver.
* `Schema.answer` — the first answer that is not empty.
* `Schema.resolveType` — the concrete type of a value.
-/

namespace GraphSchema

namespace Answer

/-- Whether the answer is not empty. -/
def truthy : Answer → Bool
  | value v => v.truthy
  | definition _ => true

/-- The type that the answer names. -/
def typeName : Answer → Except Error String
  | value v => (Spec.ofValue v).typeName
  | definition name => .ok name

end Answer

namespace Schema

/-- The answer of a resolver. A definition that it answers with must be there. -/
def ask (s : Schema) (f : ResolveType) (v : Value) (ctx : Option Context) :
    Except Error Answer := do
  let answer ← f v ctx
  match answer with
  | .definition name => (fun _ => answer) <$> s.definition (some name)
  | .value _ => return answer

/-- The answer of the resolver `own`, or if that is empty the answer of the schema's own
resolver. -/
def answer (s : Schema) (own : Option ResolveType) (v : Value) (ctx : Option Context) :
    Except Error Answer := do
  let first ← match own with
    | some f => s.ask f v ctx
    | none => pure (.value .null)
  if first.truthy then return first
  match s.roots.resolveType with
  | some f => s.ask f v ctx
  | none => return first

/-- The possible type of an abstract type that an answer names. -/
def conclude (s : Schema) (abstract : String) (answer : Answer) : Except Error Definition := do
  if !answer.truthy then throw (.unresolvable abstract)
  let name ← answer.typeName
  if !s.isReachable name then
    throw (.unknownType name (some (.resolution abstract)) (s.find name).isSome)
  if !s.isPossible abstract name then throw (.impossible abstract name)
  s.definition (some name)

/-- The concrete type of a value of a declared type. -/
def resolveType (s : Schema) (v : Value) (declared : Spec) (ctx : Option Context) :
    Except Error Definition := do
  let name ← declared.typeName
  let d ← s.getType name
  match d.body with
  | .object _ => return d
  | .interface i => s.conclude name (← s.answer i.resolveType v ctx)
  | .union u => s.conclude name (← s.answer u.resolveType v ctx)
  | _ => throw (.notAbstract name d.kind)

end Schema

end GraphSchema
