import GraphSchema.Definition

/-!
# Type resolvers

Common functions that tell the concrete type of a value.
-/

namespace GraphSchema.ResolveType

/-- Always the same answer, or the same failure. -/
def always (result : Except Error Value) : ResolveType := fun _ _ => .value <$> result

/-- Always the definition of a name. -/
def definition (name : String) : ResolveType := fun _ _ => .ok (.definition name)

/-- The entry of a map under a key. -/
def byKey (key : Value) : ResolveType := fun v _ =>
  match v with
  | .map entries => do
    let found ← Value.under entries key
    return .value (found.getD .null)
  | _ => .ok (.value .null)

/-- A value of the request. -/
def byContext (key : Value) : ResolveType := fun _ ctx =>
  match ctx with
  | some ctx => .value <$> ctx.item key
  | none => .ok (.value .null)

/-- The answer beside the first class in the list that the value is an instance of. -/
def byClass (answers : List (Class × Value)) : ResolveType := fun v _ =>
  .ok (.value (((answers.find? fun e => v.lineage.contains e.1).map (·.2)).getD .null))

end GraphSchema.ResolveType
