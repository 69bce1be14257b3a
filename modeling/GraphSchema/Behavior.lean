import GraphSchema.Context
import GraphSchema.GlobalId
import GraphSchema.Name

/-!
# Behaviors

Behaviors compute the values of fields. A behavior may need to know the type that it belongs
to; such a behavior is bound to each type that it is composed into. A field without a behavior
resolves to the part of the parent value that bears the name of the field, in the spelling with
underscores or else as declared.

## Main definitions

* `Value.resolve` — what a field without a behavior resolves to.
* `Behavior` — a behavior, with the label that its author gave it.
* `Behavior.bind` — the behavior as part of a type.
* `Behavior.run` — the value that it computes.
* `Behavior.always`, `Behavior.globalId`, … — behaviors for common needs.
-/

namespace GraphSchema

/-! ## Default resolution -/

namespace Value

/-- What the value has under one name: an entry of a map, a member of anything else. -/
def part? : Value → String → Option Value
  | map entries, name => lookup entries name
  | v, name => v.member? name

/-- What the value has under the name of a field; null if it has nothing. -/
def resolve (v : Value) (name : String) : Value :=
  (v.part? (snakeCase name) <|> v.part? name).getD null

end Value

/-! ## Behaviors -/

/-- The arguments of a field by name. -/
abbrev Arguments := Table String Value

/-- What a behavior does: compute a value from the parent value, the arguments and the context;
do so knowing the type that it is bound to; or encode the global ID of the parent value. -/
inductive Action where
  | compute (f : Value → Arguments → Option Context → Except Error Value)
  | owned (f : Option String → Value → Arguments → Option Context → Except Error Value)
  | globalId (idAttribute : String)

/-- A behavior: a label by which its author knows it, what it does, and the type that it is
bound to. -/
structure Behavior where
  label : String
  action : Action
  owner : Option String := none

namespace Behavior

/-- The behavior as part of a type. Only behaviors that need their type are changed. -/
def bind (b : Behavior) (typeName : String) : Behavior :=
  match b.action with
  | .compute _ => b
  | _ => { b with owner := some typeName }

/-- The type that a global ID names: the type the behavior is bound to, else the type that the
context names. -/
def globalIdType (owner : Option String) (ctx : Option Context) : Except Error String :=
  match (owner.filter (· ≠ "") <|> (ctx.bind (·.parentType)).filter (· ≠ "")) with
  | some typeName => .ok typeName
  | none => .error .unownedGlobalId

/-- The separator that a context prescribes for global IDs. -/
def globalIdSeparator (ctx : Option Context) : String :=
  match ctx.bind (·.settings) with
  | some settings => settings.separator.display
  | none => "-"

/-- The value that a behavior computes. -/
def run (b : Behavior) (parent : Value) (args : Arguments) (ctx : Option Context) :
    Except Error Value :=
  match b.action with
  | .compute f => f parent args ctx
  | .owned f => f b.owner parent args ctx
  | .globalId idAttribute => do
    let typeName ← globalIdType b.owner ctx
    return .str (GlobalId.encode typeName (parent.resolve idAttribute).display
      (globalIdSeparator ctx))

/-! ## Common behaviors -/

/-- Always the same value, or the same failure. -/
def always (label : String) (result : Except Error Value) : Behavior :=
  ⟨label, .compute fun _ _ _ => result, none⟩

/-- The arguments, as pairs. -/
def arguments (label : String) : Behavior :=
  ⟨label, .compute fun _ args _ => .ok (.list (args.map fun (k, v) => .list [.str k, v])), none⟩

/-- The part of the parent value under another name. -/
def part (label name : String) : Behavior :=
  ⟨label, .compute fun parent _ _ => .ok (parent.resolve name), none⟩

/-- The field, the viewer, and whether there is a schema, as the context tells. -/
def contextSummary (label : String) : Behavior :=
  ⟨label, .compute fun _ _ ctx => do
    let ctx ← Context.require ctx "parent_type"
    return .list [.ofOption ctx.parentType, .ofOption ctx.fieldName, ctx.viewer,
      .bool ctx.settings.isSome], none⟩

/-- A value of the request, which has to be there. -/
def contextItem (label : String) (key : Value) : Behavior :=
  ⟨label, .compute fun _ _ ctx => Context.itemOf ctx key, none⟩

/-- A value of the request, or a fallback. If there is no fallback to be had, that is a failure
even where none is needed. -/
def contextGet (label : String) (key : Value) (fallback : Except Error Value) : Behavior :=
  ⟨label, .compute fun _ _ ctx => do
    let ctx ← Context.require ctx "get"
    ctx.get key (← fallback), none⟩

/-- The name of the type that the behavior is bound to. -/
def ownerName (label : String) : Behavior :=
  ⟨label, .owned fun owner _ _ _ => .ok (.ofOption owner), none⟩

/-- The global ID of the parent value, whose identifier is its part `idAttribute`. -/
def globalId (label idAttribute : String) : Behavior := ⟨label, .globalId idAttribute, none⟩

end Behavior

end GraphSchema
