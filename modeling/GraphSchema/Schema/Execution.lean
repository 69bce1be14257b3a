import GraphSchema.Schema

/-!
# Execution of fields

The value of one field of a parent value.

## Main definitions

* `Field.coerce` — the arguments with defaults filled in, checked against the field.
* `Schema.fieldContext` — the context for one field.
* `Schema.resolveField` — the value of a field.
-/

namespace GraphSchema

namespace Field

/-- The names of given arguments that the field does not have, sorted. -/
def unknownArguments (f : Field) (args : Arguments) : List String :=
  ((Table.keys args).filter fun name => (f.argument? name).isNone).mergeSort

/-- What is passed for one argument: what is given, else its default; nothing if it may be left
out. -/
def coerceArgument (a : Argument) (args : Arguments) : Except ArgumentFault (Option Value) :=
  match Table.get? args a.name with
  | some .null => if a.type.isNonNull then .error (.null a.name) else .ok (some .null)
  | some v => .ok (some v)
  | none =>
    match a.defaultValue with
    | some v => .ok (some v)
    | none => if a.required then .error (.missing a.name) else .ok none

/-- What is passed for the arguments, added to what is passed already. -/
def coerceAll (args : Arguments) (passed : Arguments) :
    List Argument → Except ArgumentFault Arguments
  | [] => .ok passed
  | a :: rest => do
    match ← coerceArgument a args with
    | some v => coerceAll args (Table.insert passed a.name v) rest
    | none => coerceAll args passed rest

/-- The arguments that are passed to a field of a type, in order of declaration. -/
def coerce (f : Field) (type : String) (args : Arguments) : Except Error Arguments :=
  match f.unknownArguments args with
  | [] => (coerceAll args [] f.arguments).mapError (.badArguments type f.name)
  | names => .error (.badArguments type f.name (.unknown names))

end Field

namespace Schema

/-- The context for one field: it carries the settings of the schema unless it has others. -/
def fieldContext (s : Schema) (ctx : Option Context) (type fieldName : String) : Context :=
  let ctx := ctx.getD {}
  Context.forField { ctx with settings := ctx.settings <|> some s.settings } type fieldName

/-- The value of a field of a parent value: what its behavior computes, or else the part of the
parent that bears its name. -/
def resolveField (s : Schema) (type fieldName : String) (parent : Value) (args : Arguments)
    (ctx : Option Context) : Except Error Value := do
  let f ← s.lookupField type fieldName
  let passed ← f.coerce type args
  match Table.get? (s.behaviorTable type) fieldName with
  | some b => b.run parent passed (some (s.fieldContext ctx type fieldName))
  | none => return parent.resolve fieldName

end Schema

end GraphSchema
