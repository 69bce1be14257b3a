import GraphSchema.Settings
import GraphSchema.Value.Key

/-!
# Contexts

The request in which behaviors and type resolvers run.

## Main definitions

* `Context` — the request: its schema's settings, the viewer, further values, and the field
  that is resolved.
* `Context.item`, `Context.get` — a value of the request by key.
* `Context.require`, `Context.itemOf` — a request that need not be there, but has to.
* `Context.forField` — the context for one field.
-/

namespace GraphSchema

/-- One request. Of the schema that it runs against a context carries the settings; a context
outside any schema carries none. The further values are the entries of a map. -/
structure Context where
  settings : Option Settings := none
  viewer : Value := .null
  values : List (Value × Value) := []
  parentType : Option String := none
  fieldName : Option String := none

namespace Context

/-- The value under a key; the key `viewer` always stands for the viewer. -/
def item (ctx : Context) (key : Value) : Except Error Value :=
  if Value.same (.str "viewer") key then .ok ctx.viewer
  else do
    let some v ← Value.under ctx.values key | throw (.missingKey key)
    return v

/-- The value under a key, or `fallback` if there is none. -/
def get (ctx : Context) (key fallback : Value) : Except Error Value :=
  match ctx.item key with
  | .error (.missingKey _) => .ok fallback
  | r => r

/-- The request, which has to be there for the sake of something that belongs to it. -/
def require (ctx : Option Context) (member : String) : Except Error Context :=
  match ctx with
  | some ctx => .ok ctx
  | none => .error (.noAttribute Value.null.className member)

/-- The value under a key of a request, which has to be there. -/
def itemOf (ctx : Option Context) (key : Value) : Except Error Value :=
  match ctx with
  | some ctx => ctx.item key
  | none => .error (.notSubscriptable Value.null.className)

/-- The context for the resolution of one field. -/
def forField (ctx : Context) (parentType fieldName : String) : Context :=
  { ctx with parentType := some parentType, fieldName := some fieldName }

end Context

end GraphSchema
