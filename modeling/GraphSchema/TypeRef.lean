/-!
# Type references

A reference names a type, possibly wrapped as a list or as not null.

## Main definitions

* `TypeRef` — a reference.
* `TypeRef.required` — the reference made not null, at most once.
* `TypeRef.nullable`, `TypeRef.innermost` — the reference without its outer marker, and the
  name that it wraps.
* `TypeRef.text` — the written form.
-/

namespace GraphSchema

/-- A type name under any number of list and non-null wrappers. -/
inductive TypeRef where
  | named (name : String)
  | list (item : TypeRef)
  | nonNull (inner : TypeRef)
deriving DecidableEq, Inhabited

namespace TypeRef

/-- Whether the outer wrapper is the non-null marker. -/
def isNonNull : TypeRef → Bool
  | nonNull _ => true
  | _ => false

/-- Whether the outer wrapper is a list. -/
def isList : TypeRef → Bool
  | list _ => true
  | _ => false

/-- Marks a reference as not null; a second marker adds nothing. -/
def required (t : TypeRef) : TypeRef := if t.isNonNull then t else nonNull t

/-- The reference without an outer non-null marker. -/
def nullable : TypeRef → TypeRef
  | nonNull t => t
  | t => t

/-- The name that the reference wraps. -/
def innermost : TypeRef → String
  | named name => name
  | list t => innermost t
  | nonNull t => innermost t

/-- The characters of the written form: items in brackets, a mark after what is not null. -/
def chars : TypeRef → List Char
  | named name => name.toList
  | list t => '[' :: chars t ++ [']']
  | nonNull t => chars t ++ ['!']

/-- The written form of a reference. -/
def text (t : TypeRef) : String := String.ofList t.chars

/-! ## Required references -/

@[simp] theorem innermost_required {t : TypeRef} : t.required.innermost = t.innermost := by
  unfold required
  split <;> rfl

end TypeRef

end GraphSchema
