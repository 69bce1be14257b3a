import GraphSchema.TypeRef

/-!
# Subtypes

When a value of one type may stand where another type is declared.

## Main definitions

* `TypeRef.isSubtype` — the decision, given which named types belong to which abstract types.
-/

namespace GraphSchema.TypeRef

/-- Whether `sub` may stand for `sup`: not null is stricter than nullable, lists compare by
their items, and `possible abstract name` says that the named type belongs to the abstract
one. -/
def isSubtype (possible : String → String → Bool) : (sub sup : TypeRef) → Bool
  | nonNull s, sup => nonNull s == sup ||
    match sup with
    | nonNull t => isSubtype possible s t
    | t => isSubtype possible s t
  | list s, sup => list s == sup ||
    match sup with
    | list t => isSubtype possible s t
    | _ => false
  | named a, sup => named a == sup ||
    match sup with
    | named b => possible b a
    | _ => false

theorem isSubtype_self {possible : String → String → Bool} {t : TypeRef} :
    t.isSubtype possible t = true := by
  cases t <;> simp [isSubtype]

end GraphSchema.TypeRef
