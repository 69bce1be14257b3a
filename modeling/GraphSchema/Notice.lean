import GraphSchema.Error

/-!
# Notices

What composition and the build of a schema report without failing.
-/

namespace GraphSchema

/-- Something worth reporting. -/
inductive Notice where
  | droppedBehavior (type key : String)
  | excludedImplementer (type : String) (interfaces : List String)
  | finalized (types reachable : Nat) (fingerprint : String)
deriving DecidableEq

namespace Notice

/-- The level of a notice. -/
def level : Notice → String
  | droppedBehavior .. | excludedImplementer .. => "WARNING"
  | finalized .. => "INFO"

/-- The wording of a notice. -/
def message : Notice → String
  | droppedBehavior type key => "Dropping behavior '" ++ key ++ "' on " ++ type ++ ": no such field"
  | excludedImplementer type interfaces =>
    "Type '" ++ type ++ "' implements " ++ Value.commas interfaces ++
      " but is not reachable and is excluded from the schema; " ++
      "reference it from a field or add it to orphan_types"
  | finalized types reachable fingerprint =>
    "Schema finalized with " ++ toString types ++ " types, " ++ toString reachable ++
      " reachable, fingerprint=" ++ fingerprint

end Notice

end GraphSchema
