import GraphSchema.Encoding.Base64
import GraphSchema.Encoding.Utf8
import GraphSchema.TypeKind
import GraphSchema.TypeRef
import GraphSchema.Value.Display
import GraphSchema.Yaml.Fault

/-!
# Errors

Everything that can go wrong, by cause, with the class and the wording of each cause.

## Main definitions

* `Reference` — a place in a schema that names a type.
* `Incompatibility` — how a field fails the field of an interface.
* `ArgumentFault`, `GlobalIdFault` — what is wrong with arguments and with a global ID.
* `Error` — a cause of failure.
* `Error.category` — its class.
* `Error.message` — its wording.
-/

namespace GraphSchema

/-- The root operations of a schema. -/
inductive Role where
  | query
  | mutation
  | subscription
deriving DecidableEq, Inhabited

/-- The name of a root operation. -/
def Role.text : Role → String
  | .query => "query"
  | .mutation => "mutation"
  | .subscription => "subscription"

/-- A place that names a type. -/
inductive Reference where
  | root (role : Role)
  | schemaOrphan
  | field (owner field : String)
  | argument (owner field argument : String)
  | interfaceOrphan (interface : String)
  | member (union : String)
  | inputField (owner field : String)
  | implementing (type : String)
  | resolution (abstract : String)
deriving DecidableEq, Inhabited

/-- How a place is called in messages. -/
def Reference.text : Reference → String
  | .root role => "schema " ++ role.text
  | .schemaOrphan => "schema orphan_types"
  | .field owner name => owner ++ "." ++ name
  | .argument owner name arg => owner ++ "." ++ name ++ "(" ++ arg ++ ")"
  | .interfaceOrphan name => name ++ " orphan_types"
  | .member name => "union " ++ name
  | .inputField owner name => owner ++ "." ++ name
  | .implementing name => name ++ " implements"
  | .resolution name => "resolve_type of " ++ name

/-- How the field of a type fails the field of an interface. -/
inductive Incompatibility where
  | type (found expected : TypeRef)
  | missingArgument (name : String)
  | argumentType (name : String) (found expected : TypeRef)
  | requiredExtra (name : String)
deriving DecidableEq, Inhabited

/-- The reason given for an incompatibility. -/
def Incompatibility.text : Incompatibility → String
  | .type found expected => "type " ++ found.text ++ " is not compatible with " ++ expected.text
  | .missingArgument name => "missing argument '" ++ name ++ "'"
  | .argumentType name found expected =>
    "argument '" ++ name ++ "' has type " ++ found.text ++ ", expected " ++ expected.text
  | .requiredExtra name => "additional argument '" ++ name ++ "' must be optional"

/-- What is wrong with the arguments given to a field. -/
inductive ArgumentFault where
  | unknown (names : List String)
  | null (name : String)
  | missing (name : String)
deriving DecidableEq, Inhabited

/-- The reason given for refused arguments. -/
def ArgumentFault.text : ArgumentFault → String
  | .unknown names => "unknown arguments [" ++ Value.commas (names.map Value.quote) ++ "]"
  | .null name => "argument '" ++ name ++ "' must not be null"
  | .missing name => "missing required argument '" ++ name ++ "'"

/-- What is wrong with a global ID. -/
inductive GlobalIdFault where
  | base64 (refusal : Base64.Refusal)
  | utf8 (refusal : Utf8.Refusal)
  | missingTypeName
deriving DecidableEq

/-- The reason given for a refused global ID. -/
def GlobalIdFault.text : GlobalIdFault → String
  | .base64 refusal => refusal.message
  | .utf8 refusal => refusal.message
  | .missingTypeName => "missing type name"

/-- A cause of failure. -/
inductive Error where
  -- malformed type expressions; `source` is the text as given
  | emptyType (source : String)
  | doubledNonNull (source : String)
  | unbalancedBrackets (source : String)
  | invalidNameIn (name source : String)
  | invalidName (name : String)
  | listItems (shown : String)
  | notAType (shown : String)
  /-- Something stands where a type name or a definition is needed. -/
  | notATypeName (shown : String)
  -- violations of a set of declarations
  | duplicateType (name : String)
  | duplicateField (owner field : String) (layer : Layer)
  | duplicateRoots
  | noQueryRoot
  | wrongKind (place : Reference) (expected : Position) (found : TypeKind) (name : String)
  | unknownType (name : String) (place : Option Reference) (declared : Bool)
  | emptyUnion (name : String)
  | emptyEnum (name : String)
  | repeatedInterface (type interface : String)
  | notAnInterface (type name : String) (found : TypeKind)
  | contractViolation (interface type field : String) (reason : Incompatibility)
  -- operations in the wrong phase
  | notFinalized (operation : String)
  | frozenType (name : String)
  | frozenRoots
  | frozenField (owner field : String)
  | frozenEffective (owner : String)
  /-- The root operations are declared without saying anything about the query root. -/
  | missingQuery
  -- use of a built schema
  | hasNoFields (type : String) (kind : TypeKind)
  | notAbstract (type : String) (kind : TypeKind)
  | unresolvable (abstract : String)
  | impossible (abstract type : String)
  | fieldNotFound (owner field : String)
  | behaviorNotFound (owner field : String)
  | badArguments (owner field : String) (fault : ArgumentFault)
  | unownedGlobalId
  -- global IDs and settings
  | invalidGlobalId (input : String) (fault : GlobalIdFault)
  | nonAsciiGlobalId
  | emptySeparator
  | emptyIdSeparator
  | unknownLayer (name : String)
  | invalidSettings (fault : Yaml.Fault)
  -- failures of values and their classes
  | notANumber (text : String)
  | missingKey (key : Value)
  | notAKey (className : String)
  | duplicateBase (className : String)
  | inconsistentBases (classNames : List String)
  | noAttribute (className name : String)
  | noInterfaces (kind : TypeKind)
  | notSubscriptable (className : String)
  | notCallable (className : String)
  /-- A behavior or a type resolver fails on its own account. -/
  | raised (text : String)
deriving Inhabited

/-- The classes of errors. -/
inductive ErrorCategory where
  | duplicateType
  | duplicateField
  | contractViolation
  | definition
  | unknownType
  | unresolvable
  | impossible
  | notFinalized
  | frozen
  | fieldNotFound
  | behaviorNotFound
  | argument
  | missingKey
  | badValue
  | badType
  | noAttribute
  | overflow
  | settingsSyntax
  | raised
deriving DecidableEq, Inhabited

namespace Error

/-- The class of an error. -/
def category : Error → ErrorCategory
  | emptyType _ | doubledNonNull _ | unbalancedBrackets _ | invalidNameIn _ _ | invalidName _
  | listItems _ | notAType _ | duplicateRoots | noQueryRoot | wrongKind .. | emptyUnion _
  | emptyEnum _ | repeatedInterface .. | notAnInterface .. | hasNoFields .. | notAbstract ..
  | unownedGlobalId => .definition
  | notATypeName _ | notSubscriptable _ | notCallable _ | notAKey _ | duplicateBase _
  | inconsistentBases _ | missingQuery => .badType
  | duplicateType _ => .duplicateType
  | duplicateField .. => .duplicateField
  | unknownType .. => .unknownType
  | contractViolation .. => .contractViolation
  | notFinalized _ => .notFinalized
  | frozenType _ | frozenRoots | frozenField .. | frozenEffective _ => .frozen
  | unresolvable _ => .unresolvable
  | impossible .. => .impossible
  | fieldNotFound .. => .fieldNotFound
  | behaviorNotFound .. => .behaviorNotFound
  | badArguments .. => .argument
  | invalidGlobalId .. | nonAsciiGlobalId | emptySeparator | emptyIdSeparator | unknownLayer _
  | notANumber _ => .badValue
  | invalidSettings .malformed => .settingsSyntax
  | invalidSettings fault => if fault.isOverflow then .overflow else .badValue
  | missingKey _ => .missingKey
  | noAttribute .. | noInterfaces _ => .noAttribute
  | raised _ => .raised

/-- The advice added when an unknown type is declared but not part of the schema. -/
def orphanHint : String := "It is declared but not reachable; add it to orphan_types"

/-- The wording of an error. -/
def message : Error → String
  | emptyType source => "Empty type in '" ++ source ++ "'"
  | doubledNonNull source => "Doubled non-null marker in '" ++ source ++ "'"
  | unbalancedBrackets source => "Unbalanced brackets in '" ++ source ++ "'"
  | invalidNameIn name source => "Invalid type name '" ++ name ++ "' in '" ++ source ++ "'"
  | invalidName name => "Invalid type name '" ++ name ++ "'"
  | listItems shown => "List type spec must have exactly one item, got " ++ shown
  | notAType shown => "Cannot interpret " ++ shown ++ " as a type"
  | notATypeName shown => "Expected a type name or definition, got " ++ shown
  | duplicateType name => "Type name '" ++ name ++ "' is already defined"
  | duplicateField owner field layer =>
    "Field '" ++ owner ++ "." ++ field ++ "' is already defined (" ++ layer.text ++ " layer)"
  | duplicateRoots => "Schema roots are already defined"
  | noQueryRoot => "No query root defined; call define_schema(query=...)"
  | wrongKind place expected found name =>
    place.text ++ " must reference " ++
      String.intercalate " or " (expected.kinds.map TypeKind.text) ++
      ", got " ++ found.text ++ " '" ++ name ++ "'"
  | unknownType name place declared =>
    "Unknown type '" ++ name ++ "'" ++
      (match place with
        | some place => " (referenced by " ++ place.text ++ ")"
        | none => "") ++
      (if declared then ". " ++ orphanHint else "")
  | emptyUnion name => "Union '" ++ name ++ "' has no member types"
  | emptyEnum name => "Enum '" ++ name ++ "' has no values"
  | repeatedInterface type interface =>
    type ++ " declares interface '" ++ interface ++ "' more than once"
  | notAnInterface type name found =>
    type ++ " implements '" ++ name ++ "', which is a " ++ found.text ++ ", not an INTERFACE"
  | contractViolation interface type field reason =>
    "'" ++ type ++ "' does not satisfy '" ++ interface ++ "." ++ field ++ "': " ++ reason.text
  | notFinalized operation =>
    "Cannot call " ++ operation ++ "() before the schema is finalized"
  | frozenType name => "Cannot register type '" ++ name ++ "': schema is already finalized"
  | frozenRoots => "Cannot define_schema: schema is already finalized"
  | frozenField owner field =>
    "Cannot define field " ++ owner ++ "." ++ field ++ ": field registry is frozen"
  | frozenEffective owner =>
    "Cannot set effective fields of " ++ owner ++ ": field registry is frozen"
  | hasNoFields type kind => "'" ++ type ++ "' is a " ++ kind.text ++ " and has no fields"
  | notAbstract type kind =>
    "'" ++ type ++ "' is a " ++ kind.text ++
      "; only interfaces and unions need type resolution"
  | unresolvable abstract =>
    "Cannot resolve a concrete type for '" ++ abstract ++
      "': no resolve_type behavior returned a result"
  | impossible abstract type => "'" ++ type ++ "' is not a possible type of '" ++ abstract ++ "'"
  | fieldNotFound owner field => "Field '" ++ field ++ "' not found on '" ++ owner ++ "'"
  | behaviorNotFound owner field => "No behavior for '" ++ owner ++ "." ++ field ++ "'"
  | badArguments owner field fault => owner ++ "." ++ field ++ ": " ++ fault.text
  | unownedGlobalId =>
    "Cannot encode a global ID without a concrete type; " ++
      "invoke the behavior of the implementing object type"
  | invalidGlobalId input fault => "Invalid global ID '" ++ input ++ "': " ++ fault.text
  | nonAsciiGlobalId => "string argument should contain only ASCII characters"
  | emptySeparator => "empty separator"
  | emptyIdSeparator => "global_id_separator must not be empty"
  | unknownLayer name => Value.quote name ++ " is not a valid FieldLayer"
  | invalidSettings fault => fault.message
  | notANumber text => "could not convert string to float: " ++ Value.quote text
  | missingKey key => key.inspect
  | duplicateBase className => "duplicate base class " ++ className
  | inconsistentBases classNames =>
    "Cannot create a consistent method resolution\norder (MRO) for bases " ++
      String.intercalate ", " classNames
  | notAKey className => "unhashable type: '" ++ className ++ "'"
  | noAttribute className name =>
    "'" ++ className ++ "' object has no attribute '" ++ name ++ "'"
  | noInterfaces kind =>
    "'" ++ kind.definitionText ++ "' object has no attribute 'interfaces'"
  | notSubscriptable className => "'" ++ className ++ "' object is not subscriptable"
  | notCallable className => "'" ++ className ++ "' object is not callable"
  | missingQuery =>
    "SchemaRegistry.define_schema() missing 1 required positional argument: 'query'"
  | raised text => text

end Error

end GraphSchema
