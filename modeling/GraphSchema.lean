import GraphSchema.Decimal.Notation
import GraphSchema.Encoding.Base64
import GraphSchema.Encoding.Utf8
import GraphSchema.Hash.Sha256
import GraphSchema.Text.CharClass
import GraphSchema.Text.Escape
import GraphSchema.Text.Lowercase
import GraphSchema.Text.Printable
import GraphSchema.Name
import GraphSchema.Value.ClassTable
import GraphSchema.Value.Literal
import GraphSchema.Value.Number
import GraphSchema.TypeRef.Parser
import GraphSchema.TypeRef.Subtype
import GraphSchema.TypeRef.Spec
import GraphSchema.Field.Declare
import GraphSchema.ResolveType
import GraphSchema.FieldStore
import GraphSchema.Composition
import GraphSchema.Reachability
import GraphSchema.Schema.Execution
import GraphSchema.Schema.Introspection
import GraphSchema.Schema.Printer
import GraphSchema.Schema.Resolution
import GraphSchema.Registry.Build
import GraphSchema.Settings.File
import GraphSchema.Proofs.FieldStore
import GraphSchema.Proofs.Declarations.Coherence
import GraphSchema.Proofs.Composition.Reference
import GraphSchema.Proofs.Composition.Agreement
import GraphSchema.Proofs.Registry.Assembly
import GraphSchema.Proofs.Registry.Run
import GraphSchema.Proofs.Reachability
import GraphSchema.Proofs.Schema.Tables
import GraphSchema.Proofs.Schema.References
import GraphSchema.Proofs.Schema.Introspection
import GraphSchema.Proofs.Schema.Covariance
import GraphSchema.Proofs.Registry.Provenance
import GraphSchema.Proofs.Arguments
import GraphSchema.Proofs.Name
import GraphSchema.Proofs.Name.Words
import GraphSchema.Proofs.Name.Twice
import GraphSchema.Proofs.Schema.Calls
import GraphSchema.Proofs.Schema.DefaultResolution
import GraphSchema.Proofs.Schema.ListedBehaviors
import GraphSchema.Proofs.Encoding.Base64
import GraphSchema.Proofs.Encoding.Utf8
import GraphSchema.Proofs.GlobalId
import GraphSchema.Proofs.Schema.GlobalIds
import GraphSchema.Proofs.Schema.Roots
import GraphSchema.Proofs.Schema.Resolution
import GraphSchema.Proofs.Schema.Agreement
import GraphSchema.Proofs.Registry.Order
import GraphSchema.Proofs.Registry.Extension
import GraphSchema.Proofs.Registry.Session
import GraphSchema.Proofs.Registry.InStep
import GraphSchema.Proofs.Reports
import GraphSchema.Proofs.Declarations.Violations
import GraphSchema.Proofs.Registry.Violations
import GraphSchema.Proofs.Schema.PossibleTypes
import GraphSchema.Proofs.Schema.DistinctNames
import GraphSchema.Proofs.Schema.StrayBehaviors
import GraphSchema.Proofs.Registry.Normalization
import GraphSchema.Proofs.TypeRef
import GraphSchema.Proofs.TypeRef.Grammar
import GraphSchema.Proofs.TypeRef.Spec
import GraphSchema.Proofs.Schema.Subtypes
import GraphSchema.Proofs.Registry.Contracts
import GraphSchema.Proofs.Schema.Belonging
import GraphSchema.Proofs.Coercion
import GraphSchema.Proofs.Text.Reading
import GraphSchema.Proofs.Text.Escape
import GraphSchema.Proofs.Value.Literal
import GraphSchema.Proofs.Value.Unambiguous
import GraphSchema.Proofs.Printer.Parts
import GraphSchema.Proofs.Printer.Definitions
import GraphSchema.Proofs.Printer.Schemas
import GraphSchema.Proofs.Schema.Alike
import GraphSchema.Proofs.Schema.Printed
