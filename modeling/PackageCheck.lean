import PackageCheck.Cli.Command
import PackageCheck.Cli.Options
import PackageCheck.Codec.Leaf
import PackageCheck.Codec.Operator
import PackageCheck.Codec.Symbol
import PackageCheck.Codec.Tree
import PackageCheck.Codec.Ty
import PackageCheck.Codec.TypeSpec
import PackageCheck.Dependency.FreeNames
import PackageCheck.Dependency.Order
import PackageCheck.Diagnostic
import PackageCheck.Handle
import PackageCheck.Json.Basic
import PackageCheck.Json.Decoder
import PackageCheck.Json.Parser
import PackageCheck.Json.Printer
import PackageCheck.Json.Token
import PackageCheck.Main
import PackageCheck.NameMap
import PackageCheck.Package
import PackageCheck.Position
import PackageCheck.Proofs.Dependency.Order
import PackageCheck.Proofs.Package.Failure
import PackageCheck.Proofs.Package.Soundness
import PackageCheck.Proofs.Package.Statements
import PackageCheck.Proofs.Symbol.Extension
import PackageCheck.Proofs.Tree.Numbering
import PackageCheck.Proofs.Tree.Parts
import PackageCheck.Proofs.Ty.Refinement
import PackageCheck.Proofs.Typing.Failure
import PackageCheck.Proofs.Typing.Outcome
import PackageCheck.Proofs.Typing.Preservation
import PackageCheck.Proofs.Typing.RuleSoundness
import PackageCheck.Proofs.Typing.Rules
import PackageCheck.Proofs.Typing.Soundness
import PackageCheck.Scope
import PackageCheck.Symbol.Basic
import PackageCheck.Symbol.Prelude
import PackageCheck.Symbol.Table
import PackageCheck.Text.Blank
import PackageCheck.Text.Decimal
import PackageCheck.Tree.Basic
import PackageCheck.Tree.Make
import PackageCheck.Tree.Numbering
import PackageCheck.Tree.Operator
import PackageCheck.Tree.TypeSpec
import PackageCheck.Tree.Walk
import PackageCheck.Ty.Basic
import PackageCheck.Ty.Negotiation
import PackageCheck.Ty.Simple
import PackageCheck.Typing.Check
import PackageCheck.Typing.Growth
import PackageCheck.Typing.Layout
import PackageCheck.Typing.Resolve
import PackageCheck.Typing.Rule
import PackageCheck.Typing.State
import PackageCheck.Typing.Tree
import PackageCheck.Validation
import PackageCheck.Proofs.Dependency.Cycle
import PackageCheck.Proofs.Tree.Erasure
import PackageCheck.Proofs.Tree.TypeDecls
import PackageCheck.Proofs.Ty.Complete
import PackageCheck.Proofs.Typing.Definitions
import PackageCheck.Proofs.Typing.Effect
import PackageCheck.Proofs.Package.Completeness
import PackageCheck.Proofs.Package.History
import PackageCheck.Proofs.Package.Uses
import PackageCheck.Proofs.Package.Frame
import PackageCheck.Proofs.Package.Initialization
import PackageCheck.Proofs.Package.Rechecking
import PackageCheck.Proofs.Package.Suppression
import PackageCheck.Proofs.Package.Validity
import PackageCheck.Proofs.Package.Coverage
import PackageCheck.Proofs.Typing.Restoration
import PackageCheck.Proofs.Codec.File
import PackageCheck.Proofs.Ty.Place
import PackageCheck.Proofs.Ty.Negotiation
import PackageCheck.Proofs.Tree.JumpSite
import PackageCheck.Proofs.Typing.Surroundings
import PackageCheck.Proofs.Typing.Jumps
import PackageCheck.Proofs.Package.Jumps
import PackageCheck.Proofs.Tree.Intervals
import PackageCheck.Proofs.Tree.OwnJump
import PackageCheck.Proofs.Typing.Counting
import PackageCheck.Proofs.Typing.DeclaredNames
import PackageCheck.Proofs.Typing.Indices
import PackageCheck.Proofs.Typing.OwnJumps
import PackageCheck.Proofs.Typing.Tally
import PackageCheck.Proofs.Typing.JumpErrors
import PackageCheck.Proofs.Package.AliasChains
import PackageCheck.Proofs.Dependency.Occurrences
import PackageCheck.Proofs.Package.ForeignFiles
import PackageCheck.Proofs.Ty.Rendering
import PackageCheck.Proofs.Typing.Hints
import PackageCheck.Proofs.Package.SpecRendering
import PackageCheck.Proofs.Package.CompoundAssign
import PackageCheck.Proofs.Ty.Occurrence
import PackageCheck.Proofs.Tree.Nesting
import PackageCheck.Proofs.Dependency.OpenScopes
import PackageCheck.Proofs.Package.Rearrangement
