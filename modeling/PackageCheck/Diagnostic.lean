import PackageCheck.Position
import PackageCheck.Tree.Operator
import PackageCheck.Ty.Negotiation

/-! # Diagnostics

What can be wrong with a package. Each kind of diagnostic holds what its text needs, and the text
is made in one place. -/

namespace PackageCheck

/-! ## Misuses -/

/-- An operation that the rules do not allow where it stands. -/
inductive Misuse where
  | missingBody (func : String)
  | returnOutsideFunction
  | returnCount (expected found : Nat)
  | notAssignable
  | compoundAssignCount (op : BinaryOp)
  | assignCount (targets values : Nat)
  | undefinedOperator (op : String) (type : Ty)
  | typeAsValue (type : String)
  | notAValue (name : String)
  | notAPointer (type : Ty)
  | notIndexable (type : Ty)
  | noMember (type : Ty) (member : String)
  | notAFunction (type : Ty)
  | indexOutOfBounds (index : Nat) (size : UInt64)
  | missingKey
  | notAComposite (type : Ty)
  | structValueCount (expected found : Nat)
  | mixedElements
  | invalidFieldName
  | unknownField (name : String)
  /-- A misuse given by its text alone. -/
  | stated (text : String)

/-- The text of a misuse. -/
def Misuse.message : Misuse → String
  | .missingBody func => "missing function body for " ++ func
  | .returnOutsideFunction => "return outside of a function"
  | .returnCount expected found =>
    "wrong number of return values (expected " ++ toString expected ++ ", found " ++
      toString found ++ ")"
  | .notAssignable => "cannot assign to expression"
  | .compoundAssignCount op => "assignment operation " ++ op.render ++ "= requires single values"
  | .assignCount targets values =>
    "assignment mismatch: " ++ toString targets ++ " variables but " ++ toString values ++ " values"
  | .undefinedOperator op type => "operator " ++ op ++ " not defined on " ++ type.render
  | .typeAsValue type => "type " ++ type ++ " is not an expression"
  | .notAValue name => name ++ " is not a value"
  | .notAPointer type => "cannot dereference " ++ type.render
  | .notIndexable type => "cannot index " ++ type.render
  | .noMember type member => type.render ++ " has no field or method " ++ member
  | .notAFunction type => "cannot call non-function of type " ++ type.render
  | .indexOutOfBounds index size =>
    "array index " ++ toString index ++ " out of bounds [0:" ++ toString size.toNat ++ "]"
  | .missingKey => "missing key in map literal"
  | .notAComposite type => "invalid composite literal type " ++ type.render
  | .structValueCount expected found =>
    "wrong number of values in struct literal (expected " ++ toString expected ++ ", found " ++
      toString found ++ ")"
  | .mixedElements => "mixture of field:value and value elements in struct literal"
  | .invalidFieldName => "invalid field name in struct literal"
  | .unknownField name => "unknown field " ++ name ++ " in struct literal"
  | .stated text => text

/-! ## Diagnostics -/

/-- Something wrong with a package, and where. -/
inductive Diagnostic where
  | redeclaration (name : String) (site : Site) (previous : Option Site)
  | undefinedSymbol (name : String) (site : Site)
  | typeMismatch (expected found : Ty) (site : Site)
  | unresolvedInference (what : String) (site : Site)
  /-- Declarations that need each other. -/
  | dependencyCycle (names : List String)
  | invalidJump (kind : JumpKind) (label : Option String) (site : Site)
  | argumentCount (expected found : Nat) (site : Site)
  | notAType (name : String) (site : Site)
  | invalidOperation (misuse : Misuse) (site : Site)
  | recursiveType (name : String) (site : Site)
  /-- A file that belongs to another package. -/
  | packageMismatch (file expected found : String)

namespace Diagnostic

/-- The diagnostic of a failed negotiation. `what` names the thing whose type was asked for. -/
def ofTypeError (err : TypeError) (what : String) (site : Site) : Diagnostic :=
  match err with
  | .mismatch expected found => .typeMismatch expected found site
  | .unresolved => .unresolvedInference what site
  | .recursiveAlias name => .recursiveType name site

/-- Where the diagnostic points to. -/
def site? : Diagnostic → Option Site
  | .redeclaration _ site _ | .undefinedSymbol _ site | .typeMismatch _ _ site
  | .unresolvedInference _ site | .invalidJump _ _ site | .argumentCount _ _ site
  | .notAType _ site | .invalidOperation _ site | .recursiveType _ site => some site
  | .dependencyCycle _ | .packageMismatch _ _ _ => none

/-- The note on a previous declaration. -/
def previousNote : Option Site → String
  | some site => " (previously declared at " ++ site.render ++ ")"
  | none => ""

/-- The label of a jump, behind its kind. -/
def jumpLabel : Option String → String
  | some label => " " ++ label
  | none => ""

/-- The text of a diagnostic. -/
def message : Diagnostic → String
  | .redeclaration name site previous =>
    site.render ++ ": `" ++ name ++ "` redeclared in this block" ++ previousNote previous
  | .undefinedSymbol name site => site.render ++ ": undefined: " ++ name
  | .typeMismatch expected found site =>
    site.render ++ ": " ++ (TypeError.mismatch expected found).message
  | .unresolvedInference what site => site.render ++ ": cannot infer the type of " ++ what
  | .dependencyCycle names => "initialization cycle among: " ++ ", ".intercalate names
  | .invalidJump kind label site =>
    site.render ++ ": invalid " ++ kind.render ++ jumpLabel label ++ " target"
  | .argumentCount expected found site =>
    site.render ++ ": expected " ++ toString expected ++ " arguments, found " ++ toString found
  | .notAType name site => site.render ++ ": `" ++ name ++ "` is not a type"
  | .invalidOperation misuse site => site.render ++ ": " ++ misuse.message
  | .recursiveType name site => site.render ++ ": " ++ (TypeError.recursiveAlias name).message
  | .packageMismatch file expected found =>
    file ++ ": found package `" ++ found ++ "`, expected `" ++ expected ++ "`"

/-- The report on failed checks: a line for each diagnostic, then their number. -/
def report (diagnostics : List Diagnostic) : String :=
  String.join (diagnostics.map (·.message ++ "\n")) ++
    (if diagnostics.length = 1 then "1 error" else toString diagnostics.length ++ " errors")

end Diagnostic

end PackageCheck
