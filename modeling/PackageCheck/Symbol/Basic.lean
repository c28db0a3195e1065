import PackageCheck.Position
import PackageCheck.Ty.Basic

/-! # Symbols

The named things that a scope can hold: variables, types, labels and packages. -/

namespace PackageCheck

/-- A variable, with the statement that holds its initial value if it has one. -/
structure Variable where
  name : String
  type : Ty
  init : Option StmtId := none
  site : Option Site := none
deriving Inhabited

/-- A declared type. Without a target the name is that of a simple type. -/
structure TypeDecl where
  name : String
  aliased : Option Ty
  site : Option Site := none
deriving Inhabited

/-- A label, with the loop it stands in front of, if it is a loop. -/
structure Label where
  name : String
  loop : Option StmtId
  site : Option Site
deriving DecidableEq, Inhabited

/-- A named thing. -/
inductive Symbol where
  | var (var : Variable)
  | type (decl : TypeDecl)
  | label (label : Label)
  | package (name : String)
deriving Inhabited

namespace Symbol

/-- The name of a symbol. -/
def name : Symbol → String
  | .var v => v.name
  | .type decl => decl.name
  | .label l => l.name
  | .package name => name

/-- Where a symbol was declared. -/
def site? : Symbol → Option Site
  | .var v => v.site
  | .type decl => decl.site
  | .label l => l.site
  | .package _ => none

/-- The variable that a symbol is. -/
def var? : Symbol → Option Variable
  | .var v => some v
  | _ => none

/-- The declared type that a symbol is. -/
def type? : Symbol → Option TypeDecl
  | .type decl => some decl
  | _ => none

/-- The text of a symbol. -/
def render : Symbol → String
  | .var v => "var " ++ v.name ++ ": " ++ v.type.render
  | .type ⟨name, some aliased, _⟩ => "type " ++ name ++ " " ++ aliased.render
  | .type ⟨name, none, _⟩ => "type " ++ name
  | .label l => "label " ++ l.name
  | .package name => "package " ++ name

end Symbol

/-- Whether a declaration names a simple type. -/
def TypeDecl.isSimple (decl : TypeDecl) : Bool :=
  decl.aliased.isNone

end PackageCheck
