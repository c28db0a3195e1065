import PackageCheck.Tree.Basic

/-! # Making trees

Nodes as they are before any check: at the start of a file, without types, symbols and numbers. -/

namespace PackageCheck

/-! ## Types -/

/-- A type of the given name. -/
def TypeSpec.ofName (name : String) : TypeSpec := .named name {}

/-! ## Expressions -/

namespace Expr

/-- An expression of the given form. -/
def ofForm (form : ExprForm) : Expr := ⟨{}, form, .unknown⟩

/-- The expression at another position. -/
def placedAt (e : Expr) (position : Position) : Expr :=
  { e with position := position }

/-- A name. -/
def name (name : String) : Expr := ofForm (.ident { name := name })

/-- A literal. -/
def literal (kind : LiteralKind) (text : String) : Expr := ofForm (.literal ⟨kind, text⟩)

/-- An integer, in decimal. -/
def int (value : Int) : Expr := literal .int (toString value)

/-- A string. -/
def string (text : String) : Expr := literal .string text

/-- A truth value. -/
def bool (value : Bool) : Expr := literal .bool (if value then "true" else "false")

/-- No expression. -/
def blank : Expr := ofForm .blank

/-- A composite literal, whose shape its type will decide. -/
def compound (spec : Option TypeSpec) (elements : List Element) : Expr :=
  ofForm (.compound spec .undecided elements)

/-- A function as a value. -/
def func (func : Func) : Expr := ofForm (.func func)

end Expr

/-! ## Functions -/

/-- Statements without labels. -/
def Block.ofStatements (statements : List Stmt) : Block := ⟨statements, .empty⟩

/-- A parameter. -/
def Param.make (name : Option String) (spec : TypeSpec) : Param := ⟨name, {}, spec, none⟩

/-- A function with the given statements as its body. -/
def Func.make (name : Option String) (receiver : Option Param) (params results : List Param)
    (body : List Stmt) : Func :=
  ⟨name, receiver, params, results, .ofStatements body⟩

/-! ## Statements -/

/-- A variable. -/
def VarDecl.make (name : String) (spec : Option TypeSpec) (value : Option Expr) : VarDecl :=
  ⟨name, {}, spec, value, none⟩

/-- A form that declares one variable. -/
def VarForm.single (name : String) (spec : Option TypeSpec) (value : Option Expr) : VarForm :=
  ⟨[.make name spec value], false⟩

/-- A branch of a conditional. -/
def Branch.make (header : Option VarForm) (condition : Option Expr) (body : List Stmt) : Branch :=
  ⟨header, condition, .ofStatements body⟩

namespace Stmt

/-- A statement of the given form. -/
def ofForm (form : StmtForm) : Stmt := ⟨{}, {}, none, form⟩

/-- The statement at another position. -/
def placedAt (s : Stmt) (position : Position) : Stmt :=
  { s with position := position }

/-- The statement behind a label. -/
def labelled (s : Stmt) (name : String) : Stmt :=
  { s with label := some ⟨name, none⟩ }

/-- The declaration of one variable. -/
def var (name : String) (spec : Option TypeSpec) (value : Option Expr) : Stmt :=
  ofForm (.var (.single name spec value))

/-- The declaration of a function. -/
def func (name : String) (params results : List Param) (body : List Stmt) : Stmt :=
  let value : Expr := .func (.make (some name) none params results body)
  ofForm (.var ⟨[.make name none (some value)], true⟩)

/-- The declaration of a name for a type. -/
def typeAlias (name : String) (target : TypeSpec) : Stmt :=
  ofForm (.typeAlias ⟨name, target, none⟩)

/-- The declaration of a struct. -/
def struct (name : String) (fields : List FieldDecl) (methods : List Func) : Stmt :=
  ofForm (.struct ⟨name, fields, methods, none⟩)

/-- A plain assignment. -/
def assign (lhs rhs : List Expr) : Stmt := ofForm (.assign lhs rhs .assign)

/-- A jump. -/
def jump (kind : JumpKind) (label : Option String) : Stmt :=
  ofForm (.jump ⟨kind, label, none, none⟩)

/-- A loop. -/
def loop (header : Option VarForm) (condition : Option Expr) (step : Option Stmt)
    (body : List Stmt) : Stmt :=
  ofForm (.loop ⟨header, condition, step, .ofStatements body⟩)

end Stmt

end PackageCheck
