import PackageCheck.Handle
import PackageCheck.NameMap
import PackageCheck.Tree.Operator
import PackageCheck.Tree.TypeSpec
import PackageCheck.Ty.Basic

/-! # Syntax trees

A source file is a list of statements, and statements and expressions contain each other through
the bodies of functions. Trees are plain values: what a name, a label or a jump refers to is
stored as a handle.

A tree also holds what the checker finds out about it: the number of each statement, the type of
each expression, the shape of each composite literal, and the handles. Everything else is as the
program was written. -/

namespace PackageCheck

/-! ## Leaves -/

/-- The kinds of literals. -/
inductive LiteralKind where
  | int
  | float
  | string
  | char
  | bool
deriving DecidableEq, Inhabited

/-- A literal with its text, which is never evaluated but for the keys of arrays. -/
structure Literal where
  kind : LiteralKind
  text : String
deriving DecidableEq, Inhabited

/-- How the elements of a composite literal are laid out, as decided by its type. -/
inductive CompoundShape where
  | undecided
  | empty
  | listLike
  | mapLike
deriving DecidableEq, Inhabited

/-- A name used as a value, bound to a symbol once the checker has found one. -/
structure Ident where
  name : String
  symbol : Option SymbolId := none
deriving DecidableEq, Inhabited

/-- Binds the name to a symbol. -/
def Ident.bind (ident : Ident) (symbol : SymbolId) : Ident :=
  { ident with symbol := some symbol }

/-- Whether the name is bound. -/
def Ident.isBound (ident : Ident) : Bool :=
  ident.symbol.isSome

/-- A receiver, parameter or result of a function. -/
structure Param where
  name : Option String
  position : Position
  spec : TypeSpec
  symbol : Option SymbolId
deriving Inhabited

/-- A field of a declared struct. -/
structure FieldDecl where
  name : String
  position : Position
  spec : TypeSpec
deriving Inhabited

/-- The declaration of a name for a type. -/
structure AliasDecl where
  name : String
  target : TypeSpec
  symbol : Option SymbolId
deriving Inhabited

/-- The label in front of a statement. -/
structure StmtLabel where
  name : String
  symbol : Option SymbolId
deriving DecidableEq, Inhabited

/-- A jump. A `break` or `continue` ends up with the loop it leaves or repeats, and with the
    symbol of its label if it has one; a `goto` ends up with the symbol of its label alone. -/
structure Jump where
  kind : JumpKind
  label : Option String
  labelSymbol : Option SymbolId
  target : Option StmtId
deriving DecidableEq, Inhabited

/-! ## Expressions and statements -/

mutual

/-- An expression. Its type is unknown until the checker has found it. -/
structure Expr where
  position : Position
  form : ExprForm
  type : Ty

/-- The forms of expressions. -/
inductive ExprForm where
  | literal (literal : Literal)
  /-- No expression. -/
  | blank
  | compound (spec : Option TypeSpec) (shape : CompoundShape) (elements : List Element)
  | binary (op : BinaryOp) (left right : Expr)
  | unary (op : UnaryOp) (operand : Expr)
  | index (left index : Expr)
  | selector (left : Expr) (field : String)
  | call (callee : Expr) (args : List Expr)
  | func (func : Func)
  | ident (ident : Ident)
  | type (spec : TypeSpec)

/-- An element of a composite literal. -/
structure Element where
  key : Option Expr
  value : Expr

/-- A function. Only methods have a receiver. -/
structure Func where
  name : Option String
  receiver : Option Param
  params : List Param
  results : List Param
  body : Block

/-- Statements between braces, with the symbols of the labels that stand among them. -/
structure Block where
  statements : List Stmt
  labels : NameMap SymbolId

/-- A statement. -/
structure Stmt where
  id : StmtId
  position : Position
  label : Option StmtLabel
  form : StmtForm

/-- The forms of statements. -/
inductive StmtForm where
  | assign (lhs rhs : List Expr) (op : AssignOp)
  | struct (decl : StructDecl)
  | typeAlias (decl : AliasDecl)
  | var (vars : VarForm)
  | pass
  | cond (branches : List Branch)
  | loop (loop : Loop)
  | expr (expr : Expr)
  | jump (jump : Jump)
  | ret (values : List Expr)

/-- The declaration of a struct. -/
structure StructDecl where
  name : String
  fields : List FieldDecl
  methods : List Func
  symbol : Option SymbolId

/-- A form that declares variables, several at once if it likes. A named function is a variable
    that is initialised with the function. -/
structure VarForm where
  vars : List VarDecl
  isFunc : Bool

/-- One variable of a form. -/
structure VarDecl where
  name : String
  position : Position
  spec : Option TypeSpec
  value : Option Expr
  symbol : Option SymbolId

/-- One branch of a conditional. The last one may have no condition. -/
structure Branch where
  header : Option VarForm
  condition : Option Expr
  body : Block

/-- A loop. -/
structure Loop where
  header : Option VarForm
  condition : Option Expr
  step : Option Stmt
  body : Block

end

instance : Inhabited Expr := ⟨⟨{}, .blank, .unknown⟩⟩
instance : Inhabited Stmt := ⟨⟨{}, {}, none, .pass⟩⟩

/-- A parsed file. The name is empty if none was recorded. -/
structure SourceFile where
  name : String
  package : String
  body : List Stmt
deriving Inhabited

/-! ## Parts and names -/

/-- Whether the expression stands for no expression. -/
def Expr.isBlank (e : Expr) : Bool :=
  match e.form with
  | .blank => true
  | _ => false

/-- The name that an expression consists of, if it is a name. -/
def Expr.ident? (e : Expr) : Option Ident :=
  match e.form with
  | .ident ident => some ident
  | _ => none

/-- Whether a value can be assigned to the expression: a name, an element, a field, what a
    pointer points to, or nothing. -/
def Expr.isAssignable (e : Expr) : Bool :=
  match e.form with
  | .ident _ | .index _ _ | .selector _ _ | .blank | .unary .deref _ => true
  | _ => false

/-- The names that a statement declares in the scope around it. -/
def Stmt.declaredNames (s : Stmt) : List String :=
  match s.form with
  | .var vars => vars.vars.map (·.name)
  | .struct decl => [decl.name]
  | .typeAlias decl => [decl.name]
  | _ => []

/-- Whether the statement is a loop, and so can be left or repeated by a jump. -/
def Stmt.isLoop (s : Stmt) : Bool :=
  match s.form with
  | .loop _ => true
  | _ => false

/-! ## Labels -/

/-- A label that a block has already. -/
structure DuplicateLabel where
  name : String
  previous : SymbolId

/-- The text of the error. -/
def DuplicateLabel.message (err : DuplicateLabel) : String :=
  "label `" ++ err.name ++ "` declared more than once"

namespace Block

/-- The symbol of a label among the statements of the block. -/
def label? (block : Block) (name : String) : Option SymbolId :=
  block.labels.find? name

/-- Adds a label, unless the block has one of that name. -/
def addLabel (block : Block) (name : String) (symbol : SymbolId) :
    Except DuplicateLabel Block :=
  match block.labels.find? name with
  | some previous => .error ⟨name, previous⟩
  | none => .ok { block with labels := block.labels.insert name symbol }

end Block

end PackageCheck
