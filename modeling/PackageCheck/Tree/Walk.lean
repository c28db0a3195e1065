import PackageCheck.Tree.Basic

/-! # Walking trees

The walk of a tree is the list of what a reader meets on the way, in the order in which a checker
sees it: nodes are entered and left, scopes open and close, names are declared and used. So a
reader of the list can tell a name declared on the way from a free one without knowing the forms
of statements.

* A plain form of variables declares its names behind their initial values, a form of functions
  declares them in front, since a function can call itself.
* The receiver, parameters and results of a function share the scope of its body.
* A bare name as a key is the name of a field, unless the literal is written as a map, an array or
  a slice. -/

namespace PackageCheck

/-- What a reader of a tree meets. -/
inductive Event where
  | enterStmt (stmt : Stmt)
  | leaveStmt (stmt : Stmt)
  | enterExpr (expr : Expr)
  | leaveExpr (expr : Expr)
  | openScope
  | closeScope
  /-- A name introduced into the innermost scope. -/
  | declare (name : String)
  /-- A name used as a value. -/
  | useValue (ident : Ident) (position : Position)
  /-- A name used as a type. -/
  | useType (name : String) (position : Position)

/-! ## Types -/

mutual

/-- The names that a type specification uses. -/
def TypeSpec.walk : TypeSpec → List Event
  | .named name position => [.useType name position]
  | .array _ of => of.walk
  | .slice of => of.walk
  | .map key value => key.walk ++ value.walk
  | .pointer pointee => pointee.walk
  | .tuple members => TypeSpec.walkList members
  | .func args results => TypeSpec.walkList args ++ TypeSpec.walkList results
  | .blank => []

/-- The names that specifications use, one after the other. -/
def TypeSpec.walkList : List TypeSpec → List Event
  | [] => []
  | spec :: rest => spec.walk ++ TypeSpec.walkList rest

end

/-- The walk of a specification that may be absent. -/
def TypeSpec.walkOption : Option TypeSpec → List Event
  | none => []
  | some spec => spec.walk

section Uses

variable {P : Event → Prop}

mutual

/-- A reader of a specification meets uses of types alone. -/
theorem TypeSpec.forall_mem_walk (uses : ∀ name position, P (.useType name position)) :
    ∀ spec : TypeSpec, ∀ event ∈ spec.walk, P event
  | .named name position => List.forall_mem_singleton.mpr (uses name position)
  | .array _ of => of.forall_mem_walk uses
  | .slice of => of.forall_mem_walk uses
  | .map key value =>
    List.forall_mem_append.mpr ⟨key.forall_mem_walk uses, value.forall_mem_walk uses⟩
  | .pointer pointee => pointee.forall_mem_walk uses
  | .tuple members => TypeSpec.forall_mem_walkList uses members
  | .func args results =>
    List.forall_mem_append.mpr
      ⟨TypeSpec.forall_mem_walkList uses args, TypeSpec.forall_mem_walkList uses results⟩
  | .blank => List.forall_mem_nil P

theorem TypeSpec.forall_mem_walkList (uses : ∀ name position, P (.useType name position)) :
    ∀ specs : List TypeSpec, ∀ event ∈ TypeSpec.walkList specs, P event
  | [] => List.forall_mem_nil P
  | spec :: rest =>
    List.forall_mem_append.mpr
      ⟨spec.forall_mem_walk uses, TypeSpec.forall_mem_walkList uses rest⟩

end

theorem TypeSpec.forall_mem_walkOption (uses : ∀ name position, P (.useType name position)) :
    ∀ spec : Option TypeSpec, ∀ event ∈ TypeSpec.walkOption spec, P event
  | none => List.forall_mem_nil P
  | some spec => spec.forall_mem_walk uses

/-- The same holds for the types of fields, parameters and results. -/
theorem TypeSpec.forall_mem_flatMap_walk {α : Type u} (spec : α → TypeSpec)
    (uses : ∀ name position, P (.useType name position)) (items : List α) :
    ∀ event ∈ items.flatMap (fun item => (spec item).walk), P event := by
  intro event member
  obtain ⟨item, -, inside⟩ := List.mem_flatMap.mp member
  exact (spec item).forall_mem_walk uses event inside

end Uses

/-! ## Functions -/

/-- The types of a function: those of the receiver, the parameters and the results. -/
def Func.walkSignature (receiver : Option Param) (params results : List Param) : List Event :=
  (receiver.toList ++ params ++ results).flatMap (·.spec.walk)

/-- The names of a function's receiver, parameters and results. -/
def Func.declareParams (receiver : Option Param) (params results : List Param) : List Event :=
  (receiver.toList ++ params ++ results).filterMap (·.name) |>.map .declare

/-- Whether the keys of a composite literal are values even if they are bare names. -/
def TypeSpec.hasValueKeys : Option TypeSpec → Bool
  | some (.map _ _) | some (.array _ _) | some (.slice _) => true
  | _ => false

/-! ## Expressions and statements -/

mutual

/-- The walk of an expression. -/
def Expr.walk : Expr → List Event
  | ⟨position, form, type⟩ =>
    .enterExpr ⟨position, form, type⟩ :: form.walk position ++ [.leaveExpr ⟨position, form, type⟩]

/-- The walk of the parts of an expression. -/
def ExprForm.walk (position : Position) : ExprForm → List Event
  | .literal _ => []
  | .blank => []
  | .compound spec _ elements =>
    TypeSpec.walkOption spec ++ Element.walkList (TypeSpec.hasValueKeys spec) elements
  | .binary _ left right => left.walk ++ right.walk
  | .unary _ operand => operand.walk
  | .index left index => left.walk ++ index.walk
  | .selector left _ => left.walk
  | .call callee args => callee.walk ++ Expr.walkList args
  | .func func => func.walk
  | .ident ident => [.useValue ident position]
  | .type spec => spec.walk

/-- The walk of expressions, one after the other. -/
def Expr.walkList : List Expr → List Event
  | [] => []
  | e :: rest => e.walk ++ Expr.walkList rest

/-- The walk of an expression that may be absent. -/
def Expr.walkOption : Option Expr → List Event
  | none => []
  | some e => e.walk

/-- The walk of a key. -/
def Expr.walkKey (valueKeys : Bool) : Option Expr → List Event
  | none => []
  | some key => if valueKeys || key.ident?.isNone then key.walk else []

/-- The walk of the elements of a composite literal. -/
def Element.walkList (valueKeys : Bool) : List Element → List Event
  | [] => []
  | ⟨key, value⟩ :: rest =>
    Expr.walkKey valueKeys key ++ value.walk ++ Element.walkList valueKeys rest

/-- The walk of a function. -/
def Func.walk : Func → List Event
  | ⟨_, receiver, params, results, ⟨statements, _⟩⟩ =>
    Func.walkSignature receiver params results ++
      .openScope :: Func.declareParams receiver params results ++ Stmt.walkList statements ++
      [.closeScope]

/-- The walk of functions, one after the other. -/
def Func.walkList : List Func → List Event
  | [] => []
  | func :: rest => func.walk ++ Func.walkList rest

/-- The walk of a block, which is a scope. -/
def Block.walk : Block → List Event
  | ⟨statements, _⟩ => .openScope :: Stmt.walkList statements ++ [.closeScope]

/-- The walk of a statement. -/
def Stmt.walk : Stmt → List Event
  | ⟨id, position, label, form⟩ =>
    .enterStmt ⟨id, position, label, form⟩ :: form.walk ++ [.leaveStmt ⟨id, position, label, form⟩]

/-- The walk of statements, one after the other. -/
def Stmt.walkList : List Stmt → List Event
  | [] => []
  | s :: rest => s.walk ++ Stmt.walkList rest

/-- The walk of a statement that may be absent. -/
def Stmt.walkOption : Option Stmt → List Event
  | none => []
  | some s => s.walk

/-- The walk of the parts of a statement. -/
def StmtForm.walk : StmtForm → List Event
  | .assign lhs rhs _ => Expr.walkList rhs ++ Expr.walkList lhs
  | .struct ⟨name, fields, methods, _⟩ =>
    .declare name :: fields.flatMap (·.spec.walk) ++ Func.walkList methods
  | .typeAlias decl => .declare decl.name :: decl.target.walk
  | .var vars => vars.walk
  | .pass => []
  | .cond branches => Branch.walkList branches
  | .loop ⟨header, condition, step, body⟩ =>
    .openScope :: VarForm.walkOption header ++ Expr.walkOption condition ++ Stmt.walkOption step ++
      body.walk ++ [.closeScope]
  | .expr e => e.walk
  | .jump _ => []
  | .ret values => Expr.walkList values

/-- The walk of a form of variables. -/
def VarForm.walk : VarForm → List Event
  | ⟨vars, true⟩ => vars.map (.declare ·.name) ++ VarDecl.walkList vars
  | ⟨vars, false⟩ => VarDecl.walkList vars ++ vars.map (.declare ·.name)

/-- The walk of a form of variables that may be absent. -/
def VarForm.walkOption : Option VarForm → List Event
  | none => []
  | some vars => vars.walk

/-- The walk of the types and initial values of variables. -/
def VarDecl.walkList : List VarDecl → List Event
  | [] => []
  | ⟨_, _, spec, value, _⟩ :: rest =>
    TypeSpec.walkOption spec ++ Expr.walkOption value ++ VarDecl.walkList rest

/-- The walk of the branches of a conditional, each a scope around its header and its block. -/
def Branch.walkList : List Branch → List Event
  | [] => []
  | ⟨header, condition, body⟩ :: rest =>
    .openScope :: VarForm.walkOption header ++ Expr.walkOption condition ++ body.walk ++
      .closeScope :: Branch.walkList rest

end

end PackageCheck
