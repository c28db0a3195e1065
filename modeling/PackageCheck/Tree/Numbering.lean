import PackageCheck.Tree.Basic

/-! # Numbering statements

Every statement gets a number of its own, nested ones included. A statement is numbered before
what it holds, and what it holds from left to right. The state is the next number to give. -/

namespace PackageCheck

/-- A computation that gives out numbers. -/
abbrev Numbering := StateM Nat

/-- The next number. -/
def Numbering.next : Numbering StmtId := do
  let n ← get
  set (n + 1)
  return ⟨n⟩

mutual

/-- Numbers the statements in an expression. -/
def Expr.number : Expr → Numbering Expr
  | ⟨position, form, type⟩ => return ⟨position, ← form.number, type⟩

/-- Numbers the statements in the parts of an expression. -/
def ExprForm.number : ExprForm → Numbering ExprForm
  | .literal literal => return .literal literal
  | .blank => return .blank
  | .compound spec shape elements => return .compound spec shape (← Element.numberList elements)
  | .binary op left right => return .binary op (← left.number) (← right.number)
  | .unary op operand => return .unary op (← operand.number)
  | .index left index => return .index (← left.number) (← index.number)
  | .selector left field => return .selector (← left.number) field
  | .call callee args => return .call (← callee.number) (← Expr.numberList args)
  | .func func => return .func (← func.number)
  | .ident ident => return .ident ident
  | .type spec => return .type spec

/-- Numbers the statements in expressions, one after the other. -/
def Expr.numberList : List Expr → Numbering (List Expr)
  | [] => return []
  | e :: rest => return (← e.number) :: (← Expr.numberList rest)

/-- Numbers the statements in an expression that may be absent. -/
def Expr.numberOption : Option Expr → Numbering (Option Expr)
  | none => return none
  | some e => return some (← e.number)

/-- Numbers the statements in elements, the key of each before its value. -/
def Element.numberList : List Element → Numbering (List Element)
  | [] => return []
  | ⟨key, value⟩ :: rest =>
    return ⟨← Expr.numberOption key, ← value.number⟩ :: (← Element.numberList rest)

/-- Numbers the statements of a function. -/
def Func.number : Func → Numbering Func
  | ⟨name, receiver, params, results, body⟩ =>
    return ⟨name, receiver, params, results, ← body.number⟩

/-- Numbers the statements of functions, one after the other. -/
def Func.numberList : List Func → Numbering (List Func)
  | [] => return []
  | func :: rest => return (← func.number) :: (← Func.numberList rest)

/-- Numbers the statements of a block. -/
def Block.number : Block → Numbering Block
  | ⟨statements, labels⟩ => return ⟨← Stmt.numberList statements, labels⟩

/-- Numbers a statement, and then those in it. -/
def Stmt.number : Stmt → Numbering Stmt
  | ⟨_, position, label, form⟩ => return ⟨← Numbering.next, position, label, ← form.number⟩

/-- Numbers statements, one after the other. -/
def Stmt.numberList : List Stmt → Numbering (List Stmt)
  | [] => return []
  | s :: rest => return (← s.number) :: (← Stmt.numberList rest)

/-- Numbers a statement that may be absent. -/
def Stmt.numberOption : Option Stmt → Numbering (Option Stmt)
  | none => return none
  | some s => return some (← s.number)

/-- Numbers the statements in the parts of a statement. -/
def StmtForm.number : StmtForm → Numbering StmtForm
  | .assign lhs rhs op => return .assign (← Expr.numberList lhs) (← Expr.numberList rhs) op
  | .struct ⟨name, fields, methods, symbol⟩ =>
    return .struct ⟨name, fields, ← Func.numberList methods, symbol⟩
  | .typeAlias decl => return .typeAlias decl
  | .var vars => return .var (← vars.number)
  | .pass => return .pass
  | .cond branches => return .cond (← Branch.numberList branches)
  | .loop ⟨header, condition, step, body⟩ =>
    return .loop ⟨← VarForm.numberOption header, ← Expr.numberOption condition,
      ← Stmt.numberOption step, ← body.number⟩
  | .expr e => return .expr (← e.number)
  | .jump jump => return .jump jump
  | .ret values => return .ret (← Expr.numberList values)

/-- Numbers the statements in a form of variables. -/
def VarForm.number : VarForm → Numbering VarForm
  | ⟨vars, isFunc⟩ => return ⟨← VarDecl.numberList vars, isFunc⟩

/-- Numbers the statements in a form of variables that may be absent. -/
def VarForm.numberOption : Option VarForm → Numbering (Option VarForm)
  | none => return none
  | some vars => return some (← vars.number)

/-- Numbers the statements in the initial values of variables. -/
def VarDecl.numberList : List VarDecl → Numbering (List VarDecl)
  | [] => return []
  | ⟨name, position, spec, value, symbol⟩ :: rest =>
    return ⟨name, position, spec, ← Expr.numberOption value, symbol⟩ :: (← VarDecl.numberList rest)

/-- Numbers the statements in the branches of a conditional. -/
def Branch.numberList : List Branch → Numbering (List Branch)
  | [] => return []
  | ⟨header, condition, body⟩ :: rest =>
    return ⟨← VarForm.numberOption header, ← Expr.numberOption condition, ← body.number⟩ ::
      (← Branch.numberList rest)

end

/-- Numbers the statements of a file. -/
def SourceFile.number (file : SourceFile) : Numbering SourceFile :=
  return { file with body := ← Stmt.numberList file.body }

/-- Numbers the statements of files, one file after the other. -/
def SourceFile.numberList : List SourceFile → Numbering (List SourceFile)
  | [] => return []
  | file :: rest => return (← file.number) :: (← SourceFile.numberList rest)

end PackageCheck
