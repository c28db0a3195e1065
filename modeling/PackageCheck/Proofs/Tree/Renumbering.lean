import PackageCheck.Proofs.Tree.Erasure

/-! # Numbering a tree that is numbered

Numbering changes nothing but numbers, so a tree that has its numbers already is left as it is,
with all of its annotations. -/

namespace PackageCheck

mutual

theorem Expr.number_of_erase : ∀ (e : Expr) (n : Nat),
    (e.number.run n).1.erase id = e.erase id → (e.number.run n).1 = e
  | ⟨position, form, type⟩, n, same =>
    congrArg (Expr.mk position · type) (form.number_of_erase n (Expr.mk.inj same).2.1)

theorem ExprForm.number_of_erase : ∀ (form : ExprForm) (n : Nat),
    (form.number.run n).1.erase id = form.erase id → (form.number.run n).1 = form
  | .literal _, _, _ => rfl
  | .blank, _, _ => rfl
  | .compound spec shape elements, n, same =>
    congrArg (ExprForm.compound spec shape)
      (Element.numberList_of_erase elements n (ExprForm.compound.inj same).2.2)
  | .binary op left right, n, same =>
    have ⟨_, first, second⟩ := ExprForm.binary.inj same
    congrArg₂ (ExprForm.binary op) (left.number_of_erase n first) (right.number_of_erase _ second)
  | .unary op operand, n, same =>
    congrArg (ExprForm.unary op) (operand.number_of_erase n (ExprForm.unary.inj same).2)
  | .index left index, n, same =>
    have ⟨first, second⟩ := ExprForm.index.inj same
    congrArg₂ ExprForm.index (left.number_of_erase n first) (index.number_of_erase _ second)
  | .selector left field, n, same =>
    congrArg (ExprForm.selector · field) (left.number_of_erase n (ExprForm.selector.inj same).1)
  | .call callee args, n, same =>
    have ⟨first, second⟩ := ExprForm.call.inj same
    congrArg₂ ExprForm.call (callee.number_of_erase n first)
      (Expr.numberList_of_erase args _ second)
  | .func func, n, same =>
    congrArg ExprForm.func (func.number_of_erase n (ExprForm.func.inj same))
  | .ident _, _, _ => rfl
  | .type _, _, _ => rfl

theorem Expr.numberList_of_erase : ∀ (es : List Expr) (n : Nat),
    Expr.eraseList id ((Expr.numberList es).run n).1 = Expr.eraseList id es →
      ((Expr.numberList es).run n).1 = es
  | [], _, _ => rfl
  | e :: rest, n, same =>
    have ⟨first, others⟩ := List.cons.inj same
    congrArg₂ (· :: ·) (e.number_of_erase n first) (Expr.numberList_of_erase rest _ others)

theorem Expr.numberOption_of_erase : ∀ (e : Option Expr) (n : Nat),
    Expr.eraseOption id ((Expr.numberOption e).run n).1 = Expr.eraseOption id e →
      ((Expr.numberOption e).run n).1 = e
  | none, _, _ => rfl
  | some e, n, same => congrArg some (e.number_of_erase n (Option.some.inj same))

theorem Element.numberList_of_erase : ∀ (elements : List Element) (n : Nat),
    Element.eraseList id ((Element.numberList elements).run n).1 = Element.eraseList id elements →
      ((Element.numberList elements).run n).1 = elements
  | [], _, _ => rfl
  | ⟨key, value⟩ :: rest, n, same =>
    have ⟨here, others⟩ := List.cons.inj same
    have ⟨first, second⟩ := Element.mk.inj here
    congrArg₂ (· :: ·) (congrArg₂ Element.mk (Expr.numberOption_of_erase key n first)
      (value.number_of_erase _ second)) (Element.numberList_of_erase rest _ others)

theorem Func.number_of_erase : ∀ (func : Func) (n : Nat),
    (func.number.run n).1.erase id = func.erase id → (func.number.run n).1 = func
  | ⟨name, receiver, params, results, body⟩, n, same =>
    have ⟨_, _, _, _, inside⟩ := Func.mk.inj same
    congrArg (Func.mk name receiver params results) (body.number_of_erase n inside)

theorem Func.numberList_of_erase : ∀ (funcs : List Func) (n : Nat),
    Func.eraseList id ((Func.numberList funcs).run n).1 = Func.eraseList id funcs →
      ((Func.numberList funcs).run n).1 = funcs
  | [], _, _ => rfl
  | func :: rest, n, same =>
    have ⟨first, others⟩ := List.cons.inj same
    congrArg₂ (· :: ·) (func.number_of_erase n first) (Func.numberList_of_erase rest _ others)

theorem Block.number_of_erase : ∀ (block : Block) (n : Nat),
    (block.number.run n).1.erase id = block.erase id → (block.number.run n).1 = block
  | ⟨statements, labels⟩, n, same =>
    congrArg (Block.mk · labels) (Stmt.numberList_of_erase statements n (Block.mk.inj same).1)

theorem Stmt.number_of_erase : ∀ (s : Stmt) (n : Nat),
    (s.number.run n).1.erase id = s.erase id → (s.number.run n).1 = s
  | ⟨_, position, label, form⟩, _, same =>
    have ⟨number, _, _, inside⟩ := Stmt.mk.inj same
    congrArg₂ (Stmt.mk · position label) number (form.number_of_erase _ inside)

theorem Stmt.numberList_of_erase : ∀ (statements : List Stmt) (n : Nat),
    Stmt.eraseList id ((Stmt.numberList statements).run n).1 = Stmt.eraseList id statements →
      ((Stmt.numberList statements).run n).1 = statements
  | [], _, _ => rfl
  | s :: rest, n, same =>
    have ⟨first, others⟩ := List.cons.inj same
    congrArg₂ (· :: ·) (s.number_of_erase n first) (Stmt.numberList_of_erase rest _ others)

theorem Stmt.numberOption_of_erase : ∀ (s : Option Stmt) (n : Nat),
    Stmt.eraseOption id ((Stmt.numberOption s).run n).1 = Stmt.eraseOption id s →
      ((Stmt.numberOption s).run n).1 = s
  | none, _, _ => rfl
  | some s, n, same => congrArg some (s.number_of_erase n (Option.some.inj same))

theorem StmtForm.number_of_erase : ∀ (form : StmtForm) (n : Nat),
    (form.number.run n).1.erase id = form.erase id → (form.number.run n).1 = form
  | .assign lhs rhs op, n, same =>
    have ⟨first, second, _⟩ := StmtForm.assign.inj same
    congrArg₂ (StmtForm.assign · · op) (Expr.numberList_of_erase lhs n first)
      (Expr.numberList_of_erase rhs _ second)
  | .struct ⟨name, fields, methods, symbol⟩, n, same =>
    have ⟨_, _, inside, _⟩ := StructDecl.mk.inj (StmtForm.struct.inj same)
    congrArg (StmtForm.struct ⟨name, fields, ·, symbol⟩) (Func.numberList_of_erase methods n inside)
  | .typeAlias _, _, _ => rfl
  | .var vars, n, same =>
    congrArg StmtForm.var (vars.number_of_erase n (StmtForm.var.inj same))
  | .pass, _, _ => rfl
  | .cond branches, n, same =>
    congrArg StmtForm.cond (Branch.numberList_of_erase branches n (StmtForm.cond.inj same))
  | .loop ⟨header, condition, step, body⟩, n, same =>
    have ⟨first, second, third, fourth⟩ := Loop.mk.inj (StmtForm.loop.inj same)
    congrArg StmtForm.loop (congr (congr (congrArg₂ Loop.mk
      (VarForm.numberOption_of_erase header n first)
      (Expr.numberOption_of_erase condition _ second)) (Stmt.numberOption_of_erase step _ third))
      (body.number_of_erase _ fourth))
  | .expr e, n, same => congrArg StmtForm.expr (e.number_of_erase n (StmtForm.expr.inj same))
  | .jump _, _, _ => rfl
  | .ret values, n, same =>
    congrArg StmtForm.ret (Expr.numberList_of_erase values n (StmtForm.ret.inj same))

theorem VarForm.number_of_erase : ∀ (vars : VarForm) (n : Nat),
    (vars.number.run n).1.erase id = vars.erase id → (vars.number.run n).1 = vars
  | ⟨vars, isFunc⟩, n, same =>
    congrArg (VarForm.mk · isFunc) (VarDecl.numberList_of_erase vars n (VarForm.mk.inj same).1)

theorem VarForm.numberOption_of_erase : ∀ (vars : Option VarForm) (n : Nat),
    VarForm.eraseOption id ((VarForm.numberOption vars).run n).1 = VarForm.eraseOption id vars →
      ((VarForm.numberOption vars).run n).1 = vars
  | none, _, _ => rfl
  | some vars, n, same => congrArg some (vars.number_of_erase n (Option.some.inj same))

theorem VarDecl.numberList_of_erase : ∀ (vars : List VarDecl) (n : Nat),
    VarDecl.eraseList id ((VarDecl.numberList vars).run n).1 = VarDecl.eraseList id vars →
      ((VarDecl.numberList vars).run n).1 = vars
  | [], _, _ => rfl
  | ⟨name, position, spec, value, symbol⟩ :: rest, n, same =>
    have ⟨here, others⟩ := List.cons.inj same
    have ⟨_, _, _, inside, _⟩ := VarDecl.mk.inj here
    congrArg₂ (· :: ·) (congrArg (VarDecl.mk name position spec · symbol)
      (Expr.numberOption_of_erase value n inside)) (VarDecl.numberList_of_erase rest _ others)

theorem Branch.numberList_of_erase : ∀ (branches : List Branch) (n : Nat),
    Branch.eraseList id ((Branch.numberList branches).run n).1 = Branch.eraseList id branches →
      ((Branch.numberList branches).run n).1 = branches
  | [], _, _ => rfl
  | ⟨header, condition, body⟩ :: rest, n, same =>
    have ⟨here, others⟩ := List.cons.inj same
    have ⟨first, second, third⟩ := Branch.mk.inj here
    congrArg₂ (· :: ·) (congr (congrArg₂ Branch.mk (VarForm.numberOption_of_erase header n first)
      (Expr.numberOption_of_erase condition _ second)) (body.number_of_erase _ third))
      (Branch.numberList_of_erase rest _ others)

end

/-- Files whose numbers are those that numbering would give them. -/
theorem SourceFile.numberList_of_erase : ∀ (files : List SourceFile) (n : Nat),
    ((SourceFile.numberList files).run n).1.map (SourceFile.erase id) =
        files.map (SourceFile.erase id) →
      ((SourceFile.numberList files).run n).1 = files
  | [], _, _ => rfl
  | ⟨name, package, body⟩ :: rest, n, same =>
    have ⟨here, others⟩ := List.cons.inj same
    have ⟨_, _, inside⟩ := SourceFile.mk.inj here
    congrArg₂ (· :: ·) (congrArg (SourceFile.mk name package)
      (Stmt.numberList_of_erase body n inside)) (SourceFile.numberList_of_erase rest _ others)

end PackageCheck
