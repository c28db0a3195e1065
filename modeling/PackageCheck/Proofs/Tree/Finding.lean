import PackageCheck.Proofs.Tree.Erasure

/-! # The findings in a tree

All that a check leaves in a tree, in the order of the tree: a type for each expression and a handle
for each name, label and jump, each with what is written at its place. Unlike a walk this leaves
nothing out, also not the keys that are mere names. -/

namespace PackageCheck

/-- A finding: an annotation, with the part of the tree that holds it. -/
inductive Finding where
  | type (type : Ty)
  | ident (ident : Ident)
  | param (param : Param)
  | variable (name : String) (symbol : Option SymbolId)
  | typeDecl (name : String) (symbol : Option SymbolId)
  | labels (labels : NameMap SymbolId)
  | label (label : StmtLabel)
  | jump (jump : Jump)
  /-- The number of a statement, which is a loop or not. -/
  | stmt (id : StmtId) (isLoop : Bool)

mutual

/-- The findings in an expression. -/
def Expr.findings : Expr → List Finding
  | ⟨_, form, type⟩ => .type type :: form.findings

/-- The findings in a form of expression. -/
def ExprForm.findings : ExprForm → List Finding
  | .literal _ | .blank | .type _ => []
  | .compound _ _ elements => Element.findingsList elements
  | .binary _ left right => left.findings ++ right.findings
  | .unary _ operand => operand.findings
  | .index left index => left.findings ++ index.findings
  | .selector left _ => left.findings
  | .call callee args => callee.findings ++ Expr.findingsList args
  | .func func => func.findings
  | .ident ident => [.ident ident]

/-- The findings in expressions. -/
def Expr.findingsList : List Expr → List Finding
  | [] => []
  | e :: rest => e.findings ++ Expr.findingsList rest

/-- The findings in an expression that may be absent. -/
def Expr.findingsOption : Option Expr → List Finding
  | none => []
  | some e => e.findings

/-- The findings in the elements of a literal. -/
def Element.findingsList : List Element → List Finding
  | [] => []
  | ⟨key, value⟩ :: rest =>
    Expr.findingsOption key ++ (value.findings ++ Element.findingsList rest)

/-- The findings in a function. -/
def Func.findings : Func → List Finding
  | ⟨_, receiver, params, results, body⟩ =>
    (receiver.toList ++ params ++ results).map .param ++ body.findings

/-- The findings in functions. -/
def Func.findingsList : List Func → List Finding
  | [] => []
  | func :: rest => func.findings ++ Func.findingsList rest

/-- The findings in a block. -/
def Block.findings : Block → List Finding
  | ⟨statements, labels⟩ => .labels labels :: Stmt.findingsList statements

/-- The findings in a statement. -/
def Stmt.findings : Stmt → List Finding
  | ⟨id, position, label, form⟩ =>
    .stmt id (Stmt.isLoop ⟨id, position, label, form⟩) ::
      (label.toList.map .label ++ form.findings)

/-- The findings in statements. -/
def Stmt.findingsList : List Stmt → List Finding
  | [] => []
  | s :: rest => s.findings ++ Stmt.findingsList rest

/-- The findings in a statement that may be absent. -/
def Stmt.findingsOption : Option Stmt → List Finding
  | none => []
  | some s => s.findings

/-- The findings in a form of statement. -/
def StmtForm.findings : StmtForm → List Finding
  | .assign lhs rhs _ => Expr.findingsList lhs ++ Expr.findingsList rhs
  | .struct ⟨name, _, methods, symbol⟩ => .typeDecl name symbol :: Func.findingsList methods
  | .typeAlias decl => [.typeDecl decl.name decl.symbol]
  | .var vars => vars.findings
  | .pass => []
  | .cond branches => Branch.findingsList branches
  | .loop ⟨header, condition, step, body⟩ =>
    VarForm.findingsOption header ++ (Expr.findingsOption condition ++
      (Stmt.findingsOption step ++ body.findings))
  | .expr e => e.findings
  | .jump jump => [.jump jump]
  | .ret values => Expr.findingsList values

/-- The findings in a form of variables. -/
def VarForm.findings : VarForm → List Finding
  | ⟨vars, _⟩ => VarDecl.findingsList vars

/-- The findings in a form of variables that may be absent. -/
def VarForm.findingsOption : Option VarForm → List Finding
  | none => []
  | some vars => vars.findings

/-- The findings in variables. -/
def VarDecl.findingsList : List VarDecl → List Finding
  | [] => []
  | ⟨name, _, _, value, symbol⟩ :: rest =>
    .variable name symbol :: (Expr.findingsOption value ++ VarDecl.findingsList rest)

/-- The findings in the branches of a conditional. -/
def Branch.findingsList : List Branch → List Finding
  | [] => []
  | ⟨header, condition, body⟩ :: rest =>
    VarForm.findingsOption header ++ (Expr.findingsOption condition ++
      (body.findings ++ Branch.findingsList rest))

end

/-- The findings in files. -/
def SourceFile.findings (files : List SourceFile) : List Finding :=
  files.flatMap fun file => Stmt.findingsList file.body

/-- The finding at the same place of the tree as written, which has found nothing. -/
def Finding.erase (renumber : StmtId → StmtId) : Finding → Finding
  | .type _ => .type .unknown
  | .ident leaf => .ident { name := leaf.name }
  | .param leaf => .param leaf.erase
  | .variable name _ => .variable name none
  | .typeDecl name _ => .typeDecl name none
  | .labels _ => .labels .empty
  | .label leaf => .label leaf.erase
  | .jump leaf => .jump leaf.erase
  | .stmt id isLoop => .stmt (renumber id) isLoop

/-! ## Erased trees -/

variable {renumber : StmtId → StmtId}

theorem Param.map_erase_findings (receiver : Option Param) (params results : List Param) :
    ((receiver.map Param.erase).toList ++ params.map Param.erase ++
      results.map Param.erase).map Finding.param =
      ((receiver.toList ++ params ++ results).map Finding.param).map
        (Finding.erase renumber) := by
  rw [Func.map_erase_params, List.map_map, List.map_map]
  rfl

theorem StmtLabel.map_erase_findings (label : Option StmtLabel) :
    (label.map StmtLabel.erase).toList.map Finding.label =
      (label.toList.map Finding.label).map (Finding.erase renumber) := by
  cases label <;> rfl

mutual

theorem Expr.findings_erase : ∀ e : Expr,
    (e.erase renumber).findings = e.findings.map (Finding.erase renumber)
  | ⟨position, form, type⟩ => by
    simp [Expr.findings, Expr.erase, Finding.erase, form.findings_erase]

theorem ExprForm.findings_erase : ∀ form : ExprForm,
    (form.erase renumber).findings = form.findings.map (Finding.erase renumber)
  | .literal _ => rfl
  | .blank => rfl
  | .type _ => rfl
  | .compound _ _ elements => by
    simp [ExprForm.findings, ExprForm.erase, Element.findingsList_erase elements]
  | .binary _ left right => by
    simp [ExprForm.findings, ExprForm.erase, left.findings_erase, right.findings_erase]
  | .unary _ operand => by simp [ExprForm.findings, ExprForm.erase, operand.findings_erase]
  | .index left index => by
    simp [ExprForm.findings, ExprForm.erase, left.findings_erase, index.findings_erase]
  | .selector left _ => by simp [ExprForm.findings, ExprForm.erase, left.findings_erase]
  | .call callee args => by
    simp [ExprForm.findings, ExprForm.erase, callee.findings_erase,
      Expr.findingsList_erase args]
  | .func func => by simp [ExprForm.findings, ExprForm.erase, func.findings_erase]
  | .ident ident => rfl

theorem Expr.findingsList_erase : ∀ es : List Expr,
    Expr.findingsList (Expr.eraseList renumber es) =
      (Expr.findingsList es).map (Finding.erase renumber)
  | [] => rfl
  | e :: rest => by
    simp [Expr.findingsList, Expr.eraseList, e.findings_erase, Expr.findingsList_erase rest]

theorem Expr.findingsOption_erase : ∀ e : Option Expr,
    Expr.findingsOption (Expr.eraseOption renumber e) =
      (Expr.findingsOption e).map (Finding.erase renumber)
  | none => rfl
  | some e => by simp [Expr.findingsOption, Expr.eraseOption, e.findings_erase]

theorem Element.findingsList_erase : ∀ elements : List Element,
    Element.findingsList (Element.eraseList renumber elements) =
      (Element.findingsList elements).map (Finding.erase renumber)
  | [] => rfl
  | ⟨key, value⟩ :: rest => by
    simp [Element.findingsList, Element.eraseList, Expr.findingsOption_erase key,
      value.findings_erase, Element.findingsList_erase rest]

theorem Func.findings_erase : ∀ func : Func,
    (func.erase renumber).findings = func.findings.map (Finding.erase renumber)
  | ⟨_, receiver, params, results, body⟩ => by
    have leaves := @Param.map_erase_findings renumber receiver params results
    rw [Func.erase, Func.findings, Func.findings, body.findings_erase, leaves,
      ← List.map_append]

theorem Func.findingsList_erase : ∀ funcs : List Func,
    Func.findingsList (Func.eraseList renumber funcs) =
      (Func.findingsList funcs).map (Finding.erase renumber)
  | [] => rfl
  | func :: rest => by
    simp [Func.findingsList, Func.eraseList, func.findings_erase,
      Func.findingsList_erase rest]

theorem Block.findings_erase : ∀ block : Block,
    (block.erase renumber).findings = block.findings.map (Finding.erase renumber)
  | ⟨statements, _⟩ => by
    simp [Block.findings, Block.erase, Finding.erase, Stmt.findingsList_erase statements]

theorem Stmt.findings_erase : ∀ s : Stmt,
    (s.erase renumber).findings = s.findings.map (Finding.erase renumber)
  | ⟨id, position, label, form⟩ => by
    have loop := @Stmt.isLoop_erase renumber ⟨id, position, label, form⟩
    rw [Stmt.erase] at loop ⊢
    rw [Stmt.findings, Stmt.findings, loop, form.findings_erase,
      StmtLabel.map_erase_findings, List.map_cons, List.map_append]
    rfl

theorem Stmt.findingsList_erase : ∀ statements : List Stmt,
    Stmt.findingsList (Stmt.eraseList renumber statements) =
      (Stmt.findingsList statements).map (Finding.erase renumber)
  | [] => rfl
  | s :: rest => by
    simp [Stmt.findingsList, Stmt.eraseList, s.findings_erase, Stmt.findingsList_erase rest]

theorem Stmt.findingsOption_erase : ∀ s : Option Stmt,
    Stmt.findingsOption (Stmt.eraseOption renumber s) =
      (Stmt.findingsOption s).map (Finding.erase renumber)
  | none => rfl
  | some s => by simp [Stmt.findingsOption, Stmt.eraseOption, s.findings_erase]

theorem StmtForm.findings_erase : ∀ form : StmtForm,
    (form.erase renumber).findings = form.findings.map (Finding.erase renumber)
  | .assign lhs rhs _ => by
    simp [StmtForm.findings, StmtForm.erase, Expr.findingsList_erase lhs,
      Expr.findingsList_erase rhs]
  | .struct ⟨_, _, methods, _⟩ => by
    simp [StmtForm.findings, StmtForm.erase, Finding.erase,
      Func.findingsList_erase methods]
  | .typeAlias _ => rfl
  | .var vars => by simp [StmtForm.findings, StmtForm.erase, vars.findings_erase]
  | .pass => rfl
  | .cond branches => by
    simp [StmtForm.findings, StmtForm.erase, Branch.findingsList_erase branches]
  | .loop ⟨header, condition, step, body⟩ => by
    simp [StmtForm.findings, StmtForm.erase, VarForm.findingsOption_erase header,
      Expr.findingsOption_erase condition, Stmt.findingsOption_erase step,
      body.findings_erase]
  | .expr e => by simp [StmtForm.findings, StmtForm.erase, e.findings_erase]
  | .jump _ => rfl
  | .ret values => by simp [StmtForm.findings, StmtForm.erase, Expr.findingsList_erase values]

theorem VarForm.findings_erase : ∀ vars : VarForm,
    (vars.erase renumber).findings = vars.findings.map (Finding.erase renumber)
  | ⟨vars, _⟩ => by simp [VarForm.findings, VarForm.erase, VarDecl.findingsList_erase vars]

theorem VarForm.findingsOption_erase : ∀ vars : Option VarForm,
    VarForm.findingsOption (VarForm.eraseOption renumber vars) =
      (VarForm.findingsOption vars).map (Finding.erase renumber)
  | none => rfl
  | some vars => by simp [VarForm.findingsOption, VarForm.eraseOption, vars.findings_erase]

theorem VarDecl.findingsList_erase : ∀ vars : List VarDecl,
    VarDecl.findingsList (VarDecl.eraseList renumber vars) =
      (VarDecl.findingsList vars).map (Finding.erase renumber)
  | [] => rfl
  | ⟨_, _, _, value, _⟩ :: rest => by
    simp [VarDecl.findingsList, VarDecl.eraseList, Finding.erase,
      Expr.findingsOption_erase value, VarDecl.findingsList_erase rest]

theorem Branch.findingsList_erase : ∀ branches : List Branch,
    Branch.findingsList (Branch.eraseList renumber branches) =
      (Branch.findingsList branches).map (Finding.erase renumber)
  | [] => rfl
  | ⟨header, condition, body⟩ :: rest => by
    simp [Branch.findingsList, Branch.eraseList, VarForm.findingsOption_erase header,
      Expr.findingsOption_erase condition, body.findings_erase,
      Branch.findingsList_erase rest]

end

theorem SourceFile.findings_erase (files : List SourceFile) :
    SourceFile.findings (files.map (SourceFile.erase renumber)) =
      (SourceFile.findings files).map (Finding.erase renumber) := by
  simp only [SourceFile.findings, List.flatMap_map, List.map_flatMap, SourceFile.erase,
    Stmt.findingsList_erase]

end PackageCheck
