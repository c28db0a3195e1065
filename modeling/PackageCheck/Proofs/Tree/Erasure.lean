import Mathlib.Logic.Basic
import PackageCheck.Proofs.Tree.Numbering

/-! # Erasing annotations

What a checker finds out about a tree can be taken out of it again: the types of expressions, the
shapes of composite literals, and all handles. What is left is the tree as it was written, with
the numbers of its statements under a renumbering.

* `walk_erase`: the walk of an erased tree is the walk of the tree, with the trees in its events
  erased.
* `number_erase`: erasing commutes with numbering, whatever numbers were there before.
* `erase_number`: a tree without numbers is the same before and after it is numbered. -/

namespace PackageCheck

variable (renumber : StmtId → StmtId)

/-! ## Leaves -/

/-- The parameter as written. -/
def Param.erase (param : Param) : Param :=
  { param with symbol := none }

/-- The declaration as written. -/
def AliasDecl.erase (decl : AliasDecl) : AliasDecl :=
  { decl with symbol := none }

/-- The label as written. -/
def StmtLabel.erase (label : StmtLabel) : StmtLabel :=
  { label with symbol := none }

/-- The jump as written. -/
def Jump.erase (jump : Jump) : Jump :=
  { jump with labelSymbol := none, target := none }

/-! ## Expressions and statements -/

mutual

/-- The expression as written. -/
def Expr.erase : Expr → Expr
  | ⟨position, form, _⟩ => ⟨position, form.erase, .unknown⟩

/-- The form of expression as written. -/
def ExprForm.erase : ExprForm → ExprForm
  | .literal literal => .literal literal
  | .blank => .blank
  | .compound spec _ elements => .compound spec .undecided (Element.eraseList elements)
  | .binary op left right => .binary op left.erase right.erase
  | .unary op operand => .unary op operand.erase
  | .index left index => .index left.erase index.erase
  | .selector left field => .selector left.erase field
  | .call callee args => .call callee.erase (Expr.eraseList args)
  | .func func => .func func.erase
  | .ident ident => .ident { name := ident.name }
  | .type spec => .type spec

/-- The expressions as written. -/
def Expr.eraseList : List Expr → List Expr
  | [] => []
  | e :: rest => e.erase :: Expr.eraseList rest

/-- An expression as written, if there is one. -/
def Expr.eraseOption : Option Expr → Option Expr
  | none => none
  | some e => some e.erase

/-- The elements as written. -/
def Element.eraseList : List Element → List Element
  | [] => []
  | ⟨key, value⟩ :: rest => ⟨Expr.eraseOption key, value.erase⟩ :: Element.eraseList rest

/-- The function as written. -/
def Func.erase : Func → Func
  | ⟨name, receiver, params, results, body⟩ =>
    ⟨name, receiver.map Param.erase, params.map Param.erase, results.map Param.erase, body.erase⟩

/-- The functions as written. -/
def Func.eraseList : List Func → List Func
  | [] => []
  | func :: rest => func.erase :: Func.eraseList rest

/-- The block as written. -/
def Block.erase : Block → Block
  | ⟨statements, _⟩ => ⟨Stmt.eraseList statements, .empty⟩

/-- The statement as written, with another number. -/
def Stmt.erase : Stmt → Stmt
  | ⟨id, position, label, form⟩ => ⟨renumber id, position, label.map StmtLabel.erase, form.erase⟩

/-- The statements as written. -/
def Stmt.eraseList : List Stmt → List Stmt
  | [] => []
  | s :: rest => s.erase :: Stmt.eraseList rest

/-- A statement as written, if there is one. -/
def Stmt.eraseOption : Option Stmt → Option Stmt
  | none => none
  | some s => some s.erase

/-- The form of statement as written. -/
def StmtForm.erase : StmtForm → StmtForm
  | .assign lhs rhs op => .assign (Expr.eraseList lhs) (Expr.eraseList rhs) op
  | .struct ⟨name, fields, methods, _⟩ => .struct ⟨name, fields, Func.eraseList methods, none⟩
  | .typeAlias decl => .typeAlias decl.erase
  | .var vars => .var vars.erase
  | .pass => .pass
  | .cond branches => .cond (Branch.eraseList branches)
  | .loop ⟨header, condition, step, body⟩ =>
    .loop ⟨VarForm.eraseOption header, Expr.eraseOption condition, Stmt.eraseOption step,
      body.erase⟩
  | .expr e => .expr e.erase
  | .jump jump => .jump jump.erase
  | .ret values => .ret (Expr.eraseList values)

/-- The form of variables as written. -/
def VarForm.erase : VarForm → VarForm
  | ⟨vars, isFunc⟩ => ⟨VarDecl.eraseList vars, isFunc⟩

/-- A form of variables as written, if there is one. -/
def VarForm.eraseOption : Option VarForm → Option VarForm
  | none => none
  | some vars => some vars.erase

/-- The variables as written. -/
def VarDecl.eraseList : List VarDecl → List VarDecl
  | [] => []
  | ⟨name, position, spec, value, _⟩ :: rest =>
    ⟨name, position, spec, Expr.eraseOption value, none⟩ :: VarDecl.eraseList rest

/-- The branches as written. -/
def Branch.eraseList : List Branch → List Branch
  | [] => []
  | ⟨header, condition, body⟩ :: rest =>
    ⟨VarForm.eraseOption header, Expr.eraseOption condition, body.erase⟩ :: Branch.eraseList rest

end

/-- The file as written. -/
def SourceFile.erase (file : SourceFile) : SourceFile :=
  { file with body := Stmt.eraseList renumber file.body }

/-- The file as written, without numbers. -/
def SourceFile.bare (file : SourceFile) : SourceFile :=
  file.erase fun _ => {}

/-- The event of the tree as written. -/
def Event.erase : Event → Event
  | .enterStmt s => .enterStmt (s.erase renumber)
  | .leaveStmt s => .leaveStmt (s.erase renumber)
  | .enterExpr e => .enterExpr (e.erase renumber)
  | .leaveExpr e => .leaveExpr (e.erase renumber)
  | .useValue ident position => .useValue { name := ident.name } position
  | .openScope => .openScope
  | .closeScope => .closeScope
  | .declare name => .declare name
  | .useType name position => .useType name position

/-! ## What stays -/

variable {renumber}

theorem Expr.ident?_erase (e : Expr) :
    (e.erase renumber).ident? = e.ident?.map fun ident => { name := ident.name } := by
  obtain ⟨_, form, _⟩ := e
  cases form <;> simp [Expr.erase, ExprForm.erase, Expr.ident?]

theorem Expr.isAssignable_erase (e : Expr) :
    (e.erase renumber).isAssignable = e.isAssignable := by
  obtain ⟨position, form, type⟩ := e
  cases form with
  | unary op operand => cases op <;> rfl
  | _ => simp [Expr.erase, ExprForm.erase, Expr.isAssignable]

theorem Expr.find?_eraseList (es : List Expr) :
    (Expr.eraseList renumber es).find? (!·.isAssignable) =
      (es.find? (!·.isAssignable)).map (Expr.erase renumber) := by
  induction es with
  | nil => rfl
  | cons e rest ih =>
    simp only [Expr.eraseList, List.find?_cons, Expr.isAssignable_erase, ih]
    cases e.isAssignable <;> rfl

theorem Expr.length_eraseList (es : List Expr) :
    (Expr.eraseList renumber es).length = es.length := by
  induction es with
  | nil => rfl
  | cons e rest ih => exact congrArg (· + 1) ih

theorem Element.length_eraseList (elements : List Element) :
    (Element.eraseList renumber elements).length = elements.length := by
  induction elements with
  | nil => rfl
  | cons element rest ih =>
    obtain ⟨key, value⟩ := element
    exact congrArg (· + 1) ih

theorem Element.isEmpty_eraseList (elements : List Element) :
    (Element.eraseList renumber elements).isEmpty = elements.isEmpty := by
  rw [Bool.eq_iff_iff, List.isEmpty_iff_length_eq_zero, List.isEmpty_iff_length_eq_zero,
    Element.length_eraseList]

theorem Stmt.eraseList_eq_map (statements : List Stmt) :
    Stmt.eraseList renumber statements = statements.map (Stmt.erase renumber) := by
  induction statements with
  | nil => rfl
  | cons s rest ih => rw [Stmt.eraseList, List.map_cons, ih]

theorem VarDecl.eraseList_cons (decl : VarDecl) (rest : List VarDecl) :
    VarDecl.eraseList renumber (decl :: rest) =
      VarDecl.eraseList renumber [decl] ++ VarDecl.eraseList renumber rest := by
  obtain ⟨name, position, spec, value, symbol⟩ := decl
  rfl

theorem Branch.eraseList_cons (branch : Branch) (rest : List Branch) :
    Branch.eraseList renumber (branch :: rest) =
      Branch.eraseList renumber [branch] ++ Branch.eraseList renumber rest := by
  obtain ⟨header, condition, body⟩ := branch
  rfl

theorem VarDecl.names_eraseList (vars : List VarDecl) :
    (VarDecl.eraseList renumber vars).map (·.name) = vars.map (·.name) := by
  induction vars with
  | nil => rfl
  | cons decl rest ih =>
    obtain ⟨name, position, spec, value, symbol⟩ := decl
    simp only [VarDecl.eraseList, List.map_cons, ih]

theorem Stmt.declaredNames_erase (s : Stmt) :
    (s.erase renumber).declaredNames = s.declaredNames := by
  obtain ⟨_, _, _, form⟩ := s
  cases form with
  | var vars =>
    obtain ⟨vars, isFunc⟩ := vars
    exact VarDecl.names_eraseList vars
  | struct decl =>
    obtain ⟨name, fields, methods, symbol⟩ := decl
    rfl
  | typeAlias decl => rfl
  | loop loop =>
    obtain ⟨header, condition, step, body⟩ := loop
    rfl
  | _ => simp [Stmt.erase, StmtForm.erase, Stmt.declaredNames]

theorem Stmt.isLoop_erase (s : Stmt) : (s.erase renumber).isLoop = s.isLoop := by
  obtain ⟨_, _, _, form⟩ := s
  cases form with
  | loop loop =>
    obtain ⟨header, condition, step, body⟩ := loop
    rfl
  | struct decl =>
    obtain ⟨name, fields, methods, symbol⟩ := decl
    rfl
  | _ => simp [Stmt.erase, StmtForm.erase, Stmt.isLoop]

/-! ## Walks -/

/-- A walk on which each event has nothing to erase stays as it is. -/
theorem map_erase_eq_self {walk : List Event}
    (bare : ∀ event ∈ walk, event.erase renumber = event) :
    walk.map (Event.erase renumber) = walk :=
  (List.map_congr_left bare).trans (List.map_id' walk)

theorem TypeSpec.map_erase_walk (spec : TypeSpec) :
    spec.walk.map (Event.erase renumber) = spec.walk :=
  map_erase_eq_self (spec.forall_mem_walk fun _ _ => rfl)

theorem TypeSpec.map_erase_walkOption (spec : Option TypeSpec) :
    (TypeSpec.walkOption spec).map (Event.erase renumber) = TypeSpec.walkOption spec :=
  map_erase_eq_self (TypeSpec.forall_mem_walkOption (fun _ _ => rfl) spec)

/-- The types of fields, parameters and results have nothing to erase. -/
theorem TypeSpec.map_erase_flatMap_walk (specs : α → TypeSpec) (items : List α) :
    (items.flatMap fun item => (specs item).walk).map (Event.erase renumber) =
      items.flatMap fun item => (specs item).walk :=
  map_erase_eq_self (TypeSpec.forall_mem_flatMap_walk specs (fun _ _ => rfl) items)

section Params

variable (receiver : Option Param) (params results : List Param)

theorem Func.map_erase_params :
    (receiver.map Param.erase).toList ++ params.map Param.erase ++ results.map Param.erase =
      (receiver.toList ++ params ++ results).map Param.erase := by
  cases receiver <;> simp

theorem Func.walkSignature_erase :
    Func.walkSignature (receiver.map Param.erase) (params.map Param.erase)
      (results.map Param.erase) = Func.walkSignature receiver params results := by
  rw [Func.walkSignature, Func.map_erase_params, List.flatMap_map]
  rfl

theorem Func.declareParams_erase :
    Func.declareParams (receiver.map Param.erase) (params.map Param.erase)
      (results.map Param.erase) = Func.declareParams receiver params results := by
  rw [Func.declareParams, Func.map_erase_params, List.filterMap_map]
  rfl

theorem Func.map_erase_walkSignature :
    (Func.walkSignature receiver params results).map (Event.erase renumber) =
      Func.walkSignature receiver params results :=
  TypeSpec.map_erase_flatMap_walk _ _

theorem Func.map_erase_declareParams :
    (Func.declareParams receiver params results).map (Event.erase renumber) =
      Func.declareParams receiver params results := by
  simp [Func.declareParams, Event.erase, Function.comp_def]

end Params

/-- The declarations of a form of variables. -/
theorem VarDecl.map_erase_declare (vars : List VarDecl) :
    (vars.map (Event.declare ·.name)).map (Event.erase renumber) =
      (VarDecl.eraseList renumber vars).map (Event.declare ·.name) := by
  have names : (VarDecl.eraseList renumber vars).map (·.name) = vars.map (·.name) :=
    VarDecl.names_eraseList vars
  simpa [Event.erase, Function.comp_def] using (congrArg (List.map Event.declare) names).symm

mutual

theorem Expr.walk_erase : ∀ e : Expr,
    (e.erase renumber).walk = e.walk.map (Event.erase renumber)
  | ⟨position, form, type⟩ => by
    simp [Expr.walk, Expr.erase, Event.erase, form.walk_erase]

theorem ExprForm.walk_erase {position : Position} : ∀ form : ExprForm,
    (form.erase renumber).walk position = (form.walk position).map (Event.erase renumber)
  | .literal _ => rfl
  | .blank => rfl
  | .compound spec _ elements => by
    simp [ExprForm.walk, ExprForm.erase, TypeSpec.map_erase_walkOption, Element.walk_eraseList]
  | .binary _ left right => by
    simp [ExprForm.walk, ExprForm.erase, left.walk_erase, right.walk_erase]
  | .unary _ operand => by simp [ExprForm.walk, ExprForm.erase, operand.walk_erase]
  | .index left index => by
    simp [ExprForm.walk, ExprForm.erase, left.walk_erase, index.walk_erase]
  | .selector left _ => by simp [ExprForm.walk, ExprForm.erase, left.walk_erase]
  | .call callee args => by
    simp [ExprForm.walk, ExprForm.erase, callee.walk_erase, Expr.walk_eraseList args]
  | .func func => by simp [ExprForm.walk, ExprForm.erase, func.walk_erase]
  | .ident ident => by simp [ExprForm.walk, ExprForm.erase, Event.erase]
  | .type spec => by simp [ExprForm.walk, ExprForm.erase, spec.map_erase_walk]

theorem Expr.walk_eraseList : ∀ es : List Expr,
    Expr.walkList (Expr.eraseList renumber es) = (Expr.walkList es).map (Event.erase renumber)
  | [] => rfl
  | e :: rest => by simp [Expr.walkList, Expr.eraseList, e.walk_erase, Expr.walk_eraseList rest]

theorem Expr.walk_eraseOption : ∀ e : Option Expr,
    Expr.walkOption (Expr.eraseOption renumber e) = (Expr.walkOption e).map (Event.erase renumber)
  | none => rfl
  | some e => by simp [Expr.walkOption, Expr.eraseOption, e.walk_erase]

theorem Expr.walk_eraseKey {valueKeys : Bool} : ∀ key : Option Expr,
    Expr.walkKey valueKeys (Expr.eraseOption renumber key) =
      (Expr.walkKey valueKeys key).map (Event.erase renumber)
  | none => rfl
  | some key => by
    simp only [Expr.walkKey, Expr.eraseOption, Expr.ident?_erase, Option.isNone_map]
    split
    · exact key.walk_erase
    · rfl

theorem Element.walk_eraseList {valueKeys : Bool} : ∀ elements : List Element,
    Element.walkList valueKeys (Element.eraseList renumber elements) =
      (Element.walkList valueKeys elements).map (Event.erase renumber)
  | [] => rfl
  | ⟨key, value⟩ :: rest => by
    simp [Element.walkList, Element.eraseList, Expr.walk_eraseKey key, value.walk_erase,
      Element.walk_eraseList rest]

theorem Func.walk_erase : ∀ func : Func,
    (func.erase renumber).walk = func.walk.map (Event.erase renumber)
  | ⟨_, receiver, params, results, ⟨statements, _⟩⟩ => by
    simp [Func.walk, Func.erase, Block.erase, Event.erase, Func.walkSignature_erase,
      Func.map_erase_walkSignature, Func.declareParams_erase, Func.map_erase_declareParams,
      Stmt.walk_eraseList statements]

theorem Func.walk_eraseList : ∀ funcs : List Func,
    Func.walkList (Func.eraseList renumber funcs) = (Func.walkList funcs).map (Event.erase renumber)
  | [] => rfl
  | func :: rest => by
    simp [Func.walkList, Func.eraseList, func.walk_erase, Func.walk_eraseList rest]

theorem Block.walk_erase : ∀ block : Block,
    (block.erase renumber).walk = block.walk.map (Event.erase renumber)
  | ⟨statements, _⟩ => by
    simp [Block.walk, Block.erase, Event.erase, Stmt.walk_eraseList statements]

theorem Stmt.walk_erase : ∀ s : Stmt,
    (s.erase renumber).walk = s.walk.map (Event.erase renumber)
  | ⟨id, position, label, form⟩ => by
    simp [Stmt.walk, Stmt.erase, Event.erase, form.walk_erase]

theorem Stmt.walk_eraseList : ∀ statements : List Stmt,
    Stmt.walkList (Stmt.eraseList renumber statements) =
      (Stmt.walkList statements).map (Event.erase renumber)
  | [] => rfl
  | s :: rest => by simp [Stmt.walkList, Stmt.eraseList, s.walk_erase, Stmt.walk_eraseList rest]

theorem Stmt.walk_eraseOption : ∀ s : Option Stmt,
    Stmt.walkOption (Stmt.eraseOption renumber s) = (Stmt.walkOption s).map (Event.erase renumber)
  | none => rfl
  | some s => by simp [Stmt.walkOption, Stmt.eraseOption, s.walk_erase]

theorem StmtForm.walk_erase : ∀ form : StmtForm,
    (form.erase renumber).walk = form.walk.map (Event.erase renumber)
  | .assign lhs rhs _ => by
    simp [StmtForm.walk, StmtForm.erase, Expr.walk_eraseList lhs, Expr.walk_eraseList rhs]
  | .struct ⟨name, fields, methods, _⟩ => by
    simp [StmtForm.walk, StmtForm.erase, Event.erase, Func.walk_eraseList methods,
      TypeSpec.map_erase_walk, List.map_flatMap]
  | .typeAlias decl => by
    simp [StmtForm.walk, StmtForm.erase, AliasDecl.erase, Event.erase, decl.target.map_erase_walk]
  | .var vars => by simp [StmtForm.walk, StmtForm.erase, vars.walk_erase]
  | .pass => rfl
  | .cond branches => by simp [StmtForm.walk, StmtForm.erase, Branch.walk_eraseList branches]
  | .loop ⟨header, condition, step, body⟩ => by
    simp [StmtForm.walk, StmtForm.erase, Event.erase, VarForm.walk_eraseOption header,
      Expr.walk_eraseOption condition, Stmt.walk_eraseOption step, body.walk_erase]
  | .expr e => by simp [StmtForm.walk, StmtForm.erase, e.walk_erase]
  | .jump _ => rfl
  | .ret values => by simp [StmtForm.walk, StmtForm.erase, Expr.walk_eraseList values]

theorem VarForm.walk_erase : ∀ vars : VarForm,
    (vars.erase renumber).walk = vars.walk.map (Event.erase renumber)
  | ⟨vars, true⟩ => by
    simp only [VarForm.walk, VarForm.erase, List.map_append, VarDecl.map_erase_declare,
      VarDecl.walk_eraseList vars]
  | ⟨vars, false⟩ => by
    simp only [VarForm.walk, VarForm.erase, List.map_append, VarDecl.map_erase_declare,
      VarDecl.walk_eraseList vars]

theorem VarForm.walk_eraseOption : ∀ vars : Option VarForm,
    VarForm.walkOption (VarForm.eraseOption renumber vars) =
      (VarForm.walkOption vars).map (Event.erase renumber)
  | none => rfl
  | some vars => by simp [VarForm.walkOption, VarForm.eraseOption, vars.walk_erase]

theorem VarDecl.walk_eraseList : ∀ vars : List VarDecl,
    VarDecl.walkList (VarDecl.eraseList renumber vars) =
      (VarDecl.walkList vars).map (Event.erase renumber)
  | [] => rfl
  | ⟨_, _, spec, value, _⟩ :: rest => by
    simp [VarDecl.walkList, VarDecl.eraseList, TypeSpec.map_erase_walkOption,
      Expr.walk_eraseOption value, VarDecl.walk_eraseList rest]

theorem Branch.walk_eraseList : ∀ branches : List Branch,
    Branch.walkList (Branch.eraseList renumber branches) =
      (Branch.walkList branches).map (Event.erase renumber)
  | [] => rfl
  | ⟨header, condition, body⟩ :: rest => by
    simp [Branch.walkList, Branch.eraseList, Event.erase, VarForm.walk_eraseOption header,
      Expr.walk_eraseOption condition, body.walk_erase, Branch.walk_eraseList rest]

end

/-! ## Numbering -/

mutual

theorem Expr.number_erase : ∀ e : Expr, (e.erase renumber).number = Expr.erase id <$> e.number
  | ⟨position, form, type⟩ => by simp [Expr.number, Expr.erase, form.number_erase]

theorem ExprForm.number_erase : ∀ form : ExprForm,
    (form.erase renumber).number = ExprForm.erase id <$> form.number
  | .literal _ => rfl
  | .blank => rfl
  | .compound _ _ elements => by
    simp [ExprForm.number, ExprForm.erase, Element.number_eraseList elements]
  | .binary _ left right => by
    simp [ExprForm.number, ExprForm.erase, left.number_erase, right.number_erase]
  | .unary _ operand => by simp [ExprForm.number, ExprForm.erase, operand.number_erase]
  | .index left index => by
    simp [ExprForm.number, ExprForm.erase, left.number_erase, index.number_erase]
  | .selector left _ => by simp [ExprForm.number, ExprForm.erase, left.number_erase]
  | .call callee args => by
    simp [ExprForm.number, ExprForm.erase, callee.number_erase, Expr.number_eraseList args]
  | .func func => by simp [ExprForm.number, ExprForm.erase, func.number_erase]
  | .ident _ => rfl
  | .type _ => rfl

theorem Expr.number_eraseList : ∀ es : List Expr,
    Expr.numberList (Expr.eraseList renumber es) = Expr.eraseList id <$> Expr.numberList es
  | [] => rfl
  | e :: rest => by simp [Expr.numberList, Expr.eraseList, e.number_erase, Expr.number_eraseList rest]

theorem Expr.number_eraseOption : ∀ e : Option Expr,
    Expr.numberOption (Expr.eraseOption renumber e) = Expr.eraseOption id <$> Expr.numberOption e
  | none => rfl
  | some e => by simp [Expr.numberOption, Expr.eraseOption, e.number_erase]

theorem Element.number_eraseList : ∀ elements : List Element,
    Element.numberList (Element.eraseList renumber elements) =
      Element.eraseList id <$> Element.numberList elements
  | [] => rfl
  | ⟨key, value⟩ :: rest => by
    simp [Element.numberList, Element.eraseList, Expr.number_eraseOption key, value.number_erase,
      Element.number_eraseList rest]

theorem Func.number_erase : ∀ func : Func,
    (func.erase renumber).number = Func.erase id <$> func.number
  | ⟨_, receiver, params, results, body⟩ => by
    simp [Func.number, Func.erase, body.number_erase]

theorem Func.number_eraseList : ∀ funcs : List Func,
    Func.numberList (Func.eraseList renumber funcs) = Func.eraseList id <$> Func.numberList funcs
  | [] => rfl
  | func :: rest => by
    simp [Func.numberList, Func.eraseList, func.number_erase, Func.number_eraseList rest]

theorem Block.number_erase : ∀ block : Block,
    (block.erase renumber).number = Block.erase id <$> block.number
  | ⟨statements, _⟩ => by simp [Block.number, Block.erase, Stmt.number_eraseList statements]

theorem Stmt.number_erase : ∀ s : Stmt,
    (s.erase renumber).number = Stmt.erase id <$> s.number
  | ⟨_, position, label, form⟩ => by simp [Stmt.number, Stmt.erase, form.number_erase]

theorem Stmt.number_eraseList : ∀ statements : List Stmt,
    Stmt.numberList (Stmt.eraseList renumber statements) =
      Stmt.eraseList id <$> Stmt.numberList statements
  | [] => rfl
  | s :: rest => by simp [Stmt.numberList, Stmt.eraseList, s.number_erase, Stmt.number_eraseList rest]

theorem Stmt.number_eraseOption : ∀ s : Option Stmt,
    Stmt.numberOption (Stmt.eraseOption renumber s) = Stmt.eraseOption id <$> Stmt.numberOption s
  | none => rfl
  | some s => by simp [Stmt.numberOption, Stmt.eraseOption, s.number_erase]

theorem StmtForm.number_erase : ∀ form : StmtForm,
    (form.erase renumber).number = StmtForm.erase id <$> form.number
  | .assign lhs rhs _ => by
    simp [StmtForm.number, StmtForm.erase, Expr.number_eraseList lhs, Expr.number_eraseList rhs]
  | .struct ⟨name, fields, methods, _⟩ => by
    simp [StmtForm.number, StmtForm.erase, Func.number_eraseList methods]
  | .typeAlias _ => rfl
  | .var vars => by simp [StmtForm.number, StmtForm.erase, vars.number_erase]
  | .pass => rfl
  | .cond branches => by simp [StmtForm.number, StmtForm.erase, Branch.number_eraseList branches]
  | .loop ⟨header, condition, step, body⟩ => by
    simp [StmtForm.number, StmtForm.erase, VarForm.number_eraseOption header,
      Expr.number_eraseOption condition, Stmt.number_eraseOption step, body.number_erase]
  | .expr e => by simp [StmtForm.number, StmtForm.erase, e.number_erase]
  | .jump _ => rfl
  | .ret values => by simp [StmtForm.number, StmtForm.erase, Expr.number_eraseList values]

theorem VarForm.number_erase : ∀ vars : VarForm,
    (vars.erase renumber).number = VarForm.erase id <$> vars.number
  | ⟨vars, isFunc⟩ => by simp [VarForm.number, VarForm.erase, VarDecl.number_eraseList vars]

theorem VarForm.number_eraseOption : ∀ vars : Option VarForm,
    VarForm.numberOption (VarForm.eraseOption renumber vars) =
      VarForm.eraseOption id <$> VarForm.numberOption vars
  | none => rfl
  | some vars => by simp [VarForm.numberOption, VarForm.eraseOption, vars.number_erase]

theorem VarDecl.number_eraseList : ∀ vars : List VarDecl,
    VarDecl.numberList (VarDecl.eraseList renumber vars) =
      VarDecl.eraseList id <$> VarDecl.numberList vars
  | [] => rfl
  | ⟨_, _, _, value, _⟩ :: rest => by
    simp [VarDecl.numberList, VarDecl.eraseList, Expr.number_eraseOption value,
      VarDecl.number_eraseList rest]

theorem Branch.number_eraseList : ∀ branches : List Branch,
    Branch.numberList (Branch.eraseList renumber branches) =
      Branch.eraseList id <$> Branch.numberList branches
  | [] => rfl
  | ⟨header, condition, body⟩ :: rest => by
    simp [Branch.numberList, Branch.eraseList, VarForm.number_eraseOption header,
      Expr.number_eraseOption condition, body.number_erase, Branch.number_eraseList rest]

end

/-- Files are numbered in the same way whatever was in them besides what was written. -/
theorem SourceFile.number_eraseList (files : List SourceFile) :
    SourceFile.numberList (files.map (SourceFile.erase renumber)) =
      (List.map (SourceFile.erase id)) <$> SourceFile.numberList files := by
  induction files with
  | nil => rfl
  | cons file rest ih =>
    simp [SourceFile.numberList, SourceFile.number, SourceFile.erase, Stmt.number_eraseList, ih]

/-! ### Numbers on their own -/

section Bare

variable {number : StmtId}

mutual

theorem Expr.erase_number : ∀ (e : Expr) (n : Nat),
    (e.number.run n).1.erase (fun _ => number) = e.erase fun _ => number
  | ⟨position, form, _⟩, n => congrArg (Expr.mk position · .unknown) (form.erase_number n)

theorem ExprForm.erase_number : ∀ (form : ExprForm) (n : Nat),
    (form.number.run n).1.erase (fun _ => number) = form.erase fun _ => number
  | .literal _, _ => rfl
  | .blank, _ => rfl
  | .compound spec _ elements, n =>
    congrArg (ExprForm.compound spec .undecided) (Element.erase_numberList elements n)
  | .binary op left right, n =>
    congrArg₂ (ExprForm.binary op) (left.erase_number n) (right.erase_number _)
  | .unary op operand, n => congrArg (ExprForm.unary op) (operand.erase_number n)
  | .index left index, n => congrArg₂ ExprForm.index (left.erase_number n) (index.erase_number _)
  | .selector left field, n => congrArg (ExprForm.selector · field) (left.erase_number n)
  | .call callee args, n =>
    congrArg₂ ExprForm.call (callee.erase_number n) (Expr.erase_numberList args _)
  | .func func, n => congrArg ExprForm.func (func.erase_number n)
  | .ident _, _ => rfl
  | .type _, _ => rfl

theorem Expr.erase_numberList : ∀ (es : List Expr) (n : Nat),
    Expr.eraseList (fun _ => number) ((Expr.numberList es).run n).1 =
      Expr.eraseList (fun _ => number) es
  | [], _ => rfl
  | e :: rest, n => congrArg₂ (· :: ·) (e.erase_number n) (Expr.erase_numberList rest _)

theorem Expr.erase_numberOption : ∀ (e : Option Expr) (n : Nat),
    Expr.eraseOption (fun _ => number) ((Expr.numberOption e).run n).1 =
      Expr.eraseOption (fun _ => number) e
  | none, _ => rfl
  | some e, n => congrArg some (e.erase_number n)

theorem Element.erase_numberList : ∀ (elements : List Element) (n : Nat),
    Element.eraseList (fun _ => number) ((Element.numberList elements).run n).1 =
      Element.eraseList (fun _ => number) elements
  | [], _ => rfl
  | ⟨key, value⟩ :: rest, n =>
    congrArg₂ (· :: ·) (congrArg₂ Element.mk (Expr.erase_numberOption key n) (value.erase_number _))
      (Element.erase_numberList rest _)

theorem Func.erase_number : ∀ (func : Func) (n : Nat),
    (func.number.run n).1.erase (fun _ => number) = func.erase fun _ => number
  | ⟨name, _, _, _, body⟩, n => congrArg (Func.mk name _ _ _) (body.erase_number n)

theorem Func.erase_numberList : ∀ (funcs : List Func) (n : Nat),
    Func.eraseList (fun _ => number) ((Func.numberList funcs).run n).1 =
      Func.eraseList (fun _ => number) funcs
  | [], _ => rfl
  | func :: rest, n => congrArg₂ (· :: ·) (func.erase_number n) (Func.erase_numberList rest _)

theorem Block.erase_number : ∀ (block : Block) (n : Nat),
    (block.number.run n).1.erase (fun _ => number) = block.erase fun _ => number
  | ⟨statements, _⟩, n => congrArg (Block.mk · .empty) (Stmt.erase_numberList statements n)

theorem Stmt.erase_number : ∀ (s : Stmt) (n : Nat),
    (s.number.run n).1.erase (fun _ => number) = s.erase fun _ => number
  | ⟨_, position, label, form⟩, _ =>
    congrArg (Stmt.mk number position (label.map StmtLabel.erase)) (form.erase_number _)

theorem Stmt.erase_numberList : ∀ (statements : List Stmt) (n : Nat),
    Stmt.eraseList (fun _ => number) ((Stmt.numberList statements).run n).1 =
      Stmt.eraseList (fun _ => number) statements
  | [], _ => rfl
  | s :: rest, n => congrArg₂ (· :: ·) (s.erase_number n) (Stmt.erase_numberList rest _)

theorem Stmt.erase_numberOption : ∀ (s : Option Stmt) (n : Nat),
    Stmt.eraseOption (fun _ => number) ((Stmt.numberOption s).run n).1 =
      Stmt.eraseOption (fun _ => number) s
  | none, _ => rfl
  | some s, n => congrArg some (s.erase_number n)

theorem StmtForm.erase_number : ∀ (form : StmtForm) (n : Nat),
    (form.number.run n).1.erase (fun _ => number) = form.erase fun _ => number
  | .assign lhs rhs op, n =>
    congrArg₂ (StmtForm.assign · · op) (Expr.erase_numberList lhs n) (Expr.erase_numberList rhs _)
  | .struct ⟨name, fields, methods, _⟩, n =>
    congrArg (StmtForm.struct ⟨name, fields, ·, none⟩) (Func.erase_numberList methods n)
  | .typeAlias _, _ => rfl
  | .var vars, n => congrArg StmtForm.var (vars.erase_number n)
  | .pass, _ => rfl
  | .cond branches, n => congrArg StmtForm.cond (Branch.erase_numberList branches n)
  | .loop ⟨header, condition, step, body⟩, n =>
    congrArg StmtForm.loop (congr (congr (congrArg₂ Loop.mk (VarForm.erase_numberOption header n)
      (Expr.erase_numberOption condition _)) (Stmt.erase_numberOption step _))
      (body.erase_number _))
  | .expr e, n => congrArg StmtForm.expr (e.erase_number n)
  | .jump _, _ => rfl
  | .ret values, n => congrArg StmtForm.ret (Expr.erase_numberList values n)

theorem VarForm.erase_number : ∀ (vars : VarForm) (n : Nat),
    (vars.number.run n).1.erase (fun _ => number) = vars.erase fun _ => number
  | ⟨vars, isFunc⟩, n => congrArg (VarForm.mk · isFunc) (VarDecl.erase_numberList vars n)

theorem VarForm.erase_numberOption : ∀ (vars : Option VarForm) (n : Nat),
    VarForm.eraseOption (fun _ => number) ((VarForm.numberOption vars).run n).1 =
      VarForm.eraseOption (fun _ => number) vars
  | none, _ => rfl
  | some vars, n => congrArg some (vars.erase_number n)

theorem VarDecl.erase_numberList : ∀ (vars : List VarDecl) (n : Nat),
    VarDecl.eraseList (fun _ => number) ((VarDecl.numberList vars).run n).1 =
      VarDecl.eraseList (fun _ => number) vars
  | [], _ => rfl
  | ⟨name, position, spec, value, _⟩ :: rest, n =>
    congrArg₂ (· :: ·) (congrArg (VarDecl.mk name position spec · none)
      (Expr.erase_numberOption value n)) (VarDecl.erase_numberList rest _)

theorem Branch.erase_numberList : ∀ (branches : List Branch) (n : Nat),
    Branch.eraseList (fun _ => number) ((Branch.numberList branches).run n).1 =
      Branch.eraseList (fun _ => number) branches
  | [], _ => rfl
  | ⟨header, condition, body⟩ :: rest, n =>
    congrArg₂ (· :: ·) (congr (congrArg₂ Branch.mk (VarForm.erase_numberOption header n)
      (Expr.erase_numberOption condition _)) (body.erase_number _))
      (Branch.erase_numberList rest _)

end

end Bare

/-- Numbered files are the files as they were given, up to annotations. -/
theorem SourceFile.bare_numberList (files : List SourceFile) (n : Nat) :
    ((SourceFile.numberList files).run n).1.map SourceFile.bare = files.map SourceFile.bare := by
  induction files generalizing n with
  | nil => rfl
  | cons file rest hypothesis =>
    have written : ((file.number).run n).1.bare = file.bare :=
      congrArg (SourceFile.mk file.name file.package) (Stmt.erase_numberList file.body n)
    exact congrArg₂ (· :: ·) written (hypothesis _)

end PackageCheck
