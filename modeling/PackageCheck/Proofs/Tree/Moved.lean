import Mathlib.Data.List.Forall2
import PackageCheck.Proofs.Tree.LeftOver

/-! # Trees with other numbers

Two trees are the same but for the numbers of their statements, if one function leads from the
numbers of the one to those of the other. The statements that their jumps lead to are left out,
since they may be those of an earlier check. -/

namespace PackageCheck

variable {move : StmtId → StmtId}

mutual

/-- Whether two expressions are the same but for the numbers of the statements in them. -/
inductive Expr.Moved (move : StmtId → StmtId) : Expr → Expr → Prop
  | mk : ExprForm.Moved move form form' →
      Expr.Moved move ⟨position, form, type⟩ ⟨position, form', type⟩

/-- Whether two forms of expressions are the same but for the numbers of statements. -/
inductive ExprForm.Moved (move : StmtId → StmtId) : ExprForm → ExprForm → Prop
  | literal : ExprForm.Moved move (.literal literal) (.literal literal)
  | blank : ExprForm.Moved move .blank .blank
  | compound : List.Forall₂ (Element.Moved move) elements elements' →
      ExprForm.Moved move (.compound spec shape elements) (.compound spec shape elements')
  | binary : Expr.Moved move left left' → Expr.Moved move right right' →
      ExprForm.Moved move (.binary op left right) (.binary op left' right')
  | unary : Expr.Moved move operand operand' →
      ExprForm.Moved move (.unary op operand) (.unary op operand')
  | index : Expr.Moved move left left' → Expr.Moved move index index' →
      ExprForm.Moved move (.index left index) (.index left' index')
  | selector : Expr.Moved move left left' →
      ExprForm.Moved move (.selector left field) (.selector left' field)
  | call : Expr.Moved move callee callee' → List.Forall₂ (Expr.Moved move) args args' →
      ExprForm.Moved move (.call callee args) (.call callee' args')
  | func : Func.Moved move func func' → ExprForm.Moved move (.func func) (.func func')
  | ident : ExprForm.Moved move (.ident ident) (.ident ident)
  | type : ExprForm.Moved move (.type spec) (.type spec)

/-- Whether two elements are the same but for the numbers of statements. -/
inductive Element.Moved (move : StmtId → StmtId) : Element → Element → Prop
  | mk : Option.Rel (Expr.Moved move) key key' → Expr.Moved move value value' →
      Element.Moved move ⟨key, value⟩ ⟨key', value'⟩

/-- Whether two functions are the same but for the numbers of their statements. -/
inductive Func.Moved (move : StmtId → StmtId) : Func → Func → Prop
  | mk : Block.Moved move body body' →
      Func.Moved move ⟨name, receiver, params, results, body⟩
        ⟨name, receiver, params, results, body'⟩

/-- Whether two blocks are the same but for the numbers of their statements. -/
inductive Block.Moved (move : StmtId → StmtId) : Block → Block → Prop
  | mk : List.Forall₂ (Stmt.Moved move) statements statements' →
      Block.Moved move ⟨statements, labels⟩ ⟨statements', labels⟩

/-- Whether two statements are the same but for their numbers, and those of the statements in
    them. -/
inductive Stmt.Moved (move : StmtId → StmtId) : Stmt → Stmt → Prop
  | mk : StmtForm.Moved move form form' →
      Stmt.Moved move ⟨own, position, label, form⟩ ⟨move own, position, label, form'⟩

/-- Whether two forms of statements are the same but for the numbers of statements. -/
inductive StmtForm.Moved (move : StmtId → StmtId) : StmtForm → StmtForm → Prop
  | assign : List.Forall₂ (Expr.Moved move) lhs lhs' → List.Forall₂ (Expr.Moved move) rhs rhs' →
      StmtForm.Moved move (.assign lhs rhs op) (.assign lhs' rhs' op)
  | struct : List.Forall₂ (Func.Moved move) methods methods' →
      StmtForm.Moved move (.struct ⟨name, fields, methods, symbol⟩)
        (.struct ⟨name, fields, methods', symbol⟩)
  | typeAlias : StmtForm.Moved move (.typeAlias decl) (.typeAlias decl)
  | var : VarForm.Moved move vars vars' → StmtForm.Moved move (.var vars) (.var vars')
  | pass : StmtForm.Moved move .pass .pass
  | cond : List.Forall₂ (Branch.Moved move) branches branches' →
      StmtForm.Moved move (.cond branches) (.cond branches')
  | loop : Option.Rel (VarForm.Moved move) header header' →
      Option.Rel (Expr.Moved move) condition condition' →
        Option.Rel (Stmt.Moved move) step step' → Block.Moved move body body' →
          StmtForm.Moved move (.loop ⟨header, condition, step, body⟩)
            (.loop ⟨header', condition', step', body'⟩)
  | expr : Expr.Moved move e e' → StmtForm.Moved move (.expr e) (.expr e')
  | jump : StmtForm.Moved move (.jump ⟨kind, label, symbol, target⟩)
      (.jump ⟨kind, label, symbol, target'⟩)
  | ret : List.Forall₂ (Expr.Moved move) values values' →
      StmtForm.Moved move (.ret values) (.ret values')

/-- Whether two forms of variables are the same but for the numbers of statements. -/
inductive VarForm.Moved (move : StmtId → StmtId) : VarForm → VarForm → Prop
  | mk : List.Forall₂ (VarDecl.Moved move) vars vars' →
      VarForm.Moved move ⟨vars, isFunc⟩ ⟨vars', isFunc⟩

/-- Whether two variables are the same but for the numbers of statements. -/
inductive VarDecl.Moved (move : StmtId → StmtId) : VarDecl → VarDecl → Prop
  | mk : Option.Rel (Expr.Moved move) value value' →
      VarDecl.Moved move ⟨name, position, spec, value, symbol⟩
        ⟨name, position, spec, value', symbol⟩

/-- Whether two branches are the same but for the numbers of statements. -/
inductive Branch.Moved (move : StmtId → StmtId) : Branch → Branch → Prop
  | mk : Option.Rel (VarForm.Moved move) header header' →
      Option.Rel (Expr.Moved move) condition condition' → Block.Moved move body body' →
        Branch.Moved move ⟨header, condition, body⟩ ⟨header', condition', body'⟩

end

/-! ## Numbering from another number on -/

/-- Whether two computations give out as many numbers, and come to related values if the numbers of
    the first one are moved to those of the second one. -/
def Numbering.Moves (move : StmtId → StmtId) (numbering numbering' : Numbering α)
    (R : α → α → Prop) : Prop :=
  ∀ n n', ∃ count, (numbering.run n).2 = n + count ∧ (numbering'.run n').2 = n' + count ∧
    ((∀ j < count, move ⟨n + j⟩ = ⟨n' + j⟩) → R (numbering.run n).1 (numbering'.run n').1)

namespace Numbering.Moves

variable {R : α → α → Prop} {S : β → β → Prop} {numbering numbering' : Numbering α}

theorem pure {a a' : α} (related : R a a') :
    Moves move (Pure.pure a) (Pure.pure a') R :=
  fun _ _ => ⟨0, rfl, rfl, fun _ => related⟩

theorem bind {next next' : α → Numbering β} (first : Moves move numbering numbering' R)
    (second : ∀ a a', Moves move (next a) (next' a') fun b b' => R a a' → S b b') :
    Moves move (numbering >>= next) (numbering' >>= next') S := by
  intro n n'
  obtain ⟨count, ends, ends', related⟩ := first n n'
  obtain ⟨more, behind, behind', others⟩ := second (numbering.run n).1 (numbering'.run n').1
    (numbering.run n).2 (numbering'.run n').2
  refine ⟨count + more, ?_, ?_, fun moved => ?_⟩
  · change ((next (numbering.run n).1).run (numbering.run n).2).2 = _
    rw [behind, ends, Nat.add_assoc]
  · change ((next' (numbering'.run n').1).run (numbering'.run n').2).2 = _
    rw [behind', ends', Nat.add_assoc]
  · apply others
    · intro j bound
      rw [ends, ends', Nat.add_assoc, Nat.add_assoc]
      exact moved (count + j) (by omega)
    · exact related fun j bound => moved j (by omega)

/-- A statement takes a number, which is moved. -/
theorem next : Moves move Numbering.next Numbering.next fun own own' => own' = move own :=
  fun _ _ => ⟨1, rfl, rfl, fun moved => (moved 0 (by omega)).symm⟩

end Numbering.Moves

mutual

theorem Expr.number_moves : ∀ e : Expr,
    Numbering.Moves move e.number e.number (Expr.Moved move)
  | ⟨_, form, _⟩ => .bind form.number_moves fun _ _ => .pure .mk

theorem ExprForm.number_moves : ∀ form : ExprForm,
    Numbering.Moves move form.number form.number (ExprForm.Moved move)
  | .literal _ => .pure .literal
  | .blank => .pure .blank
  | .compound _ _ elements => .bind (Element.numberList_moves elements) fun _ _ => .pure .compound
  | .binary _ left right => .bind left.number_moves fun _ _ => .bind right.number_moves fun _ _ =>
    .pure fun right left => .binary left right
  | .unary _ operand => .bind operand.number_moves fun _ _ => .pure .unary
  | .index left index => .bind left.number_moves fun _ _ => .bind index.number_moves fun _ _ =>
    .pure fun index left => .index left index
  | .selector left _ => .bind left.number_moves fun _ _ => .pure .selector
  | .call callee args => .bind callee.number_moves fun _ _ =>
    .bind (Expr.numberList_moves args) fun _ _ => .pure fun args callee => .call callee args
  | .func func => .bind func.number_moves fun _ _ => .pure .func
  | .ident _ => .pure .ident
  | .type _ => .pure .type

theorem Expr.numberList_moves : ∀ es : List Expr,
    Numbering.Moves move (Expr.numberList es) (Expr.numberList es) (List.Forall₂ (Expr.Moved move))
  | [] => .pure .nil
  | e :: rest => .bind e.number_moves fun _ _ => .bind (Expr.numberList_moves rest) fun _ _ =>
    .pure fun rest first => .cons first rest

theorem Expr.numberOption_moves : ∀ e : Option Expr,
    Numbering.Moves move (Expr.numberOption e) (Expr.numberOption e) (Option.Rel (Expr.Moved move))
  | none => .pure .none
  | some e => .bind e.number_moves fun _ _ => .pure .some

theorem Element.numberList_moves : ∀ elements : List Element,
    Numbering.Moves move (Element.numberList elements) (Element.numberList elements)
      (List.Forall₂ (Element.Moved move))
  | [] => .pure .nil
  | ⟨key, value⟩ :: rest => .bind (Expr.numberOption_moves key) fun _ _ =>
    .bind value.number_moves fun _ _ => .bind (Element.numberList_moves rest) fun _ _ =>
      .pure fun rest value key => .cons (.mk key value) rest

theorem Func.number_moves : ∀ func : Func,
    Numbering.Moves move func.number func.number (Func.Moved move)
  | ⟨_, _, _, _, body⟩ => .bind body.number_moves fun _ _ => .pure .mk

theorem Func.numberList_moves : ∀ funcs : List Func,
    Numbering.Moves move (Func.numberList funcs) (Func.numberList funcs)
      (List.Forall₂ (Func.Moved move))
  | [] => .pure .nil
  | func :: rest => .bind func.number_moves fun _ _ => .bind (Func.numberList_moves rest) fun _ _ =>
    .pure fun rest first => .cons first rest

theorem Block.number_moves : ∀ block : Block,
    Numbering.Moves move block.number block.number (Block.Moved move)
  | ⟨statements, _⟩ => .bind (Stmt.numberList_moves statements) fun _ _ => .pure .mk

theorem Stmt.number_moves : ∀ s : Stmt, Numbering.Moves move s.number s.number (Stmt.Moved move)
  | ⟨_, _, _, form⟩ => .bind .next fun _ _ => .bind form.number_moves fun _ _ =>
    .pure fun form own => own ▸ .mk form

theorem Stmt.numberList_moves : ∀ statements : List Stmt,
    Numbering.Moves move (Stmt.numberList statements) (Stmt.numberList statements)
      (List.Forall₂ (Stmt.Moved move))
  | [] => .pure .nil
  | s :: rest => .bind s.number_moves fun _ _ => .bind (Stmt.numberList_moves rest) fun _ _ =>
    .pure fun rest first => .cons first rest

theorem Stmt.numberOption_moves : ∀ s : Option Stmt,
    Numbering.Moves move (Stmt.numberOption s) (Stmt.numberOption s) (Option.Rel (Stmt.Moved move))
  | none => .pure .none
  | some s => .bind s.number_moves fun _ _ => .pure .some

theorem StmtForm.number_moves : ∀ form : StmtForm,
    Numbering.Moves move form.number form.number (StmtForm.Moved move)
  | .assign lhs rhs _ => .bind (Expr.numberList_moves lhs) fun _ _ =>
    .bind (Expr.numberList_moves rhs) fun _ _ => .pure fun rhs lhs => .assign lhs rhs
  | .struct ⟨_, _, methods, _⟩ => .bind (Func.numberList_moves methods) fun _ _ => .pure .struct
  | .typeAlias _ => .pure .typeAlias
  | .var vars => .bind vars.number_moves fun _ _ => .pure .var
  | .pass => .pure .pass
  | .cond branches => .bind (Branch.numberList_moves branches) fun _ _ => .pure .cond
  | .loop ⟨header, condition, step, body⟩ => .bind (VarForm.numberOption_moves header) fun _ _ =>
    .bind (Expr.numberOption_moves condition) fun _ _ => .bind (Stmt.numberOption_moves step)
      fun _ _ => .bind body.number_moves fun _ _ =>
        .pure fun body step condition header => .loop header condition step body
  | .expr e => .bind e.number_moves fun _ _ => .pure .expr
  | .jump _ => .pure .jump
  | .ret values => .bind (Expr.numberList_moves values) fun _ _ => .pure .ret

theorem VarForm.number_moves : ∀ vars : VarForm,
    Numbering.Moves move vars.number vars.number (VarForm.Moved move)
  | ⟨vars, _⟩ => .bind (VarDecl.numberList_moves vars) fun _ _ => .pure .mk

theorem VarForm.numberOption_moves : ∀ vars : Option VarForm,
    Numbering.Moves move (VarForm.numberOption vars) (VarForm.numberOption vars)
      (Option.Rel (VarForm.Moved move))
  | none => .pure .none
  | some vars => .bind vars.number_moves fun _ _ => .pure .some

theorem VarDecl.numberList_moves : ∀ vars : List VarDecl,
    Numbering.Moves move (VarDecl.numberList vars) (VarDecl.numberList vars)
      (List.Forall₂ (VarDecl.Moved move))
  | [] => .pure .nil
  | ⟨_, _, _, value, _⟩ :: rest => .bind (Expr.numberOption_moves value) fun _ _ =>
    .bind (VarDecl.numberList_moves rest) fun _ _ => .pure fun rest value => .cons (.mk value) rest

theorem Branch.numberList_moves : ∀ branches : List Branch,
    Numbering.Moves move (Branch.numberList branches) (Branch.numberList branches)
      (List.Forall₂ (Branch.Moved move))
  | [] => .pure .nil
  | ⟨header, condition, body⟩ :: rest => .bind (VarForm.numberOption_moves header) fun _ _ =>
    .bind (Expr.numberOption_moves condition) fun _ _ => .bind body.number_moves fun _ _ =>
      .bind (Branch.numberList_moves rest) fun _ _ =>
        .pure fun rest body condition header => .cons (.mk header condition body) rest

end

/-! ## What does not depend on the numbers -/

section Nodes

variable {e e' : Expr} {s s' : Stmt}

theorem ExprForm.Moved.outline {form form' : ExprForm} (moved : ExprForm.Moved move form form') :
    form'.outline = form.outline := by
  cases moved <;> rfl

/-- To a rule that looks at one expression they are the same. -/
theorem Expr.Moved.alike (moved : Expr.Moved move e e') : Expr.Alike false e e' := by
  obtain ⟨moved⟩ := moved
  exact ⟨rfl, moved.outline, nofun, nofun⟩

theorem Expr.Moved.isAssignable (moved : Expr.Moved move e e') :
    e'.isAssignable = e.isAssignable := by
  obtain ⟨moved⟩ := moved
  cases moved with
  | @unary _ _ op _ => cases op <;> rfl
  | _ => rfl

/-- A type may be given to both. -/
theorem Expr.Moved.withType (moved : Expr.Moved move e e') (type : Ty) :
    Expr.Moved move { e with type := type } { e' with type := type } := by
  obtain ⟨moved⟩ := moved
  exact .mk moved

theorem Stmt.Moved.position (moved : Stmt.Moved move s s') : s'.position = s.position := by
  cases moved
  rfl

theorem VarDecl.Moved.names {vars vars' : List VarDecl}
    (moved : List.Forall₂ (VarDecl.Moved move) vars vars') :
    vars'.map (·.name) = vars.map (·.name) := by
  induction moved with
  | nil => rfl
  | cons first _ hypothesis =>
    cases first
    rw [List.map_cons, List.map_cons, hypothesis]

theorem Stmt.Moved.declaredNames (moved : Stmt.Moved move s s') :
    s'.declaredNames = s.declaredNames := by
  obtain ⟨moved⟩ := moved
  cases moved with
  | var vars =>
    obtain ⟨vars⟩ := vars
    exact VarDecl.Moved.names vars
  | _ => rfl

end Nodes

/-! ## Walks -/

/-- Whether two events of walks are the same but for the numbers of the statements in them. -/
inductive Event.Moved (move : StmtId → StmtId) : Event → Event → Prop
  | enterStmt : Stmt.Moved move s s' → Event.Moved move (.enterStmt s) (.enterStmt s')
  | leaveStmt : Stmt.Moved move s s' → Event.Moved move (.leaveStmt s) (.leaveStmt s')
  | enterExpr : Expr.Moved move e e' → Event.Moved move (.enterExpr e) (.enterExpr e')
  | leaveExpr : Expr.Moved move e e' → Event.Moved move (.leaveExpr e) (.leaveExpr e')
  | same : Event.Moved move event event

/-- Whether two walks are the same but for the numbers of the statements in them. -/
def WalkMoved (move : StmtId → StmtId) : List Event → List Event → Prop :=
  List.Forall₂ (Event.Moved move)

namespace WalkMoved

variable {walk walk' rest rest' : List Event}

theorem refl (walk : List Event) : WalkMoved move walk walk :=
  List.forall₂_same.mpr fun _ _ => .same

theorem append (first : WalkMoved move walk walk') (second : WalkMoved move rest rest') :
    WalkMoved move (walk ++ rest) (walk' ++ rest') :=
  List.rel_append first second

/-- An event without a statement or an expression in it. -/
theorem cons {event : Event} (others : WalkMoved move rest rest') :
    WalkMoved move (event :: rest) (event :: rest') :=
  List.Forall₂.cons .same others

/-- What is between the two ends of a node. -/
theorem between {entered entered' left left' : Event} (first : Event.Moved move entered entered')
    (inside : WalkMoved move walk walk') (last : Event.Moved move left left') :
    WalkMoved move (entered :: walk ++ [left]) (entered' :: walk' ++ [left']) :=
  append (List.Forall₂.cons first inside) (List.Forall₂.cons last .nil)

end WalkMoved

mutual

theorem Expr.walk_moved : ∀ {e e' : Expr}, Expr.Moved move e e' → WalkMoved move e.walk e'.walk
  | ⟨position, _, _⟩, ⟨_, _, _⟩, .mk moved =>
    .between (.enterExpr (.mk moved)) (ExprForm.walk_moved position moved) (.leaveExpr (.mk moved))
termination_by structural e => e

theorem ExprForm.walk_moved (position : Position) : ∀ {form form' : ExprForm},
    ExprForm.Moved move form form' → WalkMoved move (form.walk position) (form'.walk position)
  | .literal _, _, .literal => .refl _
  | .blank, _, .blank => .refl _
  | .compound _ _ _, _, .compound elements => .append (.refl _) (Element.walkList_moved _ elements)
  | .binary _ _ _, _, .binary left right => .append (Expr.walk_moved left) (Expr.walk_moved right)
  | .unary _ _, _, .unary operand => Expr.walk_moved operand
  | .index _ _, _, .index left index => .append (Expr.walk_moved left) (Expr.walk_moved index)
  | .selector _ _, _, .selector left => Expr.walk_moved left
  | .call _ _, _, .call callee args => .append (Expr.walk_moved callee) (Expr.walkList_moved args)
  | .func _, _, .func func => Func.walk_moved func
  | .ident _, _, .ident => .refl _
  | .type _, _, .type => .refl _
termination_by structural form => form

theorem Expr.walkList_moved : ∀ {es es' : List Expr}, List.Forall₂ (Expr.Moved move) es es' →
    WalkMoved move (Expr.walkList es) (Expr.walkList es')
  | [], _, .nil => .refl _
  | _ :: _, _, .cons first others => .append (Expr.walk_moved first) (Expr.walkList_moved others)
termination_by structural es => es

theorem Expr.walkOption_moved : ∀ {e e' : Option Expr}, Option.Rel (Expr.Moved move) e e' →
    WalkMoved move (Expr.walkOption e) (Expr.walkOption e')
  | none, _, .none => .refl _
  | some _, _, .some e => Expr.walk_moved e
termination_by structural e => e

theorem Element.walkList_moved (valueKeys : Bool) : ∀ {elements elements' : List Element},
    List.Forall₂ (Element.Moved move) elements elements' →
      WalkMoved move (Element.walkList valueKeys elements) (Element.walkList valueKeys elements')
  | [], _, .nil => .refl _
  | ⟨none, _⟩ :: _, _, .cons (.mk .none value) others =>
    .append (.append (.refl []) (Expr.walk_moved value)) (Element.walkList_moved valueKeys others)
  | ⟨some key, _⟩ :: _, _, .cons (.mk (.some moved) value) others => by
    refine .append (.append ?_ (Expr.walk_moved value)) (Element.walkList_moved valueKeys others)
    have named := congrArg Option.isNone moved.alike.ident?
    rw [Option.isNone_map, Option.isNone_map] at named
    rw [Expr.walkKey, Expr.walkKey, named]
    split
    · exact Expr.walk_moved moved
    · exact .refl []
termination_by structural elements => elements

theorem Func.walk_moved : ∀ {func func' : Func}, Func.Moved move func func' →
    WalkMoved move func.walk func'.walk
  | ⟨_, _, _, _, ⟨_, _⟩⟩, _, .mk (.mk statements) =>
    .append (.append (.refl _) (Stmt.walkList_moved statements)) (.refl _)
termination_by structural func => func

theorem Func.walkList_moved : ∀ {funcs funcs' : List Func},
    List.Forall₂ (Func.Moved move) funcs funcs' →
      WalkMoved move (Func.walkList funcs) (Func.walkList funcs')
  | [], _, .nil => .refl _
  | _ :: _, _, .cons first others => .append (Func.walk_moved first) (Func.walkList_moved others)
termination_by structural funcs => funcs

theorem Block.walk_moved : ∀ {block block' : Block}, Block.Moved move block block' →
    WalkMoved move block.walk block'.walk
  | ⟨_, _⟩, _, .mk statements => .between .same (Stmt.walkList_moved statements) .same
termination_by structural block => block

theorem Stmt.walk_moved : ∀ {s s' : Stmt}, Stmt.Moved move s s' → WalkMoved move s.walk s'.walk
  | ⟨_, _, _, _⟩, ⟨_, _, _, _⟩, .mk moved =>
    .between (.enterStmt (.mk moved)) (StmtForm.walk_moved moved) (.leaveStmt (.mk moved))
termination_by structural s => s

theorem Stmt.walkList_moved : ∀ {statements statements' : List Stmt},
    List.Forall₂ (Stmt.Moved move) statements statements' →
      WalkMoved move (Stmt.walkList statements) (Stmt.walkList statements')
  | [], _, .nil => .refl _
  | _ :: _, _, .cons first others => .append (Stmt.walk_moved first) (Stmt.walkList_moved others)
termination_by structural statements => statements

theorem Stmt.walkOption_moved : ∀ {s s' : Option Stmt}, Option.Rel (Stmt.Moved move) s s' →
    WalkMoved move (Stmt.walkOption s) (Stmt.walkOption s')
  | none, _, .none => .refl _
  | some _, _, .some s => Stmt.walk_moved s
termination_by structural s => s

theorem StmtForm.walk_moved : ∀ {form form' : StmtForm}, StmtForm.Moved move form form' →
    WalkMoved move form.walk form'.walk
  | .assign _ _ _, _, .assign lhs rhs => .append (Expr.walkList_moved rhs) (Expr.walkList_moved lhs)
  | .struct ⟨_, _, _, _⟩, _, .struct methods =>
    .append (.refl (_ :: _)) (Func.walkList_moved methods)
  | .typeAlias _, _, .typeAlias => .refl _
  | .var _, _, .var vars => VarForm.walk_moved vars
  | .pass, _, .pass => .refl _
  | .cond _, _, .cond branches => Branch.walkList_moved branches
  | .loop ⟨_, _, _, _⟩, _, .loop header condition step body => by
    have parts := (VarForm.walkOption_moved header).append (Expr.walkOption_moved condition)
    have whole := (parts.append (Stmt.walkOption_moved step)).append (Block.walk_moved body)
    exact .between .same whole .same
  | .expr _, _, .expr e => Expr.walk_moved e
  | .jump _, _, .jump => .refl _
  | .ret _, _, .ret values => Expr.walkList_moved values
termination_by structural form => form

theorem VarForm.walk_moved : ∀ {vars vars' : VarForm}, VarForm.Moved move vars vars' →
    WalkMoved move vars.walk vars'.walk
  | ⟨vars, isFunc⟩, ⟨vars', _⟩, .mk moved => by
    have names : vars'.map (Event.declare ·.name) = vars.map (Event.declare ·.name) := by
      have same := congrArg (List.map Event.declare) (VarDecl.Moved.names moved)
      rwa [List.map_map, List.map_map] at same
    cases isFunc with
    | true =>
      rw [VarForm.walk, VarForm.walk, names]
      exact .append (.refl _) (VarDecl.walkList_moved moved)
    | false =>
      rw [VarForm.walk, VarForm.walk, names]
      exact .append (VarDecl.walkList_moved moved) (.refl _)
termination_by structural vars => vars

theorem VarForm.walkOption_moved : ∀ {vars vars' : Option VarForm},
    Option.Rel (VarForm.Moved move) vars vars' →
      WalkMoved move (VarForm.walkOption vars) (VarForm.walkOption vars')
  | none, _, .none => .refl _
  | some _, _, .some vars => VarForm.walk_moved vars
termination_by structural vars => vars

theorem VarDecl.walkList_moved : ∀ {vars vars' : List VarDecl},
    List.Forall₂ (VarDecl.Moved move) vars vars' →
      WalkMoved move (VarDecl.walkList vars) (VarDecl.walkList vars')
  | [], _, .nil => .refl _
  | ⟨_, _, _, _, _⟩ :: _, _, .cons (.mk value) others =>
    .append (.append (.refl _) (Expr.walkOption_moved value)) (VarDecl.walkList_moved others)
termination_by structural vars => vars

theorem Branch.walkList_moved : ∀ {branches branches' : List Branch},
    List.Forall₂ (Branch.Moved move) branches branches' →
      WalkMoved move (Branch.walkList branches) (Branch.walkList branches')
  | [], _, .nil => .refl _
  | ⟨_, _, _⟩ :: _, _, .cons (.mk header condition body) others => by
    have parts := (VarForm.walkOption_moved header).append (Expr.walkOption_moved condition)
    have whole := parts.append (Block.walk_moved body)
    exact .append (.cons whole) (.cons (Branch.walkList_moved others))
termination_by structural branches => branches

end

/-! ## Readers of walks -/

/-- Validation visits the same. -/
theorem Event.Moved.visit? {event event' : Event} (moved : Event.Moved move event event') :
    event'.visit? = event.visit? := by
  cases moved with
  | enterExpr moved =>
    obtain ⟨moved⟩ := moved
    cases moved <;> rfl
  | _ => rfl

theorem WalkMoved.visits {walk walk' : List Event} (moved : WalkMoved move walk walk') :
    PackageCheck.visits walk' = PackageCheck.visits walk := by
  induction moved with
  | nil => rfl
  | cons first _ hypothesis =>
    unfold PackageCheck.visits at hypothesis ⊢
    rw [List.filterMap_cons, List.filterMap_cons, first.visit?, hypothesis]

theorem Stmt.Moved.leftOver {s s' : Stmt} (moved : Stmt.Moved move s s') (file : String) :
    s'.leftOver file = s.leftOver file := by
  rw [Stmt.leftOver, Stmt.leftOver, filterMap_leftOver?, filterMap_leftOver?,
    (Stmt.walk_moved moved).visits]

end PackageCheck
