import PackageCheck.Tree.Numbering
import PackageCheck.Tree.Walk

/-! # What numbering leaves alone

Numbers are given to statements only. So the walk of a numbered tree is that of the tree itself,
but for the statements that it enters and leaves and those inside its expressions. -/

namespace PackageCheck

/-- A form of expression as far as it has no parts: a blank, a literal or a name without its
    symbol. -/
def ExprForm.outline : ExprForm → ExprForm
  | .blank => .blank
  | .literal value => .literal value
  | .ident used => .ident { name := used.name }
  | _ => .compound none .undecided []

/-- An event without the tree around it. An expression keeps its type and its outline. -/
def Event.erased : Event → Event
  | .enterStmt _ => .enterStmt default
  | .leaveStmt _ => .leaveStmt default
  | .enterExpr e => .enterExpr ⟨{}, e.form.outline, e.type⟩
  | .leaveExpr e => .leaveExpr ⟨{}, e.form.outline, e.type⟩
  | event => event

/-- Whether two walks are the same but for the trees around their events. -/
def SameWalk (walk walk' : List Event) : Prop :=
  walk.map Event.erased = walk'.map Event.erased

namespace SameWalk

variable {walk walk' rest rest' : List Event}

theorem refl (walk : List Event) : SameWalk walk walk := rfl

theorem append (first : SameWalk walk walk') (second : SameWalk rest rest') :
    SameWalk (walk ++ rest) (walk' ++ rest') := by
  simp only [SameWalk, List.map_append] at first second ⊢
  rw [first, second]

theorem cons {event event' : Event} (same : event.erased = event'.erased)
    (others : SameWalk rest rest') : SameWalk (event :: rest) (event' :: rest') := by
  simp only [SameWalk, List.map_cons] at others ⊢
  rw [same, others]

end SameWalk

theorem ExprForm.outline_number (n : Nat) : ∀ form : ExprForm,
    (form.number.run n).1.outline = form.outline := by
  intro form
  cases form <;> rfl

theorem Expr.ident?_number (n : Nat) (e : Expr) : (e.number.run n).1.ident? = e.ident? := by
  obtain ⟨_, form, _⟩ := e
  cases form <;> rfl

theorem VarDecl.names_numberList : ∀ (vars : List VarDecl) (n : Nat),
    ((VarDecl.numberList vars).run n).1.map (·.name) = vars.map (·.name)
  | [], _ => rfl
  | ⟨name, _, _, value, _⟩ :: rest, n =>
    congrArg (name :: ·) (VarDecl.names_numberList rest ((Expr.numberOption value).run n).2)

/-- Numbering keeps the names that variables declare. -/
theorem VarDecl.sameWalk_declare (vars : List VarDecl) (n : Nat) :
    SameWalk (((VarDecl.numberList vars).run n).1.map (.declare ·.name))
      (vars.map (.declare ·.name)) := by
  have names := congrArg (List.map Event.declare) (VarDecl.names_numberList vars n)
  simp only [List.map_map] at names
  exact congrArg (List.map Event.erased) names

mutual

theorem Expr.sameWalk_number : ∀ (e : Expr) (n : Nat), SameWalk (e.number.run n).1.walk e.walk
  | ⟨position, form, type⟩, n => by
    have outline := form.outline_number n
    have entered : Event.erased (.enterExpr ⟨position, (form.number.run n).1, type⟩) =
        Event.erased (.enterExpr ⟨position, form, type⟩) := by simp only [Event.erased, outline]
    have left : Event.erased (.leaveExpr ⟨position, (form.number.run n).1, type⟩) =
        Event.erased (.leaveExpr ⟨position, form, type⟩) := by simp only [Event.erased, outline]
    exact .cons entered (.append (form.sameWalk_number position n) (.cons left (.refl [])))

theorem ExprForm.sameWalk_number (position : Position) : ∀ (form : ExprForm) (n : Nat),
    SameWalk ((form.number.run n).1.walk position) (form.walk position)
  | .literal _, _ => .refl _
  | .blank, _ => .refl _
  | .compound _ _ elements, n => .append (.refl _) (Element.sameWalk_numberList _ elements n)
  | .binary _ left right, n => .append (left.sameWalk_number n) (right.sameWalk_number _)
  | .unary _ operand, n => operand.sameWalk_number n
  | .index left index, n => .append (left.sameWalk_number n) (index.sameWalk_number _)
  | .selector left _, n => left.sameWalk_number n
  | .call callee args, n => .append (callee.sameWalk_number n) (Expr.sameWalk_numberList args _)
  | .func func, n => func.sameWalk_number n
  | .ident _, _ => .refl _
  | .type _, _ => .refl _

theorem Expr.sameWalk_numberList : ∀ (es : List Expr) (n : Nat),
    SameWalk (Expr.walkList ((Expr.numberList es).run n).1) (Expr.walkList es)
  | [], _ => .refl _
  | e :: rest, n => .append (e.sameWalk_number n) (Expr.sameWalk_numberList rest _)

theorem Expr.sameWalk_numberOption : ∀ (e : Option Expr) (n : Nat),
    SameWalk (Expr.walkOption ((Expr.numberOption e).run n).1) (Expr.walkOption e)
  | none, _ => .refl _
  | some e, n => e.sameWalk_number n

theorem Expr.sameWalk_numberKey (valueKeys : Bool) : ∀ (key : Option Expr) (n : Nat),
    SameWalk (Expr.walkKey valueKeys ((Expr.numberOption key).run n).1)
      (Expr.walkKey valueKeys key)
  | none, _ => .refl _
  | some key, n => by
    have named := Expr.ident?_number n key
    have visited := key.sameWalk_number n
    change SameWalk (Expr.walkKey valueKeys (some (key.number.run n).1)) _
    rw [Expr.walkKey, Expr.walkKey, named]
    split
    · exact visited
    · exact .refl _

theorem Element.sameWalk_numberList (valueKeys : Bool) : ∀ (elements : List Element) (n : Nat),
    SameWalk (Element.walkList valueKeys ((Element.numberList elements).run n).1)
      (Element.walkList valueKeys elements)
  | [], _ => .refl _
  | ⟨key, value⟩ :: rest, n =>
    .append (.append (Expr.sameWalk_numberKey valueKeys key n) (value.sameWalk_number _))
      (Element.sameWalk_numberList valueKeys rest _)

theorem Func.sameWalk_number : ∀ (func : Func) (n : Nat),
    SameWalk (func.number.run n).1.walk func.walk
  | ⟨_, _, _, _, ⟨statements, _⟩⟩, n =>
    .append (.append (.refl _) (Stmt.sameWalk_numberList statements n)) (.refl _)

theorem Func.sameWalk_numberList : ∀ (funcs : List Func) (n : Nat),
    SameWalk (Func.walkList ((Func.numberList funcs).run n).1) (Func.walkList funcs)
  | [], _ => .refl _
  | func :: rest, n => .append (func.sameWalk_number n) (Func.sameWalk_numberList rest _)

theorem Block.sameWalk_number : ∀ (block : Block) (n : Nat),
    SameWalk (block.number.run n).1.walk block.walk
  | ⟨statements, _⟩, n =>
    .cons rfl (.append (Stmt.sameWalk_numberList statements n) (.refl _))

theorem Stmt.sameWalk_number : ∀ (s : Stmt) (n : Nat), SameWalk (s.number.run n).1.walk s.walk
  | ⟨_, _, _, form⟩, _ =>
    .cons rfl (.append (form.sameWalk_number _) (.cons rfl (.refl [])))

theorem Stmt.sameWalk_numberList : ∀ (statements : List Stmt) (n : Nat),
    SameWalk (Stmt.walkList ((Stmt.numberList statements).run n).1) (Stmt.walkList statements)
  | [], _ => .refl _
  | s :: rest, n => .append (s.sameWalk_number n) (Stmt.sameWalk_numberList rest _)

theorem Stmt.sameWalk_numberOption : ∀ (s : Option Stmt) (n : Nat),
    SameWalk (Stmt.walkOption ((Stmt.numberOption s).run n).1) (Stmt.walkOption s)
  | none, _ => .refl _
  | some s, n => s.sameWalk_number n

theorem StmtForm.sameWalk_number : ∀ (form : StmtForm) (n : Nat),
    SameWalk (form.number.run n).1.walk form.walk
  | .assign lhs rhs _, n =>
    .append (Expr.sameWalk_numberList rhs _) (Expr.sameWalk_numberList lhs n)
  | .struct ⟨_, _, methods, _⟩, n =>
    .cons rfl (.append (.refl _) (Func.sameWalk_numberList methods n))
  | .typeAlias _, _ => .refl _
  | .var vars, n => vars.sameWalk_number n
  | .pass, _ => .refl _
  | .cond branches, n => Branch.sameWalk_numberList branches n
  | .loop ⟨header, condition, step, body⟩, n =>
    .cons rfl (.append (.append (.append (.append (VarForm.sameWalk_numberOption header n)
      (Expr.sameWalk_numberOption condition _)) (Stmt.sameWalk_numberOption step _))
        (body.sameWalk_number _)) (.refl _))
  | .expr e, n => e.sameWalk_number n
  | .jump _, _ => .refl _
  | .ret values, n => Expr.sameWalk_numberList values n

theorem VarForm.sameWalk_number : ∀ (vars : VarForm) (n : Nat),
    SameWalk (vars.number.run n).1.walk vars.walk
  | ⟨vars, true⟩, n =>
    .append (VarDecl.sameWalk_declare vars n) (VarDecl.sameWalk_numberList vars n)
  | ⟨vars, false⟩, n =>
    .append (VarDecl.sameWalk_numberList vars n) (VarDecl.sameWalk_declare vars n)

theorem VarForm.sameWalk_numberOption : ∀ (vars : Option VarForm) (n : Nat),
    SameWalk (VarForm.walkOption ((VarForm.numberOption vars).run n).1) (VarForm.walkOption vars)
  | none, _ => .refl _
  | some vars, n => vars.sameWalk_number n

theorem VarDecl.sameWalk_numberList : ∀ (vars : List VarDecl) (n : Nat),
    SameWalk (VarDecl.walkList ((VarDecl.numberList vars).run n).1) (VarDecl.walkList vars)
  | [], _ => .refl _
  | ⟨_, _, _, value, _⟩ :: rest, n =>
    .append (.append (.refl _) (Expr.sameWalk_numberOption value n))
      (VarDecl.sameWalk_numberList rest _)

theorem Branch.sameWalk_numberList : ∀ (branches : List Branch) (n : Nat),
    SameWalk (Branch.walkList ((Branch.numberList branches).run n).1) (Branch.walkList branches)
  | [], _ => .refl _
  | ⟨header, condition, body⟩ :: rest, n =>
    .cons rfl (.append (.append (.append (VarForm.sameWalk_numberOption header n)
      (Expr.sameWalk_numberOption condition _)) (body.sameWalk_number _))
        (.cons rfl (Branch.sameWalk_numberList rest _)))

end

/-! ## Lists -/

/-- What numbering makes of a list of statements, it makes of the statements in it. -/
theorem Stmt.exists_of_mem_numberList {s : Stmt} : ∀ {statements : List Stmt} {n : Nat},
    s ∈ ((Stmt.numberList statements).run n).1 →
      ∃ before ∈ statements, ∃ n', s = (before.number.run n').1
  | [], _, member => by cases member
  | before :: rest, n, member => by
    rcases List.mem_cons.mp member with rfl | member
    · exact ⟨before, List.mem_cons_self, n, rfl⟩
    · obtain ⟨before', listed, n', same⟩ := Stmt.exists_of_mem_numberList member
      exact ⟨before', List.mem_cons_of_mem _ listed, n', same⟩

theorem SourceFile.exists_of_mem_numberList {file : SourceFile} : ∀ {files : List SourceFile}
    {n : Nat}, file ∈ ((SourceFile.numberList files).run n).1 →
      ∃ before ∈ files, ∃ n', file = (before.number.run n').1
  | [], _, member => by cases member
  | before :: rest, n, member => by
    rcases List.mem_cons.mp member with rfl | member
    · exact ⟨before, List.mem_cons_self, n, rfl⟩
    · obtain ⟨before', listed, n', same⟩ := SourceFile.exists_of_mem_numberList member
      exact ⟨before', List.mem_cons_of_mem _ listed, n', same⟩

/-- An expression that a numbered tree enters has the type of one that the tree itself enters. -/
theorem SameWalk.exists_enterExpr {walk walk' : List Event} (same : SameWalk walk walk') {e : Expr}
    (entered : .enterExpr e ∈ walk) : ∃ e', .enterExpr e' ∈ walk' ∧ e'.type = e.type := by
  have member : Event.erased (.enterExpr e) ∈ walk'.map Event.erased :=
    same ▸ List.mem_map_of_mem entered
  obtain ⟨event, entered', erased⟩ := List.mem_map.mp member
  cases event with
  | enterExpr e' =>
    simp only [Event.erased, Event.enterExpr.injEq, Expr.mk.injEq, true_and] at erased
    exact ⟨e', entered', erased.2⟩
  | _ => cases erased

end PackageCheck
