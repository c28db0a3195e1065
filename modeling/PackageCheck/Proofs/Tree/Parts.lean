import PackageCheck.Symbol.Table
import PackageCheck.Tree.Walk

/-! # The expressions of a tree

The expressions in a tree that stand for values. The callee of a conversion stands for a type and
is left out, and so is a bare name as a key of a composite literal, which may be the name of a
field. The walk of a tree enters every expression that is listed here. -/

namespace PackageCheck

/-- Whether a callee names a type, so that the call is a conversion. -/
def Expr.namesType (table : SymbolTable) (callee : Expr) : Bool :=
  match callee.form with
  | .type _ => true
  | .ident ident => ((ident.symbol.bind table.get?).bind (·.type?)).isSome
  | _ => false

/-! ## Parts -/

section Parts

variable (table : SymbolTable)

mutual

/-- The expressions in an expression, itself included. -/
def Expr.parts : Expr → List Expr
  | ⟨position, form, type⟩ => ⟨position, form, type⟩ :: form.parts

/-- The expressions in the parts of an expression. -/
def ExprForm.parts : ExprForm → List Expr
  | .literal _ => []
  | .blank => []
  | .compound spec _ elements => Element.partsList (TypeSpec.hasValueKeys spec) elements
  | .binary _ left right => left.parts ++ right.parts
  | .unary _ operand => operand.parts
  | .index left index => left.parts ++ index.parts
  | .selector left _ => left.parts
  | .call callee args =>
    (if callee.namesType table then [] else callee.parts) ++ Expr.partsList args
  | .func func => func.parts
  | .ident _ => []
  | .type _ => []

/-- The expressions in expressions. -/
def Expr.partsList : List Expr → List Expr
  | [] => []
  | e :: rest => e.parts ++ Expr.partsList rest

/-- The expressions in an expression that may be absent. -/
def Expr.partsOption : Option Expr → List Expr
  | none => []
  | some e => e.parts

/-- The expressions in a key. -/
def Expr.partsKey (valueKeys : Bool) : Option Expr → List Expr
  | none => []
  | some key => if valueKeys || key.ident?.isNone then key.parts else []

/-- The expressions in the elements of a composite literal. -/
def Element.partsList (valueKeys : Bool) : List Element → List Expr
  | [] => []
  | ⟨key, value⟩ :: rest =>
    Expr.partsKey valueKeys key ++ value.parts ++ Element.partsList valueKeys rest

/-- The expressions in a function. -/
def Func.parts : Func → List Expr
  | ⟨_, _, _, _, body⟩ => body.parts

/-- The expressions in functions. -/
def Func.partsList : List Func → List Expr
  | [] => []
  | func :: rest => func.parts ++ Func.partsList rest

/-- The expressions in a block. -/
def Block.parts : Block → List Expr
  | ⟨statements, _⟩ => Stmt.partsList statements

/-- The expressions in a statement. -/
def Stmt.parts : Stmt → List Expr
  | ⟨_, _, _, form⟩ => form.parts

/-- The expressions in statements. -/
def Stmt.partsList : List Stmt → List Expr
  | [] => []
  | s :: rest => s.parts ++ Stmt.partsList rest

/-- The expressions in a statement that may be absent. -/
def Stmt.partsOption : Option Stmt → List Expr
  | none => []
  | some s => s.parts

/-- The expressions in the parts of a statement. -/
def StmtForm.parts : StmtForm → List Expr
  | .assign lhs rhs _ => Expr.partsList lhs ++ Expr.partsList rhs
  | .struct ⟨_, _, methods, _⟩ => Func.partsList methods
  | .typeAlias _ => []
  | .var vars => vars.parts
  | .pass => []
  | .cond branches => Branch.partsList branches
  | .loop ⟨header, condition, step, body⟩ =>
    VarForm.partsOption header ++ Expr.partsOption condition ++ Stmt.partsOption step ++ body.parts
  | .expr e => e.parts
  | .jump _ => []
  | .ret values => Expr.partsList values

/-- The expressions in a form of variables. -/
def VarForm.parts : VarForm → List Expr
  | ⟨vars, _⟩ => VarDecl.partsList vars

/-- The expressions in a form of variables that may be absent. -/
def VarForm.partsOption : Option VarForm → List Expr
  | none => []
  | some vars => vars.parts

/-- The expressions in the initial values of variables. -/
def VarDecl.partsList : List VarDecl → List Expr
  | [] => []
  | ⟨_, _, _, value, _⟩ :: rest => Expr.partsOption value ++ VarDecl.partsList rest

/-- The expressions in the branches of a conditional. -/
def Branch.partsList : List Branch → List Expr
  | [] => []
  | ⟨header, condition, body⟩ :: rest =>
    VarForm.partsOption header ++ Expr.partsOption condition ++ body.parts ++
      Branch.partsList rest

end

end Parts

/-! ## The walk enters the parts -/

section Walk

variable {table : SymbolTable} {x : Expr}

mutual

theorem Expr.enter_mem_walk : ∀ {e : Expr}, x ∈ e.parts table → .enterExpr x ∈ e.walk
  | ⟨position, form, type⟩, member => by
    rw [Expr.parts] at member
    rw [Expr.walk]
    rcases List.mem_cons.mp member with rfl | member
    · simp
    · simp [ExprForm.enter_mem_walk member]

theorem ExprForm.enter_mem_walk {position : Position} : ∀ {form : ExprForm},
    x ∈ form.parts table → .enterExpr x ∈ form.walk position
  | .literal _, member => by simp [ExprForm.parts] at member
  | .blank, member => by simp [ExprForm.parts] at member
  | .compound spec _ elements, member => by
    rw [ExprForm.parts] at member
    rw [ExprForm.walk]
    exact List.mem_append_right _ (Element.enter_mem_walkList member)
  | .binary _ left right, member => by
    rw [ExprForm.parts, List.mem_append] at member
    rw [ExprForm.walk, List.mem_append]
    exact member.imp Expr.enter_mem_walk Expr.enter_mem_walk
  | .unary _ operand, member => Expr.enter_mem_walk member
  | .index left index, member => by
    rw [ExprForm.parts, List.mem_append] at member
    rw [ExprForm.walk, List.mem_append]
    exact member.imp Expr.enter_mem_walk Expr.enter_mem_walk
  | .selector left _, member => Expr.enter_mem_walk member
  | .call callee args, member => by
    rw [ExprForm.parts, List.mem_append] at member
    rw [ExprForm.walk, List.mem_append]
    refine member.imp (fun member => ?_) Expr.enter_mem_walkList
    split at member
    · cases member
    · exact Expr.enter_mem_walk member
  | .func func, member => Func.enter_mem_walk member
  | .ident _, member => by simp [ExprForm.parts] at member
  | .type _, member => by simp [ExprForm.parts] at member

theorem Expr.enter_mem_walkList : ∀ {es : List Expr}, x ∈ Expr.partsList table es →
    .enterExpr x ∈ Expr.walkList es
  | [], member => by simp [Expr.partsList] at member
  | e :: rest, member => by
    rw [Expr.partsList, List.mem_append] at member
    rw [Expr.walkList, List.mem_append]
    exact member.imp Expr.enter_mem_walk Expr.enter_mem_walkList

theorem Expr.enter_mem_walkOption : ∀ {e : Option Expr}, x ∈ Expr.partsOption table e →
    .enterExpr x ∈ Expr.walkOption e
  | none, member => by simp [Expr.partsOption] at member
  | some e, member => Expr.enter_mem_walk (e := e) member

theorem Expr.enter_mem_walkKey {valueKeys : Bool} : ∀ {key : Option Expr},
    x ∈ Expr.partsKey table valueKeys key → .enterExpr x ∈ Expr.walkKey valueKeys key
  | none, member => by simp [Expr.partsKey] at member
  | some key, member => by
    rw [Expr.partsKey] at member
    rw [Expr.walkKey]
    split at member
    case isTrue visited =>
      rw [if_pos visited]
      exact Expr.enter_mem_walk member
    case isFalse => cases member

theorem Element.enter_mem_walkList {valueKeys : Bool} : ∀ {elements : List Element},
    x ∈ Element.partsList table valueKeys elements →
      .enterExpr x ∈ Element.walkList valueKeys elements
  | [], member => by simp [Element.partsList] at member
  | ⟨key, value⟩ :: rest, member => by
    rw [Element.partsList, List.mem_append, List.mem_append] at member
    rw [Element.walkList, List.mem_append, List.mem_append]
    exact member.imp (.imp Expr.enter_mem_walkKey Expr.enter_mem_walk) Element.enter_mem_walkList

theorem Func.enter_mem_walk : ∀ {func : Func}, x ∈ func.parts table → .enterExpr x ∈ func.walk
  | ⟨_, receiver, params, results, ⟨statements, _⟩⟩, member => by
    rw [Func.parts, Block.parts] at member
    simp [Func.walk, Stmt.enter_mem_walkList member]

theorem Func.enter_mem_walkList : ∀ {funcs : List Func}, x ∈ Func.partsList table funcs →
    .enterExpr x ∈ Func.walkList funcs
  | [], member => by simp [Func.partsList] at member
  | func :: rest, member => by
    rw [Func.partsList, List.mem_append] at member
    rw [Func.walkList, List.mem_append]
    exact member.imp Func.enter_mem_walk Func.enter_mem_walkList

theorem Block.enter_mem_walk : ∀ {block : Block}, x ∈ block.parts table →
    .enterExpr x ∈ block.walk
  | ⟨statements, _⟩, member => by
    rw [Block.parts] at member
    simp [Block.walk, Stmt.enter_mem_walkList member]

theorem Stmt.enter_mem_walk : ∀ {s : Stmt}, x ∈ s.parts table → .enterExpr x ∈ s.walk
  | ⟨_, _, _, form⟩, member => by
    rw [Stmt.parts] at member
    simp [Stmt.walk, StmtForm.enter_mem_walk member]

theorem Stmt.enter_mem_walkList : ∀ {statements : List Stmt},
    x ∈ Stmt.partsList table statements → .enterExpr x ∈ Stmt.walkList statements
  | [], member => by simp [Stmt.partsList] at member
  | s :: rest, member => by
    rw [Stmt.partsList, List.mem_append] at member
    rw [Stmt.walkList, List.mem_append]
    exact member.imp Stmt.enter_mem_walk Stmt.enter_mem_walkList

theorem Stmt.enter_mem_walkOption : ∀ {s : Option Stmt}, x ∈ Stmt.partsOption table s →
    .enterExpr x ∈ Stmt.walkOption s
  | none, member => by simp [Stmt.partsOption] at member
  | some s, member => Stmt.enter_mem_walk (s := s) member

theorem StmtForm.enter_mem_walk : ∀ {form : StmtForm}, x ∈ form.parts table →
    .enterExpr x ∈ form.walk
  | .assign lhs rhs _, member => by
    rw [StmtForm.parts, List.mem_append] at member
    rw [StmtForm.walk, List.mem_append]
    exact member.symm.imp Expr.enter_mem_walkList Expr.enter_mem_walkList
  | .struct ⟨_, _, methods, _⟩, member => by
    rw [StmtForm.parts] at member
    simp [StmtForm.walk, Func.enter_mem_walkList member]
  | .typeAlias _, member => by simp [StmtForm.parts] at member
  | .var vars, member => VarForm.enter_mem_walk member
  | .pass, member => by simp [StmtForm.parts] at member
  | .cond branches, member => Branch.enter_mem_walkList member
  | .loop ⟨header, condition, step, body⟩, member => by
    simp only [StmtForm.parts, List.mem_append] at member
    simp only [StmtForm.walk, List.cons_append, List.mem_cons, List.mem_append]
    refine Or.inr (Or.inl (member.imp (.imp (.imp ?_ ?_) ?_) ?_))
    · exact VarForm.enter_mem_walkOption
    · exact Expr.enter_mem_walkOption
    · exact Stmt.enter_mem_walkOption
    · exact Block.enter_mem_walk
  | .expr e, member => Expr.enter_mem_walk (e := e) member
  | .jump _, member => by simp [StmtForm.parts] at member
  | .ret values, member => by
    rw [StmtForm.parts] at member
    rw [StmtForm.walk]
    exact Expr.enter_mem_walkList member

theorem VarForm.enter_mem_walk : ∀ {vars : VarForm}, x ∈ vars.parts table →
    .enterExpr x ∈ vars.walk
  | ⟨vars, isFunc⟩, member => by
    rw [VarForm.parts] at member
    cases isFunc with
    | true => exact List.mem_append_right _ (VarDecl.enter_mem_walkList member)
    | false => exact List.mem_append_left _ (VarDecl.enter_mem_walkList member)

theorem VarForm.enter_mem_walkOption : ∀ {vars : Option VarForm},
    x ∈ VarForm.partsOption table vars → .enterExpr x ∈ VarForm.walkOption vars
  | none, member => by simp [VarForm.partsOption] at member
  | some vars, member => by
    rw [VarForm.partsOption] at member
    rw [VarForm.walkOption]
    exact VarForm.enter_mem_walk member

theorem VarDecl.enter_mem_walkList : ∀ {vars : List VarDecl},
    x ∈ VarDecl.partsList table vars → .enterExpr x ∈ VarDecl.walkList vars
  | [], member => by simp [VarDecl.partsList] at member
  | ⟨_, _, spec, value, _⟩ :: rest, member => by
    rw [VarDecl.partsList, List.mem_append] at member
    rw [VarDecl.walkList, List.mem_append, List.mem_append]
    exact member.imp (fun member => Or.inr (Expr.enter_mem_walkOption member))
      VarDecl.enter_mem_walkList

theorem Branch.enter_mem_walkList : ∀ {branches : List Branch},
    x ∈ Branch.partsList table branches → .enterExpr x ∈ Branch.walkList branches
  | [], member => by simp [Branch.partsList] at member
  | ⟨header, condition, body⟩ :: rest, member => by
    simp only [Branch.partsList, List.mem_append] at member
    simp only [Branch.walkList, List.cons_append, List.mem_cons, List.mem_append]
    refine Or.inr (member.imp (.imp (.imp ?_ ?_) ?_) fun member => Or.inr ?_)
    · exact VarForm.enter_mem_walkOption
    · exact Expr.enter_mem_walkOption
    · exact Block.enter_mem_walk
    · exact Branch.enter_mem_walkList member

end

end Walk

/-! ## Parts of parts -/

section Closed

variable {table : SymbolTable}

/-- Whether expressions come with the expressions in them. -/
def Expr.Closed (table : SymbolTable) (es : List Expr) : Prop :=
  ∀ e ∈ es, ∀ x ∈ e.parts table, x ∈ es

namespace Expr.Closed

theorem nil : Closed table [] :=
  nofun

theorem append {es es' : List Expr} (first : Closed table es) (second : Closed table es') :
    Closed table (es ++ es') := by
  intro e member x inside
  rcases List.mem_append.mp member with member | member
  · exact List.mem_append_left _ (first e member x inside)
  · exact List.mem_append_right _ (second e member x inside)

end Expr.Closed

mutual

theorem Expr.parts_closed : ∀ e : Expr, Expr.Closed table (e.parts table)
  | ⟨position, form, type⟩ => by
    intro e member x inside
    rcases List.mem_cons.mp member with rfl | member
    · exact inside
    · exact List.mem_cons_of_mem _ (ExprForm.parts_closed form e member x inside)

theorem ExprForm.parts_closed : ∀ form : ExprForm, Expr.Closed table (form.parts table)
  | .literal _ => .nil
  | .blank => .nil
  | .compound _ _ elements => Element.partsList_closed _ elements
  | .binary _ left right => left.parts_closed.append right.parts_closed
  | .unary _ operand => operand.parts_closed
  | .index left index => left.parts_closed.append index.parts_closed
  | .selector left _ => left.parts_closed
  | .call callee args => by
    rw [ExprForm.parts]
    refine .append ?_ (Expr.partsList_closed args)
    split
    · exact .nil
    · exact callee.parts_closed
  | .func func => func.parts_closed
  | .ident _ => .nil
  | .type _ => .nil

theorem Expr.partsList_closed : ∀ es : List Expr, Expr.Closed table (Expr.partsList table es)
  | [] => .nil
  | e :: rest => e.parts_closed.append (Expr.partsList_closed rest)

theorem Expr.partsOption_closed : ∀ e : Option Expr, Expr.Closed table (Expr.partsOption table e)
  | none => .nil
  | some e => e.parts_closed

theorem Expr.partsKey_closed (valueKeys : Bool) : ∀ key : Option Expr,
    Expr.Closed table (Expr.partsKey table valueKeys key)
  | none => .nil
  | some key => by
    rw [Expr.partsKey]
    split
    · exact key.parts_closed
    · exact .nil

theorem Element.partsList_closed (valueKeys : Bool) : ∀ elements : List Element,
    Expr.Closed table (Element.partsList table valueKeys elements)
  | [] => .nil
  | ⟨key, value⟩ :: rest =>
    ((Expr.partsKey_closed valueKeys key).append value.parts_closed).append
      (Element.partsList_closed valueKeys rest)

theorem Func.parts_closed : ∀ func : Func, Expr.Closed table (func.parts table)
  | ⟨_, _, _, _, body⟩ => body.parts_closed

theorem Func.partsList_closed : ∀ funcs : List Func,
    Expr.Closed table (Func.partsList table funcs)
  | [] => .nil
  | func :: rest => func.parts_closed.append (Func.partsList_closed rest)

theorem Block.parts_closed : ∀ block : Block, Expr.Closed table (block.parts table)
  | ⟨statements, _⟩ => Stmt.partsList_closed statements

theorem Stmt.parts_closed : ∀ s : Stmt, Expr.Closed table (s.parts table)
  | ⟨_, _, _, form⟩ => form.parts_closed

theorem Stmt.partsList_closed : ∀ statements : List Stmt,
    Expr.Closed table (Stmt.partsList table statements)
  | [] => .nil
  | s :: rest => s.parts_closed.append (Stmt.partsList_closed rest)

theorem Stmt.partsOption_closed : ∀ s : Option Stmt, Expr.Closed table (Stmt.partsOption table s)
  | none => .nil
  | some s => s.parts_closed

theorem StmtForm.parts_closed : ∀ form : StmtForm, Expr.Closed table (form.parts table)
  | .assign lhs rhs _ => (Expr.partsList_closed lhs).append (Expr.partsList_closed rhs)
  | .struct ⟨_, _, methods, _⟩ => Func.partsList_closed methods
  | .typeAlias _ => .nil
  | .var vars => vars.parts_closed
  | .pass => .nil
  | .cond branches => Branch.partsList_closed branches
  | .loop ⟨header, condition, step, body⟩ =>
    (((VarForm.partsOption_closed header).append (Expr.partsOption_closed condition)).append
      (Stmt.partsOption_closed step)).append body.parts_closed
  | .expr e => e.parts_closed
  | .jump _ => .nil
  | .ret values => Expr.partsList_closed values

theorem VarForm.parts_closed : ∀ vars : VarForm, Expr.Closed table (vars.parts table)
  | ⟨vars, _⟩ => VarDecl.partsList_closed vars

theorem VarForm.partsOption_closed : ∀ vars : Option VarForm,
    Expr.Closed table (VarForm.partsOption table vars)
  | none => .nil
  | some vars => vars.parts_closed

theorem VarDecl.partsList_closed : ∀ vars : List VarDecl,
    Expr.Closed table (VarDecl.partsList table vars)
  | [] => .nil
  | ⟨_, _, _, value, _⟩ :: rest =>
    (Expr.partsOption_closed value).append (VarDecl.partsList_closed rest)

theorem Branch.partsList_closed : ∀ branches : List Branch,
    Expr.Closed table (Branch.partsList table branches)
  | [] => .nil
  | ⟨header, condition, body⟩ :: rest =>
    (((VarForm.partsOption_closed header).append (Expr.partsOption_closed condition)).append
      body.parts_closed).append (Branch.partsList_closed rest)

end

/-- The expressions in the form of an expression of a tree are in the tree. -/
theorem Expr.mem_of_mem_form_parts {s : Stmt} {e x : Expr} (member : e ∈ s.parts table)
    (inside : x ∈ e.form.parts table) : x ∈ s.parts table := by
  obtain ⟨position, form, type⟩ := e
  exact s.parts_closed _ member x (List.mem_cons_of_mem _ inside)

end Closed

end PackageCheck
