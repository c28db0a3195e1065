import PackageCheck.Proofs.Dependency.Scoping

/-! # Collected names are free names

A collector reads the walk of a statement and keeps the names declared in the open scopes on a
stack. What it collects are the free names: those that the recursion on the tree finds, each with
the position of its first free use. -/

namespace PackageCheck.Dependency

open Collector

variable {own : List String} {n : String}

/-- Whether a collector does not take the use of a name for a free one. -/
def hides (own : List String) (n : String) (scopes : List (List String)) : Bool :=
  n ∈ own || scopes.any (n ∈ ·)

theorem hides_append (added inner : List String) (outer : List (List String)) :
    hides own n ((added ++ inner) :: outer) =
      (decide (n ∈ added) || hides own n (inner :: outer)) := by
  simp only [hides, List.any_cons, List.mem_append, Bool.decide_or]
  rw [Bool.or_assoc, Bool.or_left_comm]

/-- Whether a collector that reads a walk takes it for a piece that does the given things with a
    name. The scopes that were open stay so, and the innermost one gets the declared names. -/
def Collects (own : List String) (n : String) (walk : List Event) (mention : Mention) : Prop :=
  mention.typeUses = [] ∧ ∀ inner outer free, ∃ added free',
    walk.foldl (step own) ⟨inner :: outer, free⟩ = ⟨(added ++ inner) :: outer, free'⟩ ∧
      (n ∈ added ↔ mention.declares = true) ∧ free'.find? n =
        (free.find? n).or (if hides own n (inner :: outer) then none else mention.uses.head?)

namespace Collects

variable {walk walk' : List Event} {mention mention' : Mention}

theorem empty : Collects own n [] {} := by
  refine ⟨rfl, fun inner outer free => ⟨[], free, rfl, by simp, ?_⟩⟩
  split <;> simp

theorem append (first : Collects own n walk mention) (second : Collects own n walk' mention') :
    Collects own n (walk ++ walk') (mention ++ mention') := by
  obtain ⟨typed, first⟩ := first
  obtain ⟨typed', second⟩ := second
  refine ⟨by simp [typed, typed'], fun inner outer free => ?_⟩
  obtain ⟨added, free₁, read, declared, found⟩ := first inner outer free
  obtain ⟨added', free₂, read', declared', found'⟩ := second (added ++ inner) outer free₁
  refine ⟨added' ++ added, free₂, ?_, ?_, ?_⟩
  · rw [List.foldl_append, read, read', List.append_assoc]
  · simp [declared, declared', or_comm]
  · have same : decide (n ∈ added) = mention.declares := by
      rw [Bool.eq_iff_iff]
      simpa using declared
    rw [found', found, hides_append, same, Option.or_assoc, Mention.uses_append]
    congr 1
    cases mention.declares <;> cases hides own n (inner :: outer) <;> simp

theorem enclosed (inside : Collects own n walk mention) :
    Collects own n (.openScope :: walk ++ [.closeScope]) mention.enclosed := by
  obtain ⟨typed, inside⟩ := inside
  refine ⟨typed, fun inner outer free => ?_⟩
  obtain ⟨added, free', read, -, found⟩ := inside [] (inner :: outer) free
  refine ⟨[], free', ?_, by simp, ?_⟩
  · simp only [List.cons_append, List.foldl_cons, List.foldl_append, List.foldl_nil]
    change step own (walk.foldl (step own) ⟨[] :: inner :: outer, free⟩) .closeScope = _
    rw [read]
    rfl
  · simpa [hides] using found

/-- The names that stand behind each other in one scope. -/
theorem declares (names : List String) : Collects own n (names.map .declare) (.ofNames n names) := by
  refine ⟨rfl, fun inner outer free => ⟨names.reverse, free, ?_, by simp [Mention.ofNames], ?_⟩⟩
  · induction names generalizing inner with
    | nil => rfl
    | cons name rest ih => simpa [step] using ih (name :: inner)
  · split <;> simp [Mention.ofNames]

theorem declaresType (name : String) : Collects own n [.declare name] (.ofTypeName n name) := by
  refine ⟨rfl, fun inner outer free => ⟨[name], free, rfl, ?_, ?_⟩⟩
  · simp [Mention.ofTypeName, eq_comm]
  · split <;> simp [Mention.ofTypeName]

theorem use (name : String) (position : Position) {event : Event}
    (used : ∀ collector, step own collector event = collector.use own name position) :
    Collects own n [event] (.ofUse n name position) := by
  refine ⟨by simp, fun inner outer free => ?_⟩
  rw [List.foldl_cons, used, List.foldl_nil, Collector.use]
  by_cases same : name = n
  · subst same
    by_cases hidden : hides own name (inner :: outer) = true
    · rw [if_pos]
      · exact ⟨[], free, rfl, by simp, by simp [hidden]⟩
      · simp only [hides, Bool.or_eq_true, decide_eq_true_eq] at hidden
        exact hidden.imp id Or.inl
    · cases found : free.find? name with
      | some first =>
        rw [if_pos (Or.inr (Or.inr (by simp [NameMap.contains, found])))]
        exact ⟨[], free, rfl, by simp, by simp [found]⟩
      | none =>
        rw [if_neg]
        · exact ⟨[], _, rfl, by simp, by simp [hidden, Mention.ofUse]⟩
        · simp only [hides, Bool.or_eq_true, decide_eq_true_eq, not_or] at hidden
          simp only [NameMap.contains, found, not_or]
          exact ⟨hidden.1, hidden.2, by simp⟩
  · have other : ∀ free', (if hides own n (inner :: outer) then none
        else (Mention.ofUse n name position).uses.head?) = none ∧
          (free.insert name free').find? n = free.find? n := fun free' =>
      ⟨by simp [Mention.ofUse, same], NameMap.find?_insert_of_ne _ _ (Ne.symm same)⟩
    split
    · exact ⟨[], free, rfl, by simp, by rw [(other position).1, Option.or_none]⟩
    · exact ⟨[], _, rfl, by simp, by rw [(other position).1, (other position).2, Option.or_none]⟩

/-- What a collector passes over does nothing. -/
theorem cons {event : Event} (passed : ∀ collector, step own collector event = collector)
    (rest : Collects own n walk mention) : Collects own n (event :: walk) mention := by
  refine ⟨rest.1, fun inner outer free => ?_⟩
  rw [List.foldl_cons, passed]
  exact rest.2 inner outer free

theorem leave {event : Event} (passed : ∀ collector, step own collector event = collector)
    (front : Collects own n walk mention) : Collects own n (walk ++ [event]) mention := by
  have last : Collects own n [event] {} := cons passed .empty
  simpa using front.append last

end Collects

/-! ## Trees -/

mutual

theorem collects_spec : ∀ spec : TypeSpec, Collects own n spec.walk (spec.mention .collector n)
  | .named name position => .use name position fun _ => rfl
  | .array _ of => collects_spec of
  | .slice of => collects_spec of
  | .map key value => (collects_spec key).append (collects_spec value)
  | .pointer pointee => collects_spec pointee
  | .tuple members => collects_specs members
  | .func args results => (collects_specs args).append (collects_specs results)
  | .blank => .empty

theorem collects_specs : ∀ specs : List TypeSpec,
    Collects own n (TypeSpec.walkList specs) (TypeSpec.mentionList .collector n specs)
  | [] => .empty
  | spec :: rest => (collects_spec spec).append (collects_specs rest)

end

theorem collects_specOption : ∀ spec : Option TypeSpec,
    Collects own n (TypeSpec.walkOption spec) (TypeSpec.mentionOption .collector n spec)
  | none => .empty
  | some spec => collects_spec spec

/-- Specifications that are read one after the other. -/
theorem collects_flatMap (specs : List TypeSpec) :
    Collects own n (specs.flatMap TypeSpec.walk) (TypeSpec.mentionList .collector n specs) := by
  induction specs with
  | nil => exact .empty
  | cons spec rest ih => exact (collects_spec spec).append ih

theorem collects_signature (receiver : Option Param) (params results : List Param) :
    Collects own n (Func.walkSignature receiver params results)
      (Param.mentionTypes .collector n (receiver.toList ++ params ++ results)) := by
  have specs : Collects own n _ _ :=
    collects_flatMap ((receiver.toList ++ params ++ results).map (·.spec))
  rwa [List.flatMap_map] at specs

mutual

theorem collects_expr : ∀ e : Expr, Collects own n e.walk (e.mention .collector n)
  | ⟨position, form, type⟩ => by
    rw [Expr.walk, Expr.mention]
    exact ((collects_form position form).leave fun _ => rfl).cons fun _ => rfl

theorem collects_form (position : Position) : ∀ form : ExprForm,
    Collects own n (form.walk position) (form.mention .collector n position)
  | .literal _ => .empty
  | .blank => .empty
  | .compound spec shape elements => by
    rw [ExprForm.walk, ExprForm.mention, Reading.bareKeys, Bool.or_false]
    exact (collects_specOption spec).append (collects_elements _ elements)
  | .binary op left right => (collects_expr left).append (collects_expr right)
  | .unary op operand => collects_expr operand
  | .index left index => (collects_expr left).append (collects_expr index)
  | .selector left field => collects_expr left
  | .call callee args => (collects_expr callee).append (collects_exprs args)
  | .func func => collects_func func
  | .ident ident => .use ident.name position fun _ => rfl
  | .type spec => collects_spec spec

theorem collects_exprs : ∀ es : List Expr,
    Collects own n (Expr.walkList es) (Expr.mentionList .collector n es)
  | [] => .empty
  | e :: rest => (collects_expr e).append (collects_exprs rest)

theorem collects_exprOption : ∀ e : Option Expr,
    Collects own n (Expr.walkOption e) (Expr.mentionOption .collector n e)
  | none => .empty
  | some e => collects_expr e

theorem collects_key (valueKeys : Bool) : ∀ key : Option Expr,
    Collects own n (Expr.walkKey valueKeys key) (Expr.mentionKey .collector n valueKeys key)
  | none => .empty
  | some key => by
    rw [Expr.walkKey, Expr.mentionKey]
    split
    · exact collects_expr key
    · exact .empty

theorem collects_elements (valueKeys : Bool) : ∀ elements : List Element,
    Collects own n (Element.walkList valueKeys elements)
      (Element.mentionList .collector n valueKeys elements)
  | [] => .empty
  | ⟨key, value⟩ :: rest => by
    rw [Element.walkList, Element.mentionList]
    exact ((collects_key valueKeys key).append (collects_expr value)).append
      (collects_elements valueKeys rest)

theorem collects_func : ∀ func : Func, Collects own n func.walk (func.mention .collector n)
  | ⟨name, receiver, params, results, ⟨statements, labels⟩⟩ => by
    rw [Func.walk, Func.mention]
    have names : Collects own n _ _ :=
      .declares ((receiver.toList ++ params ++ results).filterMap (·.name))
    have body := (names.append (collects_stmts statements)).enclosed
    simpa [Func.declareParams, Param.mentionNames] using
      (collects_signature receiver params results).append body

theorem collects_funcs : ∀ funcs : List Func,
    Collects own n (Func.walkList funcs) (Func.mentionList .collector n funcs)
  | [] => .empty
  | func :: rest => (collects_func func).append (collects_funcs rest)

theorem collects_block : ∀ block : Block, Collects own n block.walk (block.mention .collector n)
  | ⟨statements, _⟩ => (collects_stmts statements).enclosed

theorem collects_stmt : ∀ s : Stmt, Collects own n s.walk (s.mention .collector n)
  | ⟨id, position, label, form⟩ => by
    rw [Stmt.walk, Stmt.mention]
    exact ((collects_stmtForm form).leave fun _ => rfl).cons fun _ => rfl

theorem collects_stmts : ∀ statements : List Stmt,
    Collects own n (Stmt.walkList statements) (Stmt.mentionList .collector n statements)
  | [] => .empty
  | s :: rest => (collects_stmt s).append (collects_stmts rest)

theorem collects_stmtOption : ∀ s : Option Stmt,
    Collects own n (Stmt.walkOption s) (Stmt.mentionOption .collector n s)
  | none => .empty
  | some s => collects_stmt s

theorem collects_stmtForm : ∀ form : StmtForm,
    Collects own n form.walk (form.mention .collector n)
  | .assign lhs rhs op => (collects_exprs rhs).append (collects_exprs lhs)
  | .struct ⟨name, fields, methods, symbol⟩ => by
    rw [StmtForm.walk, StmtForm.mention]
    have members : Collects own n _ _ :=
      (collects_flatMap (fields.map (·.spec))).append (collects_funcs methods)
    rw [List.flatMap_map] at members
    rw [Mention.append_assoc]
    exact (Collects.declaresType name).append members
  | .typeAlias decl => by
    rw [StmtForm.walk, StmtForm.mention]
    exact (Collects.declaresType decl.name).append (collects_spec decl.target)
  | .var vars => collects_varForm vars
  | .pass => .empty
  | .cond branches => collects_branches branches
  | .loop ⟨header, condition, step, body⟩ => by
    rw [StmtForm.walk, StmtForm.mention]
    exact ((((collects_header header).append (collects_exprOption condition)).append
      (collects_stmtOption step)).append (collects_block body)).enclosed
  | .expr e => collects_expr e
  | .jump jump => .empty
  | .ret values => collects_exprs values

theorem collects_varForm : ∀ vars : VarForm, Collects own n vars.walk (vars.mention .collector n)
  | ⟨vars, true⟩ => by
    have names : Collects own n _ _ := .declares (vars.map (·.name))
    rw [List.map_map] at names
    rw [VarForm.walk, VarForm.mention]
    exact names.append (collects_values vars)
  | ⟨vars, false⟩ => by
    have names : Collects own n _ _ := .declares (vars.map (·.name))
    rw [List.map_map] at names
    rw [VarForm.walk, VarForm.mention]
    exact (collects_values vars).append names

theorem collects_header : ∀ header : Option VarForm,
    Collects own n (VarForm.walkOption header) (VarForm.mentionOption .collector n header)
  | none => .empty
  | some vars => collects_varForm vars

theorem collects_values : ∀ vars : List VarDecl,
    Collects own n (VarDecl.walkList vars) (VarDecl.mentionValues .collector n vars)
  | [] => .empty
  | ⟨name, position, spec, value, symbol⟩ :: rest => by
    rw [VarDecl.walkList, VarDecl.mentionValues]
    exact ((collects_specOption spec).append (collects_exprOption value)).append
      (collects_values rest)

theorem collects_branches : ∀ branches : List Branch,
    Collects own n (Branch.walkList branches) (Branch.mentionList .collector n branches)
  | [] => .empty
  | ⟨header, condition, body⟩ :: rest => by
    rw [Branch.walkList, Branch.mentionList]
    have inside := ((collects_header header).append (collects_exprOption condition)).append
      (collects_block body)
    simpa using inside.enclosed.append (collects_branches rest)

end

/-- A name is collected if it is free and not declared around the statement, with the position of
    its first free use. -/
theorem find?_freeNames (s : Stmt) (n : String) : (freeNames s).find? n =
    if n ∈ s.declaredNames then none else (s.mention .collector n).uses.head? := by
  have walk : Collects s.declaredNames n _ _ := collects_stmt s
  obtain ⟨-, collects⟩ := walk
  obtain ⟨added, free, read, -, found⟩ := collects [] [] .empty
  rw [freeNames, show ({} : Collector) = ⟨[[]], .empty⟩ from rfl, read, found]
  simp [hides]

theorem contains_freeNames {s : Stmt} : (freeNames s).contains n = true ↔
    n ∉ s.declaredNames ∧ (s.mention .collector n).isFree = true := by
  have walk : Collects s.declaredNames n _ _ := collects_stmt s
  rw [NameMap.contains, find?_freeNames, Mention.isFree, walk.1]
  split
  case isTrue own => simp [own]
  case isFalse foreign => simp [foreign]

end PackageCheck.Dependency
