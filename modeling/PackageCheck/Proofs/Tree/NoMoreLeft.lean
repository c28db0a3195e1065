import PackageCheck.Proofs.Tree.LeftOver

/-! # Nothing more left over

A tree that two runs have annotated may differ in the handles in its types. What counts for validation
is that nothing is left over on one side if nothing is on the other one. -/

namespace PackageCheck

/-! ## Visits -/

theorem visits_append (walk rest : List Event) : visits (walk ++ rest) = visits walk ++ visits rest :=
  List.filterMap_append

/-- An event that validation passes over. -/
theorem visits_cons_of_unread {event : Event} (unread : event.visit? = none) (rest : List Event) :
    visits (event :: rest) = visits rest :=
  List.filterMap_cons_none unread

/-- Around some events there may be two that validation passes over. -/
theorem visits_between {entered left : Event} (unread : entered.visit? = none)
    (unread' : left.visit? = none) (inside : List Event) :
    visits (entered :: inside ++ [left]) = visits inside := by
  rw [List.cons_append, visits_cons_of_unread unread, visits_append, visits_cons_of_unread unread']
  exact List.append_nil _

/-! ## Walks -/

/-- Whether validation finds nothing left over on a walk. -/
def LeavesNothing (walk : List Event) : Prop :=
  ∀ visit ∈ visits walk, visit.leftOver? "" = none

/-- Whether nothing is left over on a walk if nothing is on another one. -/
def LeavesNoMore (walk walk' : List Event) : Prop :=
  LeavesNothing walk → LeavesNothing walk'

/-- The file is told in what is left over, and decides nothing. -/
theorem Visit.leftOver?_eq_none_iff {visit : Visit} {file : String} :
    visit.leftOver? file = none ↔ visit.leftOver? "" = none := by
  cases visit with
  | expr position blank type =>
    simp only [Visit.leftOver?]
    split <;> simp
  | name ident position =>
    simp only [Visit.leftOver?]
    split <;> simp

theorem Stmt.leftOver_eq_nil_iff {s : Stmt} {file : String} :
    s.leftOver file = [] ↔ LeavesNothing s.walk := by
  rw [Stmt.leftOver, filterMap_leftOver?, List.filterMap_eq_nil_iff]
  exact forall₂_congr fun _ _ => Visit.leftOver?_eq_none_iff

theorem leavesNothing_append {walk rest : List Event} :
    LeavesNothing (walk ++ rest) ↔ LeavesNothing walk ∧ LeavesNothing rest := by
  simp only [LeavesNothing, visits, List.filterMap_append, List.forall_mem_append]

namespace LeavesNoMore

variable {walk walk' rest rest' : List Event}

theorem refl (walk : List Event) : LeavesNoMore walk walk :=
  id

theorem append (first : LeavesNoMore walk walk') (second : LeavesNoMore rest rest') :
    LeavesNoMore (walk ++ rest) (walk' ++ rest') := by
  intro nothing
  obtain ⟨here, behind⟩ := leavesNothing_append.mp nothing
  exact leavesNothing_append.mpr ⟨first here, second behind⟩

theorem congr (inside : LeavesNoMore rest rest') (visited : visits walk = visits rest)
    (visited' : visits walk' = visits rest') : LeavesNoMore walk walk' := by
  unfold LeavesNoMore LeavesNothing at inside ⊢
  rwa [visited, visited']

theorem of_unread (unread : Unread walk) (unread' : Unread walk') : LeavesNoMore walk walk' :=
  (refl []).congr unread.visits unread'.visits

/-- An event that validation passes over. -/
theorem pass {event event' : Event} (unread : event.visit? = none) (unread' : event'.visit? = none)
    (others : LeavesNoMore rest rest') : LeavesNoMore (event :: rest) (event' :: rest') :=
  others.congr (visits_cons_of_unread unread rest) (visits_cons_of_unread unread' rest')

end LeavesNoMore

/-- Whether nothing more is left over of a node with a walk. -/
def NoMoreLeft (walk : ν → List Event) (node node' : ν) : Prop :=
  LeavesNoMore (walk node) (walk node')

/-! ## Nodes -/

/-- Whether an expression is the same as another one as far as a rule looks at it, and no more is left
    over of it. -/
structure Expr.NoWorse (e e' : Expr) : Prop where
  alike : Expr.Alike false e e'
  known : e.type.known = true → e'.type.known = true
  inside : LeavesNoMore (e.form.walk e.position) (e'.form.walk e'.position)

/-- Whether a form of expression at a position is the same as another one in this way. -/
structure ExprForm.NoWorse (position : Position) (form form' : ExprForm) : Prop where
  outline : form'.outline = form.outline
  inside : LeavesNoMore (form.walk position) (form'.walk position)

/-- A name that is bound. -/
theorem ExprForm.NoWorse.ident {position : Position} {ident ident' : Ident}
    (named : ident'.name = ident.name) (bound : ident'.isBound = true) :
    ExprForm.NoWorse position (.ident ident) (.ident ident') where
  outline := by simp only [ExprForm.outline, named]
  inside _ visit member := by
    obtain rfl : visit = .name ident' position := by
      simpa [ExprForm.walk, visits, Event.visit?] using member
    simp [Visit.leftOver?, bound]

namespace Expr.NoWorse

variable {e e' : Expr}

theorem refl (e : Expr) : Expr.NoWorse e e :=
  ⟨⟨rfl, rfl, fun _ => rfl, fun well => absurd well Bool.false_ne_true⟩, id, .refl _⟩

theorem mk_form {position : Position} {form form' : ExprForm} {type type' : Ty}
    (same : ExprForm.NoWorse position form form') (known : type.known = true → type'.known = true) :
    Expr.NoWorse ⟨position, form, type⟩ ⟨position, form', type'⟩ where
  alike := ⟨rfl, same.outline, fun well => absurd well Bool.false_ne_true,
    fun well => absurd well Bool.false_ne_true⟩
  known := known
  inside := same.inside

/-- With types of which the second is known if the first one is. -/
theorem withType (same : Expr.NoWorse e e') {type type' : Ty}
    (known : type.known = true → type'.known = true) :
    Expr.NoWorse { e with type := type } { e' with type := type' } where
  alike := ⟨same.alike.position, same.alike.outline, fun well => absurd well Bool.false_ne_true,
    fun well => absurd well Bool.false_ne_true⟩
  known := known
  inside := same.inside

theorem walk (same : Expr.NoWorse e e') : LeavesNoMore e.walk e'.walk := by
  have entered : LeavesNoMore [.enterExpr e] [.enterExpr e'] := by
    intro nothing visit member
    obtain rfl : visit = .expr e'.position e'.isBlank e'.type := by
      simpa [visits, Event.visit?] using member
    have here := nothing (.expr e.position e.isBlank e.type) (by simp [visits, Event.visit?])
    simp only [Visit.leftOver?, same.alike.isBlank] at here ⊢
    generalize e.isBlank = blank at here ⊢
    cases blank with
    | true => rfl
    | false =>
      have known : e.type.known = true := by simpa using here
      simp [same.known known]
  have left : LeavesNoMore [.leaveExpr e] [.leaveExpr e'] := .pass rfl rfl (.refl [])
  have inside := same.inside
  obtain ⟨position, form, type⟩ := e
  obtain ⟨position', form', type'⟩ := e'
  exact (entered.append inside).append left

end Expr.NoWorse

/-! ## Statements -/

theorem Stmt.visits_walk (s : Stmt) : visits s.walk = visits s.form.walk := by
  obtain ⟨id, position, label, form⟩ := s
  exact visits_between rfl rfl form.walk

theorem Block.visits_walk (block : Block) :
    visits block.walk = visits (Stmt.walkList block.statements) := by
  obtain ⟨statements, labels⟩ := block
  exact visits_between rfl rfl (Stmt.walkList statements)

theorem Func.visits_walk (func : Func) :
    visits func.walk = visits (Stmt.walkList func.body.statements) := by
  obtain ⟨name, receiver, params, results, statements, labels⟩ := func
  rw [Func.walk, List.append_assoc, List.append_assoc, visits_append,
    (Func.unread_walkSignature receiver params results).visits, List.nil_append]
  rw [List.cons_append, visits_cons_of_unread rfl, visits_append,
    (Func.unread_declareParams receiver params results).visits, List.nil_append, visits_append]
  exact List.append_nil _

theorem VarForm.visits_walk (vars : VarForm) :
    visits vars.walk = visits (VarDecl.walkList vars.vars) := by
  obtain ⟨vars, isFunc⟩ := vars
  have declared : visits (vars.map (.declare ·.name)) = [] := by
    refine Unread.visits fun event member => ?_
    obtain ⟨decl, -, rfl⟩ := List.mem_map.mp member
    rfl
  cases isFunc with
  | true => rw [VarForm.walk, visits_append, declared, List.nil_append]
  | false => rw [VarForm.walk, visits_append, declared, List.append_nil]

theorem StmtForm.unread_typeAlias (decl : AliasDecl) : Unread (StmtForm.typeAlias decl).walk := by
  intro event member
  rcases List.mem_cons.mp member with rfl | member
  · rfl
  · exact decl.target.unread_walk event member

section Nodes

variable {s s' : Stmt} {block block' : Block} {func func' : Func} {vars vars' : VarForm}

theorem Stmt.noMoreLeft_walk (same : LeavesNoMore s.form.walk s'.form.walk) :
    LeavesNoMore s.walk s'.walk :=
  same.congr s.visits_walk s'.visits_walk

theorem Block.noMoreLeft_walk
    (same : LeavesNoMore (Stmt.walkList block.statements) (Stmt.walkList block'.statements)) :
    LeavesNoMore block.walk block'.walk :=
  same.congr block.visits_walk block'.visits_walk

theorem Func.noMoreLeft_walk
    (same : LeavesNoMore (Stmt.walkList func.body.statements) (Stmt.walkList func'.body.statements)) :
    LeavesNoMore func.walk func'.walk :=
  same.congr func.visits_walk func'.visits_walk

theorem VarForm.noMoreLeft_walk
    (same : LeavesNoMore (VarDecl.walkList vars.vars) (VarDecl.walkList vars'.vars)) :
    LeavesNoMore vars.walk vars'.walk :=
  same.congr vars.visits_walk vars'.visits_walk

end Nodes

end PackageCheck
