import PackageCheck.Proofs.Tree.Erasure
import PackageCheck.Validation

/-! # What validation reads of a tree

Validation reads no more of an expression than its position, its type, and whether it is there at
all, and of a name whether it is bound. So two trees with the same types and bindings are the same
to it, whatever else they hold. -/

namespace PackageCheck

/-! ## Walks -/

/-- A visit of validation to an expression or to a name: what it reads there. -/
inductive Visit where
  | expr (position : Position) (blank : Bool) (type : Ty)
  | name (ident : Ident) (position : Position)

/-- What validation visits at an event. -/
def Event.visit? : Event → Option Visit
  | .enterExpr e => some (.expr e.position e.isBlank e.type)
  | .useValue ident position => some (.name ident position)
  | _ => none

/-- What a visit shows to be left over. -/
def Visit.leftOver? (file : String) : Visit → Option Diagnostic
  | .expr position blank type =>
    if blank || type.known then none
    else some (.unresolvedInference "expression" ⟨file, position⟩)
  | .name ident position =>
    if ident.isBound then none else some (.undefinedSymbol ident.name ⟨file, position⟩)

/-- Validation looks at nothing else. -/
theorem Event.leftOver?_eq (file : String) (event : Event) :
    event.leftOver? file = event.visit?.bind (Visit.leftOver? file) := by
  cases event <;> rfl

/-- All the visits of validation on a walk. -/
def visits (walk : List Event) : List Visit :=
  walk.filterMap Event.visit?

theorem filterMap_leftOver? (file : String) (walk : List Event) :
    walk.filterMap (Event.leftOver? file) = (visits walk).filterMap (Visit.leftOver? file) := by
  rw [visits, List.filterMap_filterMap]
  exact congrArg (List.filterMap · walk) (funext (Event.leftOver?_eq file))

/-- Whether a visit is not one of an unbound name. -/
def Visit.isBound : Visit → Bool
  | .expr _ _ _ => true
  | .name ident _ => ident.isBound

/-- Whether validation reads the same on two walks, and visits no unbound name. -/
structure SameLeft (walk walk' : List Event) : Prop where
  same : visits walk = visits walk'
  bound : ∀ visit ∈ visits walk, visit.isBound

/-- Whether validation passes over all of a walk. -/
def Unread (walk : List Event) : Prop :=
  ∀ event ∈ walk, event.visit? = none

theorem Unread.visits {walk : List Event} (unread : Unread walk) : visits walk = [] :=
  List.filterMap_eq_nil_iff.mpr unread

namespace SameLeft

variable {walk walk' rest rest' : List Event}

/-- Two walks in which nothing is visited are the same to validation. -/
theorem of_unread (unread : Unread walk) (unread' : Unread walk') : SameLeft walk walk' := by
  refine ⟨unread.visits.trans unread'.visits.symm, ?_⟩
  rw [unread.visits]
  exact nofun

theorem nil : SameLeft [] [] :=
  of_unread nofun nofun

theorem append (first : SameLeft walk walk') (second : SameLeft rest rest') :
    SameLeft (walk ++ rest) (walk' ++ rest') := by
  constructor
  · rw [visits, List.filterMap_append, visits, List.filterMap_append]
    exact congrArg₂ (· ++ ·) first.same second.same
  · intro visit member
    rw [visits, List.filterMap_append] at member
    rcases List.mem_append.mp member with member | member
    · exact first.bound visit member
    · exact second.bound visit member

theorem cons {event event' : Event} (same : event.visit? = event'.visit?)
    (bound : ∀ visit, event.visit? = some visit → visit.isBound)
    (others : SameLeft rest rest') : SameLeft (event :: rest) (event' :: rest') := by
  have here : SameLeft [event] [event'] := by
    constructor
    · rw [visits, List.filterMap_cons, visits, List.filterMap_cons, same]
    · intro visit member
      obtain ⟨_, only, found⟩ := List.mem_filterMap.mp member
      obtain rfl := List.mem_singleton.mp only
      exact bound visit found
  exact here.append others

/-- An event that validation passes over. -/
theorem pass {event event' : Event} (unread : event.visit? = none)
    (unread' : event'.visit? = none) (others : SameLeft rest rest') :
    SameLeft (event :: rest) (event' :: rest') := by
  refine cons (unread.trans unread'.symm) ?_ others
  rw [unread]
  exact nofun

/-- A name that is bound. -/
theorem used {ident : Ident} {position : Position} (bound : ident.isBound) :
    SameLeft [.useValue ident position] [.useValue ident position] := by
  refine cons rfl ?_ nil
  rintro visit found
  cases found
  exact bound

/-- What is left over is the same. -/
theorem leftOver (same : SameLeft walk walk') (file : String) :
    walk.filterMap (Event.leftOver? file) = walk'.filterMap (Event.leftOver? file) := by
  rw [filterMap_leftOver?, filterMap_leftOver?, same.same]

end SameLeft

/-! ## Types and parameters -/

theorem TypeSpec.unread_walk : ∀ spec : TypeSpec, Unread spec.walk :=
  TypeSpec.forall_mem_walk fun _ _ => rfl

theorem TypeSpec.unread_walkOption : ∀ spec : Option TypeSpec, Unread (TypeSpec.walkOption spec) :=
  TypeSpec.forall_mem_walkOption fun _ _ => rfl

theorem Func.unread_walkSignature (receiver : Option Param) (params results : List Param) :
    Unread (Func.walkSignature receiver params results) :=
  TypeSpec.forall_mem_flatMap_walk Param.spec (fun _ _ => rfl) _

theorem Func.unread_declareParams (receiver : Option Param) (params results : List Param) :
    Unread (Func.declareParams receiver params results) := by
  intro event member
  obtain ⟨name, -, rfl⟩ := List.mem_map.mp member
  rfl

/-! ## Nodes -/

/-- Whether two expressions are the same as far as a rule looks at one: where it is, and what it is
    if it is a blank, a literal or a name. In a run that goes well they are the same to validation
    too. -/
structure Expr.Alike (well : Bool) (e e' : Expr) : Prop where
  position : e'.position = e.position
  outline : e'.form.outline = e.form.outline
  type : well = true → e.type = e'.type
  inside : well = true → SameLeft (e.form.walk e.position) (e'.form.walk e'.position)

/-- Whether two forms of expressions at a position are the same in this way. -/
structure ExprForm.Alike (well : Bool) (position : Position) (form form' : ExprForm) : Prop where
  outline : form'.outline = form.outline
  inside : well = true → SameLeft (form.walk position) (form'.walk position)

/-- Whether two nodes with a walk are the same to validation, in a run that goes well. -/
def LeftAlike (walk : ν → List Event) (well : Bool) (node node' : ν) : Prop :=
  well = true → SameLeft (walk node) (walk node')

section Exprs

variable {well : Bool} {e e' : Expr}

theorem ExprForm.outline_erase {renumber : StmtId → StmtId} (form : ExprForm) :
    (form.erase renumber).outline = form.outline := by
  cases form <;> simp [ExprForm.erase, ExprForm.outline]

/-- Erasing annotations keeps the outline. -/
theorem Expr.Alike.erase {renumber : StmtId → StmtId} (e : Expr) :
    Expr.Alike false e (e.erase renumber) := by
  obtain ⟨position, form, type⟩ := e
  exact ⟨rfl, form.outline_erase, nofun, nofun⟩

theorem Expr.Alike.isBlank (alike : Expr.Alike well e e') : e'.isBlank = e.isBlank := by
  obtain ⟨position, form, type⟩ := e
  obtain ⟨position', form', type'⟩ := e'
  have outline : form'.outline = form.outline := alike.outline
  cases form <;> cases form' <;> simp_all [Expr.isBlank, ExprForm.outline]

theorem Expr.Alike.ident? (alike : Expr.Alike well e e') :
    e'.ident?.map (·.name) = e.ident?.map (·.name) := by
  obtain ⟨position, form, type⟩ := e
  obtain ⟨position', form', type'⟩ := e'
  have outline : form'.outline = form.outline := alike.outline
  cases form <;> cases form' <;> simp_all [Expr.ident?, ExprForm.outline]

theorem Expr.Alike.walk (alike : Expr.Alike well e e') : LeftAlike Expr.walk well e e' := by
  intro went
  have entered : Event.visit? (.enterExpr e) = Event.visit? (.enterExpr e') := by
    simp only [Event.visit?, alike.isBlank, alike.type went, alike.position]
  have bound : ∀ visit, Event.visit? (.enterExpr e) = some visit → visit.isBound := by
    rintro visit found
    cases found
    rfl
  have left : SameLeft [.leaveExpr e] [.leaveExpr e'] := .pass rfl rfl .nil
  have inside := alike.inside went
  obtain ⟨position, form, type⟩ := e
  obtain ⟨position', form', type'⟩ := e'
  exact .append (.cons entered bound inside) left

end Exprs

/-- Validation reads no labels, numbers or parameters. -/
theorem Stmt.sameLeft_walk {s s' : Stmt} (same : SameLeft s.form.walk s'.form.walk) :
    SameLeft s.walk s'.walk := by
  obtain ⟨id, position, label, form⟩ := s
  obtain ⟨id', position', label', form'⟩ := s'
  exact .append (.pass rfl rfl same) (.pass rfl rfl .nil)

theorem Func.sameLeft_walk {func func' : Func}
    (same : SameLeft (Stmt.walkList func.body.statements) (Stmt.walkList func'.body.statements)) :
    SameLeft func.walk func'.walk := by
  obtain ⟨name, receiver, params, results, statements, labels⟩ := func
  obtain ⟨name', receiver', params', results', statements', labels'⟩ := func'
  have signature : SameLeft (Func.walkSignature receiver params results)
      (Func.walkSignature receiver' params' results') :=
    .of_unread (Func.unread_walkSignature _ _ _) (Func.unread_walkSignature _ _ _)
  have declared : SameLeft (Func.declareParams receiver params results)
      (Func.declareParams receiver' params' results') :=
    .of_unread (Func.unread_declareParams _ _ _) (Func.unread_declareParams _ _ _)
  exact .append (.append (.append signature (.pass rfl rfl declared)) same) (.pass rfl rfl .nil)

theorem Branch.walkList_cons (branch : Branch) (rest : List Branch) :
    Branch.walkList (branch :: rest) = Branch.walkList [branch] ++ Branch.walkList rest := by
  obtain ⟨header, condition, body⟩ := branch
  simp [Branch.walkList]

/-- Validation reads no declared names. -/
theorem VarForm.sameLeft_walk {vars vars' : List VarDecl} {isFunc : Bool}
    (same : SameLeft (VarDecl.walkList vars) (VarDecl.walkList vars')) :
    SameLeft (VarForm.walk ⟨vars, isFunc⟩) (VarForm.walk ⟨vars', isFunc⟩) := by
  have unread : ∀ vars : List VarDecl, Unread (vars.map (.declare ·.name)) := by
    intro vars event member
    obtain ⟨decl, -, rfl⟩ := List.mem_map.mp member
    rfl
  cases isFunc with
  | true => exact .append (.of_unread (unread vars) (unread vars')) same
  | false => exact .append same (.of_unread (unread vars) (unread vars'))

theorem Block.sameLeft_walk {block block' : Block}
    (same : SameLeft (Stmt.walkList block.statements) (Stmt.walkList block'.statements)) :
    SameLeft block.walk block'.walk := by
  obtain ⟨statements, labels⟩ := block
  obtain ⟨statements', labels'⟩ := block'
  exact .append (.pass rfl rfl same) (.pass rfl rfl .nil)

end PackageCheck
