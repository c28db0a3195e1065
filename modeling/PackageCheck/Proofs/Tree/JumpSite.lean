import Mathlib.Data.List.Forall2
import PackageCheck.Tree.Basic

/-! # Jumps and their surroundings

The jumps in a tree, each with what a reader of the tree sees around it: the loops in whose bodies
it stands, and the labelled statements of the blocks in which it stands. The surroundings of a jump
end with its function.

`Surroundings.resolve` says where a jump leads to as far as its surroundings tell. -/

namespace PackageCheck

/-! ## Surroundings -/

/-- A labelled statement: its label, and its number if it is a loop. -/
structure LabelledStmt where
  label : StmtLabel
  loop : Option StmtId
deriving DecidableEq

/-- The statement as a labelled one, if it is labelled. -/
def Stmt.labelled? (s : Stmt) : Option LabelledStmt :=
  s.label.map fun label => ⟨label, if s.isLoop then some s.id else none⟩

/-- What is around a jump in its function, the innermost loop and the innermost block first. -/
structure Surroundings where
  /-- The loops with their labels. -/
  loops : List (StmtId × Option String) := []
  /-- The labelled statements of each block. -/
  blocks : List (List LabelledStmt) := []
deriving DecidableEq

namespace Surroundings

/-- The surroundings in the body of a loop. -/
def inLoop (around : Surroundings) (id : StmtId) (label : Option String) : Surroundings :=
  { around with loops := (id, label) :: around.loops }

/-- The surroundings in a block. -/
def inBlock (around : Surroundings) (labelled : List LabelledStmt) : Surroundings :=
  { around with blocks := labelled :: around.blocks }

/-- The innermost loop, or the innermost one with a label. -/
def loop? (around : Surroundings) : Option String → Option StmtId
  | none => around.loops.head?.map (·.1)
  | some name => (around.loops.find? (·.2 == some name)).map (·.1)

/-- The first statement with a label in the innermost block that has one. -/
def labelled? (around : Surroundings) (name : String) : Option LabelledStmt :=
  around.blocks.findSome? (·.find? (·.label.name == name))

/-- The symbol of that statement's label. -/
def labelSymbol? (around : Surroundings) (name : String) : Option SymbolId :=
  (around.labelled? name).bind (·.label.symbol)

/-- The jump with its handles, if it leads anywhere: a `goto` to a label, and any other jump to a
    loop. -/
def resolve (around : Surroundings) (jump : Jump) : Option Jump :=
  let labelSymbol := jump.label.bind around.labelSymbol?
  match jump.kind with
  | .goto => labelSymbol.map fun id => { jump with labelSymbol := some id, target := none }
  | _ => (around.loop? jump.label).map fun target =>
    { jump with labelSymbol := labelSymbol, target := some target }

variable {around : Surroundings} {name : String}

theorem name_of_labelled? {first : LabelledStmt} (seen : around.labelled? name = some first) :
    first.label.name = name := by
  obtain ⟨block, -, found⟩ := List.exists_of_findSome?_eq_some seen
  simpa using List.find?_some found

/-- Where a jump to a loop leads. -/
theorem target_of_resolve {jump jump' : Jump} (resolved : around.resolve jump = some jump')
    (kind : jump'.kind ≠ .goto) : ∃ target, around.loop? jump'.label = some target ∧
      jump'.target = some target ∧ jump'.labelSymbol = jump'.label.bind around.labelSymbol? := by
  obtain ⟨written, label, symbol, before⟩ := jump
  cases written with
  | goto =>
    obtain ⟨id, -, rfl⟩ := Option.map_eq_some_iff.mp resolved
    exact absurd rfl kind
  | _ =>
    obtain ⟨target, found, rfl⟩ := Option.map_eq_some_iff.mp resolved
    exact ⟨target, found, rfl, rfl⟩

end Surroundings

/-! ## Jump sites -/

/-- A jump where it stands. -/
structure JumpSite where
  jump : Jump
  around : Surroundings
deriving DecidableEq

mutual

/-- The jumps in an expression, all of which stand in functions. -/
def Expr.jumpSites : Expr → List JumpSite
  | ⟨_, form, _⟩ => form.jumpSites

/-- The jumps in a form of expression. -/
def ExprForm.jumpSites : ExprForm → List JumpSite
  | .literal _ | .blank | .ident _ | .type _ => []
  | .compound _ _ elements => Element.jumpSitesList elements
  | .binary _ left right => left.jumpSites ++ right.jumpSites
  | .unary _ operand => operand.jumpSites
  | .index left index => left.jumpSites ++ index.jumpSites
  | .selector left _ => left.jumpSites
  | .call callee args => callee.jumpSites ++ Expr.jumpSitesList args
  | .func func => func.jumpSites

/-- The jumps in expressions. -/
def Expr.jumpSitesList : List Expr → List JumpSite
  | [] => []
  | e :: rest => e.jumpSites ++ Expr.jumpSitesList rest

/-- The jumps in an expression that may be absent. -/
def Expr.jumpSitesOption : Option Expr → List JumpSite
  | none => []
  | some e => e.jumpSites

/-- The jumps in the elements of a literal. -/
def Element.jumpSitesList : List Element → List JumpSite
  | [] => []
  | ⟨key, value⟩ :: rest =>
    Expr.jumpSitesOption key ++ (value.jumpSites ++ Element.jumpSitesList rest)

/-- The jumps in a function. -/
def Func.jumpSites : Func → List JumpSite
  | ⟨_, _, _, _, body⟩ => body.jumpSites {}

/-- The jumps in functions. -/
def Func.jumpSitesList : List Func → List JumpSite
  | [] => []
  | func :: rest => func.jumpSites ++ Func.jumpSitesList rest

/-- The jumps in a block. -/
def Block.jumpSites (around : Surroundings) : Block → List JumpSite
  | ⟨statements, _⟩ =>
    Stmt.jumpSitesList (around.inBlock (statements.filterMap Stmt.labelled?)) statements

/-- The jumps in a statement. -/
def Stmt.jumpSites (around : Surroundings) : Stmt → List JumpSite
  | ⟨id, _, label, form⟩ => form.jumpSites around id (label.map (·.name))

/-- The jumps in statements. -/
def Stmt.jumpSitesList (around : Surroundings) : List Stmt → List JumpSite
  | [] => []
  | s :: rest => s.jumpSites around ++ Stmt.jumpSitesList around rest

/-- The jumps in a statement that may be absent. -/
def Stmt.jumpSitesOption (around : Surroundings) : Option Stmt → List JumpSite
  | none => []
  | some s => s.jumpSites around

/-- The jumps in a form of statement. Only the body of a loop is inside the loop. -/
def StmtForm.jumpSites (around : Surroundings) (id : StmtId) (label : Option String) :
    StmtForm → List JumpSite
  | .assign lhs rhs _ => Expr.jumpSitesList lhs ++ Expr.jumpSitesList rhs
  | .struct ⟨_, _, methods, _⟩ => Func.jumpSitesList methods
  | .typeAlias _ | .pass => []
  | .var vars => vars.jumpSites
  | .cond branches => Branch.jumpSitesList around branches
  | .loop ⟨header, condition, step, body⟩ =>
    VarForm.jumpSitesOption header ++ (Expr.jumpSitesOption condition ++
      (Stmt.jumpSitesOption around step ++ body.jumpSites (around.inLoop id label)))
  | .expr e => e.jumpSites
  | .jump jump => [⟨jump, around⟩]
  | .ret values => Expr.jumpSitesList values

/-- The jumps in a form of variables. -/
def VarForm.jumpSites : VarForm → List JumpSite
  | ⟨vars, _⟩ => VarDecl.jumpSitesList vars

/-- The jumps in a form of variables that may be absent. -/
def VarForm.jumpSitesOption : Option VarForm → List JumpSite
  | none => []
  | some vars => vars.jumpSites

/-- The jumps in the initial values of variables. -/
def VarDecl.jumpSitesList : List VarDecl → List JumpSite
  | [] => []
  | ⟨_, _, _, value, _⟩ :: rest => Expr.jumpSitesOption value ++ VarDecl.jumpSitesList rest

/-- The jumps in the branches of a conditional. -/
def Branch.jumpSitesList (around : Surroundings) : List Branch → List JumpSite
  | [] => []
  | ⟨header, condition, body⟩ :: rest =>
    VarForm.jumpSitesOption header ++ (Expr.jumpSitesOption condition ++
      (body.jumpSites around ++ Branch.jumpSitesList around rest))

end

theorem Stmt.jumpSitesList_eq_flatMap (around : Surroundings) (statements : List Stmt) :
    Stmt.jumpSitesList around statements = statements.flatMap (Stmt.jumpSites around) := by
  induction statements with
  | nil => rfl
  | cons s rest hypothesis => rw [Stmt.jumpSitesList, List.flatMap_cons, hypothesis]

theorem VarDecl.jumpSitesList_cons (decl : VarDecl) (rest : List VarDecl) :
    VarDecl.jumpSitesList (decl :: rest) =
      Expr.jumpSitesOption decl.value ++ VarDecl.jumpSitesList rest := by
  obtain ⟨_, _, _, _, _⟩ := decl
  rfl

theorem Branch.jumpSitesList_cons (around : Surroundings) (branch : Branch) (rest : List Branch) :
    Branch.jumpSitesList around (branch :: rest) =
      Branch.jumpSitesList around [branch] ++ Branch.jumpSitesList around rest := by
  obtain ⟨_, _, _⟩ := branch
  simp only [Branch.jumpSitesList, List.append_assoc, List.append_nil]

/-- The jumps in files. No block is around the statements of a file. -/
def SourceFile.jumpSites (files : List SourceFile) : List JumpSite :=
  files.flatMap fun file => Stmt.jumpSitesList {} file.body

/-! ## The jumps alone -/

mutual

/-- The surroundings of a statement decide nothing about which jumps it holds. -/
theorem Stmt.jumps_jumpSites (around other : Surroundings) : ∀ s : Stmt,
    (s.jumpSites around).map (·.jump) = (s.jumpSites other).map (·.jump)
  | ⟨id, _, _, form⟩ => form.jumps_jumpSites around other id id _ _

theorem Stmt.jumps_jumpSitesList (around other : Surroundings) : ∀ statements : List Stmt,
    (Stmt.jumpSitesList around statements).map (·.jump) =
      (Stmt.jumpSitesList other statements).map (·.jump)
  | [] => rfl
  | s :: rest => by
    simp only [Stmt.jumpSitesList, List.map_append, s.jumps_jumpSites around other,
      Stmt.jumps_jumpSitesList around other rest]

theorem Stmt.jumps_jumpSitesOption (around other : Surroundings) : ∀ s : Option Stmt,
    (Stmt.jumpSitesOption around s).map (·.jump) = (Stmt.jumpSitesOption other s).map (·.jump)
  | none => rfl
  | some s => s.jumps_jumpSites around other

theorem Block.jumps_jumpSites (around other : Surroundings) : ∀ block : Block,
    (block.jumpSites around).map (·.jump) = (block.jumpSites other).map (·.jump)
  | ⟨statements, _⟩ => Stmt.jumps_jumpSitesList _ _ statements

theorem StmtForm.jumps_jumpSites (around other : Surroundings) (id id' : StmtId)
    (label label' : Option String) : ∀ form : StmtForm,
      (form.jumpSites around id label).map (·.jump) =
        (form.jumpSites other id' label').map (·.jump)
  | .assign _ _ _ => rfl
  | .struct ⟨_, _, _, _⟩ => rfl
  | .typeAlias _ => rfl
  | .pass => rfl
  | .var _ => rfl
  | .cond branches => Branch.jumps_jumpSitesList around other branches
  | .loop ⟨header, condition, step, body⟩ => by
    simp only [StmtForm.jumpSites, List.map_append, Stmt.jumps_jumpSitesOption around other step,
      body.jumps_jumpSites (around.inLoop id label) (other.inLoop id' label')]
  | .expr _ => rfl
  | .jump _ => rfl
  | .ret _ => rfl

theorem Branch.jumps_jumpSitesList (around other : Surroundings) : ∀ branches : List Branch,
    (Branch.jumpSitesList around branches).map (·.jump) =
      (Branch.jumpSitesList other branches).map (·.jump)
  | [] => rfl
  | ⟨_, _, body⟩ :: rest => by
    simp only [Branch.jumpSitesList, List.map_append, body.jumps_jumpSites around other,
      Branch.jumps_jumpSitesList around other rest]

end

end PackageCheck
