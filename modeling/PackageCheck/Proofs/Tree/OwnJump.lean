import PackageCheck.Proofs.Tree.JumpSite

/-! # The jumps of one function

The jumps of a function are those in its body, but not in the bodies of the functions inside of it.
They stand in the blocks of the function and in the steps of its loops, and in no expression, so a
check of the function comes to each of them whatever else fails in it. -/

namespace PackageCheck

/-! ## Jumps that lead anywhere -/

/-- Whether a jump leads anywhere. A `goto` needs a statement with its label in a block around it,
    and any other jump a loop around it, one with its label if it has one. -/
def Surroundings.permits (around : Surroundings) (jump : Jump) : Bool :=
  match jump.kind with
  | .goto => (jump.label.bind around.labelled?).isSome
  | _ => (around.loop? jump.label).isSome

/-- Whether a jump leads anywhere from where it stands. -/
def JumpSite.permitted (site : JumpSite) : Bool :=
  site.around.permits site.jump

/-- A labelled statement without its handle. -/
def LabelledStmt.view (labelled : LabelledStmt) : String × Option StmtId :=
  (labelled.label.name, labelled.loop)

/-- Surroundings without the handles of the labels. -/
def Surroundings.view (around : Surroundings) :
    List (StmtId × Option String) × List (List (String × Option StmtId)) :=
  (around.loops, around.blocks.map (·.map LabelledStmt.view))

theorem Surroundings.isSome_labelled? (around : Surroundings) (name : String) :
    (around.labelled? name).isSome = around.view.2.any (·.any (·.1 == name)) := by
  simp [labelled?, view, LabelledStmt.view, List.isSome_findSome?, List.isSome_find?, List.any_map,
    Function.comp_def]

/-- The names and numbers around a jump decide whether it leads anywhere. -/
theorem Surroundings.permits_of_view {around other : Surroundings} (same : around.view = other.view)
    (jump : Jump) : around.permits jump = other.permits jump := by
  have loops : around.loops = other.loops := congrArg Prod.fst same
  obtain ⟨kind, label, symbol, target⟩ := jump
  cases kind with
  | goto =>
    cases label with
    | none => rfl
    | some name =>
      change (around.labelled? name).isSome = (other.labelled? name).isSome
      rw [isSome_labelled?, isSome_labelled?, same]
  | _ =>
    cases label with
    | none =>
      change (around.loops.head?.map _).isSome = (other.loops.head?.map _).isSome
      rw [loops]
    | some name =>
      change ((around.loops.find? _).map _).isSome = ((other.loops.find? _).map _).isSome
      rw [loops]

theorem Surroundings.view_inLoop {around other : Surroundings} (same : around.view = other.view)
    (id : StmtId) (label : Option String) :
    (around.inLoop id label).view = (other.inLoop id label).view := by
  obtain ⟨loops, blocks⟩ := Prod.mk.inj same
  exact Prod.ext (congrArg ((id, label) :: ·) loops) blocks

theorem Surroundings.view_inBlock {around other : Surroundings} {block block' : List LabelledStmt}
    (same : around.view = other.view)
    (labels : block.map LabelledStmt.view = block'.map LabelledStmt.view) :
    (around.inBlock block).view = (other.inBlock block').view := by
  obtain ⟨loops, blocks⟩ := Prod.mk.inj same
  refine Prod.ext loops ?_
  change block.map LabelledStmt.view :: _ = block'.map LabelledStmt.view :: _
  rw [labels]
  exact congrArg _ blocks

/-! ## Jumps of a function -/

/-- A jump where it stands, with its position. -/
structure PlacedJump extends JumpSite where
  position : Position
deriving DecidableEq

mutual

/-- The jumps in a block. -/
def Block.ownJumps (around : Surroundings) : Block → List PlacedJump
  | ⟨statements, _⟩ =>
    Stmt.ownJumpsList (around.inBlock (statements.filterMap Stmt.labelled?)) statements

/-- The jumps in a statement. -/
def Stmt.ownJumps (around : Surroundings) : Stmt → List PlacedJump
  | ⟨id, position, label, form⟩ => form.ownJumps around id position (label.map (·.name))

/-- The jumps in statements. -/
def Stmt.ownJumpsList (around : Surroundings) : List Stmt → List PlacedJump
  | [] => []
  | s :: rest => s.ownJumps around ++ Stmt.ownJumpsList around rest

/-- The jumps in a statement that may be absent. -/
def Stmt.ownJumpsOption (around : Surroundings) : Option Stmt → List PlacedJump
  | none => []
  | some s => s.ownJumps around

/-- The jumps in a form of statement. Only the body of a loop is inside the loop. -/
def StmtForm.ownJumps (around : Surroundings) (id : StmtId) (position : Position)
    (label : Option String) : StmtForm → List PlacedJump
  | .cond branches => Branch.ownJumpsList around branches
  | .loop ⟨_, _, step, body⟩ =>
    Stmt.ownJumpsOption around step ++ body.ownJumps (around.inLoop id label)
  | .jump jump => [⟨⟨jump, around⟩, position⟩]
  | _ => []

/-- The jumps in the branches of a conditional. -/
def Branch.ownJumpsList (around : Surroundings) : List Branch → List PlacedJump
  | [] => []
  | ⟨_, _, body⟩ :: rest => body.ownJumps around ++ Branch.ownJumpsList around rest

end

/-- The jumps of a function. -/
def Func.ownJumps (func : Func) : List PlacedJump :=
  func.body.ownJumps {}

/-! ## Statements with jumps -/

/-- Whether a form is a jump, or holds blocks or statements of the same function. -/
def StmtForm.isFlow : StmtForm → Bool
  | .cond _ | .loop _ | .jump _ => true
  | _ => false

theorem StmtForm.ownJumps_of_not_isFlow {form : StmtForm} (plain : form.isFlow = false)
    (around : Surroundings) (id : StmtId) (position : Position) (label : Option String) :
    form.ownJumps around id position label = [] := by
  cases form with
  | cond branches => cases plain
  | loop loop => cases plain
  | jump jump => cases plain
  | _ => rfl

theorem Branch.ownJumpsList_cons (around : Surroundings) (branch : Branch) (rest : List Branch) :
    Branch.ownJumpsList around (branch :: rest) =
      branch.body.ownJumps around ++ Branch.ownJumpsList around rest := by
  obtain ⟨_, _, _⟩ := branch
  rfl

end PackageCheck
