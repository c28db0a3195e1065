import PackageCheck.Proofs.Tree.JumpSite
import PackageCheck.Proofs.Typing.Rechecking

/-! # Jumps and what is around them

A check looks for the loop of a jump among the loops that it has gone into, and for the label among
those that it has declared on the way. What it knows of them is what a reader of the checked tree
sees around the jump: `Context.Mirrors` says so of a node, and is kept wherever a check goes from a
node to its parts. So a check leaves each jump as it was, or gives it the handles that its
surroundings show. -/

namespace PackageCheck

variable {table : SymbolTable}

/-! ## Resolved jumps -/

/-- Whether the label of a statement leads to a symbol that stands for the statement. -/
def LabelledStmt.Declared (table : SymbolTable) (labelled : LabelledStmt) : Prop :=
  ∃ id site, labelled.label.symbol = some id ∧
    table.get? id = some (.label ⟨labelled.label.name, labelled.loop, site⟩)

/-- Whether all labels that can be seen lead to their symbols. -/
def Surroundings.Declared (table : SymbolTable) (around : Surroundings) : Prop :=
  ∀ name labelled, around.labelled? name = some labelled → labelled.Declared table

/-- A label that can be seen is the label of a loop if the statement that it is seen at is. -/
theorem Surroundings.Declared.label_iff {around : Surroundings}
    (declared : around.Declared table) (name : String) (loop : StmtId) :
    (∃ id label, around.labelSymbol? name = some id ∧ table.get? id = some (.label label) ∧
      label.name = name ∧ label.loop = some loop) ↔
        ∃ first, around.labelled? name = some first ∧ first.loop = some loop := by
  constructor
  · rintro ⟨id, label, seen, held, -, leads⟩
    obtain ⟨first, found, symbol⟩ := Option.bind_eq_some_iff.mp seen
    obtain ⟨id', site, symbol', held'⟩ := declared name first found
    cases symbol.symm.trans symbol'
    cases held.symm.trans held'
    exact ⟨first, found, leads⟩
  · rintro ⟨first, found, leads⟩
    obtain ⟨id, site, symbol, held⟩ := declared name first found
    exact ⟨id, _, Option.bind_eq_some_iff.mpr ⟨first, found, symbol⟩, held,
      name_of_labelled? found, leads⟩

/-- Whether a jump has got the handles that its surroundings show. -/
structure JumpSite.Resolved (table : SymbolTable) (before : Jump) (site : JumpSite) : Prop where
  resolved : site.around.resolve before = some site.jump
  declared : site.around.Declared table

/-- Whether some jumps are those of another tree, each as it was there or resolved. -/
def JumpSite.Handled (table : SymbolTable) (before after : List JumpSite) : Prop :=
  List.Forall₂ (fun site site' => site'.jump = site.jump ∨ site'.Resolved table site.jump)
    before after

namespace JumpSite.Handled

variable {before before' after after' : List JumpSite}

theorem refl (sites : List JumpSite) : Handled table sites sites :=
  List.forall₂_same.mpr fun _ _ => Or.inl rfl

theorem append (first : Handled table before after) (second : Handled table before' after') :
    Handled table (before ++ before') (after ++ after') :=
  List.rel_append first second

/-- The surroundings in the tree before do not matter. -/
theorem of_jumps (handled : Handled table before after)
    (same : before'.map (·.jump) = before.map (·.jump)) : Handled table before' after := by
  have jumps : List.Forall₂ (fun jump (site' : JumpSite) => site'.jump = jump ∨
      site'.Resolved table jump) (before.map (·.jump)) after :=
    List.forall₂_map_left_iff.mpr handled
  rw [← same] at jumps
  exact List.forall₂_map_left_iff.mp jumps

end JumpSite.Handled

namespace Typing

open Check

variable {ctx : Context} {around : Surroundings}

/-! ## Contexts -/

/-- Whether a context shows what is around a node of a checked tree. -/
structure Context.Mirrors (ctx : Context) (table : SymbolTable) (around : Surroundings) : Prop where
  loops : ctx.loops = around.loops
  labels : ∀ name, ctx.label? name = around.labelSymbol? name
  declared : around.Declared table

namespace Context.Mirrors

/-- Nothing is around a statement at the top of a file, and around the body of a function. -/
theorem outermost (file : String) (frame : Option Frame) :
    Mirrors { file := file, frame := frame } table {} :=
  ⟨rfl, fun _ => rfl, nofun⟩

theorem inLoop (mirrors : ctx.Mirrors table around) (id : StmtId) (label : Option String) :
    Mirrors { ctx with loops := (id, label) :: ctx.loops } table (around.inLoop id label) :=
  ⟨congrArg ((id, label) :: ·) mirrors.loops, mirrors.labels, mirrors.declared⟩

theorem loop? (mirrors : ctx.Mirrors table around) (label : Option String) :
    ctx.loop? label = around.loop? label := by
  cases label with
  | none => rw [Context.loop?, Surroundings.loop?, mirrors.loops]
  | some name => rw [Context.loop?, Surroundings.loop?, mirrors.loops]

end Context.Mirrors

/-- Whether labels are those before some labelled statements together with those of the statements,
    where the first one with a name keeps it. -/
structure LabelsAfter (table : SymbolTable) (before : NameMap SymbolId)
    (block : List LabelledStmt) (labels : NameMap SymbolId) : Prop where
  found : ∀ name, labels.find? name =
    (before.find? name).or ((block.find? (·.label.name == name)).bind (·.label.symbol))
  declared : ∀ name labelled, before.find? name = none →
    block.find? (·.label.name == name) = some labelled → labelled.Declared table

theorem Context.Mirrors.inBlock {labels : NameMap SymbolId} {block : List LabelledStmt}
    (mirrors : ctx.Mirrors table around) (shown : LabelsAfter table .empty block labels) :
    Mirrors { ctx with labels := labels :: ctx.labels } table (around.inBlock block) where
  loops := mirrors.loops
  labels name := by
    simp only [Context.label?, Surroundings.labelSymbol?, Surroundings.labelled?,
      Surroundings.inBlock, List.findSome?_cons, shown.found name, NameMap.find?_empty,
      Option.none_or]
    cases first : block.find? (·.label.name == name) with
    | none => exact mirrors.labels name
    | some labelled =>
      -- the label has a symbol, so no look-up goes on to the blocks around
      obtain ⟨id, _, symbol, _⟩ := shown.declared name labelled rfl first
      rw [Option.bind_some, symbol]
  declared name labelled seen := by
    simp only [Surroundings.labelled?, Surroundings.inBlock, List.findSome?_cons] at seen
    split at seen
    · rename_i first
      cases seen
      exact shown.declared name _ rfl first
    · exact mirrors.declared name labelled seen

/-- A jump is resolved as its surroundings show, or else an error. -/
theorem resolveJump_eq (mirrors : ctx.Mirrors table around) (jump : Jump) (position : Position) :
    resolveJump ctx jump position =
      match around.resolve jump with
      | some jump => (jump, .ok ())
      | none => (jump, .error (.invalidJump jump.kind jump.label (ctx.site position))) := by
  have labels : ctx.label? = around.labelSymbol? := funext mirrors.labels
  obtain ⟨kind, label, symbol, target⟩ := jump
  simp only [resolveJump, Surroundings.resolve, labels, mirrors.loop?]
  cases kind with
  | goto => cases label.bind around.labelSymbol? <;> rfl
  | _ => cases around.loop? label <;> rfl

/-! ## Labels -/

/-- Statements with other labels. -/
def relabel (statements : List Stmt) (labels : List (Option StmtLabel)) : List Stmt :=
  statements.zipWith (fun s label => { s with label := label }) labels

/-- What can be seen of statements that have got their labels, if they look as before otherwise. -/
theorem labelled_of_relabelled {statements statements' : List Stmt}
    {labels : List (Option StmtLabel)}
    (sites : statements'.map labelSite = statements.map labelSite)
    (labelled : statements'.map (·.label) = labels) :
    statements'.filterMap Stmt.labelled? =
      (relabel statements labels).filterMap Stmt.labelled? := by
  subst labelled
  induction statements generalizing statements' with
  | nil =>
    obtain rfl := List.map_eq_nil_iff.mp sites
    rfl
  | cons s rest hypothesis =>
    cases statements' with
    | nil => cases sites
    | cons s' rest' =>
      obtain ⟨here, others⟩ := List.cons.inj sites
      obtain ⟨number, placed⟩ := Prod.mk.inj here
      have isLoop : s'.isLoop = s.isLoop := (Prod.mk.inj placed).2
      have first : s'.labelled? = Stmt.labelled? { s with label := s'.label } := by
        change s'.label.map _ = s'.label.map _
        rw [isLoop, number]
        rfl
      rw [List.map_cons, relabel, List.zipWith_cons_cons, List.filterMap_cons,
        List.filterMap_cons, first, hypothesis others]
      rfl

namespace LabelsAfter

variable {before labels : NameMap SymbolId} {block : List LabelledStmt}

theorem refl (labels : NameMap SymbolId) : LabelsAfter table labels [] labels where
  found name := by simp
  declared _ _ _ first := by cases first

/-- The first statement with a name, in front of some others. -/
theorem first {label : StmtLabel} {loop : Option StmtId} {id : SymbolId} {site : Option Site}
    (free : before.find? label.name = none)
    (there : table.get? id = some (.label ⟨label.name, loop, site⟩))
    (others : LabelsAfter table (before.insert label.name id) block labels) :
    LabelsAfter table before (⟨{ label with symbol := some id }, loop⟩ :: block) labels where
  found name := by
    rw [others.found name]
    by_cases same : label.name = name
    · subst same
      simp [free]
    · simp [same, NameMap.find?_insert_of_ne before id (Ne.symm same)]
  declared name labelled absent seen := by
    by_cases same : label.name = name
    · subst same
      simp only [List.find?_cons, beq_self_eq_true, Option.some.injEq] at seen
      exact seen ▸ ⟨id, site, rfl, there⟩
    · simp only [List.find?_cons, beq_false_of_ne same] at seen
      refine others.declared name labelled ?_ seen
      rw [NameMap.find?_insert_of_ne before id (Ne.symm same), absent]

/-- Another statement with a name that has been taken already, in front of some others. -/
theorem repeated {label : StmtLabel} {loop : Option StmtId} {previous : SymbolId}
    (taken : before.find? label.name = some previous)
    (others : LabelsAfter table before block labels) :
    LabelsAfter table before (⟨label, loop⟩ :: block) labels where
  found name := by
    rw [others.found name]
    by_cases same : label.name = name
    · subst same
      simp [taken]
    · simp [same]
  declared name labelled absent seen := by
    have other : label.name ≠ name := by
      rintro rfl
      cases taken.symm.trans absent
    simp only [List.find?_cons, beq_false_of_ne other] at seen
    exact others.declared name labelled absent seen

end LabelsAfter

/-- A symbol that is declared stays in the table. -/
theorem insertSymbol_held (symbol : Symbol) :
    (insertSymbol symbol).Ensures table fun id => table.get? id = some symbol :=
  fun s _ within => within.kept _ _ (s.symbols.get?_insert_nextId symbol)

/-- The labels of a block and those of its statements belong together. -/
theorem declareLabels_labels (statements : List Stmt) : ∀ before : NameMap SymbolId,
    (declareLabels ctx before statements).Ensures table fun declared =>
      LabelsAfter table before ((relabel statements declared.2).filterMap Stmt.labelled?)
        declared.1 := by
  induction statements with
  | nil => exact fun before => .pure (.refl before)
  | cons s rest hypothesis =>
    intro before
    rw [declareLabels]
    cases named : s.label with
    | none => exact .bind (hypothesis before) fun declared others => .pure others
    | some label =>
      refine .bind (insertSymbol_held _) fun id there => ?_
      dsimp only
      split
      case h_1 free =>
        refine .bind (hypothesis _) fun declared others => .pure ?_
        exact .first free there others
      case h_2 previous taken =>
        refine .bind (.trivial _) fun _ _ => .bind (.trivial _) fun _ _ => ?_
        refine .bind (hypothesis before) fun declared others => .pure ?_
        exact .repeated taken others

end Typing

end PackageCheck
