import PackageCheck.Proofs.Dependency.Sorting
import PackageCheck.Proofs.Package.Completeness
import PackageCheck.Proofs.Package.Frame
import PackageCheck.Proofs.Package.History
import PackageCheck.Proofs.Package.Initialization
import PackageCheck.Proofs.Package.Uses
import PackageCheck.Proofs.Tree.NoMoreLeft
import PackageCheck.Proofs.Typing.AddedNames

/-! # The turns of a check

The statements of a package are checked one after the other, each in the state that the one before it has
left behind. A turn is the check of one of them. What a turn has added to the state is there in all later
turns, so a check at which nothing fails can be looked at one turn at a time. -/

namespace PackageCheck.Package

open Typing

/-! ## Turns -/

/-- The check of a statement of a package, which stands at a place in a file. -/
structure Turn where
  ref : StmtRef
  file : String
  stmt : Stmt
  before : State

namespace Turn

variable (turn : Turn)

/-- The checked statement. -/
def checked : Stmt :=
  ((checkTopLevel turn.file turn.stmt).run turn.before).1

/-- The state behind the statement. -/
def after : State :=
  ((checkTopLevel turn.file turn.stmt).run turn.before).2

/-- Whether nothing fails. -/
def Quiet : Prop :=
  turn.after.failures = turn.before.failures

/-- Whether the statement has used a name for a symbol that was there before it. -/
def Uses (n : String) : Prop :=
  turn.after.UsesOutside turn.before.symbols n

/-- Whether the statement has used a name that is not its own and that another one declares. -/
def LooksFor (other : Turn) : Prop :=
  ∃ n ∈ other.stmt.declaredNames, n ≠ "_" ∧ turn.Uses n ∧ n ∉ turn.stmt.declaredNames

/-- How many symbols there are in front of the statement. -/
def start : Nat :=
  turn.before.symbols.declared.size

/-- How many symbols there are behind the statement. -/
def stop : Nat :=
  turn.after.symbols.declared.size

end Turn

/-! ## Later states -/

/-- Whether a state is the same as another one or comes from it by the checks of statements, as far as
    that can be told from what it holds. -/
def Later (s t : State) : Prop :=
  State.Grows { s with uses := [] } { t with uses := [] }

theorem Later.refl (s : State) : Later s s :=
  State.Grows.refl _

theorem Later.trans {s s₁ t : State} (first : Later s s₁) (second : Later s₁ t) : Later s t :=
  State.Grows.trans first second

/-- The names of a statement that has been used do not count for the scopes. -/
theorem Later.wellScoped {s t : State} (later : Later s t) (named : s.WellScoped) : t.WellScoped := by
  have started : State.WellScoped { s with uses := [] } := named
  have reached : State.WellScoped { t with uses := [] } := started.grows later
  exact reached

section Turn

variable {turn : Turn}

theorem Turn.later (turn : Turn) : Later turn.before turn.after :=
  grows_checkTopLevel turn.file turn.stmt turn.before

theorem Turn.Quiet.recorded (quiet : turn.Quiet) :
    (recorded (checkStmt { file := turn.file } turn.stmt)).Quiet
      { turn.before with tainted := false, uses := [] } turn.checked turn.after :=
  ⟨rfl, quiet⟩

/-- Where nothing fails the names that the statement declares are added. -/
theorem Turn.Quiet.adds (quiet : turn.Quiet) :
    State.AddsNames turn.stmt.declaredNames turn.before turn.after := by
  obtain ⟨a, s, checks, left⟩ := quiet.recorded.recorded_inv
  have added := checkStmt_addsNames { file := turn.file } turn.stmt _ turn.checked a s checks
  rw [left]
  exact ⟨added.free, added.held, added.others, added.outer⟩

end Turn

/-! ## Runs -/

/-- Whether turns follow each other from a state to another one. -/
inductive Turns : State → List Turn → State → Prop
  | nil (s : State) : Turns s [] s
  | cons (turn : Turn) {turns : List Turn} {t : State} (rest : Turns turn.after turns t) :
    Turns turn.before (turn :: turns) t

namespace Turns

variable {s t : State} {turns : List Turn} {turn : Turn} {n : String} {id : SymbolId}

theorem later (run : Turns s turns t) : Later s t := by
  induction run with
  | nil => exact .refl _
  | cons turn _ hypothesis => exact turn.later.trans hypothesis

/-- A turn stands between those in front of it and those behind it. -/
theorem split (run : Turns s turns t) (member : turn ∈ turns) : ∃ front behind,
    turns = front ++ turn :: behind ∧ Turns s front turn.before ∧ Turns turn.after behind t := by
  induction run with
  | nil => cases member
  | cons first rest hypothesis =>
    rcases List.mem_cons.mp member with rfl | member
    · exact ⟨[], _, rfl, .nil _, rest⟩
    · obtain ⟨front, behind, rfl, before, after⟩ := hypothesis member
      exact ⟨first :: front, behind, rfl, .cons first before, after⟩

theorem later_before (run : Turns s turns t) (member : turn ∈ turns) : Later s turn.before := by
  obtain ⟨front, behind, -, before, -⟩ := run.split member
  exact before.later

theorem after_later (run : Turns s turns t) (member : turn ∈ turns) : Later turn.after t := by
  obtain ⟨front, behind, -, -, after⟩ := run.split member
  exact after.later

/-- What a turn leaves behind is there in all later ones. -/
theorem pairwise_later (run : Turns s turns t) :
    turns.Pairwise fun earlier later => Later earlier.after later.before := by
  induction run with
  | nil => exact .nil
  | cons _ rest hypothesis =>
    exact .cons (fun _ member => rest.later_before member) hypothesis

/-- If nothing fails in the whole run, nothing fails in any of the turns. -/
theorem quiet_of_failures (run : Turns s turns t) (same : t.failures = s.failures)
    (member : turn ∈ turns) : turn.Quiet := by
  have before : s.failures <+: turn.before.failures := (run.later_before member).failures
  have during : turn.before.failures <+: turn.after.failures := turn.later.failures
  have behind : turn.after.failures <+: t.failures := (run.after_later member).failures
  rw [same] at behind
  exact (during.eq_of_length_le (Nat.le_trans behind.length_le before.length_le)).symm

section Quiet

variable (run : Turns s turns t) (quiet : ∀ turn ∈ turns, turn.Quiet)

include run quiet

/-- A name at the top was there before, or is declared by one of the statements. -/
theorem declared_of_find? (found : t.scopes.inner.find? n = some id) :
    s.scopes.inner.find? n = some id ∨ (n ≠ "_" ∧ ∃ turn ∈ turns, n ∈ turn.stmt.declaredNames) := by
  induction run with
  | nil => exact Or.inl found
  | cons turn rest hypothesis =>
    obtain ⟨here, others⟩ := List.forall_mem_cons.mp quiet
    rcases hypothesis others found with before | ⟨plain, turn', member, declares⟩
    · by_cases other : n ∉ turn.stmt.declaredNames ∨ n = "_"
      · exact Or.inl ((here.adds.others n other).symm.trans before)
      · rw [not_or, not_not] at other
        exact Or.inr ⟨other.2, turn, List.mem_cons_self, other.1⟩
    · exact Or.inr ⟨plain, turn', List.mem_cons_of_mem _ member, declares⟩

/-- No statement declares the blank. -/
theorem find?_blank (absent : s.scopes.find? "_" = none) : t.scopes.find? "_" = none := by
  rw [ScopeStack.find?_eq, Option.or_eq_none_iff] at absent ⊢
  have outer : t.scopes.outer = s.scopes.outer := run.later.outer
  refine ⟨?_, outer ▸ absent.2⟩
  by_contra found
  obtain ⟨id, found⟩ := Option.ne_none_iff_exists'.mp found
  rcases run.declared_of_find? quiet found with before | ⟨plain, -⟩
  · cases absent.1.symm.trans before
  · exact plain rfl

/-- Nothing fails in the whole run. -/
theorem failures_eq : t.failures = s.failures := by
  induction run with
  | nil => rfl
  | cons turn _ hypothesis =>
    obtain ⟨here, others⟩ := List.forall_mem_cons.mp quiet
    exact (hypothesis others).trans here

/-- A name that one of the statements declares is there in the end. -/
theorem isSome_find? (member : turn ∈ turns) (declares : n ∈ turn.stmt.declaredNames)
    (plain : n ≠ "_") : (t.scopes.inner.find? n).isSome := by
  obtain ⟨id, held⟩ := Option.isSome_iff_exists.mp ((quiet turn member).adds.held n declares plain)
  exact Option.isSome_iff_exists.mpr ⟨id, (run.after_later member).inner n id held⟩

end Quiet

end Turns

/-! ## Turns of different statements -/

/-- Whether two turns declare different symbols and, but for the blank, different names. -/
structure Turn.Apart (turn turn' : Turn) : Prop where
  symbols : turn.stop ≤ turn'.start ∨ turn'.stop ≤ turn.start
  names : ∀ n ∈ turn.stmt.declaredNames, n ∈ turn'.stmt.declaredNames → n = "_"

theorem Turn.Apart.symm {turn turn' : Turn} (apart : turn.Apart turn') : turn'.Apart turn :=
  ⟨apart.symbols.symm, fun n declares declares' => apart.names n declares' declares⟩

/-- No statement can declare the name of another one. -/
theorem Turns.pairwise_apart {s t : State} {turns : List Turn} (run : Turns s turns t)
    (quiet : ∀ turn ∈ turns, turn.Quiet) : turns.Pairwise Turn.Apart := by
  refine run.pairwise_later.imp_of_mem fun {turn turn'} member member' later => ?_
  refine ⟨Or.inl later.symbols.size, fun n declares declares' => ?_⟩
  by_contra plain
  obtain ⟨id, held⟩ := Option.isSome_iff_exists.mp ((quiet turn member).adds.held n declares plain)
  have free := (quiet turn' member').adds.free n declares' plain
  cases (later.inner n id held).symm.trans free

/-! ## Places -/

/-- The check of the statements at different places, as turns. -/
theorem exists_turns : ∀ {refs : List StmtRef} {files : List SourceFile} {s : State}, refs.Nodup →
    (∀ ref ∈ refs, (stmtAt? files ref).isSome) → ∃ turns,
      Turns s turns (checkEach files refs s).2.1 ∧ turns.map (·.ref) = refs ∧
        (checkEach files refs s).2.2 =
          turns.map (fun turn => (turn.ref, usesOutside turn.before turn.after)) ∧
        ∀ turn ∈ turns, stmtAt? files turn.ref = some (turn.file, turn.stmt) ∧
          stmtAt? (checkEach files refs s).1 turn.ref = some (turn.file, turn.checked)
  | [], files, s, _, _ => ⟨[], .nil s, rfl, rfl, nofun⟩
  | ref :: rest, files, s, distinct, held => by
    obtain ⟨apart, distinct⟩ := List.nodup_cons.mp distinct
    obtain ⟨here, others⟩ := List.forall_mem_cons.mp held
    obtain ⟨⟨file, stmt⟩, found⟩ := Option.isSome_iff_exists.mp here
    have elsewhere : ∀ other ∈ rest, ∀ checked : Stmt,
        stmtAt? (setStmt files ref checked) other = stmtAt? files other := by
      intro other member checked
      exact stmtAt?_setStmt_of_ne checked fun same => apart (same ▸ member)
    have first := stmtAt?_checkEach_self s apart found
    rw [checkEach_of_some rest s found] at first ⊢
    dsimp only at first ⊢
    obtain ⟨turns, run, refs, uses, placed⟩ := exists_turns distinct fun other member =>
      (elsewhere other member ((checkTopLevel file stmt).run s).1).symm ▸ others other member
    refine ⟨⟨ref, file, stmt, s⟩ :: turns, .cons ⟨ref, file, stmt, s⟩ run, ?_, ?_, ?_⟩
    · rw [List.map_cons, refs]
    · exact congrArg (_ :: ·) uses
    · refine List.forall_mem_cons.mpr ⟨⟨found, first⟩, fun turn member => ?_⟩
      have listed : turn.ref ∈ rest := refs ▸ List.mem_map_of_mem member
      obtain ⟨before, after⟩ := placed turn member
      exact ⟨(elsewhere _ listed _).symm.trans before, after⟩

/-! ## Top-level statements -/

theorem topLevels_bare (name : String) (files : List SourceFile) :
    (ofFiles name (files.map SourceFile.bare)).topLevels = (ofFiles name files).topLevels := by
  have file : ∀ (file : SourceFile) (i : Nat),
      fileTopLevels name file.bare i = fileTopLevels name file i := by
    intro file i
    unfold fileTopLevels
    rw [SourceFile.bare, SourceFile.erase]
    dsimp only
    rw [Stmt.eraseList_eq_map, List.zipIdx_map, List.map_map]
    congr 1
    exact List.map_congr_left fun place _ => ofStmt_erase ⟨i, place.2⟩ place.1
  change ((files.map SourceFile.bare).zipIdx.flatMap fun place => fileTopLevels name place.1 place.2) = _
  rw [List.zipIdx_map, List.flatMap_map]
  exact List.flatMap_congr fun place _ => file place.1 place.2

theorem topLevels_prepare (package : Package) : package.prepare.topLevels = package.topLevels := by
  have same := topLevels_bare package.name package.prepare.files
  rw [show package.prepare.files.map SourceFile.bare = package.files.map SourceFile.bare from
    SourceFile.bare_numberList package.files 0, topLevels_bare] at same
  exact same.symm

/-- The statements in the files that belong to a package. -/
def ownStatements (package : Package) : List Stmt :=
  package.files.flatMap fun file => if file.package = package.name then file.body else []

/-- Whether a statement is the one at the place of a top-level statement, with the same names. -/
def StandsAt (files : List SourceFile) (s : Stmt) (top : TopLevel) : Prop :=
  (∃ file, stmtAt? files top.ref = some (file, s)) ∧ top = .ofStmt top.ref s

theorem standsAt_fileTopLevels (name : String) {files : List SourceFile} {file : SourceFile} {i : Nat}
    (place : files[i]? = some file) : List.Forall₂ (StandsAt files)
      (if file.package = name then file.body else []) (fileTopLevels name file i) := by
  unfold fileTopLevels
  split
  case isTrue =>
    rw [List.forall₂_map_right_iff]
    conv => arg 2; rw [← List.zipIdx_map_fst 0 file.body]
    rw [List.forall₂_map_left_iff]
    refine List.forall₂_same.mpr fun entry member => ⟨⟨file.name, ?_⟩, rfl⟩
    simp [stmtAt?, TopLevel.ofStmt, place, List.mem_zipIdx_iff_getElem?.mp member]
  case isFalse => exact .nil

/-- The top-level statements are the statements in the files of the package. -/
theorem standsAt_topLevels (package : Package) :
    List.Forall₂ (StandsAt package.files) package.ownStatements package.topLevels := by
  have places : package.ownStatements = package.files.zipIdx.flatMap fun place =>
      if place.1.package = package.name then place.1.body else [] := by
    conv => lhs; rw [ownStatements, ← List.zipIdx_map_fst 0 package.files]
    exact List.flatMap_map ..
  rw [places]
  refine List.rel_flatMap (R := fun place place' => place ∈ package.files.zipIdx ∧ place = place')
    (List.forall₂_same.mpr fun _ member => ⟨member, rfl⟩) ?_
  rintro place _ ⟨member, rfl⟩
  exact standsAt_fileTopLevels package.name (List.mem_zipIdx_iff_getElem?.mp member)

theorem exists_standsAt {package : Package} {top : TopLevel} (member : top ∈ package.topLevels) :
    ∃ s, StandsAt package.files s top := by
  have all := package.standsAt_topLevels
  generalize package.ownStatements = statements, package.topLevels = tops at all member
  induction all with
  | nil => cases member
  | cons first _ hypothesis =>
    rcases List.mem_cons.mp member with rfl | member
    · exact ⟨_, first⟩
    · exact hypothesis member

/-- Top-level statements are known by their places. -/
theorem eq_of_standsAt {files : List SourceFile} : ∀ {tops tops' : List TopLevel},
    (∀ top ∈ tops, ∃ s, StandsAt files s top) → (∀ top ∈ tops', ∃ s, StandsAt files s top) →
      tops.map (·.ref) = tops'.map (·.ref) → tops = tops'
  | [], [], _, _, _ => rfl
  | [], _ :: _, _, _, refs => by cases refs
  | _ :: _, [], _, _, refs => by cases refs
  | top :: rest, top' :: rest', placed, placed', refs => by
    obtain ⟨⟨s, ⟨file, found⟩, top_eq⟩, others⟩ := List.forall_mem_cons.mp placed
    obtain ⟨⟨s', ⟨file', found'⟩, top'_eq⟩, others'⟩ := List.forall_mem_cons.mp placed'
    obtain ⟨same, refs⟩ := List.cons.inj refs
    dsimp only at same
    rw [same] at found top_eq
    cases found.symm.trans found'
    rw [top_eq, ← top'_eq, eq_of_standsAt others others' refs]

/-! ## The turns of a package -/

/-- A statement with the names it declares and needs. -/
def Turn.top (turn : Turn) : TopLevel :=
  .ofStmt turn.ref turn.stmt

/-- Whether the check of a package consists of some turns. -/
structure TakesTurns (package : Package) (turns : List Turn) : Prop where
  ordered : Dependency.order (·.declares) TopLevel.refersTo package.prepare.topLevels =
    .ok (turns.map Turn.top)
  placed : ∀ turn ∈ turns, stmtAt? package.prepare.files turn.ref = some (turn.file, turn.stmt)
  run : Turns package.prepare.initialState turns package.run.state
  uses : package.run.uses = turns.map fun turn => (turn.ref, usesOutside turn.before turn.after)
  diagnostics : package.run.diagnostics = if package.run.state.diagnostics.isEmpty then
    (turns.flatMap fun turn => turn.checked.leftOver turn.file) ++ package.run.state.symbols.leftOver
    else package.run.state.diagnostics

theorem leftOverAt_of_turns {files : List SourceFile} {refs : List StmtRef} {turns : List Turn}
    (listed : turns.map (·.ref) = refs)
    (held : ∀ turn ∈ turns, stmtAt? files turn.ref = some (turn.file, turn.checked)) :
    leftOverAt files refs = turns.flatMap fun turn => turn.checked.leftOver turn.file := by
  have found : turns.filterMap (stmtAt? files ∘ (·.ref)) =
      turns.map fun turn => (turn.file, turn.checked) := by
    rw [← List.filterMap_eq_map]
    exact List.filterMap_congr held
  rw [leftOverAt, ← listed, List.filterMap_map, found, List.flatMap_map]

/-- A package whose statements have an order is checked in turns. -/
theorem exists_takesTurns {package : Package} {sorted : List TopLevel}
    (ordered : Dependency.order (·.declares) TopLevel.refersTo package.prepare.topLevels =
      .ok sorted) : ∃ turns, package.TakesTurns turns := by
  have placed : ∀ top ∈ sorted, ∃ s, StandsAt package.prepare.files s top := fun top member =>
    exists_standsAt ((perm_of_order_eq_ok ordered).mem_iff.mp member)
  have there : ∀ ref ∈ sorted.map (·.ref), (stmtAt? package.prepare.files ref).isSome := by
    intro ref member
    obtain ⟨top, listed, rfl⟩ := List.mem_map.mp member
    obtain ⟨s, ⟨file, found⟩, -⟩ := placed top listed
    exact Option.isSome_iff_exists.mpr ⟨_, found⟩
  obtain ⟨turns, run, refs, uses, held⟩ :=
    @exists_turns _ _ package.prepare.initialState (distinct_order ordered) there
  have tops : turns.map Turn.top = sorted := by
    refine eq_of_standsAt (fun top member => ?_) placed ((List.map_map ..).trans refs)
    obtain ⟨turn, listed, rfl⟩ := List.mem_map.mp member
    exact ⟨turn.stmt, ⟨turn.file, (held turn listed).1⟩, rfl⟩
  refine ⟨turns, tops ▸ ordered, fun turn member => (held turn member).1, ?_, ?_, ?_⟩
  · rw [run_of_order_eq_ok ordered]
    exact run
  · rw [run_of_order_eq_ok ordered]
    exact uses
  · rw [run_of_order_eq_ok ordered,
      ← leftOverAt_of_turns refs fun turn member => (held turn member).2]
    exact diagnostics_checkOrdered _ _

namespace TakesTurns

variable {package : Package} {turns : List Turn} (takes : package.TakesTurns turns)

include takes

theorem perm : (turns.map Turn.top).Perm package.topLevels := by
  rw [← topLevels_prepare]
  exact perm_of_order_eq_ok takes.ordered

theorem mem_topLevels_iff {top : TopLevel} :
    top ∈ package.topLevels ↔ ∃ turn ∈ turns, turn.top = top := by
  rw [← takes.perm.mem_iff, List.mem_map]

/-- No two turns are of the same statement. -/
theorem nodup_refs : (turns.map (·.ref)).Nodup := by
  have distinct := distinct_order takes.ordered
  rwa [List.map_map] at distinct

/-- A package is accepted if nothing is reported in its turns, and nothing is left over behind them. -/
theorem accepted_iff : package.check.2 = [] ↔ package.run.state.diagnostics = [] ∧
    (∀ turn ∈ turns, LeavesNothing turn.checked.walk) ∧ package.run.state.symbols.leftOver = [] := by
  have left : (turns.flatMap fun turn => turn.checked.leftOver turn.file) = [] ↔
      ∀ turn ∈ turns, LeavesNothing turn.checked.walk := by
    rw [List.flatMap_eq_nil_iff]
    exact forall₂_congr fun _ _ => Stmt.leftOver_eq_nil_iff
  change package.run.diagnostics = [] ↔ _
  rw [takes.diagnostics, ← left, ← List.append_eq_nil_iff]
  by_cases silent : package.run.state.diagnostics = []
  · rw [if_pos (List.isEmpty_iff.mpr silent)]
    exact (and_iff_right silent).symm
  · rw [if_neg (mt List.isEmpty_iff.mp silent)]
    exact iff_of_false silent fun both => silent both.1

end TakesTurns

end PackageCheck.Package
