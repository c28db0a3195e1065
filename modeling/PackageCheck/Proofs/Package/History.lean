import PackageCheck.Proofs.Package.Failure
import PackageCheck.Proofs.Package.Statements
import PackageCheck.Proofs.Typing.Annotations
import PackageCheck.Tree.Make

/-! # Checking again

A check starts from scratch: what earlier checks have left in the files of a package decides
neither the order of the statements nor what is declared, nor which errors are found. It decides
the validation of a package only where a form of variables has lost its error, because the form may
have been checked in part. -/

namespace PackageCheck.Package

open Typing

/-! ## Sessions -/

/-- What can be done with a package. -/
inductive Step where
  /-- Any change to the files. -/
  | edit (change : List SourceFile → List SourceFile)
  | check

/-- The package behind a step. -/
def Step.apply (package : Package) : Step → Package
  | .edit change => { package with files := change package.files }
  | .check => package.check.1

/-- The package behind some steps. -/
def after (package : Package) (session : List Step) : Package :=
  session.foldl Step.apply package

/-- The package as it was written: no file of it has been checked. -/
def bare (package : Package) : Package :=
  .ofFiles package.name (package.files.map SourceFile.bare)

/-! ## What does not depend on annotations -/

theorem freeNames_erase {renumber : StmtId → StmtId} (s : Stmt) :
    Dependency.freeNames (s.erase renumber) = Dependency.freeNames s := by
  have step : ∀ (own : List String) (collector : Dependency.Collector) (event : Event),
      collector.step own (event.erase renumber) = collector.step own event := by
    intro own collector event
    cases event <;> rfl
  simp only [Dependency.freeNames, Stmt.walk_erase, Stmt.declaredNames_erase, List.foldl_map, step]

theorem ofStmt_erase {renumber : StmtId → StmtId} (ref : StmtRef) (s : Stmt) :
    TopLevel.ofStmt ref (s.erase renumber) = TopLevel.ofStmt ref s := by
  rw [TopLevel.ofStmt, freeNames_erase, Stmt.declaredNames_erase]
  rfl

/-- The package with everything erased but the numbers of the statements. -/
def erased (package : Package) : Package :=
  { package with files := package.files.map (SourceFile.erase id) }

theorem fileTopLevels_erase (name : String) (file : SourceFile) (i : Nat) :
    fileTopLevels name (file.erase id) i = fileTopLevels name file i := by
  unfold fileTopLevels
  rw [SourceFile.erase]
  dsimp only
  rw [Stmt.eraseList_eq_map, List.zipIdx_map, List.map_map]
  congr 1
  exact List.map_congr_left fun place _ => ofStmt_erase ⟨i, place.2⟩ place.1

theorem topLevels_erased (package : Package) : package.erased.topLevels = package.topLevels := by
  change ((package.files.map (SourceFile.erase id)).zipIdx.flatMap fun place =>
    fileTopLevels package.name place.1 place.2) = _
  rw [List.zipIdx_map, List.flatMap_map]
  exact List.flatMap_congr fun place _ => fileTopLevels_erase package.name place.1 place.2

theorem mismatches_erased (package : Package) : package.erased.mismatches = package.mismatches := by
  rw [mismatches, erased, List.filterMap_map]
  rfl

theorem initialState_erased (package : Package) :
    package.erased.initialState = package.initialState := by
  rw [initialState, mismatches_erased]
  rfl

/-- Numbering takes the same numbers for a package as it was written. -/
theorem prepare_bare (package : Package) : package.bare.prepare = package.prepare.erased := by
  have numbered : SourceFile.numberList (package.files.map SourceFile.bare) =
      List.map (SourceFile.erase id) <$> SourceFile.numberList package.files :=
    SourceFile.number_eraseList package.files
  change ofFiles package.name
    ((SourceFile.numberList (package.files.map SourceFile.bare)).run 0).1 = _
  rw [numbered]
  rfl

theorem stmtAt?_erased (files : List SourceFile) (ref : StmtRef) :
    stmtAt? (files.map (SourceFile.erase id)) ref =
      (stmtAt? files ref).map fun placed => (placed.1, placed.2.erase id) := by
  simp only [stmtAt?, List.getElem?_map]
  cases files[ref.file]? with
  | none => rfl
  | some file =>
    simp only [Option.map_some, Option.bind_some, SourceFile.erase, Stmt.eraseList_eq_map,
      List.getElem?_map, Option.map_map]
    rfl

/-! ## Checks that agree -/

theorem checkTopLevel_agrees {well : Bool} (file : String) (s : Stmt) (before : Typing.State)
    (went : well = true → ((checkTopLevel file s).run before).2.failures = before.failures) :
    ((checkTopLevel file (s.erase id)).run before).2 = ((checkTopLevel file s).run before).2 ∧
      LeftAlike Stmt.walk well ((checkTopLevel file s).run before).1
        ((checkTopLevel file (s.erase id)).run before).1 := by
  have agrees : (recorded (checkStmt { file := file } s)).Agrees well
      (recorded (checkStmt { file := file } (s.erase id))) (LeftAlike (fun s => s.form.walk) well) :=
    (checkStmt_agrees { file := file } s).recorded
  obtain ⟨same, related⟩ := agrees { before with tainted := false, uses := [] } went
  exact ⟨same, fun quiet => Stmt.sameLeft_walk (related quiet)⟩

/-- Whether validation finds the same statement at a place, in a run that goes well. -/
def PlacedAlike (well : Bool) : Option (String × Stmt) → Option (String × Stmt) → Prop :=
  Option.Rel fun placed placed' => placed'.1 = placed.1 ∧
    LeftAlike Stmt.walk well placed.2 placed'.2

/-- The statements at places are checked as they were written, and each place comes once. -/
theorem checkEach_agrees {well : Bool} : ∀ {refs : List StmtRef} {files files' : List SourceFile}
    {state : Typing.State}, refs.Nodup →
      (∀ ref ∈ refs, stmtAt? files' ref =
        (stmtAt? files ref).map fun placed => (placed.1, placed.2.erase id)) →
      (well = true → (checkEach files refs state).2.1.failures = state.failures) →
        (checkEach files' refs state).2 = (checkEach files refs state).2 ∧
          ∀ ref ∈ refs, PlacedAlike well (stmtAt? (checkEach files refs state).1 ref)
            (stmtAt? (checkEach files' refs state).1 ref)
  | [], files, files', state, _, _, _ => ⟨rfl, nofun⟩
  | ref :: rest, files, files', state, distinct, written, went => by
    obtain ⟨apart, distinct⟩ := List.nodup_cons.mp distinct
    obtain ⟨here, others⟩ := List.forall_mem_cons.mp written
    cases found : stmtAt? files ref with
    | none =>
      have missing : stmtAt? files' ref = none := by rw [here, found]; rfl
      rw [checkEach_of_none rest state found] at went ⊢
      rw [checkEach_of_none rest state missing]
      have absent : stmtAt? (checkEach files rest state).1 ref = none :=
        (stmtAt?_checkEach_of_notMem apart).trans found
      have absent' : stmtAt? (checkEach files' rest state).1 ref = none :=
        (stmtAt?_checkEach_of_notMem apart).trans missing
      obtain ⟨states, placed⟩ := checkEach_agrees distinct others went
      refine ⟨states, List.forall_mem_cons.mpr ⟨?_, placed⟩⟩
      rw [absent, absent']
      exact .none
    | some place =>
      obtain ⟨name, s⟩ := place
      have found' : stmtAt? files' ref = some (name, s.erase id) := by rw [here, found]; rfl
      rw [checkEach_of_some rest state found] at went ⊢
      rw [checkEach_of_some rest state found']
      dsimp only at went ⊢
      obtain ⟨same, left⟩ := checkTopLevel_agrees name s state
        fun quiet => failures_checkTopLevel (went quiet)
      rw [same]
      generalize checked : (checkTopLevel name s).run state = first at *
      generalize (checkTopLevel name (s.erase id)).run state = first' at *
      have behind : ∀ other ∈ rest, stmtAt? (setStmt files' ref first'.1) other =
          (stmtAt? (setStmt files ref first.1) other).map fun placed =>
            (placed.1, placed.2.erase id) := by
        intro other member
        have elsewhere : other ≠ ref := fun same => apart (same ▸ member)
        rw [stmtAt?_setStmt_of_ne _ elsewhere, stmtAt?_setStmt_of_ne _ elsewhere]
        exact others other member
      have unchanged : well = true →
          (checkEach (setStmt files ref first.1) rest first.2).2.1.failures = first.2.failures := by
        intro quiet
        subst checked
        exact (went quiet).trans (failures_checkTopLevel (went quiet)).symm
      obtain ⟨states, placed⟩ := checkEach_agrees distinct behind unchanged
      have here : stmtAt? (checkEach (setStmt files ref first.1) rest first.2).1 ref =
          some (name, first.1) :=
        (stmtAt?_checkEach_of_notMem apart).trans (stmtAt?_setStmt_self first.1 found)
      have here' : stmtAt? (checkEach (setStmt files' ref first'.1) rest first.2).1 ref =
          some (name, first'.1) :=
        (stmtAt?_checkEach_of_notMem apart).trans (stmtAt?_setStmt_self first'.1 found')
      refine ⟨by rw [states], List.forall_mem_cons.mpr ⟨?_, placed⟩⟩
      rw [here, here']
      exact .some ⟨rfl, left⟩

/-- What validation finds left over in the statements at some places. -/
def leftOverAt (files : List SourceFile) (refs : List StmtRef) : List Diagnostic :=
  (refs.filterMap (stmtAt? files)).flatMap fun placed => placed.2.leftOver placed.1

/-- Validation finds the same left over in the same statements. -/
theorem leftOverAt_eq {files files' : List SourceFile} {refs : List StmtRef}
    (placed : ∀ ref ∈ refs, PlacedAlike true (stmtAt? files ref) (stmtAt? files' ref)) :
    leftOverAt files refs = leftOverAt files' refs := by
  induction refs with
  | nil => rfl
  | cons ref rest hypothesis =>
    obtain ⟨here, others⟩ := List.forall_mem_cons.mp placed
    have behind := hypothesis others
    unfold leftOverAt at behind ⊢
    rw [List.filterMap_cons, List.filterMap_cons]
    generalize stmtAt? files ref = found at here ⊢
    generalize stmtAt? files' ref = found' at here ⊢
    cases here with
    | none => exact behind
    | some alike =>
      obtain ⟨name, left⟩ := alike
      dsimp only
      rw [List.flatMap_cons, List.flatMap_cons, behind, Stmt.leftOver, Stmt.leftOver,
        (left rfl).leftOver, name]

/-! ## Runs -/

/-- What is found out about a package besides its annotated files. -/
structure Run.Same (run run' : Run) : Prop where
  order : run'.package.order = run.package.order
  symbols : run'.package.symbols = run.package.symbols
  scopes : run'.package.scopes = run.package.scopes
  state : run'.state = run.state

theorem diagnostics_checkOrdered (package : Package) (refs : List StmtRef) :
    (package.checkOrdered refs).diagnostics =
      if (checkEach package.files refs package.initialState).2.1.diagnostics.isEmpty then
        leftOverAt (checkEach package.files refs package.initialState).1 refs ++
          (checkEach package.files refs package.initialState).2.1.symbols.leftOver
      else (checkEach package.files refs package.initialState).2.1.diagnostics := by
  have statements := orderedStatements_eq (package.checkOrdered refs).package
  dsimp only [checkOrdered] at statements ⊢
  rw [statements]
  rfl

theorem checkEach_erased (well : Bool) {package : Package} {refs : List StmtRef}
    (distinct : refs.Nodup) (went : well = true →
      (checkEach package.files refs package.initialState).2.1.failures =
        package.initialState.failures) :
    (checkEach package.erased.files refs package.erased.initialState).2 =
        (checkEach package.files refs package.initialState).2 ∧
      ∀ ref ∈ refs, PlacedAlike well
        (stmtAt? (checkEach package.files refs package.initialState).1 ref)
        (stmtAt? (checkEach package.erased.files refs package.erased.initialState).1 ref) := by
  rw [initialState_erased]
  exact checkEach_agrees distinct (fun ref _ => stmtAt?_erased package.files ref) went

theorem states_checkEach_erased {package : Package} {refs : List StmtRef} (distinct : refs.Nodup) :
    (checkEach package.erased.files refs package.erased.initialState).2 =
      (checkEach package.files refs package.initialState).2 :=
  (checkEach_erased false distinct fun well => absurd well Bool.false_ne_true).1

theorem same_checkOrdered_erased {package : Package} {refs : List StmtRef}
    (distinct : refs.Nodup) : (package.checkOrdered refs).Same (package.erased.checkOrdered refs) := by
  have same := @states_checkEach_erased package refs distinct
  exact ⟨rfl, congrArg (·.1.symbols) same, congrArg (·.1.scopes) same, congrArg (·.1) same⟩

/-- Either there are errors to report, or nothing at all has failed and validation finds the same. -/
theorem diagnostics_checkOrdered_erased {package : Package} {refs : List StmtRef}
    (distinct : refs.Nodup) (kept : (package.checkOrdered refs).state.diagnostics ≠ [] ∨
      (package.checkOrdered refs).state.failures = []) :
    (package.erased.checkOrdered refs).diagnostics = (package.checkOrdered refs).diagnostics := by
  have kept : (checkEach package.files refs package.initialState).2.1.diagnostics ≠ [] ∨
    (checkEach package.files refs package.initialState).2.1.failures = [] := kept
  rw [diagnostics_checkOrdered, diagnostics_checkOrdered]
  rcases kept with reported | clean
  · have full : ¬ (checkEach package.files refs package.initialState).2.1.diagnostics.isEmpty = true := by
      simpa using reported
    rw [states_checkEach_erased distinct, if_neg full, if_neg full]
  · obtain ⟨same, placed⟩ := checkEach_erased true distinct fun _ => clean
    rw [same, leftOverAt_eq placed]

theorem distinct_order {package : Package} {sorted : List TopLevel}
    (ordered : Dependency.order (·.declares) TopLevel.refersTo package.topLevels = .ok sorted) :
    (sorted.map (·.ref)).Nodup :=
  ((perm_of_order_eq_ok ordered).map (·.ref)).nodup_iff.mpr (nodup_topLevels package)

/-- What is declared in a package, and in which order its statements are checked, depends on what
    was written alone, and so does what is reported of a package in which no error is lost. -/
theorem run_bare (package : Package) : package.run.Same package.bare.run ∧
    ((∀ failure ∈ package.run.state.failures, failure.lost = false) →
      package.bare.run.diagnostics = package.run.diagnostics) := by
  have accounted := package.run_accounted
  cases ordered : Dependency.order (·.declares) TopLevel.refersTo package.prepare.topLevels with
  | error names =>
    have ordered' := ordered
    rw [← topLevels_erased, ← prepare_bare] at ordered'
    rw [run_of_order_eq_error ordered, run_of_order_eq_error ordered', prepare_bare,
      mismatches_erased, initialState_erased]
    exact ⟨⟨rfl, rfl, rfl, rfl⟩, fun _ => rfl⟩
  | ok sorted =>
    have ordered' := ordered
    rw [← topLevels_erased, ← prepare_bare] at ordered'
    have distinct := distinct_order ordered
    rw [run_of_order_eq_ok ordered] at accounted ⊢
    rw [run_of_order_eq_ok ordered', prepare_bare]
    refine ⟨same_checkOrdered_erased distinct, fun kept => ?_⟩
    apply diagnostics_checkOrdered_erased distinct
    rcases accounted with (reported | ⟨failure, member, lost⟩) | clean
    · exact Or.inl reported
    · rw [kept failure member] at lost
      cases lost
    · exact Or.inr clean.failures

/-! ## Every check of a session -/

theorem name_after (package : Package) (session : List Step) :
    (package.after session).name = package.name := by
  induction session generalizing package with
  | nil => rfl
  | cons step rest ih =>
    refine (ih _).trans ?_
    cases step with
    | edit change => rfl
    | check =>
      dsimp only [Step.apply, check, run]
      split <;> rfl

/-- The edits of the interface are steps. -/
theorem edit?_isStep {package edited : Package} {edit : Edit}
    (applied : package.edit? edit = some edited) :
    ∃ change, edited = Step.apply package (.edit change) := by
  have step : edited = { package with files := edited.files } := by
    cases edit with
    | pushFile file =>
      cases applied
      rfl
    | removeFile index =>
      simp only [edit?] at applied
      split at applied <;> cases applied
      rfl
    | _ =>
      obtain ⟨file, -, applied⟩ := Option.bind_eq_some_iff.mp applied
      obtain ⟨changed, -, same⟩ := Option.bind_eq_some_iff.mp applied
      cases same
      rfl
  exact ⟨fun _ => edited.files, step⟩

/-- A check in a session declares what the first check of a new package with the same files would,
    in the same order and with the same declarations marked as failed. It reports the same errors
    if none is lost. -/
theorem check_after_session (name : String) (files : List SourceFile) (session : List Step) :
    let package := (ofFiles name files).after session
    let written := ofFiles name (package.files.map SourceFile.bare)
    package.check.1.order = written.check.1.order ∧
      package.check.1.symbols = written.check.1.symbols ∧
        package.check.1.scopes = written.check.1.scopes ∧
          ((∀ failure ∈ package.run.state.failures, failure.lost = false) →
            package.check.2 = written.check.2) := by
  intro package written
  have same : package.bare = written := congrArg (ofFiles · _) (name_after _ session)
  obtain ⟨run, diagnostics⟩ := package.run_bare
  rw [same] at run diagnostics
  exact ⟨run.order.symm, run.symbols.symm, run.scopes.symm, fun kept => (diagnostics kept).symm⟩

/-- The file with `var y = x + 1` and `var x = 1`. -/
def sumOfNumbers : SourceFile :=
  ⟨"m.hv", "main",
    [.var "y" none (some (.ofForm (.binary .add (.name "x") (.literal .int "1")))),
     .var "x" none (some (.literal .int "1"))]⟩

/-- A check, and `var x = "s"` in the place of the second statement. -/
def textForNumber : List Step :=
  [.check, .edit (setStmt · ⟨0, 1⟩ (.var "x" none (some (.string "s"))))]

/-- The package at the end of this session. -/
def sumWithText : Package :=
  (ofFiles "main" [sumOfNumbers]).after textForNumber

/-- The next check does not take the sum for one of numbers any more. -/
theorem sumWithText_checked_again : sumWithText.check.2 ≠ [] ∧
    (∀ failure ∈ sumWithText.run.state.failures, failure.lost = false) ∧
      sumWithText.check.2 = (ofFiles "main" (sumWithText.files.map SourceFile.bare)).check.2 := by
  have refused : sumWithText.check.2 ≠ [] := by decide +kernel
  have kept : ∀ failure ∈ sumWithText.run.state.failures, failure.lost = false := by
    decide +kernel
  refine ⟨refused, kept, ?_⟩
  unfold sumWithText at kept ⊢
  exact (check_after_session "main" [sumOfNumbers] textForNumber).2.2.2 kept

/-- The package with `var x int = c, y = x + d` and `var c = 1, d = 1`, which is checked before
    `var c = "s", d = "s"` is put in the place of the second statement. -/
def sumInLostForm : Package :=
  let parts (value : Expr) : Stmt :=
    .ofForm (.var ⟨[.make "c" none (some value), .make "d" none (some value)], false⟩)
  (ofFiles "main" [⟨"m.hv", "main",
    [.ofForm (.var ⟨[.make "x" (some (.ofName "int")) (some (.name "c")),
      .make "y" none (some (.ofForm (.binary .add (.name "x") (.name "d"))))], false⟩),
     parts (.literal .int "1")]⟩]).after [.check, .edit (setStmt · ⟨0, 1⟩ (parts (.string "s")))]

/-- The form loses its error, and the sum keeps the type of the first check, which is all that
    validation asks for. As it was written it has none. -/
theorem sumInLostForm_accepted : sumInLostForm.check.2 = [] ∧
    (ofFiles "main" (sumInLostForm.files.map SourceFile.bare)).check.2 ≠ [] := by
  decide +kernel

end PackageCheck.Package
