import Mathlib.Data.List.Nodup
import PackageCheck.Package
import PackageCheck.Proofs.Dependency.Order

/-! # The statements of a package

Where the top-level statements of a package are, and what becomes of them in a check: each is
checked once, and its place holds the checked statement afterwards. -/

namespace PackageCheck.Package

/-! ## Places -/

/-- The statement at a place, with the name of its file. -/
def stmtAt? (files : List SourceFile) (ref : StmtRef) : Option (String × Stmt) :=
  (files[ref.file]?).bind fun file => (file.body[ref.index]?).map (file.name, ·)

theorem stmtAt?_setStmt_of_ne {files : List SourceFile} {ref other : StmtRef} (s : Stmt)
    (apart : other ≠ ref) : stmtAt? (setStmt files ref s) other = stmtAt? files other := by
  obtain ⟨file, index⟩ := ref
  obtain ⟨file', index'⟩ := other
  simp only [stmtAt?, setStmt, List.getElem?_modify]
  by_cases same : file = file'
  · subst same
    have index_ne : index ≠ index' := fun same => apart (by rw [same])
    cases files[file]? <;> simp [List.getElem?_set_ne index_ne]
  · cases files[file']? <;> simp [same]

theorem stmtAt?_setStmt_self {files : List SourceFile} {ref : StmtRef} {name : String}
    {before : Stmt} (s : Stmt) (found : stmtAt? files ref = some (name, before)) :
    stmtAt? (setStmt files ref s) ref = some (name, s) := by
  obtain ⟨file, inFile, found⟩ := Option.bind_eq_some_iff.mp found
  obtain ⟨_, inBody, same⟩ := Option.map_eq_some_iff.mp found
  obtain ⟨bound, _⟩ := List.getElem?_eq_some_iff.mp inBody
  cases same
  simp [stmtAt?, setStmt, inFile, bound]

theorem orderedStatements_eq (package : Package) :
    package.orderedStatements.map (fun placed => (placed.1.name, placed.2)) =
      package.order.filterMap (stmtAt? package.files) := by
  rw [orderedStatements, List.map_filterMap]
  congr 1
  funext ref
  simp only [stmt?, stmtAt?]
  cases package.files[ref.file]? with
  | none => rfl
  | some file =>
    cases found : file.body[ref.index]? <;> simp [found]

/-! ## The order of a check -/

theorem nodup_zipIdx (items : List α) : (items.zipIdx.map (·.2)).Nodup := by
  rw [List.zipIdx_map_snd]
  exact List.nodup_range'

/-- The top-level statements of one file, which is at a place among the files of a package. -/
def fileTopLevels (name : String) (file : SourceFile) (i : Nat) : List TopLevel :=
  if file.package = name then file.body.zipIdx.map fun (s, j) => .ofStmt ⟨i, j⟩ s else []

theorem file_of_mem_fileTopLevels {name : String} {file : SourceFile} {i : Nat} {ref : StmtRef}
    (member : ref ∈ (fileTopLevels name file i).map (·.ref)) : ref.file = i := by
  unfold fileTopLevels at member
  split at member
  · simp only [List.map_map, List.mem_map] at member
    obtain ⟨_, -, rfl⟩ := member
    rfl
  · cases member

theorem nodup_fileTopLevels (name : String) (file : SourceFile) (i : Nat) :
    ((fileTopLevels name file i).map (·.ref)).Nodup := by
  unfold fileTopLevels
  split
  · have places := (nodup_zipIdx file.body).map (f := fun j => (⟨i, j⟩ : StmtRef))
      fun j j' same => (StmtRef.mk.inj same).2
    rw [List.map_map] at places ⊢
    exact places
  · exact List.nodup_nil

/-- No two top-level statements have the same place. -/
theorem nodup_topLevels (package : Package) : (package.topLevels.map (·.ref)).Nodup := by
  change ((package.files.zipIdx.flatMap fun place =>
    fileTopLevels package.name place.1 place.2).map (·.ref)).Nodup
  rw [List.map_flatMap, List.nodup_flatMap]
  refine ⟨fun place _ => nodup_fileTopLevels _ place.1 place.2, ?_⟩
  refine (List.pairwise_map.mp (nodup_zipIdx package.files)).imp fun {x y} apart => ?_
  intro ref member member'
  exact apart ((file_of_mem_fileTopLevels member).symm.trans (file_of_mem_fileTopLevels member'))

theorem perm_of_order_eq_ok {package : Package} {sorted : List TopLevel}
    (ordered : Dependency.order (·.declares) TopLevel.refersTo package.topLevels = .ok sorted) :
    sorted.Perm package.topLevels := by
  obtain ⟨places, _, perm, item⟩ := Dependency.order_greedy ordered
  have all := (perm.map (package.topLevels[·]?)).trans
    (List.Perm.of_eq (Dependency.map_getElem?_range package.topLevels))
  rw [← item] at all
  simpa [List.filterMap_map] using all.filterMap id

/-! ## Checked statements -/

theorem checkEach_of_none {files : List SourceFile} {ref : StmtRef} (rest : List StmtRef)
    (state : Typing.State) (missing : stmtAt? files ref = none) :
    checkEach files (ref :: rest) state = checkEach files rest state := by
  rw [checkEach]
  split
  case h_1 => rfl
  case h_2 found => cases missing.symm.trans found

theorem checkEach_of_some {files : List SourceFile} {ref : StmtRef} {name : String} {s : Stmt}
    (rest : List StmtRef) (before : Typing.State) (found : stmtAt? files ref = some (name, s)) :
    checkEach files (ref :: rest) before =
      let checked := (Typing.checkTopLevel name s).run before
      let later := checkEach (setStmt files ref checked.1) rest checked.2
      (later.1, later.2.1, (ref, usesOutside before checked.2) :: later.2.2) := by
  rw [checkEach]
  split
  case h_1 missing => cases found.symm.trans missing
  case h_2 found' =>
    cases found.symm.trans found'
    rfl

/-- A check leaves the statements at other places alone. -/
theorem stmtAt?_checkEach_of_notMem {ref : StmtRef} : ∀ {refs : List StmtRef}
    {files : List SourceFile} {state : Typing.State}, ref ∉ refs →
      stmtAt? (checkEach files refs state).1 ref = stmtAt? files ref
  | [], files, state, _ => rfl
  | other :: rest, files, state, apart => by
    have ⟨ne, apart⟩ : ref ≠ other ∧ ref ∉ rest := by simpa using apart
    cases found : stmtAt? files other with
    | none =>
      rw [checkEach_of_none rest state found]
      exact stmtAt?_checkEach_of_notMem apart
    | some at_ =>
      obtain ⟨name, s⟩ := at_
      rw [checkEach_of_some rest state found]
      exact (stmtAt?_checkEach_of_notMem apart).trans (stmtAt?_setStmt_of_ne _ ne)

/-- Checking a statement adds to the state, but for the uses, which are those of the statement. -/
theorem grows_checkTopLevel (file : String) (s : Stmt) (before : Typing.State) :
    Typing.State.Grows { before with uses := [] }
      { ((Typing.checkTopLevel file s).run before).2 with uses := [] } := by
  have grows := (Typing.recorded (Typing.checkStmt { file := file } s)).grows
    { before with tainted := false, uses := [] }
  exact { grows with uses := List.suffix_refl _ }

theorem grows_checkEach : ∀ {refs : List StmtRef} {files : List SourceFile}
    {state : Typing.State}, Typing.State.Grows { state with uses := [] }
      { (checkEach files refs state).2.1 with uses := [] }
  | [], files, state => .refl _
  | ref :: rest, files, state => by
    cases found : stmtAt? files ref with
    | none =>
      rw [checkEach_of_none rest state found]
      exact grows_checkEach
    | some place =>
      rw [checkEach_of_some rest state found]
      exact (grows_checkTopLevel _ _ state).trans grows_checkEach

/-- Failures are never taken back, so if nothing fails in some statements then nothing fails in the
    first one. -/
theorem failures_checkTopLevel {name : String} {s : Stmt} {before : Typing.State}
    {refs : List StmtRef} {files : List SourceFile}
    (unchanged : (checkEach files refs ((Typing.checkTopLevel name s).run before).2).2.1.failures =
      before.failures) :
    ((Typing.checkTopLevel name s).run before).2.failures = before.failures := by
  have first : before.failures <+: ((Typing.checkTopLevel name s).run before).2.failures :=
    (grows_checkTopLevel name s before).failures
  have others := (@grows_checkEach refs files ((Typing.checkTopLevel name s).run before).2).failures
  exact (first.eq_of_length_le (unchanged ▸ others.length_le)).symm

/-! ## Accepted packages -/

theorem run_of_order_eq_ok {package : Package} {sorted : List TopLevel}
    (ordered : Dependency.order (·.declares) TopLevel.refersTo package.prepare.topLevels =
      .ok sorted) : package.run = package.prepare.checkOrdered (sorted.map (·.ref)) := by
  dsimp only [run]
  rw [ordered]

theorem run_of_order_eq_error {package : Package} {names : List String}
    (cyclic : Dependency.order (·.declares) TopLevel.refersTo package.prepare.topLevels =
      .error names) : package.run = ⟨package.prepare,
        package.prepare.mismatches ++ [.dependencyCycle names], package.prepare.initialState, []⟩ := by
  dsimp only [run]
  rw [cyclic]

/-- What a check of statements in some order must come to if the package is accepted. -/
structure Accepts (package : Package) (order : List StmtRef) : Prop where
  nothing_reported : (checkEach package.files order package.initialState).2.1.diagnostics = []
  nothing_left : validate
    (order.filterMap (stmtAt? (checkEach package.files order package.initialState).1))
    (checkEach package.files order package.initialState).2.1.symbols = []

theorem checkOrdered_diagnostics_eq_nil {package : Package} {order : List StmtRef} :
    (package.checkOrdered order).diagnostics = [] ↔ package.Accepts order := by
  have statements := orderedStatements_eq (package.checkOrdered order).package
  dsimp only [checkOrdered] at statements ⊢
  rw [statements]
  constructor
  · intro nothing
    split at nothing
    case isTrue empty => exact ⟨List.isEmpty_iff.mp empty, nothing⟩
    case isFalse full => simp [nothing] at full
  · rintro ⟨reported, left⟩
    rw [if_pos (List.isEmpty_iff.mpr reported)]
    exact left

/-- A package is accepted if its statements have an order in which their check comes to nothing
    wrong. -/
theorem accepted_iff {package : Package} : package.check.2 = [] ↔
    ∃ sorted, Dependency.order (·.declares) TopLevel.refersTo package.prepare.topLevels =
      .ok sorted ∧ package.prepare.Accepts (sorted.map (·.ref)) := by
  cases ordered : Dependency.order (·.declares) TopLevel.refersTo package.prepare.topLevels with
  | error names => simp [check, run, ordered]
  | ok sorted =>
    rw [check, run_of_order_eq_ok ordered, checkOrdered_diagnostics_eq_nil]
    simp

end PackageCheck.Package
