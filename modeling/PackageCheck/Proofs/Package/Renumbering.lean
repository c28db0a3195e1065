import PackageCheck.Proofs.Package.History
import PackageCheck.Proofs.Ty.Place
import PackageCheck.Proofs.Typing.Followed

/-! # Packages with other numbers

Two packages whose statements are the same but for their numbers are checked alike: in the same
order, with the same diagnostics, and with the same names and symbols but for the numbers in the
symbols. Files of other packages play no part, so nothing is asked of their statements. -/

namespace PackageCheck

open Typing

variable {move : StmtId → StmtId}

/-! ## Statements -/

theorem Event.Moved.step {event event' : Event} (moved : Event.Moved move event event')
    (own : List String) (collector : Dependency.Collector) :
    collector.step own event' = collector.step own event := by
  cases moved <;> rfl

/-- The free names of a statement are not looked for in its numbers. -/
theorem Stmt.Moved.freeNames {s s' : Stmt} (moved : Stmt.Moved move s s') :
    Dependency.freeNames s' = Dependency.freeNames s := by
  have walks : ∀ {walk walk' : List Event}, WalkMoved move walk walk' →
      ∀ (own : List String) (collector : Dependency.Collector),
        walk'.foldl (Dependency.Collector.step own) collector =
          walk.foldl (Dependency.Collector.step own) collector := by
    intro walk walk' moved own
    induction moved with
    | nil => exact fun _ => rfl
    | cons first _ hypothesis =>
      intro collector
      rw [List.foldl_cons, List.foldl_cons, first.step, hypothesis]
  rw [Dependency.freeNames, Dependency.freeNames, moved.declaredNames,
    walks (Stmt.walk_moved moved)]

theorem Stmt.Moved.ofStmt {s s' : Stmt} (moved : Stmt.Moved move s s') (ref : StmtRef) :
    TopLevel.ofStmt ref s' = TopLevel.ofStmt ref s := by
  rw [TopLevel.ofStmt, TopLevel.ofStmt, moved.declaredNames, moved.freeNames]

/-- Whether two files are the same but for the numbers of their statements. If they belong to
    another package than the given one their statements may be any. -/
structure SourceFile.Moved (move : StmtId → StmtId) (own : String) (file file' : SourceFile) :
    Prop where
  name : file'.name = file.name
  package : file'.package = file.package
  body : file.package = own → List.Forall₂ (Stmt.Moved move) file.body file'.body

namespace Package

/-! ## Places -/

/-- Whether the same statement is at a place, but for its numbers, in a file of the same name. -/
def PlacedMoved (move : StmtId → StmtId) (placed placed' : String × Stmt) : Prop :=
  placed'.1 = placed.1 ∧ Stmt.Moved move placed.2 placed'.2

section Files

variable {name : String} {files files' : List SourceFile}

theorem mismatches_moved (moved : List.Forall₂ (SourceFile.Moved move name) files files') :
    (ofFiles name files').mismatches = (ofFiles name files).mismatches := by
  unfold mismatches ofFiles
  induction moved with
  | nil => rfl
  | cons first _ hypothesis =>
    dsimp only at hypothesis ⊢
    rw [List.filterMap_cons, List.filterMap_cons, first.package, first.name, hypothesis]

/-- Nothing is declared in the beginning, so there is nothing to renumber. -/
theorem initialState_moved (moved : List.Forall₂ (SourceFile.Moved move name) files files') :
    (ofFiles name files').initialState = (ofFiles name files).initialState.renumber move := by
  have empty : (ofFiles name files).symbols.renumber move = (ofFiles name files').symbols :=
    SymbolTable.renumber_empty move
  rw [initialState, initialState, mismatches_moved moved, State.renumber, empty]
  rfl

theorem fileTopLevels_moved {file file' : SourceFile}
    (moved : SourceFile.Moved move name file file') (i : Nat) :
    fileTopLevels name file' i = fileTopLevels name file i := by
  have bodies : ∀ {body body' : List Stmt}, List.Forall₂ (Stmt.Moved move) body body' → ∀ start,
      (body'.zipIdx start).map (fun place => TopLevel.ofStmt ⟨i, place.2⟩ place.1) =
        (body.zipIdx start).map fun place => TopLevel.ofStmt ⟨i, place.2⟩ place.1 := by
    intro body body' moved
    induction moved with
    | nil => exact fun _ => rfl
    | cons first _ hypothesis =>
      intro start
      simp only [List.zipIdx_cons, List.map_cons, first.ofStmt, hypothesis]
  unfold fileTopLevels
  rw [moved.package]
  split
  case isTrue own => exact bodies (moved.body own) 0
  case isFalse => rfl

theorem topLevels_moved (moved : List.Forall₂ (SourceFile.Moved move name) files files') :
    (ofFiles name files').topLevels = (ofFiles name files).topLevels := by
  have all : ∀ start,
      (files'.zipIdx start).flatMap (fun place => fileTopLevels name place.1 place.2) =
        (files.zipIdx start).flatMap fun place => fileTopLevels name place.1 place.2 := by
    induction moved with
    | nil => exact fun _ => rfl
    | cons first _ hypothesis =>
      intro start
      simp only [List.zipIdx_cons, List.flatMap_cons, fileTopLevels_moved first, hypothesis]
  exact all 0

/-- A statement that is checked stands in a file of the package. -/
theorem file_of_mem_topLevels {package : Package} {top : TopLevel}
    (member : top ∈ package.topLevels) :
    ∃ file, package.files[top.ref.file]? = some file ∧ file.package = package.name := by
  obtain ⟨⟨file, i⟩, inFiles, inside⟩ := List.mem_flatMap.mp member
  have place := List.mem_zipIdx_iff_getElem?.mp inFiles
  dsimp only at inside place
  split at inside
  · obtain ⟨⟨s, j⟩, -, rfl⟩ := List.mem_map.mp inside
    exact ⟨file, place, ‹_›⟩
  · cases inside

theorem placed_of_mem_topLevels (moved : List.Forall₂ (SourceFile.Moved move name) files files')
    {top : TopLevel} (member : top ∈ (ofFiles name files).topLevels) :
    Option.Rel (PlacedMoved move) (stmtAt? files top.ref) (stmtAt? files' top.ref) := by
  obtain ⟨file, (found : files[top.ref.file]? = some file), own⟩ := file_of_mem_topLevels member
  obtain ⟨file', found', same⟩ := exists_getElem?_of_forall₂ moved found
  have body := same.body own
  simp only [stmtAt?, found, found', Option.bind_some]
  cases inBody : file.body[top.ref.index]? with
  | none =>
    have length := body.length_eq
    have absent : file'.body[top.ref.index]? = none := by
      rw [List.getElem?_eq_none_iff] at inBody ⊢
      omega
    rw [absent]
    exact .none
  | some s =>
    obtain ⟨s', inBody', moved⟩ := exists_getElem?_of_forall₂ body inBody
    rw [inBody']
    exact .some ⟨same.name, moved⟩

end Files

/-! ## Checks -/

theorem checkTopLevel_follows {s s' : Stmt} (moved : Stmt.Moved move s s') (file : String)
    (before : Typing.State) :
    ((checkTopLevel file s').run (before.renumber move)).2 =
        ((checkTopLevel file s).run before).2.renumber move ∧
      Stmt.Moved move ((checkTopLevel file s).run before).1
        ((checkTopLevel file s').run (before.renumber move)).1 :=
  (checkStmt_follows { file := file } moved).recorded { before with tainted := false, uses := [] }

/-- The statements at some of the places where the same statements are, one after the other. -/
theorem checkEach_follows {all : List StmtRef} : ∀ {refs : List StmtRef}
    {files files' : List SourceFile} {state : Typing.State}, refs ⊆ all →
      (∀ ref ∈ all, Option.Rel (PlacedMoved move) (stmtAt? files ref) (stmtAt? files' ref)) →
        (checkEach files' refs (state.renumber move)).2.1 =
            (checkEach files refs state).2.1.renumber move ∧
          ∀ ref ∈ all, Option.Rel (PlacedMoved move) (stmtAt? (checkEach files refs state).1 ref)
            (stmtAt? (checkEach files' refs (state.renumber move)).1 ref)
  | [], _, _, _, _, placed => ⟨rfl, placed⟩
  | ref :: rest, files, files', state, within, placed => by
    obtain ⟨here, within⟩ := List.cons_subset.mp within
    have same := placed ref here
    cases found : stmtAt? files ref with
    | none =>
      rw [found] at same
      have found' : stmtAt? files' ref = none := by
        generalize stmtAt? files' ref = place at same
        cases same
        rfl
      rw [checkEach_of_none rest state found, checkEach_of_none rest _ found']
      exact checkEach_follows within placed
    | some place =>
      rw [found] at same
      obtain ⟨place', found', same⟩ : ∃ place', stmtAt? files' ref = some place' ∧
          PlacedMoved move place place' := by
        generalize stmtAt? files' ref = place at same
        cases same with
        | some same => exact ⟨_, rfl, same⟩
      obtain ⟨name, s⟩ := place
      obtain ⟨name', s'⟩ := place'
      obtain ⟨named, moved⟩ := same
      obtain rfl : name' = name := named
      rw [checkEach_of_some rest state found, checkEach_of_some rest _ found']
      obtain ⟨states, checked⟩ := checkTopLevel_follows moved name' state
      dsimp only
      rw [states]
      -- the place of the checked statement holds related statements again, and no other has changed
      apply checkEach_follows within
      intro other member
      by_cases again : other = ref
      · rw [again, stmtAt?_setStmt_self _ found, stmtAt?_setStmt_self _ found']
        exact .some ⟨rfl, checked⟩
      · rw [stmtAt?_setStmt_of_ne _ again, stmtAt?_setStmt_of_ne _ again]
        exact placed other member

theorem filterMap_placed {refs : List StmtRef} {find find' : StmtRef → Option (String × Stmt)}
    (placed : ∀ ref ∈ refs, Option.Rel (PlacedMoved move) (find ref) (find' ref)) :
    List.Forall₂ (PlacedMoved move) (refs.filterMap find) (refs.filterMap find') := by
  induction refs with
  | nil => exact .nil
  | cons ref rest hypothesis =>
    obtain ⟨here, others⟩ := List.forall_mem_cons.mp placed
    have behind := hypothesis others
    rw [List.filterMap_cons, List.filterMap_cons]
    generalize find ref = found at here ⊢
    generalize find' ref = found' at here ⊢
    cases here with
    | none => exact behind
    | some same => exact .cons same behind

/-! ## Runs -/

/-- Whether two runs come to the same, but for the numbers in the symbols and in the trees. -/
structure Run.Moved (move : StmtId → StmtId) (run run' : Run) : Prop where
  diagnostics : run'.diagnostics = run.diagnostics
  order : run'.package.order = run.package.order
  rendered : run'.package.renderOrder = run.package.renderOrder
  scopes : run'.package.scopes = run.package.scopes
  symbols : run'.package.symbols = run.package.symbols.renumber move

/-- A name stands for the same symbol, but for its number. -/
theorem Run.Moved.lookup? {run run' : Run} (moved : run.Moved move run') (name : String) :
    (run'.package.lookup? name).map Symbol.render =
      (run.package.lookup? name).map Symbol.render := by
  rw [Package.lookup?, Package.lookup?, moved.scopes, moved.symbols]
  cases run.package.scopes.find? name with
  | none => rfl
  | some id =>
    rw [Option.bind_some, Option.bind_some, SymbolTable.get?_renumber]
    cases run.package.symbols.get? id <;> simp

theorem renderOrder_eq (package : Package) : package.renderOrder =
    String.join ((package.order.filterMap (stmtAt? package.files)).map fun placed =>
      Site.render ⟨placed.1, placed.2.position⟩ ++ " " ++
        ", ".intercalate placed.2.declaredNames ++ "\n") := by
  rw [← orderedStatements_eq, List.map_map]
  rfl

theorem map_placed {read : String × Stmt → β}
    (blind : ∀ placed placed', PlacedMoved move placed placed' → read placed' = read placed)
    {placed placed' : List (String × Stmt)}
    (moved : List.Forall₂ (PlacedMoved move) placed placed') : placed'.map read = placed.map read := by
  induction moved with
  | nil => rfl
  | cons first _ hypothesis => rw [List.map_cons, List.map_cons, blind _ _ first, hypothesis]

section Runs

variable {package package' : Package} {refs : List StmtRef}

/-- Validation finds the same left over. -/
theorem leftOverAt_moved {files files' : List SourceFile} (placed : ∀ ref ∈ refs,
      Option.Rel (PlacedMoved move) (stmtAt? files ref) (stmtAt? files' ref)) :
    leftOverAt files' refs = leftOverAt files refs := by
  rw [leftOverAt, leftOverAt, List.flatMap_def, List.flatMap_def]
  refine congrArg List.flatten (map_placed ?_ (filterMap_placed placed))
  rintro ⟨name, s⟩ ⟨name', s'⟩ ⟨same, moved⟩
  obtain rfl : name' = name := same
  exact moved.leftOver name'

theorem checkOrdered_moved
    (started : package'.initialState = package.initialState.renumber move)
    (placed : ∀ ref ∈ refs, Option.Rel (PlacedMoved move) (stmtAt? package.files ref)
      (stmtAt? package'.files ref)) :
    (package.checkOrdered refs).Moved move (package'.checkOrdered refs) := by
  obtain ⟨states, checked⟩ := @checkEach_follows move refs refs package.files package'.files
    package.initialState (List.Subset.refl refs) placed
  rw [← started] at states checked
  constructor
  case order => rfl
  case scopes => exact congrArg (·.scopes) states
  case symbols => exact congrArg (·.symbols) states
  case diagnostics =>
    rw [diagnostics_checkOrdered, diagnostics_checkOrdered, leftOverAt_moved checked, states]
    dsimp only [Typing.State.renumber]
    rw [SymbolTable.leftOver_renumber]
    rfl
  case rendered =>
    rw [renderOrder_eq, renderOrder_eq]
    refine congrArg String.join (map_placed ?_ (filterMap_placed checked))
    rintro ⟨name, s⟩ ⟨name', s'⟩ ⟨same, moved⟩
    obtain rfl : name' = name := same
    dsimp only
    rw [moved.position, moved.declaredNames]

/-- Packages that differ in the numbers that they are given, and in files of other packages, are
    checked alike. -/
theorem run_moved (same : package'.name = package.name)
    (moved : List.Forall₂ (SourceFile.Moved move package.name) package.prepare.files
      package'.prepare.files) : package.run.Moved move package'.run := by
  have numbered : package'.prepare = ofFiles package.name package'.prepare.files :=
    congrArg (ofFiles · package'.prepare.files) same
  have topLevels : package'.prepare.topLevels = package.prepare.topLevels := by
    rw [numbered]
    exact topLevels_moved moved
  have started : package'.prepare.initialState = package.prepare.initialState.renumber move := by
    rw [numbered]
    exact initialState_moved moved
  cases ordered : Dependency.order (·.declares) TopLevel.refersTo package.prepare.topLevels with
  | error names =>
    have mismatches : package'.prepare.mismatches = package.prepare.mismatches := by
      rw [numbered]
      exact mismatches_moved moved
    rw [run_of_order_eq_error ordered, run_of_order_eq_error (topLevels ▸ ordered)]
    exact ⟨congrArg (· ++ _) mismatches, rfl, rfl, rfl, (SymbolTable.renumber_empty move).symm⟩
  | ok sorted =>
    rw [run_of_order_eq_ok ordered, run_of_order_eq_ok (topLevels ▸ ordered)]
    apply checkOrdered_moved started
    intro ref member
    obtain ⟨top, sorted, rfl⟩ := List.mem_map.mp member
    exact placed_of_mem_topLevels moved ((perm_of_order_eq_ok ordered).mem_iff.mp sorted)

end Runs

end Package

end PackageCheck
