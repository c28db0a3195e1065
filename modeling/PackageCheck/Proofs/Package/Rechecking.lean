import PackageCheck.Proofs.Package.Frame
import PackageCheck.Proofs.Package.History
import PackageCheck.Proofs.Tree.Renumbering
import PackageCheck.Proofs.Typing.Rechecking

/-! # Checking a checked package

A second check of a package that has not been edited changes nothing. It finds the numbers of the
statements and their order as the first check left them, and each statement in the state in which
the first check has found it. So it writes the annotations that are there already, and reports what
has been reported. -/

namespace PackageCheck.Package

open Typing

/-! ## Numbers -/

/-- Files that look like numbered ones have their numbers. -/
theorem numberList_numbered {files written : List SourceFile} {n : Nat}
    (same : files.map (SourceFile.erase id) =
      ((SourceFile.numberList written).run n).1.map (SourceFile.erase id)) :
    ((SourceFile.numberList files).run n).1 = files := by
  have erased : ∀ (renumber : StmtId → StmtId) (files : List SourceFile),
      ((SourceFile.numberList (files.map (SourceFile.erase renumber))).run n).1 =
        ((SourceFile.numberList files).run n).1.map (SourceFile.erase id) := by
    intro renumber files
    rw [SourceFile.number_eraseList]
    rfl
  -- numbering numbered files again gives them the same numbers
  have stable : ((SourceFile.numberList ((SourceFile.numberList written).run n).1).run n).1.map
      (SourceFile.erase id) =
        ((SourceFile.numberList written).run n).1.map (SourceFile.erase id) := by
    rw [← erased (fun _ => {}), ← erased (fun _ => {})]
    exact congrArg (fun bare => ((SourceFile.numberList bare).run n).1) (SourceFile.bare_numberList written n)
  refine SourceFile.numberList_of_erase files n ?_
  rw [← erased id, same, erased id, stable]

/-! ## Statements -/

theorem checkTopLevel_repeats (file : String) (s : Stmt) {before : Typing.State}
    (named : before.WellScoped) :
    (checkTopLevel file ((checkTopLevel file s).run before).1).run before =
      (checkTopLevel file s).run before := by
  have started : State.WellScoped { before with tainted := false, uses := [] } := named
  exact (checkStmt_repeats { file := file } s).recorded started rfl

/-- Nothing happens if a statement takes its own place. -/
theorem setStmt_of_stmtAt? {files : List SourceFile} {ref : StmtRef} {name : String} {s : Stmt}
    (found : stmtAt? files ref = some (name, s)) : setStmt files ref s = files := by
  obtain ⟨file, inFiles, found⟩ := Option.bind_eq_some_iff.mp found
  obtain ⟨_, inBody, placed⟩ := Option.map_eq_some_iff.mp found
  cases placed
  obtain ⟨bound, held⟩ := List.getElem?_eq_some_iff.mp inBody
  have unchanged : file.body.set ref.index s = file.body := by
    rw [← held, List.set_getElem_self]
  apply List.ext_getElem?
  intro i
  rw [setStmt, List.getElem?_modify]
  by_cases here : ref.file = i
  · subst here
    simp only [inFiles, if_true, Option.map_eq_map, Option.map_some, unchanged]
  · simp [here]

/-- Each statement is found again in the state in which it was found first. -/
theorem checkEach_repeats : ∀ {refs : List StmtRef} {files : List SourceFile}
    {before : Typing.State}, refs.Nodup → before.WellScoped →
      checkEach (checkEach files refs before).1 refs before = checkEach files refs before
  | [], files, before, _, _ => rfl
  | ref :: rest, files, before, distinct, named => by
    obtain ⟨apart, distinct⟩ := List.nodup_cons.mp distinct
    cases found : stmtAt? files ref with
    | none =>
      rw [checkEach_of_none rest before found]
      have absent : stmtAt? (checkEach files rest before).1 ref = none :=
        (stmtAt?_checkEach_of_notMem apart).trans found
      rw [checkEach_of_none rest before absent]
      exact checkEach_repeats distinct named
    | some placed =>
      obtain ⟨name, s⟩ := placed
      rw [checkEach_of_some rest before found]
      have again := checkTopLevel_repeats name s named
      have behind := wellScoped_checkTopLevel name s named
      generalize (checkTopLevel name s).run before = checked at *
      obtain ⟨s', after⟩ := checked
      -- no place comes twice, so the others leave the statement as it was put back
      have held : stmtAt? (checkEach (setStmt files ref s') rest after).1 ref = some (name, s') :=
        (stmtAt?_checkEach_of_notMem apart).trans (stmtAt?_setStmt_self s' found)
      dsimp only at again ⊢
      rw [checkEach_of_some rest before held, again]
      dsimp only
      rw [setStmt_of_stmtAt? held, checkEach_repeats distinct behind]

/-! ## Packages -/

/-- A checked package is prepared already, but for what has been declared. -/
theorem prepare_check (package : Package) :
    package.check.1.prepare = .ofFiles package.name package.check.1.files := by
  have looks : package.check.1.files.map (SourceFile.erase id) =
      package.prepare.files.map (SourceFile.erase id) := package.erase_check
  have numbered := numberList_numbered looks
  change ofFiles package.check.1.name ((SourceFile.numberList package.check.1.files).run 0).1 = _
  rw [numbered, (written_check package).1]

/-- To the first check and to the second one the package looks the same. -/
theorem erased_prepare_check (package : Package) :
    package.check.1.prepare.erased = package.prepare.erased := by
  rw [prepare_check]
  exact congrArg (ofFiles package.name) package.erase_check

theorem checkOrdered_checked {package checked : Package} {refs : List StmtRef}
    (name : checked.name = package.name) (start : checked.initialState = package.initialState)
    (scopes : package.scopes = .bottom) (distinct : refs.Nodup)
    (files : checked.files = (checkEach package.files refs package.initialState).1) :
    checked.checkOrdered refs = package.checkOrdered refs := by
  have repeated : checkEach checked.files refs package.initialState =
      checkEach package.files refs package.initialState :=
    files ▸ checkEach_repeats distinct (wellScoped_initialState scopes)
  rw [checkOrdered, checkOrdered, start, repeated, name]

/-- A second check comes to the same result and leaves the package as it is: the files with all
    annotations, the order, the table with its failed marks and the scopes. -/
theorem check_check (package : Package) : package.check.1.check = package.check := by
  have prepared := erased_prepare_check package
  have tops : package.check.1.prepare.topLevels = package.prepare.topLevels := by
    rw [← topLevels_erased, prepared, topLevels_erased]
  have start : package.check.1.prepare.initialState = package.prepare.initialState := by
    rw [← initialState_erased, prepared, initialState_erased]
  suffices again : package.check.1.run = package.run by
    rw [check, again]
    rfl
  cases ordered : Dependency.order (·.declares) TopLevel.refersTo package.prepare.topLevels with
  | error names =>
    -- the first check has stopped in front of the statements
    have ordered' := ordered
    rw [← tops] at ordered'
    have unchanged : package.check.1.prepare = package.prepare := by
      rw [prepare_check, check, run_of_order_eq_error ordered]
      rfl
    rw [run_of_order_eq_error ordered', run_of_order_eq_error ordered, unchanged]
  | ok sorted =>
    have ordered' := ordered
    rw [← tops] at ordered'
    rw [run_of_order_eq_ok ordered', run_of_order_eq_ok ordered]
    refine checkOrdered_checked (written_check package).1 start rfl (distinct_order ordered) ?_
    rw [prepare_check]
    change package.check.1.files = _
    rw [check, run_of_order_eq_ok ordered]
    rfl

end PackageCheck.Package
