import PackageCheck.Proofs.Package.Soundness
import PackageCheck.Proofs.Typing.Frame

/-! # What a check leaves alone in a package

A check gives back the files that it was given, up to their annotations: it may number the
statements, and fill in types, shapes and handles, but it changes nothing that was written. -/

namespace PackageCheck.Package

open Typing

variable {renumber : StmtId → StmtId}

/-! ## Statements -/

theorem erase_checkTopLevel (file : String) (s : Stmt) {before : Typing.State}
    (named : before.WellScoped) :
    ((checkTopLevel file s).run before).1.erase renumber = s.erase renumber := by
  have started : State.WellScoped { before with tainted := false, uses := [] } := named
  have shown : (checkStmt { file := file } s).Shows ((checkTopLevel file s).run before).2.symbols
      (Stmt.erase renumber) (s.erase renumber) := checkStmt_shows _ s
  exact shown.recorded _ started (SymbolTable.Extends.refl _).toWithin

/-- Another statement in the place of one that looks the same leaves the files as written. -/
theorem erase_setStmt {files : List SourceFile} {ref : StmtRef} {name : String} {s s' : Stmt}
    (found : stmtAt? files ref = some (name, s)) (same : s'.erase renumber = s.erase renumber) :
    (setStmt files ref s').map (SourceFile.erase renumber) =
      files.map (SourceFile.erase renumber) := by
  obtain ⟨file, inFiles, found⟩ := Option.bind_eq_some_iff.mp found
  obtain ⟨_, inBody, placed⟩ := Option.map_eq_some_iff.mp found
  cases placed
  have unchanged : (file.body.set ref.index s').map (Stmt.erase renumber) =
      file.body.map (Stmt.erase renumber) := by
    obtain ⟨bound, held⟩ := List.getElem?_eq_some_iff.mp inBody
    rw [List.map_set, same, ← held, ← List.getElem_map (Stmt.erase renumber), List.set_getElem_self]
    simpa using bound
  apply List.ext_getElem?
  intro i
  rw [List.getElem?_map, List.getElem?_map, setStmt, List.getElem?_modify]
  by_cases here : ref.file = i
  · subst here
    simp only [inFiles, if_true, Option.map_eq_map, Option.map_some, SourceFile.erase,
      Stmt.eraseList_eq_map, unchanged]
  · simp [here]

theorem erase_checkEach {refs : List StmtRef} {files : List SourceFile} {before : Typing.State}
    (named : before.WellScoped) :
    (checkEach files refs before).1.map (SourceFile.erase renumber) =
      files.map (SourceFile.erase renumber) := by
  induction refs generalizing files before with
  | nil => rfl
  | cons ref rest hypothesis =>
    cases found : stmtAt? files ref with
    | none =>
      rw [checkEach_of_none rest before found]
      exact hypothesis named
    | some placed =>
      obtain ⟨name, s⟩ := placed
      rw [checkEach_of_some rest before found]
      exact (hypothesis (wellScoped_checkTopLevel name s named)).trans
        (erase_setStmt found (erase_checkTopLevel name s named))

/-! ## Packages -/

/-- A check goes through the numbered files and changes no number in them. -/
theorem erase_check (package : Package) :
    package.check.1.files.map (SourceFile.erase renumber) =
      package.prepare.files.map (SourceFile.erase renumber) := by
  cases ordered : Dependency.order (·.declares) TopLevel.refersTo package.prepare.topLevels with
  | error names =>
    rw [check, run_of_order_eq_error ordered]
  | ok sorted =>
    rw [check, run_of_order_eq_ok ordered]
    exact erase_checkEach (wellScoped_initialState rfl)

/-- A check only annotates: the files are as they were written, whatever annotations they came with
    and whatever the check has found. -/
theorem written_check (package : Package) :
    package.check.1.name = package.name ∧
      package.check.1.files.map SourceFile.bare = package.files.map SourceFile.bare := by
  constructor
  · cases ordered : Dependency.order (·.declares) TopLevel.refersTo package.prepare.topLevels with
    | error names => rw [check, run_of_order_eq_error ordered]; rfl
    | ok sorted => rw [check, run_of_order_eq_ok ordered]; rfl
  · exact package.erase_check.trans (SourceFile.bare_numberList package.files 0)

end PackageCheck.Package
