import PackageCheck.Dependency.FreeNames
import PackageCheck.Dependency.Order
import PackageCheck.Tree.Numbering
import PackageCheck.Typing.Tree
import PackageCheck.Validation

/-! # Packages

A package is a list of source files that are checked together. Its top-level statements may come
in any order and any file: a check puts them into dependency order first.

* `Package.check` checks the files from scratch.
* `Package.edit?` changes the files. An edit takes effect at the next check. -/

namespace PackageCheck

/-! ## Top-level statements -/

/-- The place of a top-level statement: its file, and its place in that file. -/
structure StmtRef where
  file : Nat
  index : Nat
deriving DecidableEq, Inhabited

/-- A top-level statement with the names it declares and the names it needs. -/
structure TopLevel where
  ref : StmtRef
  declares : List String
  free : NameMap Position

/-- Whether a top-level statement needs a name. -/
def TopLevel.refersTo (top : TopLevel) (name : String) : Bool :=
  top.free.contains name

/-- A statement at a place of a package. -/
def TopLevel.ofStmt (ref : StmtRef) (s : Stmt) : TopLevel :=
  ⟨ref, s.declaredNames, Dependency.freeNames s⟩

/-! ## Packages -/

/-- A package, with what its last check has found. -/
structure Package where
  name : String
  files : List SourceFile
  scopes : ScopeStack := .bottom
  symbols : SymbolTable := .empty
  /-- The top-level statements in the order in which they were checked. -/
  order : List StmtRef := []
deriving Inhabited

namespace Package

/-- A package that has not been checked. -/
def ofFiles (name : String) (files : List SourceFile) : Package :=
  { name := name, files := files }

/-- The statement at a place. -/
def stmt? (package : Package) (ref : StmtRef) : Option (SourceFile × Stmt) := do
  let file ← package.files[ref.file]?
  let s ← file.body[ref.index]?
  return (file, s)

/-- The checked statements in their order, each with its file. -/
def orderedStatements (package : Package) : List (SourceFile × Stmt) :=
  package.order.filterMap package.stmt?

/-- The symbol of a name at the top of the package. -/
def lookup? (package : Package) (name : String) : Option Symbol :=
  (package.scopes.find? name).bind package.symbols.get?

/-! ## Checking -/

/-- The files that belong to another package, each of which is reported and left out. -/
def mismatches (package : Package) : List Diagnostic :=
  package.files.filterMap fun file =>
    if file.package = package.name then none
    else some (.packageMismatch file.name package.name file.package)

/-- The top-level statements of the files that belong to the package. -/
def topLevels (package : Package) : List TopLevel :=
  package.files.zipIdx.flatMap fun (file, i) =>
    if file.package = package.name then
      file.body.zipIdx.map fun (s, j) => .ofStmt ⟨i, j⟩ s
    else []

/-- Puts another statement at a place. -/
def setStmt (files : List SourceFile) (ref : StmtRef) (s : Stmt) : List SourceFile :=
  files.modify ref.file fun file => { file with body := file.body.set ref.index s }

/-- What the check of a package comes to. -/
structure Run where
  /-- The package with its annotated files. -/
  package : Package
  diagnostics : List Diagnostic
  /-- The state behind the last statement. -/
  state : Typing.State
  /-- The names that each statement has used for symbols from outside of it. -/
  uses : List (StmtRef × List String) := []

/-- The names that a statement has used for symbols that were there before it. -/
def usesOutside (before after : Typing.State) : List String :=
  after.uses.filterMap fun (name, id) =>
    if (before.symbols.get? id).isSome then some name else none

/-- Checks the statements at the given places, one after the other. -/
def checkEach (files : List SourceFile) :
    List StmtRef → Typing.State →
      List SourceFile × Typing.State × List (StmtRef × List String)
  | [], state => (files, state, [])
  | ref :: rest, before =>
    match (files[ref.file]?).bind fun file => (file.body[ref.index]?).map (file.name, ·) with
    | none => checkEach files rest before
    | some (name, s) =>
      let (s, after) := (Typing.checkTopLevel name s).run before
      let (files, state, uses) := checkEach (setStmt files ref s) rest after
      (files, state, (ref, usesOutside before after) :: uses)

/-- The package as it is at the start of a check: the statements numbered, and nothing declared. -/
def prepare (package : Package) : Package :=
  .ofFiles package.name ((SourceFile.numberList package.files).run 0).1

/-- The state at the start of a check. -/
def initialState (package : Package) : Typing.State :=
  { scopes := package.scopes.push, symbols := package.symbols, diagnostics := package.mismatches }

/-- Checks the statements of a prepared package in the given order. The result is validated if
    nothing was wrong. -/
def checkOrdered (package : Package) (order : List StmtRef) : Run :=
  let (files, state, uses) := checkEach package.files order package.initialState
  let package : Package := ⟨package.name, files, state.scopes, state.symbols, order⟩
  let statements := package.orderedStatements.map fun (file, s) => (file.name, s)
  let diagnostics :=
    if state.diagnostics.isEmpty then validate statements state.symbols else state.diagnostics
  ⟨package, diagnostics, state, uses⟩

/-- Checks a package from scratch, and keeps what the check was like. -/
def run (package : Package) : Run :=
  let package := package.prepare
  match Dependency.order (·.declares) TopLevel.refersTo package.topLevels with
  | .error names =>
    { package := package, diagnostics := package.mismatches ++ [.dependencyCycle names]
      state := package.initialState }
  | .ok sorted => package.checkOrdered (sorted.map (·.ref))

/-- Checks a package from scratch: the package with its annotated files, and the diagnostics. It is
    correct if there are none. -/
def check (package : Package) : Package × List Diagnostic :=
  (package.run.package, package.run.diagnostics)

/-- The order of the checked statements for a reader: a line for each, with its site and the names
    it declares. -/
def renderOrder (package : Package) : String :=
  String.join <| package.orderedStatements.map fun (file, s) =>
    Site.render ⟨file.name, s.position⟩ ++ " " ++ ", ".intercalate s.declaredNames ++ "\n"

/-! ## Edits -/

/-- A change to the files of a package. -/
inductive Edit where
  | pushFile (file : SourceFile)
  | removeFile (file : Nat)
  | setPackage (file : Nat) (package : String)
  | setName (file : Nat) (name : String)
  | setStmt (ref : StmtRef) (s : Stmt)
  /-- Puts a statement in front of the one at a place, or behind the last one. -/
  | insertStmt (ref : StmtRef) (s : Stmt)
  | removeStmt (ref : StmtRef)

/-- Changes one file, if there is one. -/
def modifyFile? (package : Package) (index : Nat) (change : SourceFile → Option SourceFile) :
    Option Package := do
  let file ← package.files[index]?
  return { package with files := package.files.set index (← change file) }

/-- Applies an edit, if the file and the statement that it names exist. -/
def edit? (package : Package) : Edit → Option Package
  | .pushFile file => some { package with files := package.files ++ [file] }
  | .removeFile index =>
    if index < package.files.length then
      some { package with files := package.files.eraseIdx index }
    else none
  | .setPackage index name =>
    package.modifyFile? index fun file => some { file with package := name }
  | .setName index name => package.modifyFile? index fun file => some { file with name := name }
  | .setStmt ref s => package.modifyFile? ref.file fun file =>
    if ref.index < file.body.length then some { file with body := file.body.set ref.index s }
    else none
  | .insertStmt ref s => package.modifyFile? ref.file fun file =>
    if ref.index ≤ file.body.length then some { file with body := file.body.insertIdx ref.index s }
    else none
  | .removeStmt ref => package.modifyFile? ref.file fun file =>
    if ref.index < file.body.length then some { file with body := file.body.eraseIdx ref.index }
    else none

end Package

end PackageCheck
