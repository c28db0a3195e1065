import PackageCheck.Diagnostic
import PackageCheck.Scope
import PackageCheck.Tree.Basic

/-! # The state of a check

A check goes through a tree once. What it finds out goes into the tree, what it declares goes into
a symbol table and the innermost scope, and what is wrong goes into a list of diagnostics.

Each node gives back the annotated node together with a result, which is an error if the node does
not check. An annotated node is given back in either case, since an error in one part of a tree
does not undo the annotations of the others. Errors travel up to the nearest statement, where
`record` turns them into diagnostics.

A declaration that does not check is marked as failed. A statement that uses one is tainted, and
its own error is not reported, because it may well be a consequence of the first. -/

namespace PackageCheck.Typing

/-! ## Surroundings -/

/-- The results of the function around a statement. -/
structure Frame where
  types : List Ty
  /-- Whether all results have names, so that a bare `return` is enough. -/
  named : Bool

/-- What surrounds the node that is being checked. Loops and labels are those of the function at
    hand, the innermost ones first. -/
structure Context where
  file : String
  frame : Option Frame := none
  loops : List (StmtId × Option String) := []
  labels : List (NameMap SymbolId) := []

namespace Context

/-- A position in the file at hand. -/
def site (ctx : Context) (position : Position) : Site := ⟨ctx.file, position⟩

/-- The symbol of a label in the nearest block that has it. -/
def label? (ctx : Context) (name : String) : Option SymbolId :=
  ctx.labels.findSome? (·.find? name)

end Context

/-! ## State -/

/-- An error in which a statement, a condition, a form of variables or a single variable has
    ended, whether it was reported or not. -/
structure Failure where
  error : Diagnostic
  /-- Whether this is the error of a form of variables that began with nothing failed and ended
      tainted, so that an error of its own was taken for the consequence of another one. -/
  lost : Bool := false

/-- What a statement does while it is checked, as far as it may taint it. -/
inductive Deed where
  /-- It uses a declaration, which is marked as failed or not. -/
  | use (id : SymbolId) (failed : Bool)
  /-- It comes to the end of a nested statement, in front of which it was tainted or not. -/
  | nest (tainted : Bool)
deriving DecidableEq

/-- The check of a statement so far. -/
structure Task where
  /-- Whether the statement around it was tainted when it began. -/
  tainted : Bool := false
  /-- The declarations that were marked as failed when it began. -/
  failed : List SymbolId := []
  /-- What it has done outside of the nested statements, the last deed first. -/
  deeds : List Deed := []

/-- What has become of the error of a statement. -/
structure Verdict where
  task : Task
  error : Diagnostic
  /-- The diagnostics in front of the error and behind it. -/
  before : List Diagnostic
  after : List Diagnostic

/-- What a check has found so far. The last four fields are a record for the reader of a run, no
    check depends on them. -/
structure State where
  scopes : ScopeStack
  symbols : SymbolTable
  /-- What is wrong, in the order in which it was found. -/
  diagnostics : List Diagnostic := []
  /-- The errors that were not reported, because a failed declaration may have caused them. -/
  suppressed : List Diagnostic := []
  /-- Whether the statement at hand has used a failed declaration. -/
  tainted : Bool := false
  /-- The names that the statement at hand has used with their symbols, the last one first. -/
  uses : List (String × SymbolId) := []
  failures : List Failure := []
  /-- The check of the statement at hand. -/
  task : Task := {}
  verdicts : List Verdict := []

/-- A checked node: the annotated node with its result. -/
abbrev Checked (ν τ : Type) := ν × Except Diagnostic τ

namespace State

/-- Goes on with a deed of the statement at hand. -/
def act (s : State) (deed : Deed) : State :=
  { s with task := { s.task with deeds := deed :: s.task.deeds } }

/-- Notes the use of a symbol under a name. -/
def touch (s : State) (name : String) (id : SymbolId) : State :=
  let failed := s.symbols.isFailed id
  { s.act (.use id failed) with tainted := s.tainted || failed, uses := (name, id) :: s.uses }

/-- Notes the error of a statement or of a variable, if it ended in one. -/
def note (s : State) : Except Diagnostic α → State
  | .ok _ => s
  | .error err => { s with failures := s.failures ++ [{ error := err }] }

/-- Notes the error of a form of variables. It is lost if it will not be reported although nothing
    had failed in front of the form. -/
def noteForm (s : State) (sound : Bool) : Except Diagnostic α → State
  | .ok _ => s
  | .error err => { s with failures := s.failures ++ [⟨err, sound && s.tainted⟩] }

/-- Reports an error at once. -/
def report (s : State) (err : Diagnostic) : State :=
  { s with diagnostics := s.diagnostics ++ [err] }

/-- Takes the result of a statement. An error becomes a diagnostic unless the statement is
    tainted, and the next statement starts untainted. -/
def record (s : State) : Except Diagnostic α → State
  | .ok _ => { s with tainted := false }
  | .error err =>
    if s.tainted then { s with tainted := false, suppressed := s.suppressed ++ [err] }
    else s.report err

/-- Notes what has become of the result of a statement, given the diagnostics in front of it. -/
def judge (s : State) (before : List Diagnostic) : Except Diagnostic α → State
  | .ok _ => s
  | .error err => { s with verdicts := s.verdicts ++ [⟨s.task, err, before, s.diagnostics⟩] }

/-- Begins with a statement. -/
def enter (s : State) : State :=
  { s with task := ⟨s.tainted, s.symbols.failed, []⟩ }

/-- Goes back to the statement that was at hand in an earlier state. -/
def leave (s before : State) : State :=
  { s with task := before.task }.act (.nest before.tainted)

/-- Opens a scope. -/
def pushScope (s : State) : State :=
  { s with scopes := s.scopes.push }

/-- Closes the innermost scope. -/
def popScope (s : State) : State :=
  { s with scopes := s.scopes.pop }

/-- Adds a symbol that no scope holds. -/
def insertSymbol (s : State) (symbol : Symbol) : State :=
  { s with symbols := s.symbols.insert symbol }

/-- Adds a symbol to the innermost scope under its name. The name `_` is held by no scope. -/
def insertNamed (s : State) (symbol : Symbol) : State :=
  { s with
    symbols := s.symbols.insert symbol
    scopes := if symbol.name = "_" then s.scopes else s.scopes.add symbol.name s.symbols.nextId }

/-- Gives a declared type its target. -/
def setAliased (s : State) (id : SymbolId) (target : Ty) : State :=
  { s with symbols := s.symbols.setAliased id target }

/-- Marks a declaration as failed if its check ended in an error. -/
def markIfFailed (s : State) (id : SymbolId) : Except Diagnostic α → State
  | .ok _ => s
  | .error _ => { s with symbols := s.symbols.markFailed id }

/-- The symbol in the innermost scope that stands in the way of a declaration. The name `_` may be
    declared any number of times. -/
def clash? (s : State) (name : String) : Option SymbolId :=
  if name = "_" then none else s.scopes.findLocal? name

end State

end PackageCheck.Typing
