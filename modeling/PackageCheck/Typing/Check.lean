import PackageCheck.Typing.Growth

/-! # Checks

A check is a computation on the state that comes with a proof that the state grows. Whatever a
check is put together from, it leaves the scopes around it alone and takes nothing back, so nothing
of this has to be proved of a single check.

* `Check` is the type of checks, `Attempt` that of checks that may end in an error.
* The check of a node comes to a `Checked` node. It is put together from the checks of the parts
  of the node by `Check.rebuild`, `Check.mapResult`, `Check.conclude`, `Check.andThen`,
  `Check.alongside` and `given`.
* `declare` and `declareType` are the only checks that add names to a scope. -/

namespace PackageCheck.Typing

/-- A computation on the state that adds to it. -/
def Check (α : Type) : Type :=
  (s : State) → { r : α × State // s.Grows r.2 }

namespace Check

/-- What a check comes to from a state, and the state behind it. -/
def run (check : Check α) (s : State) : α × State :=
  (check s).val

theorem grows (check : Check α) (s : State) : s.Grows (check.run s).2 :=
  (check s).property

/-- The check that comes to a value and does nothing. -/
def ofValue (a : α) : Check α := fun s =>
  ⟨(a, s), .refl s⟩

/-- One check after another. -/
def followedBy (check : Check α) (next : α → Check β) : Check β := fun s =>
  let first := check s
  let second := next first.val.1 first.val.2
  ⟨second.val, first.property.trans second.property⟩

instance : Monad Check where
  pure := ofValue
  bind := followedBy

@[simp]
theorem run_pure (a : α) (s : State) : (pure a : Check α).run s = (a, s) := rfl

theorem run_bind (check : Check α) (next : α → Check β) (s : State) :
    (check >>= next).run s = (next (check.run s).1).run (check.run s).2 := rfl

end Check

/-- The state at hand. -/
def state : Check State := fun s =>
  ⟨(s, s), .refl s⟩

/-- Changes the state. -/
def change (f : State → State) (grows : ∀ s : State, s.Grows (f s)) : Check Unit := fun s =>
  ⟨((), f s), grows s⟩

/-- A computation on the state that may end in an error. -/
abbrev Attempt := ExceptT Diagnostic Check

/-! ## Statements -/

/-- Notes the use of a symbol under a name. -/
def touch (name : String) (id : SymbolId) : Check Unit :=
  change (·.touch name id) (State.grows_touch · name id)

/-- Reports an error at once. -/
def report (err : Diagnostic) : Check Unit :=
  change (·.report err) (State.grows_report · err)

/-- Notes the error of a variable. -/
def note (result : Except Diagnostic α) : Check Unit :=
  change (·.note result) (State.grows_note · result)

/-- Notes the error of a form of variables. -/
def noteForm (sound : Bool) (result : Except Diagnostic α) : Check Unit :=
  change (·.noteForm sound result) (State.grows_noteForm · sound result)

/-- Takes the result of a statement. -/
def record (result : Except Diagnostic α) : Check Unit :=
  change (fun s => ((s.note result).record result).judge s.diagnostics result) fun s =>
    ((s.grows_note result).trans (State.grows_record _ result)).trans
      (State.grows_judge _ s.diagnostics result)

/-- Begins with a statement. -/
def enter : Check Unit :=
  change State.enter State.grows_enter

/-- Goes back to the statement that was at hand in an earlier state. -/
def leave (before : State) : Check Unit :=
  change (·.leave before) (State.grows_leave · before)

/-- The node of a check whose result is taken here. -/
def recorded (check : Check (Checked ν τ)) : Check ν := do
  let before ← state
  enter
  let (node, result) ← check
  record result
  leave before
  return node

theorem run_recorded (check : Check (Checked ν τ)) (s : State) :
    (recorded check).run s =
      let inside := check.run s.enter
      (inside.1.1, ((record inside.1.2).run inside.2).2.leave s) := rfl

/-- A check whose error is noted. -/
def noted (check : Check (Checked ν τ)) : Check (Checked ν τ) := do
  let (node, result) ← check
  note result
  return (node, result)

/-! ## Declarations -/

/-- Runs a check in a scope of its own. -/
def withScope (check : Check α) : Check α := fun s =>
  let inside := check s.pushScope
  ⟨(inside.val.1, inside.val.2.popScope), inside.property.popScope⟩

/-- Adds a symbol that no scope holds. -/
def insertSymbol (symbol : Symbol) : Check SymbolId := fun s =>
  ⟨(s.symbols.nextId, s.insertSymbol symbol), s.grows_insertSymbol symbol⟩

/-- The error of a declaration whose name the innermost scope holds already. -/
def redeclaration (ctx : Context) (s : State) (name : String) (position : Position)
    (previous : SymbolId) : Diagnostic :=
  .redeclaration name (ctx.site position) ((s.symbols.get? previous).bind (·.site?))

/-- Declares a symbol in the innermost scope, unless the scope holds its name already. The symbol
    is marked as failed if the check in front of the declaration ended in an error. -/
def declare (ctx : Context) (symbol : Symbol) (position : Position)
    (result : Except Diagnostic Unit) : Attempt SymbolId := fun s =>
  match hclash : s.clash? symbol.name with
  | some previous => ⟨(.error (redeclaration ctx s symbol.name position previous), s), .refl s⟩
  | none =>
    ⟨(.ok s.symbols.nextId, (s.insertNamed symbol).markIfFailed s.symbols.nextId result),
      (State.grows_insertNamed hclash).markIfFailed s.symbols.get?_nextId result⟩

theorem run_declare_of_clash {ctx : Context} {symbol : Symbol} {s : State} {previous : SymbolId}
    (clash : s.clash? symbol.name = some previous) (position : Position)
    (result : Except Diagnostic Unit) :
    (declare ctx symbol position result).run.run s =
      (.error (redeclaration ctx s symbol.name position previous), s) := by
  simp only [declare, ExceptT.run, Check.run]
  split
  case h_1 other clash' => rw [Option.some.inj (clash.symm.trans clash')]
  case h_2 free => cases clash.symm.trans free

theorem run_declare_of_free {ctx : Context} {symbol : Symbol} {s : State}
    (free : s.clash? symbol.name = none) (position : Position)
    (result : Except Diagnostic Unit) :
    (declare ctx symbol position result).run.run s =
      (.ok s.symbols.nextId, (s.insertNamed symbol).markIfFailed s.symbols.nextId result) := by
  simp only [declare, ExceptT.run, Check.run]
  split
  case h_1 other clash => cases free.symm.trans clash
  case h_2 => rfl

/-- The state in which the definition of a type is looked at. -/
def State.declaring (s : State) (ctx : Context) (name : String) (position : Position) : State :=
  s.insertNamed (.type ⟨name, some .unknown, some (ctx.site position)⟩)

/-- Declares a type. It is declared without a target at first, so that its definition can mention
    it, and gets the target that the definition comes to. What is left to check behind the
    definition sees the target. The declaration is marked as failed if any of this ends in an
    error. -/
def declareType (ctx : Context) (name : String) (position : Position) (node : ν)
    (define : Attempt (Ty × α)) (next : SymbolId → α → Check (Checked ν Unit)) :
    Check (Checked (Option SymbolId × ν) Unit) := fun s =>
  match hclash : s.clash? name with
  | some previous =>
    ⟨(((none, node), .error (redeclaration ctx s name position previous)), s), .refl s⟩
  | none =>
    let id := s.symbols.nextId
    let defined := define (s.declaring ctx name position)
    have grows := (State.grows_insertNamed hclash).trans defined.property
    match defined.val.1 with
    | .error err =>
      let failure : Except Diagnostic Unit := .error err
      ⟨(((some id, node), failure), defined.val.2.markIfFailed id failure),
        grows.markIfFailed s.symbols.get?_nextId failure⟩
    | .ok (target, a) =>
      let rest := next id a (defined.val.2.setAliased id target)
      ⟨(((some id, rest.val.1.1), rest.val.1.2), rest.val.2.markIfFailed id rest.val.1.2),
        ((grows.setAliased s.symbols.get?_nextId target).trans rest.property).markIfFailed
          s.symbols.get?_nextId _⟩

section DeclareType

variable {ctx : Context} {name : String} {s : State} {position : Position} {node : ν}
  {define : Attempt (Ty × α)} {next : SymbolId → α → Check (Checked ν Unit)}

theorem run_declareType_of_clash {previous : SymbolId} (clash : s.clash? name = some previous) :
    (declareType ctx name position node define next).run s =
      (((none, node), .error (redeclaration ctx s name position previous)), s) := by
  simp only [declareType, Check.run]
  split
  case h_1 other clash' => rw [Option.some.inj (clash.symm.trans clash')]
  case h_2 free => cases clash.symm.trans free

theorem run_declareType_of_error {err : Diagnostic} (free : s.clash? name = none)
    (defined : (define.run.run (s.declaring ctx name position)).1 = .error err) :
    (declareType ctx name position node define next).run s =
      (((some s.symbols.nextId, node), .error err),
        (define.run.run (s.declaring ctx name position)).2.markIfFailed s.symbols.nextId
          (.error err : Except Diagnostic Unit)) := by
  simp only [ExceptT.run, Check.run] at defined
  simp only [declareType, Check.run, ExceptT.run]
  split
  case h_1 other clash => cases free.symm.trans clash
  case h_2 =>
    split
    case h_1 err' defined' => rw [Except.error.inj (defined.symm.trans defined')]
    case h_2 defined' => cases defined.symm.trans defined'

theorem run_declareType_of_ok {target : Ty} {a : α} (free : s.clash? name = none)
    (defined : (define.run.run (s.declaring ctx name position)).1 = .ok (target, a)) :
    (declareType ctx name position node define next).run s =
      let rest := (next s.symbols.nextId a).run
        ((define.run.run (s.declaring ctx name position)).2.setAliased s.symbols.nextId target)
      (((some s.symbols.nextId, rest.1.1), rest.1.2),
        rest.2.markIfFailed s.symbols.nextId rest.1.2) := by
  simp only [ExceptT.run, Check.run] at defined
  simp only [declareType, Check.run, ExceptT.run]
  split
  case h_1 other clash => cases free.symm.trans clash
  case h_2 =>
    split
    case h_1 defined' => cases defined.symm.trans defined'
    case h_2 target' a' defined' =>
      obtain ⟨rfl, rfl⟩ := Prod.mk.inj (Except.ok.inj (defined.symm.trans defined'))
      rfl

end DeclareType

/-! ## Nodes -/

/-- Goes on with a node if an attempt succeeds, and leaves the node as it is otherwise. -/
def given (attempt : Attempt α) (node : ν) (next : α → Check (Checked ν τ)) :
    Check (Checked ν τ) := do
  match ← attempt.run with
  | .ok a => next a
  | .error err => return (node, .error err)

theorem run_given_of_ok {attempt : Attempt α} {s s' : State} {a : α}
    (succeeded : attempt.run.run s = (.ok a, s')) (node : ν) (next : α → Check (Checked ν τ)) :
    (given attempt node next).run s = (next a).run s' := by
  rw [given, Check.run_bind, succeeded]

theorem run_given_of_error {attempt : Attempt α} {s s' : State} {err : Diagnostic}
    (failed : attempt.run.run s = (.error err, s')) (node : ν)
    (next : α → Check (Checked ν τ)) :
    (given attempt node next).run s = ((node, .error err), s') := by
  rw [given, Check.run_bind, failed]
  rfl

namespace Check

/-- Puts an annotated node together with the rest of a tree. -/
def rebuild (check : Check (Checked ν τ)) (f : ν → μ) : Check (Checked μ τ) := do
  let (node, result) ← check
  return (f node, result)

/-- Another view of the result of a node. -/
def mapResult (check : Check (Checked ν σ)) (f : σ → τ) : Check (Checked ν τ) := do
  let (node, result) ← check
  return (node, result.map f)

/-- What a rule makes of the result of a node. -/
def conclude (check : Check (Checked ν σ)) (rule : σ → Attempt τ) : Check (Checked ν τ) := do
  let (node, result) ← check
  let result ← (do rule (← result) : Attempt τ).run
  return (node, result)

/-- A second node, which is checked if the first one does, and left as it is otherwise. -/
def andThen (check : Check (Checked ν σ)) (node : μ) (next : σ → Check (Checked μ τ)) :
    Check (Checked (ν × μ) τ) := do
  let (first, result) ← check
  let (node, result) ← given (liftM result) node next
  return ((first, node), result)

/-- A second node, which is checked in any case. The first error is that of both. -/
def alongside (check : Check (Checked ν σ)) (other : Check (Checked μ τ)) :
    Check (Checked (ν × μ) τ) := do
  let (first, result) ← check
  let (second, others) ← other
  return ((first, second), result.bind fun _ => others)

end Check

end PackageCheck.Typing
