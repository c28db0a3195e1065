import PackageCheck.Proofs.Symbol.Renumbering
import PackageCheck.Proofs.Tree.Moved
import PackageCheck.Typing.Tree

/-! # Checks that follow each other

A check follows another one under a renumbering of the statements if the two leave the same state
behind but for the numbers in it, from states that are the same but for these numbers, and come to
related values. There is one rule for each way of putting checks together. -/

namespace PackageCheck.Typing

/-! ## Surroundings and states -/

section Renumber

variable (move : StmtId → StmtId)

/-- The surroundings under a renumbering of the statements, of which they hold the loops. -/
def Context.renumber (ctx : Context) : Context :=
  { ctx with loops := ctx.loops.map fun loop => (move loop.1, loop.2) }

/-- A state under a renumbering of the statements. -/
def State.renumber (s : State) : State :=
  { s with symbols := s.symbols.renumber move }

namespace State

variable (s : State)

theorem insertSymbol_renumber (symbol : Symbol) :
    (s.renumber move).insertSymbol (symbol.renumber move) =
      (s.insertSymbol symbol).renumber move := by
  simp only [insertSymbol, renumber, SymbolTable.insert_renumber]

theorem insertNamed_renumber (symbol : Symbol) :
    (s.renumber move).insertNamed (symbol.renumber move) =
      (s.insertNamed symbol).renumber move := by
  simp only [insertNamed, renumber, SymbolTable.insert_renumber, Symbol.name_renumber,
    SymbolTable.nextId_renumber]

theorem setAliased_renumber (id : SymbolId) (target : Ty) :
    (s.renumber move).setAliased id target = (s.setAliased id target).renumber move := by
  simp only [setAliased, renumber, SymbolTable.setAliased_renumber]

theorem markIfFailed_renumber (id : SymbolId) (result : Except Diagnostic α) :
    (s.renumber move).markIfFailed id result = (s.markIfFailed id result).renumber move := by
  cases result with
  | ok a => rfl
  | error err => simp only [markIfFailed, renumber, SymbolTable.markFailed_renumber]

theorem note_renumber (result : Except Diagnostic α) :
    (s.renumber move).note result = (s.note result).renumber move := by
  cases result <;> rfl

theorem noteForm_renumber (sound : Bool) (result : Except Diagnostic α) :
    (s.renumber move).noteForm sound result = (s.noteForm sound result).renumber move := by
  cases result <;> rfl

theorem record_renumber (result : Except Diagnostic α) :
    (s.renumber move).record result = (s.record result).renumber move := by
  cases result with
  | ok a => rfl
  | error err =>
    change (if s.tainted then _ else _) = _
    unfold record
    split <;> rfl

theorem judge_renumber (before : List Diagnostic) (result : Except Diagnostic α) :
    (s.renumber move).judge before result = (s.judge before result).renumber move := by
  cases result <;> rfl

/-- A declaration clashes with the same one. -/
theorem redeclaration_renumber (ctx : Context) (name : String) (position : Position)
    (previous : SymbolId) :
    redeclaration (ctx.renumber move) (s.renumber move) name position previous =
      redeclaration ctx s name position previous := by
  have site : (((s.renumber move).symbols.get? previous).bind (·.site?)) =
      (s.symbols.get? previous).bind (·.site?) := by
    change ((s.symbols.renumber move).get? previous).bind (·.site?) = _
    rw [SymbolTable.get?_renumber]
    cases s.symbols.get? previous <;> simp
  rw [redeclaration, redeclaration, site]
  rfl

end State

end Renumber

variable {move : StmtId → StmtId}

/-- Whether two attempts have come to related values or to the same error. -/
inductive Results (R : α → α → Prop) : Except Diagnostic α → Except Diagnostic α → Prop
  | ok : R a b → Results R (.ok a) (.ok b)
  | error : Results R (.error err) (.error err)

theorem Results.same {result result' : Except Diagnostic α} (results : Results Eq result result') :
    result' = result := by
  cases results with
  | ok same => rw [same]
  | error => rfl

/-- Whether a check follows another one, with values that are related. -/
def Check.Follows (move : StmtId → StmtId) (check check' : Check α) (R : α → α → Prop) : Prop :=
  ∀ s, (check'.run (s.renumber move)).2 = (check.run s).2.renumber move ∧
    R (check.run s).1 (check'.run (s.renumber move)).1

/-- Whether an attempt follows another one, with values that are related. -/
abbrev FollowsAttempt (move : StmtId → StmtId) (attempt attempt' : Attempt α)
    (R : α → α → Prop) : Prop :=
  Check.Follows move attempt.run attempt'.run (Results R)

/-- Whether the check of a node follows another one, with the same result and related nodes. -/
abbrev Check.FollowsNode (move : StmtId → StmtId) (check check' : Check (Checked ν τ))
    (N : ν → ν → Prop) : Prop :=
  Check.Follows move check check' fun x y => y.2 = x.2 ∧ N x.1 y.1

namespace Check

/-! ## Computations -/

namespace Follows

variable {check check' : Check α} {R : α → α → Prop}

theorem pure {a b : α} (related : R a b) :
    Follows move (Pure.pure a : Check α) (Pure.pure b) R :=
  fun _ => ⟨rfl, related⟩

theorem bind {next next' : α → Check β} {S : β → β → Prop} (first : Follows move check check' R)
    (second : ∀ a b, R a b → Follows move (next a) (next' b) S) :
    Follows move (check >>= next) (check' >>= next') S := by
  intro s
  obtain ⟨same, related⟩ := first s
  rw [run_bind, run_bind, same]
  exact second _ _ related _

/-- What is read of the state is the same but for the numbers. -/
theorem reads {next next' : State → Check β} {S : β → β → Prop}
    (tail : ∀ s : State, Follows move (next s) (next' (s.renumber move)) S) :
    Follows move (state >>= next) (state >>= next') S :=
  fun s => tail s s

theorem change {f f' : State → State} {grows : ∀ s : State, s.Grows (f s)}
    {grows' : ∀ s : State, s.Grows (f' s)}
    (step : ∀ s : State, f' (s.renumber move) = (f s).renumber move) :
    Follows move (Typing.change f grows) (Typing.change f' grows') Eq :=
  fun s => ⟨step s, rfl⟩

theorem withScope (inside : Follows move check check' R) :
    Follows move (Typing.withScope check) (Typing.withScope check') R := by
  intro s
  obtain ⟨same, related⟩ := inside s.pushScope
  exact ⟨congrArg State.popScope same, related⟩

theorem touch (name : String) (id : SymbolId) :
    Follows move (Typing.touch name id) (Typing.touch name id) Eq :=
  change fun _ => rfl

theorem insertSymbol (symbol : Symbol) :
    Follows move (Typing.insertSymbol symbol) (Typing.insertSymbol (symbol.renumber move)) Eq :=
  fun s => ⟨s.insertSymbol_renumber move symbol, (s.symbols.nextId_renumber move).symm⟩

end Follows

/-! ## Nodes -/

namespace FollowsNode

variable {check check' : Check (Checked ν σ)} {N : ν → ν → Prop}

theorem pure {node node' : ν} {result : Except Diagnostic τ} (related : N node node') :
    FollowsNode move (Pure.pure (node, result) : Check (Checked ν τ)) (Pure.pure (node', result))
      N :=
  Follows.pure ⟨rfl, related⟩

/-- What comes behind two nodes sees the same result. -/
theorem bind {next next' : Checked ν σ → Check β} {S : β → β → Prop}
    (follows : FollowsNode move check check' N)
    (tail : ∀ (node node' : ν) (result : Except Diagnostic σ), N node node' →
      Follows move (next (node, result)) (next' (node', result)) S) :
    Follows move (check >>= next) (check' >>= next') S := by
  apply Follows.bind follows
  rintro ⟨node, _⟩ ⟨node', result⟩ ⟨rfl, related⟩
  exact tail node node' result related

theorem rebuild {f f' : ν → μ} {M : μ → μ → Prop} (follows : FollowsNode move check check' N)
    (built : ∀ a b, N a b → M (f a) (f' b)) :
    FollowsNode move (check.rebuild f) (check'.rebuild f') M :=
  follows.bind fun _ _ _ related => .pure ⟨rfl, built _ _ related⟩

theorem mapResult {f : σ → τ} (follows : FollowsNode move check check' N) :
    FollowsNode move (check.mapResult f) (check'.mapResult f) N :=
  follows.bind fun _ _ _ related => .pure ⟨rfl, related⟩

/-- A node that stays as it is unless an attempt succeeds. -/
theorem given {R : α → α → Prop} {first first' : Attempt α} {node node' : ν}
    {next next' : α → Check (Checked ν τ)} (head : FollowsAttempt move first first' R)
    (untouched : N node node')
    (tail : ∀ a b, R a b → FollowsNode move (next a) (next' b) N) :
    FollowsNode move (Typing.given first node next) (Typing.given first' node' next') N := by
  refine Follows.bind head fun result result' related => ?_
  cases related with
  | ok related => exact tail _ _ related
  | error => exact .pure ⟨rfl, untouched⟩

/-- A rule makes the same of the same result. -/
theorem conclude {rule rule' : σ → Attempt τ} (follows : FollowsNode move check check' N)
    (ruled : ∀ a, FollowsAttempt move (rule a) (rule' a) Eq) :
    FollowsNode move (check.conclude rule) (check'.conclude rule') N := by
  refine follows.bind fun node node' result related => ?_
  cases result with
  | error err => exact FollowsNode.pure related
  | ok a =>
    refine Follows.bind (ruled a) fun concluded concluded' results => ?_
    exact .pure ⟨results.same, related⟩

/-- A second node, which is checked if the first one does. -/
theorem andThen {node node' : μ} {next next' : σ → Check (Checked μ τ)} {M : μ → μ → Prop}
    (head : FollowsNode move check check' N) (untouched : M node node')
    (tail : ∀ a, FollowsNode move (next a) (next' a) M) :
    FollowsNode move (check.andThen node next) (check'.andThen node' next') fun both both' =>
      N both.1 both'.1 ∧ M both.2 both'.2 := by
  refine head.bind fun first first' result related => ?_
  cases result with
  | error err => exact .pure ⟨rfl, related, untouched⟩
  | ok a => exact (tail a).bind fun _ _ _ others => .pure ⟨rfl, related, others⟩

theorem alongside {other other' : Check (Checked μ τ)} {M : μ → μ → Prop}
    (head : FollowsNode move check check' N) (tail : FollowsNode move other other' M) :
    FollowsNode move (check.alongside other) (check'.alongside other') fun both both' =>
      N both.1 both'.1 ∧ M both.2 both'.2 :=
  head.bind fun _ _ _ related => tail.bind fun _ _ _ others => .pure ⟨rfl, related, others⟩

theorem recorded (follows : FollowsNode move check check' N) :
    Follows move (Typing.recorded check) (Typing.recorded check') N := by
  refine Follows.reads fun before => ?_
  refine Follows.bind (.change fun _ => rfl) fun _ _ _ => ?_
  refine follows.bind fun node node' result related => ?_
  refine Follows.bind (.change fun s => ?_) fun _ _ _ => ?_
  · rw [State.note_renumber, State.record_renumber]
    exact State.judge_renumber move _ _ result
  · exact Follows.bind (.change fun _ => rfl) fun _ _ _ => .pure related

theorem noted (follows : FollowsNode move check check' N) :
    FollowsNode move (Typing.noted check) (Typing.noted check') N := by
  refine follows.bind fun node node' result related => ?_
  exact Follows.bind (.change fun s => s.note_renumber move result) fun _ _ _ =>
    .pure ⟨rfl, related⟩

/-- What is settled depends on the place of an expression and on whether there is one. -/
theorem agreeing {what : String} {site site' : Expr → Site} {expected : Ty}
    {check check' : Check (Checked Expr Ty)}
    (follows : FollowsNode move check check' (Expr.Moved move))
    (placed : ∀ e e' : Expr, e'.position = e.position → site' e' = site e) :
    FollowsNode move (Typing.agreeing what site expected check)
      (Typing.agreeing what site' expected check') (Expr.Moved move) := by
  refine follows.bind fun e e' result moved => ?_
  cases result with
  | error err => exact .pure ⟨rfl, moved⟩
  | ok found =>
    refine Follows.pure ?_
    simp only [settle, placed e e' moved.alike.position, moved.alike.isBlank]
    cases expected.negotiate found with
    | error err => exact ⟨rfl, moved⟩
    | ok type =>
      cases e.isBlank with
      | true => exact ⟨rfl, moved⟩
      | false => exact ⟨rfl, moved.withType type⟩

theorem expecting (ctx : Context) {expected : Ty} {infer infer' : Ty → Check (Checked Expr Ty)}
    (follows : FollowsNode move (infer expected) (infer' expected) (Expr.Moved move)) :
    FollowsNode move (Typing.expecting ctx expected infer)
      (Typing.expecting (ctx.renumber move) expected infer') (Expr.Moved move) :=
  follows.agreeing fun _ _ same => congrArg ctx.site same

end FollowsNode

end Check

/-! ## Attempts -/

namespace FollowsAttempt

open Check

variable {R : β → β → Prop}

theorem attempt {first first' : Attempt α} {next next' : α → Attempt β}
    (head : FollowsAttempt move first first' Eq)
    (tail : ∀ a, FollowsAttempt move (next a) (next' a) R) :
    FollowsAttempt move (first >>= next) (first' >>= next') R := by
  refine Follows.bind head fun result result' results => ?_
  obtain rfl := results.same
  cases result' with
  | ok a => exact tail a
  | error err => exact Follows.pure .error

theorem reads {next next' : State → Attempt β}
    (tail : ∀ s : State, FollowsAttempt move (next s) (next' (s.renumber move)) R) :
    FollowsAttempt move (do next (← state)) (do next' (← state)) R :=
  fun s => tail s s

theorem succeed {a b : β} (related : R a b) :
    FollowsAttempt move (Pure.pure a : Attempt β) (Pure.pure b) R :=
  Follows.pure (.ok related)

theorem fail {err : Diagnostic} :
    FollowsAttempt move (throw err : Attempt β) (throw err) R :=
  Follows.pure .error

theorem lift {check check' : Check β} (follows : Follows move check check' R) :
    FollowsAttempt move (liftM check : Attempt β) (liftM check') R :=
  follows.bind fun _ _ related => .pure (.ok related)

theorem ofExcept (result : Except Diagnostic β) :
    FollowsAttempt move (liftM result : Attempt β) (liftM result) Eq := by
  cases result with
  | ok a => exact Follows.pure (.ok rfl)
  | error err => exact Follows.pure .error

theorem branch {condition : Prop} [Decidable condition] {first first' second second' : Attempt β}
    (yes : FollowsAttempt move first first' R) (no : FollowsAttempt move second second' R) :
    FollowsAttempt move (if condition then first else second)
      (if condition then first' else second') R := by
  by_cases holds : condition
  · rwa [if_pos holds, if_pos holds]
  · rwa [if_neg holds, if_neg holds]

end FollowsAttempt

end PackageCheck.Typing
