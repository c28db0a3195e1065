import PackageCheck.Proofs.Typing.Surroundings
import PackageCheck.Proofs.Typing.Tally

/-! # Where errors come from

What a check adds to the errors of a kind is accounted for by the jumps of the tree that it gives
back. Each error belongs to a jump that leads nowhere, as long as the names in question are bound.
There is one rule for each way of putting checks together. -/

namespace PackageCheck.Typing

open Check

/-- Whether the number of errors that a check adds, of a kind, is related to what it comes to, in
    every run that ends with a table and begins with some names bound. -/
def Check.Tallies (table : SymbolTable) (p : Diagnostic → Bool) (names : String → Prop)
    (check : Check α) (Q : α → Nat → Prop) : Prop :=
  ∀ s : State, s.WellScoped → (check.run s).2.symbols.Within table → s.Binds names →
    ∃ n, (check.run s).2.tally p = s.tally p + n ∧ Q (check.run s).1 n

/-- Whether a check adds no more errors of a kind than what it comes to accounts for. -/
abbrev Check.Adds (table : SymbolTable) (p : Diagnostic → Bool) (names : String → Prop)
    (check : Check α) (most : α → Nat) : Prop :=
  check.Tallies table p names fun a n => n ≤ most a

/-- Whether the check of a node adds no more errors of a kind than its node accounts for, the one in
    which it ends among them. -/
abbrev Check.AddsNode (table : SymbolTable) (p : Diagnostic → Bool) (names : String → Prop)
    (check : Check (Checked ν τ)) (most : ν → Nat) : Prop :=
  check.Tallies table p names fun checked n => n + pending p checked.2 ≤ most checked.1

section Counting

variable {table : SymbolTable} {p : Diagnostic → Bool} {names : String → Prop}

/-! ## Computations -/

namespace Check.Tallies

variable {Q : α → Nat → Prop}

theorem pure {a : α} (holds : Q a 0) : Tallies table p names (Pure.pure a : Check α) Q :=
  fun _ _ _ _ => ⟨0, rfl, holds⟩

theorem bind {check : Check α} {next : α → Check β} {R : β → Nat → Prop}
    (first : check.Tallies table p names Q)
    (second : ∀ a n, Q a n → (next a).Tallies table p names fun b m => R b (n + m)) :
    (check >>= next).Tallies table p names R := by
  intro s named within binds
  have between : (check.run s).2.WellScoped := named.grows (check.grows s)
  have later := ((next (check.run s).1).grows (check.run s).2).symbols
  obtain ⟨n, same, holds⟩ := first s named (later.toWithin.trans within) binds
  obtain ⟨m, same', holds'⟩ := second _ n holds _ between within (binds.grows (check.grows s))
  exact ⟨n + m, by rw [run_bind, same', same, Nat.add_assoc], holds'⟩

theorem imp {check : Check α} {R : α → Nat → Prop} (tallies : check.Tallies table p names Q)
    (implied : ∀ a n, Q a n → R a n) : check.Tallies table p names R := by
  intro s named within binds
  obtain ⟨n, same, holds⟩ := tallies s named within binds
  exact ⟨n, same, implied _ _ holds⟩

/-- Whatever a check does, it takes no error back. -/
theorem trivial (check : Check α) : check.Tallies table p names fun _ _ => True := by
  intro s _ _ _
  have more := State.tally_le_of_grows (p := p) (check.grows s)
  exact ⟨(check.run s).2.tally p - s.tally p, by omega, True.intro⟩

/-- A check in front of another one, if more errors do no harm to what is said of that one. -/
theorem past {check : Check β} {next : β → Check α} (more : ∀ a n m, n ≤ m → Q a n → Q a m)
    (tail : ∀ b, (next b).Tallies table p names Q) : (check >>= next).Tallies table p names Q := by
  apply bind (trivial check)
  intro b n _
  apply (tail b).imp
  intro a m holds
  exact more a m (n + m) (Nat.le_add_left m n) holds

/-- A check that leaves the errors alone. -/
theorem still {check : Check α} (same : ∀ s, (check.run s).2.tally p = s.tally p) :
    check.Tallies table p names fun _ n => n = 0 :=
  fun s _ _ _ => ⟨0, same s, rfl⟩

/-- A check that leaves the errors alone, in front of another one. -/
theorem mute {check : Check β} {next : β → Check α}
    (same : ∀ s, (check.run s).2.tally p = s.tally p)
    (tail : ∀ b, (next b).Tallies table p names Q) : (check >>= next).Tallies table p names Q := by
  refine bind (still same) fun b n none => ?_
  subst none
  simpa only [Nat.zero_add] using tail b

/-- An attempt that ends in no error of the kind, in front of a check. -/
theorem attempted {attempt : Attempt β} {next : Except Diagnostic β → Check α}
    (silent : Silent p names attempt)
    (tail : ∀ result, pending p result = 0 → (next result).Tallies table p names Q) :
    (attempt.run >>= next).Tallies table p names Q := by
  have first : attempt.run.Tallies table p names fun result n => n = 0 ∧ pending p result = 0 := by
    intro s _ _ binds
    obtain ⟨same, none⟩ := silent s binds
    exact ⟨0, same, rfl, none⟩
  refine bind first fun result n holds => ?_
  obtain ⟨rfl, none⟩ := holds
  simpa only [Nat.zero_add] using tail result none

theorem state {next : State → Check α}
    (tail : ∀ s : State, s.Binds names → (next s).Tallies table p names Q) :
    (Typing.state >>= next).Tallies table p names Q :=
  fun s named within binds => tail s binds s named within binds

/-- What else is known of what a check comes to. -/
theorem also {check : Check α} {R : α → Prop} (tallies : check.Tallies table p names Q)
    (ensures : check.Ensures table R) :
    check.Tallies table p names fun a n => R a ∧ Q a n := by
  intro s named within binds
  obtain ⟨n, same, holds⟩ := tallies s named within binds
  exact ⟨n, same, ensures s named within, holds⟩

theorem withScope {check : Check α} (inside : check.Tallies table p names Q) :
    (Typing.withScope check).Tallies table p names Q :=
  fun s named within binds => inside s.pushScope named.pushScope within binds.pushScope

/-- The error of a statement is added where it is taken. -/
theorem recorded {check : Check (Checked ν τ)} {R : ν → Nat → Prop}
    (inside : check.Tallies table p names fun checked n => R checked.1 (n + pending p checked.2)) :
    (Typing.recorded check).Tallies table p names R := by
  intro s named within binds
  rw [run_recorded] at within ⊢
  have kept : ((check.run s.enter).2.symbols).Within table :=
    (((record (check.run s.enter).1.2).grows _).symbols.toWithin).trans within
  obtain ⟨n, same, holds⟩ := inside s.enter named kept binds
  refine ⟨_, ?_, holds⟩
  exact (tally_record _ _).trans (by rw [same, Nat.add_assoc]; rfl)

theorem noted {check : Check (Checked ν τ)} {R : Checked ν τ → Nat → Prop}
    (inside : check.Tallies table p names R) : (Typing.noted check).Tallies table p names R := by
  refine bind inside fun checked n holds => mute (fun s => ?_) fun _ => pure holds
  cases checked.2 <;> rfl

end Check.Tallies

/-! ## Nodes -/

namespace Check.AddsNode

variable {M : ν → Nat}

theorem pure {node : ν} {result : Except Diagnostic τ} (none : pending p result = 0) :
    AddsNode table p names (Pure.pure (node, result) : Check (Checked ν τ)) M :=
  Tallies.pure (by simp [none])

theorem ok {node : ν} {a : τ} :
    AddsNode table p names (Pure.pure (node, .ok a) : Check (Checked ν τ)) M :=
  pure rfl

theorem recorded {check : Check (Checked ν τ)} (inside : check.AddsNode table p names M) :
    (Typing.recorded check).Adds table p names M :=
  Tallies.recorded inside

theorem noted {check : Check (Checked ν τ)} (inside : check.AddsNode table p names M) :
    (Typing.noted check).AddsNode table p names M :=
  Tallies.noted inside

theorem given {attempt : Attempt α} {node : ν} {next : α → Check (Checked ν τ)}
    (silent : Silent p names attempt) (tail : ∀ a, (next a).AddsNode table p names M) :
    (Typing.given attempt node next).AddsNode table p names M := by
  refine Tallies.attempted silent fun result none => ?_
  cases result with
  | ok a => exact tail a
  | error err => exact pure none

theorem rebuild {check : Check (Checked ν τ)} {f : ν → μ} {L : μ → Nat}
    (inside : check.AddsNode table p names M) (built : ∀ x, M x ≤ L (f x)) :
    (check.rebuild f).AddsNode table p names L :=
  Tallies.bind inside fun checked _ few => Tallies.pure (Nat.le_trans few (built checked.1))

theorem mapResult {check : Check (Checked ν σ)} {f : σ → τ}
    (inside : check.AddsNode table p names M) :
    (check.mapResult f).AddsNode table p names M := by
  refine Tallies.bind inside fun checked n few => Tallies.pure ?_
  rw [pending_map]
  exact few

theorem conclude {check : Check (Checked ν σ)} {rule : σ → Attempt τ}
    (inside : check.AddsNode table p names M) (ruled : ∀ a, Silent p names (rule a)) :
    (check.conclude rule).AddsNode table p names M := by
  refine Tallies.bind inside fun checked n few => ?_
  obtain ⟨node, result⟩ := checked
  have ruling : Silent p names (liftM result >>= rule) ∨ ∃ err, result = .error err := by
    cases result with
    | ok a => exact Or.inl (ruled a)
    | error err => exact Or.inr ⟨err, rfl⟩
  obtain silent | ⟨err, rfl⟩ := ruling
  · refine Tallies.attempted silent fun result' none => Tallies.pure ?_
    dsimp only at few ⊢
    omega
  · have stopped : (Pure.pure (node, .error err) : Check (Checked ν τ)).Tallies table p names
        fun checked m => n + m + pending p checked.2 ≤ M checked.1 := Tallies.pure few
    exact stopped

theorem andThen {check : Check (Checked ν σ)} {node : μ} {next : σ → Check (Checked μ τ)}
    {L : μ → Nat} (head : check.AddsNode table p names M)
    (tail : ∀ a, (next a).AddsNode table p names L) :
    (check.andThen node next).AddsNode table p names fun x => M x.1 + L x.2 := by
  refine Tallies.bind head fun checked n few => ?_
  obtain ⟨first, result⟩ := checked
  cases result with
  | error err =>
    refine Tallies.pure ?_
    change n + pending p _ ≤ M first + L node
    exact Nat.le_trans few (Nat.le_add_right _ _)
  | ok a =>
    refine Tallies.bind (tail a) fun checked' m few' => Tallies.pure ?_
    simp only [pending_ok] at few few' ⊢
    omega

/-- The errors of both nodes are added up, though only the first of them is pending. -/
theorem alongside {check : Check (Checked ν σ)} {other : Check (Checked μ τ)} {L : μ → Nat}
    (head : check.AddsNode table p names M) (tail : other.AddsNode table p names L) :
    (check.alongside other).AddsNode table p names fun x => M x.1 + L x.2 := by
  refine Tallies.bind head fun checked n few => Tallies.bind tail fun checked' m few' => ?_
  obtain ⟨first, result⟩ := checked
  refine Tallies.pure ?_
  cases result with
  | error err =>
    change n + (m + 0) + pending p (.error err : Except Diagnostic τ) ≤
      M first + L checked'.1
    simp only [pending_error] at few ⊢
    omega
  | ok a =>
    change n + (m + 0) + pending p checked'.2 ≤ M first + L checked'.1
    simp only [pending_ok] at few
    omega

theorem agreeing {what : String} {site : Expr → Site} {expected : Ty} {M : Expr → Nat}
    {check : Check (Checked Expr Ty)} (watches : Watches p names)
    (typed : ∀ (e : Expr) (type : Ty), M { e with type := type } = M e)
    (inside : check.AddsNode table p names M) :
    (Typing.agreeing what site expected check).AddsNode table p names M := by
  refine Tallies.bind inside fun checked n few => ?_
  obtain ⟨e, result⟩ := checked
  cases result with
  | error err => exact Tallies.pure few
  | ok found =>
    refine Tallies.pure ?_
    have none := Silent.settle watches what (site e) expected e found
    have kept : M (settle what (site e) expected e found).1 = M e := by
      unfold settle
      split
      · dsimp only
        split
        · rfl
        · exact typed e _
      · rfl
    rw [none, kept]
    simpa using few

/-- A type is declared without an error of the kind, and so is its definition resolved. -/
theorem declareType {ctx : Context} {name : String} {position : Position} {node : ν}
    {define : Attempt (Ty × α)} {next : SymbolId → α → Check (Checked ν Unit)}
    (watches : Watches p names) (silent : Silent p names define)
    (tail : ∀ id a, (next id a).AddsNode table p names M) :
    (Typing.declareType ctx name position node define next).AddsNode table p names
      fun x => M x.2 := by
  intro s named within binds
  cases clash : s.clash? name with
  | some previous =>
    rw [run_declareType_of_clash clash]
    refine ⟨0, rfl, ?_⟩
    have none : pending p (.error (redeclaration ctx s name position previous) :
      Except Diagnostic Unit) = 0 := watches.pending_error rfl
    change 0 + pending p (.error _ : Except Diagnostic Unit) ≤ M node
    rw [none]
    exact Nat.zero_le _
  | none =>
    have declared : s.Grows (s.declaring ctx name position) :=
      State.grows_insertNamed (by simpa [Symbol.name] using clash)
    obtain ⟨same, none⟩ := silent _ (binds.grows declared)
    cases defined : (define.run.run (s.declaring ctx name position)).1 with
    | error err =>
      rw [run_declareType_of_error clash defined]
      rw [defined] at none
      refine ⟨0, same, ?_⟩
      change 0 + pending p (.error err : Except Diagnostic (Ty × α)) ≤ _
      rw [none]
      exact Nat.zero_le _
    | ok found =>
      rw [run_declareType_of_ok clash defined] at within ⊢
      have grows := (declared.trans (define.run.grows _)).setAliased s.symbols.get?_nextId found.1
      obtain ⟨n, same', few⟩ := tail s.symbols.nextId found.2 _ (named.grows grows)
        ((State.within_markIfFailed _ _ _).trans within) (binds.grows grows)
      refine ⟨n, (State.tally_markIfFailed _ _ _).trans (same'.trans ?_), few⟩
      exact congrArg (· + n) same

end Check.AddsNode

end Counting

end PackageCheck.Typing
