import PackageCheck.Proofs.Typing.Outcome

/-! # Checks that repeat

A check repeats if a second one, of what it has come to, comes to the same from the same state and
leaves the same state behind. Runs are taken apart with `Check.bind_inv`, and put together again
with `Check.run_bind_of`. There is one rule for each way of putting checks together. -/

namespace PackageCheck.Typing

/-- Whether a check comes to the same again, when it is run on what it has come to. -/
def Check.Repeats (check : Check α) (again : α → Check α) : Prop :=
  ∀ ⦃s s' : State⦄ ⦃a : α⦄, s.WellScoped → check.run s = (a, s') → (again a).run s = (a, s')

/-- Whether the check of a node comes to the same again, when it is run on the annotated node. -/
def Check.RepeatsNode (check : Check (Checked ν τ)) (again : ν → Check (Checked ν τ)) : Prop :=
  check.Repeats fun checked => again checked.1

namespace Check

variable {s s' s'' : State}

/-! ## Runs -/

theorem wellScoped_of_run {check : Check α} {a : α} (named : s.WellScoped)
    (ran : check.run s = (a, s')) : s'.WellScoped := by
  have grows := check.grows s
  rw [ran] at grows
  exact named.grows grows

/-- What every run of a check comes to. -/
theorem Ensures.of_run {check : Check α} {Q : α → Prop} {a : α}
    (ensures : ∀ table, check.Ensures table Q) (named : s.WellScoped)
    (ran : check.run s = (a, s')) : Q a := by
  have holds := ensures _ s named (SymbolTable.Extends.refl _).toWithin
  rwa [ran] at holds

/-- What every run of a check gives back looks the same. -/
theorem Ensures.seen_of_run {check : Check α} (view : α → μ) {seen : μ} {a : α}
    (shows : ∀ table, check.Ensures table fun a => view a = seen) (named : s.WellScoped)
    (ran : check.run s = (a, s')) : view a = seen :=
  of_run shows named ran

theorem run_bind_of {check : Check α} {a : α} (ran : check.run s = (a, s')) (next : α → Check β) :
    (check >>= next).run s = (next a).run s' := by
  rw [run_bind, ran]

theorem bind_inv {check : Check α} {next : α → Check β} {b : β}
    (ran : (check >>= next).run s = (b, s')) :
    ∃ a s₁, check.run s = (a, s₁) ∧ (next a).run s₁ = (b, s') :=
  ⟨_, _, rfl, ran⟩

theorem run_rebuild_of {check : Check (Checked ν τ)} {node : ν} {result : Except Diagnostic τ}
    (ran : check.run s = ((node, result), s')) (f : ν → μ) :
    (check.rebuild f).run s = ((f node, result), s') :=
  run_bind_of ran _

theorem rebuild_inv {check : Check (Checked ν τ)} {f : ν → μ} {whole : μ}
    {result : Except Diagnostic τ} (ran : (check.rebuild f).run s = ((whole, result), s')) :
    ∃ node, check.run s = ((node, result), s') ∧ whole = f node := by
  obtain ⟨⟨node, _⟩, s₁, inside, rest⟩ := bind_inv ran
  cases rest
  exact ⟨node, inside, rfl⟩

theorem run_withScope_of {check : Check α} {a : α} (ran : check.run s.pushScope = (a, s')) :
    (withScope check).run s = (a, s'.popScope) :=
  congrArg (fun ended : α × State => (ended.1, ended.2.popScope)) ran

theorem withScope_inv {check : Check α} {a : α} (ran : (withScope check).run s = (a, s')) :
    ∃ s₁, check.run s.pushScope = (a, s₁) ∧ s' = s₁.popScope := by
  obtain ⟨same, behind⟩ := Prod.mk.inj ran
  exact ⟨(check.run s.pushScope).2, Prod.ext same rfl, behind.symm⟩

/-! ## Computations -/

namespace Repeats

variable {check : Check α} {again : α → Check α}

theorem withScope (inside : check.Repeats again) :
    (Typing.withScope check).Repeats fun a => Typing.withScope (again a) := by
  intro s s' a named ran
  obtain ⟨s₁, inner, rfl⟩ := withScope_inv ran
  exact run_withScope_of (inside named.pushScope inner)

end Repeats

/-! ## Nodes -/

namespace RepeatsNode

variable {check : Check (Checked ν σ)} {again : ν → Check (Checked ν σ)}

theorem pure {node : ν} {result : Except Diagnostic τ} {again : ν → Check (Checked ν τ)}
    (same : again node = Pure.pure (node, result)) :
    RepeatsNode (Pure.pure (node, result) : Check (Checked ν τ)) again := by
  intro s s' checked _ ran
  cases ran
  exact congrArg (Check.run · s) same

/-- A check that gives its node back does so again. -/
theorem stops {node : ν} {result : Except Diagnostic σ} (stopped : check = Pure.pure (node, result))
    (same : again node = check) : check.RepeatsNode again := by
  subst stopped
  exact .pure same

/-- What is put around the annotated node may differ, as long as it makes the same of that node. -/
theorem rebuildKnown {f : ν → μ} {g : ν → ν → μ} {N : ν → Prop} {again' : μ → Check (Checked μ σ)}
    (inside : check.RepeatsNode again)
    (known : ∀ table, check.EnsuresNode table N fun _ _ => True)
    (same : ∀ node, N node → again' (f node) = (again node).rebuild (g node))
    (fixed : ∀ node, g node node = f node) : (check.rebuild f).RepeatsNode again' := by
  rintro s s' ⟨whole, result⟩ named ran
  obtain ⟨node, inner, rfl⟩ := rebuild_inv ran
  have holds : N node := (Ensures.of_run known named inner).1
  change (again' (f node)).run s = _
  rw [same node holds, run_rebuild_of (inside named inner), fixed]

theorem rebuild {f : ν → μ} {again' : μ → Check (Checked μ σ)} (inside : check.RepeatsNode again)
    (same : ∀ node, again' (f node) = (again node).rebuild f) :
    (check.rebuild f).RepeatsNode again' :=
  inside.rebuildKnown (N := fun _ => True) (fun _ => .trivial _) (fun node _ => same node)
    fun _ => rfl

theorem mapResult {f : σ → τ} (inside : check.RepeatsNode again) :
    (check.mapResult f).RepeatsNode fun node => (again node).mapResult f := by
  intro s s' checked named ran
  obtain ⟨⟨node, result⟩, s₁, inner, rest⟩ := bind_inv ran
  cases rest
  exact run_bind_of (inside named inner) _

theorem conclude {rule : σ → Attempt τ} (inside : check.RepeatsNode again) :
    (check.conclude rule).RepeatsNode fun node => (again node).conclude rule := by
  intro s s' checked named ran
  obtain ⟨⟨node, result⟩, s₁, inner, rest⟩ := bind_inv ran
  obtain ⟨concluded, s₂, ruled, ended⟩ := bind_inv rest
  cases ended
  exact (run_bind_of (inside named inner) _).trans rest

/-- The attempt in front of a node is made again. It comes to the same, since it does not look at
    what comes behind it. -/
theorem given {attempt : Attempt α} {node : ν} {next : α → Check (Checked ν σ)}
    (untouched : again node = Typing.given attempt node next)
    (rest : ∀ {s s' s'' a node' result}, s.WellScoped → s'.WellScoped →
      attempt.run.run s = (.ok a, s') → (next a).run s' = ((node', result), s'') →
        (again node').run s = ((node', result), s'')) :
    (Typing.given attempt node next).RepeatsNode again := by
  intro s s' checked named ran
  obtain ⟨result, s₁, attempted, behind⟩ := bind_inv ran
  cases result with
  | ok a => exact rest named (wellScoped_of_run named attempted) attempted behind
  | error err =>
    cases behind
    change (again node).run s = _
    rw [untouched, run_given_of_error attempted]

/-- An attempt that does not depend on the node. -/
theorem givenSame {attempt : Attempt α} {node : ν} {next : α → Check (Checked ν σ)}
    {k : ν → α → Check (Checked ν σ)} (rest : ∀ a, (next a).RepeatsNode (k · a)) :
    (Typing.given attempt node next).RepeatsNode fun node =>
      Typing.given attempt node (k node) := by
  intro s s' checked named ran
  obtain ⟨result, s₁, attempted, behind⟩ := bind_inv ran
  cases result with
  | ok a =>
    change (Typing.given attempt checked.1 (k checked.1)).run s = _
    rw [run_given_of_ok attempted]
    exact rest a (wellScoped_of_run named attempted) behind
  | error err =>
    cases behind
    exact run_given_of_error attempted node _

theorem andThen {node : μ} {next : σ → Check (Checked μ τ)} {k : μ → σ → Check (Checked μ τ)}
    (head : check.RepeatsNode again) (tail : ∀ a, (next a).RepeatsNode (k · a)) :
    (check.andThen node next).RepeatsNode fun both =>
      (again both.1).andThen both.2 (k both.2) := by
  intro s s' checked named ran
  obtain ⟨⟨first, result⟩, s₁, checkedFirst, behind⟩ := bind_inv ran
  obtain ⟨⟨second, result'⟩, s₂, checkedSecond, ended⟩ := bind_inv behind
  cases ended
  have repeated := givenSame tail (wellScoped_of_run named checkedFirst) checkedSecond
  exact (run_bind_of (head named checkedFirst) _).trans (run_bind_of repeated _)

theorem alongside {other : Check (Checked μ τ)} {again' : μ → Check (Checked μ τ)}
    (head : check.RepeatsNode again) (tail : other.RepeatsNode again') :
    (check.alongside other).RepeatsNode fun both => (again both.1).alongside (again' both.2) := by
  intro s s' checked named ran
  obtain ⟨⟨first, result⟩, s₁, checkedFirst, behind⟩ := bind_inv ran
  obtain ⟨⟨second, result'⟩, s₂, checkedSecond, ended⟩ := bind_inv behind
  cases ended
  exact (run_bind_of (head named checkedFirst) _).trans
    (run_bind_of (tail (wellScoped_of_run named checkedFirst) checkedSecond) _)

theorem recorded (inside : check.RepeatsNode again) :
    (Typing.recorded check).Repeats fun node => Typing.recorded (again node) := by
  intro s s' node named ran
  rw [run_recorded] at ran
  generalize checked : check.run s.enter = ended at ran
  obtain ⟨⟨node', result⟩, s₁⟩ := ended
  cases ran
  have entered : s.enter.WellScoped := named
  rw [run_recorded, inside entered checked]

theorem noted (inside : check.RepeatsNode again) :
    (Typing.noted check).RepeatsNode fun node => Typing.noted (again node) := by
  intro s s' checked named ran
  obtain ⟨⟨node, result⟩, s₁, inner, rest⟩ := bind_inv ran
  cases rest
  exact run_bind_of (inside named inner) _

/-- The definition of a type is looked at again in the same state, if it is the same one. -/
theorem declareType {ctx : Context} {name : String} {position : Position}
    {define : Attempt (Ty × α)} {node : ν} {next : SymbolId → α → Check (Checked ν Unit)}
    {k : ν → SymbolId → α → Check (Checked ν Unit)}
    (rest : ∀ id a, (next id a).RepeatsNode (k · id a)) :
    (Typing.declareType ctx name position node define next).RepeatsNode fun declared =>
      Typing.declareType ctx name position declared.2 define (k declared.2) := by
  intro s s' checked named ran
  -- what has failed in front of the node fails again, since nothing there depends on the node
  cases clash : s.clash? name with
  | some previous =>
    rw [run_declareType_of_clash clash] at ran
    cases ran
    exact run_declareType_of_clash clash
  | none =>
    cases defined : (define.run.run (s.declaring ctx name position)).1 with
    | error err =>
      rw [run_declareType_of_error clash defined] at ran
      cases ran
      exact run_declareType_of_error clash defined
    | ok found =>
      obtain ⟨target, a⟩ := found
      rw [run_declareType_of_ok clash defined] at ran
      have declaring : s.Grows (s.declaring ctx name position) :=
        State.grows_insertNamed (by simpa [Symbol.name] using clash)
      have aliased : State.WellScoped ((define.run.run (s.declaring ctx name position)).2.setAliased
          s.symbols.nextId target) :=
        named.grows ((declaring.trans (define.run.grows _)).setAliased s.symbols.get?_nextId target)
      dsimp only at ran
      generalize checked : (next s.symbols.nextId a).run _ = ended at ran
      obtain ⟨⟨node', result⟩, s₁⟩ := ended
      cases ran
      have repeated := rest s.symbols.nextId a aliased checked
      dsimp only at repeated ⊢
      rw [run_declareType_of_ok clash defined, repeated]

/-- An expression takes the settled type, which the second check must not depend on. -/
theorem agreeing {what : String} {site : Expr → Site} {expected : Ty}
    {check : Check (Checked Expr Ty)} {again : Expr → Check (Checked Expr Ty)}
    (inside : check.RepeatsNode again)
    (retyped : ∀ {s s' e e' type found}, (again e).run s = ((e', .ok found), s') →
      (again { e with type := type }).run s = ((e', .ok found), s')) :
    (Typing.agreeing what site expected check).RepeatsNode fun e =>
      Typing.agreeing what site expected (again e) := by
  intro s s' checked named ran
  obtain ⟨⟨e, result⟩, s₁, inner, rest⟩ := bind_inv ran
  have repeated : (again e).run s = ((e, result), s₁) := inside named inner
  cases result with
  | error err =>
    cases rest
    exact run_bind_of repeated _
  | ok found =>
    cases rest
    -- the type is only settled where the expected one fits, else the expression stays as it is
    have annotated : (again (settle what (site e) expected e found).1).run s =
        ((e, .ok found), s') := by
      unfold settle
      split
      · split
        · exact repeated
        · exact retyped repeated
      · exact repeated
    exact run_bind_of annotated _

end RepeatsNode

end Check

end PackageCheck.Typing
