import PackageCheck.Proofs.Tree.LeftOver
import PackageCheck.Proofs.Typing.Quiet

/-! # Checks that agree

Two checks agree if they leave the same state behind from whatever state they start, and come to the
same result. Their nodes may differ; they are related as far as the rules that follow look at them.

A relation of nodes may ask more of a run that goes well, in which nothing fails and the node checks.
So all rules speak of a fixed `well`, and of runs in which nothing fails if `well` is true. There is
one rule for each way of putting checks together. -/

namespace PackageCheck.Typing

/-- Whether two checks leave the same state behind and come to related values, in runs in which
    nothing fails if they are to go well. -/
def Check.Agrees (well : Bool) (check check' : Check α) (R : α → α → Prop) : Prop :=
  ∀ s, (well = true → (check.run s).2.failures = s.failures) →
    (check'.run s).2 = (check.run s).2 ∧ R (check.run s).1 (check'.run s).1

/-- Whether two checked nodes have the same result, and are related as it is asked of runs that go
    well if both check in such a run. -/
def Checked.Alike (well : Bool) (N : Bool → ν → ν → Prop) (x y : Checked ν τ) : Prop :=
  y.2 = x.2 ∧ ∀ w, (w = true → well = true ∧ ∃ a, x.2 = .ok a) → N w x.1 y.1

/-- The run of a node that does not check does not go well. -/
theorem Checked.Alike.error {well : Bool} {N : Bool → ν → ν → Prop} {node node' : ν}
    {err : Diagnostic} (related : N false node node') :
    Checked.Alike well N (node, (.error err : Except Diagnostic τ)) (node', .error err) := by
  refine ⟨rfl, fun w went => ?_⟩
  cases w with
  | false => exact related
  | true =>
    obtain ⟨-, a, impossible⟩ := went rfl
    cases impossible

/-- Whether the checks of two nodes agree. -/
abbrev Check.AgreesNode (well : Bool) (check check' : Check (Checked ν τ))
    (N : Bool → ν → ν → Prop) : Prop :=
  check.Agrees well check' (Checked.Alike well N)

namespace Check

variable {well : Bool}

/-! ## Computations -/

namespace Agrees

variable {check check' : Check α} {R : α → α → Prop}

theorem refl (check : Check α) : Agrees well check check Eq :=
  fun _ _ => ⟨rfl, rfl⟩

/-- What is known of quiet runs may be used where a run goes well. -/
theorem also {Q : α → Prop} (agrees : Agrees well check check' R)
    (quiet : ∀ s s' a, check.Quiet s a s' → Q a) :
    Agrees well check check' fun a b => R a b ∧ (well = true → Q a) := by
  intro s went
  obtain ⟨same, related⟩ := agrees s went
  exact ⟨same, related, fun well => quiet _ _ _ ⟨rfl, went well⟩⟩

theorem pure {a b : α} (related : R a b) :
    Agrees well (Pure.pure a : Check α) (Pure.pure b) R :=
  fun _ _ => ⟨rfl, related⟩

/-- If nothing fails in a run then nothing fails in its parts, since failures are not taken back. -/
theorem bind {next next' : α → Check β} {S : β → β → Prop} (first : Agrees well check check' R)
    (second : ∀ a b, R a b → Agrees well (next a) (next' b) S) :
    Agrees well (check >>= next) (check' >>= next') S := by
  intro s went
  have head := (check.grows s).failures
  have tail := ((next (check.run s).1).grows (check.run s).2).failures
  have unchanged : well = true → s.failures = (check.run s).2.failures := fun quiet =>
    head.eq_of_length_le (went quiet ▸ tail.length_le)
  obtain ⟨same, related⟩ := first s fun quiet => (unchanged quiet).symm
  rw [run_bind, run_bind, same]
  exact second _ _ related _ fun quiet => (went quiet).trans (unchanged quiet)

theorem withScope (inside : Agrees well check check' R) :
    Agrees well (withScope check) (withScope check') R := by
  intro s went
  obtain ⟨same, related⟩ := inside s.pushScope went
  exact ⟨congrArg State.popScope same, related⟩

end Agrees

/-! ## Nodes -/

namespace AgreesNode

variable {check check' : Check (Checked ν σ)} {N : Bool → ν → ν → Prop}

theorem pure {node node' : ν} {result : Except Diagnostic τ} (related : ∀ w, N w node node') :
    AgreesNode well (Pure.pure (node, result) : Check (Checked ν τ)) (Pure.pure (node', result)) N :=
  Agrees.pure ⟨rfl, fun w _ => related w⟩

theorem error {node node' : ν} {err : Diagnostic} (related : N false node node') :
    AgreesNode well (Pure.pure (node, .error err) : Check (Checked ν τ))
      (Pure.pure (node', .error err)) N :=
  Agrees.pure (.error related)

/-- What comes behind two nodes sees the same result. -/
theorem bind {next next' : Checked ν σ → Check β} {S : β → β → Prop}
    (agrees : AgreesNode well check check' N)
    (tail : ∀ (node node' : ν) (result : Except Diagnostic σ),
      (∀ w, (w = true → well = true ∧ ∃ a, result = .ok a) → N w node node') →
        Agrees well (next (node, result)) (next' (node', result)) S) :
    Agrees well (check >>= next) (check' >>= next') S := by
  apply Agrees.bind agrees
  rintro ⟨node, _⟩ ⟨node', result⟩ ⟨rfl, related⟩
  exact tail node node' result related

theorem rebuild {f g : ν → μ} {M : Bool → μ → μ → Prop} (agrees : AgreesNode well check check' N)
    (built : ∀ w a b, (w = true → well = true) → N w a b → M w (f a) (g b)) :
    AgreesNode well (check.rebuild f) (check'.rebuild g) M := by
  refine agrees.bind fun node node' result related => Agrees.pure ⟨rfl, fun w went => ?_⟩
  exact built w node node' (fun quiet => (went quiet).1) (related w went)

theorem mapResult {f : σ → τ} (agrees : AgreesNode well check check' N) :
    AgreesNode well (check.mapResult f) (check'.mapResult f) N := by
  refine agrees.bind fun node node' result related => Agrees.pure ?_
  refine ⟨rfl, fun w went => related w fun quiet => ?_⟩
  obtain ⟨well, b, ended⟩ := went quiet
  cases result with
  | error err => cases ended
  | ok a => exact ⟨well, a, rfl⟩

/-- A node that stays as it is unless the same attempt succeeds. Something may be known of the
    attempt if it does. -/
theorem givenKnown {Q : α → Prop} {first : Attempt α} {node node' : ν}
    {next next' : α → Check (Checked ν τ)} (known : ∀ s s' a, Succeeds first s a s' → Q a)
    (untouched : N false node node')
    (tail : ∀ a, (well = true → Q a) → AgreesNode well (next a) (next' a) N) :
    AgreesNode well (Typing.given first node next) (Typing.given first node' next') N := by
  have head : Agrees well first.run first.run fun result result' => result = result' ∧
      (well = true → ∀ a, result = .ok a → Q a) := by
    refine (Agrees.refl first.run).also fun s s' result quiet a succeeded => ?_
    subst succeeded
    exact known s s' a quiet
  refine head.bind ?_
  rintro result _ ⟨rfl, fact⟩
  cases result with
  | error err => exact error untouched
  | ok a => exact tail a fun well => fact well a rfl

theorem given {first : Attempt α} {node node' : ν} {next next' : α → Check (Checked ν τ)}
    (untouched : N false node node') (tail : ∀ a, AgreesNode well (next a) (next' a) N) :
    AgreesNode well (Typing.given first node next) (Typing.given first node' next') N :=
  givenKnown (Q := fun _ => True) (fun _ _ _ _ => True.intro) untouched fun a _ => tail a

/-- A rule makes the same of the same result. -/
theorem conclude (agrees : AgreesNode well check check' N) (rule : σ → Attempt τ) :
    AgreesNode well (check.conclude rule) (check'.conclude rule) N := by
  refine agrees.bind fun node node' result related => ?_
  cases result with
  | error err => exact error (related false nofun)
  | ok a =>
    refine Agrees.bind (.refl (rule a).run) ?_
    rintro concluded _ rfl
    exact Agrees.pure ⟨rfl, fun w went => related w fun quiet => ⟨(went quiet).1, a, rfl⟩⟩

/-- A second node, which is checked if the first one does. Something may be known of the result of
    the first one. -/
theorem andThenKnown {Q : σ → Prop} {node node' : μ} {next next' : σ → Check (Checked μ τ)}
    {M : Bool → μ → μ → Prop} (head : AgreesNode well check check' N)
    (known : ∀ s s' part a, check.Passes s part a s' → Q a) (untouched : M false node node')
    (tail : ∀ a, (well = true → Q a) → AgreesNode well (next a) (next' a) M) :
    AgreesNode well (check.andThen node next) (check'.andThen node' next') fun w both both' =>
      N w both.1 both'.1 ∧ M w both.2 both'.2 := by
  have head : Agrees well check check' fun x y => Checked.Alike well N x y ∧
      (well = true → ∀ a, x.2 = .ok a → Q a) := by
    refine Agrees.also head fun s s' x quiet a ended => ?_
    obtain ⟨part, result⟩ := x
    obtain rfl : result = .ok a := ended
    exact known s s' part a quiet
  refine head.bind fun x y alike => ?_
  obtain ⟨first, result⟩ := x
  obtain ⟨first', result'⟩ := y
  obtain ⟨⟨same, related⟩, fact⟩ := alike
  obtain rfl : result' = result := same
  cases result' with
  | error err => exact error ⟨related false nofun, untouched⟩
  | ok a =>
    refine (tail a fun well => fact well a rfl).bind fun second second' later others =>
      Agrees.pure ⟨rfl, fun w went => ?_⟩
    exact ⟨related w fun quiet => ⟨(went quiet).1, a, rfl⟩, others w went⟩

theorem andThen {node node' : μ} {next next' : σ → Check (Checked μ τ)} {M : Bool → μ → μ → Prop}
    (head : AgreesNode well check check' N) (untouched : M false node node')
    (tail : ∀ a, AgreesNode well (next a) (next' a) M) :
    AgreesNode well (check.andThen node next) (check'.andThen node' next') fun w both both' =>
      N w both.1 both'.1 ∧ M w both.2 both'.2 :=
  head.andThenKnown (Q := fun _ => True) (fun _ _ _ _ _ => True.intro) untouched fun a _ => tail a

theorem alongside {other other' : Check (Checked μ τ)} {M : Bool → μ → μ → Prop}
    (head : AgreesNode well check check' N) (tail : AgreesNode well other other' M) :
    AgreesNode well (check.alongside other) (check'.alongside other') fun w both both' =>
      N w both.1 both'.1 ∧ M w both.2 both'.2 := by
  refine head.bind fun first first' result related =>
    tail.bind fun second second' others later => Agrees.pure ⟨rfl, fun w went => ?_⟩
  have both : w = true → well = true ∧ (∃ a, result = .ok a) ∧ ∃ b, others = .ok b := by
    intro quiet
    obtain ⟨well, b, ended⟩ := went quiet
    cases result with
    | error err => cases ended
    | ok a => exact ⟨well, ⟨a, rfl⟩, b, ended⟩
  exact ⟨related w fun quiet => ⟨(both quiet).1, (both quiet).2.1⟩,
    later w fun quiet => ⟨(both quiet).1, (both quiet).2.2⟩⟩

/-- In a run that goes well the result is taken of a node that checks. -/
theorem recorded (agrees : AgreesNode well check check' N) :
    Agrees well (Typing.recorded check) (Typing.recorded check') (N well) := by
  refine Agrees.bind (.refl state) fun before _ same => ?_
  subst same
  refine Agrees.bind (.refl enter) fun _ _ _ => ?_
  refine agrees.bind fun node node' result related => ?_
  intro s went
  refine ⟨rfl, related well fun quiet => ⟨quiet, ?_⟩⟩
  -- an error would have been noted as a failure
  have taken : (record result).Quiet s () _ := ⟨rfl, went quiet⟩
  exact (Quiet.record_inv taken).1

theorem noted (agrees : AgreesNode well check check' N) :
    AgreesNode well (Typing.noted check) (Typing.noted check') N := by
  refine agrees.bind fun node node' result related => ?_
  refine Agrees.bind (.refl (note result)) fun _ _ _ => ?_
  exact Agrees.pure ⟨rfl, related⟩

/-- What is settled depends on the place of an expression and on whether there is one. -/
theorem agreeing {what : String} {site : Expr → Site} {expected : Ty}
    {check check' : Check (Checked Expr Ty)} (agrees : AgreesNode well check check' Expr.Alike)
    (placed : ∀ e e' : Expr, e'.position = e.position → site e' = site e) :
    AgreesNode well (Typing.agreeing what site expected check)
      (Typing.agreeing what site expected check') Expr.Alike := by
  refine agrees.bind fun e e' result related => ?_
  have untouched : Expr.Alike false e e' := related false nofun
  cases result with
  | error err => exact error untouched
  | ok found =>
    refine Agrees.pure ?_
    have blank := untouched.isBlank
    simp only [settle, placed e e' untouched.position, blank]
    cases expected.negotiate found with
    | error err => exact .error untouched
    | ok type =>
      refine ⟨rfl, fun w went => ?_⟩
      have alike := related w fun quiet => ⟨(went quiet).1, found, rfl⟩
      -- where there is no expression, nothing takes the common type
      cases e.isBlank with
      | true => exact alike
      | false => exact ⟨alike.position, alike.outline, fun _ => rfl, alike.inside⟩

theorem expecting (ctx : Context) {expected : Ty} {infer infer' : Ty → Check (Checked Expr Ty)}
    (agrees : AgreesNode well (infer expected) (infer' expected) Expr.Alike) :
    AgreesNode well (Typing.expecting ctx expected infer) (Typing.expecting ctx expected infer')
      Expr.Alike :=
  agrees.agreeing fun _ _ same => congrArg ctx.site same

end AgreesNode

end Check

end PackageCheck.Typing
