import PackageCheck.Proofs.Ty.Refinement
import PackageCheck.Proofs.Typing.Quiet

/-! # Effects of quiet runs

What a quiet run changes is put together from what its parts change, in their order. So an effect
that can be followed by another one has to be stated of the single steps only. There is one rule
for each way of putting checks together.

The rules also carry a property of the results from part to part. A check that ends in an error has
no quiet run in which its node checks, so it has any effect. -/

namespace PackageCheck.Typing

/-- A kind of effects on the state, which can follow each other, and what holds of the state
    before and after each. -/
structure Effect (W : Type) where
  Invariant : State → Prop
  /-- Whether an effect leads from one state to another. -/
  Leads : W → State → State → Prop
  none : W
  followedBy : W → W → W
  refl : ∀ {s}, Invariant s → Leads none s s
  trans : ∀ {w w' s s₁ s₂}, Leads w s s₁ → Leads w' s₁ s₂ → Leads (followedBy w w') s s₂
  /-- It does not matter which statement is at hand, nor whether it is tainted. -/
  entered : ∀ {s}, Invariant s → Invariant s.enter
  left : ∀ {w s s₁}, Invariant s₁ → Leads w s.enter s₁ →
    Invariant ({ s₁ with tainted := false }.leave s) ∧
      Leads w s ({ s₁ with tainted := false }.leave s)

namespace Check

variable {W : Type} (E : Effect W)

/-- Whether the quiet runs of a check have an effect, and what the check comes to a property. -/
def Has (check : Check α) (w : W) (V : α → Prop) : Prop :=
  ∀ s s' a, E.Invariant s → check.Quiet s a s' → E.Invariant s' ∧ E.Leads w s s' ∧ V a

/-- Whether the quiet runs in which an attempt succeeds have an effect. -/
def HasAttempt (attempt : Attempt α) (w : W) (V : α → Prop) : Prop :=
  ∀ s s' a, E.Invariant s → Succeeds attempt s a s' → E.Invariant s' ∧ E.Leads w s s' ∧ V a

/-- Whether the quiet runs in which a node checks have an effect. -/
def HasNode (check : Check (Checked ν τ)) (w : W) (V : τ → Prop) : Prop :=
  ∀ s s' node a, E.Invariant s → check.Passes s node a s' →
    E.Invariant s' ∧ E.Leads w s s' ∧ V a

variable {E} {w w' : W}

/-- One effect follows another. -/
theorem leads_followedBy {s s₁ s₂ : State} {V : Prop} (first : E.Leads w s s₁)
    (second : E.Invariant s₂ ∧ E.Leads w' s₁ s₂ ∧ V) :
    E.Invariant s₂ ∧ E.Leads (E.followedBy w w') s s₂ ∧ V :=
  ⟨second.1, E.trans first second.2.1, second.2.2⟩

/-! ## Computations -/

namespace Has

variable {V : α → Prop}

theorem pure {a : α} (value : V a) : Has E (Pure.pure a : Check α) E.none V := by
  intro s s' b holds quiet
  obtain ⟨rfl, rfl⟩ := quiet.pure_inv
  exact ⟨holds, E.refl holds, value⟩

theorem bind {check : Check α} {next : α → Check β} {V' : β → Prop} (first : check.Has E w V)
    (second : ∀ a, V a → (next a).Has E w' V') :
    (check >>= next).Has E (E.followedBy w w') V' := by
  intro s s' b holds quiet
  obtain ⟨a, s₁, head, tail⟩ := quiet.bind_inv
  obtain ⟨between, leads, value⟩ := first s s₁ a holds head
  exact leads_followedBy leads (second a value s₁ s' b between tail)

theorem of_eq {check : Check α} (has : check.Has E w V) (same : w = w') : check.Has E w' V :=
  same ▸ has

end Has

/-! ## Attempts -/

namespace HasAttempt

variable {V : α → Prop}

theorem pure {a : α} (value : V a) : HasAttempt E (Pure.pure a) E.none V := by
  intro s s' b holds quiet
  obtain ⟨rfl, rfl⟩ := Quiet.succeed_inv quiet
  exact ⟨holds, E.refl holds, value⟩

theorem bind {first : Attempt α} {next : α → Attempt β} {V' : β → Prop}
    (head : HasAttempt E first w V) (tail : ∀ a, V a → HasAttempt E (next a) w' V') :
    HasAttempt E (first >>= next) (E.followedBy w w') V' := by
  intro s s' b holds quiet
  obtain ⟨a, s₁, succeeds, rest⟩ := Quiet.attempt_inv quiet
  obtain ⟨between, leads, value⟩ := head s s₁ a holds succeeds
  exact leads_followedBy leads (tail a value s₁ s' b between rest)

theorem of_eq {attempt : Attempt α} (has : HasAttempt E attempt w V) (same : w = w') :
    HasAttempt E attempt w' V :=
  same ▸ has

end HasAttempt

/-! ## Nodes -/

namespace HasNode

variable {V : τ → Prop} {V' : σ → Prop}

theorem ok {node : ν} {a : τ} (value : V a) :
    HasNode E (Pure.pure (node, .ok a) : Check (Checked ν τ)) E.none V := by
  intro s s' node' b holds quiet
  obtain ⟨same, rfl⟩ := quiet.pure_inv
  cases same
  exact ⟨holds, E.refl holds, value⟩

theorem error {node : ν} {err : Diagnostic} :
    HasNode E (Pure.pure (node, .error err) : Check (Checked ν τ)) w V := by
  intro s s' node' b holds quiet
  cases quiet.pure_inv.1

theorem bind {Q : α → Prop} {check : Check α} {next : α → Check (Checked ν τ)}
    (first : check.Has E w Q) (second : ∀ a, Q a → (next a).HasNode E w' V) :
    (check >>= next).HasNode E (E.followedBy w w') V := by
  intro s s' node b holds quiet
  obtain ⟨a, s₁, head, tail⟩ := quiet.bind_inv
  obtain ⟨between, leads, value⟩ := first s s₁ a holds head
  exact leads_followedBy leads (second a value s₁ s' node b between tail)

/-- The same effect may be described in another way. -/
theorem mono {check : Check (Checked ν τ)} (has : check.HasNode E w V)
    (same : ∀ {s s'}, E.Leads w s s' → E.Leads w' s s') : check.HasNode E w' V := by
  intro s s' node a holds quiet
  obtain ⟨behind, leads, value⟩ := has s s' node a holds quiet
  exact ⟨behind, same leads, value⟩

theorem of_eq {check : Check (Checked ν τ)} (has : check.HasNode E w V) (same : w = w') :
    check.HasNode E w' V :=
  same ▸ has

theorem given {Q : α → Prop} {first : Attempt α} {node : ν} {next : α → Check (Checked ν τ)}
    (head : HasAttempt E first w Q) (tail : ∀ a, Q a → (next a).HasNode E w' V) :
    (Typing.given first node next).HasNode E (E.followedBy w w') V := by
  intro s s' node' b holds quiet
  obtain ⟨a, s₁, succeeds, rest⟩ := Quiet.given_inv quiet
  obtain ⟨between, leads, value⟩ := head s s₁ a holds succeeds
  exact leads_followedBy leads (tail a value s₁ s' node' b between rest)

/-- An attempt that only looks at the state has no effect of its own. -/
theorem givenUnchanged {Q : α → Prop} {first : Attempt α} {node : ν}
    {next : α → Check (Checked ν τ)}
    (head : ∀ s s' a, E.Invariant s → Succeeds first s a s' → s' = s ∧ Q a)
    (tail : ∀ a, Q a → (next a).HasNode E w V) :
    (Typing.given first node next).HasNode E w V := by
  intro s s' node' b holds quiet
  obtain ⟨a, s₁, succeeds, rest⟩ := Quiet.given_inv quiet
  obtain ⟨rfl, value⟩ := head s s₁ a holds succeeds
  exact tail a value s₁ s' node' b holds rest

theorem rebuild {check : Check (Checked ν τ)} {f : ν → μ} (has : check.HasNode E w V) :
    (check.rebuild f).HasNode E w V := by
  intro s s' node a holds quiet
  obtain ⟨part, inside, -⟩ := Quiet.rebuild_inv quiet
  exact has s s' part a holds inside

theorem mapResult {check : Check (Checked ν σ)} {f : σ → τ} (has : check.HasNode E w V')
    (value : ∀ a, V' a → V (f a)) : (check.mapResult f).HasNode E w V := by
  intro s s' node b holds quiet
  obtain ⟨a, inside, rfl⟩ := Quiet.mapResult_inv quiet
  obtain ⟨behind, leads, found⟩ := has s s' node a holds inside
  exact ⟨behind, leads, value a found⟩

/-- A rule only looks at the state. -/
theorem conclude {check : Check (Checked ν σ)} {rule : σ → Attempt τ}
    (has : check.HasNode E w V') (ruled : ∀ a s s' b, E.Invariant s → V' a →
      Succeeds (rule a) s b s' → s' = s ∧ V b) : (check.conclude rule).HasNode E w V := by
  intro s s' node b holds quiet
  obtain ⟨a, s₁, inside, rest⟩ := Quiet.conclude_inv quiet
  obtain ⟨between, leads, value⟩ := has s s₁ node a holds inside
  obtain ⟨rfl, value⟩ := ruled a s₁ s' b between value rest
  exact ⟨between, leads, value⟩

theorem andThen {check : Check (Checked ν σ)} {node : μ} {next : σ → Check (Checked μ τ)}
    (head : check.HasNode E w V') (tail : ∀ a, V' a → (next a).HasNode E w' V) :
    (check.andThen node next).HasNode E (E.followedBy w w') V := by
  intro s s' both b holds quiet
  obtain ⟨a, s₁, first, rest⟩ := Quiet.andThen_inv quiet
  obtain ⟨between, leads, value⟩ := head s s₁ both.1 a holds first
  exact leads_followedBy leads (tail a value s₁ s' both.2 b between rest)

theorem alongside {check : Check (Checked ν σ)} {other : Check (Checked μ τ)}
    (head : check.HasNode E w V') (tail : other.HasNode E w' V) :
    (check.alongside other).HasNode E (E.followedBy w w') V := by
  intro s s' both b holds quiet
  obtain ⟨a, s₁, first, rest⟩ := Quiet.alongside_inv quiet
  obtain ⟨between, leads, -⟩ := head s s₁ both.1 a holds first
  exact leads_followedBy leads (tail s₁ s' both.2 b between rest)

/-- The type of a settled expression is the common one. -/
theorem agreeing {what : String} {site : Expr → Site} {expected : Ty}
    {check : Check (Checked Expr Ty)} {Found Settled : Ty → Prop} (has : check.HasNode E w Found)
    (merged : ∀ found type, Found found → expected.merge found = .ok type → Settled type) :
    (Typing.agreeing what site expected check).HasNode E w Settled := by
  intro s s' e type holds quiet
  obtain ⟨e', found, inside, settled⟩ := Quiet.agreeing_inv quiet
  obtain ⟨behind, leads, value⟩ := has s s' e' found holds inside
  refine ⟨behind, leads, merged found type value ?_⟩
  unfold settle at settled
  split at settled
  case h_1 negotiated =>
    obtain ⟨-, same⟩ := Prod.mk.inj settled
    cases same
    exact Ty.merge_of_negotiate negotiated
  case h_2 => cases settled

theorem recorded {check : Check (Checked ν τ)} (has : check.HasNode E w V) :
    (Typing.recorded check).Has E w fun _ => True := by
  intro s s' node holds quiet
  obtain ⟨a, s₁, inside, rfl⟩ := Quiet.recorded_inv quiet
  obtain ⟨behind, leads, -⟩ := has s.enter s₁ node a (E.entered holds) inside
  obtain ⟨behind, leads⟩ := E.left behind leads
  exact ⟨behind, leads, True.intro⟩

theorem noted {check : Check (Checked ν τ)} (has : check.HasNode E w V) :
    (Typing.noted check).HasNode E w V :=
  fun s s' node a holds quiet => has s s' node a holds (Quiet.noted_inv quiet)

end HasNode

end Check

end PackageCheck.Typing
