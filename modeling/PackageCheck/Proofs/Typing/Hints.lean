import PackageCheck.Proofs.Typing.Repetition
import PackageCheck.Tree.Make

/-! # Types that the context wants

The type that the context wants is passed down through signs and addresses to composite literals, and
only a literal without a type of its own looks at it. Such a literal does not check where the context
wants nothing. So an expression that checks there has a type of its own, and the check comes to the same
in every context, whatever is wanted and however deep inside. -/

namespace PackageCheck.Typing

open Check

/-! ## Checks that go on in the same way -/

/-- Whether a second check comes to the same node, the same result and the same state as a first one,
    wherever the node of the first one checks. -/
def Check.CarriesOver (check check' : Check (Checked ν τ)) : Prop :=
  ∀ ⦃s s' : State⦄ ⦃node : ν⦄ ⦃a : τ⦄,
    check.run s = ((node, .ok a), s') → check'.run s = ((node, .ok a), s')

namespace Check.CarriesOver

variable {check check' : Check (Checked ν σ)}

theorem refl (check : Check (Checked ν σ)) : check.CarriesOver check :=
  fun _ _ _ _ ran => ran

/-- A node that does not check at all has nothing to carry over. -/
theorem of_fails {attempt : Attempt α} {node : ν} {next : α → Check (Checked ν σ)}
    (fails : ∀ s : State, ∃ err, (attempt.run.run s).1 = .error err) :
    (given attempt node next).CarriesOver check' := by
  intro s s' found a ran
  obtain ⟨err, failed⟩ := fails s
  obtain ⟨result, s₁, attempted, rest⟩ := bind_inv ran
  rw [attempted] at failed
  subst failed
  cases rest

/-- What goes on behind a node does the same behind the second check of it, if it comes to nothing behind
    a node that does not check. -/
theorem bind {next : Checked ν σ → Check (Checked μ τ)} (inside : check.CarriesOver check')
    (stops : ∀ (node : ν) (err : Diagnostic) (s s' : State) (found : μ) (a : τ),
      (next (node, .error err)).run s ≠ ((found, .ok a), s')) :
    Check.CarriesOver (check >>= next) (check' >>= next) := by
  intro s s' found a ran
  obtain ⟨⟨node, result⟩, s₁, inner, rest⟩ := bind_inv ran
  cases result with
  | ok type => exact (run_bind_of (inside inner) _).trans rest
  | error err => exact absurd rest (stops node err s₁ s' found a)

theorem rebuild (inside : check.CarriesOver check') (f : ν → μ) :
    (check.rebuild f).CarriesOver (check'.rebuild f) := by
  refine .bind inside fun node err s s' found a rest => ?_
  cases rest

theorem mapResult (inside : check.CarriesOver check') (f : σ → τ) :
    (check.mapResult f).CarriesOver (check'.mapResult f) := by
  refine .bind inside fun node err s s' found a rest => ?_
  cases rest

theorem conclude (inside : check.CarriesOver check') (rule : σ → Attempt τ) :
    (check.conclude rule).CarriesOver (check'.conclude rule) := by
  refine .bind inside fun node err s s' found a rest => ?_
  cases rest

end Check.CarriesOver

/-! ## Expressions -/

/-- A composite literal without a type of its own has none where the context wants nothing. -/
theorem compoundType_fails (ctx : Context) (position : Position) (s : State) :
    ∃ err, ((compoundType ctx none .unknown position).run.run s).1 = .error err :=
  ⟨_, rfl⟩

mutual

/-- An expression that checks where the context wants nothing checks in the same way where it wants
    something. -/
theorem infer_carriesOver (ctx : Context) (wanted : Ty) : ∀ e : Expr,
    (infer ctx e .unknown).CarriesOver (infer ctx e wanted)
  | ⟨position, form, type⟩ => by
    rw [infer, infer]
    refine .bind (inferForm_carriesOver ctx position wanted form) fun node err s s' e a rest => ?_
    cases rest

theorem inferForm_carriesOver (ctx : Context) (position : Position) (wanted : Ty) :
    ∀ form : ExprForm,
      (inferForm ctx position form .unknown).CarriesOver (inferForm ctx position form wanted)
  | .unary .plus operand => by
    rw [inferForm, inferForm]
    exact .rebuild (.conclude (infer_carriesOver ctx wanted operand) _) _
  | .unary .minus operand => by
    rw [inferForm, inferForm]
    exact .rebuild (.conclude (infer_carriesOver ctx wanted operand) _) _
  | .unary .addressOf operand => by
    rw [inferForm, inferForm]
    exact .rebuild (.mapResult (infer_carriesOver ctx (pointeeHint wanted) operand) _) _
  | .compound none shape elements => by
    rw [inferForm]
    exact .of_fails (compoundType_fails ctx position)
  -- no other form looks at what is wanted, or passes it on
  | .compound (some spec) _ _ => by
    rw [inferForm, inferForm]
    exact .refl _
  | .unary .not _ | .unary .deref _ | .literal _ | .blank | .binary _ _ _ | .index _ _
  | .selector _ _ | .call _ _ | .func _ | .ident _ | .type _ => by
    rw [inferForm, inferForm]
    exact .refl _

end

/-! ## Expected types -/

/-- An expression that is settled with a type has it exactly if the two types negotiate. -/
theorem settle_ok_iff {what : String} {site : Site} {expected found type : Ty} {e : Expr} :
    (settle what site expected e found).2 = .ok type ↔ expected.negotiate found = .ok type := by
  rw [settle]
  cases expected.negotiate found <;> simp

/-- An expression that has a type without any context has it in every context: whatever is wanted, its
    check gives the same type and has the same effects, on the expression and on the state. Where a type
    is expected, nothing but the negotiation of the two types is left to be done. -/
theorem infer_independent (ctx : Context) (e e' : Expr) (found : Ty) (s s' : State)
    (ran : (infer ctx e .unknown).run s = ((e', .ok found), s')) (wanted : Ty) :
    (infer ctx e wanted).run s = ((e', .ok found), s') ∧
    (expect ctx e wanted).run s =
      (settle "expression" (ctx.site e'.position) wanted e' found, s') ∧
    ∀ type, ((expect ctx e wanted).run s).1.2 = .ok type ↔ wanted.negotiate found = .ok type := by
  have inferred : (infer ctx e wanted).run s = ((e', .ok found), s') :=
    infer_carriesOver ctx wanted e ran
  have expected : (expect ctx e wanted).run s =
      (settle "expression" (ctx.site e'.position) wanted e' found, s') :=
    run_bind_of inferred _
  refine ⟨inferred, expected, fun type => ?_⟩
  rw [expected]
  exact settle_ok_iff

/-- The address of a list of strings. -/
def address : Expr :=
  .ofForm (.unary .addressOf (.compound (some (.slice (.ofName "string"))) [⟨none, .string "a"⟩]))

/-- Where a pointer to a list of numbers is expected, the list still has the type it names itself, and
    negotiation fails. -/
theorem infer_independent_address : ∃ e' s',
    (infer { file := "m.hv" } address .unknown).run State.bare =
      ((e', .ok (.pointer (.slice .string))), s') ∧
    (infer { file := "m.hv" } address (.pointer (.slice .int))).run State.bare =
      ((e', .ok (.pointer (.slice .string))), s') ∧
    ((expect { file := "m.hv" } address (.pointer (.slice .int))).run State.bare).1.2 ≠
      .ok (.pointer (.slice .int)) := by
  obtain ⟨e', s', ran⟩ : ∃ e' s', (infer { file := "m.hv" } address .unknown).run State.bare =
      ((e', .ok (.pointer (.slice .string))), s') := ⟨_, _, rfl⟩
  obtain ⟨inferred, -, accepted⟩ := infer_independent { file := "m.hv" } address e'
    (.pointer (.slice .string)) State.bare s' ran (.pointer (.slice .int))
  refine ⟨e', s', ran, inferred, fun expected => ?_⟩
  cases (accepted _).mp expected

end PackageCheck.Typing
