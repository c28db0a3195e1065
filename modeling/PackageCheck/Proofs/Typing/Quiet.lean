import PackageCheck.Proofs.Symbol.Extension
import PackageCheck.Typing.Tree

/-! # Quiet runs

A run is quiet if nothing fails in it, at any depth. A quiet run of a check that is put together
from others is put together from quiet runs of those, and nothing is skipped in it. There is one
lemma for each way of putting checks together, which takes such a run apart. -/

namespace PackageCheck.Typing

/-- Whether a check comes to a value from a state and leaves another state behind, and nothing has
    failed on the way. -/
structure Check.Quiet (check : Check α) (s : State) (a : α) (s' : State) : Prop where
  run : check.run s = (a, s')
  failures : s'.failures = s.failures

/-- A quiet run of an attempt that succeeds. -/
abbrev Succeeds (attempt : Attempt α) (s : State) (a : α) (s' : State) : Prop :=
  attempt.run.Quiet s (.ok a) s'

/-- A quiet run of the check of a node that checks. -/
abbrev Check.Passes (check : Check (Checked ν τ)) (s : State) (node : ν) (a : τ)
    (s' : State) : Prop :=
  check.Quiet s (node, .ok a) s'

namespace Check.Quiet

variable {s s' : State}

/-! ## Computations -/

theorem grows {check : Check α} {a : α} (quiet : check.Quiet s a s') : s.Grows s' := by
  have grows := check.grows s
  rwa [quiet.run] at grows

theorem pure_inv {a b : α} (quiet : (pure a : Check α).Quiet s b s') : b = a ∧ s' = s := by
  cases quiet.run
  exact ⟨rfl, rfl⟩

/-- The first error of a run stays in the list, so nothing has failed in either part. -/
theorem bind_inv {check : Check α} {next : α → Check β} {b : β}
    (quiet : (check >>= next).Quiet s b s') :
    ∃ a s₁, check.Quiet s a s₁ ∧ (next a).Quiet s₁ b s' := by
  obtain ⟨run, failures⟩ := quiet
  rw [run_bind] at run
  have first := (check.grows s).failures
  have second := ((next (check.run s).1).grows (check.run s).2).failures
  rw [run, failures] at second
  have unchanged := first.eq_of_length_le second.length_le
  exact ⟨_, _, ⟨rfl, unchanged.symm⟩, ⟨run, failures.trans unchanged⟩⟩

theorem state_inv {found : State} (quiet : state.Quiet s found s') : found = s ∧ s' = s := by
  cases quiet.run
  exact ⟨rfl, rfl⟩

theorem change_inv {f : State → State} {grows : ∀ s : State, s.Grows (f s)} {a : Unit}
    (quiet : (change f grows).Quiet s a s') : s' = f s := by
  cases quiet.run
  rfl

theorem withScope_inv {check : Check α} {a : α} (quiet : (withScope check).Quiet s a s') :
    ∃ s₁, check.Quiet s.pushScope a s₁ ∧ s' = s₁.popScope := by
  obtain ⟨run, failures⟩ := quiet
  obtain ⟨same, behind⟩ := Prod.mk.inj run
  exact ⟨(check.run s.pushScope).2, ⟨Prod.ext same rfl, by rw [← behind] at failures; exact failures⟩,
    behind.symm⟩

/-! ## Attempts -/

theorem attempt_inv {first : Attempt α} {next : α → Attempt β} {b : β}
    (quiet : Succeeds (first >>= next) s b s') :
    ∃ a s₁, Succeeds first s a s₁ ∧ Succeeds (next a) s₁ b s' := by
  obtain ⟨result, s₁, head, tail⟩ := bind_inv quiet
  cases result with
  | ok a => exact ⟨a, s₁, head, tail⟩
  | error err => cases (pure_inv tail).1

theorem succeed_inv {a b : α} (quiet : Succeeds (pure a) s b s') : b = a ∧ s' = s := by
  obtain ⟨same, behind⟩ := pure_inv quiet
  exact ⟨Except.ok.inj same, behind⟩

theorem not_fail {err : Diagnostic} {a : α} : ¬ Succeeds (throw err) s a s' :=
  fun quiet => nomatch (pure_inv quiet).1

theorem lift_inv {check : Check α} {a : α} (quiet : Succeeds (liftM check) s a s') :
    check.Quiet s a s' := by
  obtain ⟨b, s₁, inside, rest⟩ := bind_inv quiet
  obtain ⟨same, rfl⟩ := pure_inv rest
  cases same
  exact inside

theorem ofExcept_inv {result : Except Diagnostic α} {a : α}
    (quiet : Succeeds (liftM result) s a s') : result = .ok a ∧ s' = s := by
  obtain ⟨same, behind⟩ := pure_inv quiet
  exact ⟨same.symm, behind⟩

/-! ## Nodes -/

theorem given_inv {first : Attempt α} {node node' : ν} {next : α → Check (Checked ν τ)} {b : τ}
    (quiet : (given first node next).Passes s node' b s') :
    ∃ a s₁, Succeeds first s a s₁ ∧ (next a).Passes s₁ node' b s' := by
  obtain ⟨result, s₁, head, tail⟩ := bind_inv quiet
  cases result with
  | ok a => exact ⟨a, s₁, head, tail⟩
  | error err => cases (pure_inv tail).1

theorem rebuild_inv {check : Check (Checked ν τ)} {f : ν → μ} {node : μ} {a : τ}
    (quiet : (check.rebuild f).Passes s node a s') :
    ∃ part, check.Passes s part a s' ∧ node = f part := by
  obtain ⟨⟨part, result⟩, s₁, inside, rest⟩ := bind_inv quiet
  obtain ⟨same, rfl⟩ := pure_inv rest
  obtain ⟨rfl, rfl⟩ := Prod.mk.inj same
  exact ⟨part, inside, rfl⟩

theorem mapResult_inv {check : Check (Checked ν σ)} {f : σ → τ} {node : ν} {b : τ}
    (quiet : (check.mapResult f).Passes s node b s') :
    ∃ a, check.Passes s node a s' ∧ b = f a := by
  obtain ⟨⟨part, result⟩, s₁, inside, rest⟩ := bind_inv quiet
  obtain ⟨same, rfl⟩ := pure_inv rest
  cases result with
  | ok a =>
    cases same
    exact ⟨a, inside, rfl⟩
  | error err => cases same

theorem conclude_inv {check : Check (Checked ν σ)} {rule : σ → Attempt τ} {node : ν} {b : τ}
    (quiet : (check.conclude rule).Passes s node b s') :
    ∃ a s₁, check.Passes s node a s₁ ∧ Succeeds (rule a) s₁ b s' := by
  obtain ⟨⟨part, result⟩, s₁, inside, rest⟩ := bind_inv quiet
  obtain ⟨concluded, s₂, ruled, rest⟩ := bind_inv rest
  obtain ⟨same, rfl⟩ := pure_inv rest
  cases same
  obtain ⟨a, s₃, given, ruled⟩ := attempt_inv ruled
  obtain ⟨rfl, rfl⟩ := ofExcept_inv given
  exact ⟨a, s₃, inside, ruled⟩

theorem andThen_inv {check : Check (Checked ν σ)} {node : μ} {next : σ → Check (Checked μ τ)}
    {both : ν × μ} {b : τ} (quiet : (check.andThen node next).Passes s both b s') :
    ∃ a s₁, check.Passes s both.1 a s₁ ∧ (next a).Passes s₁ both.2 b s' := by
  obtain ⟨⟨first, result⟩, s₁, head, rest⟩ := bind_inv quiet
  obtain ⟨⟨second, result'⟩, s₂, tail, rest⟩ := bind_inv rest
  obtain ⟨same, rfl⟩ := pure_inv rest
  cases same
  obtain ⟨a, s₃, given, tail⟩ := given_inv tail
  obtain ⟨rfl, rfl⟩ := ofExcept_inv given
  exact ⟨a, s₃, head, tail⟩

theorem alongside_inv {check : Check (Checked ν σ)} {other : Check (Checked μ τ)} {both : ν × μ}
    {b : τ} (quiet : (check.alongside other).Passes s both b s') :
    ∃ a s₁, check.Passes s both.1 a s₁ ∧ other.Passes s₁ both.2 b s' := by
  obtain ⟨⟨first, result⟩, s₁, head, rest⟩ := bind_inv quiet
  obtain ⟨⟨second, result'⟩, s₂, tail, rest⟩ := bind_inv rest
  obtain ⟨same, rfl⟩ := pure_inv rest
  obtain ⟨rfl, ended⟩ := Prod.mk.inj same
  cases result with
  | ok a =>
    cases ended
    exact ⟨a, s₁, head, tail⟩
  | error err => cases ended

theorem agreeing_inv {what : String} {site : Expr → Site} {expected : Ty}
    {check : Check (Checked Expr Ty)} {e : Expr} {type : Ty}
    (quiet : (agreeing what site expected check).Passes s e type s') :
    ∃ e' found, check.Passes s e' found s' ∧
      settle what (site e') expected e' found = (e, .ok type) := by
  obtain ⟨⟨e', result⟩, s₁, inside, rest⟩ := bind_inv quiet
  cases result with
  | ok found =>
    obtain ⟨same, rfl⟩ := pure_inv rest
    exact ⟨e', found, inside, same.symm⟩
  | error err => cases (pure_inv rest).1

/-! ## Results -/

/-- A statement whose error is noted fails at something. -/
theorem note_inv {result : Except Diagnostic α} {a : Unit} (quiet : (note result).Quiet s a s') :
    (∃ b, result = .ok b) ∧ s' = s := by
  have behind := change_inv quiet
  cases result with
  | ok b => exact ⟨⟨b, rfl⟩, behind⟩
  | error err =>
    have failures := quiet.failures
    rw [behind] at failures
    simp [State.note] at failures

theorem noteForm_inv {sound : Bool} {result : Except Diagnostic α} {a : Unit}
    (quiet : (noteForm sound result).Quiet s a s') : (∃ b, result = .ok b) ∧ s' = s := by
  have behind := change_inv quiet
  cases result with
  | ok b => exact ⟨⟨b, rfl⟩, behind⟩
  | error err =>
    have failures := quiet.failures
    rw [behind] at failures
    simp [State.noteForm] at failures

theorem record_inv {result : Except Diagnostic α} {a : Unit}
    (quiet : (record result).Quiet s a s') :
    (∃ b, result = .ok b) ∧ s' = { s with tainted := false } := by
  have behind := change_inv quiet
  cases result with
  | ok b => exact ⟨⟨b, rfl⟩, behind⟩
  | error err =>
    have failures := quiet.failures
    rw [behind] at failures
    cases tainted : s.tainted <;>
      simp [State.record, State.note, State.report, State.judge, tainted] at failures

theorem recorded_inv {check : Check (Checked ν τ)} {node : ν}
    (quiet : (recorded check).Quiet s node s') :
    ∃ a s₁, check.Passes s.enter node a s₁ ∧ s' = { s₁ with tainted := false }.leave s := by
  obtain ⟨before, s₁, stated, rest⟩ := bind_inv quiet
  obtain ⟨rfl, rfl⟩ := state_inv stated
  obtain ⟨_, s₂, entered, rest⟩ := bind_inv rest
  obtain rfl := change_inv entered
  obtain ⟨⟨part, result⟩, s₃, inside, rest⟩ := bind_inv rest
  obtain ⟨_, s₄, taken, rest⟩ := bind_inv rest
  obtain ⟨⟨a, rfl⟩, rfl⟩ := record_inv taken
  obtain ⟨_, s₅, left, rest⟩ := bind_inv rest
  obtain rfl := change_inv left
  obtain ⟨rfl, rfl⟩ := pure_inv rest
  exact ⟨a, s₃, inside, rfl⟩

theorem noted_inv {check : Check (Checked ν τ)} {node : ν} {a : τ}
    (quiet : (noted check).Passes s node a s') : check.Passes s node a s' := by
  obtain ⟨⟨part, result⟩, s₁, inside, rest⟩ := bind_inv quiet
  obtain ⟨_, s₂, noting, rest⟩ := bind_inv rest
  obtain ⟨same, rfl⟩ := pure_inv rest
  obtain ⟨-, rfl⟩ := note_inv noting
  cases same
  exact inside

/-! ## Declarations -/

theorem declare_inv {ctx : Context} {symbol : Symbol} {position : Position} {id : SymbolId}
    (quiet : Succeeds (declare ctx symbol position (.ok ())) s id s') :
    s.clash? symbol.name = none ∧ id = s.symbols.nextId ∧ s' = s.insertNamed symbol := by
  have run := quiet.run
  cases clash : s.clash? symbol.name with
  | none =>
    rw [run_declare_of_free clash] at run
    cases run
    exact ⟨rfl, rfl, rfl⟩
  | some previous =>
    rw [run_declare_of_clash clash] at run
    cases run

theorem insertSymbol_inv {symbol : Symbol} {id : SymbolId}
    (quiet : (insertSymbol symbol).Quiet s id s') :
    id = s.symbols.nextId ∧ s' = s.insertSymbol symbol := by
  cases quiet.run
  exact ⟨rfl, rfl⟩

theorem declareParam_inv {ctx : Context} {param param' : Param} {type : Ty}
    (quiet : (declareParam ctx param type).Passes s param' () s') :
    (param.name = none ∧ s' = s) ∨ ∃ name, param.name = some name ∧ s.clash? name = none ∧
      s' = s.insertNamed (.var ⟨name, type, none, some (ctx.site param.position)⟩) := by
  unfold declareParam at quiet
  split at quiet
  case h_1 unnamed => exact Or.inl ⟨unnamed, (pure_inv quiet).2⟩
  case h_2 name named =>
    obtain ⟨id, s₁, declared, rest⟩ := given_inv quiet
    obtain ⟨-, rfl⟩ := pure_inv rest
    obtain ⟨free, -, behind⟩ := declare_inv declared
    exact Or.inr ⟨name, named, free, behind⟩

theorem declareVar_inv {ctx : Context} {decl decl' : VarDecl} {type : Ty} {init : Option StmtId}
    {result : Except Diagnostic Unit} {a : Unit}
    (quiet : (declareVar ctx decl type init result).Passes s decl' a s') :
    result = .ok () ∧ decl' = { decl with symbol := some s.symbols.nextId } ∧
      s.clash? decl.name = none ∧
      s' = s.insertNamed (.var ⟨decl.name, type, init, some (ctx.site decl.position)⟩) := by
  obtain ⟨id, s₁, declared, rest⟩ := given_inv quiet
  obtain ⟨same, rfl⟩ := pure_inv rest
  obtain ⟨rfl, rfl⟩ := Prod.mk.inj same
  obtain ⟨free, rfl, behind⟩ := declare_inv declared
  exact ⟨rfl, rfl, free, behind⟩

theorem declareType_inv {ctx : Context} {name : String} {position : Position} {node : ν}
    {define : Attempt (Ty × α)} {next : SymbolId → α → Check (Checked ν Unit)}
    {declared : Option SymbolId × ν} {b : Unit}
    (quiet : (declareType ctx name position node define next).Passes s declared b s') :
    declared.1 = some s.symbols.nextId ∧ s.clash? name = none ∧ ∃ target a s₁,
      Succeeds define (s.declaring ctx name position) (target, a) s₁ ∧
        (next s.symbols.nextId a).Passes (s₁.setAliased s.symbols.nextId target) declared.2 b s' := by
  obtain ⟨run, failures⟩ := quiet
  cases clash : s.clash? name with
  | some previous =>
    rw [run_declareType_of_clash clash] at run
    cases run
  | none =>
    cases defined : (define.run.run (s.declaring ctx name position)).1 with
    | error err =>
      rw [run_declareType_of_error clash defined] at run
      cases run
    | ok found =>
      obtain ⟨target, a⟩ := found
      rw [run_declareType_of_ok clash defined] at run
      obtain ⟨node', behind⟩ := Prod.mk.inj run
      obtain ⟨rfl, ended⟩ := Prod.mk.inj node'
      rw [ended] at behind
      generalize defining : define.run.run (s.declaring ctx name position) = result at *
      obtain ⟨_, s₁⟩ := result
      have first : s.failures <+: s₁.failures := by
        have grows := define.run.grows (s.declaring ctx name position)
        rw [defining] at grows
        exact grows.failures
      have rest : s₁.failures <+: s'.failures := by
        have grows := (next s.symbols.nextId a).grows (s₁.setAliased s.symbols.nextId target)
        rw [← behind]
        exact grows.failures
      have unchanged : s.failures = s₁.failures :=
        first.eq_of_length_le (failures ▸ rest.length_le)
      refine ⟨rfl, rfl, target, a, s₁, ⟨?_, unchanged.symm⟩, ⟨?_, failures.trans unchanged⟩⟩
      · rw [defining]
        exact Prod.ext defined rfl
      · exact Prod.ext (Prod.ext rfl ended) behind

/-! ## Rules -/

section Rules

variable {ctx : Context} {position : Position}

theorem resolveName_inv {name : String} {type : Ty}
    (quiet : Succeeds (resolveName ctx name position) s type s') :
    ∃ id, s.scopes.findType? s.symbols name = some id ∧
      s.symbols.declaredType? id = some type ∧ s' = s.touch name id := by
  obtain ⟨found, s₁, read, rest⟩ := attempt_inv quiet
  obtain ⟨rfl, rfl⟩ := state_inv (lift_inv read)
  split at rest
  case h_1 id held =>
    obtain ⟨_, s₂, touched, rest'⟩ := attempt_inv rest
    have behind := change_inv (lift_inv touched)
    split at rest'
    case h_1 type' declared =>
      obtain ⟨rfl, rfl⟩ := succeed_inv rest'
      exact ⟨id, held, declared, behind⟩
    case h_2 => exact absurd rest' not_fail
  case h_2 =>
    split at rest
    all_goals exact absurd rest not_fail

theorem inferIdent_inv {ident ident' : Ident} {type : Ty}
    (quiet : (inferIdent ctx ident position).Passes s ident' type s') :
    ∃ id v, s.scopes.find? ident.name = some id ∧ s.symbols.get? id = some (.var v) ∧
      type = v.type ∧ ident' = ident.bind id ∧ s' = s.touch ident.name id := by
  obtain ⟨found, s₁, read, rest⟩ := bind_inv quiet
  obtain ⟨rfl, rfl⟩ := state_inv read
  split at rest
  case h_1 => cases (pure_inv rest).1
  case h_2 id held =>
    obtain ⟨_, s₂, touched, rest'⟩ := bind_inv rest
    have behind := change_inv touched
    obtain ⟨same, rfl⟩ := pure_inv rest'
    obtain ⟨rfl, ended⟩ := Prod.mk.inj same
    split at ended
    case h_1 v isVar => exact ⟨id, v, held, isVar, Except.ok.inj ended, rfl, behind⟩
    all_goals cases ended

theorem underlying_inv {type root : Ty} (quiet : Succeeds (underlying ctx type position) s root s') :
    s.symbols.underlying type = .ok root ∧ s' = s := by
  obtain ⟨found, s₁, read, rest⟩ := attempt_inv quiet
  obtain ⟨rfl, rfl⟩ := state_inv (lift_inv read)
  split at rest
  case h_1 root' same =>
    obtain ⟨rfl, rfl⟩ := succeed_inv rest
    exact ⟨same, rfl⟩
  case h_2 => exact absurd rest not_fail

theorem aliasRoot_inv {id : SymbolId} {name : String} {a : Unit}
    (quiet : Succeeds (aliasRoot ctx id name position) s a s') : s' = s := by
  obtain ⟨found, s₁, read, rest⟩ := attempt_inv quiet
  obtain ⟨rfl, rfl⟩ := state_inv (lift_inv read)
  split at rest
  case h_1 => exact (succeed_inv rest).2
  case h_2 => exact absurd rest not_fail

theorem aliasTarget_inv {name : String} {target : TypeSpec} {found : Ty × Unit}
    (quiet : Succeeds (aliasTarget ctx name position target) s found s') :
    Succeeds (resolve ctx target) s found.1 s' := by
  obtain ⟨type, s₁, resolved, rest⟩ := attempt_inv quiet
  split at rest
  case isTrue =>
    obtain ⟨_, _, failed, -⟩ := attempt_inv rest
    exact absurd failed not_fail
  case isFalse =>
    obtain ⟨rfl, rfl⟩ := succeed_inv rest
    exact resolved

theorem checkOperand_inv {op : String} {allowString : Bool} {type : Ty} {a : Unit}
    (quiet : Succeeds (checkOperand ctx op allowString type position) s a s') : s' = s := by
  obtain ⟨root, s₁, found, rest⟩ := attempt_inv quiet
  obtain ⟨-, rfl⟩ := underlying_inv found
  split at rest
  · exact absurd rest not_fail
  · exact (succeed_inv rest).2

theorem binaryType_inv {op : BinaryOp} {operand type : Ty}
    (quiet : Succeeds (binaryType ctx op operand position) s type s') :
    (type = .bool ∨ type = operand) ∧ s' = s := by
  unfold binaryType at quiet
  split at quiet
  · obtain ⟨rfl, rfl⟩ := succeed_inv quiet
    exact ⟨Or.inl rfl, rfl⟩
  · obtain ⟨_, s₁, checked, rest⟩ := attempt_inv quiet
    obtain rfl := checkOperand_inv checked
    obtain ⟨rfl, rfl⟩ := succeed_inv rest
    exact ⟨Or.inr rfl, rfl⟩

theorem signType_inv {op : UnaryOp} {operand type : Ty}
    (quiet : Succeeds (signType ctx op operand position) s type s') : type = operand ∧ s' = s := by
  obtain ⟨_, s₁, checked, rest⟩ := attempt_inv quiet
  obtain rfl := checkOperand_inv checked
  exact succeed_inv rest

theorem derefType_inv {operand type : Ty}
    (quiet : Succeeds (derefType ctx operand position) s type s') :
    s.symbols.underlying operand = .ok (.pointer type) ∧ s' = s := by
  obtain ⟨root, s₁, found, rest⟩ := attempt_inv quiet
  obtain ⟨same, rfl⟩ := underlying_inv found
  split at rest
  · obtain ⟨rfl, rfl⟩ := succeed_inv rest
    exact ⟨same, rfl⟩
  · exact absurd rest not_fail

/-- An indexed type is an array, a slice or a map with these types, or a string. -/
theorem indexTypes_inv {left : Ty} {types : Ty × Ty}
    (quiet : Succeeds (indexTypes ctx left position) s types s') :
    (∃ root, s.symbols.underlying left = .ok root ∧
      ((∃ size, root = .array size types.2 ∧ types.1 = .int) ∨
        (root = .slice types.2 ∧ types.1 = .int) ∨ root = .map types.1 types.2 ∨
          types = (.int, .simple .byte))) ∧ s' = s := by
  obtain ⟨root, s₁, found, rest⟩ := attempt_inv quiet
  obtain ⟨same, rfl⟩ := underlying_inv found
  split at rest
  case h_5 => exact absurd rest not_fail
  all_goals
    obtain ⟨rfl, rfl⟩ := succeed_inv rest
    exact ⟨⟨_, same, by simp⟩, rfl⟩

theorem selectorType_inv {left type : Ty} {member : String}
    (quiet : Succeeds (selectorType ctx left member position) s type s') :
    (∃ base, s.symbols.memberBase left = .ok base ∧ memberType? base member = some type) ∧
      s' = s := by
  obtain ⟨base, s₁, found, rest⟩ := attempt_inv quiet
  have based : s.symbols.memberBase left = .ok base ∧ s₁ = s := by
    obtain ⟨read, s₂, state, inside⟩ := attempt_inv found
    obtain ⟨rfl, rfl⟩ := state_inv (lift_inv state)
    split at inside
    case h_1 base' same =>
      obtain ⟨rfl, rfl⟩ := succeed_inv inside
      exact ⟨same, rfl⟩
    case h_2 => exact absurd inside not_fail
  obtain ⟨same, rfl⟩ := based
  split at rest
  case h_1 type' member =>
    obtain ⟨rfl, rfl⟩ := succeed_inv rest
    exact ⟨⟨base, same, member⟩, rfl⟩
  case h_2 => exact absurd rest not_fail

theorem callSignature_inv {callee : Ty} {count : Nat} {signature : Signature}
    (quiet : Succeeds (callSignature ctx callee count position) s signature s') :
    s.symbols.underlying callee = .ok (.func signature) ∧ signature.args.length = count ∧
      s' = s := by
  obtain ⟨root, s₁, found, rest⟩ := attempt_inv quiet
  obtain ⟨same, rfl⟩ := underlying_inv found
  split at rest
  case h_1 signature' =>
    split at rest
    case isTrue count =>
      obtain ⟨rfl, rfl⟩ := succeed_inv rest
      exact ⟨same, count, rfl⟩
    case isFalse => exact absurd rest not_fail
  case h_2 => exact absurd rest not_fail

/-- There is a type for each value of a `return`. -/
theorem length_returnTypes {count : Nat} {types : List Ty}
    (returned : returnTypes ctx count position = .ok types) : count = types.length := by
  unfold returnTypes at returned
  split at returned
  case h_1 => cases returned
  case h_2 frame inFunction =>
    split at returned
    case isTrue none =>
      cases returned
      exact none.1
    case isFalse =>
      split at returned
      case isTrue one =>
        cases returned
        exact one.1
      case isFalse =>
        split at returned <;> cases returned
        assumption

theorem compoundType_inv {spec : Option TypeSpec} {hint type : Ty}
    (quiet : Succeeds (compoundType ctx spec hint position) s type s') :
    Succeeds (resolveOr ctx hint spec) s type s' := by
  obtain ⟨found, s₁, resolved, rest⟩ := attempt_inv quiet
  split at rest
  · obtain ⟨rfl, rfl⟩ := succeed_inv rest
    exact resolved
  · exact absurd rest not_fail

/-- The layout of a literal is that of the type behind its own. -/
theorem layoutOf_inv {type : Ty} {elements : List Element} {layout : Layout}
    (quiet : Succeeds (layoutOf ctx type elements position) s layout s') :
    (∃ root, s.symbols.underlying type = .ok root ∧
      ((∃ size of, root = .array size of ∧ layout = .array size of 0) ∨
        (∃ of, root = .slice of ∧ layout = .slice of) ∨
        (∃ key value, root = .map key value ∧ layout = .map key value) ∨
        ∃ struct, root = .struct struct ∧
          structLayout ctx struct elements position = .ok layout)) ∧ s' = s := by
  obtain ⟨root, s₁, found, rest⟩ := attempt_inv quiet
  obtain ⟨same, rfl⟩ := underlying_inv found
  split at rest
  case h_4 struct =>
    obtain ⟨laidOut, rfl⟩ := ofExcept_inv rest
    exact ⟨⟨_, same, by simp [laidOut]⟩, rfl⟩
  case h_5 => exact absurd rest not_fail
  all_goals
    obtain ⟨rfl, rfl⟩ := succeed_inv rest
    exact ⟨⟨_, same, by simp⟩, rfl⟩

/-- A callee is converted to if it is a type, or a name whose nearest symbol is one. -/
theorem conversion?_inv {callee : Expr} {found : Option (Expr × Ty)}
    (quiet : Succeeds (conversion? ctx callee) s found s') :
    (∃ spec target, callee.form = .type spec ∧ Succeeds (resolve ctx spec) s target s' ∧
      found = some ({ callee with type := target }, target)) ∨
    (∃ ident id, callee.form = .ident ident ∧ s.scopes.find? ident.name = some id ∧
      s' = s.touch ident.name id ∧ found = (s.symbols.declaredType? id).map fun target =>
        (⟨callee.position, .ident (ident.bind id), target⟩, target)) ∨
    (found = none ∧ s' = s) := by
  unfold conversion? at quiet
  split at quiet
  case h_1 spec form =>
    obtain ⟨target, s₁, resolved, rest⟩ := attempt_inv quiet
    obtain ⟨rfl, rfl⟩ := succeed_inv rest
    exact Or.inl ⟨spec, target, form, resolved, rfl⟩
  case h_2 ident form =>
    obtain ⟨read, s₁, state, rest⟩ := attempt_inv quiet
    obtain ⟨rfl, rfl⟩ := state_inv (lift_inv state)
    split at rest
    case h_1 => exact Or.inr (Or.inr (succeed_inv rest))
    case h_2 id held =>
      obtain ⟨_, s₂, touched, rest'⟩ := attempt_inv rest
      have behind := change_inv (lift_inv touched)
      refine Or.inr (Or.inl ⟨ident, id, form, held, ?_⟩)
      split at rest'
      case h_1 absent =>
        obtain ⟨rfl, rfl⟩ := succeed_inv rest'
        exact ⟨behind, by rw [absent]; rfl⟩
      case h_2 target present =>
        obtain ⟨rfl, rfl⟩ := succeed_inv rest'
        exact ⟨behind, by rw [present]; rfl⟩
  case h_3 => exact Or.inr (Or.inr (succeed_inv quiet))

end Rules

/-! ## Labels -/

/-- What labels leave alone: the scopes, the uses, and all symbols but labels. -/
structure Labelled (s s' : State) : Prop where
  scopes : s'.scopes = s.scopes
  uses : s'.uses = s.uses
  symbols : ∀ id symbol, s'.symbols.get? id = some symbol →
    s.symbols.get? id = some symbol ∨ ∃ label, symbol = .label label

theorem Labelled.insert {label : Label} (labelled : Labelled (s.insertSymbol (.label label)) s') :
    Labelled s s' where
  scopes := labelled.scopes
  uses := labelled.uses
  symbols id symbol held := by
    rcases labelled.symbols id symbol held with before | new
    · rcases SymbolTable.get?_insert_inv before with before | ⟨-, rfl⟩
      · exact Or.inl before
      · exact Or.inr ⟨label, rfl⟩
    · exact Or.inr new

/-- Labels are held by no scope, and each statement is given its own back. -/
theorem declareLabels_inv {ctx : Context} : ∀ {statements : List Stmt} {labels : NameMap SymbolId}
    {found : NameMap SymbolId × List (Option StmtLabel)} {s : State},
    (declareLabels ctx labels statements).Quiet s found s' →
      found.2.length = statements.length ∧ Labelled s s'
  | [], labels, found, s, quiet => by
    obtain ⟨rfl, rfl⟩ := pure_inv quiet
    exact ⟨rfl, rfl, rfl, fun _ _ held => Or.inl held⟩
  | stmt :: others, labels, found, s, quiet => by
    rw [declareLabels] at quiet
    split at quiet
    case h_1 =>
      obtain ⟨found', s₁, inside, last⟩ := bind_inv quiet
      obtain ⟨rfl, rfl⟩ := pure_inv last
      obtain ⟨length, labelled⟩ := declareLabels_inv inside
      exact ⟨congrArg (· + 1) length, labelled⟩
    case h_2 label _ =>
      obtain ⟨id, s₁, inserted, rest⟩ := bind_inv quiet
      obtain ⟨rfl, rfl⟩ := insertSymbol_inv inserted
      split at rest
      case h_1 =>
        obtain ⟨found', s₂, inside, last⟩ := bind_inv rest
        obtain ⟨rfl, rfl⟩ := pure_inv last
        obtain ⟨length, labelled⟩ := declareLabels_inv inside
        exact ⟨congrArg (· + 1) length, labelled.insert⟩
      case h_2 previous _ =>
        obtain ⟨_, s₂, read, rest'⟩ := bind_inv rest
        obtain ⟨-, rfl⟩ := state_inv read
        obtain ⟨_, s₃, reported, rest''⟩ := bind_inv rest'
        obtain rfl := change_inv reported
        obtain ⟨found', s₄, inside, last⟩ := bind_inv rest''
        obtain ⟨rfl, rfl⟩ := pure_inv last
        obtain ⟨length, scopes, uses, symbols⟩ := declareLabels_inv inside
        exact ⟨congrArg (· + 1) length, Labelled.insert ⟨scopes, uses, symbols⟩⟩

end Check.Quiet

end PackageCheck.Typing
