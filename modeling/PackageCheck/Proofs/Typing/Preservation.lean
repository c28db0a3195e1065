import PackageCheck.Typing.Tree

/-! # Properties that checks preserve

A property of the state is preserved by a check that is put together from checks which preserve
it. There is one rule for each way of putting checks together, so what is left to prove of a
property are the steps that touch it. -/

namespace PackageCheck.Typing

/-- Whether a property of the state holds behind a check if it holds in front of it. -/
def Check.Preserves (P : State → Prop) (check : Check α) : Prop :=
  ∀ s, P s → P (check.run s).2

namespace Check.Preserves

variable {P : State → Prop}

/-! ## Computations -/

theorem pure (a : α) : Preserves P (Pure.pure a : Check α) :=
  fun _ holds => holds

theorem bind {check : Check α} {next : α → Check β} (first : Preserves P check)
    (second : ∀ a, Preserves P (next a)) : Preserves P (check >>= next) :=
  fun s holds => second _ _ (first s holds)

theorem state : Preserves P Typing.state :=
  fun _ holds => holds

theorem change {f : State → State} {grows : ∀ s : State, s.Grows (f s)}
    (step : ∀ s, P s → P (f s)) : Preserves P (Typing.change f grows) :=
  step

theorem withScope {check : Check α} (opened : ∀ s, P s → P s.pushScope)
    (closed : ∀ s, P s → P s.popScope) (inside : Preserves P check) :
    Preserves P (Typing.withScope check) :=
  fun s holds => closed _ (inside _ (opened s holds))

/-! ## Attempts -/

theorem attempt {first : Attempt α} {next : α → Attempt β} (head : Preserves P first.run)
    (tail : ∀ a, Preserves P (next a).run) : Preserves P (first >>= next).run := by
  refine bind head fun result => ?_
  cases result with
  | ok a => exact tail a
  | error err => exact pure _

theorem succeed (a : α) : Preserves P (Pure.pure a : Attempt α).run :=
  pure _

theorem fail (err : Diagnostic) : Preserves P (throw err : Attempt α).run :=
  pure _

theorem lift {check : Check α} (inside : Preserves P check) :
    Preserves P (liftM check : Attempt α).run :=
  bind inside fun _ => pure _

theorem ofExcept (result : Except Diagnostic α) : Preserves P (liftM result : Attempt α).run :=
  pure _

/-! ## Nodes -/

theorem given {first : Attempt α} {node : ν} {next : α → Check (Checked ν τ)}
    (head : Preserves P first.run) (tail : ∀ a, Preserves P (next a)) :
    Preserves P (Typing.given first node next) := by
  refine bind head fun result => ?_
  cases result with
  | ok a => exact tail a
  | error err => exact pure _

theorem rebuild {check : Check (Checked ν τ)} {f : ν → μ} (inside : Preserves P check) :
    Preserves P (check.rebuild f) :=
  bind inside fun _ => pure _

theorem mapResult {check : Check (Checked ν σ)} {f : σ → τ} (inside : Preserves P check) :
    Preserves P (check.mapResult f) :=
  bind inside fun _ => pure _

theorem conclude {check : Check (Checked ν σ)} {rule : σ → Attempt τ}
    (inside : Preserves P check) (ruled : ∀ a, Preserves P (rule a).run) :
    Preserves P (check.conclude rule) :=
  bind inside fun _ => bind (attempt (ofExcept _) ruled) fun _ => pure _

theorem andThen {check : Check (Checked ν σ)} {node : μ} {next : σ → Check (Checked μ τ)}
    (head : Preserves P check) (tail : ∀ a, Preserves P (next a)) :
    Preserves P (check.andThen node next) :=
  bind head fun _ => bind (given (ofExcept _) tail) fun _ => pure _

theorem alongside {check : Check (Checked ν σ)} {other : Check (Checked μ τ)}
    (head : Preserves P check) (tail : Preserves P other) : Preserves P (check.alongside other) :=
  bind head fun _ => bind tail fun _ => pure _

theorem agreeing {what : String} {site : Expr → Site} {expected : Ty}
    {check : Check (Checked Expr Ty)} (inside : Preserves P check) :
    Preserves P (Typing.agreeing what site expected check) := by
  refine bind inside fun checked => ?_
  obtain ⟨e, result⟩ := checked
  cases result with
  | ok found => exact pure _
  | error err => exact pure _

theorem expecting {ctx : Context} {expected : Ty} {infer : Ty → Check (Checked Expr Ty)}
    (inside : Preserves P (infer expected)) : Preserves P (Typing.expecting ctx expected infer) :=
  agreeing inside

/-! ## Rules -/

theorem resolveName {ctx : Context} (used : ∀ name id, Preserves P (touch name id))
    (name : String) (position : Position) :
    Preserves P (Typing.resolveName ctx name position).run := by
  refine attempt (lift state) fun s => ?_
  split
  · refine attempt (lift (used _ _)) fun _ => ?_
    split
    · exact succeed _
    · exact fail _
  · split
    · exact fail _
    · exact fail _

mutual

theorem resolve {ctx : Context} (used : ∀ name id, Preserves P (touch name id)) :
    ∀ spec : TypeSpec, Preserves P (Typing.resolve ctx spec).run
  | .named name position => by
    rw [Typing.resolve]
    exact resolveName used name position
  | .array size of => by
    rw [Typing.resolve]
    exact attempt (resolve used of) fun _ => succeed _
  | .slice of => by
    rw [Typing.resolve]
    exact attempt (resolve used of) fun _ => succeed _
  | .map key value => by
    rw [Typing.resolve]
    exact attempt (resolve used key) fun _ => attempt (resolve used value) fun _ => succeed _
  | .pointer pointee => by
    rw [Typing.resolve]
    exact attempt (resolve used pointee) fun _ => succeed _
  | .tuple members => by
    rw [Typing.resolve]
    exact attempt (resolveList used members) fun _ => succeed _
  | .func args results => by
    rw [Typing.resolve]
    exact attempt (resolveList used args) fun _ => attempt (resolveList used results) fun _ => succeed _
  | .blank => by
    rw [Typing.resolve]
    exact succeed _

theorem resolveList {ctx : Context} (used : ∀ name id, Preserves P (touch name id)) :
    ∀ specs : List TypeSpec, Preserves P (Typing.resolveList ctx specs).run
  | [] => by
    rw [Typing.resolveList]
    exact succeed _
  | spec :: rest => by
    rw [Typing.resolveList]
    exact attempt (resolve used spec) fun _ => attempt (resolveList used rest) fun _ => succeed _

end

section Rules

variable {ctx : Context} (used : ∀ name id, Preserves P (touch name id))

include used

theorem resolveOr (absent : Ty) (spec : Option TypeSpec) :
    Preserves P (Typing.resolveOr ctx absent spec).run := by
  cases spec with
  | none => exact succeed _
  | some spec => exact resolve used spec

theorem receiverType (receiver : Option Param) :
    Preserves P (Typing.receiverType ctx receiver).run := by
  cases receiver with
  | none => exact succeed _
  | some receiver => exact attempt (resolve used _) fun _ => succeed _

theorem signature (params results : List Param) :
    Preserves P (Typing.signature ctx params results).run :=
  attempt (resolveList used _) fun _ => attempt (resolveList used _) fun _ => succeed _

theorem funcType (func : Func) : Preserves P (Typing.funcType ctx func).run :=
  attempt (receiverType used _) fun _ => attempt (signature used _ _) fun _ => succeed _

theorem fieldTypes (fields : List FieldDecl) :
    ∀ before : List FieldTy, Preserves P (Typing.fieldTypes ctx before fields).run := by
  induction fields with
  | nil => exact fun before => succeed _
  | cons field rest hypothesis =>
    intro before
    rw [Typing.fieldTypes]
    split
    · exact attempt (fail _) fun _ => attempt (resolve used _) fun _ => hypothesis _
    · exact attempt (resolve used _) fun _ => hypothesis _

theorem methodTypes (position : Position) (fields : List FieldTy) (methods : List Func) :
    ∀ before : List MethodTy,
      Preserves P (Typing.methodTypes ctx position fields before methods).run := by
  induction methods with
  | nil => exact fun before => succeed _
  | cons method rest hypothesis =>
    intro before
    rw [Typing.methodTypes]
    split
    · exact attempt (fail _) fun _ => attempt (signature used _ _) fun _ => hypothesis _
    · exact attempt (signature used _ _) fun _ => hypothesis _

theorem structTarget (name : String) (position : Position) (fields : List FieldDecl)
    (methods : List Func) :
    Preserves P (Typing.structTarget ctx name position fields methods).run :=
  attempt (fieldTypes used _ _) fun _ => attempt (methodTypes used _ _ _ _) fun _ => succeed _

theorem aliasTarget (name : String) (position : Position) (target : TypeSpec) :
    Preserves P (Typing.aliasTarget ctx name position target).run := by
  refine attempt (resolve used _) fun type => ?_
  split
  · exact attempt (fail _) fun _ => succeed _
  · exact succeed _

theorem inferIdent (ident : Ident) (position : Position) :
    Preserves P (Typing.inferIdent ctx ident position) := by
  refine bind state fun s => ?_
  split
  · exact pure _
  · exact bind (used _ _) fun _ => pure _

theorem conversion? (callee : Expr) : Preserves P (Typing.conversion? ctx callee).run := by
  unfold Typing.conversion?
  split
  · exact attempt (resolve used _) fun _ => succeed _
  · refine attempt (lift state) fun s => ?_
    split
    · exact succeed _
    · refine attempt (lift (used _ _)) fun _ => ?_
      split
      · exact succeed _
      · exact succeed _
  · exact succeed _

theorem compoundType (spec : Option TypeSpec) (hint : Ty) (position : Position) :
    Preserves P (Typing.compoundType ctx spec hint position).run := by
  refine attempt (resolveOr used _ _) fun type => ?_
  split
  · exact succeed _
  · exact fail _

end Rules

section Types

variable {ctx : Context}

theorem underlying (type : Ty) (position : Position) :
    Preserves P (Typing.underlying ctx type position).run := by
  refine attempt (lift state) fun s => ?_
  split
  · exact succeed _
  · exact fail _

theorem aliasRoot (id : SymbolId) (name : String) (position : Position) :
    Preserves P (Typing.aliasRoot ctx id name position).run := by
  refine attempt (lift state) fun s => ?_
  split
  · exact succeed _
  · exact fail _

theorem checkOperand (op : String) (allowString : Bool) (type : Ty) (position : Position) :
    Preserves P (Typing.checkOperand ctx op allowString type position).run := by
  refine attempt (underlying _ _) fun root => ?_
  split
  · exact fail _
  · exact succeed _

theorem binaryType (op : BinaryOp) (operand : Ty) (position : Position) :
    Preserves P (Typing.binaryType ctx op operand position).run := by
  unfold Typing.binaryType
  split
  · exact succeed _
  · exact attempt (checkOperand _ _ _ _) fun _ => succeed _

theorem signType (op : UnaryOp) (operand : Ty) (position : Position) :
    Preserves P (Typing.signType ctx op operand position).run :=
  attempt (checkOperand _ _ _ _) fun _ => succeed _

theorem derefType (operand : Ty) (position : Position) :
    Preserves P (Typing.derefType ctx operand position).run := by
  refine attempt (underlying _ _) fun root => ?_
  split
  · exact succeed _
  · exact fail _

theorem indexTypes (left : Ty) (position : Position) :
    Preserves P (Typing.indexTypes ctx left position).run := by
  refine attempt (underlying _ _) fun root => ?_
  split
  all_goals first | exact succeed _ | exact fail _

theorem memberBase (left : Ty) (position : Position) :
    Preserves P (Typing.memberBase ctx left position).run := by
  refine attempt (lift state) fun s => ?_
  split
  · exact succeed _
  · exact fail _

theorem selectorType (left : Ty) (member : String) (position : Position) :
    Preserves P (Typing.selectorType ctx left member position).run := by
  refine attempt (memberBase _ _) fun base => ?_
  split
  · exact succeed _
  · exact fail _

theorem callSignature (callee : Ty) (count : Nat) (position : Position) :
    Preserves P (Typing.callSignature ctx callee count position).run := by
  refine attempt (underlying _ _) fun root => ?_
  split
  · split
    · exact succeed _
    · exact fail _
  · exact fail _

theorem layoutOf (type : Ty) (elements : List Element) (position : Position) :
    Preserves P (Typing.layoutOf ctx type elements position).run := by
  refine attempt (underlying _ _) fun root => ?_
  split
  all_goals first | exact succeed _ | exact ofExcept _

end Types

end Check.Preserves

end PackageCheck.Typing
