import Mathlib.Data.List.Forall2
import PackageCheck.Proofs.Typing.InPlace
import PackageCheck.Tree.Make

/-! # What a checker in place leaves behind

Whatever the checker in place pushes while it goes through a statement, it pops again, and what it
comes to is what the check of the statement comes to in the surroundings that its stacks stand for.
So it is behind the statement where it was in front of it, whatever has failed on the way.

The proofs go by recursion on the tree. `Performs` is what each action keeps: there is one rule for
each way in which actions are put together, and `Performs.within` for what is pushed and popped. -/

namespace PackageCheck.Typing

/-! ## Actions and checks -/

/-- Whether an action comes to what a check comes to, and gives the stacks on which it has begun
    back. -/
def Performs (file : String) (around : Stacks) (action : Checking α) (check : Check α) : Prop :=
  ∀ state, action.run ⟨file, around, state⟩ =
    ((check.run state).1, ⟨file, around, (check.run state).2⟩)

namespace Performs

open Checker (run_pure run_bind run_get run_consult run_restack run_update)

variable {file : String} {around : Stacks}

theorem pure (a : α) : Performs file around (Pure.pure a) (Pure.pure a) :=
  fun _ => rfl

theorem consult (check : Context → Check α) :
    Performs file around (Checker.consult check) (check (around.context file)) :=
  fun _ => rfl

theorem bind {action : Checking α} {check : Check α} {next : α → Checking β}
    {next' : α → Check β} (first : Performs file around action check)
    (rest : ∀ a, Performs file around (next a) (next' a)) :
    Performs file around (action >>= next) (check >>= next') := by
  intro state
  rw [run_bind, first state]
  exact rest _ _

theorem surroundings {next : Stacks → Checking α} {check : Check α}
    (rest : Performs file around (next around) check) :
    Performs file around (Checker.surroundings >>= next) check :=
  rest

/-- What is pushed in front of an action is popped behind it. The action begins on the stacks with
    what has been pushed, and gives those back. -/
theorem within {around' : Stacks} {enter leave : Stacks → Stacks} {action : Checking α}
    {check : Check α} {next : α → Checking β} {next' : α → Check β}
    (entered : enter around = around') (left : leave around' = around)
    (inside : Performs file around' action check)
    (rest : ∀ a, Performs file around (next a) (next' a)) :
    Performs file around (do
      Checker.restack enter
      let a ← action
      Checker.restack leave
      next a) (check >>= next') := by
  intro state
  -- the action gives back what it has begun on, so what is popped is what has been pushed
  simp only [run_bind, run_restack, entered, inside state, left]
  exact rest _ _

theorem inScope {action : Checking α} {check : Check α}
    (inside : Performs file around action check) :
    Performs file around (Checker.inScope action) (withScope check) := by
  intro state
  simp only [Checker.inScope, run_bind, run_update, inside state.pushScope, run_pure]
  rfl

/-! ## Nodes -/

theorem rebuild {action : Checking (Checked ν τ)} {check : Check (Checked ν τ)} {f : ν → μ}
    (inside : Performs file around action check) :
    Performs file around (action.rebuild f) (check.rebuild f) :=
  .bind inside fun _ => .pure _

theorem mapResult {action : Checking (Checked ν σ)} {check : Check (Checked ν σ)} {f : σ → τ}
    (inside : Performs file around action check) :
    Performs file around (action.mapResult f) (check.mapResult f) :=
  .bind inside fun _ => .pure _

theorem conclude {action : Checking (Checked ν σ)} {check : Check (Checked ν σ)}
    {rule : Context → σ → Attempt τ} (inside : Performs file around action check) :
    Performs file around (action.conclude rule) (check.conclude (rule (around.context file))) :=
  .bind inside fun _ => .bind (.consult _) fun _ => .pure _

theorem given {attempt : Context → Attempt α} {node : ν} {next : α → Checking (Checked ν τ)}
    {next' : α → Check (Checked ν τ)} (inside : ∀ a, Performs file around (next a) (next' a)) :
    Performs file around (Checker.given attempt node next)
      (Typing.given (attempt (around.context file)) node next') := by
  apply Performs.bind (.consult _)
  intro result
  cases result with
  | ok a => exact inside a
  | error err => exact .pure _

theorem andThen {action : Checking (Checked ν σ)} {check : Check (Checked ν σ)} {node : μ}
    {next : σ → Checking (Checked μ τ)} {next' : σ → Check (Checked μ τ)}
    (first : Performs file around action check)
    (second : ∀ a, Performs file around (next a) (next' a)) :
    Performs file around (action.andThen node next) (check.andThen node next') :=
  .bind first fun _ => .bind (.given second) fun _ => .pure _

theorem alongside {action : Checking (Checked ν σ)} {check : Check (Checked ν σ)}
    {other : Checking (Checked μ τ)} {other' : Check (Checked μ τ)}
    (first : Performs file around action check) (second : Performs file around other other') :
    Performs file around (action.alongside other) (check.alongside other') :=
  .bind first fun _ => .bind second fun _ => .pure _

theorem agreeing {what : String} {site : Context → Expr → Site} {expected : Ty}
    {action : Checking (Checked Expr Ty)} {check : Check (Checked Expr Ty)}
    (inside : Performs file around action check) :
    Performs file around (Checker.agreeing what site expected action)
      (Typing.agreeing what (site (around.context file)) expected check) := by
  apply Performs.bind inside
  intro checked
  obtain ⟨e, found⟩ := checked
  cases found with
  | ok found => exact .consult _
  | error err => exact .pure _

theorem expecting {expected : Ty} {infer : Ty → Checking (Checked Expr Ty)}
    {infer' : Ty → Check (Checked Expr Ty)}
    (inside : Performs file around (infer expected) (infer' expected)) :
    Performs file around (Checker.expecting expected infer)
      (Typing.expecting (around.context file) expected infer') :=
  .agreeing inside

/-! ## Statements and declarations -/

theorem recorded {action : Checking (Checked ν τ)} {check : Check (Checked ν τ)}
    (inside : Performs file around action check) :
    Performs file around (Checker.recorded action) (Typing.recorded check) := by
  apply Performs.bind (.consult _)
  intro before
  apply Performs.bind (.consult _)
  intro _
  apply Performs.bind inside
  intro checked
  apply Performs.bind (.consult _)
  intro _
  exact .bind (.consult _) fun _ => .pure _

theorem noted {action : Checking (Checked ν τ)} {check : Check (Checked ν τ)}
    (inside : Performs file around action check) :
    Performs file around (Checker.noted action) (Typing.noted check) :=
  .bind inside fun _ => .bind (.consult _) fun _ => .pure _

theorem declareType {name : String} {position : Position} {node : ν}
    {define : Context → Attempt (Ty × α)} {next : SymbolId → α → Checking (Checked ν Unit)}
    {next' : SymbolId → α → Check (Checked ν Unit)}
    (inside : ∀ id a, Performs file around (next id a) (next' id a)) :
    Performs file around (Checker.declareType name position node define next)
      (Typing.declareType (around.context file) name position node
        (define (around.context file)) next') := by
  intro state
  -- the entry of the type is changed by hand, so the three ways it may end are gone through
  cases clash : state.clash? name with
  | some previous =>
    rw [run_declareType_of_clash clash]
    simp only [Checker.declareType, run_bind, run_get, clash, run_pure]
  | none =>
    cases defined : ((define (around.context file)).run.run
        (state.declaring (around.context file) name position)).1 with
    | error err =>
      rw [run_declareType_of_error clash defined]
      simp only [Checker.declareType, run_bind, run_get, clash, run_update, run_consult, defined,
        run_pure]
    | ok found =>
      obtain ⟨target, a⟩ := found
      rw [run_declareType_of_ok clash defined]
      simp only [Checker.declareType, run_bind, run_get, clash, run_update, run_consult, defined,
        inside _ _ _, run_pure]

end Performs

/-! ## The inside of a function -/

section Parameters

variable (ctx : Context) (results : List Param) (signature : Signature)

/-- Parameters are declared without a look at the loops and labels around them. -/
theorem declareParams_ofBody (params : List Param) (types : List Ty) :
    declareParams (ctx.ofBody results signature) params types = declareParams ctx params types := by
  induction params generalizing types with
  | nil => cases types <;> rfl
  | cons param params ih =>
    cases types with
    | nil => rfl
    | cons type types =>
      simp only [declareParams, ih]
      rfl

/-- The check of a function with the surroundings of its body. -/
def checkInside (receiverType : Option Ty) (func : Func) (ctx : Context) : Check Func :=
  withScope do
    let receiver ← declareReceiver ctx func.receiver receiverType
    let params ← declareParams ctx func.params signature.args
    let results ← declareParams ctx func.results signature.results
    let body ← checkStatements ctx func.body
    return ⟨func.name, receiver, params, results, body⟩

/-- The whole of a function can be checked in the surroundings of its body. -/
theorem checkBody_eq (func : Func) (receiverType : Option Ty) :
    checkBody ctx func signature receiverType =
      checkInside signature receiverType func (ctx.ofBody func.results signature) := by
  obtain ⟨name, receiver, params, results, body⟩ := func
  simp only [checkBody, checkInside, declareParams_ofBody]
  rfl

end Parameters

/-! ## Trees -/

namespace Checker

variable {file : String}

/-- Values that wait are those of the check, and going through them performs their checks. -/
def WaitFor (file : String) (around : Stacks) (values : List Waiting)
    (values' : List Typing.Waiting) : Prop :=
  List.Forall₂ (fun value value' => value.expr = value'.expr ∧
    ∀ hint, Performs file around (value.infer hint) (value'.infer hint)) values values'

theorem WaitFor.exprs {around : Stacks} {values : List Waiting} {values' : List Typing.Waiting}
    (waits : WaitFor file around values values') :
    values.map (·.expr) = values'.map (·.expr) := by
  induction waits with
  | nil => rfl
  | cons here _ hypothesis => rw [List.map_cons, List.map_cons, here.1, hypothesis]

/-- A named function without a body is an error at once. -/
theorem missingBody_performs {around : Stacks} (decl : VarDecl) : Performs file around
    (consult fun ctx => return (decl, .error (.invalidOperation (.missingBody decl.name)
      (ctx.site decl.position))) : Checking (Checked VarDecl Unit))
    (return (decl, .error (.invalidOperation (.missingBody decl.name)
      ((around.context file).site decl.position)))) :=
  .consult _

mutual

theorem infer_performs {around : Stacks} (based : around.Based) : ∀ (e : Expr) (hint : Ty),
    Performs file around (infer e hint) (Typing.infer (around.context file) e hint)
  | ⟨position, form, type⟩, hint => by
    rw [infer, Typing.infer]
    apply Performs.bind (inferForm_performs based position form hint)
    intro checked
    obtain ⟨form, found⟩ := checked
    cases found with
    | ok found => exact .pure _
    | error err => exact .pure _

theorem inferForm_performs {around : Stacks} (based : around.Based) (position : Position) :
    ∀ (form : ExprForm) (hint : Ty), Performs file around (inferForm position form hint)
      (Typing.inferForm (around.context file) position form hint)
  | .literal literal, hint => .pure _
  | .blank, hint => .pure _
  | .compound spec shape elements, hint => by
    rw [inferForm, Typing.inferForm]
    apply Performs.given
    intro type
    split
    · exact .pure _
    · apply Performs.given
      intro layout
      exact .rebuild (.mapResult (checkElements_performs based elements layout))
  | .binary op left right, hint => by
    rw [inferForm, Typing.inferForm]
    split
    · apply Performs.rebuild
      apply Performs.mapResult
      apply Performs.andThen (.expecting (infer_performs based left _))
      exact fun _ => .expecting (infer_performs based right _)
    · apply Performs.rebuild
      apply Performs.conclude
      apply Performs.andThen (infer_performs based left _)
      exact fun _ => .expecting (infer_performs based right _)
  | .unary op operand, hint => by
    cases op with
    | plus => exact .rebuild (.conclude (infer_performs based operand _))
    | minus => exact .rebuild (.conclude (infer_performs based operand _))
    | not => exact .rebuild (.expecting (infer_performs based operand _))
    | addressOf => exact .rebuild (.mapResult (infer_performs based operand _))
    | deref => exact .rebuild (.conclude (infer_performs based operand _))
  | .index left index, hint => by
    rw [inferForm, Typing.inferForm]
    apply Performs.rebuild
    apply Performs.andThen (.conclude (infer_performs based left _))
    exact fun _ => .mapResult (.expecting (infer_performs based index _))
  | .selector left field, hint => by
    rw [inferForm, Typing.inferForm]
    exact .rebuild (.conclude (infer_performs based left _))
  | .call callee args, hint => by
    rw [inferForm, Typing.inferForm]
    apply Performs.given
    intro target
    cases target with
    | some target =>
      match args with
      | [] => exact .consult _
      | [arg] => exact .rebuild (.mapResult (infer_performs based arg _))
      | _ :: _ :: _ => exact .consult _
    | none =>
      apply Performs.rebuild
      apply Performs.andThen (.conclude (infer_performs based callee _))
      exact fun _ => .mapResult (expectAll_performs based args _)
  | .func func, hint => by
    rw [inferForm, Typing.inferForm]
    apply Performs.given
    intro found
    exact .bind (checkBody_performs func _ _) fun _ => .pure _
  | .ident ident, hint => .rebuild (.consult _)
  | .type spec, hint => by
    rw [inferForm, Typing.inferForm]
    exact .consult _

theorem expectAll_performs {around : Stacks} (based : around.Based) :
    ∀ (es : List Expr) (types : List Ty), Performs file around (expectAll es types)
      (Typing.expectAll (around.context file) es types)
  | e :: es, type :: types => by
    rw [expectAll, Typing.expectAll]
    apply Performs.rebuild
    apply Performs.andThen (.expecting (infer_performs based e _))
    exact fun _ => expectAll_performs based es types
  | [], _ => .pure _
  | _ :: _, [] => .pure _

theorem waitingAll_performs {around : Stacks} (based : around.Based) : ∀ es : List Expr,
    WaitFor file around (waitingAll es) (Typing.waitingAll (around.context file) es)
  | [] => .nil
  | e :: es => by
    rw [waitingAll, Typing.waitingAll]
    exact .cons ⟨rfl, infer_performs based e⟩ (waitingAll_performs based es)

theorem assignAll_performs {around : Stacks} (based : around.Based) :
    ∀ (targets : List Expr) (values : List Waiting) (values' : List Typing.Waiting),
      WaitFor file around values values' → Performs file around (assignAll targets values)
        (Typing.assignAll (around.context file) targets values')
  | target :: targets, value :: values, value' :: values', waits => by
    rw [assignAll, Typing.assignAll]
    obtain ⟨⟨same, inside⟩, others⟩ := List.forall₂_cons.mp waits
    rw [same, WaitFor.exprs others]
    apply Performs.rebuild
    apply Performs.andThen
    · apply Performs.andThen (infer_performs based target _)
      exact fun _ => .expecting (inside _)
    · exact fun _ => assignAll_performs based targets values values' others
  | [], values, values', waits => by
    show Performs file around (pure (([], values.map (·.expr)), Except.ok ()))
      (pure (([], values'.map (·.expr)), Except.ok ()))
    rw [WaitFor.exprs waits]
    exact .pure _
  | _ :: _, [], [], _ => .pure _

theorem checkKey_performs {around : Stacks} (based : around.Based) (layout : Layout) :
    ∀ key : Option Expr, Performs file around (checkKey layout key)
      (Typing.checkKey (around.context file) layout key)
  | none => .pure _
  | some key => by
    rw [checkKey, Typing.checkKey]
    cases layout.keyType? with
    | none => exact .pure _
    | some type => exact .rebuild (.mapResult (.expecting (infer_performs based key _)))

theorem checkElements_performs {around : Stacks} (based : around.Based) :
    ∀ (elements : List Element) (layout : Layout), Performs file around
      (checkElements elements layout) (Typing.checkElements (around.context file) elements layout)
  | [], layout => .pure _
  | ⟨key, value⟩ :: rest, layout => by
    rw [checkElements, Typing.checkElements]
    apply Performs.bind (checkKey_performs based layout key)
    intro checked
    apply Performs.rebuild
    apply Performs.given
    intro found
    apply Performs.andThen (.expecting (infer_performs based value _))
    exact fun _ => checkElements_performs based rest _

/-- The body is gone through on stacks of its own, whatever is around the function. -/
theorem checkBody_performs {around : Stacks} : ∀ (func : Func) (signature : Signature)
    (receiver : Option Ty), Performs file around (checkBody func signature receiver)
      (Typing.checkBody (around.context file) func signature receiver)
  | ⟨name, receiver, params, results, body⟩, signature, receiverType => by
    rw [checkBody, checkBody_eq]
    apply Performs.surroundings
    show Performs file around _ (checkInside signature receiverType _ _ >>= pure)
    apply Performs.within rfl (around.leaveBody_enterBody _)
    · -- the function has a base of its own, so no label and no loop outside is seen from here
      rw [← around.context_enterBody file results signature]
      apply Performs.inScope
      apply Performs.bind (.consult _)
      intro receiver
      apply Performs.bind (.consult _)
      intro params
      apply Performs.bind (.consult _)
      intro namedResults
      exact .bind (checkStatements_performs (around.based_enterBody _) body) fun _ => .pure _
    · exact fun _ => .pure _

theorem checkMethods_performs {around : Stacks} (this : Ty) : ∀ (methods : List Func)
    (signatures : List Signature), Performs file around (checkMethods this methods signatures)
      (Typing.checkMethods (around.context file) this methods signatures)
  | method :: methods, signature :: signatures => by
    rw [checkMethods, Typing.checkMethods]
    apply Performs.given
    intro receiver
    apply Performs.bind (checkBody_performs method _ _)
    intro method
    exact .bind (checkMethods_performs this methods signatures) fun _ => .pure _
  | [], _ => .pure _
  | _ :: _, [] => .pure _

/-- The labels of a block are on the stack for its statements, and gone behind them. -/
theorem checkStatements_performs {around : Stacks} (based : around.Based) : ∀ block : Block,
    Performs file around (checkStatements block)
      (Typing.checkStatements (around.context file) block)
  | ⟨statements, _⟩ => by
    rw [checkStatements, Typing.checkStatements]
    apply Performs.bind (.consult _)
    intro declared
    obtain ⟨labels, annotated⟩ := declared
    apply Performs.within rfl (around.popBlock_pushBlock labels)
    · rw [← Stacks.context_pushBlock based file labels]
      exact checkEach_performs (based.pushBlock labels) statements annotated
    · exact fun _ => .pure _

theorem checkEach_performs {around : Stacks} (based : around.Based) :
    ∀ (statements : List Stmt) (labels : List (Option StmtLabel)),
      Performs file around (checkEach statements labels)
        (Typing.checkEach (around.context file) statements labels)
  | s :: rest, label :: labels => by
    rw [checkEach, Typing.checkEach]
    apply Performs.bind (.recorded (checkStmt_performs based s))
    intro s
    exact .bind (checkEach_performs based rest labels) fun _ => .pure _
  | [], _ => .pure _
  | _ :: _, [] => .pure _

theorem checkStmt_performs {around : Stacks} (based : around.Based) : ∀ s : Stmt,
    Performs file around (checkStmt s) (Typing.checkStmt (around.context file) s)
  | ⟨id, position, label, form⟩ => by
    rw [checkStmt, Typing.checkStmt]
    exact .bind (checkForm_performs based id position _ form) fun _ => .pure _

theorem checkForm_performs {around : Stacks} (based : around.Based) (id : StmtId)
    (position : Position) (label : Option String) : ∀ form : StmtForm,
      Performs file around (checkForm id position label form)
        (Typing.checkForm (around.context file) id position label form)
  | .assign lhs rhs op => by
    rw [checkForm, Typing.checkForm]
    cases lhs.find? (!·.isAssignable) with
    | some e => exact .consult _
    | none =>
      cases op.binary? with
      | some binary =>
        match lhs, rhs with
        | [target], [value] =>
          apply Performs.rebuild
          apply Performs.conclude
          apply Performs.andThen (infer_performs based target _)
          exact fun _ => .expecting (infer_performs based value _)
        | [], _ => exact .consult _
        | _ :: _ :: _, _ => exact .consult _
        | [_], [] => exact .consult _
        | [_], _ :: _ :: _ => exact .consult _
      | none =>
        dsimp only
        split
        · exact .rebuild (assignAll_performs based lhs _ _ (waitingAll_performs based rhs))
        · match rhs with
          | [] => exact .consult _
          | [value] =>
            apply Performs.rebuild
            apply Performs.andThen (infer_performs based value _)
            intro type
            cases type with
            | tuple members =>
              dsimp only
              split
              · exact expectAll_performs based lhs _
              · exact .consult _
            | _ => exact .consult _
          | _ :: _ :: _ => exact .consult _
  | .struct ⟨name, fields, methods, symbol⟩ => by
    rw [checkForm, Typing.checkForm]
    apply Performs.rebuild
    apply Performs.declareType
    exact fun struct signatures => checkMethods_performs _ methods signatures
  | .typeAlias decl => .rebuild (.consult _)
  | .var vars => .rebuild (checkVars_performs based id vars)
  | .pass => .pure _
  | .cond branches => by
    rw [checkForm, Typing.checkForm]
    exact .bind (checkBranches_performs based id branches) fun _ => .pure _
  | .loop ⟨header, condition, step, body⟩ => by
    rw [checkForm, Typing.checkForm]
    apply Performs.inScope
    apply Performs.bind (checkHeader_performs based id header)
    intro header
    apply Performs.bind (checkCondition_performs based condition)
    intro condition
    apply Performs.bind (checkStep_performs based step)
    intro step
    -- the loop is on the stack for its body, and gone behind it
    apply Performs.within rfl (around.popLoop_pushLoop (id, label))
    · rw [← around.context_pushLoop file (id, label)]
      exact .inScope (checkStatements_performs (based.pushLoop (id, label)) body)
    · exact fun _ => .pure _
  | .expr e => .rebuild (.mapResult (infer_performs based e _))
  | .jump jump => by
    rw [checkForm, Typing.checkForm]
    exact .consult _
  | .ret values => by
    rw [checkForm, Typing.checkForm]
    apply Performs.rebuild
    apply Performs.given
    exact fun types => expectAll_performs based values types

theorem checkVars_performs {around : Stacks} (based : around.Based) (id : StmtId) :
    ∀ vars : VarForm, Performs file around (checkVars id vars)
      (Typing.checkVars (around.context file) id vars)
  | ⟨vars, isFunc⟩ => by
    rw [checkVars, Typing.checkVars]
    apply Performs.bind (.consult _)
    intro before
    apply Performs.bind (checkVarList_performs based id isFunc vars)
    intro checked
    exact .bind (.consult _) fun _ => .pure _

theorem checkVarList_performs {around : Stacks} (based : around.Based) (id : StmtId)
    (isFunc : Bool) : ∀ vars : List VarDecl, Performs file around (checkVarList id isFunc vars)
      (Typing.checkVarList (around.context file) id isFunc vars)
  | [] => .pure _
  | decl :: rest => by
    rw [checkVarList, Typing.checkVarList]
    apply Performs.rebuild
    apply Performs.alongside
    · apply Performs.noted
      cases isFunc with
      | true => exact checkFuncVar_performs id decl
      | false => exact checkPlainVar_performs based id decl
    · exact checkVarList_performs based id isFunc rest

theorem checkPlainVar_performs {around : Stacks} (based : around.Based) (id : StmtId) :
    ∀ decl : VarDecl, Performs file around (checkPlainVar id decl)
      (Typing.checkPlainVar (around.context file) id decl)
  | ⟨name, position, spec, value, symbol⟩ => by
    rw [checkPlainVar, Typing.checkPlainVar]
    apply Performs.bind (.consult _)
    intro result
    cases result with
    | error err => exact .consult _
    | ok declared =>
      apply Performs.bind (checkInit_performs based name position declared value)
      intro checked
      obtain ⟨value, found⟩ := checked
      cases found with
      | ok type => exact .consult _
      | error err => exact .consult _

theorem checkInit_performs {around : Stacks} (based : around.Based) (name : String)
    (position : Position) (declared : Ty) : ∀ value : Option Expr,
      Performs file around (checkInit name position declared value)
        (Typing.checkInit (around.context file) name position declared value)
  | none => by
    rw [checkInit, Typing.checkInit]
    exact .consult _
  | some e => .rebuild (.agreeing (infer_performs based e _))

theorem checkFuncVar_performs {around : Stacks} (id : StmtId) : ∀ decl : VarDecl,
    Performs file around (checkFuncVar id decl)
      (Typing.checkFuncVar (around.context file) id decl)
  | ⟨_, _, _, none, _⟩ => missingBody_performs _
  | ⟨name, position, spec, some ⟨valuePosition, form, type⟩, symbol⟩ => by
    cases form with
    | func func =>
      rw [checkFuncVar, Typing.checkFuncVar]
      apply Performs.bind (.consult _)
      intro result
      cases result with
      | error err => exact .consult _
      | ok found =>
        apply Performs.bind (.consult _)
        intro declared
        obtain ⟨decl, result⟩ := declared
        cases result with
        | error err => exact .pure _
        | ok _ => exact .bind (checkBody_performs func _ _) fun _ => .pure _
    | _ => exact missingBody_performs _

theorem checkHeader_performs {around : Stacks} (based : around.Based) (id : StmtId) :
    ∀ header : Option VarForm, Performs file around (checkHeader id header)
      (Typing.checkHeader (around.context file) id header)
  | none => .pure _
  | some vars => .bind (.recorded (checkVars_performs based id vars)) fun _ => .pure _

theorem checkCondition_performs {around : Stacks} (based : around.Based) :
    ∀ condition : Option Expr, Performs file around (checkCondition condition)
      (Typing.checkCondition (around.context file) condition)
  | none => .pure _
  | some e => .bind (.recorded (.expecting (infer_performs based e _))) fun _ => .pure _

theorem checkStep_performs {around : Stacks} (based : around.Based) : ∀ step : Option Stmt,
    Performs file around (checkStep step) (Typing.checkStep (around.context file) step)
  | none => .pure _
  | some s => .bind (.recorded (checkStmt_performs based s)) fun _ => .pure _

theorem checkBranches_performs {around : Stacks} (based : around.Based) (id : StmtId) :
    ∀ branches : List Branch, Performs file around (checkBranches id branches)
      (Typing.checkBranches (around.context file) id branches)
  | [] => .pure _
  | ⟨header, condition, body⟩ :: rest => by
    rw [checkBranches, Typing.checkBranches]
    apply Performs.bind
    · apply Performs.inScope
      apply Performs.bind (checkHeader_performs based id header)
      intro header
      apply Performs.bind (checkCondition_performs based condition)
      intro condition
      exact .bind (.inScope (checkStatements_performs based body)) fun _ => .pure _
    · intro branch
      exact .bind (checkBranches_performs based id rest) fun _ => .pure _

end

/-! ## What a statement leaves behind -/

/-- Whether a checker is where an earlier one was, and has only added to what that had found. -/
structure Restored (before after : Checker) : Prop where
  file : after.file = before.file
  around : after.around = before.around
  depth : after.state.scopes.depth = before.state.scopes.depth
  outer : after.state.scopes.outer = before.state.scopes.outer
  kept : ∀ name id, before.state.scopes.inner.find? name = some id →
    after.state.scopes.inner.find? name = some id
  /-- A name that is there now was there with the same symbol, or was not there. -/
  gained : ∀ name id, after.state.scopes.inner.find? name = some id →
    before.state.scopes.inner.find? name = some id ∨
      before.state.scopes.inner.find? name = none
  symbols : ∀ id symbol, before.state.symbols.get? id = some symbol →
    after.state.symbols.get? id = some symbol
  size : before.state.symbols.declared.size ≤ after.state.symbols.declared.size
  failed : ∀ id, before.state.symbols.isFailed id → after.state.symbols.isFailed id
  /-- Only what has been declared since is marked as failed. -/
  unmarked : ∀ id, after.state.symbols.isFailed id →
    before.state.symbols.isFailed id ∨ before.state.symbols.get? id = none
  diagnostics : before.state.diagnostics <+: after.state.diagnostics

/-- A state that only grows keeps its place. -/
theorem restored_of_grows {checker : Checker} {state : State} (grows : checker.state.Grows state) :
    Restored checker { checker with state := state } where
  file := rfl
  around := rfl
  depth := congrArg List.length grows.outer
  outer := grows.outer
  kept := grows.inner
  gained name id found := by
    -- a name that was there has kept its symbol
    cases held : checker.state.scopes.inner.find? name with
    | none => exact Or.inr rfl
    | some earlier => exact Or.inl (by rw [← found, grows.inner name earlier held])
  symbols := grows.symbols.kept
  size := grows.symbols.size
  failed id marked := by
    simp only [SymbolTable.isFailed, decide_eq_true_eq] at marked ⊢
    exact grows.symbols.failed.subset marked
  unmarked := grows.symbols.unmarked
  diagnostics := grows.diagnostics

/-- Wherever a statement is checked, and whatever fails in it, the checker is behind it where it was in
    front of it: all that it has pushed is popped, the outer scopes are as before, and the innermost
    scope, the symbols and the diagnostics have only been added to. What it comes to is what the check
    of the statement comes to in the surroundings on its stacks, with nothing around it at the top of a
    file. -/
theorem restored_checkTopLevel (s : Stmt) :
    (∀ checker : Checker, checker.around.Based →
      let ended := (checkTopLevel s).run checker
      Restored checker ended.2 ∧ (ended.1, ended.2.state) = (Typing.recorded
        (Typing.checkStmt (checker.around.context checker.file) s)).run checker.state) ∧
    ∀ (file : String) (state : State), (Typing.checkTopLevel file s).run state =
      let ended := (checkTopLevel s).run
        { file := file, state := { state with tainted := false, uses := [] } }
      (ended.1, ended.2.state) := by
  have performs : ∀ {file : String} {around : Stacks}, around.Based → Performs file around
      (checkTopLevel s) (Typing.recorded (Typing.checkStmt (around.context file) s)) :=
    fun based => .recorded (checkStmt_performs based s)
  constructor
  · intro checker based ended
    have performed : ended = _ := performs based checker.state
    rw [performed]
    exact ⟨restored_of_grows ((Typing.recorded _).grows _), rfl⟩
  · intro file state
    have nothing : Stacks.Based {} := Nat.le_refl 0
    rw [performs nothing]
    rfl

/-- A checker inside of the loop `L` of a function, two blocks deep in it. -/
def insideLoop : Checker where
  file := "m.hv"
  around := ⟨[⟨[], false⟩], [({}, some "L")], [.empty, .empty, .empty], 1⟩
  state := { scopes := ⟨.empty, []⟩, symbols := .empty }

/-- A function literal with a loop that it leaves, and a `break` behind it that leaves nothing. -/
def strayLiteral : Stmt :=
  .ofForm (.expr (.func (.make none none [] []
    [(Stmt.loop none none none [.jump .«break» (some "M")]).labelled "M", .jump .«break» none])))

/-- The stray `break` is an error, since the loop around the literal is out of reach in it. Behind the
    literal the checker is in that loop again. -/
theorem restored_strayLiteral :
    let ended := (checkTopLevel strayLiteral).run insideLoop
    Restored insideLoop ended.2 ∧ ended.2.state.diagnostics.length = 1 := by
  have based : insideLoop.around.Based := by decide
  exact ⟨((restored_checkTopLevel strayLiteral).1 insideLoop based).1, by decide +kernel⟩

end Checker

end PackageCheck.Typing
