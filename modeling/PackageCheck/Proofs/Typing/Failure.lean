import PackageCheck.Proofs.Typing.Preservation

/-! # Errors that get through

An error travels up to the nearest statement and is reported there, unless the statement has used
a failed declaration. As long as nothing has failed nothing can be tainted, so the first error of
a run is reported. There is one way around this: a form of variables declares a variable whose
check has ended in an error, and goes on to use it, so that the form is tainted by its own error.

`Accounted` is the invariant. Either an error has been reported or lost in this way, or nothing
has ended in an error at all. -/

namespace PackageCheck.Typing

/-! ## The invariant -/

namespace State

/-- Whether an error has been reported, or noted as lost. -/
def Reported (s : State) : Prop :=
  s.diagnostics ≠ [] ∨ ∃ failure ∈ s.failures, failure.lost = true

/-- Whether nothing has ended in an error. -/
structure Clean (s : State) : Prop where
  failed : s.symbols.failed = []
  tainted : s.tainted = false
  failures : s.failures = []

/-- Whether the first error, if there was one, is not hidden. -/
def Accounted (s : State) : Prop :=
  s.Reported ∨ s.Clean

/-- What holds behind a statement before its result is taken: an error of an untainted statement
    is still to be reported. -/
def AccountedWith (s : State) : Except Diagnostic α → Prop
  | .ok _ => s.Accounted
  | .error _ => s.Reported ∨ s.tainted = false

variable {s before after : State}

/-- What has been reported stays so. -/
theorem Reported.grows (reported : before.Reported) (grows : before.Grows after) :
    after.Reported := by
  rcases reported with diagnostics | ⟨failure, member, lost⟩
  · exact Or.inl fun empty => diagnostics (List.prefix_nil.mp (empty ▸ grows.diagnostics))
  · exact Or.inr ⟨failure, grows.failures.subset member, lost⟩

theorem Accounted.with (accounted : s.Accounted) (result : Except Diagnostic α) :
    s.AccountedWith result := by
  cases result with
  | ok a => exact accounted
  | error err => exact accounted.imp id (·.tainted)

/-- A step that does not make a clean state unclean keeps the invariant. -/
theorem Accounted.step (accounted : before.Accounted) (grows : before.Grows after)
    (clean : before.Clean → after.Clean) : after.Accounted :=
  accounted.imp (·.grows grows) clean

theorem Accounted.touch (accounted : s.Accounted) (name : String) (id : SymbolId) :
    (s.touch name id).Accounted := by
  refine accounted.step (s.grows_touch name id) fun clean => ?_
  have unmarked : s.symbols.isFailed id = false := by simp [SymbolTable.isFailed, clean.failed]
  have untainted : (s.touch name id).tainted = false := by
    simp [State.touch, clean.tainted, unmarked]
  exact ⟨clean.failed, untainted, clean.failures⟩

theorem Accounted.pushScope (accounted : s.Accounted) : s.pushScope.Accounted :=
  accounted.imp id fun clean => ⟨clean.failed, clean.tainted, clean.failures⟩

theorem Accounted.popScope (accounted : s.Accounted) : s.popScope.Accounted :=
  accounted.imp id fun clean => ⟨clean.failed, clean.tainted, clean.failures⟩

theorem Accounted.insertNamed (accounted : s.Accounted) (symbol : Symbol) :
    (s.insertNamed symbol).Accounted :=
  accounted.imp id fun clean => ⟨clean.failed, clean.tainted, clean.failures⟩

theorem Accounted.setAliased (accounted : s.Accounted) (declared : SymbolId) (target : Ty) :
    (s.setAliased declared target).Accounted := by
  refine accounted.imp id fun clean => ⟨?_, clean.tainted, clean.failures⟩
  exact (s.symbols.failed_setAliased declared target).trans clean.failed

theorem Accounted.enter (accounted : s.Accounted) : s.enter.Accounted :=
  accounted.imp id fun clean => ⟨clean.failed, clean.tainted, clean.failures⟩

theorem Accounted.leave (accounted : s.Accounted) (before : State) :
    (s.leave before).Accounted :=
  accounted.imp id fun clean => ⟨clean.failed, clean.tainted, clean.failures⟩

/-- An error is either reported at once or taken for a consequence of one that was reported. -/
theorem AccountedWith.record {result : Except Diagnostic α} (accounted : s.AccountedWith result) :
    ((Typing.record result).run s).2.Accounted := by
  cases result with
  | ok a => exact accounted.imp id fun clean => ⟨clean.failed, rfl, clean.failures⟩
  | error err =>
    refine Or.inl ?_
    rcases accounted with reported | untainted
    · exact reported.grows ((Typing.record _).grows s)
    · refine Or.inl ?_
      simp [Typing.record, Typing.change, Check.run, State.judge, State.note, State.record,
        State.report, untainted]

/-- The mark of a failed declaration comes with its error. -/
theorem AccountedWith.markIfFailed {result : Except Diagnostic α}
    (accounted : s.AccountedWith result) (id : SymbolId) :
    (s.markIfFailed id result).AccountedWith result := by
  cases result with
  | ok a => exact accounted
  | error err => exact accounted

end State

/-! ## Rules -/

namespace Check

open State (Accounted AccountedWith)

/-- Whether the invariant holds behind the check of a node, as far as it can before the result of
    the node is taken. -/
def Accounts (check : Check (Checked ν τ)) : Prop :=
  ∀ s : State, s.Accounted → (check.run s).2.AccountedWith (check.run s).1.2

theorem Preserves.accounts {check : Check (Checked ν τ)} (preserves : Preserves Accounted check) :
    check.Accounts :=
  fun s accounted => (preserves s accounted).with _

theorem Accounts.recorded {check : Check (Checked ν τ)} (accounts : check.Accounts) :
    Preserves Accounted (Typing.recorded check) :=
  fun s accounted => (accounts s.enter accounted.enter).record.leave s

theorem Accounts.rebuild {check : Check (Checked ν τ)} {f : ν → μ} (accounts : check.Accounts) :
    (check.rebuild f).Accounts :=
  accounts

/-- A check goes on where another one has kept the invariant. -/
theorem Accounts.bind {check : Check α} {next : α → Check (Checked ν τ)}
    (first : Preserves Accounted check) (second : ∀ a, (next a).Accounts) :
    (check >>= next).Accounts :=
  fun s accounted => second _ _ (first s accounted)

theorem touch_accounted (name : String) (id : SymbolId) : Preserves Accounted (touch name id) :=
  .change fun _ accounted => accounted.touch name id

theorem report_accounted (err : Diagnostic) : Preserves Accounted (report err) :=
  .change fun s _ => Or.inl (Or.inl (by simp [State.report]))

theorem insertSymbol_accounted (symbol : Symbol) :
    Preserves Accounted (Typing.insertSymbol symbol) :=
  fun _ accounted => accounted.imp id fun clean => ⟨clean.failed, clean.tainted, clean.failures⟩

theorem withScope_accounted {check : Check α} (inside : Preserves Accounted check) :
    Preserves Accounted (withScope check) :=
  .withScope (fun _ => Accounted.pushScope) (fun _ => Accounted.popScope) inside

/-! ## Declarations -/

theorem declare_accounted (ctx : Context) (symbol : Symbol) (position : Position) :
    Preserves Accounted (declare ctx symbol position (.ok ())).run := by
  intro s accounted
  cases clash : s.clash? symbol.name with
  | none =>
    rw [run_declare_of_free clash]
    exact accounted.insertNamed _
  | some previous =>
    rw [run_declare_of_clash clash]
    exact accounted

theorem declareParam_accounted (ctx : Context) (param : Param) (type : Ty) :
    Preserves Accounted (declareParam ctx param type) := by
  unfold declareParam
  split
  · exact .pure _
  · exact .given (declare_accounted _ _ _) fun _ => .pure _

/-- A variable whose check has ended in an error is declared with a mark. -/
theorem declareVar_accounts (ctx : Context) (decl : VarDecl) (type : Ty) (init : Option StmtId)
    (result : Except Diagnostic Unit) : (declareVar ctx decl type init result).Accounts := by
  intro s accounted
  unfold declareVar
  cases clash : s.clash? (Symbol.name (.var ⟨decl.name, type, init, _⟩)) with
  | none =>
    rw [run_given_of_ok (run_declare_of_free clash _ _)]
    exact ((accounted.insertNamed _).with result).markIfFailed _
  | some previous =>
    rw [run_given_of_error (run_declare_of_clash clash _ _)]
    exact accounted.with _

theorem declareType_accounts {ctx : Context} {name : String} {position : Position} {node : ν}
    {define : Attempt (Ty × α)} {next : SymbolId → α → Check (Checked ν Unit)}
    (definition : Preserves Accounted define.run) (rest : ∀ id a, (next id a).Accounts) :
    (declareType ctx name position node define next).Accounts := by
  intro s accounted
  cases clash : s.clash? name with
  | some previous =>
    rw [run_declareType_of_clash clash]
    exact accounted.with _
  | none =>
    have defining := definition (s.declaring ctx name position) (accounted.insertNamed _)
    cases defined : (define.run.run (s.declaring ctx name position)).1 with
    | error err =>
      rw [run_declareType_of_error clash defined]
      exact (Accounted.with defining (.error err : Except Diagnostic Unit)).markIfFailed _
    | ok found =>
      rw [run_declareType_of_ok clash defined]
      exact (rest _ _ _ (Accounted.setAliased defining _ _)).markIfFailed _

theorem checkAlias_accounts (ctx : Context) (decl : AliasDecl) (position : Position) :
    (checkAlias ctx decl position).Accounts := by
  refine Accounts.rebuild (declareType_accounts ?_ fun id _ => ?_)
  · exact .aliasTarget touch_accounted _ _ _
  · exact Preserves.accounts (.bind (.aliasRoot _ _ _) fun _ => .pure _)

theorem declareLabels_accounted (ctx : Context) : ∀ (labels : NameMap SymbolId)
    (statements : List Stmt), Preserves Accounted (declareLabels ctx labels statements)
  | labels, [] => .pure _
  | labels, s :: rest => by
    rw [declareLabels]
    split
    · exact .bind (declareLabels_accounted ctx labels rest) fun _ => .pure _
    · refine .bind (insertSymbol_accounted _) fun id => ?_
      split
      · exact .bind (declareLabels_accounted ctx _ rest) fun _ => .pure _
      · refine .bind .state fun _ => .bind (report_accounted _) fun _ => ?_
        exact .bind (declareLabels_accounted ctx _ rest) fun _ => .pure _

theorem declareParams_accounted (ctx : Context) : ∀ (params : List Param) (types : List Ty),
    Preserves Accounted (declareParams ctx params types)
  | param :: params, type :: types => by
    refine .bind (declareParam_accounted ctx param type).accounts.recorded fun _ => ?_
    exact .bind (declareParams_accounted ctx params types) fun _ => .pure _
  | [], _ => .pure _
  | _ :: _, [] => .pure _

theorem declareReceiver_accounted (ctx : Context) (receiver : Option Param) (type : Option Ty) :
    Preserves Accounted (declareReceiver ctx receiver type) := by
  unfold declareReceiver
  split
  · exact .bind (declareParam_accounted ctx _ _).accounts.recorded fun _ => .pure _
  · exact .pure _

/-! ## Forms of variables -/

/-- Whether the invariant holds behind the check of a node if the node checks. A form of variables
    that goes on behind a failed one keeps no more than this. -/
def AccountsPassed (check : Check (Checked ν τ)) : Prop :=
  ∀ s : State, s.Accounted → ∀ a, (check.run s).1.2 = .ok a → (check.run s).2.Accounted

theorem Accounts.noted {check : Check (Checked ν τ)} (accounts : check.Accounts) :
    (Typing.noted check).AccountsPassed := by
  intro s accounted a passed
  have behind := accounts s accounted
  have ended : (check.run s).1.2 = .ok a := passed
  simp only [Typing.noted, Check.run_bind, ended]
  rw [ended] at behind
  exact behind

/-- Two nodes check only if each of them does. -/
theorem AccountsPassed.alongside {check : Check (Checked ν σ)} {other : Check (Checked μ τ)}
    (head : check.AccountsPassed) (tail : other.AccountsPassed) :
    (check.alongside other).AccountsPassed := by
  intro s accounted a passed
  have both : ((check.run s).1.2.bind fun _ => (other.run (check.run s).2).1.2) = .ok a := passed
  cases ended : (check.run s).1.2 with
  | error err =>
    rw [ended] at both
    cases both
  | ok b =>
    rw [ended] at both
    exact tail _ (head s accounted b ended) a both

/-- An error of a form is lost if the form began with nothing failed and ended tainted. -/
theorem noteForm_accountedWith {before after : State} (accounted : before.Accounted)
    (grows : before.Grows after) {result : Except Diagnostic α}
    (passed : ∀ a, result = .ok a → after.Accounted) :
    (after.noteForm before.symbols.failed.isEmpty result).AccountedWith result := by
  cases result with
  | ok a => exact passed a rfl
  | error err =>
    rcases accounted with reported | clean
    · exact Or.inl ((reported.grows grows).grows (after.grows_noteForm _ _))
    · by_cases tainted : after.tainted = true
      · refine Or.inl (Or.inr ⟨⟨err, true⟩, ?_, rfl⟩)
        simp [State.noteForm, clean.failed, tainted]
      · exact Or.inr (by simpa [State.noteForm] using tainted)

/-! ## Trees -/

mutual

theorem infer_accounted (ctx : Context) : ∀ (e : Expr) (hint : Ty),
    Preserves Accounted (infer ctx e hint)
  | ⟨position, form, type⟩, hint => by
    rw [infer]
    refine .bind (inferForm_accounted ctx position form hint) fun checked => ?_
    obtain ⟨form, result⟩ := checked
    cases result with
    | ok found => exact .pure _
    | error err => exact .pure _

theorem inferForm_accounted (ctx : Context) (position : Position) : ∀ (form : ExprForm) (hint : Ty),
    Preserves Accounted (inferForm ctx position form hint)
  | .literal literal, hint => .pure _
  | .blank, hint => .pure _
  | .compound spec shape elements, hint => by
    rw [inferForm]
    refine .given (.compoundType touch_accounted _ _ _) fun type => ?_
    split
    · exact .pure _
    · refine .given (.layoutOf _ _ _) fun layout => ?_
      exact .rebuild (.mapResult (checkElements_accounted ctx elements layout))
  | .binary op left right, hint => by
    rw [inferForm]
    split
    · refine .rebuild (.mapResult (.andThen (.expecting (infer_accounted ctx left _)) fun _ => ?_))
      exact .expecting (infer_accounted ctx right _)
    · refine .rebuild (.conclude (.andThen (infer_accounted ctx left _) fun _ => ?_) fun _ => ?_)
      · exact .expecting (infer_accounted ctx right _)
      · exact .binaryType _ _ _
  | .unary op operand, hint => by
    cases op with
    | plus => exact .rebuild (.conclude (infer_accounted ctx operand _) fun _ => .signType _ _ _)
    | minus => exact .rebuild (.conclude (infer_accounted ctx operand _) fun _ => .signType _ _ _)
    | not => exact .rebuild (.expecting (infer_accounted ctx operand _))
    | addressOf => exact .rebuild (.mapResult (infer_accounted ctx operand _))
    | deref => exact .rebuild (.conclude (infer_accounted ctx operand _) fun _ => .derefType _ _)
  | .index left index, hint => by
    rw [inferForm]
    refine .rebuild (.andThen (.conclude (infer_accounted ctx left _) fun _ => ?_) fun _ => ?_)
    · exact .indexTypes _ _
    · exact .mapResult (.expecting (infer_accounted ctx index _))
  | .selector left field, hint => by
    rw [inferForm]
    exact .rebuild (.conclude (infer_accounted ctx left _) fun _ => .selectorType _ _ _)
  | .call callee args, hint => by
    rw [inferForm]
    refine .given (.conversion? touch_accounted _) fun target => ?_
    cases target with
    | some target =>
      match args with
      | [] => exact .pure _
      | [arg] => exact .rebuild (.mapResult (infer_accounted ctx arg _))
      | _ :: _ :: _ => exact .pure _
    | none =>
      refine .rebuild (.andThen (.conclude (infer_accounted ctx callee _) fun _ => ?_) fun _ => ?_)
      · exact .callSignature _ _ _
      · exact .mapResult (expectAll_accounted ctx args _)
  | .func func, hint => by
    rw [inferForm]
    refine .given (.funcType touch_accounted _) fun _ => ?_
    exact .bind (checkBody_accounted ctx func _ _) fun _ => .pure _
  | .ident ident, hint => .rebuild (.inferIdent touch_accounted _ _)
  | .type spec, hint => .pure _

theorem expectAll_accounted (ctx : Context) : ∀ (es : List Expr) (types : List Ty),
    Preserves Accounted (expectAll ctx es types)
  | e :: es, type :: types => by
    rw [expectAll]
    refine .rebuild (.andThen (.expecting (infer_accounted ctx e _)) fun _ => ?_)
    exact expectAll_accounted ctx es types
  | [], _ => .pure _
  | _ :: _, [] => .pure _

theorem waitingAll_accounted (ctx : Context) : ∀ (es : List Expr),
    ∀ waiting ∈ waitingAll ctx es, ∀ hint, Preserves Accounted (waiting.infer hint)
  | [] => nofun
  | e :: es => by
    rw [waitingAll]
    intro waiting member hint
    rcases List.mem_cons.mp member with rfl | member
    · exact infer_accounted ctx e hint
    · exact waitingAll_accounted ctx es waiting member hint

theorem assignAll_accounted (ctx : Context) : ∀ (targets : List Expr) (values : List Waiting),
    (∀ waiting ∈ values, ∀ hint, Preserves Accounted (waiting.infer hint)) →
      Preserves Accounted (assignAll ctx targets values)
  | target :: targets, value :: values, waits => by
    rw [assignAll]
    refine .rebuild (.andThen (.andThen (infer_accounted ctx target _) fun _ => ?_) fun _ => ?_)
    · exact .expecting (waits value List.mem_cons_self _)
    · exact assignAll_accounted ctx targets values fun waiting member =>
        waits waiting (List.mem_cons_of_mem _ member)
  | [], _, _ => .pure _
  | _ :: _, [], _ => .pure _

theorem checkKey_accounted (ctx : Context) (layout : Layout) : ∀ key : Option Expr,
    Preserves Accounted (checkKey ctx layout key)
  | none => .pure _
  | some key => by
    rw [checkKey]
    split
    · exact .pure _
    · exact .rebuild (.mapResult (.expecting (infer_accounted ctx key _)))

theorem checkElements_accounted (ctx : Context) : ∀ (elements : List Element) (layout : Layout),
    Preserves Accounted (checkElements ctx elements layout)
  | [], layout => .pure _
  | ⟨key, value⟩ :: rest, layout => by
    rw [checkElements]
    refine .bind (checkKey_accounted ctx layout key) fun _ => ?_
    refine .rebuild (.given (.ofExcept _) fun _ => ?_)
    refine .andThen (.expecting (infer_accounted ctx value _)) fun _ => ?_
    exact checkElements_accounted ctx rest _

theorem checkBody_accounted (ctx : Context) : ∀ (func : Func) (signature : Signature)
    (receiver : Option Ty), Preserves Accounted (checkBody ctx func signature receiver)
  | ⟨name, receiver, params, results, body⟩, signature, receiverType => by
    rw [checkBody]
    refine withScope_accounted (.bind (declareReceiver_accounted _ _ _) fun _ => ?_)
    refine .bind (declareParams_accounted _ _ _) fun _ => ?_
    refine .bind (declareParams_accounted _ _ _) fun _ => ?_
    exact .bind (checkStatements_accounted _ body) fun _ => .pure _

theorem checkMethods_accounted (ctx : Context) (this : Ty) : ∀ (methods : List Func)
    (signatures : List Signature), Preserves Accounted (checkMethods ctx this methods signatures)
  | method :: methods, signature :: signatures => by
    rw [checkMethods]
    refine .given (.receiverType touch_accounted _) fun _ => ?_
    refine .bind (checkBody_accounted ctx method _ _) fun _ => ?_
    exact .bind (checkMethods_accounted ctx this methods signatures) fun _ => .pure _
  | [], _ => .pure _
  | _ :: _, [] => .pure _

theorem checkStatements_accounted (ctx : Context) : ∀ block : Block,
    Preserves Accounted (checkStatements ctx block)
  | ⟨statements, _⟩ => by
    rw [checkStatements]
    refine .bind (declareLabels_accounted _ _ _) fun _ => ?_
    exact .bind (checkEach_accounted _ statements _) fun _ => .pure _

theorem checkEach_accounted (ctx : Context) : ∀ (statements : List Stmt)
    (labels : List (Option StmtLabel)), Preserves Accounted (checkEach ctx statements labels)
  | s :: rest, label :: labels => by
    rw [checkEach]
    refine .bind (checkStmt_accounts ctx s).recorded fun _ => ?_
    exact .bind (checkEach_accounted ctx rest labels) fun _ => .pure _
  | [], _ => .pure _
  | _ :: _, [] => .pure _

theorem checkStmt_accounts (ctx : Context) : ∀ s : Stmt, (checkStmt ctx s).Accounts
  | ⟨id, position, label, form⟩ => by
    rw [checkStmt]
    exact checkForm_accounts ctx id position _ form

theorem checkForm_accounts (ctx : Context) (id : StmtId) (position : Position)
    (label : Option String) : ∀ form : StmtForm, (checkForm ctx id position label form).Accounts
  | .assign lhs rhs op => by
    rw [checkForm]
    refine Preserves.accounts ?_
    split
    · exact .pure _
    · split
      · match lhs, rhs with
        | [target], [value] =>
          refine .rebuild (.conclude (.andThen (infer_accounted ctx target _) fun _ => ?_) ?_)
          · exact .expecting (infer_accounted ctx value _)
          · exact fun _ => .checkOperand _ _ _ _
        | [], _ => exact .pure _
        | _ :: _ :: _, _ => exact .pure _
        | [_], [] => exact .pure _
        | [_], _ :: _ :: _ => exact .pure _
      · split
        · exact .rebuild (assignAll_accounted ctx lhs _ (waitingAll_accounted ctx rhs))
        · match rhs with
          | [] => exact .pure _
          | [value] =>
            refine .rebuild (.andThen (infer_accounted ctx value _) fun type => ?_)
            cases type with
            | tuple members =>
              dsimp only
              split
              · exact expectAll_accounted ctx lhs _
              · exact .pure _
            | _ => exact .pure _
          | _ :: _ :: _ => exact .pure _
  | .struct ⟨name, fields, methods, symbol⟩ => by
    rw [checkForm]
    refine Accounts.rebuild (declareType_accounts ?_ fun _ _ => ?_)
    · exact .structTarget touch_accounted _ _ _ _
    · exact (checkMethods_accounted ctx _ methods _).accounts
  | .typeAlias decl => (checkAlias_accounts ctx decl position).rebuild
  | .var vars => (checkVars_accounts ctx id vars).rebuild
  | .pass => Preserves.accounts (.pure _)
  | .cond branches => by
    rw [checkForm]
    exact Preserves.accounts (.bind (checkBranches_accounted ctx id branches) fun _ => .pure _)
  | .loop ⟨header, condition, step, body⟩ => by
    rw [checkForm]
    refine Preserves.accounts (withScope_accounted ?_)
    refine .bind (checkHeader_accounted ctx id header) fun _ => ?_
    refine .bind (checkCondition_accounted ctx condition) fun _ => ?_
    refine .bind (checkStep_accounted ctx step) fun _ => ?_
    exact .bind (withScope_accounted (checkStatements_accounted _ body)) fun _ => .pure _
  | .expr e => Preserves.accounts (.rebuild (.mapResult (infer_accounted ctx e _)))
  | .jump jump => Preserves.accounts (.pure _)
  | .ret values => by
    rw [checkForm]
    refine Preserves.accounts (.rebuild (.given (.ofExcept _) fun _ => ?_))
    exact expectAll_accounted ctx values _

theorem checkVars_accounts (ctx : Context) (id : StmtId) : ∀ vars : VarForm,
    (checkVars ctx id vars).Accounts
  | ⟨vars, isFunc⟩ => by
    intro s accounted
    rw [checkVars]
    exact noteForm_accountedWith accounted ((checkVarList ctx id isFunc vars).grows s)
      (checkVarList_accountsPassed ctx id isFunc vars s accounted)

theorem checkVarList_accountsPassed (ctx : Context) (id : StmtId) (isFunc : Bool) :
    ∀ vars : List VarDecl, (checkVarList ctx id isFunc vars).AccountsPassed
  | [] => fun _ accounted _ _ => accounted
  | decl :: rest => by
    rw [checkVarList]
    refine AccountsPassed.alongside (Accounts.noted ?_) (checkVarList_accountsPassed ctx id isFunc rest)
    split
    · exact checkFuncVar_accounts ctx id decl
    · exact checkPlainVar_accounts ctx id decl

theorem checkPlainVar_accounts (ctx : Context) (id : StmtId) : ∀ decl : VarDecl,
    (checkPlainVar ctx id decl).Accounts
  | ⟨name, position, spec, value, _⟩ => by
    rw [checkPlainVar]
    refine Accounts.bind (.resolveOr touch_accounted _ _) fun result => ?_
    cases result with
    | error err => exact declareVar_accounts _ _ _ _ _
    | ok declared =>
      refine Accounts.bind (checkInit_accounted ctx name position declared value) fun checked => ?_
      obtain ⟨value, found⟩ := checked
      cases found with
      | ok type => exact declareVar_accounts _ _ _ _ _
      | error err => exact declareVar_accounts _ _ _ _ _

theorem checkInit_accounted (ctx : Context) (name : String) (position : Position)
    (declared : Ty) : ∀ value : Option Expr,
      Preserves Accounted (checkInit ctx name position declared value)
  | none => .pure _
  | some e => .rebuild (.agreeing (infer_accounted ctx e _))

theorem checkFuncVar_accounts (ctx : Context) (id : StmtId) : ∀ decl : VarDecl,
    (checkFuncVar ctx id decl).Accounts
  | ⟨_, _, _, none, _⟩ => Preserves.accounts (.pure _)
  | ⟨name, position, spec, some ⟨valuePosition, form, type⟩, symbol⟩ => by
    cases form with
    | func func =>
      rw [checkFuncVar]
      refine Accounts.bind (.funcType touch_accounted _) fun result => ?_
      cases result with
      | error err => exact declareVar_accounts _ _ _ _ _
      | ok found =>
        refine Preserves.accounts (.bind (.given (declare_accounted _ _ _) fun _ => .pure _) ?_)
        intro checked
        split
        · exact .pure _
        · exact .bind (checkBody_accounted ctx func _ _) fun _ => .pure _
    | _ => exact Preserves.accounts (.pure _)

theorem checkHeader_accounted (ctx : Context) (id : StmtId) : ∀ header : Option VarForm,
    Preserves Accounted (checkHeader ctx id header)
  | none => .pure _
  | some vars => .bind (checkVars_accounts ctx id vars).recorded fun _ => .pure _

theorem checkCondition_accounted (ctx : Context) : ∀ condition : Option Expr,
    Preserves Accounted (checkCondition ctx condition)
  | none => .pure _
  | some e =>
    .bind (Preserves.accounts (.expecting (infer_accounted ctx e _))).recorded fun _ => .pure _

theorem checkStep_accounted (ctx : Context) : ∀ step : Option Stmt,
    Preserves Accounted (checkStep ctx step)
  | none => .pure _
  | some s => .bind (checkStmt_accounts ctx s).recorded fun _ => .pure _

theorem checkBranches_accounted (ctx : Context) (id : StmtId) : ∀ branches : List Branch,
    Preserves Accounted (checkBranches ctx id branches)
  | [] => .pure _
  | ⟨header, condition, body⟩ :: rest => by
    rw [checkBranches]
    refine .bind (withScope_accounted ?_) fun _ => ?_
    · refine .bind (checkHeader_accounted ctx id header) fun _ => ?_
      refine .bind (checkCondition_accounted ctx condition) fun _ => ?_
      exact .bind (withScope_accounted (checkStatements_accounted ctx body)) fun _ => .pure _
    · exact .bind (checkBranches_accounted ctx id rest) fun _ => .pure _

end

end Check

end PackageCheck.Typing
