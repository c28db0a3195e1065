import PackageCheck.Proofs.Typing.Preservation

/-! # Steady and stable properties

A property of the state is steady if every declaration keeps it, taken as a whole, and every other
step of a check. It then holds behind any check in front of which it holds, whatever tree is checked.
It is stable if every single step of a declaration keeps it as well.

The property may depend on how many scopes have been opened around the step. What keeps it only
inside of an opened scope is to declare something. So a check that declares nothing in the scope
around it keeps the property everywhere. -/

namespace PackageCheck

/-- Whether a form declares something in the scope around it. -/
def StmtForm.Declares : StmtForm → Prop
  | .var _ | .struct _ | .typeAlias _ => True
  | _ => False

namespace Typing

open Check

/-- Whether the declarations and the other steps of a check keep a property of the state, which is
    given for each number of opened scopes. A statement whose result is taken is one step, since it
    ends with the statement at hand with which it began. A declared type is one with its definition,
    in the course of which the property need not hold. -/
structure Steady (P : Nat → State → Prop) : Prop where
  touch : ∀ n s name id, P n s → P n (s.touch name id)
  note : ∀ {α : Type} n s (result : Except Diagnostic α), P n s → P n (s.note result)
  noteForm : ∀ {α : Type} n s sound (result : Except Diagnostic α),
    P n s → P n (s.noteForm sound result)
  report : ∀ n s err, P n s → P n (s.report err)
  pushScope : ∀ n s, P n s → P (n + 1) s.pushScope
  popScope : ∀ n s, P (n + 1) s → P n s.popScope
  label : ∀ n s label, P n s → P n (s.insertSymbol (.label label))
  var : ∀ n s v (result : Except Diagnostic Unit), P (n + 1) s →
    P (n + 1) ((s.insertNamed (.var v)).markIfFailed s.symbols.nextId result)
  struct : ∀ n ctx name position fields methods
    (next : SymbolId → List Signature → Check (Checked (List Func) Unit)),
    (∀ id signatures, Preserves (P (n + 1)) (next id signatures)) →
      Preserves (P (n + 1)) (declareType ctx name position methods
        (structTarget ctx name position fields methods) next)
  typeAlias : ∀ n ctx decl position, Preserves (P (n + 1)) (checkAlias ctx decl position)
  recorded : ∀ {ν τ : Type} n (check : Check (Checked ν τ)), Preserves (P n) check →
    Preserves (P n) (recorded check)

namespace Steady

variable {P : Nat → State → Prop} (steady : Steady P)

include steady

section Steps

variable {n : Nat}

/-! ## Steps -/

theorem runTouch (name : String) (id : SymbolId) : Preserves (P n) (Typing.touch name id) :=
  .change fun s => steady.touch n s name id

theorem runReport (err : Diagnostic) : Preserves (P n) (Typing.report err) :=
  .change fun s => steady.report n s err

theorem noted {check : Check (Checked ν τ)} (inside : Preserves (P n) check) :
    Preserves (P n) (Typing.noted check) :=
  .bind inside fun checked => .bind (.change fun s => steady.note n s checked.2) fun _ => .pure _

/-- In a scope of its own a check may declare what it likes. -/
theorem withScope {check : Check α} (inside : Preserves (P (n + 1)) check) :
    Preserves (P n) (Typing.withScope check) :=
  fun s holds => steady.popScope n _ (inside _ (steady.pushScope n s holds))

theorem runInsertLabel (label : Label) : Preserves (P n) (Typing.insertSymbol (.label label)) :=
  fun s holds => steady.label n s label holds

theorem declare (ctx : Context) (v : Variable) (position : Position)
    (result : Except Diagnostic Unit) :
    Preserves (P (n + 1)) (Typing.declare ctx (.var v) position result).run := by
  intro s holds
  cases clash : s.clash? v.name with
  | none =>
    rw [run_declare_of_free clash]
    exact steady.var _ _ _ _ holds
  | some previous =>
    rw [run_declare_of_clash clash]
    exact holds

/-! ## Declarations -/

theorem declareParam (ctx : Context) (param : Param) (type : Ty) :
    Preserves (P (n + 1)) (Typing.declareParam ctx param type) := by
  unfold Typing.declareParam
  split
  · exact .pure _
  · exact .given (steady.declare _ _ _ _) fun _ => .pure _

theorem declareVar (ctx : Context) (decl : VarDecl) (type : Ty) (init : Option StmtId)
    (result : Except Diagnostic Unit) :
    Preserves (P (n + 1)) (Typing.declareVar ctx decl type init result) :=
  .given (steady.declare _ _ _ _) fun _ => .pure _

theorem declareLabels (ctx : Context) (labels : NameMap SymbolId) (statements : List Stmt) :
    Preserves (P n) (Typing.declareLabels ctx labels statements) := by
  induction statements generalizing labels with
  | nil => exact .pure _
  | cons s rest hypothesis =>
    rw [Typing.declareLabels]
    split
    · exact .bind (hypothesis labels) fun _ => .pure _
    · refine .bind (steady.runInsertLabel _) fun id => ?_
      split
      · exact .bind (hypothesis _) fun _ => .pure _
      · refine .bind .state fun _ => .bind (steady.runReport _) fun _ => ?_
        exact .bind (hypothesis labels) fun _ => .pure _

theorem declareParams (ctx : Context) (params : List Param) (types : List Ty) :
    Preserves (P (n + 1)) (Typing.declareParams ctx params types) := by
  induction params generalizing types with
  | nil => exact .pure _
  | cons param params hypothesis =>
    cases types with
    | nil => exact .pure _
    | cons type types =>
      refine .bind (steady.recorded _ _ (steady.declareParam ctx param type)) fun _ => ?_
      exact .bind (hypothesis types) fun _ => .pure _

theorem declareReceiver (ctx : Context) (receiver : Option Param) (type : Option Ty) :
    Preserves (P (n + 1)) (Typing.declareReceiver ctx receiver type) := by
  unfold Typing.declareReceiver
  split
  · exact .bind (steady.recorded _ _ (steady.declareParam ctx _ _)) fun _ => .pure _
  · exact .pure _

end Steps

/-! ## Trees -/

set_option linter.unusedSectionVars false

mutual

theorem infer {n : Nat} (ctx : Context) : ∀ (e : Expr) (hint : Ty),
    Preserves (P n) (Typing.infer ctx e hint)
  | ⟨position, form, type⟩, hint => by
    rw [Typing.infer]
    refine .bind (inferForm ctx position form hint) fun checked => ?_
    obtain ⟨form, result⟩ := checked
    cases result with
    | ok found => exact .pure _
    | error err => exact .pure _

theorem inferForm {n : Nat} (ctx : Context) (position : Position) :
    ∀ (form : ExprForm) (hint : Ty), Preserves (P n) (Typing.inferForm ctx position form hint)
  | .literal literal, hint => .pure _
  | .blank, hint => .pure _
  | .compound spec shape elements, hint => by
    rw [Typing.inferForm]
    refine .given (.compoundType steady.runTouch _ _ _) fun type => ?_
    split
    · exact .pure _
    · refine .given (.layoutOf _ _ _) fun layout => ?_
      exact .rebuild (.mapResult (checkElements ctx elements layout))
  | .binary op left right, hint => by
    rw [Typing.inferForm]
    split
    · refine .rebuild (.mapResult (.andThen (.expecting (infer ctx left _)) fun _ => ?_))
      exact .expecting (infer ctx right _)
    · refine .rebuild (.conclude (.andThen (infer ctx left _) fun _ => ?_) fun _ => ?_)
      · exact .expecting (infer ctx right _)
      · exact .binaryType _ _ _
  | .unary op operand, hint => by
    cases op with
    | plus => exact .rebuild (.conclude (infer ctx operand _) fun _ => .signType _ _ _)
    | minus => exact .rebuild (.conclude (infer ctx operand _) fun _ => .signType _ _ _)
    | not => exact .rebuild (.expecting (infer ctx operand _))
    | addressOf => exact .rebuild (.mapResult (infer ctx operand _))
    | deref => exact .rebuild (.conclude (infer ctx operand _) fun _ => .derefType _ _)
  | .index left index, hint => by
    rw [Typing.inferForm]
    refine .rebuild (.andThen (.conclude (infer ctx left _) fun _ => ?_) fun _ => ?_)
    · exact .indexTypes _ _
    · exact .mapResult (.expecting (infer ctx index _))
  | .selector left field, hint => by
    rw [Typing.inferForm]
    exact .rebuild (.conclude (infer ctx left _) fun _ => .selectorType _ _ _)
  | .call callee args, hint => by
    rw [Typing.inferForm]
    refine .given (.conversion? steady.runTouch _) fun target => ?_
    cases target with
    | some target =>
      match args with
      | [] => exact .pure _
      | [arg] => exact .rebuild (.mapResult (infer ctx arg _))
      | _ :: _ :: _ => exact .pure _
    | none =>
      refine .rebuild (.andThen (.conclude (infer ctx callee _) fun _ => ?_) fun _ => ?_)
      · exact .callSignature _ _ _
      · exact .mapResult (expectAll ctx args _)
  | .func func, hint => by
    rw [Typing.inferForm]
    refine .given (.funcType steady.runTouch _) fun _ => ?_
    exact .bind (checkBody ctx func _ _) fun _ => .pure _
  | .ident ident, hint => .rebuild (.inferIdent steady.runTouch _ _)
  | .type spec, hint => .pure _

theorem expectAll {n : Nat} (ctx : Context) : ∀ (es : List Expr) (types : List Ty),
    Preserves (P n) (Typing.expectAll ctx es types)
  | e :: es, type :: types => by
    rw [Typing.expectAll]
    refine .rebuild (.andThen (.expecting (infer ctx e _)) fun _ => ?_)
    exact expectAll ctx es types
  | [], _ => .pure _
  | _ :: _, [] => .pure _

theorem waitingAll {n : Nat} (ctx : Context) : ∀ (es : List Expr),
    ∀ waiting ∈ Typing.waitingAll ctx es, ∀ hint, Preserves (P n) (waiting.infer hint)
  | [] => nofun
  | e :: es => by
    rw [Typing.waitingAll]
    intro waiting member hint
    rcases List.mem_cons.mp member with rfl | member
    · exact infer ctx e hint
    · exact waitingAll ctx es waiting member hint

theorem assignAll {n : Nat} (ctx : Context) : ∀ (targets : List Expr) (values : List Waiting),
    (∀ waiting ∈ values, ∀ hint, Preserves (P n) (waiting.infer hint)) →
      Preserves (P n) (Typing.assignAll ctx targets values)
  | target :: targets, value :: values, waits => by
    rw [Typing.assignAll]
    refine .rebuild (.andThen (.andThen (infer ctx target _) fun _ => ?_) fun _ => ?_)
    · exact .expecting (waits value List.mem_cons_self _)
    · exact assignAll ctx targets values fun waiting member =>
        waits waiting (List.mem_cons_of_mem _ member)
  | [], _, _ => .pure _
  | _ :: _, [], _ => .pure _

theorem checkKey {n : Nat} (ctx : Context) (layout : Layout) : ∀ key : Option Expr,
    Preserves (P n) (Typing.checkKey ctx layout key)
  | none => .pure _
  | some key => by
    rw [Typing.checkKey]
    split
    · exact .pure _
    · exact .rebuild (.mapResult (.expecting (infer ctx key _)))

theorem checkElements {n : Nat} (ctx : Context) : ∀ (elements : List Element) (layout : Layout),
    Preserves (P n) (Typing.checkElements ctx elements layout)
  | [], layout => .pure _
  | ⟨key, value⟩ :: rest, layout => by
    rw [Typing.checkElements]
    refine .bind (checkKey ctx layout key) fun _ => ?_
    refine .rebuild (.given (.ofExcept _) fun _ => ?_)
    refine .andThen (.expecting (infer ctx value _)) fun _ => ?_
    exact checkElements ctx rest _

theorem checkBody {n : Nat} (ctx : Context) : ∀ (func : Func) (signature : Signature)
    (receiver : Option Ty), Preserves (P n) (Typing.checkBody ctx func signature receiver)
  | ⟨name, receiver, params, results, body⟩, signature, receiverType => by
    rw [Typing.checkBody]
    refine steady.withScope (.bind (steady.declareReceiver _ _ _) fun _ => ?_)
    refine .bind (steady.declareParams _ _ _) fun _ => ?_
    refine .bind (steady.declareParams _ _ _) fun _ => ?_
    exact .bind (checkStatements _ body) fun _ => .pure _

theorem checkMethods {n : Nat} (ctx : Context) (this : Ty) : ∀ (methods : List Func)
    (signatures : List Signature), Preserves (P n) (Typing.checkMethods ctx this methods signatures)
  | method :: methods, signature :: signatures => by
    rw [Typing.checkMethods]
    refine .given (.receiverType steady.runTouch _) fun _ => ?_
    refine .bind (checkBody ctx method _ _) fun _ => ?_
    exact .bind (checkMethods ctx this methods signatures) fun _ => .pure _
  | [], _ => .pure _
  | _ :: _, [] => .pure _

theorem checkStatements {n : Nat} (ctx : Context) : ∀ block : Block,
    Preserves (P (n + 1)) (Typing.checkStatements ctx block)
  | ⟨statements, _⟩ => by
    rw [Typing.checkStatements]
    refine .bind (steady.declareLabels _ _ _) fun _ => ?_
    exact .bind (checkEach _ statements _) fun _ => .pure _

theorem checkEach {n : Nat} (ctx : Context) :
    ∀ (statements : List Stmt) (labels : List (Option StmtLabel)),
      Preserves (P (n + 1)) (Typing.checkEach ctx statements labels)
  | s :: rest, label :: labels => by
    rw [Typing.checkEach]
    refine .bind (steady.recorded _ _ (checkStmt ctx s)) fun _ => ?_
    exact .bind (checkEach ctx rest labels) fun _ => .pure _
  | [], _ => .pure _
  | _ :: _, [] => .pure _

theorem checkStmt {n : Nat} (ctx : Context) : ∀ s : Stmt,
    Preserves (P (n + 1)) (Typing.checkStmt ctx s)
  | ⟨id, position, label, form⟩ => by
    rw [Typing.checkStmt]
    exact checkForm ctx id position _ form fun _ => ⟨n, rfl⟩

theorem checkForm {n : Nat} (ctx : Context) (id : StmtId) (position : Position)
    (label : Option String) : ∀ form : StmtForm, (form.Declares → ∃ m, n = m + 1) →
      Preserves (P n) (Typing.checkForm ctx id position label form)
  | .assign lhs rhs op, _ => by
    rw [Typing.checkForm]
    split
    · exact .pure _
    · split
      · match lhs, rhs with
        | [target], [value] =>
          refine .rebuild (.conclude (.andThen (infer ctx target _) fun _ => ?_) ?_)
          · exact .expecting (infer ctx value _)
          · exact fun _ => .checkOperand _ _ _ _
        | [], _ => exact .pure _
        | _ :: _ :: _, _ => exact .pure _
        | [_], [] => exact .pure _
        | [_], _ :: _ :: _ => exact .pure _
      · split
        · exact .rebuild (assignAll ctx lhs _ (waitingAll ctx rhs))
        · match rhs with
          | [] => exact .pure _
          | [value] =>
            refine .rebuild (.andThen (infer ctx value _) fun type => ?_)
            cases type with
            | tuple members =>
              dsimp only
              split
              · exact expectAll ctx lhs _
              · exact .pure _
            | _ => exact .pure _
          | _ :: _ :: _ => exact .pure _
  | .struct ⟨name, fields, methods, symbol⟩, inside => by
    obtain ⟨m, rfl⟩ := inside True.intro
    rw [Typing.checkForm]
    refine .rebuild (steady.struct _ _ _ _ _ _ _ fun _ _ => ?_)
    exact checkMethods ctx _ methods _
  | .typeAlias decl, inside => by
    obtain ⟨m, rfl⟩ := inside True.intro
    exact (steady.typeAlias _ ctx decl position).rebuild
  | .var vars, inside => by
    obtain ⟨m, rfl⟩ := inside True.intro
    exact (checkVars ctx id vars).rebuild
  | .pass, _ => .pure _
  | .cond branches, _ => by
    rw [Typing.checkForm]
    exact .bind (checkBranches ctx id branches) fun _ => .pure _
  | .loop ⟨header, condition, step, body⟩, _ => by
    rw [Typing.checkForm]
    refine steady.withScope ?_
    refine .bind (checkHeader ctx id header) fun _ => ?_
    refine .bind (checkCondition ctx condition) fun _ => ?_
    refine .bind (checkStep ctx step) fun _ => ?_
    exact .bind (steady.withScope (checkStatements _ body)) fun _ => .pure _
  | .expr e, _ => .rebuild (.mapResult (infer ctx e _))
  | .jump jump, _ => .pure _
  | .ret values, _ => by
    rw [Typing.checkForm]
    refine .rebuild (.given (.ofExcept _) fun _ => ?_)
    exact expectAll ctx values _

theorem checkVars {n : Nat} (ctx : Context) (id : StmtId) : ∀ vars : VarForm,
    Preserves (P (n + 1)) (Typing.checkVars ctx id vars)
  | ⟨vars, isFunc⟩ => by
    rw [Typing.checkVars]
    refine .bind .state fun before => .bind (checkVarList ctx id isFunc vars) fun checked => ?_
    exact .bind (.change fun s => steady.noteForm _ s _ checked.2) fun _ => .pure _

theorem checkVarList {n : Nat} (ctx : Context) (id : StmtId) (isFunc : Bool) :
    ∀ vars : List VarDecl, Preserves (P (n + 1)) (Typing.checkVarList ctx id isFunc vars)
  | [] => .pure _
  | decl :: rest => by
    rw [Typing.checkVarList]
    refine .rebuild (.alongside (steady.noted ?_) (checkVarList ctx id isFunc rest))
    split
    · exact checkFuncVar ctx id decl
    · exact checkPlainVar ctx id decl

theorem checkPlainVar {n : Nat} (ctx : Context) (id : StmtId) : ∀ decl : VarDecl,
    Preserves (P (n + 1)) (Typing.checkPlainVar ctx id decl)
  | ⟨name, position, spec, value, _⟩ => by
    rw [Typing.checkPlainVar]
    refine .bind (.resolveOr steady.runTouch _ _) fun result => ?_
    cases result with
    | error err => exact steady.declareVar _ _ _ _ _
    | ok declared =>
      refine .bind (checkInit ctx name position declared value) fun checked => ?_
      obtain ⟨value, found⟩ := checked
      cases found with
      | ok type => exact steady.declareVar _ _ _ _ _
      | error err => exact steady.declareVar _ _ _ _ _

theorem checkInit {n : Nat} (ctx : Context) (name : String) (position : Position) (declared : Ty) :
    ∀ value : Option Expr, Preserves (P n) (Typing.checkInit ctx name position declared value)
  | none => .pure _
  | some e => .rebuild (.agreeing (infer ctx e _))

theorem checkFuncVar {n : Nat} (ctx : Context) (id : StmtId) : ∀ decl : VarDecl,
    Preserves (P (n + 1)) (Typing.checkFuncVar ctx id decl)
  | ⟨_, _, _, none, _⟩ => .pure _
  | ⟨name, position, spec, some ⟨valuePosition, form, type⟩, symbol⟩ => by
    cases form with
    | func func =>
      rw [Typing.checkFuncVar]
      refine .bind (.funcType steady.runTouch _) fun result => ?_
      cases result with
      | error err => exact steady.declareVar _ _ _ _ _
      | ok found =>
        refine .bind (steady.declareVar _ _ _ _ _) fun checked => ?_
        split
        · exact .pure _
        · exact .bind (checkBody ctx func _ _) fun _ => .pure _
    | _ => exact .pure _

theorem checkHeader {n : Nat} (ctx : Context) (id : StmtId) : ∀ header : Option VarForm,
    Preserves (P (n + 1)) (Typing.checkHeader ctx id header)
  | none => .pure _
  | some vars => .bind (steady.recorded _ _ (checkVars ctx id vars)) fun _ => .pure _

theorem checkCondition {n : Nat} (ctx : Context) : ∀ condition : Option Expr,
    Preserves (P n) (Typing.checkCondition ctx condition)
  | none => .pure _
  | some e => .bind (steady.recorded _ _ (.expecting (infer ctx e _))) fun _ => .pure _

theorem checkStep {n : Nat} (ctx : Context) : ∀ step : Option Stmt,
    Preserves (P (n + 1)) (Typing.checkStep ctx step)
  | none => .pure _
  | some s => .bind (steady.recorded _ _ (checkStmt ctx s)) fun _ => .pure _

theorem checkBranches {n : Nat} (ctx : Context) (id : StmtId) : ∀ branches : List Branch,
    Preserves (P n) (Typing.checkBranches ctx id branches)
  | [] => .pure _
  | ⟨header, condition, body⟩ :: rest => by
    rw [Typing.checkBranches]
    refine .bind (steady.withScope ?_) fun _ => ?_
    · refine .bind (checkHeader ctx id header) fun _ => ?_
      refine .bind (checkCondition ctx condition) fun _ => ?_
      exact .bind (steady.withScope (checkStatements ctx body)) fun _ => .pure _
    · exact .bind (checkBranches ctx id rest) fun _ => .pure _

end

end Steady

/-! ## Stable properties -/

/-- Whether every step of a check keeps a property of the state, which is given for each number of
    opened scopes. A statement whose result is taken is one step, since it ends with the statement
    at hand with which it began. -/
structure Stable (P : Nat → State → Prop) : Prop where
  touch : ∀ n s name id, P n s → P n (s.touch name id)
  note : ∀ {α : Type} n s (result : Except Diagnostic α), P n s → P n (s.note result)
  noteForm : ∀ {α : Type} n s sound (result : Except Diagnostic α),
    P n s → P n (s.noteForm sound result)
  report : ∀ n s err, P n s → P n (s.report err)
  pushScope : ∀ n s, P n s → P (n + 1) s.pushScope
  popScope : ∀ n s, P (n + 1) s → P n s.popScope
  insertSymbol : ∀ n s symbol, P n s → P n (s.insertSymbol symbol)
  insertNamed : ∀ n s symbol, P (n + 1) s → P (n + 1) (s.insertNamed symbol)
  setAliased : ∀ n s id target, P n s → P n (s.setAliased id target)
  markIfFailed : ∀ {α : Type} n s id (result : Except Diagnostic α),
    P n s → P n (s.markIfFailed id result)
  recorded : ∀ {ν τ : Type} n (check : Check (Checked ν τ)), Preserves (P n) check →
    Preserves (P n) (recorded check)

namespace Stable

variable {P : Nat → State → Prop} {n : Nat} (stable : Stable P)

include stable

theorem runTouch (name : String) (id : SymbolId) : Preserves (P n) (Typing.touch name id) :=
  .change fun s => stable.touch n s name id

theorem declareType {ctx : Context} {name : String} {position : Position} {node : ν}
    {define : Attempt (Ty × α)} {next : SymbolId → α → Check (Checked ν Unit)}
    (definition : Preserves (P (n + 1)) define.run)
    (rest : ∀ id a, Preserves (P (n + 1)) (next id a)) :
    Preserves (P (n + 1)) (Typing.declareType ctx name position node define next) := by
  intro s holds
  cases clash : s.clash? name with
  | some previous =>
    rw [run_declareType_of_clash clash]
    exact holds
  | none =>
    -- the type is declared before its definition is looked at
    have declared : P (n + 1) (s.declaring ctx name position) := stable.insertNamed _ _ _ holds
    have behind := definition _ declared
    cases defined : (define.run.run (s.declaring ctx name position)).1 with
    | error err =>
      rw [run_declareType_of_error clash defined]
      exact stable.markIfFailed _ _ s.symbols.nextId (.error err : Except Diagnostic Unit) behind
    | ok found =>
      rw [run_declareType_of_ok clash defined]
      apply stable.markIfFailed
      exact rest _ _ _ (stable.setAliased _ _ _ _ behind)

theorem checkAlias (ctx : Context) (decl : AliasDecl) (position : Position) :
    Preserves (P (n + 1)) (Typing.checkAlias ctx decl position) := by
  refine .rebuild (stable.declareType ?_ fun id _ => ?_)
  · exact .aliasTarget stable.runTouch _ _ _
  · exact .bind (.aliasRoot _ _ _) fun _ => .pure _

/-- What every step keeps a whole declaration keeps as well. -/
theorem steady : Steady P where
  touch := stable.touch
  note := stable.note
  noteForm := stable.noteForm
  report := stable.report
  pushScope := stable.pushScope
  popScope := stable.popScope
  label _ _ label holds := stable.insertSymbol _ _ (.label label) holds
  var _ _ v _ holds := stable.markIfFailed _ _ _ _ (stable.insertNamed _ _ (.var v) holds)
  struct _ _ _ _ _ _ _ rest := stable.declareType (.structTarget stable.runTouch _ _ _ _) rest
  typeAlias _ ctx decl position := stable.checkAlias ctx decl position
  recorded := stable.recorded

end Stable

end Typing

end PackageCheck
