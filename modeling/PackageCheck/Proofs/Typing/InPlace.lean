import PackageCheck.Proofs.Typing.Stacks

/-! # The checker in place

A checker that goes through a tree with what is around a node on stacks. It pushes the labels of a
block, a loop and the results of a function by hand, goes through the parts and pops them again, and
so it opens and closes scopes. Nothing makes it pop what it has pushed but the text of
`checkStatements`, `checkForm` and `checkBody`.

* `consult`: a rule, which reads the surroundings and does not go into the parts of a node.
* `update`, `restack`: what is done by hand.
* `checkTopLevel`: the check of a statement, by recursion on the tree. -/

namespace PackageCheck.Typing

/-- A checker in the middle of a file. -/
structure Checker where
  file : String
  around : Stacks := {}
  state : State

/-- What a checker does. -/
abbrev Checking (α : Type) := StateM Checker α

namespace Checker

/-! ## Steps -/

/-- Asks a rule, which reads the surroundings at hand. -/
def consult (check : Context → Check α) : Checking α := fun checker =>
  let (a, state) := (check (checker.around.context checker.file)).run checker.state
  (a, { checker with state := state })

/-- The stacks at hand. -/
def surroundings : Checking Stacks :=
  return (← get).around

/-- Changes the stacks. -/
def restack (change : Stacks → Stacks) : Checking Unit :=
  modify fun checker => { checker with around := change checker.around }

/-- Changes what has been found. -/
def update (change : State → State) : Checking Unit :=
  modify fun checker => { checker with state := change checker.state }

/-- Goes through something in a scope of its own. -/
def inScope (action : Checking α) : Checking α := do
  update State.pushScope
  let a ← action
  update State.popScope
  return a

section

variable (checker : Checker)

theorem run_pure (a : α) : (pure a : Checking α).run checker = (a, checker) := rfl

theorem run_bind (action : Checking α) (next : α → Checking β) : (action >>= next).run checker =
    (next (action.run checker).1).run (action.run checker).2 := rfl

theorem run_get : (get : Checking Checker).run checker = (checker, checker) := rfl

theorem run_consult (check : Context → Check α) : (consult check).run checker =
    let found := (check (checker.around.context checker.file)).run checker.state
    (found.1, { checker with state := found.2 }) := rfl

theorem run_restack (change : Stacks → Stacks) : (restack change).run checker =
    ((), { checker with around := change checker.around }) := rfl

theorem run_update (change : State → State) : (update change).run checker =
    ((), { checker with state := change checker.state }) := rfl

end

/-! ## Statements and declarations -/

/-- Goes through a statement and takes its result. -/
def recorded (action : Checking (Checked ν τ)) : Checking ν := do
  let before ← consult fun _ => Typing.state
  consult fun _ => enter
  let (node, result) ← action
  consult fun _ => record result
  consult fun _ => leave before
  return node

/-- Goes through a variable and notes its error. -/
def noted (action : Checking (Checked ν τ)) : Checking (Checked ν τ) := do
  let (node, result) ← action
  consult fun _ => note result
  return (node, result)

/-- Goes on with a node if an attempt succeeds, and leaves the node as it is otherwise. -/
def given (attempt : Context → Attempt α) (node : ν) (next : α → Checking (Checked ν τ)) :
    Checking (Checked ν τ) := do
  match ← consult fun ctx => (attempt ctx).run with
  | .ok a => next a
  | .error err => return (node, .error err)

/-- Declares a type. Its entry is there before the definition is looked at, gets its target behind
    that, and is marked as failed if anything ends in an error. -/
def declareType (name : String) (position : Position) (node : ν)
    (define : Context → Attempt (Ty × α)) (next : SymbolId → α → Checking (Checked ν Unit)) :
    Checking (Checked (Option SymbolId × ν) Unit) := do
  let checker ← get
  let ctx := checker.around.context checker.file
  match checker.state.clash? name with
  | some previous =>
    return ((none, node), .error (redeclaration ctx checker.state name position previous))
  | none =>
    let id := checker.state.symbols.nextId
    update (·.declaring ctx name position)
    match ← consult fun ctx => (define ctx).run with
    | .error err =>
      let failure : Except Diagnostic Unit := .error err
      update (·.markIfFailed id failure)
      return ((some id, node), failure)
    | .ok (target, a) =>
      update (·.setAliased id target)
      let (node, result) ← next id a
      update (·.markIfFailed id result)
      return ((some id, node), result)

/-- Settles what is found for an expression with the expected type. -/
def agreeing (what : String) (site : Context → Expr → Site) (expected : Ty)
    (action : Checking (Checked Expr Ty)) : Checking (Checked Expr Ty) := do
  let (e, found) ← action
  match found with
  | .ok found => consult fun ctx => return settle what (site ctx e) expected e found
  | .error err => return (e, .error err)

/-- Infers the type of an expression and settles it with the expected one. -/
def expecting (expected : Ty) (infer : Ty → Checking (Checked Expr Ty)) :
    Checking (Checked Expr Ty) :=
  agreeing "expression" (fun ctx e => ctx.site e.position) expected (infer expected)

end Checker

/-! ## Nodes -/

namespace Checking

/-- Puts an annotated node together with the rest of a tree. -/
def rebuild (action : Checking (Checked ν τ)) (f : ν → μ) : Checking (Checked μ τ) := do
  let (node, result) ← action
  return (f node, result)

/-- Another view of the result of a node. -/
def mapResult (action : Checking (Checked ν σ)) (f : σ → τ) : Checking (Checked ν τ) := do
  let (node, result) ← action
  return (node, result.map f)

/-- What a rule makes of the result of a node. -/
def conclude (action : Checking (Checked ν σ)) (rule : Context → σ → Attempt τ) :
    Checking (Checked ν τ) := do
  let (node, result) ← action
  let result ← Checker.consult fun ctx => (do rule ctx (← result) : Attempt τ).run
  return (node, result)

/-- A second node, which is gone through if the first one checks. -/
def andThen (action : Checking (Checked ν σ)) (node : μ) (next : σ → Checking (Checked μ τ)) :
    Checking (Checked (ν × μ) τ) := do
  let (first, result) ← action
  let (node, result) ← Checker.given (fun _ => liftM result) node next
  return ((first, node), result)

/-- A second node, which is gone through in any case. The first error is that of both. -/
def alongside (action : Checking (Checked ν σ)) (other : Checking (Checked μ τ)) :
    Checking (Checked (ν × μ) τ) := do
  let (first, result) ← action
  let (second, others) ← other
  return ((first, second), result.bind fun _ => others)

end Checking

namespace Checker

/-- An expression that waits for the type it must have. -/
structure Waiting where
  expr : Expr
  infer : Ty → Checking (Checked Expr Ty)

/-! ## Trees -/

mutual

/-- Infers the type of an expression. -/
def infer : Expr → Ty → Checking (Checked Expr Ty)
  | ⟨position, form, type⟩, hint => do
    let (form, found) ← inferForm position form hint
    match found with
    | .ok found => return (⟨position, form, found⟩, .ok found)
    | .error err => return (⟨position, form, type⟩, .error err)

/-- Infers the type of an expression of a form. -/
def inferForm (position : Position) : ExprForm → Ty → Checking (Checked ExprForm Ty)
  | .literal literal, _ => return (.literal literal, .ok (literalType literal.kind))
  | .blank, _ => return (.blank, .ok .unknown)
  | .compound spec shape elements, hint =>
    given (compoundType · spec hint position) (.compound spec shape elements) fun type =>
      if elements.isEmpty then return (.compound spec .empty elements, .ok type)
      else
        given (layoutOf · type elements position) (.compound spec shape elements) fun layout =>
          ((checkElements elements layout).mapResult fun _ => type).rebuild
            (.compound spec layout.shape)
  | .binary op left right, _ =>
    if op.isLogical then
      (((expecting .bool (infer left)).andThen right fun _ =>
        expecting .bool (infer right)).mapResult fun _ => .bool).rebuild
        fun (left, right) => .binary op left right
    else
      (((infer left .unknown).andThen right fun type =>
        expecting type (infer right)).conclude fun ctx operand =>
          binaryType ctx op operand position).rebuild
        fun (left, right) => .binary op left right
  | .unary op operand, hint =>
    match op with
    | .plus | .minus =>
      ((infer operand hint).conclude fun ctx operand => signType ctx op operand position).rebuild
        (.unary op)
    | .not => (expecting .bool (infer operand)).rebuild (.unary op)
    | .addressOf => ((infer operand (pointeeHint hint)).mapResult .pointer).rebuild (.unary op)
    | .deref =>
      ((infer operand .unknown).conclude fun ctx operand => derefType ctx operand position).rebuild
        (.unary op)
  | .index left index, _ =>
    (((infer left .unknown).conclude fun ctx left => indexTypes ctx left position).andThen index
      fun (indexType, elementType) =>
        (expecting indexType (infer index)).mapResult fun _ => elementType).rebuild
      fun (left, index) => .index left index
  | .selector left field, _ =>
    ((infer left .unknown).conclude fun ctx left => selectorType ctx left field position).rebuild
      (.selector · field)
  | .call callee args, _ =>
    given (conversion? · callee) (.call callee args) fun
      | some (callee, target) =>
        match args with
        | [arg] =>
          ((infer arg target).mapResult fun _ => target).rebuild fun arg => .call callee [arg]
        | args => consult fun ctx =>
          return (.call callee args, .error (.argumentCount 1 args.length (ctx.site position)))
      | none =>
        (((infer callee .unknown).conclude fun ctx callee =>
          callSignature ctx callee args.length position).andThen args fun signature =>
            (expectAll args signature.args).mapResult fun _ => signature.resultType).rebuild
          fun (callee, args) => .call callee args
  | .func func, _ =>
    given (funcType · func) (.func func) fun (receiver, signature) => do
      let func ← checkBody func signature receiver
      return (.func func, .ok (.func signature))
  | .ident ident, _ => (consult (inferIdent · ident position) : Checking _).rebuild .ident
  | .type spec, _ => consult fun ctx =>
    return (.type spec, .error (.invalidOperation (.typeAsValue spec.render) (ctx.site position)))

/-- Goes through expressions with their types, pair by pair, up to the first error. -/
def expectAll : List Expr → List Ty → Checking (Checked (List Expr) Unit)
  | e :: es, type :: types =>
    ((expecting type (infer e)).andThen es fun _ => expectAll es types).rebuild
      fun (e, es) => e :: es
  | es, _ => return (es, .ok ())

/-- Expressions that wait for the types they must have. -/
def waitingAll : List Expr → List Waiting
  | [] => []
  | e :: es => ⟨e, infer e⟩ :: waitingAll es

/-- Goes through targets with the values that are assigned to them, up to the first error. -/
def assignAll : List Expr → List Waiting → Checking (Checked (List Expr × List Expr) Unit)
  | target :: targets, value :: values =>
    (((infer target .unknown).andThen value.expr fun type =>
      expecting type value.infer).andThen (targets, values.map (·.expr)) fun _ =>
        assignAll targets values).rebuild
      fun ((target, value), targets, values) => (target :: targets, value :: values)
  | targets, values => return ((targets, values.map (·.expr)), .ok ())

/-- Goes through the key of an element. -/
def checkKey (layout : Layout) : Option Expr → Checking (Checked (Option Expr) Unit)
  | none => return (none, .ok ())
  | some key =>
    match layout.keyType? with
    | none => return (some (layout.typeKey key), .ok ())
    | some type => ((expecting type (infer key)).mapResult fun _ => ()).rebuild some

/-- Goes through the elements of a composite literal, up to the first error. -/
def checkElements : List Element → Layout → Checking (Checked (List Element) Unit)
  | [], _ => return ([], .ok ())
  | ⟨key, value⟩ :: rest, layout => do
    let (key, result) ← checkKey layout key
    (given (fun ctx => liftM (result.bind fun _ => layout.next ctx key value.position))
      (value, rest) fun (type, layout) =>
        (expecting type (infer value)).andThen rest fun _ => checkElements rest layout).rebuild
      fun (value, rest) => ⟨key, value⟩ :: rest

/-- Goes into the body of a function. The loops and the base outside are put aside, and put back
    when the body is over. -/
def checkBody : Func → Signature → Option Ty → Checking Func
  | ⟨name, receiver, params, results, body⟩, signature, receiverType => do
    let outside ← surroundings
    restack (Stacks.enterBody
      ⟨signature.results, !results.isEmpty && results.all (·.name.isSome)⟩)
    let func ← inScope do
      let receiver ← consult (declareReceiver · receiver receiverType)
      let params ← consult (declareParams · params signature.args)
      let namedResults ← consult (declareParams · results signature.results)
      let body ← checkStatements body
      return ⟨name, receiver, params, namedResults, body⟩
    restack (Stacks.leaveBody outside.loops outside.base)
    return func

/-- Goes into the bodies of the methods of a struct. -/
def checkMethods (this : Ty) : List Func → List Signature → Checking (Checked (List Func) Unit)
  | method :: methods, signature :: signatures =>
    given (receiverType · method.receiver) (method :: methods) fun receiver => do
      let receiver := receiver.map fun type => if type.isUnknown then .pointer this else type
      let method ← checkBody method signature receiver
      let (methods, result) ← checkMethods this methods signatures
      return (method :: methods, result)
  | methods, _ => return (methods, .ok ())

/-- Goes through the statements of a block, with the labels of the block on the stack. -/
def checkStatements : Block → Checking Block
  | ⟨statements, _⟩ => do
    let (labels, annotated) ← consult (declareLabels · .empty statements)
    restack (Stacks.pushBlock labels)
    let statements ← checkEach statements annotated
    restack Stacks.popBlock
    return ⟨statements, labels⟩

/-- Goes through statements one after the other, and gives them their annotated labels. -/
def checkEach : List Stmt → List (Option StmtLabel) → Checking (List Stmt)
  | s :: rest, label :: labels => do
    let s ← recorded (checkStmt s)
    return { s with label := label } :: (← checkEach rest labels)
  | rest, _ => return rest

/-- Goes through a statement. -/
def checkStmt : Stmt → Checking (Checked Stmt Unit)
  | ⟨id, position, label, form⟩ => do
    let (form, result) ← checkForm id position (label.map (·.name)) form
    return (⟨id, position, label, form⟩, result)

/-- Goes through a statement of a form. A loop is on the stack for its body only. -/
def checkForm (id : StmtId) (position : Position) (label : Option String) :
    StmtForm → Checking (Checked StmtForm Unit)
  | .assign lhs rhs op =>
    match lhs.find? (!·.isAssignable) with
    | some e => consult fun ctx =>
      return (.assign lhs rhs op, .error (.invalidOperation .notAssignable (ctx.site e.position)))
    | none =>
    match op.binary? with
    | some binary =>
      match lhs, rhs with
      | [target], [value] =>
        (((infer target .unknown).andThen value fun type =>
          expecting type (infer value)).conclude fun ctx operand =>
            checkOperand ctx binary.render (binary == .add) operand position).rebuild
          fun (target, value) => .assign [target] [value] op
      | lhs, rhs => consult fun ctx =>
        return (.assign lhs rhs op,
          .error (.invalidOperation (.compoundAssignCount binary) (ctx.site position)))
    | none =>
    let mismatch (ctx : Context) : Except Diagnostic Unit :=
      .error (.invalidOperation (.assignCount lhs.length rhs.length) (ctx.site position))
    if lhs.length = rhs.length then
      (assignAll lhs (waitingAll rhs)).rebuild fun (lhs, rhs) => .assign lhs rhs op
    else
    match rhs with
    | [value] =>
      ((infer value .unknown).andThen lhs fun
        | .tuple members =>
          if members.length = lhs.length then expectAll lhs members
          else consult fun ctx => return (lhs, mismatch ctx)
        | _ => consult fun ctx => return (lhs, mismatch ctx)).rebuild
        fun (value, lhs) => .assign lhs [value] op
    | rhs => consult fun ctx => return (.assign lhs rhs op, mismatch ctx)
  | .struct ⟨name, fields, methods, symbol⟩ =>
    (declareType name position methods (structTarget · name position fields methods)
      fun struct signatures => checkMethods (.custom name struct) methods signatures).rebuild
      fun (struct, methods) => .struct ⟨name, fields, methods, struct.or symbol⟩
  | .typeAlias decl => (consult (checkAlias · decl position) : Checking _).rebuild .typeAlias
  | .var vars => (checkVars id vars).rebuild .var
  | .pass => return (.pass, .ok ())
  | .cond branches => do
    return (.cond (← checkBranches id branches), .ok ())
  | .loop ⟨header, condition, step, body⟩ => inScope do
    let header ← checkHeader id header
    let condition ← checkCondition condition
    let step ← checkStep step
    restack (Stacks.pushLoop (id, label))
    let body ← inScope (checkStatements body)
    restack Stacks.popLoop
    return (.loop ⟨header, condition, step, body⟩, .ok ())
  | .expr e => ((infer e .unknown).mapResult fun _ => ()).rebuild .expr
  | .jump jump => consult fun ctx =>
    let (jump, result) := resolveJump ctx jump position
    return (.jump jump, result)
  | .ret values =>
    (given (fun ctx => liftM (returnTypes ctx values.length position)) values fun types =>
      expectAll values types).rebuild .ret

/-- Goes through a form of variables. -/
def checkVars (id : StmtId) : VarForm → Checking (Checked VarForm Unit)
  | ⟨vars, isFunc⟩ => do
    let before ← consult fun _ => Typing.state
    let (vars, result) ← checkVarList id isFunc vars
    consult fun _ => noteForm before.symbols.failed.isEmpty result
    return (⟨vars, isFunc⟩, result)

/-- Goes through the variables of a form one after the other. -/
def checkVarList (id : StmtId) (isFunc : Bool) :
    List VarDecl → Checking (Checked (List VarDecl) Unit)
  | [] => return ([], .ok ())
  | decl :: rest =>
    ((noted (if isFunc then checkFuncVar id decl else checkPlainVar id decl)).alongside
      (checkVarList id isFunc rest)).rebuild fun (decl, rest) => decl :: rest

/-- Goes through a plain variable. -/
def checkPlainVar (id : StmtId) : VarDecl → Checking (Checked VarDecl Unit)
  | ⟨name, position, spec, value, _⟩ => do
    let init := value.map fun _ => id
    match ← consult fun ctx => (resolveOr ctx .unknown spec).run with
    | .error err =>
      consult (declareVar · ⟨name, position, spec, value, none⟩ .unknown init (.error err))
    | .ok declared =>
      let (value, found) ← checkInit name position declared value
      match found with
      | .ok type => consult (declareVar · ⟨name, position, spec, value, none⟩ type init (.ok ()))
      | .error err =>
        consult (declareVar · ⟨name, position, spec, value, none⟩ declared init (.error err))

/-- Goes through the initial value of a variable. -/
def checkInit (name : String) (position : Position) (declared : Ty) :
    Option Expr → Checking (Checked (Option Expr) Ty)
  | none => consult fun ctx =>
    return (none,
      if declared.known then .ok declared
      else .error (.unresolvedInference name (ctx.site position)))
  | some e =>
    (agreeing name (fun ctx _ => ctx.site position) declared (infer e declared)).rebuild some

/-- Goes through a variable that is a named function. -/
def checkFuncVar (id : StmtId) : VarDecl → Checking (Checked VarDecl Unit)
  | ⟨name, position, spec, some ⟨valuePosition, .func func, type⟩, symbol⟩ => do
    let decl : VarDecl := ⟨name, position, spec, some ⟨valuePosition, .func func, type⟩, symbol⟩
    match ← consult fun ctx => (funcType ctx func).run with
    | .error err => consult (declareVar · decl .unknown (some id) (.error err))
    | .ok (receiver, signature) =>
      match ← consult (declareVar · decl (.func signature) (some id) (.ok ())) with
      | (decl, .error err) => return (decl, .error err)
      | (decl, .ok ()) =>
        let func ← checkBody func signature receiver
        let value : Expr := ⟨valuePosition, .func func, .func signature⟩
        return ({ decl with value := some value }, .ok ())
  | decl => consult fun ctx =>
    return (decl, .error (.invalidOperation (.missingBody decl.name) (ctx.site decl.position)))

/-- Goes through the variables in front of a branch or loop. -/
def checkHeader (id : StmtId) : Option VarForm → Checking (Option VarForm)
  | none => return none
  | some vars => return some (← recorded (checkVars id vars))

/-- Goes through a condition. -/
def checkCondition : Option Expr → Checking (Option Expr)
  | none => return none
  | some e => return some (← recorded (expecting .bool (infer e)))

/-- Goes through the statement that a loop repeats behind its body. -/
def checkStep : Option Stmt → Checking (Option Stmt)
  | none => return none
  | some s => return some (← recorded (checkStmt s))

/-- Goes through the branches of a conditional, each in a scope of its own. -/
def checkBranches (id : StmtId) : List Branch → Checking (List Branch)
  | [] => return []
  | ⟨header, condition, body⟩ :: rest => do
    let branch ← inScope do
      let header ← checkHeader id header
      let condition ← checkCondition condition
      let body ← inScope (checkStatements body)
      return ⟨header, condition, body⟩
    return branch :: (← checkBranches id rest)

end

/-- Goes through a statement and takes its result. -/
def checkTopLevel (s : Stmt) : Checking Stmt :=
  recorded (checkStmt s)

end Checker

end PackageCheck.Typing
