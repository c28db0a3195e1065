import PackageCheck.Typing.Layout

/-! # Checking trees

The check of expressions and statements, by recursion on the tree. It binds names, infers types,
declares symbols, resolves labels and jumps, and gives back the annotated tree.

The type that the context wants is passed down as a hint. Only composite literals without a type
of their own need it, and what passes it on to them. -/

namespace PackageCheck.Typing

/-! ## Labels -/

/-- Declares the labels of the statements of a block, since a `goto` can jump forward. Gives back
    the symbols of the labels and the annotated label of each statement; the first statement with
    a name keeps it. -/
def declareLabels (ctx : Context) (labels : NameMap SymbolId) :
    List Stmt → Check (NameMap SymbolId × List (Option StmtLabel))
  | [] => return (labels, [])
  | s :: rest =>
    match s.label with
    | none => do
      let (labels, annotated) ← declareLabels ctx labels rest
      return (labels, none :: annotated)
    | some label => do
      let site := ctx.site s.position
      let id ← insertSymbol (.label ⟨label.name, if s.isLoop then some s.id else none, some site⟩)
      match labels.find? label.name with
      | none =>
        let (labels, annotated) ← declareLabels ctx (labels.insert label.name id) rest
        return (labels, some { label with symbol := some id } :: annotated)
      | some previous =>
        report (redeclaration ctx (← state) label.name s.position previous)
        let (labels, annotated) ← declareLabels ctx labels rest
        return (labels, some label :: annotated)

/-! ## Parameters -/

/-- Declares a receiver, parameter or result, if it has a name. -/
def declareParam (ctx : Context) (param : Param) (type : Ty) : Check (Checked Param Unit) :=
  match param.name with
  | none => return (param, .ok ())
  | some name =>
    let var : Variable := { name := name, type := type, site := some (ctx.site param.position) }
    given (declare ctx (.var var) param.position (.ok ())) param fun id =>
      return ({ param with symbol := some id }, .ok ())

/-- Declares parameters with their types. -/
def declareParams (ctx : Context) : List Param → List Ty → Check (List Param)
  | param :: params, type :: types => do
    let param ← recorded (declareParam ctx param type)
    return param :: (← declareParams ctx params types)
  | params, _ => return params

/-- Declares a receiver with its type. -/
def declareReceiver (ctx : Context) (receiver : Option Param) (type : Option Ty) :
    Check (Option Param) := do
  match receiver, type with
  | some param, some type => return some (← recorded (declareParam ctx param type))
  | receiver, _ => return receiver

/-- The surroundings of the body of a function. Loops and labels outside are out of reach. -/
def Context.ofBody (ctx : Context) (results : List Param) (signature : Signature) : Context :=
  { file := ctx.file
    frame := some ⟨signature.results, !results.isEmpty && results.all (·.name.isSome)⟩ }

/-! ## Variables -/

/-- Declares a variable, also one that did not check, so that its uses are not undefined. -/
def declareVar (ctx : Context) (decl : VarDecl) (type : Ty) (init : Option StmtId)
    (result : Except Diagnostic Unit) : Check (Checked VarDecl Unit) :=
  let var : Variable := ⟨decl.name, type, init, some (ctx.site decl.position)⟩
  given (declare ctx (.var var) decl.position result) decl fun id =>
    return ({ decl with symbol := some id }, result)

/-- An expression that waits for the type it must have. -/
structure Waiting where
  expr : Expr
  infer : Ty → Check (Checked Expr Ty)

/-! ## Expressions and statements -/

mutual

/-- Infers the type of an expression. -/
def infer (ctx : Context) : Expr → Ty → Check (Checked Expr Ty)
  | ⟨position, form, type⟩, hint => do
    let (form, found) ← inferForm ctx position form hint
    match found with
    | .ok found => return (⟨position, form, found⟩, .ok found)
    | .error err => return (⟨position, form, type⟩, .error err)

/-- Infers the type of an expression of a form. -/
def inferForm (ctx : Context) (position : Position) :
    ExprForm → Ty → Check (Checked ExprForm Ty)
  | .literal literal, _ => return (.literal literal, .ok (literalType literal.kind))
  | .blank, _ => return (.blank, .ok .unknown)
  | .compound spec shape elements, hint =>
    given (compoundType ctx spec hint position) (.compound spec shape elements) fun type =>
      if elements.isEmpty then return (.compound spec .empty elements, .ok type)
      else
        given (layoutOf ctx type elements position) (.compound spec shape elements) fun layout =>
          ((checkElements ctx elements layout).mapResult fun _ => type).rebuild
            (.compound spec layout.shape)
  | .binary op left right, _ =>
    if op.isLogical then
      (((expecting ctx .bool (infer ctx left)).andThen right fun _ =>
        expecting ctx .bool (infer ctx right)).mapResult fun _ => .bool).rebuild
        fun (left, right) => .binary op left right
    else
      (((infer ctx left .unknown).andThen right fun type =>
        expecting ctx type (infer ctx right)).conclude fun operand =>
          binaryType ctx op operand position).rebuild
        fun (left, right) => .binary op left right
  | .unary op operand, hint =>
    match op with
    | .plus | .minus =>
      ((infer ctx operand hint).conclude fun operand => signType ctx op operand position).rebuild
        (.unary op)
    | .not => (expecting ctx .bool (infer ctx operand)).rebuild (.unary op)
    | .addressOf => ((infer ctx operand (pointeeHint hint)).mapResult .pointer).rebuild (.unary op)
    | .deref =>
      ((infer ctx operand .unknown).conclude fun operand => derefType ctx operand position).rebuild
        (.unary op)
  | .index left index, _ =>
    (((infer ctx left .unknown).conclude fun left => indexTypes ctx left position).andThen index
      fun (indexType, elementType) =>
        (expecting ctx indexType (infer ctx index)).mapResult fun _ => elementType).rebuild
      fun (left, index) => .index left index
  | .selector left field, _ =>
    ((infer ctx left .unknown).conclude fun left => selectorType ctx left field position).rebuild
      (.selector · field)
  | .call callee args, _ =>
    given (conversion? ctx callee) (.call callee args) fun
      | some (callee, target) =>
        match args with
        | [arg] =>
          ((infer ctx arg target).mapResult fun _ => target).rebuild fun arg => .call callee [arg]
        | args =>
          return (.call callee args, .error (.argumentCount 1 args.length (ctx.site position)))
      | none =>
        (((infer ctx callee .unknown).conclude fun callee =>
          callSignature ctx callee args.length position).andThen args fun signature =>
            (expectAll ctx args signature.args).mapResult fun _ => signature.resultType).rebuild
          fun (callee, args) => .call callee args
  | .func func, _ =>
    given (funcType ctx func) (.func func) fun (receiver, signature) => do
      let func ← checkBody ctx func signature receiver
      return (.func func, .ok (.func signature))
  | .ident ident, _ => (inferIdent ctx ident position).rebuild .ident
  | .type spec, _ =>
    return (.type spec, .error (.invalidOperation (.typeAsValue spec.render) (ctx.site position)))

/-- Checks expressions against types, pair by pair, up to the first error. -/
def expectAll (ctx : Context) : List Expr → List Ty → Check (Checked (List Expr) Unit)
  | e :: es, type :: types =>
    ((expecting ctx type (infer ctx e)).andThen es fun _ => expectAll ctx es types).rebuild
      fun (e, es) => e :: es
  | es, _ => return (es, .ok ())

/-- Expressions that wait for the types they must have. -/
def waitingAll (ctx : Context) : List Expr → List Waiting
  | [] => []
  | e :: es => ⟨e, infer ctx e⟩ :: waitingAll ctx es

/-- Checks values against the types of the targets they are assigned to, pair by pair, up to the
    first error. -/
def assignAll (ctx : Context) :
    List Expr → List Waiting → Check (Checked (List Expr × List Expr) Unit)
  | target :: targets, value :: values =>
    (((infer ctx target .unknown).andThen value.expr fun type =>
      expecting ctx type value.infer).andThen (targets, values.map (·.expr)) fun _ =>
        assignAll ctx targets values).rebuild
      fun ((target, value), targets, values) => (target :: targets, value :: values)
  | targets, values => return ((targets, values.map (·.expr)), .ok ())

/-- Checks the key of an element. -/
def checkKey (ctx : Context) (layout : Layout) :
    Option Expr → Check (Checked (Option Expr) Unit)
  | none => return (none, .ok ())
  | some key =>
    match layout.keyType? with
    | none => return (some (layout.typeKey key), .ok ())
    | some type => ((expecting ctx type (infer ctx key)).mapResult fun _ => ()).rebuild some

/-- Checks the elements of a composite literal, up to the first error. -/
def checkElements (ctx : Context) :
    List Element → Layout → Check (Checked (List Element) Unit)
  | [], _ => return ([], .ok ())
  | ⟨key, value⟩ :: rest, layout => do
    let (key, result) ← checkKey ctx layout key
    let next := result.bind fun _ => layout.next ctx key value.position
    (given (liftM next) (value, rest) fun (type, layout) =>
      (expecting ctx type (infer ctx value)).andThen rest fun _ =>
        checkElements ctx rest layout).rebuild
      fun (value, rest) => ⟨key, value⟩ :: rest

/-- Checks the body of a function, in one scope with the receiver, the parameters and the
    results. -/
def checkBody (ctx : Context) : Func → Signature → Option Ty → Check Func
  | ⟨name, receiver, params, results, body⟩, signature, receiverType => withScope do
    let receiver ← declareReceiver ctx receiver receiverType
    let params ← declareParams ctx params signature.args
    let namedResults ← declareParams ctx results signature.results
    let body ← checkStatements (ctx.ofBody results signature) body
    return ⟨name, receiver, params, namedResults, body⟩

/-- Checks the bodies of the methods of a struct. A receiver without a type is a pointer to the
    struct. -/
def checkMethods (ctx : Context) (this : Ty) :
    List Func → List Signature → Check (Checked (List Func) Unit)
  | method :: methods, signature :: signatures =>
    given (receiverType ctx method.receiver) (method :: methods) fun receiver => do
      let receiver := receiver.map fun type => if type.isUnknown then .pointer this else type
      let method ← checkBody ctx method signature receiver
      let (methods, result) ← checkMethods ctx this methods signatures
      return (method :: methods, result)
  | methods, _ => return (methods, .ok ())

/-- Checks the statements of a block in the scope at hand. -/
def checkStatements (ctx : Context) : Block → Check Block
  | ⟨statements, _⟩ => do
    let (labels, annotated) ← declareLabels ctx .empty statements
    let statements ← checkEach { ctx with labels := labels :: ctx.labels } statements annotated
    return ⟨statements, labels⟩

/-- Checks statements one after the other, and gives them their annotated labels. -/
def checkEach (ctx : Context) : List Stmt → List (Option StmtLabel) → Check (List Stmt)
  | s :: rest, label :: labels => do
    let s ← recorded (checkStmt ctx s)
    return { s with label := label } :: (← checkEach ctx rest labels)
  | rest, _ => return rest

/-- Checks a statement. -/
def checkStmt (ctx : Context) : Stmt → Check (Checked Stmt Unit)
  | ⟨id, position, label, form⟩ => do
    let (form, result) ← checkForm ctx id position (label.map (·.name)) form
    return (⟨id, position, label, form⟩, result)

/-- Checks a statement of a form. -/
def checkForm (ctx : Context) (id : StmtId) (position : Position) (label : Option String) :
    StmtForm → Check (Checked StmtForm Unit)
  | .assign lhs rhs op =>
    match lhs.find? (!·.isAssignable) with
    | some e =>
      return (.assign lhs rhs op, .error (.invalidOperation .notAssignable (ctx.site e.position)))
    | none =>
    match op.binary? with
    | some binary =>
      match lhs, rhs with
      | [target], [value] =>
        (((infer ctx target .unknown).andThen value fun type =>
          expecting ctx type (infer ctx value)).conclude fun operand =>
            checkOperand ctx binary.render (binary == .add) operand position).rebuild
          fun (target, value) => .assign [target] [value] op
      | lhs, rhs =>
        return (.assign lhs rhs op,
          .error (.invalidOperation (.compoundAssignCount binary) (ctx.site position)))
    | none =>
    let mismatch : Except Diagnostic Unit :=
      .error (.invalidOperation (.assignCount lhs.length rhs.length) (ctx.site position))
    if lhs.length = rhs.length then
      (assignAll ctx lhs (waitingAll ctx rhs)).rebuild fun (lhs, rhs) => .assign lhs rhs op
    else
    match rhs with
    | [value] =>
      ((infer ctx value .unknown).andThen lhs fun
        | .tuple members =>
          if members.length = lhs.length then expectAll ctx lhs members
          else return (lhs, mismatch)
        | _ => return (lhs, mismatch)).rebuild fun (value, lhs) => .assign lhs [value] op
    | rhs => return (.assign lhs rhs op, mismatch)
  | .struct ⟨name, fields, methods, symbol⟩ =>
    (declareType ctx name position methods (structTarget ctx name position fields methods)
      fun struct signatures =>
        checkMethods ctx (.custom name struct) methods signatures).rebuild
      fun (struct, methods) => .struct ⟨name, fields, methods, struct.or symbol⟩
  | .typeAlias decl => (checkAlias ctx decl position).rebuild .typeAlias
  | .var vars => (checkVars ctx id vars).rebuild .var
  | .pass => return (.pass, .ok ())
  | .cond branches => do
    return (.cond (← checkBranches ctx id branches), .ok ())
  | .loop ⟨header, condition, step, body⟩ => withScope do
    let header ← checkHeader ctx id header
    let condition ← checkCondition ctx condition
    let step ← checkStep ctx step
    let body ←
      withScope (checkStatements { ctx with loops := (id, label) :: ctx.loops } body)
    return (.loop ⟨header, condition, step, body⟩, .ok ())
  | .expr e => ((infer ctx e .unknown).mapResult fun _ => ()).rebuild .expr
  | .jump jump =>
    let (jump, result) := resolveJump ctx jump position
    return (.jump jump, result)
  | .ret values =>
    (given (liftM (returnTypes ctx values.length position)) values fun types =>
      expectAll ctx values types).rebuild .ret

/-- Checks a form of variables. -/
def checkVars (ctx : Context) (id : StmtId) : VarForm → Check (Checked VarForm Unit)
  | ⟨vars, isFunc⟩ => do
    let sound := (← state).symbols.failed.isEmpty
    let (vars, result) ← checkVarList ctx id isFunc vars
    noteForm sound result
    return (⟨vars, isFunc⟩, result)

/-- Checks the variables of a form one after the other. The first error is the form's. -/
def checkVarList (ctx : Context) (id : StmtId) (isFunc : Bool) :
    List VarDecl → Check (Checked (List VarDecl) Unit)
  | [] => return ([], .ok ())
  | decl :: rest =>
    ((noted (if isFunc then checkFuncVar ctx id decl else checkPlainVar ctx id decl)).alongside
      (checkVarList ctx id isFunc rest)).rebuild fun (decl, rest) => decl :: rest

/-- Checks a plain variable. It cannot see itself in its initial value. -/
def checkPlainVar (ctx : Context) (id : StmtId) : VarDecl → Check (Checked VarDecl Unit)
  | ⟨name, position, spec, value, _⟩ => do
    let init := value.map fun _ => id
    match ← (resolveOr ctx .unknown spec).run with
    | .error err =>
      declareVar ctx ⟨name, position, spec, value, none⟩ .unknown init (.error err)
    | .ok declared =>
      let (value, found) ← checkInit ctx name position declared value
      match found with
      | .ok type => declareVar ctx ⟨name, position, spec, value, none⟩ type init (.ok ())
      | .error err =>
        declareVar ctx ⟨name, position, spec, value, none⟩ declared init (.error err)

/-- Checks the initial value of a variable against its declared type. Without a value the declared
    type must be known. -/
def checkInit (ctx : Context) (name : String) (position : Position) (declared : Ty) :
    Option Expr → Check (Checked (Option Expr) Ty)
  | none =>
    return (none,
      if declared.known then .ok declared
      else .error (.unresolvedInference name (ctx.site position)))
  | some e =>
    (agreeing name (fun _ => ctx.site position) declared (infer ctx e declared)).rebuild some

/-- Checks a variable that is a named function. It is declared before its body is checked, so that
    it can call itself. -/
def checkFuncVar (ctx : Context) (id : StmtId) : VarDecl → Check (Checked VarDecl Unit)
  | ⟨name, position, spec, some ⟨valuePosition, .func func, type⟩, symbol⟩ => do
    let decl : VarDecl := ⟨name, position, spec, some ⟨valuePosition, .func func, type⟩, symbol⟩
    match ← (funcType ctx func).run with
    | .error err => declareVar ctx decl .unknown (some id) (.error err)
    | .ok (receiver, signature) =>
      match ← declareVar ctx decl (.func signature) (some id) (.ok ()) with
      | (decl, .error err) => return (decl, .error err)
      | (decl, .ok ()) =>
        let func ← checkBody ctx func signature receiver
        let value : Expr := ⟨valuePosition, .func func, .func signature⟩
        return ({ decl with value := some value }, .ok ())
  | decl =>
    return (decl, .error (.invalidOperation (.missingBody decl.name) (ctx.site decl.position)))

/-- Checks the variables in front of a branch or loop. -/
def checkHeader (ctx : Context) (id : StmtId) : Option VarForm → Check (Option VarForm)
  | none => return none
  | some vars => return some (← recorded (checkVars ctx id vars))

/-- Checks a condition, which must be a truth value. -/
def checkCondition (ctx : Context) : Option Expr → Check (Option Expr)
  | none => return none
  | some e => return some (← recorded (expecting ctx .bool (infer ctx e)))

/-- Checks the statement that a loop repeats behind its body. -/
def checkStep (ctx : Context) : Option Stmt → Check (Option Stmt)
  | none => return none
  | some s => return some (← recorded (checkStmt ctx s))

/-- Checks the branches of a conditional, each in a scope of its own. -/
def checkBranches (ctx : Context) (id : StmtId) : List Branch → Check (List Branch)
  | [] => return []
  | ⟨header, condition, body⟩ :: rest => do
    let branch ← withScope do
      let header ← checkHeader ctx id header
      let condition ← checkCondition ctx condition
      let body ← withScope (checkStatements ctx body)
      return ⟨header, condition, body⟩
    return branch :: (← checkBranches ctx id rest)

end

theorem waitingAll_exprs (ctx : Context) (es : List Expr) :
    (waitingAll ctx es).map (·.expr) = es := by
  induction es with
  | nil =>
    rw [waitingAll]
    rfl
  | cons e es ih => rw [waitingAll, List.map_cons, ih]

/-! ## Entry points -/

/-- Infers the type of an expression and settles it with the expected one. -/
def expect (ctx : Context) (e : Expr) (expected : Ty) : Check (Checked Expr Ty) :=
  expecting ctx expected (infer ctx e)

/-- Checks a statement at the top of a file. What it uses is noted from its beginning. -/
def checkTopLevel (file : String) (s : Stmt) : StateM State Stmt := fun state =>
  (recorded (checkStmt { file := file } s)).run { state with tainted := false, uses := [] }

end PackageCheck.Typing
