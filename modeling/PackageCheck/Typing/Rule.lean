import PackageCheck.Typing.Resolve

/-! # Rules

The rules of single expressions and statements, as far as they do not go into the parts of a node:
what an operator, an index or a call makes of the types of its operands, and what a jump or a
`return` needs around it. -/

namespace PackageCheck.Typing

/-! ## Agreement -/

/-- Negotiates the type found for an expression with the expected one. The expression takes the
    common type, unless there is no expression. -/
def settle (what : String) (site : Site) (expected : Ty) (e : Expr) (found : Ty) :
    Checked Expr Ty :=
  match expected.negotiate found with
  | .ok type => (if e.isBlank then e else { e with type := type }, .ok type)
  | .error err => (e, .error (.ofTypeError err what site))

/-- Settles what a check finds for an expression with the expected type. -/
def agreeing (what : String) (site : Expr → Site) (expected : Ty)
    (check : Check (Checked Expr Ty)) : Check (Checked Expr Ty) := do
  let (e, found) ← check
  match found with
  | .ok found => return settle what (site e) expected e found
  | .error err => return (e, .error err)

/-- Infers the type of an expression and settles it with the expected one. -/
def expecting (ctx : Context) (expected : Ty) (infer : Ty → Check (Checked Expr Ty)) :
    Check (Checked Expr Ty) :=
  agreeing "expression" (fun e => ctx.site e.position) expected (infer expected)

/-! ## Names and literals -/

/-- The type of a literal. -/
def literalType : LiteralKind → Ty
  | .int => .int
  | .float => .simple .float64
  | .string => .string
  | .char => .simple .rune
  | .bool => .bool

/-- The type of a name, which is bound to the nearest symbol of that name and must be a
    variable. -/
def inferIdent (ctx : Context) (ident : Ident) (position : Position) :
    Check (Checked Ident Ty) := do
  let s ← state
  match s.scopes.find? ident.name with
  | none => return (ident, .error (.undefinedSymbol ident.name (ctx.site position)))
  | some id =>
    touch ident.name id
    return (ident.bind id,
      match s.symbols.get? id with
      | some (.var var) => .ok var.type
      | some (.type decl) =>
        .error (.invalidOperation (.typeAsValue decl.name) (ctx.site position))
      | _ => .error (.invalidOperation (.notAValue ident.name) (ctx.site position)))

/-! ## Operators -/

/-- Whether arithmetic is defined on a type that is not custom. -/
def isArithmetic (allowString : Bool) : Ty → Bool
  | .simple .bool | .simple .error => false
  | .simple .string => allowString
  | .simple _ => true
  | _ => false

/-- Checks that an operator is defined on a type. Only `+` is defined on strings. -/
def checkOperand (ctx : Context) (op : String) (allowString : Bool) (type : Ty)
    (position : Position) : Attempt Unit := do
  if !isArithmetic allowString (← underlying ctx type position) then
    throw (.invalidOperation (.undefinedOperator op type) (ctx.site position))

/-- The type of a comparison or of an arithmetic operation on operands of a common type. -/
def binaryType (ctx : Context) (op : BinaryOp) (operand : Ty) (position : Position) :
    Attempt Ty := do
  if op.isComparison then return .bool
  checkOperand ctx op.render (op == .add) operand position
  return operand

/-- The type of a sign in front of an operand. -/
def signType (ctx : Context) (op : UnaryOp) (operand : Ty) (position : Position) :
    Attempt Ty := do
  checkOperand ctx op.render false operand position
  return operand

/-- The type of what an operand points to. -/
def derefType (ctx : Context) (operand : Ty) (position : Position) : Attempt Ty := do
  match ← underlying ctx operand position with
  | .pointer pointee => return pointee
  | _ => throw (.invalidOperation (.notAPointer operand) (ctx.site position))

/-- The type that an address wants its operand to have. -/
def pointeeHint : Ty → Ty
  | .pointer pointee => pointee
  | _ => .unknown

/-! ## Members -/

/-- The type that an index must have, and the type of the element it gives. -/
def indexTypes (ctx : Context) (left : Ty) (position : Position) : Attempt (Ty × Ty) := do
  match ← underlying ctx left position with
  | .array _ of | .slice of => return (.int, of)
  | .map key value => return (key, value)
  | .simple .string => return (.int, .simple .byte)
  | _ => throw (.invalidOperation (.notIndexable left) (ctx.site position))

/-- The type that has the members of a type, which is asked for at a position. -/
def memberBase (ctx : Context) (left : Ty) (position : Position) : Attempt Ty := do
  match (← state).symbols.memberBase left with
  | .ok base => return base
  | .error err => throw (.ofTypeError err "type" (ctx.site position))

/-- The type of a field or method. A field comes before a method. -/
def memberType? (base : Ty) (member : String) : Option Ty :=
  match base with
  | .struct layout => (layout.field? member).or ((layout.method? member).map .func)
  | _ => none

/-- The type of a field or method of an operand. -/
def selectorType (ctx : Context) (left : Ty) (member : String) (position : Position) :
    Attempt Ty := do
  match memberType? (← memberBase ctx left position) member with
  | some type => return type
  | none => throw (.invalidOperation (.noMember left member) (ctx.site position))

/-! ## Calls -/

/-- The target of a conversion, with the annotated callee. A call is a conversion if its callee
    is a type, or a name whose nearest symbol is a type. -/
def conversion? (ctx : Context) (callee : Expr) : Attempt (Option (Expr × Ty)) := do
  match callee.form with
  | .type spec =>
    let target ← resolve ctx spec
    return some ({ callee with type := target }, target)
  | .ident ident =>
    let s ← state
    match s.scopes.find? ident.name with
    | none => return none
    | some id =>
      touch ident.name id
      match s.symbols.declaredType? id with
      | none => return none
      | some target =>
        return some (⟨callee.position, .ident (ident.bind id), target⟩, target)
  | _ => return none

/-- The signature of a callee that is given `count` arguments. -/
def callSignature (ctx : Context) (callee : Ty) (count : Nat) (position : Position) :
    Attempt Signature := do
  match ← underlying ctx callee position with
  | .func signature =>
    if signature.args.length = count then return signature
    else throw (.argumentCount signature.args.length count (ctx.site position))
  | type => throw (.invalidOperation (.notAFunction type) (ctx.site position))

/-! ## Jumps and returns -/

/-- The loop that a `break` or `continue` refers to: the innermost one, or the innermost one with
    the label. -/
def Context.loop? (ctx : Context) : Option String → Option StmtId
  | none => ctx.loops.head?.map (·.1)
  | some name => (ctx.loops.find? (·.2 == some name)).map (·.1)

/-- Resolves a jump. A `break` or `continue` needs a loop around it, a `goto` needs a label in the
    same function. -/
def resolveJump (ctx : Context) (jump : Jump) (position : Position) :
    Checked Jump Unit :=
  let labelSymbol := jump.label.bind ctx.label?
  let invalid : Diagnostic := .invalidJump jump.kind jump.label (ctx.site position)
  match jump.kind with
  | .goto =>
    match labelSymbol with
    | some id => ({ jump with labelSymbol := some id, target := none }, .ok ())
    | none => (jump, .error invalid)
  | _ =>
    match ctx.loop? jump.label with
    | some target => ({ jump with labelSymbol := labelSymbol, target := some target }, .ok ())
    | none => (jump, .error invalid)

/-- The types that the values of a `return` must have. One value may stand for several results,
    and no value is enough where all results have names. -/
def returnTypes (ctx : Context) (count : Nat) (position : Position) :
    Except Diagnostic (List Ty) :=
  match ctx.frame with
  | none => .error (.invalidOperation .returnOutsideFunction (ctx.site position))
  | some frame =>
    if count = 0 ∧ (frame.types = [] ∨ frame.named) then .ok []
    else if count = 1 ∧ frame.types.length > 1 then .ok [.tuple frame.types]
    else if count = frame.types.length then .ok frame.types
    else
      .error (.invalidOperation (.returnCount frame.types.length count) (ctx.site position))

end PackageCheck.Typing
