import PackageCheck.Typing.Check

/-! # Resolving types

The types that specifications stand for. A name stands for the nearest declared type of that name,
and its use is noted. A blank stands for a type yet to be inferred. -/

namespace PackageCheck.Typing

/-! ## Specifications -/

/-- The type of a name. -/
def resolveName (ctx : Context) (name : String) (position : Position) : Attempt Ty := do
  let s ← state
  match s.scopes.findType? s.symbols name with
  | some id =>
    touch name id
    match s.symbols.declaredType? id with
    | some type => return type
    | none => throw (.notAType name (ctx.site position))
  | none =>
    if (s.scopes.find? name).isSome then throw (.notAType name (ctx.site position))
    else throw (.undefinedSymbol name (ctx.site position))

mutual

/-- The type of a specification. -/
def resolve (ctx : Context) : TypeSpec → Attempt Ty
  | .named name position => resolveName ctx name position
  | .array size of => return .array size (← resolve ctx of)
  | .slice of => return .slice (← resolve ctx of)
  | .map key value => return .map (← resolve ctx key) (← resolve ctx value)
  | .pointer pointee => return .pointer (← resolve ctx pointee)
  | .tuple members => return .tuple (← resolveList ctx members)
  | .func args results => return .func ⟨← resolveList ctx args, ← resolveList ctx results⟩
  | .blank => return .unknown

/-- The types of specifications, one after the other. -/
def resolveList (ctx : Context) : List TypeSpec → Attempt (List Ty)
  | [] => return []
  | spec :: rest => return (← resolve ctx spec) :: (← resolveList ctx rest)

end

/-- The type of a specification, or `absent` without one. -/
def resolveOr (ctx : Context) (absent : Ty) : Option TypeSpec → Attempt Ty
  | some spec => resolve ctx spec
  | none => return absent

/-! ## Functions -/

/-- The type of a receiver, if there is one. -/
def receiverType (ctx : Context) : Option Param → Attempt (Option Ty)
  | none => return none
  | some receiver => return some (← resolve ctx receiver.spec)

/-- The signature of a function. -/
def signature (ctx : Context) (params results : List Param) : Attempt Signature :=
  return ⟨← resolveList ctx (params.map (·.spec)), ← resolveList ctx (results.map (·.spec))⟩

/-- The type of the receiver, and the signature. -/
def funcType (ctx : Context) (func : Func) : Attempt (Option Ty × Signature) :=
  return (← receiverType ctx func.receiver, ← signature ctx func.params func.results)

/-! ## Structs -/

/-- The fields of a struct behind those read before. No two have the same name. -/
def fieldTypes (ctx : Context) (before : List FieldTy) : List FieldDecl → Attempt (List FieldTy)
  | [] => return before
  | field :: rest => do
    if before.any (·.name == field.name) then
      throw (.redeclaration field.name (ctx.site field.position) none)
    let type ← resolve ctx field.spec
    fieldTypes ctx (before ++ [⟨field.name, type⟩]) rest

/-- The methods of a struct behind those read before. No two have the same name, nor the name of
    a field. -/
def methodTypes (ctx : Context) (position : Position) (fields : List FieldTy)
    (before : List MethodTy) : List Func → Attempt (List MethodTy)
  | [] => return before
  | method :: rest => do
    let name := method.name.getD ""
    if fields.any (·.name == name) || before.any (·.name == name) then
      throw (.redeclaration name (ctx.site position) none)
    let type ← signature ctx method.params method.results
    methodTypes ctx position fields (before ++ [⟨name, type⟩]) rest

/-- The type that the declaration of a struct introduces, and the signatures of its methods. -/
def structTarget (ctx : Context) (name : String) (position : Position)
    (fields : List FieldDecl) (methods : List Func) : Attempt (Ty × List Signature) := do
  let fields ← fieldTypes ctx [] fields
  let methods ← methodTypes ctx position fields [] methods
  return (.struct ⟨name, fields, methods⟩, methods.map (·.signature))

/-! ## Aliases -/

/-- The type behind a type, which is asked for at a position. -/
def underlying (ctx : Context) (type : Ty) (position : Position) : Attempt Ty := do
  match (← state).symbols.underlying type with
  | .ok type => return type
  | .error err => throw (.ofTypeError err "type" (ctx.site position))

/-- The target of a declared name. -/
def aliasTarget (ctx : Context) (name : String) (position : Position) (target : TypeSpec) :
    Attempt (Ty × Unit) := do
  let type ← resolve ctx target
  if type.isUnknown then throw (.unresolvedInference name (ctx.site position))
  return (type, ())

/-- Checks that a declared name leads to a type that is not an alias. -/
def aliasRoot (ctx : Context) (id : SymbolId) (name : String) (position : Position) :
    Attempt Unit := do
  match (← state).symbols.rootType name id with
  | .ok _ => return ()
  | .error err => throw (.ofTypeError err name (ctx.site position))

/-- Checks the declaration of a name for a type. The name is declared before its target is
    resolved, so the target can mention it. -/
def checkAlias (ctx : Context) (decl : AliasDecl) (position : Position) :
    Check (Checked AliasDecl Unit) :=
  (declareType ctx decl.name position () (aliasTarget ctx decl.name position decl.target)
    fun id _ => do return ((), ← (aliasRoot ctx id decl.name position).run)).rebuild
    fun (id, _) => { decl with symbol := id.or decl.symbol }

end PackageCheck.Typing
