import PackageCheck.Text.Decimal
import PackageCheck.Typing.Rule

/-! # Composite literals

The type of a composite literal says how its elements are laid out: which type a key must have,
and which type the value behind it. A layout is the state of a walk over the elements, because the
place of an element in an array or a struct depends on those before it. -/

namespace PackageCheck.Typing

/-- What the remaining elements of a composite literal must look like. -/
inductive Layout where
  /-- The elements of an array of a size, the next one at an index. -/
  | array (size : UInt64) (of : Ty) (index : Nat)
  | slice (of : Ty)
  | map (key value : Ty)
  /-- The values of a struct in the order of its fields, as far as they are still to come. -/
  | positional (fields : List FieldTy)
  /-- The values of a struct behind the names of their fields. -/
  | keyed (layout : StructTy)

/-! ## Keys -/

/-- The number written by decimal digits, with or without a `+` in front, if it is a 64-bit
    number. -/
def parseIndex? (cs : List Char) : Option Nat :=
  let digits := match cs with
    | '+' :: rest => rest
    | cs => cs
  if Text.isNumeral digits && Text.ofDigits digits < UInt64.size then some (Text.ofDigits digits)
  else none

/-- The number that a key denotes, if it is an integer literal. -/
def constantIndex? (key : Expr) : Option Nat :=
  match key.form with
  | .literal ⟨.int, text⟩ => parseIndex? text.toList
  | _ => none

namespace Layout

/-- The shape of a literal with this layout. -/
def shape : Layout → CompoundShape
  | .array _ _ _ | .slice _ | .positional _ => .listLike
  | .map _ _ | .keyed _ => .mapLike

/-- The type that a key must have. The keys of a struct have none, they are names of fields. -/
def keyType? : Layout → Option Ty
  | .array _ _ _ | .slice _ => some .int
  | .map key _ => some key
  | .positional _ | .keyed _ => none

/-- The name of a field as a key takes the type of the field. -/
def typeKey (layout : Layout) (key : Expr) : Expr :=
  match layout with
  | .keyed fields =>
    match key.ident?.bind fun ident => fields.field? ident.name with
    | some type => { key with type := type }
    | none => key
  | _ => key

/-- The type that the value of the next element must have, and the layout of the elements behind
    it. A numeric key of an array moves to its index. -/
def next (ctx : Context) (layout : Layout) (key : Option Expr) (value : Position) :
    Except Diagnostic (Ty × Layout) :=
  match layout with
  | .array size of index =>
    let index := (key.bind constantIndex?).getD index
    if index < size.toNat then .ok (of, .array size of (index + 1))
    else .error (.invalidOperation (.indexOutOfBounds index size) (ctx.site value))
  | .slice of => .ok (of, .slice of)
  | .map keyType valueType =>
    match key with
    | some _ => .ok (valueType, .map keyType valueType)
    | none => .error (.invalidOperation .missingKey (ctx.site value))
  | .positional [] => .error (.invalidOperation (.structValueCount 0 1) (ctx.site value))
  | .positional (field :: rest) => .ok (field.type, .positional rest)
  | .keyed fields =>
    match key with
    | none => .error (.invalidOperation .mixedElements (ctx.site value))
    | some key =>
      match key.ident? with
      | none => .error (.invalidOperation .invalidFieldName (ctx.site key.position))
      | some ident =>
        match fields.field? ident.name with
        | none => .error (.invalidOperation (.unknownField ident.name) (ctx.site key.position))
        | some type => .ok (type, .keyed fields)

end Layout

/-! ## From types to layouts -/

/-- The layout of a struct literal. Either all elements have a key, or none has and there is one
    for each field. -/
def structLayout (ctx : Context) (layout : StructTy) (elements : List Element)
    (position : Position) : Except Diagnostic Layout :=
  let keyed := (elements.filter (·.key.isSome)).length
  if keyed = 0 then
    if elements.length = layout.fields.length then .ok (.positional layout.fields)
    else
      .error (.invalidOperation (.structValueCount layout.fields.length elements.length)
        (ctx.site position))
  else if keyed = elements.length then .ok (.keyed layout)
  else .error (.invalidOperation .mixedElements (ctx.site position))

/-- The layout of the elements of a literal. -/
def layoutOf (ctx : Context) (type : Ty) (elements : List Element) (position : Position) :
    Attempt Layout := do
  match ← underlying ctx type position with
  | .array size of => return .array size of 0
  | .slice of => return .slice of
  | .map key value => return .map key value
  | .struct layout => structLayout ctx layout elements position
  | _ => throw (.invalidOperation (.notAComposite type) (ctx.site position))

/-- The type of a composite literal: its own one, or else the one that the context wants. It must
    be known. -/
def compoundType (ctx : Context) (spec : Option TypeSpec) (hint : Ty) (position : Position) :
    Attempt Ty := do
  let type ← resolveOr ctx hint spec
  if type.known then return type
  else throw (.unresolvedInference "composite literal" (ctx.site position))

end PackageCheck.Typing
