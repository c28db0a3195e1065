import PackageCheck.Codec.Leaf
import PackageCheck.Ty.Basic

/-! # Stored types

The stored forms of types. Reading takes the style in which the data of cases may be given, and
recurs on a bound for the nesting, which `Ty.ofJson?` takes from the value itself. -/

namespace PackageCheck

/-! ## Simple types -/

/-- The stored name of a simple type. -/
def Simple.tag : Simple → String
  | .bool => "Bool"
  | .byte => "Byte"
  | .complex128 => "Complex128"
  | .complex64 => "Complex64"
  | .error => "Error"
  | .float32 => "Float32"
  | .float64 => "Float64"
  | .int => "Int"
  | .int16 => "Int16"
  | .int32 => "Int32"
  | .int64 => "Int64"
  | .int8 => "Int8"
  | .rune => "Rune"
  | .string => "String"
  | .uint => "Uint"
  | .uint16 => "Uint16"
  | .uint32 => "Uint32"
  | .uint64 => "Uint64"
  | .uint8 => "Uint8"
  | .uintptr => "Uintptr"

/-- Reads a simple type. -/
def Simple.ofJson? (json : Json) : Option Simple := do
  let tag ← json.bareCase?
  Simple.all.find? (·.tag == tag)

/-! ## Writing -/

/-- The stored name of the outermost form of a type. -/
def Ty.tag : Ty → String
  | .simple _ => "Simple"
  | .array _ _ => "Array"
  | .slice _ => "Slice"
  | .map _ _ => "Map"
  | .pointer _ => "Pointer"
  | .tuple _ => "Tuple"
  | .struct _ => "Struct"
  | .func _ => "Func"
  | .custom _ _ => "Custom"
  | .unknown => "Unknown"

mutual

/-- The stored form of a type. -/
def Ty.toJson : Ty → Json
  | .simple name => .tagged "Simple" (.str name.tag)
  | .array size of => .tagged "Array" (.obj [("size", .nat size.toNat), ("of", of.toJson)])
  | .slice of => .tagged "Slice" of.toJson
  | .map key value => .tagged "Map" (.obj [("key", key.toJson), ("value", value.toJson)])
  | .pointer pointee => .tagged "Pointer" pointee.toJson
  | .tuple members => .tagged "Tuple" (.arr (Ty.toJsonList members))
  | .struct layout => .tagged "Struct" layout.toJson
  | .func signature => .tagged "Func" signature.toJson
  | .custom name decl => .tagged "Custom" (.obj [("name", .str name), ("decl", decl.toJson)])
  | .unknown => .str "Unknown"

/-- The stored form of a struct. -/
def StructTy.toJson : StructTy → Json
  | ⟨name, fields, methods⟩ =>
    .obj [("name", .str name), ("fields", .arr (FieldTy.toJsonList fields)),
      ("methods", .arr (MethodTy.toJsonList methods))]

/-- The stored form of a signature. -/
def Signature.toJson : Signature → Json
  | ⟨args, results⟩ =>
    .obj [("args", .arr (Ty.toJsonList args)), ("results", .arr (Ty.toJsonList results))]

/-- The stored forms of types. -/
def Ty.toJsonList : List Ty → List Json
  | [] => []
  | type :: rest => type.toJson :: Ty.toJsonList rest

/-- The stored forms of fields. -/
def FieldTy.toJsonList : List FieldTy → List Json
  | [] => []
  | ⟨name, type⟩ :: rest =>
    .obj [("name", .str name), ("type", type.toJson)] :: FieldTy.toJsonList rest

/-- The stored forms of methods. -/
def MethodTy.toJsonList : List MethodTy → List Json
  | [] => []
  | ⟨name, signature⟩ :: rest =>
    .obj [("name", .str name), ("signature", signature.toJson)] :: MethodTy.toJsonList rest

end

/-! ## Reading -/

variable (style : Json.CaseStyle)

mutual

/-- Reads a type, with a bound for its nesting. -/
def Ty.read : Nat → Json → Option Ty
  | 0, _ => none
  | n + 1, json =>
    match json.choice? with
    | some ("Simple", some body) => (Simple.ofJson? body).map .simple
    | some ("Array", some body) => do
      let [size, of] ← body.caseData? style ["size", "of"] | none
      return .array (← size.required Json.word64?) (← of.required (Ty.read n))
    | some ("Slice", some body) => (Ty.read n body).map .slice
    | some ("Map", some body) => do
      let [key, value] ← body.caseData? style ["key", "value"] | none
      return .map (← key.required (Ty.read n)) (← value.required (Ty.read n))
    | some ("Pointer", some body) => (Ty.read n body).map .pointer
    | some ("Tuple", some body) => (body.list? (Ty.read n)).map .tuple
    | some ("Struct", some body) => (StructTy.read n body).map .struct
    | some ("Func", some body) => (Signature.read n body).map .func
    | some ("Custom", some body) => do
      let [name, decl] ← body.record? ["name", "decl"] | none
      return .custom (← name.required Json.string?) (← decl.required SymbolId.ofJson?)
    | some ("Unknown", none) | some ("Unknown", some .null) => some .unknown
    | _ => none

/-- Reads a struct. -/
def StructTy.read : Nat → Json → Option StructTy
  | 0, _ => none
  | n + 1, json => do
    let [name, fields, methods] ← json.record? ["name", "fields", "methods"] | none
    return ⟨← name.required Json.string?, ← fields.required (Json.list? (FieldTy.read n)),
      ← methods.required (Json.list? (MethodTy.read n))⟩

/-- Reads a field. -/
def FieldTy.read : Nat → Json → Option FieldTy
  | 0, _ => none
  | n + 1, json => do
    let [name, type] ← json.record? ["name", "type"] | none
    return ⟨← name.required Json.string?, ← type.required (Ty.read n)⟩

/-- Reads a method. -/
def MethodTy.read : Nat → Json → Option MethodTy
  | 0, _ => none
  | n + 1, json => do
    let [name, signature] ← json.record? ["name", "signature"] | none
    return ⟨← name.required Json.string?, ← signature.required (Signature.read n)⟩

/-- Reads a signature. -/
def Signature.read : Nat → Json → Option Signature
  | 0, _ => none
  | n + 1, json => do
    let [args, results] ← json.record? ["args", "results"] | none
    return ⟨← args.required (Json.list? (Ty.read n)), ← results.required (Json.list? (Ty.read n))⟩

end

/-- Reads a type. -/
def Ty.ofJson? (json : Json) : Option Ty :=
  Ty.read style (json.depth + 1) json

end PackageCheck
