import PackageCheck.Handle
import PackageCheck.Ty.Simple

/-! # Types

The types that the checker infers. A type may hold `unknown` in any place: what stands there has
not been inferred yet.

* `Ty.known` says that no part is left to infer.
* `Ty.same` compares types as the language does: names of structs and methods do not count.
* `Ty.render` is the text of a type in messages. -/

namespace PackageCheck

mutual

/-- A type. -/
inductive Ty where
  | simple (name : Simple)
  | array (size : UInt64) (of : Ty)
  | slice (of : Ty)
  | map (key value : Ty)
  | pointer (pointee : Ty)
  | tuple (members : List Ty)
  | struct (layout : StructTy)
  | func (signature : Signature)
  /-- A type with a declaration of its own, which says what its structure is. -/
  | custom (name : String) (decl : SymbolId)
  /-- Not inferred yet. -/
  | unknown

/-- The fields and methods of a struct, in the order of declaration. -/
structure StructTy where
  /-- Shown to the reader only, it does not tell two structs apart. -/
  name : String
  fields : List FieldTy
  methods : List MethodTy

/-- A field of a struct. -/
structure FieldTy where
  name : String
  type : Ty

/-- A method of a struct. -/
structure MethodTy where
  name : String
  signature : Signature

/-- What a function takes and gives. -/
structure Signature where
  args : List Ty
  results : List Ty

end

instance : Inhabited Ty := ⟨.unknown⟩
instance : Inhabited Signature := ⟨⟨[], []⟩⟩
instance : Inhabited StructTy := ⟨⟨"", [], []⟩⟩
instance : Inhabited FieldTy := ⟨⟨"", .unknown⟩⟩
instance : Inhabited MethodTy := ⟨⟨"", ⟨[], []⟩⟩⟩

namespace Ty

/-- The type of integers. -/
abbrev int : Ty := .simple .int

/-- The type of strings. -/
abbrev string : Ty := .simple .string

/-- The type of truth values. -/
abbrev bool : Ty := .simple .bool

/-- Whether the type as a whole is left to infer. -/
def isUnknown : Ty → Bool
  | .unknown => true
  | _ => false

end Ty

/-! ## Nothing left to infer -/

mutual

/-- Whether no part of the type is left to infer. A custom type stands for its declaration, and
    the methods of a struct do not belong to its values. -/
def Ty.known : Ty → Bool
  | .simple _ => true
  | .array _ of => of.known
  | .slice of => of.known
  | .map key value => key.known && value.known
  | .pointer pointee => pointee.known
  | .tuple members => Ty.allKnown members
  | .struct ⟨_, fields, _⟩ => Ty.fieldsKnown fields
  | .func signature => signature.known
  | .custom _ _ => true
  | .unknown => false

/-- Whether no argument and no result is left to infer. -/
def Signature.known : Signature → Bool
  | ⟨args, results⟩ => Ty.allKnown args && Ty.allKnown results

/-- Whether no type of a list is left to infer. -/
def Ty.allKnown : List Ty → Bool
  | [] => true
  | type :: rest => type.known && Ty.allKnown rest

/-- Whether no field is left to infer. -/
def Ty.fieldsKnown : List FieldTy → Bool
  | [] => true
  | ⟨_, type⟩ :: rest => type.known && Ty.fieldsKnown rest

end

/-! ## Sameness -/

mutual

/-- Whether two types are the same. Structs are compared by their fields, custom types by name
    and declaration. -/
def Ty.same : Ty → Ty → Bool
  | .simple s, .simple t => s == t
  | .array m s, .array n t => m == n && s.same t
  | .slice s, .slice t => s.same t
  | .map k v, .map l w => k.same l && v.same w
  | .pointer s, .pointer t => s.same t
  | .tuple ss, .tuple ts => Ty.allSame ss ts
  | .struct ⟨_, fs, _⟩, .struct ⟨_, gs, _⟩ => Ty.fieldsSame fs gs
  | .func s, .func t => s.same t
  | .custom a d, .custom b e => a == b && d == e
  | .unknown, .unknown => true
  | _, _ => false

/-- Whether two signatures take and give the same. -/
def Signature.same : Signature → Signature → Bool
  | ⟨as, rs⟩, ⟨bs, ss⟩ => Ty.allSame as bs && Ty.allSame rs ss

/-- Whether two lists hold the same types in the same order. -/
def Ty.allSame : List Ty → List Ty → Bool
  | [], [] => true
  | s :: ss, t :: ts => s.same t && Ty.allSame ss ts
  | _, _ => false

/-- Whether two lists hold the same fields in the same order. -/
def Ty.fieldsSame : List FieldTy → List FieldTy → Bool
  | [], [] => true
  | ⟨a, s⟩ :: fs, ⟨b, t⟩ :: gs => a == b && s.same t && Ty.fieldsSame fs gs
  | _, _ => false

end

/-! ## Members -/

namespace StructTy

/-- The type of a field. -/
def field? (layout : StructTy) (name : String) : Option Ty :=
  (layout.fields.find? (·.name == name)).map (·.type)

/-- The signature of a method. -/
def method? (layout : StructTy) (name : String) : Option Signature :=
  (layout.methods.find? (·.name == name)).map (·.signature)

end StructTy

/-- The type of a call: the result if there is one, and a tuple of the results otherwise. -/
def Signature.resultType (signature : Signature) : Ty :=
  match signature.results with
  | [result] => result
  | results => .tuple results

/-! ## Rendering -/

mutual

/-- The text of a type. -/
def Ty.render : Ty → String
  | .simple name => name.name
  | .array size of => "[" ++ toString size.toNat ++ "]" ++ of.render
  | .slice of => "[]" ++ of.render
  | .map key value => "map[" ++ key.render ++ "]" ++ value.render
  | .pointer pointee => "*" ++ pointee.render
  | .tuple members => "(" ++ Ty.renderList members ++ ")"
  | .struct ⟨_, fields, _⟩ => "\x7b" ++ Ty.renderFields fields ++ "\x7d"
  | .func signature => signature.render
  | .custom name _ => name
  | .unknown => "_"

/-- The text of a function type. A single result stands without brackets. -/
def Signature.render : Signature → String
  | ⟨args, []⟩ => "func(" ++ Ty.renderList args ++ ")"
  | ⟨args, [result]⟩ => "func(" ++ Ty.renderList args ++ ") " ++ result.render
  | ⟨args, results⟩ => "func(" ++ Ty.renderList args ++ ") (" ++ Ty.renderList results ++ ")"

/-- Types with a comma between any two. -/
def Ty.renderList : List Ty → String
  | [] => ""
  | [type] => type.render
  | type :: rest => type.render ++ ", " ++ Ty.renderList rest

/-- Fields with a comma between any two. -/
def Ty.renderFields : List FieldTy → String
  | [] => ""
  | [⟨name, type⟩] => name ++ ": " ++ type.render
  | ⟨name, type⟩ :: rest => name ++ ": " ++ type.render ++ ", " ++ Ty.renderFields rest

end

end PackageCheck
