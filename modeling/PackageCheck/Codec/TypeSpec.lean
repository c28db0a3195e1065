import PackageCheck.Codec.Leaf
import PackageCheck.Tree.TypeSpec

/-! # Stored type specifications

Reading takes the style in which the data of cases may be given. -/

namespace PackageCheck

mutual

/-- The stored form of a type specification. -/
def TypeSpec.toJson : TypeSpec → Json
  | .named name position =>
    .tagged "Named" (.obj [("name", .str name), ("position", position.toJson)])
  | .array size of => .tagged "Array" (.obj [("size", .nat size.toNat), ("of", of.toJson)])
  | .slice of => .tagged "Slice" of.toJson
  | .map key value => .tagged "Map" (.obj [("key", key.toJson), ("value", value.toJson)])
  | .pointer pointee => .tagged "Pointer" pointee.toJson
  | .tuple members => .tagged "Tuple" (.arr (TypeSpec.toJsonList members))
  | .func args results =>
    .tagged "Func" (.obj [("args", .arr (TypeSpec.toJsonList args)),
      ("results", .arr (TypeSpec.toJsonList results))])
  | .blank => .str "Blank"

/-- The stored forms of specifications. -/
def TypeSpec.toJsonList : List TypeSpec → List Json
  | [] => []
  | spec :: rest => spec.toJson :: TypeSpec.toJsonList rest

end

variable (style : Json.CaseStyle)

/-- Reads a type specification, with a bound for its nesting. -/
def TypeSpec.read : Nat → Json → Option TypeSpec
  | 0, _ => none
  | n + 1, json =>
    match json.choice? with
    | some ("Named", some body) => do
      let [name, position] ← body.caseData? style ["name", "position"] | none
      return .named (← name.required Json.string?) (← position.optional {} Position.ofJson?)
    | some ("Array", some body) => do
      let [size, of] ← body.caseData? style ["size", "of"] | none
      return .array (← size.required Json.word64?) (← of.required (TypeSpec.read n))
    | some ("Slice", some body) => (TypeSpec.read n body).map .slice
    | some ("Map", some body) => do
      let [key, value] ← body.caseData? style ["key", "value"] | none
      return .map (← key.required (TypeSpec.read n)) (← value.required (TypeSpec.read n))
    | some ("Pointer", some body) => (TypeSpec.read n body).map .pointer
    | some ("Tuple", some body) => (body.list? (TypeSpec.read n)).map .tuple
    | some ("Func", some body) => do
      let [args, results] ← body.caseData? style ["args", "results"] | none
      return .func (← args.required (Json.list? (TypeSpec.read n)))
        (← results.required (Json.list? (TypeSpec.read n)))
    | some ("Blank", none) | some ("Blank", some .null) => some .blank
    | _ => none

/-- Reads a type specification. -/
def TypeSpec.ofJson? (json : Json) : Option TypeSpec :=
  TypeSpec.read style (json.depth + 1) json

end PackageCheck
