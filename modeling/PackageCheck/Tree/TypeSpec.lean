import PackageCheck.Position

/-! # Type specifications

Types as a program writes them. A specification names its types, a `Ty` refers to their
declarations; both are shown to the reader in the same way. -/

namespace PackageCheck

/-- A type as written. -/
inductive TypeSpec where
  | named (name : String) (position : Position)
  | array (size : UInt64) (of : TypeSpec)
  | slice (of : TypeSpec)
  | map (key value : TypeSpec)
  | pointer (pointee : TypeSpec)
  | tuple (members : List TypeSpec)
  | func (args results : List TypeSpec)
  /-- Written `_` and left for inference. -/
  | blank

instance : Inhabited TypeSpec := ⟨.blank⟩

mutual

/-- The text of a type specification. A single result stands without brackets. -/
def TypeSpec.render : TypeSpec → String
  | .named name _ => name
  | .array size of => "[" ++ toString size.toNat ++ "]" ++ of.render
  | .slice of => "[]" ++ of.render
  | .map key value => "map[" ++ key.render ++ "]" ++ value.render
  | .pointer pointee => "*" ++ pointee.render
  | .tuple members => "(" ++ TypeSpec.renderList members ++ ")"
  | .func args [] => "func(" ++ TypeSpec.renderList args ++ ")"
  | .func args [result] => "func(" ++ TypeSpec.renderList args ++ ") " ++ result.render
  | .func args results =>
    "func(" ++ TypeSpec.renderList args ++ ") (" ++ TypeSpec.renderList results ++ ")"
  | .blank => "_"

/-- Specifications with a comma between any two. -/
def TypeSpec.renderList : List TypeSpec → String
  | [] => ""
  | [spec] => spec.render
  | spec :: rest => spec.render ++ ", " ++ TypeSpec.renderList rest

end

end PackageCheck
