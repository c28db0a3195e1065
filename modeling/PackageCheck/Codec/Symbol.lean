import PackageCheck.Codec.Ty
import PackageCheck.Symbol.Basic

/-! # Stored symbols -/

namespace PackageCheck

/-- The stored form of a symbol. -/
def Symbol.toJson : Symbol → Json
  | .var ⟨name, ty, init, site⟩ =>
    .tagged "Variable" (.obj [("name", .str name), ("type", ty.toJson),
      ("init", .ofOption StmtId.toJson init), ("site", .ofOption Site.toJson site)])
  | .type ⟨name, aliased, site⟩ =>
    .tagged "TypeDecl" (.obj [("name", .str name), ("aliased", .ofOption Ty.toJson aliased),
      ("site", .ofOption Site.toJson site)])
  | .label ⟨name, loop, site⟩ =>
    .tagged "Label" (.obj [("name", .str name), ("branchable", .ofOption StmtId.toJson loop),
      ("site", .ofOption Site.toJson site)])
  | .package name => .tagged "Package" (.obj [("name", .str name)])

/-- Reads a symbol. -/
def Symbol.ofJson? (style : Json.CaseStyle) (json : Json) : Option Symbol :=
  match json.choice? with
  | some ("Variable", some body) => do
    let [name, ty, init, site] ← body.record? ["name", "type", "init", "site"] | none
    return .var ⟨← name.required Json.string?, ← ty.required (Ty.ofJson? style),
      ← init.nullable StmtId.ofJson?, ← site.nullable Site.ofJson?⟩
  | some ("TypeDecl", some body) => do
    let [name, aliased, site] ← body.record? ["name", "aliased", "site"] | none
    return .type ⟨← name.required Json.string?, ← aliased.nullable (Ty.ofJson? style),
      ← site.nullable Site.ofJson?⟩
  | some ("Label", some body) => do
    let [name, loop, site] ← body.record? ["name", "branchable", "site"] | none
    return .label ⟨← name.required Json.string?, ← loop.nullable StmtId.ofJson?,
      ← site.nullable Site.ofJson?⟩
  | some ("Package", some body) => do
    let [name] ← body.record? ["name"] | none
    return .package (← name.required Json.string?)
  | _ => none

end PackageCheck
