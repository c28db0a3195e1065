import PackageCheck.Json.Decoder
import PackageCheck.NameMap
import PackageCheck.Position
import PackageCheck.Handle

/-! # Stored positions and handles

The stored forms of what has no parts of its own kind: positions, sites, handles, and maps from
names. -/

namespace PackageCheck

/-! ## Positions -/

/-- The stored form of a position. -/
def Position.toJson (p : Position) : Json :=
  .obj [("line", .nat p.line.toNat), ("character", .nat p.character.toNat)]

/-- Reads a position. -/
def Position.ofJson? (json : Json) : Option Position := do
  let [line, character] ← json.record? ["line", "character"] | none
  return ⟨← line.required Json.word32?, ← character.required Json.word32?⟩

/-- The stored form of a site. -/
def Site.toJson (s : Site) : Json :=
  .obj [("file", .str s.file), ("position", s.position.toJson)]

/-- Reads a site. -/
def Site.ofJson? (json : Json) : Option Site := do
  let [file, position] ← json.record? ["file", "position"] | none
  return ⟨← file.required Json.string?, ← position.required Position.ofJson?⟩

/-! ## Handles -/

/-- The stored form of the handle of a statement. -/
def StmtId.toJson (id : StmtId) : Json := .nat id.number

/-- Reads the handle of a statement, a 32-bit number. -/
def StmtId.ofJson? (json : Json) : Option StmtId :=
  (json.below? UInt32.size).map StmtId.mk

/-- The stored form of the handle of a symbol. -/
def SymbolId.toJson : SymbolId → Json
  | .builtin index => .tagged "Builtin" (.nat index)
  | .declared index => .tagged "Local" (.nat index)

/-- Reads the handle of a symbol, which holds a 64-bit number. -/
def SymbolId.ofJson? (json : Json) : Option SymbolId :=
  match json.choice? with
  | some ("Builtin", some index) => (index.below? UInt64.size).map .builtin
  | some ("Local", some index) => (index.below? UInt64.size).map .declared
  | _ => none

/-! ## Maps -/

/-- The stored form of a map from names, in the order of the names. -/
def NameMap.toJson (encode : α → Json) (m : NameMap α) : Json :=
  .obj (m.entries.map fun (name, value) => (name, encode value))

/-- Reads a map from names. Of several entries of a name the last one counts. -/
def NameMap.ofJson? (decode : Json → Option α) : Json → Option (NameMap α)
  | .obj entries => do
    return .ofList (← entries.mapM fun (name, value) => return (name, ← decode value))
  | _ => none

end PackageCheck
