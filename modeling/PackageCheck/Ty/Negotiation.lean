import PackageCheck.Ty.Basic

/-! # Negotiation

Two types found at one point of a program are reconciled into the one type that both must have.
Where one of them is unknown the other decides. Two unknowns leave the question open, and any
other difference is a clash.

`Ty.merge` walks the two types side by side and stops at the first obstacle. `Ty.negotiate` reports
a clash as one of the whole types, since the parts alone would not tell the reader much. -/

namespace PackageCheck

/-- What stands in the way of a common type. -/
inductive Conflict where
  /-- The types differ. -/
  | clash
  /-- Both types are unknown. -/
  | undetermined
deriving DecidableEq

/-- Why types do not give the type asked for. -/
inductive TypeError where
  | mismatch (expected found : Ty)
  | unresolved
  /-- The declaration of a custom type leads back to itself. -/
  | recursiveAlias (name : String)

/-- The text of a type error. -/
def TypeError.message : TypeError → String
  | .mismatch expected found =>
    "mismatched types: expected `" ++ expected.render ++ "`, found `" ++ found.render ++ "`"
  | .unresolved => "type cannot be inferred"
  | .recursiveAlias name => "invalid recursive type `" ++ name ++ "`"

mutual

/-- The common type of two types. Custom types agree by declaration, structs need the same field
    names in the same order, and the first struct's name and methods are kept. -/
def Ty.merge : Ty → Ty → Except Conflict Ty
  | .unknown, .unknown => .error .undetermined
  | .unknown, found => .ok found
  | expected, .unknown => .ok expected
  | .simple s, .simple t => if s = t then .ok (.simple s) else .error .clash
  | .custom name d, .custom _ e => if d = e then .ok (.custom name d) else .error .clash
  | .array m s, .array n t => if m = n then (s.merge t).map (.array m) else .error .clash
  | .slice s, .slice t => (s.merge t).map .slice
  | .pointer s, .pointer t => (s.merge t).map .pointer
  | .map k v, .map l w => do return .map (← k.merge l) (← v.merge w)
  | .tuple ss, .tuple ts =>
    if ss.length = ts.length then (Ty.mergeAll ss ts).map .tuple else .error .clash
  | .func ⟨as, rs⟩, .func ⟨bs, ss⟩ =>
    if as.length = bs.length ∧ rs.length = ss.length then do
      return .func ⟨← Ty.mergeAll as bs, ← Ty.mergeAll rs ss⟩
    else .error .clash
  | .struct ⟨name, fs, methods⟩, .struct ⟨_, gs, _⟩ =>
    if fs.map (·.name) = gs.map (·.name) then do
      return .struct ⟨name, ← Ty.mergeFields fs gs, methods⟩
    else .error .clash
  | _, _ => .error .clash

/-- The common types of two lists, pair by pair. -/
def Ty.mergeAll : List Ty → List Ty → Except Conflict (List Ty)
  | s :: ss, t :: ts => do return (← s.merge t) :: (← Ty.mergeAll ss ts)
  | _, _ => .ok []

/-- The fields of two lists, with common types pair by pair. -/
def Ty.mergeFields : List FieldTy → List FieldTy → Except Conflict (List FieldTy)
  | ⟨name, s⟩ :: fs, ⟨_, t⟩ :: gs => do return ⟨name, ← s.merge t⟩ :: (← Ty.mergeFields fs gs)
  | _, _ => .ok []

end

/-- The one type that both an expected and a found type must have. -/
def Ty.negotiate (expected found : Ty) : Except TypeError Ty :=
  match expected.merge found with
  | .ok type => .ok type
  | .error .clash => .error (.mismatch expected found)
  | .error .undetermined => .error .unresolved

end PackageCheck
