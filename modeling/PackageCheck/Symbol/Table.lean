import PackageCheck.Symbol.Prelude
import PackageCheck.Ty.Negotiation

/-! # Symbol tables

The symbols that a package can refer to: the prelude, which never changes, and the symbols that a
check declares, in the order of their creation. A declaration that did not check is marked as
failed, so that its uses are not reported again.

A custom type is what its declaration says. `SymbolTable.rootType` follows the declarations until
one says something else than another custom type. -/

namespace PackageCheck

/-- The declared symbols, and the handles of the failed declarations. -/
structure SymbolTable where
  declared : Array Symbol := #[]
  failed : List SymbolId := []
deriving Inhabited

namespace SymbolTable

/-- The table that holds nothing but the prelude. -/
def empty : SymbolTable := {}

/-- The symbol of a handle. -/
def get? (table : SymbolTable) : SymbolId → Option Symbol
  | .builtin index => Prelude.symbols[index]?
  | .declared index => table.declared[index]?

/-- The handle of the next symbol to be declared. -/
def nextId (table : SymbolTable) : SymbolId := .declared table.declared.size

/-- Adds a symbol, whose handle is `nextId`. -/
def insert (table : SymbolTable) (symbol : Symbol) : SymbolTable :=
  { table with declared := table.declared.push symbol }

/-- Puts another symbol in the place of a declared one. The prelude is read-only. -/
def set? (table : SymbolTable) (id : SymbolId) (symbol : Symbol) : Option SymbolTable :=
  match id with
  | .builtin _ => none
  | .declared index =>
    if index < table.declared.size then
      some { table with declared := table.declared.setIfInBounds index symbol }
    else none

/-- Gives a declared type its target. Any other symbol stays as it is. -/
def setAliased (table : SymbolTable) (id : SymbolId) (target : Ty) : SymbolTable :=
  match table.get? id with
  | some (.type decl) =>
    (table.set? id (.type { decl with aliased := some target })).getD table
  | _ => table

/-- The declared symbols with their handles, in the order of their creation. -/
def entries (table : SymbolTable) : List (SymbolId × Symbol) :=
  table.declared.toList.mapIdx fun index symbol => (.declared index, symbol)

/-! ## Failed declarations -/

/-- Marks a declaration as failed. -/
def markFailed (table : SymbolTable) (id : SymbolId) : SymbolTable :=
  if id ∈ table.failed then table else { table with failed := id :: table.failed }

/-- Whether a declaration is marked as failed. -/
def isFailed (table : SymbolTable) (id : SymbolId) : Bool :=
  id ∈ table.failed

/-! ## Declared types -/

/-- The type that a declaration introduces: a simple type for the name of one, and otherwise a
    custom type that refers to the declaration. -/
def declaredType? (table : SymbolTable) (id : SymbolId) : Option Ty :=
  match table.get? id with
  | some (.type ⟨name, none, _⟩) => (Simple.ofName? name).map .simple
  | some (.type ⟨name, some _, _⟩) => some (.custom name id)
  | _ => none

/-- One declaration followed: the type it stands for, or the next declaration. -/
def follow (table : SymbolTable) (id : SymbolId) : Except TypeError (Ty ⊕ SymbolId) :=
  match table.get? id with
  | some (.type ⟨_, some (.custom _ next), _⟩) => .ok (.inr next)
  | some (.type ⟨_, some target, _⟩) => .ok (.inl target)
  | some (.type ⟨name, none, _⟩) =>
    match Simple.ofName? name with
    | some simple => .ok (.inl (.simple simple))
    | none => .error .unresolved
  | _ => .error .unresolved

/-- Follows declarations for at most `steps` steps. -/
def followSteps (table : SymbolTable) (name : String) : Nat → SymbolId → Except TypeError Ty
  | 0, _ => .error (.recursiveAlias name)
  | steps + 1, id =>
    match table.follow id with
    | .ok (.inl type) => .ok type
    | .ok (.inr next) => table.followSteps name steps next
    | .error err => .error err

/-- The first type that is not custom, starting from the custom type `name` declared by `decl`.
    Only declared symbols lead on to another declaration, so a chain with more steps than there
    are declared symbols comes back to one of them. -/
def rootType (table : SymbolTable) (name : String) (decl : SymbolId) : Except TypeError Ty :=
  table.followSteps name (table.declared.size + 1) decl

/-- The type behind a custom type, and any other type itself. -/
def underlying (table : SymbolTable) : Ty → Except TypeError Ty
  | .custom name decl => table.rootType name decl
  | type => .ok type

/-- The type that has the members of a type, found through a custom type and one level of
    pointer. -/
def memberBase (table : SymbolTable) (type : Ty) : Except TypeError Ty := do
  match ← table.underlying type with
  | .pointer pointee => table.underlying pointee
  | base => return base

end SymbolTable

end PackageCheck
