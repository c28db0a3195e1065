import PackageCheck.NameMap
import PackageCheck.Symbol.Table

/-! # Scopes

The scopes open at a point of a program, from the innermost to the bottom one, which holds the
predeclared functions and stays open. The simple types are behind all scopes: a name that no scope
holds may still be one of theirs. -/

namespace PackageCheck

/-- The names of one scope. -/
abbrev Scope := NameMap SymbolId

/-- The open scopes. There is always an innermost one. -/
structure ScopeStack where
  inner : Scope
  /-- The scopes around the innermost one, from the inside out. -/
  outer : List Scope

namespace ScopeStack

/-- The bottom scope alone. -/
def bottom : ScopeStack := ⟨NameMap.ofList Prelude.functions, []⟩

instance : Inhabited ScopeStack := ⟨bottom⟩

/-- All scopes, from the inside out. -/
def all (scopes : ScopeStack) : List Scope := scopes.inner :: scopes.outer

/-- How many scopes are open above the bottom one. -/
def depth (scopes : ScopeStack) : Nat := scopes.outer.length

/-- Opens a scope. -/
def push (scopes : ScopeStack) : ScopeStack := ⟨.empty, scopes.all⟩

/-- Closes the innermost scope, unless it is the bottom one. -/
def pop (scopes : ScopeStack) : ScopeStack :=
  match scopes.outer with
  | [] => scopes
  | next :: rest => ⟨next, rest⟩

/-- Gives a name a symbol in the innermost scope, in place of the one it had there. -/
def add (scopes : ScopeStack) (name : String) (id : SymbolId) : ScopeStack :=
  { scopes with inner := scopes.inner.insert name id }

/-! ## Looking names up -/

/-- The symbol of a name in the innermost scope. -/
def findLocal? (scopes : ScopeStack) (name : String) : Option SymbolId :=
  scopes.inner.find? name

/-- The symbol of a name: that of the innermost scope that holds it. -/
def find? (scopes : ScopeStack) (name : String) : Option SymbolId :=
  (scopes.all.findSome? (·.find? name)).or (Prelude.typeId? name)

/-- The type of a name: that of the innermost scope that holds it as a type, whatever else hides
    the name further inside. -/
def findType? (scopes : ScopeStack) (table : SymbolTable) (name : String) : Option SymbolId :=
  let isType (id : SymbolId) : Bool := ((table.get? id).bind (·.type?)).isSome
  (scopes.all.findSome? fun scope => (scope.find? name).filter isType).or (Prelude.typeId? name)

end ScopeStack

end PackageCheck
