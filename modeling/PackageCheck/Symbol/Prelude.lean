import PackageCheck.Symbol.Basic

/-! # The prelude

The symbols that every package can see without declaring them: the names of the simple types, and
two functions. Their handles are their places in `Prelude.symbols`. -/

namespace PackageCheck.Prelude

/-- The predeclared functions: `print` takes a string and gives a truth value, `read` takes nothing
    and gives a string. -/
def signatures : List (String × Signature) :=
  [("print", ⟨[.string], [.bool]⟩), ("read", ⟨[], [.string]⟩)]

/-- The predeclared symbols, the simple types before the functions. -/
def symbols : List Symbol :=
  Simple.all.map (fun s => .type { name := s.name, aliased := none }) ++
    signatures.map (fun (name, signature) => .var { name := name, type := .func signature })

/-- The handle of a simple type. -/
def typeId? (name : String) : Option SymbolId :=
  (Simple.all.findIdx? (·.name == name)).map .builtin

/-- The predeclared functions with their handles. -/
def functions : List (String × SymbolId) :=
  signatures.mapIdx fun i (name, _) => (name, .builtin (Simple.all.length + i))

end PackageCheck.Prelude
