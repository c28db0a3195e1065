/-! # Handles

Trees and tables refer to statements and symbols by handles, never by containing them. -/

namespace PackageCheck

/-- The handle of a statement, its number in the package. -/
structure StmtId where
  number : Nat := 0
deriving DecidableEq, Inhabited

/-- The handle of a symbol: a predeclared one, or one declared while a package is checked. -/
inductive SymbolId where
  | builtin (index : Nat)
  | declared (index : Nat)
deriving DecidableEq, Inhabited

end PackageCheck
