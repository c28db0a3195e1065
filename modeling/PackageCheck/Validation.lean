import PackageCheck.Diagnostic
import PackageCheck.Symbol.Table
import PackageCheck.Tree.Walk

/-! # Validation

A checked package has nothing left to infer: every expression and every variable has a known type,
and every name is bound. Validation looks for what is left, first in the statements, then among
the declared symbols. -/

namespace PackageCheck

/-- What an event of a walk shows to be left: an expression without a known type, or an unbound
    name. -/
def Event.leftOver? (file : String) : Event → Option Diagnostic
  | .enterExpr e =>
    if e.isBlank || e.type.known then none
    else some (.unresolvedInference "expression" ⟨file, e.position⟩)
  | .useValue ident position =>
    if ident.isBound then none else some (.undefinedSymbol ident.name ⟨file, position⟩)
  | _ => none

/-- What is left in a statement. -/
def Stmt.leftOver (file : String) (s : Stmt) : List Diagnostic :=
  s.walk.filterMap (Event.leftOver? file)

/-- What is left among the declared symbols: variables without a known type, unless their
    declarations failed. -/
def SymbolTable.leftOver (table : SymbolTable) : List Diagnostic :=
  table.entries.filterMap fun (id, symbol) =>
    match symbol with
    | .var var =>
      if table.isFailed id || var.type.known then none
      else some (.unresolvedInference var.name (var.site.getD ⟨"", {}⟩))
    | _ => none

/-- What is left to infer or to bind in statements, each with the name of its file, and in a
    table. -/
def validate (statements : List (String × Stmt)) (table : SymbolTable) : List Diagnostic :=
  statements.flatMap (fun (file, s) => s.leftOver file) ++ table.leftOver

end PackageCheck
