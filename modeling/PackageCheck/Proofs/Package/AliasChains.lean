import PackageCheck.Package
import PackageCheck.Proofs.Typing.AliasTargets
import PackageCheck.Proofs.Typing.Outcome
import PackageCheck.Tree.Make

/-! # Chains of aliases in checked packages

A check starts with an empty table, and each of its statements leads from a table in which no
declaration is pending to another one. So what holds of the chains of reached tables holds of the
table of a package, behind each of its statements and at the end. -/

namespace PackageCheck.Package

open Typing SymbolTable

theorem reached_checkTopLevel (file : String) (s : Stmt) {state : Typing.State}
    (reached : state.symbols.Reached none) :
    ((checkTopLevel file s).run state).2.symbols.Reached none :=
  reached_steady.recorded 0 _ (reached_checkStmt _ s) _ reached

theorem reached_checkEach : ∀ {refs : List StmtRef} {files : List SourceFile}
    {before : Typing.State}, before.symbols.Reached none →
      (checkEach files refs before).2.1.symbols.Reached none
  | [], _, _, reached => reached
  | ref :: rest, files, before, reached => by
    rw [checkEach]
    split
    · exact reached_checkEach reached
    · exact reached_checkEach (reached_checkTopLevel _ _ reached)

theorem reached_check (package : Package) : package.check.1.symbols.Reached none := by
  dsimp only [check, run]
  split
  · exact .empty
  · exact reached_checkEach .empty

/-- A check of statements leads from one reached table to another, that of a package begins with the
    empty one, and in each table that is reached, in between as well, the chains of aliases go down to
    older declarations, and so to a root, unless they come to a declaration that names itself. -/
theorem aliases_grounded :
    (∀ ctx s (state : Typing.State), state.symbols.Reached none →
      ((checkStmt ctx s).run state).2.symbols.Reached none) ∧
    (∀ package : Package, package.check.1.symbols.Reached none) ∧
    ∀ (pending : Option SymbolId) (table : SymbolTable), table.Reached pending →
      table.Grounded pending :=
  ⟨reached_checkStmt, reached_check, fun _ _ => Reached.grounded⟩

/-- An alias of itself, an alias of that, and an alias inside of a function. -/
def aliasOfItself : Package :=
  .ofFiles "main" [⟨"m.hv", "main", [
    .typeAlias "A" (.ofName "A"),
    .typeAlias "B" (.ofName "A"),
    .typeAlias "C" (.ofName "int"),
    .func "f" [] [] [.typeAlias "D" (.ofName "C")]]⟩]

theorem aliases_grounded_aliasOfItself :
    ((checkStmt { file := "m.hv" } (.typeAlias "A" (.ofName "A"))).run
      State.bare).2.symbols.Reached none ∧
    aliasOfItself.check.1.symbols.Links (.declared 1) (.declared 0) ∧
    aliasOfItself.check.1.symbols.Loops (.declared 1) ∧
    aliasOfItself.check.1.symbols.isFailed (.declared 1) = true := by
  obtain ⟨statements, packages, grounded⟩ := aliases_grounded
  have first : aliasOfItself.check.1.symbols.Links (.declared 1) (.declared 0) := by
    decide +kernel
  have itself : aliasOfItself.check.1.symbols.Links (.declared 0) (.declared 0) := by
    decide +kernel
  have loops : aliasOfItself.check.1.symbols.Loops (.declared 1) :=
    ⟨_, ⟨1, .link first .refl⟩, itself⟩
  have checked := grounded none _ (packages aliasOfItself)
  exact ⟨statements _ _ State.bare .empty, first, loops, checked.failed rfl _ loops⟩

end PackageCheck.Package
