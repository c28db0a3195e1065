import PackageCheck.Package
import PackageCheck.Proofs.Typing.Failure

/-! # What an accepted package has failed at

A package that is accepted has no diagnostics. This does not mean that nothing in it has failed:
the error of a form of variables is lost if the form uses one of its own variables behind the
error of that variable. Nothing else gets lost. -/

namespace PackageCheck.Package

open Typing Typing.State

theorem initialState_accounted (package : Package) (fresh : package.symbols.failed = []) :
    package.initialState.Accounted :=
  Or.inr ⟨fresh, rfl, rfl⟩

/-- A statement starts untainted. -/
theorem checkTopLevel_accounted (file : String) (s : Stmt) (state : Typing.State)
    (accounted : state.Accounted) : ((checkTopLevel file s).run state).2.Accounted := by
  have started : State.Accounted { state with tainted := false, uses := [] } :=
    accounted.imp id fun clean => ⟨clean.failed, rfl, clean.failures⟩
  exact (Check.checkStmt_accounts _ s).recorded _ started

theorem checkEach_accounted : ∀ (refs : List StmtRef) (files : List SourceFile)
    (state : Typing.State), state.Accounted → (checkEach files refs state).2.1.Accounted
  | [], _, _, accounted => accounted
  | ref :: rest, files, state, accounted => by
    rw [checkEach]
    split
    · exact checkEach_accounted rest files state accounted
    · exact checkEach_accounted rest _ _ (checkTopLevel_accounted _ _ state accounted)

theorem run_accounted (package : Package) : package.run.state.Accounted := by
  dsimp only [run]
  split
  · exact initialState_accounted _ rfl
  · exact checkEach_accounted _ _ _ (initialState_accounted _ rfl)

/-- A package is accepted only if no statement has reported an error. -/
theorem run_diagnostics_of_accepted {package : Package} (accepted : package.check.2 = []) :
    package.run.state.diagnostics = [] := by
  dsimp only [check, run] at accepted ⊢
  split at accepted
  case h_1 => simp at accepted
  case h_2 =>
    dsimp only [checkOrdered] at accepted ⊢
    split at accepted
    case isTrue empty => exact List.isEmpty_iff.mp empty
    case isFalse full => simp [accepted] at full

/-- An accepted package that has lost no error has failed at nothing. -/
theorem clean_of_accepted {package : Package} (accepted : package.check.2 = [])
    (kept : ∀ failure ∈ package.run.state.failures, failure.lost = false) :
    package.run.state.Clean := by
  rcases package.run_accounted with reported | clean
  · rcases reported with diagnostics | ⟨failure, member, lost⟩
    · exact absurd (run_diagnostics_of_accepted accepted) diagnostics
    · rw [kept failure member] at lost
      cases lost
  · exact clean

/-- In an accepted package nothing has failed, no statement and no declaration at any depth, unless
    a form of variables has lost its error. -/
theorem nothing_failed_iff_nothing_lost (package : Package) (accepted : package.check.2 = []) :
    package.run.state.failures = [] ∧ package.run.state.symbols.failed = [] ↔
      ∀ failure ∈ package.run.state.failures, failure.lost = false := by
  constructor
  · rintro ⟨failures, -⟩ failure member
    rw [failures] at member
    cases member
  · intro kept
    have clean := clean_of_accepted accepted kept
    exact ⟨clean.failures, clean.failed⟩

/-- The package with the form `var a int = "x", b = a`. -/
def formUsingItself : Package :=
  .ofFiles "main" [⟨"m.hv", "main",
    [⟨{}, {}, none, .var ⟨[
      ⟨"a", {}, some (.named "int" {}), some ⟨{}, .literal ⟨.string, "x"⟩, .unknown⟩, none⟩,
      ⟨"b", {}, none, some ⟨{}, .ident { name := "a" }, .unknown⟩, none⟩], false⟩⟩]⟩]

/-- The package is accepted although its form has ended in an error, and a declaration of it is
    marked as failed. -/
theorem formUsingItself_accepted :
    formUsingItself.check.2 = [] ∧ formUsingItself.run.state.failures ≠ [] ∧
      formUsingItself.run.state.symbols.failed ≠ [] := by
  decide

/-- So the error of the form is lost. -/
theorem formUsingItself_lost :
    formUsingItself.check.2 = [] ∧
      ¬ ∀ failure ∈ formUsingItself.run.state.failures, failure.lost = false := by
  refine ⟨by decide, fun kept => ?_⟩
  have accepted : formUsingItself.check.2 = [] := by decide
  have nothing := (nothing_failed_iff_nothing_lost formUsingItself accepted).mpr kept
  have failed : formUsingItself.run.state.failures ≠ [] := by decide
  exact failed nothing.1

end PackageCheck.Package
