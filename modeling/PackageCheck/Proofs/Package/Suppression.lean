import PackageCheck.Package
import PackageCheck.Proofs.Typing.Suppression

/-! # Errors that are dropped in a package

The error of a statement is dropped exactly if the statement has used a declaration that had failed
before it began, unless a statement begins inside of a tainted one. -/

namespace PackageCheck.Package

open Typing

/-! ## Runs -/

theorem initialState_tracked (package : Package) : package.initialState.Tracked :=
  ⟨rfl, List.nil_suffix, True.intro, nofun⟩

/-- Between the statements at the top nothing is tainted. -/
theorem checkTopLevel_tracked (file : String) (s : Stmt) {before : Typing.State}
    (tracked : before.Tracked) (untainted : before.tainted = false) :
    ((checkTopLevel file s).run before).2.Tracked ∧
      ((checkTopLevel file s).run before).2.tainted = false := by
  have started : State.Tracked { before with tainted := false, uses := [] } :=
    tracked.unmarked rfl rfl rfl untainted.symm rfl
  have inside := checkStmt_tracked { file := file } s
  exact ⟨started.recorded inside, State.Tracked.untainted_record _ _⟩

theorem checkEach_tracked {refs : List StmtRef} {files : List SourceFile} {before : Typing.State}
    (tracked : before.Tracked) (untainted : before.tainted = false) :
    (checkEach files refs before).2.1.Tracked := by
  induction refs generalizing files before with
  | nil => exact tracked
  | cons ref rest hypothesis =>
    rw [checkEach]
    split
    · exact hypothesis tracked untainted
    · rename_i file s _
      have behind := checkTopLevel_tracked file s tracked untainted
      exact hypothesis behind.1 behind.2

theorem run_tracked (package : Package) : package.run.state.Tracked := by
  dsimp only [run]
  split
  · exact initialState_tracked _
  · exact checkEach_tracked (initialState_tracked _) rfl

/-- What the check of a package comes to begins with what its statements have reported. -/
theorem diagnostics_prefix_check (package : Package) :
    package.run.state.diagnostics <+: package.check.2 := by
  dsimp only [check, run]
  split
  · exact List.prefix_append _ _
  · dsimp only [checkOrdered]
    split
    case isTrue empty => exact List.isEmpty_iff.mp empty ▸ List.nil_prefix
    case isFalse => exact List.prefix_refl _

/-! ## Verdicts -/

/-- Where taints and nesting do not meet, an error is dropped exactly if its statement has used a
    declaration that had failed before. Otherwise it is reported. Every statement that ends in an
    error has its verdict, in whatever state and surroundings it is checked, and no verdict is taken
    back. -/
theorem dropped_iff_usesFailed (package : Package) :
    (∀ verdict ∈ package.run.state.verdicts, verdict.task.Undisturbed →
      (verdict.Dropped ↔ verdict.task.UsesFailed) ∧
        (verdict.Reported ↔ ¬ verdict.task.UsesFailed) ∧ verdict.after <+: package.check.2) ∧
    ∀ (ctx : Context) (statement : Stmt) (s : Typing.State),
      let behind := ((recorded (checkStmt ctx statement)).run s).2
      s.verdicts <+: behind.verdicts ∧
        ∀ err, ((checkStmt ctx statement).run s.enter).1.2 = .error err →
          ∃ verdict ∈ behind.verdicts, verdict.error = err ∧
            verdict.task.tainted = s.tainted ∧ verdict.task.failed = s.symbols.failed := by
  constructor
  · intro verdict given undisturbed
    have ⟨fair, reported⟩ := package.run_tracked.verdicts verdict given
    have taints := Task.taints_iff_usesFailed fair.faithful undisturbed
    refine ⟨?_, ?_, ?_⟩
    · rw [fair.dropped_iff, taints]
    · rw [fair.reported_iff, taints]
    · exact reported.trans package.diagnostics_prefix_check
  · intro ctx statement s behind
    exact ⟨verdicts_prefix_recorded ctx statement s,
      fun err ended => exists_verdict_of_error ctx statement s ended⟩

/-- The package with `var a int = "x"` and the assignment `a = "y"`. -/
def usedAfterFailure : Package :=
  .ofFiles "main" [⟨"m.hv", "main", [
    ⟨{}, {}, none, .var ⟨[
      ⟨"a", {}, some (.named "int" {}), some ⟨{}, .literal ⟨.string, "x"⟩, .unknown⟩, none⟩],
      false⟩⟩,
    ⟨{}, {}, none, .assign [⟨{}, .ident { name := "a" }, .unknown⟩]
      [⟨{}, .literal ⟨.string, "y"⟩, .unknown⟩] .assign⟩]⟩]

/-- The error of the declaration is reported, that of the assignment is dropped. -/
theorem usedAfterFailure_exact :
    (∃ verdict ∈ usedAfterFailure.run.state.verdicts,
      verdict.task.Undisturbed ∧ verdict.Reported) ∧
    ∃ verdict ∈ usedAfterFailure.run.state.verdicts,
      verdict.task.Undisturbed ∧ verdict.Dropped := by
  have first : ∃ verdict ∈ usedAfterFailure.run.state.verdicts,
      verdict.task.Undisturbed ∧ ¬ verdict.task.UsesFailed := by decide +kernel
  have second : ∃ verdict ∈ usedAfterFailure.run.state.verdicts,
      verdict.task.Undisturbed ∧ verdict.task.UsesFailed := by decide +kernel
  constructor
  · obtain ⟨verdict, given, undisturbed, unused⟩ := first
    have settled := (dropped_iff_usesFailed usedAfterFailure).1 verdict given undisturbed
    exact ⟨verdict, given, undisturbed, settled.2.1.mpr unused⟩
  · obtain ⟨verdict, given, undisturbed, used⟩ := second
    have settled := (dropped_iff_usesFailed usedAfterFailure).1 verdict given undisturbed
    exact ⟨verdict, given, undisturbed, settled.1.mpr used⟩

/-- The package with `var a int = "x"` and the assignment `a = func() { return 1 }`. -/
def assignedAfterFailure : Package :=
  .ofFiles "main" [⟨"m.hv", "main", [
    ⟨{}, {}, none, .var ⟨[
      ⟨"a", {}, some (.named "int" {}), some ⟨{}, .literal ⟨.string, "x"⟩, .unknown⟩, none⟩],
      false⟩⟩,
    ⟨{}, {}, none, .assign [⟨{}, .ident { name := "a" }, .unknown⟩]
      [⟨{}, .func ⟨none, none, [], [],
        ⟨[⟨{}, {}, none, .ret [⟨{}, .literal ⟨.int, "1"⟩, .unknown⟩]⟩], ∅⟩⟩, .unknown⟩]
      .assign⟩]⟩]

/-- The error of the `return` is dropped although the `return` uses nothing. The error of the
    assignment is reported although the assignment uses `a`, which has failed before. -/
theorem assignedAfterFailure_confused :
    (∃ verdict ∈ assignedAfterFailure.run.state.verdicts,
      verdict.Dropped ∧ ¬ verdict.task.UsesFailed) ∧
    ∃ verdict ∈ assignedAfterFailure.run.state.verdicts,
      verdict.Reported ∧ verdict.task.UsesFailed := by
  have inside : ∃ verdict ∈ assignedAfterFailure.run.state.verdicts,
      verdict.task.taints = true ∧ ¬ verdict.task.UsesFailed := by decide +kernel
  have outside : ∃ verdict ∈ assignedAfterFailure.run.state.verdicts,
      ¬ verdict.task.taints = true ∧ verdict.task.UsesFailed := by decide +kernel
  have tracked := assignedAfterFailure.run_tracked
  constructor
  · obtain ⟨verdict, given, tainted, unused⟩ := inside
    exact ⟨verdict, given, (tracked.verdicts verdict given).1.dropped_iff.mpr tainted, unused⟩
  · obtain ⟨verdict, given, untainted, used⟩ := outside
    exact ⟨verdict, given, (tracked.verdicts verdict given).1.reported_iff.mpr untainted, used⟩

end PackageCheck.Package
