import PackageCheck.Proofs.Typing.Stable

/-! # Errors that are dropped

The error of a statement is dropped if the statement is tainted. There is one mark for all levels of
nesting: a nested statement begins with the mark of the one around it, and takes the mark away when
it ends. So whether a statement ends tainted can be read off what it has done since the last
statement nested in it has ended.

As long as no statement begins inside of a tainted one, a statement ends tainted exactly if it has
used a declaration that was marked as failed at that time. -/

namespace PackageCheck.Typing

open Check

/-! ## Tasks -/

namespace Task

/-- Whether a statement is tainted behind some deeds. -/
def taintedBy (around : Bool) : List Deed → Bool
  | [] => around
  | .use _ failed :: before => failed || taintedBy around before
  | .nest _ :: _ => false

/-- Whether a statement is tainted by what it has done so far. -/
def taints (task : Task) : Bool :=
  taintedBy task.tainted task.deeds

/-- The declarations that a statement has used outside of the statements nested in it. -/
def used (task : Task) : List SymbolId :=
  task.deeds.filterMap fun
    | .use id _ => some id
    | .nest _ => none

/-- Those that were marked as failed when they were used. -/
def failedUses (task : Task) : List SymbolId :=
  task.deeds.filterMap fun
    | .use id true => some id
    | _ => none

/-- Whether a statement has used a declaration that was marked as failed before the statement
    began. -/
def UsesFailed (task : Task) : Prop :=
  ∃ id ∈ task.used, id ∈ task.failed

instance (task : Task) : Decidable task.UsesFailed :=
  inferInstanceAs (Decidable (∃ id ∈ task.used, id ∈ task.failed))

/-- Whether taints and nesting do not meet in the check of a statement. -/
structure Undisturbed (task : Task) : Prop where
  /-- The statement has not begun inside of a tainted one. -/
  outside : task.tainted = false
  /-- Nor has a statement begun inside of it while it was tainted. -/
  inside : Deed.nest true ∉ task.deeds
  /-- What it has used and had failed by then had failed before it began. -/
  earlier : ∀ id ∈ task.failedUses, id ∈ task.failed

instance (task : Task) : Decidable task.Undisturbed :=
  decidable_of_iff (task.tainted = false ∧ Deed.nest true ∉ task.deeds ∧
      ∀ id ∈ task.failedUses, id ∈ task.failed)
    ⟨fun ⟨outside, inside, earlier⟩ => ⟨outside, inside, earlier⟩,
      fun ⟨outside, inside, earlier⟩ => ⟨outside, inside, earlier⟩⟩

/-- Whether deeds can be those of a statement: what had failed before is marked at its uses, and a
    nested statement begins with the mark of the one around it. -/
def FaithfulTo (failed : List SymbolId) (around : Bool) : List Deed → Prop
  | [] => True
  | .use id marked :: before => (id ∈ failed → marked = true) ∧ FaithfulTo failed around before
  | .nest tainted :: before => tainted = taintedBy around before ∧ FaithfulTo failed around before

def Faithful (task : Task) : Prop :=
  FaithfulTo task.failed task.tainted task.deeds

variable {task : Task} {failed : List SymbolId} {around : Bool}

/-- Without nesting in a tainted statement the taint stays from the first use of a failed
    declaration on. -/
theorem taintedBy_iff {deeds : List Deed} (faithful : FaithfulTo failed around deeds)
    (outside : around = false) (inside : Deed.nest true ∉ deeds) :
    taintedBy around deeds = true ↔ ∃ id, Deed.use id true ∈ deeds := by
  induction deeds with
  | nil => simp [taintedBy, outside]
  | cons deed before hypothesis =>
    have ⟨apart, earlier⟩ : deed ≠ .nest true ∧ Deed.nest true ∉ before := by
      simpa [eq_comm] using inside
    cases deed with
    | use id marked =>
      have behind := hypothesis faithful.2 earlier
      cases marked with
      | true => simp [taintedBy]
      | false => simpa [taintedBy] using behind
    | nest tainted =>
      obtain ⟨mark, faithful⟩ := faithful
      have behind := hypothesis faithful earlier
      -- the mark that the nested statement takes away was not set
      cases tainted with
      | true => exact absurd rfl apart
      | false =>
        rw [← mark] at behind
        simpa [taintedBy] using behind

/-- What had failed before the statement began is marked at each of its uses. -/
theorem marked_of_use {deeds : List Deed} {id : SymbolId} {marked : Bool}
    (faithful : FaithfulTo failed around deeds) (use : Deed.use id marked ∈ deeds)
    (before : id ∈ failed) : marked = true := by
  induction deeds with
  | nil => cases use
  | cons deed earlier hypothesis =>
    rcases List.mem_cons.mp use with rfl | use'
    · exact faithful.1 before
    · cases deed with
      | use _ _ => exact hypothesis faithful.2 use'
      | nest _ => exact hypothesis faithful.2 use'

theorem mem_used {id : SymbolId} : id ∈ task.used ↔ ∃ marked, Deed.use id marked ∈ task.deeds := by
  simp only [used, List.mem_filterMap]
  constructor
  · rintro ⟨deed, member, same⟩
    cases deed with
    | use other marked =>
      cases same
      exact ⟨marked, member⟩
    | nest _ => cases same
  · rintro ⟨marked, member⟩
    exact ⟨_, member, rfl⟩

theorem mem_failedUses {id : SymbolId} : id ∈ task.failedUses ↔ Deed.use id true ∈ task.deeds := by
  simp only [failedUses, List.mem_filterMap]
  constructor
  · rintro ⟨deed, member, same⟩
    split at same
    · cases same
      exact member
    · cases same
  · exact fun member => ⟨_, member, rfl⟩

theorem taints_iff_usesFailed (faithful : task.Faithful) (undisturbed : task.Undisturbed) :
    task.taints = true ↔ task.UsesFailed := by
  rw [taints, taintedBy_iff faithful undisturbed.outside undisturbed.inside]
  constructor
  · rintro ⟨id, use⟩
    exact ⟨id, mem_used.mpr ⟨true, use⟩, undisturbed.earlier id (mem_failedUses.mpr use)⟩
  · rintro ⟨id, use, before⟩
    obtain ⟨marked, use⟩ := mem_used.mp use
    rw [marked_of_use faithful use before] at use
    exact ⟨id, use⟩

end Task

/-! ## Verdicts -/

namespace Verdict

/-- Whether an error has left the diagnostics as they were. -/
def Dropped (verdict : Verdict) : Prop :=
  verdict.after = verdict.before

/-- Whether an error has become a diagnostic. -/
def Reported (verdict : Verdict) : Prop :=
  verdict.after = verdict.before ++ [verdict.error]

/-- Whether an error has been dropped or reported as its statement was tainted or not. -/
structure Fair (verdict : Verdict) : Prop where
  faithful : verdict.task.Faithful
  after : verdict.after =
    if verdict.task.taints then verdict.before else verdict.before ++ [verdict.error]

variable {verdict : Verdict}

theorem not_dropped_and_reported : ¬ (verdict.Dropped ∧ verdict.Reported) := by
  rintro ⟨dropped, reported⟩
  have same : verdict.before = verdict.before ++ [verdict.error] := dropped.symm.trans reported
  simp at same

theorem Fair.dropped_iff (fair : verdict.Fair) : verdict.Dropped ↔ verdict.task.taints = true := by
  constructor
  · intro dropped
    apply Classical.byContradiction
    intro untainted
    exact not_dropped_and_reported ⟨dropped, fair.after.trans (if_neg untainted)⟩
  · exact fun tainted => fair.after.trans (if_pos tainted)

theorem Fair.reported_iff (fair : verdict.Fair) :
    verdict.Reported ↔ ¬ verdict.task.taints = true := by
  constructor
  · exact fun reported tainted => not_dropped_and_reported ⟨fair.dropped_iff.mpr tainted, reported⟩
  · exact fun untainted => fair.after.trans (if_neg untainted)

end Verdict

/-! ## The invariant -/

/-- Whether what is noted of the statement at hand explains its taint, and what is noted of the
    errors so far what has become of them. -/
structure State.Tracked (s : State) : Prop where
  taint : s.tainted = s.task.taints
  failed : s.task.failed <:+ s.symbols.failed
  faithful : s.task.Faithful
  verdicts : ∀ verdict ∈ s.verdicts, verdict.Fair ∧ verdict.after <+: s.diagnostics

namespace State.Tracked

variable {s s' : State}

/-- A step that leaves the statement at hand and the verdicts alone. -/
theorem step (tracked : s.Tracked) (failed : s.symbols.failed <:+ s'.symbols.failed)
    (diagnostics : s.diagnostics <+: s'.diagnostics) (task : s'.task = s.task)
    (tainted : s'.tainted = s.tainted) (verdicts : s'.verdicts = s.verdicts) : s'.Tracked where
  taint := by rw [tainted, task, tracked.taint]
  failed := by
    rw [task]
    exact tracked.failed.trans failed
  faithful := task ▸ tracked.faithful
  verdicts verdict member := by
    have ⟨fair, reported⟩ := tracked.verdicts verdict (verdicts ▸ member)
    exact ⟨fair, reported.trans diagnostics⟩

/-- A step that changes no more than the scopes and what else holds no mark. -/
theorem unmarked (tracked : s.Tracked) (symbols : s'.symbols.failed = s.symbols.failed)
    (diagnostics : s'.diagnostics = s.diagnostics) (task : s'.task = s.task)
    (tainted : s'.tainted = s.tainted) (verdicts : s'.verdicts = s.verdicts) : s'.Tracked :=
  tracked.step (symbols ▸ List.suffix_refl _) (diagnostics ▸ List.prefix_refl _) task tainted
    verdicts

theorem touch (tracked : s.Tracked) (name : String) (id : SymbolId) :
    (s.touch name id).Tracked where
  taint := by
    have tainted : s.tainted = Task.taintedBy s.task.tainted s.task.deeds := tracked.taint
    simp [State.touch, act, Task.taints, Task.taintedBy, tainted, Bool.or_comm]
  failed := tracked.failed
  faithful := by
    refine ⟨fun before => ?_, tracked.faithful⟩
    exact decide_eq_true (tracked.failed.subset before)
  verdicts := tracked.verdicts

theorem enter (tracked : s.Tracked) : s.enter.Tracked where
  taint := rfl
  failed := List.suffix_refl _
  faithful := True.intro
  verdicts := tracked.verdicts

/-- What has become of an error behind the statement that ends in it. -/
theorem run_record_error (s : State) (err : Diagnostic) :
    let behind := ((Typing.record (.error err : Except Diagnostic α)).run s).2
    behind.tainted = false ∧
      behind.diagnostics = (if s.tainted then s.diagnostics else s.diagnostics ++ [err]) ∧
      behind.verdicts = s.verdicts ++ [⟨s.task, err, s.diagnostics, behind.diagnostics⟩] := by
  cases tainted : s.tainted <;>
    simp [Typing.record, change, Check.run, judge, State.record, note, State.report, tainted]

theorem record (tracked : s.Tracked) (result : Except Diagnostic α) :
    ∀ verdict ∈ ((Typing.record result).run s).2.verdicts,
      verdict.Fair ∧ verdict.after <+: ((Typing.record result).run s).2.diagnostics := by
  cases result with
  | ok a => exact tracked.verdicts
  | error err =>
    obtain ⟨-, diagnostics, verdicts⟩ := run_record_error s err
    intro verdict member
    rw [verdicts] at member
    rcases List.mem_append.mp member with earlier | last
    · have ⟨fair, reported⟩ := tracked.verdicts verdict earlier
      exact ⟨fair, reported.trans ((Typing.record _).grows s).diagnostics⟩
    · obtain rfl := List.mem_singleton.mp last
      refine ⟨⟨tracked.faithful, ?_⟩, List.prefix_refl _⟩
      rw [← tracked.taint]
      exact diagnostics

theorem untainted_record (s : State) (result : Except Diagnostic α) :
    ((Typing.record result).run s).2.tainted = false := by
  cases result with
  | ok a => rfl
  | error err => exact (run_record_error s err).1

/-- Behind a nested statement the one around it is not tainted, whatever it has used. -/
theorem recorded (tracked : s.Tracked) {check : Check (Checked ν τ)}
    (inside : Preserves Tracked check) : ((Typing.recorded check).run s).2.Tracked := by
  rw [run_recorded]
  -- the nested statement is tracked from its own beginning to its end
  have behind := inside s.enter tracked.enter
  have grows := ((check.grows s.enter).trans ((Typing.record (check.run s.enter).1.2).grows _))
  exact {
    taint := untainted_record _ _
    failed := tracked.failed.trans grows.symbols.failed
    faithful := ⟨tracked.taint, tracked.faithful⟩
    verdicts := behind.record _ }

end State.Tracked

/-- Every step of a check keeps track of the statement at hand, in whatever scope. -/
theorem tracked_stable : Stable fun _ => State.Tracked where
  touch _ s name id tracked := tracked.touch name id
  note _ s result tracked := by
    cases result with
    | ok a => exact tracked
    | error err => exact tracked.unmarked rfl rfl rfl rfl rfl
  noteForm _ s sound result tracked := by
    cases result with
    | ok a => exact tracked
    | error err => exact tracked.unmarked rfl rfl rfl rfl rfl
  report _ s err tracked :=
    tracked.step (List.suffix_refl _) (s.grows_report err).diagnostics rfl rfl rfl
  pushScope _ s tracked := tracked.unmarked rfl rfl rfl rfl rfl
  popScope _ s tracked := tracked.unmarked rfl rfl rfl rfl rfl
  insertSymbol _ s symbol tracked := tracked.unmarked rfl rfl rfl rfl rfl
  insertNamed _ s symbol tracked := tracked.unmarked rfl rfl rfl rfl rfl
  setAliased _ s id target tracked :=
    tracked.unmarked (s.symbols.failed_setAliased id target) rfl rfl rfl rfl
  markIfFailed _ s id result tracked := by
    cases result with
    | ok a => exact tracked
    | error err =>
      exact tracked.step (s.symbols.failed_suffix_markFailed id) (List.prefix_refl _) rfl rfl rfl
  recorded _ check inside s tracked := tracked.recorded inside

theorem checkStmt_tracked (ctx : Context) (statement : Stmt) :
    Preserves State.Tracked (checkStmt ctx statement) :=
  tracked_stable.steady.checkStmt (n := 0) ctx statement

/-! ## Verdicts of statements -/

/-- A check keeps the statement at hand, with what was noted of its beginning. -/
theorem begun_stable (around : Bool) (failed : List SymbolId) :
    Stable fun _ s => s.task.tainted = around ∧ s.task.failed = failed where
  touch _ s name id begun := begun
  note _ s result begun := by cases result <;> exact begun
  noteForm _ s sound result begun := by cases result <;> exact begun
  report _ s err begun := begun
  pushScope _ s begun := begun
  popScope _ s begun := begun
  insertSymbol _ s symbol begun := begun
  insertNamed _ s symbol begun := begun
  setAliased _ s id target begun := begun
  markIfFailed _ s id result begun := by cases result <;> exact begun
  recorded _ check inside s begun := begun

/-- No verdict is taken back. -/
theorem verdicts_stable (earlier : List Verdict) : Stable fun _ s => earlier <+: s.verdicts where
  touch _ s name id kept := kept
  note _ s result kept := by cases result <;> exact kept
  noteForm _ s sound result kept := by cases result <;> exact kept
  report _ s err kept := kept
  pushScope _ s kept := kept
  popScope _ s kept := kept
  insertSymbol _ s symbol kept := kept
  insertNamed _ s symbol kept := kept
  setAliased _ s id target kept := kept
  markIfFailed _ s id result kept := by cases result <;> exact kept
  recorded _ check inside s kept := by
    have behind := inside s.enter kept
    simp only [run_recorded]
    cases (check.run s.enter).1.2 with
    | ok a => exact behind
    | error err =>
      show earlier <+: ((record (.error err : Except Diagnostic _)).run _).2.verdicts
      rw [(State.Tracked.run_record_error _ err).2.2]
      exact behind.trans (List.prefix_append _ _)

/-- The verdicts behind a statement begin with those in front of it. -/
theorem verdicts_prefix_recorded (ctx : Context) (statement : Stmt) (s : State) :
    s.verdicts <+: ((recorded (checkStmt ctx statement)).run s).2.verdicts :=
  (verdicts_stable s.verdicts).steady.recorded 1 _
    ((verdicts_stable s.verdicts).steady.checkStmt (n := 0) ctx statement) s (List.prefix_refl _)

/-- A statement that ends in an error gets a verdict, which tells whether the statement around it
    was tainted and what had failed when it began. -/
theorem exists_verdict_of_error (ctx : Context) (statement : Stmt) (s : State) {err : Diagnostic}
    (ended : ((checkStmt ctx statement).run s.enter).1.2 = .error err) :
    ∃ verdict ∈ ((recorded (checkStmt ctx statement)).run s).2.verdicts,
      verdict.error = err ∧ verdict.task.tainted = s.tainted ∧
        verdict.task.failed = s.symbols.failed := by
  have stable := begun_stable s.tainted s.symbols.failed
  have begun := stable.steady.checkStmt (n := 0) ctx statement s.enter ⟨rfl, rfl⟩
  simp only [run_recorded, ended]
  generalize ((checkStmt ctx statement).run s.enter).2 = behind at begun
  obtain ⟨-, -, verdicts⟩ := State.Tracked.run_record_error behind err
  refine ⟨⟨behind.task, err, behind.diagnostics,
    ((record (.error err : Except Diagnostic Unit)).run behind).2.diagnostics⟩, ?_, rfl, begun⟩
  change _ ∈ ((record (.error err : Except Diagnostic Unit)).run behind).2.verdicts
  rw [verdicts]
  exact List.mem_append_right _ List.mem_cons_self

end PackageCheck.Typing
