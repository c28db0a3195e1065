import PackageCheck.Proofs.Symbol.AliasTargets
import PackageCheck.Proofs.Typing.Stable

/-! # Tables that checks come through

A check declares each type before it looks at its definition, and a specification stands for a custom
type only if the table declares it. So whatever a check does leads from one reached table to another,
and with the definitions of types taken as a whole, no declaration is pending in between. -/

namespace PackageCheck.Typing

open Check

variable {ctx : Context} {s : State}

/-! ## Definitions -/

/-- An attempt that succeeds in the end has succeeded with its first part. -/
theorem succeeds_bind {first : Attempt α} {next : α → Attempt β} {b : β}
    (succeeded : ((first >>= next).run.run s).1 = .ok b) :
    ∃ a, (first.run.run s).1 = .ok a ∧
      ((next a).run.run (first.run.run s).2).1 = .ok b := by
  change ((first.run >>= _ : Check (Except Diagnostic β)).run s).1 = .ok b at succeeded
  rw [run_bind] at succeeded
  cases result : (first.run.run s).1 with
  | error err =>
    rw [result] at succeeded
    cases succeeded
  | ok a =>
    rw [result] at succeeded
    exact ⟨a, rfl, succeeded⟩

/-- An attempt that begins with the state goes on in it. -/
theorem run_state_bind (next : State → Attempt α) :
    ((liftM state : Attempt State) >>= next).run.run s = (next s).run.run s := rfl

/-- A declaration introduces no custom type but its own. -/
theorem declaredType?_custom {table : SymbolTable} {id next : SymbolId} {name : String}
    (introduced : table.declaredType? id = some (.custom name next)) : id = next := by
  unfold SymbolTable.declaredType? at introduced
  split at introduced
  · simp at introduced
  · cases introduced
    rfl
  · cases introduced

/-- The type of a name is what the nearest declaration of a type introduces. -/
theorem resolveName_offers {name : String} {position : Position} {type : Ty}
    (resolved : ((resolveName ctx name position).run.run s).1 = .ok type) :
    s.symbols.Offers type := by
  rw [resolveName, run_state_bind] at resolved
  split at resolved
  · obtain ⟨_, -, named⟩ := succeeds_bind resolved
    split at named
    · rename_i introduced
      cases named
      rintro title next rfl
      rwa [declaredType?_custom introduced] at introduced
    · cases named
  · split at resolved <;> cases resolved

theorem resolve_offers {spec : TypeSpec} {type : Ty}
    (resolved : ((resolve ctx spec).run.run s).1 = .ok type) : s.symbols.Offers type := by
  rw [resolve.eq_def] at resolved
  cases spec with
  | named name position => exact resolveName_offers resolved
  | map key value =>
    obtain ⟨_, -, behind⟩ := succeeds_bind resolved
    obtain ⟨_, -, built⟩ := succeeds_bind behind
    cases built
    simp [SymbolTable.Offers]
  | func args results =>
    obtain ⟨_, -, behind⟩ := succeeds_bind resolved
    obtain ⟨_, -, built⟩ := succeeds_bind behind
    cases built
    simp [SymbolTable.Offers]
  | blank =>
    cases resolved
    simp [SymbolTable.Offers]
  | _ =>
    obtain ⟨_, -, built⟩ := succeeds_bind resolved
    cases built
    simp [SymbolTable.Offers]

theorem aliasTarget_offers {name : String} {position : Position} {target : TypeSpec} {type : Ty}
    {u : Unit} (found : ((aliasTarget ctx name position target).run.run s).1 = .ok (type, u)) :
    s.symbols.Offers type := by
  obtain ⟨type', resolved, behind⟩ := succeeds_bind found
  split at behind
  · obtain ⟨_, failed, -⟩ := succeeds_bind behind
    cases failed
  · cases behind
    exact resolve_offers resolved

theorem structTarget_struct {name : String} {position : Position} {fields : List FieldDecl}
    {methods : List Func} {type : Ty} {signatures : List Signature}
    (found : ((structTarget ctx name position fields methods).run.run s).1 =
      .ok (type, signatures)) : ∃ layout, type = .struct layout := by
  obtain ⟨fields', -, behind⟩ := succeeds_bind found
  obtain ⟨methods', -, built⟩ := succeeds_bind behind
  cases built
  exact ⟨_, rfl⟩

/-! ## Declarations -/

/-- What only looks names up leaves the table as it is. -/
theorem touch_keeps_symbols {table : SymbolTable} (name : String) (id : SymbolId) :
    Preserves (fun s => s.symbols = table) (touch name id) :=
  .change fun _ same => same

theorem reached_markIfFailed (reached : s.symbols.Reached none) (id : SymbolId)
    (result : Except Diagnostic α) : (s.markIfFailed id result).symbols.Reached none := by
  cases result with
  | ok a => exact reached
  | error err => exact .marked id reached

section Declarations

variable {name : String} {position : Position}

/-- A declaration is pending while its definition is looked at. What is done with the target of the
    definition has to end that. -/
theorem reached_declareType {node : ν} {define : Attempt (Ty × α)}
    {next : SymbolId → α → Check (Checked ν Unit)}
    (looks : ∀ table, Preserves (fun s => s.symbols = table) define.run)
    (ends : ∀ (s s' : State) id type a, (define.run.run s).1 = .ok (type, a) →
      s'.symbols = s.symbols → s'.symbols.Reached (some id) →
        (((next id a).run (s'.setAliased id type)).2.markIfFailed id
          ((next id a).run (s'.setAliased id type)).1.2).symbols.Reached none) :
    Preserves (fun s => s.symbols.Reached none)
      (declareType ctx name position node define next) := by
  intro s reached
  cases clash : s.clash? name with
  | some previous =>
    rw [run_declareType_of_clash clash]
    exact reached
  | none =>
    have pending : (s.declaring ctx name position).symbols.Reached (some s.symbols.nextId) :=
      .declared name _ reached
    have kept : (define.run.run (s.declaring ctx name position)).2.symbols =
        (s.declaring ctx name position).symbols := looks _ _ rfl
    rw [← kept] at pending
    cases defined : (define.run.run (s.declaring ctx name position)).1 with
    | error err =>
      rw [run_declareType_of_error clash defined]
      exact .failed pending
    | ok found =>
      rw [run_declareType_of_ok clash defined]
      exact ends _ _ _ _ _ defined kept pending

theorem reached_struct {fields : List FieldDecl} {methods : List Func}
    {next : SymbolId → List Signature → Check (Checked (List Func) Unit)}
    (rest : ∀ id signatures, Preserves (fun s => s.symbols.Reached none) (next id signatures)) :
    Preserves (fun s => s.symbols.Reached none) (declareType ctx name position methods
      (structTarget ctx name position fields methods) next) := by
  apply reached_declareType fun _ => .structTarget touch_keeps_symbols _ _ _ _
  intro s s' id type signatures defined kept pending
  obtain ⟨layout, rfl⟩ := structTarget_struct defined
  apply reached_markIfFailed
  apply rest
  exact .struct layout pending

theorem run_aliasRoot_of_ok {id : SymbolId} {root : Ty}
    (rooted : s.symbols.rootType name id = .ok root) :
    (aliasRoot ctx id name position).run.run s = (.ok (), s) := by
  rw [aliasRoot, run_state_bind, rooted]
  rfl

theorem run_aliasRoot_of_error {id : SymbolId} {err : TypeError}
    (rooted : s.symbols.rootType name id = .error err) :
    (aliasRoot ctx id name position).run.run s =
      (.error (.ofTypeError err name (ctx.site position)), s) := by
  rw [aliasRoot, run_state_bind, rooted]
  rfl

theorem reached_checkAlias (decl : AliasDecl) :
    Preserves (fun s => s.symbols.Reached none) (checkAlias ctx decl position) := by
  apply Preserves.rebuild
  apply reached_declareType fun _ => .aliasTarget touch_keeps_symbols _ _ _
  intro s s' id type _ defined kept pending
  have offered : s'.symbols.Offers type := kept ▸ aliasTarget_offers defined
  have targeted : (s'.setAliased id type).symbols.Reached (some id) := .target offered pending
  -- the declaration stays pending until its root was asked for
  rw [run_bind]
  cases rooted : (s'.setAliased id type).symbols.rootType decl.name id with
  | ok root =>
    rw [run_aliasRoot_of_ok rooted]
    exact .confirmed rooted targeted
  | error err =>
    rw [run_aliasRoot_of_error rooted]
    exact .failed targeted

end Declarations

/-- The result of a statement is taken without a change to the table. -/
theorem reached_record (result : Except Diagnostic α) :
    Preserves (fun s => s.symbols.Reached none) (record result) := by
  refine .change fun s reached => ?_
  cases result with
  | ok a => exact reached
  | error err => cases tainted : s.tainted <;>
      simpa [State.note, State.record, State.judge, State.report, tainted] using reached

/-! ## Checks -/

/-- Whatever is checked, no declaration is pending behind it if none was in front of it. -/
theorem reached_steady : Steady fun _ s => s.symbols.Reached none where
  touch _ _ _ _ reached := reached
  note _ _ result reached := by cases result <;> exact reached
  noteForm _ _ _ result reached := by cases result <;> exact reached
  report _ _ _ reached := reached
  pushScope _ _ reached := reached
  popScope _ _ reached := reached
  label _ _ label reached := .other (.label label) rfl reached
  var _ _ v result reached := reached_markIfFailed (.other (.var v) rfl reached) _ result
  struct _ _ _ _ _ _ _ rest := reached_struct rest
  typeAlias _ _ decl _ := reached_checkAlias decl
  recorded _ check inside := by
    intro s reached
    rw [run_recorded]
    exact reached_record _ _ (inside s.enter reached)

theorem reached_checkStmt (ctx : Context) (s : Stmt) :
    Preserves (fun s => s.symbols.Reached none) (checkStmt ctx s) :=
  reached_steady.checkStmt (n := 0) ctx s

end PackageCheck.Typing
