import PackageCheck.Typing.State

/-! # Growth of the state

A check only ever adds to the state. The scopes around the innermost one stay as they are, the
innermost one keeps its entries, a declared symbol keeps its place and its contents, and what has
been reported or noted stays so. A declaration can only be marked as failed by the check that has
declared it.

`State.Grows` says all this of two states, and each step of a check comes with a proof of it. -/

namespace PackageCheck

/-! ## Symbol tables -/

/-- Whether a table holds all symbols that another one holds. -/
structure SymbolTable.Within (before after : SymbolTable) : Prop where
  kept : ∀ id symbol, before.get? id = some symbol → after.get? id = some symbol
  size : before.declared.size ≤ after.declared.size

/-- Whether a table holds all that another one holds, and marks none of its symbols as failed that
    was not marked before. -/
structure SymbolTable.Extends (before after : SymbolTable) : Prop extends before.Within after where
  failed : before.failed <:+ after.failed
  unmarked : ∀ id, after.isFailed id → before.isFailed id ∨ before.get? id = none

namespace SymbolTable

variable {table before middle after : SymbolTable} {id : SymbolId} {symbol : Symbol}

theorem Within.trans (h : before.Within middle) (h' : middle.Within after) :
    before.Within after where
  kept id symbol hget := h'.kept id symbol (h.kept id symbol hget)
  size := Nat.le_trans h.size h'.size

theorem Extends.refl (table : SymbolTable) : table.Extends table :=
  ⟨⟨fun _ _ h => h, Nat.le_refl _⟩, List.suffix_refl _, fun _ h => Or.inl h⟩

theorem Extends.trans (h : before.Extends middle) (h' : middle.Extends after) :
    before.Extends after where
  toWithin := h.toWithin.trans h'.toWithin
  failed := h.failed.trans h'.failed
  unmarked id hfailed := by
    rcases h'.unmarked id hfailed with hmiddle | hnone
    · exact h.unmarked id hmiddle
    · refine Or.inr ?_
      cases hget : before.get? id with
      | none => rfl
      | some symbol => rw [h.kept id symbol hget] at hnone; cases hnone

/-- No symbol has the handle of the next one. -/
theorem get?_nextId (table : SymbolTable) : table.get? table.nextId = none := by
  simp [get?, nextId]

theorem get?_insert_nextId (table : SymbolTable) (symbol : Symbol) :
    (table.insert symbol).get? table.nextId = some symbol := by
  simp [get?, nextId, insert]

theorem get?_insert_of_some (symbol' : Symbol) (h : table.get? id = some symbol) :
    (table.insert symbol').get? id = some symbol := by
  cases id with
  | builtin index => exact h
  | declared index =>
    simp only [get?, insert, Array.getElem?_push] at h ⊢
    have hlt : index < table.declared.size := (Array.getElem?_eq_some_iff.mp h).1
    rw [if_neg (by omega)]
    exact h

/-- A handle other than the next one has the same symbol after an insertion. -/
theorem get?_insert_of_ne (symbol : Symbol) (h : id ≠ table.nextId) :
    (table.insert symbol).get? id = table.get? id := by
  cases id with
  | builtin index => rfl
  | declared index =>
    have hne : index ≠ table.declared.size := fun heq => h (by rw [nextId, heq])
    simp [get?, insert, Array.getElem?_push, hne]

theorem extends_insert (table : SymbolTable) (symbol : Symbol) :
    table.Extends (table.insert symbol) where
  kept id old h := get?_insert_of_some symbol h
  size := by simp [insert]
  failed := List.suffix_refl _
  unmarked id h := Or.inl h

/-- The table with another target for a type holds the same symbols elsewhere. -/
theorem get?_setAliased_of_ne (table : SymbolTable) {id other : SymbolId} (target : Ty)
    (h : other ≠ id) : (table.setAliased id target).get? other = table.get? other := by
  unfold setAliased
  split
  · cases id with
    | builtin index => rfl
    | declared index =>
      simp only [set?]
      split
      · cases other with
        | builtin index' => rfl
        | declared index' =>
          have hne : index ≠ index' := fun heq => h (by rw [heq])
          simp [get?, hne]
      · rfl
  · rfl

theorem get?_setAliased_self (table : SymbolTable) {index : Nat} {decl : TypeDecl} (target : Ty)
    (h : table.get? (.declared index) = some (.type decl)) :
    (table.setAliased (.declared index) target).get? (.declared index) =
      some (.type { decl with aliased := some target }) := by
  have hlt : index < table.declared.size := (Array.getElem?_eq_some_iff.mp h).1
  simp only [setAliased, h, set?, hlt, if_true, Option.getD_some]
  simp [get?, hlt]

theorem size_setAliased (table : SymbolTable) (id : SymbolId) (target : Ty) :
    (table.setAliased id target).declared.size = table.declared.size := by
  unfold setAliased
  split
  · cases id with
    | builtin index => rfl
    | declared index =>
      simp only [set?]
      split <;> simp
  · rfl

theorem failed_setAliased (table : SymbolTable) (id : SymbolId) (target : Ty) :
    (table.setAliased id target).failed = table.failed := by
  unfold setAliased
  split
  · cases id with
    | builtin index => rfl
    | declared index =>
      simp only [set?]
      split <;> rfl
  · rfl

/-- A new type can be given a target. -/
theorem Extends.setAliased (h : before.Extends after) (hnew : before.get? id = none)
    (target : Ty) : before.Extends (after.setAliased id target) where
  kept other symbol hget := by
    have hne : other ≠ id := fun heq => by rw [heq, hnew] at hget; cases hget
    rw [get?_setAliased_of_ne _ _ hne]
    exact h.kept other symbol hget
  size := by
    rw [size_setAliased]
    exact h.size
  failed := by
    rw [failed_setAliased]
    exact h.failed
  unmarked other hfailed := by
    rw [isFailed, failed_setAliased] at hfailed
    exact h.unmarked other hfailed

theorem get?_markFailed (table : SymbolTable) (id other : SymbolId) :
    (table.markFailed id).get? other = table.get? other := by
  unfold markFailed
  split <;> rfl

theorem declared_markFailed (table : SymbolTable) (id : SymbolId) :
    (table.markFailed id).declared = table.declared := by
  unfold markFailed
  split <;> rfl

theorem isFailed_markFailed (table : SymbolTable) (id other : SymbolId) :
    (table.markFailed id).isFailed other = (other = id ∨ table.isFailed other) := by
  unfold markFailed
  split
  case isTrue h =>
    by_cases heq : other = id
    · simp [isFailed, heq, h]
    · simp [heq]
  case isFalse => simp [isFailed]

theorem within_markFailed (table : SymbolTable) (id : SymbolId) :
    table.Within (table.markFailed id) where
  kept other symbol hget := (get?_markFailed table id other).trans hget
  size := Nat.le_of_eq (by rw [declared_markFailed])

theorem failed_suffix_markFailed (table : SymbolTable) (id : SymbolId) :
    table.failed <:+ (table.markFailed id).failed := by
  unfold markFailed
  split
  · exact List.suffix_refl _
  · exact List.suffix_cons _ _

/-- A new symbol can be marked as failed. -/
theorem Extends.markFailed (h : before.Extends after) (hnew : before.get? id = none) :
    before.Extends (after.markFailed id) where
  kept other symbol hget := by
    rw [get?_markFailed]
    exact h.kept other symbol hget
  size := by
    rw [declared_markFailed]
    exact h.size
  failed := h.failed.trans (after.failed_suffix_markFailed id)
  unmarked other hfailed := by
    rw [isFailed_markFailed] at hfailed
    rcases hfailed with rfl | hfailed
    · exact Or.inr hnew
    · exact h.unmarked other hfailed

end SymbolTable

namespace Typing

/-! ## States -/

/-- Whether a state holds all that another one holds. -/
structure State.Grows (before after : State) : Prop where
  outer : after.scopes.outer = before.scopes.outer
  inner : ∀ name id, before.scopes.inner.find? name = some id →
    after.scopes.inner.find? name = some id
  named : ∀ name id, after.scopes.inner.find? name = some id →
    before.scopes.inner.find? name = some id ∨
      ∃ symbol, after.symbols.get? id = some symbol ∧ symbol.name = name
  symbols : before.symbols.Extends after.symbols
  diagnostics : before.diagnostics <+: after.diagnostics
  suppressed : before.suppressed <+: after.suppressed
  failures : before.failures <+: after.failures
  uses : before.uses <:+ after.uses

namespace State

variable {s before middle after : State}

theorem Grows.refl (s : State) : s.Grows s :=
  ⟨rfl, fun _ _ h => h, fun _ _ h => Or.inl h, .refl _, List.prefix_refl _, List.prefix_refl _,
    List.prefix_refl _, List.suffix_refl _⟩

theorem Grows.trans (h : before.Grows middle) (h' : middle.Grows after) : before.Grows after where
  outer := h'.outer.trans h.outer
  inner name id hfind := h'.inner name id (h.inner name id hfind)
  named name id hfind := by
    rcases h'.named name id hfind with hmiddle | hnew
    · rcases h.named name id hmiddle with hbefore | ⟨symbol, hget, hname⟩
      · exact Or.inl hbefore
      · exact Or.inr ⟨symbol, h'.symbols.kept id symbol hget, hname⟩
    · exact Or.inr hnew
  symbols := h.symbols.trans h'.symbols
  diagnostics := h.diagnostics.trans h'.diagnostics
  suppressed := h.suppressed.trans h'.suppressed
  failures := h.failures.trans h'.failures
  uses := h.uses.trans h'.uses

/-! ## Steps -/

theorem grows_touch (s : State) (name : String) (id : SymbolId) : s.Grows (s.touch name id) :=
  { Grows.refl s with uses := List.suffix_cons _ _ }

theorem grows_note (s : State) (result : Except Diagnostic α) : s.Grows (s.note result) := by
  cases result with
  | ok => exact .refl s
  | error err => exact { Grows.refl s with failures := List.prefix_append _ _ }

theorem grows_report (s : State) (err : Diagnostic) : s.Grows (s.report err) :=
  { Grows.refl s with diagnostics := List.prefix_append _ _ }

theorem grows_record (s : State) (result : Except Diagnostic α) : s.Grows (s.record result) := by
  cases result with
  | ok => exact { Grows.refl s with }
  | error err =>
    simp only [record]
    split
    · exact { Grows.refl s with suppressed := List.prefix_append _ _ }
    · exact s.grows_report err

theorem grows_judge (s : State) (before : List Diagnostic) (result : Except Diagnostic α) :
    s.Grows (s.judge before result) := by
  cases result with
  | ok => exact .refl s
  | error err => exact { Grows.refl s with }

theorem grows_enter (s : State) : s.Grows s.enter :=
  { Grows.refl s with }

theorem grows_leave (s before : State) : s.Grows (s.leave before) :=
  { Grows.refl s with }

theorem grows_noteForm (s : State) (sound : Bool) (result : Except Diagnostic α) :
    s.Grows (s.noteForm sound result) := by
  cases result with
  | ok => exact .refl s
  | error err => exact { Grows.refl s with failures := List.prefix_append _ _ }

theorem grows_insertSymbol (s : State) (symbol : Symbol) : s.Grows (s.insertSymbol symbol) :=
  { Grows.refl s with
    named := fun _ _ hfind => Or.inl hfind
    symbols := s.symbols.extends_insert symbol }

/-- A symbol whose name stands in nobody's way can be declared. -/
theorem grows_insertNamed {symbol : Symbol} (h : s.clash? symbol.name = none) :
    s.Grows (s.insertNamed symbol) := by
  have hsymbols := s.symbols.extends_insert symbol
  by_cases hblank : symbol.name = "_"
  · have hscopes : (s.insertNamed symbol).scopes = s.scopes := by simp [insertNamed, hblank]
    refine { Grows.refl s with outer := ?_, inner := ?_, named := ?_, symbols := hsymbols }
    · rw [hscopes]
    · rw [hscopes]
      exact fun _ _ hfind => hfind
    · rw [hscopes]
      exact fun _ _ hfind => Or.inl hfind
  · have hfree : s.scopes.inner.find? symbol.name = none := by
      simpa [clash?, hblank, ScopeStack.findLocal?] using h
    have hscopes : (s.insertNamed symbol).scopes =
        s.scopes.add symbol.name s.symbols.nextId := by simp [insertNamed, hblank]
    refine { Grows.refl s with outer := ?_, inner := ?_, named := ?_, symbols := hsymbols }
    · rw [hscopes, ScopeStack.add]
    · intro other id hfind
      have hne : other ≠ symbol.name := fun heq => by rw [heq, hfree] at hfind; cases hfind
      rw [hscopes, ScopeStack.add, NameMap.find?_insert_of_ne _ _ hne]
      exact hfind
    · intro other id hfind
      rw [hscopes, ScopeStack.add] at hfind
      by_cases heq : other = symbol.name
      · rw [heq, NameMap.find?_insert_self, Option.some.injEq] at hfind
        exact Or.inr ⟨symbol, hfind ▸ s.symbols.get?_insert_nextId symbol, heq.symm⟩
      · rw [NameMap.find?_insert_of_ne _ _ heq] at hfind
        exact Or.inl hfind

/-- A type keeps its name when it is given a target. -/
theorem get?_setAliased_name {table : SymbolTable} {id other : SymbolId} {symbol : Symbol}
    (h : table.get? other = some symbol) (target : Ty) :
    ∃ symbol', (table.setAliased id target).get? other = some symbol' ∧
      symbol'.name = symbol.name := by
  by_cases heq : other = id
  · subst heq
    cases symbol with
    | type decl =>
      cases other with
      | builtin index => exact ⟨.type decl, by rw [← h]; simp [SymbolTable.setAliased, h,
          SymbolTable.set?], rfl⟩
      | declared index => exact ⟨_, table.get?_setAliased_self target h, rfl⟩
    | var v => exact ⟨.var v, by simp [SymbolTable.setAliased, h], rfl⟩
    | label l => exact ⟨.label l, by simp [SymbolTable.setAliased, h], rfl⟩
    | package name => exact ⟨.package name, by simp [SymbolTable.setAliased, h], rfl⟩
  · exact ⟨symbol, by rw [table.get?_setAliased_of_ne target heq, h], rfl⟩

theorem Grows.setAliased {id : SymbolId} (h : before.Grows after)
    (hnew : before.symbols.get? id = none) (target : Ty) :
    before.Grows (after.setAliased id target) :=
  { h with
    named := by
      intro name other hfind
      rcases h.named name other hfind with hbefore | ⟨symbol, hget, hname⟩
      · exact Or.inl hbefore
      · obtain ⟨symbol', hget', hname'⟩ := get?_setAliased_name hget target
        exact Or.inr ⟨symbol', hget', hname'.trans hname⟩
    symbols := h.symbols.setAliased hnew target }

theorem Grows.markIfFailed {id : SymbolId} (h : before.Grows after)
    (hnew : before.symbols.get? id = none) (result : Except Diagnostic α) :
    before.Grows (after.markIfFailed id result) := by
  cases result with
  | ok => exact h
  | error err =>
    have hsame : ∀ other, (after.symbols.markFailed id).get? other = after.symbols.get? other :=
      after.symbols.get?_markFailed id
    exact { h with
      named := fun name other hfind => by
        simp only [State.markIfFailed, hsame] at hfind ⊢
        exact h.named name other hfind
      symbols := h.symbols.markFailed hnew }

/-- A mark leaves the symbols as they are. -/
theorem within_markIfFailed (s : State) (id : SymbolId) (result : Except Diagnostic α) :
    s.symbols.Within (s.markIfFailed id result).symbols := by
  cases result with
  | ok => exact (SymbolTable.Extends.refl _).toWithin
  | error err => exact s.symbols.within_markFailed id

/-! ## Scopes -/

/-- Closing a scope gives back the scopes from before it was opened. -/
theorem Grows.scopes_popScope (h : before.pushScope.Grows after) :
    after.popScope.scopes = before.scopes := by
  have houter : after.scopes.outer = before.scopes.all := h.outer
  simp [popScope, ScopeStack.pop, houter, ScopeStack.all]

theorem Grows.popScope (h : before.pushScope.Grows after) : before.Grows after.popScope :=
  { h with
    outer := by rw [h.scopes_popScope]
    inner := by
      rw [h.scopes_popScope]
      exact fun _ _ hfind => hfind
    named := by
      rw [h.scopes_popScope]
      exact fun _ _ hfind => Or.inl hfind }

/-! ## Names -/

/-- Whether each open scope holds symbols of the table under their names. -/
def WellScoped (s : State) : Prop :=
  ∀ scope ∈ s.scopes.all, ∀ name id, scope.find? name = some id →
    ∃ symbol, s.symbols.get? id = some symbol ∧ symbol.name = name

theorem WellScoped.grows (h : before.WellScoped) (h' : before.Grows after) :
    after.WellScoped := by
  intro scope hscope name id hfind
  have hkept : (∃ symbol, before.symbols.get? id = some symbol ∧ symbol.name = name) →
      ∃ symbol, after.symbols.get? id = some symbol ∧ symbol.name = name := by
    rintro ⟨symbol, hget, hname⟩
    exact ⟨symbol, h'.symbols.kept id symbol hget, hname⟩
  rcases List.mem_cons.mp hscope with rfl | houter
  · rcases h'.named name id hfind with hbefore | hnew
    · exact hkept (h _ List.mem_cons_self name id hbefore)
    · exact hnew
  · rw [h'.outer] at houter
    exact hkept (h scope (List.mem_cons_of_mem _ houter) name id hfind)

theorem WellScoped.pushScope (h : s.WellScoped) : s.pushScope.WellScoped := by
  intro scope hscope name id hfind
  rcases List.mem_cons.mp hscope with rfl | houter
  · cases hfind
  · exact h scope houter name id hfind

end State

end Typing

end PackageCheck
