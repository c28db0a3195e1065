import PackageCheck.Proofs.Dependency.Occurrences
import PackageCheck.Proofs.Tree.Nesting

/-! # The scopes of a collector

A collector keeps the declared names of the open scopes on a stack, and the walk of a statement
opens and closes scopes in a nested way. So at each point the stack holds the base scope and, on
top of it, one scope for each that the walk has opened and not closed.

* `Collector.scopes_foldl`: of the stack that a walk finds, the scopes that it does not close
  stay, and the topmost one of these may get new names.
* `keepsScopes_of_keepsOpen`: what follows from it for a reader that begins with the base scope.
* `walks_wellBracketed`: the walks of statements, blocks and expressions are well bracketed, and a
  collector that reads a statement ends with the names that the statement declares around it. -/

namespace PackageCheck

namespace Dependency

namespace Collector

variable {own : List String} {collector : Collector} {inner outer : List (List String)}
variable {scope : List String}

/-- What a collector has come to that has read a walk from its beginning on. The free names of a
    statement are those that it has come to behind the whole walk. -/
def reading (own : List String) (walk : List Event) : Collector :=
  walk.foldl (step own) {}

theorem scopes_use (collector : Collector) (name : String) (position : Position) :
    (collector.use own name position).scopes = collector.scopes := by
  rw [Collector.use]
  split <;> rfl

/-- An event changes nothing below a scope that it does not close, and no more of that scope than to
    declare a name in it. -/
theorem scopes_step (event : Event) (start : collector.scopes = inner ++ scope :: outer)
    (unclosed : scopesClosed [event] ≤ inner.length + scopesOpened [event]) :
    ∃ inner' added, (step own collector event).scopes = inner' ++ (added ++ scope) :: outer ∧
      inner'.length + scopesClosed [event] = inner.length + scopesOpened [event] := by
  have unchanged : ∀ after : Collector, after.scopes = collector.scopes →
      ∃ inner' added, after.scopes = inner' ++ (added ++ scope) :: outer ∧
        inner'.length = inner.length :=
    fun after same => ⟨inner, [], same.trans start, rfl⟩
  cases event with
  | openScope => exact ⟨[] :: inner, [], by simp [step, start], rfl⟩
  | closeScope =>
    cases inner with
    | nil => cases unclosed
    | cons top inner => exact ⟨inner, [], by simp [step, start], rfl⟩
  | declare name =>
    cases inner with
    | nil => exact ⟨[], [name], by simp [step, start], rfl⟩
    | cons top inner => exact ⟨(name :: top) :: inner, [], by simp [step, start], rfl⟩
  | useValue ident position => exact unchanged _ (scopes_use collector ident.name position)
  | useType name position => exact unchanged _ (scopes_use collector name position)
  | _ => exact unchanged _ rfl

/-- A walk changes nothing below a scope that it does not close, and no more of that scope than to
    declare names in it. On top of it are then as many scopes as before, and those that the walk has
    opened, less those that it has closed. -/
theorem scopes_foldl (walk : List Event) (start : collector.scopes = inner ++ scope :: outer)
    (unclosed : ∀ front back, walk = front ++ back →
      scopesClosed front ≤ inner.length + scopesOpened front) :
    ∃ inner' added, (walk.foldl (step own) collector).scopes = inner' ++ (added ++ scope) :: outer ∧
      inner'.length + scopesClosed walk = inner.length + scopesOpened walk := by
  -- by induction on the walk: each event may change the scopes on top and the names in `scope`
  induction walk generalizing collector inner scope with
  | nil => exact ⟨inner, [], start, rfl⟩
  | cons event rest hypothesis =>
    obtain ⟨inner₁, added, here, count⟩ := scopes_step event start (unclosed [event] rest rfl)
    have unclosed₁ : ∀ front back, rest = front ++ back →
        scopesClosed front ≤ inner₁.length + scopesOpened front := by
      rintro front back rfl
      have before := unclosed (event :: front) back rfl
      rw [← List.singleton_append, scopesClosed_append, scopesOpened_append] at before
      omega
    obtain ⟨inner₂, added', there, count'⟩ := hypothesis here unclosed₁
    refine ⟨inner₂, added' ++ added, ?_, ?_⟩
    · rw [List.foldl_cons, there, List.append_assoc]
    · rw [← List.singleton_append, scopesClosed_append, scopesOpened_append]
      omega

/-- A walk that keeps the scope around it open has the scopes on top of it that it has opened and
    not closed. -/
theorem scopes_foldl_of_keepsOpen {walk : List Event} (keeps : KeepsOpen walk)
    (start : collector.scopes = scope :: outer) :
    ∃ inner added, (walk.foldl (step own) collector).scopes = inner ++ (added ++ scope) :: outer ∧
      inner.length = scopesOpened walk - scopesClosed walk := by
  have unclosed : ∀ front back, walk = front ++ back →
      scopesClosed front ≤ ([] : List (List String)).length + scopesOpened front := by
    intro front back same
    have room := keeps same
    omega
  obtain ⟨inner, added, found, count⟩ := scopes_foldl walk start unclosed
  rw [List.length_nil] at count
  exact ⟨inner, added, found, by omega⟩

end Collector

/-! ## Keeping the base scope -/

/-- Behind a walk that keeps the scope around it open the base scope is still there, below the
    scopes that the walk has opened and not closed. -/
theorem scopes_reading {walk : List Event} (keeps : KeepsOpen walk) (own : List String) :
    ∃ inner base, (Collector.reading own walk).scopes = inner ++ [base] ∧
      inner.length = scopesOpened walk - scopesClosed walk := by
  have start : Collector.scopes {} = [[]] := rfl
  obtain ⟨inner, added, found, count⟩ := Collector.scopes_foldl_of_keepsOpen keeps start
  exact ⟨inner, added ++ [], found, count⟩

/-- Behind a nested walk there is the base scope alone. -/
theorem exists_base {walk : List Event} (nested : Nested walk) (own : List String) :
    ∃ base, (Collector.reading own walk).scopes = [base] := by
  obtain ⟨inner, base, found, count⟩ := scopes_reading nested.keepsOpen own
  have even : scopesOpened walk = scopesClosed walk := by
    simpa using nested.countP_scopes
  obtain rfl : inner = [] := List.eq_nil_of_length_eq_zero (by omega)
  exact ⟨base, found⟩

/-- What it is for a collector to keep its scopes on a walk. -/
structure KeepsScopes (own : List String) (walk : List Event) : Prop where
  /-- There is always the base scope and, on top of it, one scope for each that is open. -/
  count : ∀ {front back : List Event}, walk = front ++ back →
    (Collector.reading own front).scopes.length = scopesOpened front - scopesClosed front + 1
  /-- A declared name is in the scope in which it was declared, as long as that scope stays open. -/
  declared : ∀ {front inside back : List Event} {name : String},
    walk = front ++ .declare name :: inside ++ back → KeepsOpen inside →
    ∃ scope, (Collector.reading own (front ++ .declare name :: inside)).scopes[
      scopesOpened inside - scopesClosed inside]? = some scope ∧ name ∈ scope

/-- A collector keeps its scopes on a walk that keeps the scope around it open. -/
theorem keepsScopes_of_keepsOpen {walk : List Event} (keeps : KeepsOpen walk) (own : List String) :
    KeepsScopes own walk := by
  constructor
  · rintro front back rfl
    obtain ⟨inner, base, found, count⟩ := scopes_reading keeps.front own
    rw [found, List.length_append, List.length_singleton, count]
  · rintro front inside back name rfl still
    rw [List.append_assoc] at keeps
    -- the scope in which the name is declared
    obtain ⟨top, outer, found⟩ :
        ∃ top outer, (Collector.reading own front).scopes = top :: outer := by
      obtain ⟨inner, base, found, -⟩ := scopes_reading keeps.front own
      cases inner with
      | nil => exact ⟨base, [], found⟩
      | cons top inner => exact ⟨top, inner ++ [base], found⟩
    have declared : (Collector.step own (Collector.reading own front) (.declare name)).scopes =
        (name :: top) :: outer := by
      rw [Collector.step, found]
    obtain ⟨inner, added, behind, count⟩ := Collector.scopes_foldl_of_keepsOpen still declared
    refine ⟨added ++ name :: top, ?_, by simp⟩
    rw [Collector.reading, List.foldl_append, List.foldl_cons, ← count]
    exact (congrArg (·[inner.length]?) behind).trans (by simp)

/-! ## Walks of trees -/

/-- What a collector finds declared in the base scope of a statement are the names that the
    statement declares around itself. -/
theorem mem_base_iff {s : Stmt} {own names : List String} {n : String}
    (base : (Collector.reading own s.walk).scopes = [names]) : n ∈ names ↔ n ∈ s.declaredNames := by
  have walk : Collects own n s.walk (s.mention .collector n) := collects_stmt s
  obtain ⟨added, free, read, declared, -⟩ := walk.2 [] [] .empty
  -- the same stack once as given and once as the names that are collected on the walk
  have same : [names] = [added ++ []] := by
    rw [← base, Collector.reading]
    exact congrArg Collector.scopes read
  obtain rfl : names = added := by simpa using same
  rw [declared, declares_stmt, decide_eq_true_eq]

/-- The walk of each statement, block and expression is well bracketed. So a collector that reads
    the walk of a statement always has a scope to declare a name in, keeps each name in the scope
    where it was declared until that scope is closed, and has the base scope alone in the end, which
    holds the names that the statement declares around itself. -/
theorem walks_wellBracketed :
    (∀ s : Stmt, WellBracketed (.stmt s) s.walk ∧ ∀ own, KeepsScopes own s.walk ∧
      ∃ names, (Collector.reading own s.walk).scopes = [names] ∧
        ∀ n, n ∈ names ↔ n ∈ s.declaredNames) ∧
      (∀ block : Block, WellBracketed .scope block.walk) ∧
      ∀ e : Expr, WellBracketed (.expr e) e.walk := by
  refine ⟨fun s => ?_, fun block => ?_, fun e => ?_⟩
  · obtain ⟨id, position, label, form⟩ := s
    have inside : Nested form.walk := form.brackets_walk []
    have bracketed : WellBracketed _ (Stmt.walk ⟨id, position, label, form⟩) :=
      inside.wellBracketed rfl rfl
    refine ⟨bracketed, fun own => ?_⟩
    obtain ⟨names, base⟩ := exists_base bracketed.nested own
    exact ⟨keepsScopes_of_keepsOpen bracketed.scopes own, names, base, fun n => mem_base_iff base⟩
  · obtain ⟨statements, labels⟩ := block
    have inside : Nested (Stmt.walkList statements) := Stmt.brackets_walkList statements []
    exact inside.wellBracketed rfl rfl
  · obtain ⟨position, form, type⟩ := e
    have inside : Nested (form.walk position) := form.brackets_walk position []
    exact inside.wellBracketed rfl rfl

end Dependency

end PackageCheck
