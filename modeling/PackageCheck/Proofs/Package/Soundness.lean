import PackageCheck.Proofs.Package.Statements
import PackageCheck.Proofs.Tree.Numbering
import PackageCheck.Proofs.Typing.Soundness
import PackageCheck.Tree.Make

/-! # The annotations of an accepted package

A package that arrives without types and is accepted has sound annotations: every expression in its
statements has a known type, which obeys the rule of the expression. -/

namespace PackageCheck.Package

open Typing

/-! ## The state on the way -/

theorem wellScoped_initialState {package : Package} (scopes : package.scopes = .bottom) :
    package.initialState.WellScoped := by
  intro scope member name id held
  rcases List.mem_cons.mp member with rfl | member
  · cases held
  · rw [initialState, scopes] at member
    rcases List.mem_cons.mp member with rfl | member
    · have listed := NameMap.mem_of_find?_ofList held
      simp only [Prelude.functions, Prelude.signatures, List.mapIdx_cons, List.mapIdx_nil,
        List.mem_cons, List.not_mem_nil, or_false, Prod.mk.injEq] at listed
      rcases listed with ⟨rfl, rfl⟩ | ⟨rfl, rfl⟩
      · exact ⟨_, rfl, rfl⟩
      · exact ⟨_, rfl, rfl⟩
    · cases member

/-- The names of a statement that has been used do not count for the scopes. -/
theorem wellScoped_checkTopLevel (file : String) (s : Stmt) {before : Typing.State}
    (named : before.WellScoped) : ((checkTopLevel file s).run before).2.WellScoped :=
  have started : State.WellScoped { before with tainted := false, uses := [] } := named
  started.grows ((recorded (checkStmt { file := file } s)).grows _)

theorem within_checkTopLevel (file : String) (s : Stmt) (before : Typing.State) :
    before.symbols.Within ((checkTopLevel file s).run before).2.symbols :=
  ((recorded (checkStmt { file := file } s)).grows
    { before with tainted := false, uses := [] }).symbols.toWithin

theorem within_checkEach : ∀ {refs : List StmtRef} {files : List SourceFile}
    {state : Typing.State}, state.symbols.Within (checkEach files refs state).2.1.symbols
  | [], files, state => (SymbolTable.Extends.refl _).toWithin
  | ref :: rest, files, state => by
    cases found : stmtAt? files ref with
    | none =>
      rw [checkEach_of_none rest state found]
      exact within_checkEach
    | some place =>
      rw [checkEach_of_some rest state found]
      exact (within_checkTopLevel _ _ state).trans within_checkEach

/-! ## Checked statements -/

theorem justifies_checkTopLevel {table : SymbolTable} (file : String) (s : Stmt)
    {before : Typing.State} (named : before.WellScoped)
    (within : ((checkTopLevel file s).run before).2.symbols.Within table) :
    Justifies table s.walk (((checkTopLevel file s).run before).1.parts table) :=
  have started : State.WellScoped { before with tainted := false, uses := [] } := named
  (checkStmt_sound { file := file } s).recorded _ started within

/-- The expressions of a checked statement are justified. -/
theorem justifies_checkEach {table : SymbolTable} : ∀ {refs : List StmtRef}
    {files : List SourceFile} {state : Typing.State}, refs.Nodup → state.WellScoped →
      (checkEach files refs state).2.1.symbols.Within table → ∀ ref ∈ refs, ∀ {name s},
        stmtAt? (checkEach files refs state).1 ref = some (name, s) → ∃ name' before,
          stmtAt? files ref = some (name', before) ∧ Justifies table before.walk (s.parts table)
  | [], _, _, _, _, _, _, member, _, _, _ => by cases member
  | ref :: rest, files, state, distinct, named, within, other, member, name, s, held => by
    obtain ⟨apart, distinct⟩ := List.nodup_cons.mp distinct
    cases found : stmtAt? files ref with
    | none =>
      rw [checkEach_of_none rest state found] at within held
      rcases List.mem_cons.mp member with rfl | member
      · rw [stmtAt?_checkEach_of_notMem apart, found] at held
        cases held
      · exact justifies_checkEach distinct named within other member held
    | some place =>
      obtain ⟨file, before⟩ := place
      rw [checkEach_of_some rest state found] at within held
      rcases List.mem_cons.mp member with rfl | member
      · rw [stmtAt?_checkEach_of_notMem apart, stmtAt?_setStmt_self _ found] at held
        cases held
        refine ⟨_, before, found, justifies_checkTopLevel _ before named ?_⟩
        exact within_checkEach.trans within
      · obtain ⟨name', before', held', justifies⟩ := justifies_checkEach distinct
          (wellScoped_checkTopLevel file before named) within other member held
        have ne : other ≠ ref := fun same => apart (same ▸ member)
        exact ⟨name', before', (stmtAt?_setStmt_of_ne _ ne).symm.trans held', justifies⟩

/-! ## Accepted packages -/

/-- Whether no expression of the files has a type yet. -/
def Unannotated (files : List SourceFile) : Prop :=
  ∀ file ∈ files, ∀ s ∈ file.body, Untyped s.walk

/-- Whether an event enters an expression that has a type. -/
def entersTyped : Event → Bool
  | .enterExpr e => !e.type.isUnknown
  | _ => false

theorem untyped_iff {walk : List Event} :
    Untyped walk ↔ ∀ event ∈ walk, entersTyped event = false := by
  constructor
  · intro untyped event member
    cases event with
    | enterExpr e => simp [entersTyped, untyped e member, Ty.isUnknown]
    | _ => rfl
  · intro plain e entered
    have unknown := plain _ entered
    cases type : e.type with
    | unknown => rfl
    | _ => simp [entersTyped, type, Ty.isUnknown] at unknown

instance : DecidablePred Untyped := fun _ =>
  decidable_of_iff _ untyped_iff.symm

instance (files : List SourceFile) : Decidable (Unannotated files) :=
  inferInstanceAs (Decidable (∀ file ∈ files, ∀ s ∈ file.body, Untyped s.walk))

/-- Numbers are no types. -/
theorem unannotated_prepare {package : Package} (bare : Unannotated package.files) :
    Unannotated package.prepare.files := by
  intro file inFiles s inBody e entered
  obtain ⟨file', listed, n, rfl⟩ := SourceFile.exists_of_mem_numberList inFiles
  obtain ⟨s', inBody', n', rfl⟩ := Stmt.exists_of_mem_numberList inBody
  obtain ⟨e', entered', type⟩ := (s'.sameWalk_number n').exists_enterExpr entered
  exact type ▸ bare file' listed s' inBody' e' entered'

theorem untyped_of_stmtAt? {files : List SourceFile} (bare : Unannotated files) {ref : StmtRef}
    {name : String} {s : Stmt} (found : stmtAt? files ref = some (name, s)) : Untyped s.walk := by
  obtain ⟨file, inFiles, found⟩ := Option.bind_eq_some_iff.mp found
  obtain ⟨_, inBody, same⟩ := Option.map_eq_some_iff.mp found
  cases same
  exact bare file (List.mem_of_getElem? inFiles) s (List.mem_of_getElem? inBody)

/-- Validation finds every expression without a known type. -/
theorem known_of_validate {statements : List (String × Stmt)} {table : SymbolTable}
    (valid : validate statements table = []) {name : String} {s : Stmt}
    (listed : (name, s) ∈ statements) {e : Expr} (entered : .enterExpr e ∈ s.walk)
    (full : e.isBlank = false) : e.type.known = true := by
  obtain ⟨valid, _⟩ := List.append_eq_nil_iff.mp valid
  have nothing : s.leftOver name = [] := List.flatMap_eq_nil_iff.mp valid _ listed
  have none := List.filterMap_eq_nil_iff.mp nothing _ entered
  simpa [Event.leftOver?, full] using none

theorem obeys_of_accepts {package : Package} {order : List StmtRef} {table : SymbolTable}
    (scopes : package.scopes = .bottom) (distinct : order.Nodup)
    (bare : Unannotated package.files) (accepts : package.Accepts order)
    (final : (checkEach package.files order package.initialState).2.1.symbols = table)
    {ref : StmtRef} (ordered : ref ∈ order) {name : String} {s : Stmt}
    (held : stmtAt? (checkEach package.files order package.initialState).1 ref = some (name, s)) :
    ∀ e ∈ s.parts table, e.isBlank = false → e.type.known = true ∧ e.form.Obeys table e.type := by
  intro e member full
  have placed := List.mem_filterMap.mpr ⟨ref, ordered, held⟩
  have known : ∀ x ∈ s.parts table, x.isBlank = false → x.type.known = true :=
    fun x inside => known_of_validate accepts.nothing_left placed (Stmt.enter_mem_walk inside)
  have within : (checkEach package.files order package.initialState).2.1.symbols.Within table :=
    final ▸ (SymbolTable.Extends.refl _).toWithin
  obtain ⟨_, before, found, justifies⟩ := justifies_checkEach distinct
    (wellScoped_initialState scopes) within ref ordered held
  refine ⟨known e member full, ?_⟩
  rcases justifies (untyped_of_stmtAt? bare found) e member with blank | unknown | sound
  · simp [blank] at full
  · simpa [unknown, Ty.known] using known e member full
  · exact sound.obeys fun x inside => known x (Expr.mem_of_mem_form_parts member inside)

/-- In an accepted package that arrives without annotations, every expression has a known type,
    which obeys the rule of the expression. -/
theorem obeys_of_accepted (package : Package) (bare : Unannotated package.files)
    (accepted : package.check.2 = []) : ∀ ordered ∈ package.check.1.orderedStatements,
      ∀ e ∈ ordered.2.parts package.check.1.symbols, e.isBlank = false →
        e.type.known = true ∧ e.form.Obeys package.check.1.symbols e.type := by
  obtain ⟨sorted, ordered, accepts⟩ := accepted_iff.mp accepted
  have distinct : (sorted.map (·.ref)).Nodup :=
    ((perm_of_order_eq_ok ordered).map _).nodup_iff.mpr (nodup_topLevels _)
  rw [check, run_of_order_eq_ok ordered]
  rintro ⟨file, s⟩ listed
  have placed := List.mem_map_of_mem (f := fun placed => (placed.1.name, placed.2)) listed
  rw [orderedStatements_eq] at placed
  obtain ⟨ref, inOrder, held⟩ := List.mem_filterMap.mp placed
  exact obeys_of_accepts rfl distinct (unannotated_prepare bare) accepts rfl inOrder held

/-- The package with `var n = m["a"] + 2`, `var m = M{"a": 1}` and `type M map[string]int`. -/
def sumOfElement : Package :=
  .ofFiles "main" [⟨"m.hv", "main",
    [.var "n" none (some (.ofForm (.binary .add
      (.ofForm (.index (.name "m") (.string "a"))) (.literal .int "2")))),
     .var "m" none (some (.compound (some (.ofName "M")) [⟨some (.string "a"), .literal .int "1"⟩])),
     .typeAlias "M" (.map (.ofName "string") (.ofName "int"))]⟩]

theorem obeys_sumOfElement : sumOfElement.check.2 = [] ∧
    ∀ ordered ∈ sumOfElement.check.1.orderedStatements,
      ∀ e ∈ ordered.2.parts sumOfElement.check.1.symbols, e.isBlank = false →
        e.type.known = true ∧ e.form.Obeys sumOfElement.check.1.symbols e.type := by
  have accepted : sumOfElement.check.2 = [] := by decide +kernel
  exact ⟨accepted, obeys_of_accepted sumOfElement (by decide) accepted⟩

end PackageCheck.Package
