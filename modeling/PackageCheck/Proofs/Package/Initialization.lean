import PackageCheck.Proofs.Package.Validity
import PackageCheck.Proofs.Typing.Introduction

/-! # The order of initialization

The statements of an accepted package are initialized in the order in which they were checked. In
front of a statement only the symbols of the statements before it exist, so no name in it, however
deep inside, is bound to something that is declared later. -/

namespace PackageCheck

/-- Whether a name inside a checked statement, at any depth, is bound to a symbol. -/
def Stmt.BindsTo (s : Stmt) (id : SymbolId) : Prop :=
  ∃ ident : Ident, Finding.ident ident ∈ s.findings ∧ ident.symbol = some id

/-- A table as a world, in which every number is that of a loop. -/
def World.ofTable (table : SymbolTable) : World where
  symbols := table
  IsStmt _ := True
  IsLoop _ := True

/-- Whether the handles in a state are valid from now on. -/
def Typing.State.Settled (s : State) : Prop :=
  ∀ table, s.symbols.Within table → s.ValidIn (.ofTable table)

namespace Package

open Typing

/-! ## Places -/

theorem stmtAt?_eq_stmt? (package : Package) (ref : StmtRef) :
    stmtAt? package.files ref =
      (package.stmt? ref).map fun placed => (placed.1.name, placed.2) := by
  simp only [stmt?, stmtAt?]
  cases package.files[ref.file]? with
  | none => rfl
  | some file => cases found : file.body[ref.index]? <;> simp [found]

theorem exists_stmt? (package : Package) {ref : StmtRef} {name : String} {s : Stmt}
    (held : stmtAt? package.files ref = some (name, s)) :
    ∃ file, package.stmt? ref = some (file, s) := by
  rw [stmtAt?_eq_stmt?] at held
  obtain ⟨⟨file, _⟩, found, same⟩ := Option.map_eq_some_iff.mp held
  cases same
  exact ⟨file, found⟩

/-- Whether a statement of a package is at a place, in a file that belongs to the package. -/
def HasOwn (package : Package) (ref : StmtRef) : Prop :=
  ∃ file s, package.stmt? ref = some (file, s) ∧ file.package = package.name

theorem hasOwn_iff {package : Package} {ref : StmtRef} :
    package.HasOwn ref ↔ ∃ file, package.files[ref.file]? = some file ∧
      ref.index < file.body.length ∧ file.package = package.name := by
  constructor
  · rintro ⟨file, s, found, own⟩
    obtain ⟨file', inFiles, found⟩ := Option.bind_eq_some_iff.mp found
    obtain ⟨s', inBody, same⟩ := Option.bind_eq_some_iff.mp found
    cases same
    exact ⟨file, inFiles, (List.getElem?_eq_some_iff.mp inBody).1, own⟩
  · rintro ⟨file, inFiles, bound, own⟩
    refine ⟨file, file.body[ref.index], ?_, own⟩
    simp [stmt?, inFiles, bound]

/-- The places of the top-level statements are those of the statements in files of the package. -/
theorem mem_map_ref_topLevels {package : Package} {ref : StmtRef} :
    ref ∈ package.topLevels.map (·.ref) ↔ package.HasOwn ref := by
  rw [hasOwn_iff]
  constructor
  · intro listed
    obtain ⟨top, member, rfl⟩ := List.mem_map.mp listed
    obtain ⟨⟨file, i⟩, inFiles, inside⟩ := List.mem_flatMap.mp member
    have place := List.mem_zipIdx_iff_getElem?.mp inFiles
    dsimp only at inside place
    split at inside
    case isTrue own =>
      obtain ⟨⟨s, j⟩, inBody, rfl⟩ := List.mem_map.mp inside
      have index := List.mem_zipIdx_iff_getElem?.mp inBody
      exact ⟨file, place, (List.getElem?_eq_some_iff.mp index).1, own⟩
    case isFalse => cases inside
  · rintro ⟨file, place, bound, own⟩
    refine List.mem_map.mpr ⟨.ofStmt ref file.body[ref.index], List.mem_flatMap.mpr
      ⟨(file, ref.file), List.mem_zipIdx_iff_getElem?.mpr place, ?_⟩, rfl⟩
    dsimp only
    rw [if_pos own]
    refine List.mem_map.mpr ⟨(file.body[ref.index], ref.index), ?_, rfl⟩
    exact List.mem_zipIdx_iff_getElem?.mpr (List.getElem?_eq_getElem bound)

/-- Packages that look the same have their statements at the same places. -/
theorem HasOwn.of_bare {package other : Package} {ref : StmtRef} (own : package.HasOwn ref)
    (name : package.name = other.name)
    (files : package.files.map SourceFile.bare = other.files.map SourceFile.bare) :
    other.HasOwn ref := by
  obtain ⟨file, inFiles, bound, own⟩ := hasOwn_iff.mp own
  have inOther : (other.files.map SourceFile.bare)[ref.file]? = some file.bare := by
    rw [← files, List.getElem?_map, inFiles]
    rfl
  rw [List.getElem?_map] at inOther
  obtain ⟨file', place, same⟩ := Option.map_eq_some_iff.mp inOther
  refine hasOwn_iff.mpr ⟨file', place, ?_, ?_⟩
  · have bodies := congrArg (fun file => file.body.length) same
    simp only [SourceFile.bare, SourceFile.erase, Stmt.eraseList_eq_map, List.length_map] at bodies
    exact bodies ▸ bound
  · have clauses : file'.bare.package = file.bare.package := congrArg SourceFile.package same
    exact clauses.trans (own.trans name)

/-! ## Statements -/

section Statement

variable {file : String} {s : Stmt} {before : State} {id : SymbolId}

theorem settled_checkTopLevel (settled : before.Settled)
    (blank : ∀ table, (World.ofTable table).Allows s.findings) :
    ((checkTopLevel file s).run before).2.Settled := by
  intro table within
  have valid := settled table ((within_checkTopLevel file s before).trans within)
  exact (upholds_checkTopLevel (blank table) valid
    ((SymbolTable.keptIn_symbols (.ofTable table)).of_within within)).1

/-- What a name in a checked statement is bound to is in the table behind the statement. -/
theorem held_of_bindsTo (settled : before.Settled)
    (blank : ∀ table, (World.ofTable table).Allows s.findings)
    (binds : ((checkTopLevel file s).run before).1.BindsTo id) :
    ∃ symbol, ((checkTopLevel file s).run before).2.symbols.get? id = some symbol := by
  obtain ⟨ident, inside, bound⟩ := binds
  have valid := settled _ (within_checkTopLevel file s before)
  have checked := (upholds_checkTopLevel (blank _) valid
    (SymbolTable.keptIn_symbols (.ofTable _))).2
  rcases checked _ inside id bound with ⟨v, held, -⟩ | ⟨decl, held, -⟩
  · exact ⟨_, held⟩
  · exact ⟨_, held⟩

theorem introduces_checkTopLevel {name : String}
    (found : ((checkTopLevel file s).run before).2.scopes.inner.find? name = some id) :
    before.scopes.inner.find? name = some id ∨ (before.symbols.get? id = none ∧
      id ∈ ((checkTopLevel file s).run before).1.declaredIds) :=
  Check.Introduces.recorded (D := Stmt.declaredIds) (checkStmt_introduces { file := file } s)
    { before with tainted := false, uses := [] } name id found

end Statement

/-- A name at the top of a package leads to a new symbol, unless it did so before. -/
theorem new_checkEach {refs : List StmtRef} {files : List SourceFile} {before : State}
    {name : String} {id : SymbolId}
    (found : (checkEach files refs before).2.1.scopes.inner.find? name = some id) :
    before.scopes.inner.find? name = some id ∨ before.symbols.get? id = none := by
  induction refs generalizing files before with
  | nil => exact Or.inl found
  | cons ref rest hypothesis =>
    cases placed : stmtAt? files ref with
    | none =>
      rw [checkEach_of_none rest before placed] at found
      exact hypothesis found
    | some place =>
      rw [checkEach_of_some rest before placed] at found
      rcases hypothesis found with behind | new
      · exact (introduces_checkTopLevel behind).imp_right And.left
      · refine Or.inr ?_
        cases held : before.symbols.get? id with
        | none => rfl
        | some symbol =>
          have kept := (within_checkTopLevel place.1 place.2 before).kept id symbol held
          cases new.symm.trans kept

/-- The first statement is checked in the state at the beginning, and stays as it is then. -/
theorem stmtAt?_checkEach_self {refs : List StmtRef} {files : List SourceFile} {ref : StmtRef}
    {name : String} {s : Stmt} (before : State) (apart : ref ∉ refs)
    (found : stmtAt? files ref = some (name, s)) :
    stmtAt? (checkEach files (ref :: refs) before).1 ref =
      some (name, ((checkTopLevel name s).run before).1) := by
  rw [checkEach_of_some refs before found]
  exact (stmtAt?_checkEach_of_notMem apart).trans (stmtAt?_setStmt_self _ found)

/-- Whether a symbol is declared by one of the first statements, up to a position. -/
def DeclaredUpTo (files : List SourceFile) (refs : List StmtRef) (p : Nat) (id : SymbolId) : Prop :=
  ∃ q ≤ p, ∃ ref name s, refs[q]? = some ref ∧ stmtAt? files ref = some (name, s) ∧
    id ∈ s.declaredIds

theorem DeclaredUpTo.cons {files : List SourceFile} {refs : List StmtRef} {p : Nat}
    {id : SymbolId} (declared : DeclaredUpTo files refs p id) (ref : StmtRef) :
    DeclaredUpTo files (ref :: refs) (p + 1) id := by
  obtain ⟨q, bound, other, name, s, listed, held, member⟩ := declared
  exact ⟨q + 1, Nat.succ_le_succ bound, other, name, s, listed, held, member⟩

/-- A name in a statement is bound to nothing at the top of the package but what was there before
    the first statement, or is declared up to this statement. -/
theorem declared_checkEach {refs : List StmtRef} {files : List SourceFile} {before : State}
    (distinct : refs.Nodup) (settled : before.Settled)
    (blank : ∀ ref ∈ refs, ∀ name s, stmtAt? files ref = some (name, s) →
      ∀ table, (World.ofTable table).Allows s.findings)
    {p : Nat} {ref : StmtRef} {file name : String} {s : Stmt} {id : SymbolId}
    (listed : refs[p]? = some ref)
    (held : stmtAt? (checkEach files refs before).1 ref = some (file, s)) (binds : s.BindsTo id)
    (found : (checkEach files refs before).2.1.scopes.inner.find? name = some id) :
    before.scopes.inner.find? name = some id ∨
      DeclaredUpTo (checkEach files refs before).1 refs p id := by
  induction refs generalizing files before p with
  | nil => cases listed
  | cons first rest hypothesis =>
    obtain ⟨apart, distinct⟩ := List.nodup_cons.mp distinct
    cases placed : stmtAt? files first with
    | none =>
      rw [checkEach_of_none rest before placed] at held found ⊢
      cases p with
      | zero =>
        cases listed
        rw [stmtAt?_checkEach_of_notMem apart, placed] at held
        cases held
      | succ p =>
        have others := hypothesis distinct settled
          (fun other member => blank other (List.mem_cons_of_mem _ member)) listed held found
        exact others.imp_right fun declared => declared.cons first
    | some place =>
      obtain ⟨firstFile, firstStmt⟩ := place
      have written := blank first List.mem_cons_self firstFile firstStmt placed
      have checked := stmtAt?_checkEach_self before apart placed
      -- a name that is there behind the first statement was there before, or is declared by it
      have atFirst : ∀ p, ((checkTopLevel firstFile firstStmt).run before).2.scopes.inner.find?
          name = some id → before.scopes.inner.find? name = some id ∨
            DeclaredUpTo (checkEach files (first :: rest) before).1 (first :: rest) p id := by
        intro p behind
        refine (introduces_checkTopLevel behind).imp_right fun ⟨_, declares⟩ => ?_
        exact ⟨0, Nat.zero_le p, first, firstFile, _, rfl, checked, declares⟩
      cases p with
      | zero =>
        cases listed
        cases checked.symm.trans held
        rw [checkEach_of_some rest before placed] at found
        -- what this statement is bound to is there behind it, so the rest does not declare it
        refine atFirst 0 ((new_checkEach found).resolve_right fun new => ?_)
        obtain ⟨symbol, there⟩ := held_of_bindsTo settled written binds
        cases new.symm.trans there
      | succ p =>
        rw [checkEach_of_some rest before placed] at held found
        have others := hypothesis distinct (settled_checkTopLevel settled written)
          (fun other member name s found => ?_) listed held found
        · rcases others with behind | declared
          · exact atFirst (p + 1) behind
          · refine Or.inr ?_
            rw [checkEach_of_some rest before placed]
            exact declared.cons first
        · have ne : other ≠ first := fun same => apart (same ▸ member)
          rw [stmtAt?_setStmt_of_ne _ ne] at found
          exact blank other (List.mem_cons_of_mem _ member) name s found

/-! ## Accepted packages -/

theorem settled_initialState {package : Package} (scopes : package.scopes = .bottom)
    (symbols : package.symbols = .empty) : package.initialState.Settled :=
  fun _ _ => validIn_initialState scopes symbols

/-- Whether a checked package comes with a safe order for the statements of the package that has
    been checked. It lists each of them once, and what a name in a statement is bound to at the top
    of the package is declared by the statement itself or by one in front of it. -/
structure SafeOrder (package checked : Package) : Prop where
  once : checked.order.Nodup
  complete : ∀ ref, ref ∈ checked.order ↔ package.HasOwn ref
  earlier : ∀ (p : Nat) (ref : StmtRef) (file : SourceFile) (s : Stmt) (id : SymbolId),
    checked.order[p]? = some ref → checked.stmt? ref = some (file, s) → s.BindsTo id →
      (∃ name, checked.scopes.findLocal? name = some id) →
        ∃ q ≤ p, ∃ (ref' : StmtRef) (file' : SourceFile) (s' : Stmt),
          checked.order[q]? = some ref' ∧ checked.stmt? ref' = some (file', s') ∧
            id ∈ s'.declaredIds

/-- The order of an accepted package is safe for initialization. -/
theorem safeOrder_check (package : Package) (written : AsWritten package.files)
    (accepted : package.check.2 = []) : SafeOrder package package.check.1 := by
  obtain ⟨sorted, ordered, _⟩ := accepted_iff.mp accepted
  have places := (perm_of_order_eq_ok ordered).map (·.ref)
  have distinct : (sorted.map (·.ref)).Nodup := places.nodup_iff.mpr (nodup_topLevels _)
  rw [check, run_of_order_eq_ok ordered]
  constructor
  case once => exact distinct
  case complete =>
    have same := SourceFile.bare_numberList package.files 0
    intro ref
    refine places.mem_iff.trans (mem_map_ref_topLevels.trans ?_)
    exact ⟨fun own => own.of_bare rfl same, fun own => own.of_bare rfl same.symm⟩
  case earlier =>
    rintro p ref file s id listed held binds ⟨name, found⟩
    -- without annotations no statement is bound to anything before it is checked
    have blank : ∀ table, (World.ofTable table).Allows
        (SourceFile.findings package.prepare.files) := by
      intro table
      rw [← show _ = _ from asWritten_prepare written, SourceFile.findings_erase]
      exact World.allows_erase fun _ _ _ => ⟨True.intro, fun _ => True.intro⟩
    have held' := (stmtAt?_eq_stmt? _ ref).trans (congrArg _ held)
    have declared := declared_checkEach distinct (settled_initialState rfl rfl)
      (fun _ _ _ _ found table => allows_of_stmtAt? (blank table) found) listed held' binds found
    rcases declared with before | ⟨q, bound, ref', name', s', listed', held', declares⟩
    · cases before
    · obtain ⟨file', there⟩ := exists_stmt? (package.prepare.checkOrdered _).package held'
      exact ⟨q, bound, ref', file', s', listed', there, declares⟩

theorem safeOrder_sumOfElement : AsWritten sumOfElement.files ∧ sumOfElement.check.2 = [] ∧
    SafeOrder sumOfElement sumOfElement.check.1 := by
  have accepted : sumOfElement.check.2 = [] := by decide +kernel
  exact ⟨rfl, accepted, safeOrder_check sumOfElement rfl accepted⟩

end Package

end PackageCheck
