import PackageCheck.Proofs.Package.Failure
import PackageCheck.Proofs.Package.Statements
import PackageCheck.Proofs.Typing.Defining
import PackageCheck.Tree.Make

/-! # Types left open in an accepted package

Validation looks at the types of variables and of expressions, but not at what is behind a declared
type. A blank written inside the definition of a type, be it in an element of an alias, in a field
or in a method, stays open in an accepted package. Nothing else does, unless a form of variables
has lost its error. -/

namespace PackageCheck.Package

open Typing

open SymbolTable (Advances)

/-! ## Quiet checks of statements -/

theorem advances_checkTopLevel (file : String) (s : Stmt) {before : Typing.State}
    (nominal : before.symbols.Nominal)
    (unchanged : ((checkTopLevel file s).run before).2.failures = before.failures) :
    Advances (typeDecls s.walk) before.symbols ((checkTopLevel file s).run before).2.symbols := by
  have framed : Context.Nominal { file := file } := nofun
  have quiet : (recorded (checkStmt { file := file } s)).Quiet
      { before with tainted := false, uses := [] } _ ((checkTopLevel file s).run before).2 :=
    ⟨rfl, unchanged⟩
  have defines := (checkStmt_defines _ framed s).recorded
  exact (defines { before with tainted := false, uses := [] } _ _ nominal quiet).2.1

/-- The statements are checked where they were at the beginning, since each place comes once. -/
theorem advances_checkEach : ∀ {refs : List StmtRef} {files : List SourceFile}
    {state : Typing.State}, refs.Nodup → state.symbols.Nominal →
      (checkEach files refs state).2.1.failures = state.failures →
        Advances ((refs.filterMap (stmtAt? files)).flatMap fun placed => typeDecls placed.2.walk)
          state.symbols (checkEach files refs state).2.1.symbols
  | [], files, state, _, nominal, _ => .refl nominal
  | ref :: rest, files, state, distinct, nominal, unchanged => by
    obtain ⟨apart, distinct⟩ := List.nodup_cons.mp distinct
    cases found : stmtAt? files ref with
    | none =>
      rw [checkEach_of_none rest state found] at unchanged ⊢
      rw [List.filterMap_cons_none found]
      exact advances_checkEach distinct nominal unchanged
    | some place =>
      obtain ⟨name, s⟩ := place
      rw [checkEach_of_some rest state found] at unchanged ⊢
      rw [List.filterMap_cons_some found, List.flatMap_cons]
      dsimp only at unchanged ⊢
      have quiet := failures_checkTopLevel unchanged
      have head := advances_checkTopLevel name s nominal quiet
      have tail := advances_checkEach distinct head.nominal (unchanged.trans quiet.symm)
      have same : rest.filterMap (stmtAt? (setStmt files ref ((checkTopLevel name s).run state).1)) =
          rest.filterMap (stmtAt? files) := by
        refine List.filterMap_congr fun other member => ?_
        exact stmtAt?_setStmt_of_ne _ fun same => apart (same ▸ member)
      rw [same] at tail
      exact head.trans tail

/-! ## Declarations -/

/-- An order of the statements goes through all files, if they all belong to the package. -/
theorem mem_placed_iff {package : Package} {refs : List StmtRef}
    (perm : refs.Perm (package.topLevels.map (·.ref)))
    (own : ∀ file ∈ package.files, file.package = package.name) {s : Stmt} :
    (∃ placed ∈ refs.filterMap (stmtAt? package.files), placed.2 = s) ↔
      ∃ file ∈ package.files, s ∈ file.body := by
  constructor
  · rintro ⟨⟨name, s⟩, listed, rfl⟩
    obtain ⟨ref, -, held⟩ := List.mem_filterMap.mp listed
    obtain ⟨file, inFiles, held⟩ := Option.bind_eq_some_iff.mp held
    obtain ⟨_, inBody, same⟩ := Option.map_eq_some_iff.mp held
    cases same
    exact ⟨file, List.mem_of_getElem? inFiles, List.mem_of_getElem? inBody⟩
  · rintro ⟨file, inFiles, inBody⟩
    obtain ⟨i, atFile⟩ := List.getElem?_of_mem inFiles
    obtain ⟨j, atStmt⟩ := List.getElem?_of_mem inBody
    have top : TopLevel.ofStmt ⟨i, j⟩ s ∈ package.topLevels := by
      refine List.mem_flatMap.mpr ⟨(file, i), List.mem_zipIdx_iff_getElem?.mpr atFile, ?_⟩
      dsimp only
      rw [if_pos (own file inFiles)]
      exact List.mem_map.mpr ⟨(s, j), List.mem_zipIdx_iff_getElem?.mpr atStmt, rfl⟩
    have ordered : (⟨i, j⟩ : StmtRef) ∈ refs := perm.mem_iff.mpr (List.mem_map_of_mem top)
    exact ⟨(file.name, s), List.mem_filterMap.mpr ⟨_, ordered, by simp [stmtAt?, atFile, atStmt]⟩,
      rfl⟩

theorem mem_typeDecls_iff {package : Package} {refs : List StmtRef}
    (perm : refs.Perm (package.topLevels.map (·.ref)))
    (own : ∀ file ∈ package.files, file.package = package.name) {decl : String × Bool} :
    decl ∈ (refs.filterMap (stmtAt? package.files)).flatMap (fun placed => typeDecls placed.2.walk) ↔
      decl ∈ package.files.flatMap SourceFile.typeDecls := by
  simp only [List.mem_flatMap, SourceFile.typeDecls]
  constructor
  · rintro ⟨placed, listed, inside⟩
    obtain ⟨file, inFiles, inBody⟩ := (mem_placed_iff perm own).mp ⟨placed, listed, rfl⟩
    exact ⟨file, inFiles, placed.2, inBody, inside⟩
  · rintro ⟨file, inFiles, s, inBody, inside⟩
    obtain ⟨placed, listed, rfl⟩ := (mem_placed_iff perm own).mpr ⟨file, inFiles, inBody⟩
    exact ⟨placed, listed, inside⟩

/-- A package with a file of another package is not accepted. -/
theorem Accepts.own {package : Package} {order : List StmtRef} (accepts : package.Accepts order) :
    ∀ file ∈ package.files, file.package = package.name := by
  intro file inFiles
  have reported : package.mismatches <+: [] :=
    accepts.nothing_reported ▸
      (@grows_checkEach order package.files package.initialState).diagnostics
  have own := List.filterMap_eq_nil_iff.mp (List.prefix_nil.mp reported) file inFiles
  by_contra other
  simp [other] at own

/-! ## Symbols -/

theorem mem_entries {table : SymbolTable} {id : SymbolId} {symbol : Symbol} :
    (id, symbol) ∈ table.entries ↔
      ∃ index, id = .declared index ∧ table.get? id = some symbol := by
  simp only [SymbolTable.entries, List.mem_mapIdx]
  constructor
  · rintro ⟨index, bound, same⟩
    cases same
    exact ⟨index, rfl, by simp [SymbolTable.get?]⟩
  · rintro ⟨index, rfl, held⟩
    obtain ⟨bound, held⟩ := Array.getElem?_eq_some_iff.mp held
    exact ⟨index, by simpa using bound, by simp [held]⟩

/-- A variable has a complete type if it has a known one. -/
theorem complete_of_leftOver {table : SymbolTable} (nominal : table.Nominal)
    (sound : table.failed = []) (nothing : table.leftOver = []) {id : SymbolId} {v : Variable}
    (listed : (id, .var v) ∈ table.entries) : v.type.complete = true := by
  obtain ⟨index, rfl, held⟩ := mem_entries.mp listed
  have named : v.type.nominal = true := nominal _ _ held
  have none := List.filterMap_eq_nil_iff.mp nothing _ listed
  rw [Ty.complete_eq_known named]
  simpa [SymbolTable.isFailed, sound] using none

/-- The symbols of a table that advances from nothing are complete if its variables are and its
    definitions are filled in. -/
theorem complete_iff_of_advances {decls : List (String × Bool)} {table : SymbolTable}
    (advances : Advances decls .empty table)
    (typed : ∀ id v, (id, .var v) ∈ table.entries → v.type.complete = true) :
    (∀ entry ∈ table.entries, entry.2.complete = true) ↔ ∀ decl ∈ decls, decl.2 = true := by
  constructor
  · intro complete decl member
    obtain ⟨id, declared, held, rfl⟩ := advances.defined decl member
    cases id with
    | builtin index =>
      -- the names of simple types lead to no other type
      have prelude : ∀ symbol ∈ Prelude.symbols, symbol.complete = true := by decide
      exact prelude _ (List.mem_of_getElem? held)
    | declared index => exact complete _ (mem_entries.mpr ⟨index, rfl, held⟩)
  · rintro filled ⟨id, symbol⟩ listed
    obtain ⟨index, rfl, held⟩ := mem_entries.mp listed
    cases symbol with
    | var v => exact typed _ v listed
    | type decl =>
      rcases advances.declared _ decl held with before | member
      · cases before
      · exact filled _ member
    | label label => rfl
    | package name => rfl

/-! ## Accepted packages -/

/-- What a package declares in an order of its statements, if nothing fails. -/
theorem advances_of_accepts {package : Package} {refs : List StmtRef}
    (perm : refs.Perm (package.topLevels.map (·.ref))) (accepts : package.Accepts refs)
    (fresh : package.symbols = .empty)
    (clean : (checkEach package.files refs package.initialState).2.1.failures = []) :
    Advances (package.files.flatMap SourceFile.typeDecls) .empty
      (checkEach package.files refs package.initialState).2.1.symbols := by
  have distinct : refs.Nodup := perm.nodup_iff.mpr (nodup_topLevels package)
  have started : package.initialState.symbols = .empty := fresh
  have nominal : package.initialState.symbols.Nominal := started ▸ .empty
  have advances := advances_checkEach distinct nominal clean
  rw [started] at advances
  exact advances.of_mem_iff fun decl => mem_typeDecls_iff perm accepts.own

/-- In an accepted package that has lost no error, every variable has a complete type, and every
    declared type a complete one behind it exactly if no blank is written inside a definition. -/
theorem complete_iff_filled (package : Package) (accepted : package.check.2 = [])
    (kept : ∀ failure ∈ package.run.state.failures, failure.lost = false) :
    (∀ id v, (id, .var v) ∈ package.check.1.symbols.entries → v.type.complete = true) ∧
      ((∀ entry ∈ package.check.1.symbols.entries, entry.2.complete = true) ↔
        ∀ decl ∈ package.files.flatMap SourceFile.typeDecls, decl.2 = true) := by
  have clean := clean_of_accepted accepted kept
  obtain ⟨sorted, ordered, accepts⟩ := accepted_iff.mp accepted
  rw [run_of_order_eq_ok ordered] at clean
  have perm := (perm_of_order_eq_ok ordered).map (·.ref)
  have advances := advances_of_accepts perm accepts rfl clean.failures
  have nothing := (List.append_eq_nil_iff.mp accepts.nothing_left).2
  have typed := @complete_of_leftOver _ advances.nominal clean.failed nothing
  rw [check, run_of_order_eq_ok ordered, ← SourceFile.typeDecls_numberList package.files 0]
  exact ⟨fun _ _ => typed, complete_iff_of_advances advances fun _ _ => typed⟩

/-- The package with a struct `P` that has a field of type `T` and a method that returns a `T`, a
    function with a type `T` of its own, and `type T []int` behind them. -/
def structOfSlice : Package :=
  .ofFiles "main" [⟨"m.hv", "main",
    [.struct "P" [⟨"x", {}, .ofName "T"⟩]
      [.make (some "scale") none [.make (some "n") (.ofName "int")] [.make none (.ofName "T")]
        [.ofForm (.ret [.compound (some (.ofName "T")) [⟨none, .name "n"⟩]])]],
     .func "f" [.make (some "p") (.ofName "P")] []
      [.typeAlias "T" (.ofName "string"), .var "t" (some (.ofName "T")) none],
     .typeAlias "T" (.slice (.ofName "int"))]⟩]

theorem structOfSlice_complete : structOfSlice.check.2 = [] ∧
    (∀ failure ∈ structOfSlice.run.state.failures, failure.lost = false) ∧
      ∀ entry ∈ structOfSlice.check.1.symbols.entries, entry.2.complete = true := by
  have accepted : structOfSlice.check.2 = [] := by decide +kernel
  have kept : ∀ failure ∈ structOfSlice.run.state.failures, failure.lost = false := by
    decide +kernel
  have filled : ∀ decl ∈ structOfSlice.files.flatMap SourceFile.typeDecls, decl.2 = true := by
    decide
  exact ⟨accepted, kept, (complete_iff_filled structOfSlice accepted kept).2.mpr filled⟩

/-- The package with `type T []_`, and two literals of type `T`, one of an integer and one of a
    string. -/
def elementOfTwoTypes : Package :=
  .ofFiles "main" [⟨"m.hv", "main",
    [.typeAlias "T" (.slice .blank),
     .var "a" none (some (.compound (some (.ofName "T")) [⟨none, .literal .int "1"⟩])),
     .var "b" none (some (.compound (some (.ofName "T")) [⟨none, .string "x"⟩]))]⟩]

/-- The package is accepted and has failed at nothing, but the element of its type stays open. -/
theorem elementOfTwoTypes_accepted :
    elementOfTwoTypes.check.2 = [] ∧ elementOfTwoTypes.run.state.failures = [] ∧
      ¬ ∀ entry ∈ elementOfTwoTypes.check.1.symbols.entries, entry.2.complete = true := by
  decide +kernel

end PackageCheck.Package
