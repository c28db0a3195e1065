import PackageCheck.Proofs.Package.Frame
import PackageCheck.Proofs.Typing.Validity

/-! # The handles of a checked package

After a check of files without annotations, whatever the check has found, every handle in the files
and in the symbol table leads to something of the kind and the name that is meant. -/

namespace PackageCheck.Package

open Typing

/-- Whether files are as they were written, but for the numbers of their statements. -/
def AsWritten (files : List SourceFile) : Prop :=
  files.map (SourceFile.erase id) = files

/-- What the handles of a package may lead to: the symbols of its table, and the statements in its
    files. -/
def world (package : Package) : World where
  symbols := package.symbols
  IsStmt id := ∃ isLoop, Finding.stmt id isLoop ∈ SourceFile.findings package.files
  IsLoop id := Finding.stmt id true ∈ SourceFile.findings package.files

variable {world : World}

/-! ## Files -/

theorem allows_files {files : List SourceFile} :
    world.Allows (SourceFile.findings files) ↔
      ∀ file ∈ files, ∀ s ∈ file.body, world.Allows s.findings := by
  have inFile : ∀ statements : List Stmt, world.Allows (Stmt.findingsList statements) ↔
      ∀ s ∈ statements, world.Allows s.findings := by
    intro statements
    induction statements with
    | nil => exact ⟨fun _ => nofun, fun _ => nofun⟩
    | cons s rest hypothesis =>
      rw [Stmt.findingsList, World.allows_append, hypothesis, List.forall_mem_cons]
  simp only [← inFile]
  constructor
  · intro allowed file member finding inside
    exact allowed finding (List.mem_flatMap.mpr ⟨file, member, inside⟩)
  · intro allowed finding inside
    obtain ⟨file, member, inside⟩ := List.mem_flatMap.mp inside
    exact allowed file member finding inside

theorem allows_setStmt {files : List SourceFile} {s : Stmt} (ref : StmtRef)
    (allowed : world.Allows (SourceFile.findings files)) (own : world.Allows s.findings) :
    world.Allows (SourceFile.findings (setStmt files ref s)) := by
  rw [allows_files] at allowed ⊢
  intro file member s' inside
  obtain ⟨place, bound, rfl⟩ := List.mem_iff_getElem.mp member
  simp only [setStmt, List.getElem_modify] at inside
  split at inside
  · rcases List.mem_or_eq_of_mem_set inside with before | rfl
    · exact allowed _ (List.getElem_mem _) s' before
    · exact own
  · exact allowed _ (List.getElem_mem _) s' inside

theorem allows_of_stmtAt? {files : List SourceFile} {ref : StmtRef} {name : String} {s : Stmt}
    (allowed : world.Allows (SourceFile.findings files))
    (found : stmtAt? files ref = some (name, s)) : world.Allows s.findings := by
  obtain ⟨file, inFiles, found⟩ := Option.bind_eq_some_iff.mp found
  obtain ⟨_, inBody, same⟩ := Option.map_eq_some_iff.mp found
  cases same
  exact allows_files.mp allowed file (List.mem_of_getElem? inFiles) s (List.mem_of_getElem? inBody)

/-- Files that look the same, but for annotations, hold statements of the same numbers. -/
theorem stmt_mem_of_erase_eq {files others : List SourceFile} {number : StmtId} {isLoop : Bool}
    (same : files.map (SourceFile.erase id) = others.map (SourceFile.erase id))
    (member : Finding.stmt number isLoop ∈ SourceFile.findings files) :
    Finding.stmt number isLoop ∈ SourceFile.findings others := by
  have erased := congrArg SourceFile.findings same
  rw [SourceFile.findings_erase, SourceFile.findings_erase] at erased
  have inside : Finding.stmt number isLoop ∈
      (SourceFile.findings others).map (Finding.erase id) :=
    erased ▸ List.mem_map.mpr ⟨_, member, rfl⟩
  obtain ⟨finding, held, view⟩ := List.mem_map.mp inside
  cases finding with
  | stmt number' isLoop' =>
    cases view
    exact held
  | _ => cases view

theorem asWritten_prepare {package : Package} (written : AsWritten package.files) :
    AsWritten package.prepare.files := by
  have numbered := congrFun (@SourceFile.number_eraseList id package.files) 0
  rw [show package.files.map (SourceFile.erase id) = package.files from written] at numbered
  exact (congrArg Prod.fst numbered).symm

/-! ## Statements -/

theorem validIn_empty (world : World) : SymbolTable.empty.ValidIn world := by
  intro id symbol held
  cases id with
  | builtin index =>
    have listed : symbol ∈ Prelude.symbols := List.mem_of_getElem? held
    rcases List.mem_append.mp listed with simple | function
    · obtain ⟨name, -, rfl⟩ := List.mem_map.mp simple
      intro target aliased
      cases aliased
    -- the functions of the prelude hold no declared types
    · simp only [Prelude.signatures, List.map_cons, List.map_nil, List.mem_cons,
        List.not_mem_nil, or_false] at function
      rcases function with rfl | rfl
      all_goals
        refine ⟨by simp [Ty.ValidIn, Signature.ValidIn, Ty.AllValidIn], fun id init => ?_⟩
        cases init
  | declared index => simp [SymbolTable.get?, SymbolTable.empty] at held

theorem validIn_initialState {package : Package} (scopes : package.scopes = .bottom)
    (symbols : package.symbols = .empty) : package.initialState.ValidIn world where
  symbols := by
    rw [initialState, symbols]
    exact validIn_empty world
  scopes scope member name id held := by
    rw [initialState, scopes] at member
    rcases List.mem_cons.mp member with rfl | member
    · cases held
    · rcases List.mem_cons.mp member with rfl | member
      · have listed := NameMap.mem_of_find?_ofList held
        simp only [Prelude.functions, Prelude.signatures, List.mapIdx_cons, List.mapIdx_nil,
          List.mem_cons, List.not_mem_nil, or_false, Prod.mk.injEq] at listed
        rcases listed with ⟨rfl, rfl⟩ | ⟨rfl, rfl⟩
        · exact Or.inl ⟨_, rfl, rfl⟩
        · exact Or.inl ⟨_, rfl, rfl⟩
      · cases member

theorem upholds_checkTopLevel {file : String} {s : Stmt} {before : Typing.State}
    (own : world.Allows s.findings) (valid : before.ValidIn world)
    (kept : ((checkTopLevel file s).run before).2.symbols.KeptIn world) :
    ((checkTopLevel file s).run before).2.ValidIn world ∧
      world.Allows ((checkTopLevel file s).run before).1.findings := by
  have started : State.ValidIn { before with tainted := false, uses := [] } world :=
    valid.of_eq rfl rfl
  exact (checkStmt_valid { file := file } (.top file) s own).recorded _ started kept

theorem upholds_checkEach {refs : List StmtRef} {files : List SourceFile} {before : Typing.State}
    (allowed : world.Allows (SourceFile.findings files)) (valid : before.ValidIn world)
    (kept : (checkEach files refs before).2.1.symbols.KeptIn world) :
    (checkEach files refs before).2.1.ValidIn world ∧
      world.Allows (SourceFile.findings (checkEach files refs before).1) := by
  induction refs generalizing files before with
  | nil => exact ⟨valid, allowed⟩
  | cons ref rest hypothesis =>
    cases found : stmtAt? files ref with
    | none =>
      rw [checkEach_of_none rest before found] at kept ⊢
      exact hypothesis allowed valid kept
    | some placed =>
      obtain ⟨name, s⟩ := placed
      rw [checkEach_of_some rest before found] at kept ⊢
      have ⟨behind, checked⟩ := upholds_checkTopLevel (allows_of_stmtAt? allowed found) valid
        (kept.of_within within_checkEach)
      exact hypothesis (allows_setStmt ref allowed checked) behind kept

/-! ## Packages -/

/-- What was written is valid in the world of the checked package. -/
theorem allows_prepare {package : Package} (written : AsWritten package.files) :
    package.check.1.world.Allows (SourceFile.findings package.prepare.files) := by
  rw [← show _ = _ from asWritten_prepare written, SourceFile.findings_erase]
  refine World.allows_erase fun number isLoop member => ?_
  have held := stmt_mem_of_erase_eq package.erase_check.symm member
  refine ⟨⟨isLoop, held⟩, fun loop => ?_⟩
  subst loop
  exact held

/-- After a check of files without annotations all handles are valid, in the files and in the
    symbol table, whatever the check has found. -/
theorem handles_valid (package : Package) (written : AsWritten package.files) :
    package.check.1.world.Allows (SourceFile.findings package.check.1.files) ∧
      package.check.1.symbols.ValidIn package.check.1.world := by
  have allowed := allows_prepare written
  -- the world is that of the checked package from the beginning on
  cases ordered : Dependency.order (·.declares) TopLevel.refersTo package.prepare.topLevels with
  | error names =>
    rw [check, run_of_order_eq_error ordered] at allowed ⊢
    exact ⟨allowed, validIn_empty _⟩
  | ok sorted =>
    rw [check, run_of_order_eq_ok ordered] at allowed ⊢
    have kept := SymbolTable.keptIn_symbols
      (package.prepare.checkOrdered (sorted.map (·.ref))).package.world
    obtain ⟨valid, files⟩ := upholds_checkEach allowed (validIn_initialState rfl rfl) kept
    exact ⟨files, valid.symbols⟩

/-- The package with `var first = node{}`, `type node struct { next *node }`, and a function that
    jumps out of a labelled loop and back to a label. -/
def linked : Package :=
  .ofFiles "main" [⟨"m.hv", "main",
    [.var "first" none (some (.compound (some (.ofName "node")) [])),
     .struct "node" [⟨"next", {}, .pointer (.ofName "node")⟩] [],
     .func "last" [.make (some "n") (.ofName "node")] []
      [(Stmt.loop none (some (.bool true)) none [.jump .«break» (some "outer")]).labelled "outer",
       .jump .goto (some "outer")]]⟩]

theorem handles_valid_linked : AsWritten linked.files ∧
    linked.check.1.world.Allows (SourceFile.findings linked.check.1.files) ∧
      linked.check.1.symbols.ValidIn linked.check.1.world :=
  ⟨rfl, handles_valid linked rfl⟩

end PackageCheck.Package
