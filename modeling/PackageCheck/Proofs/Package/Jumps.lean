import PackageCheck.Proofs.Package.History
import PackageCheck.Proofs.Package.Initialization
import PackageCheck.Proofs.Typing.Jumps
import PackageCheck.Proofs.Typing.OwnJumps

/-! # The jumps of a checked package

A check leaves each jump of a package as it was, or gives it the handles that its surroundings show.
The loop of a jump is the innermost one with its label, while its label is looked up in the
innermost block that has it, where it may be in front of any other statement. The two handles lead
to the same loop exactly if that statement is the loop. -/

namespace PackageCheck.Package

open Typing JumpSite

variable {table : SymbolTable}

/-! ## Statements -/

theorem jumpSites_checkTopLevel (file : String) (s : Stmt) {before : Typing.State}
    (named : before.WellScoped)
    (within : ((checkTopLevel file s).run before).2.symbols.Within table) :
    Handled table (s.jumpSites {}) (((checkTopLevel file s).run before).1.jumpSites {}) := by
  have started : State.WellScoped { before with tainted := false, uses := [] } := named
  exact (checkStmt_jumps (.outermost file none) s).recorded _ started within

theorem jumpSites_checkEach {refs : List StmtRef} (distinct : refs.Nodup) {ref : StmtRef}
    {files : List SourceFile} {before : Typing.State} {name : String} {s : Stmt}
    (named : before.WellScoped) (within : (checkEach files refs before).2.1.symbols.Within table)
    (found : stmtAt? files ref = some (name, s)) :
    ∃ s', stmtAt? (checkEach files refs before).1 ref = some (name, s') ∧
      Handled table (s.jumpSites {}) (s'.jumpSites {}) := by
  induction refs generalizing files before with
  | nil => exact ⟨s, found, .refl _⟩
  | cons other rest hypothesis =>
    obtain ⟨apart, distinct⟩ := List.nodup_cons.mp distinct
    cases there : stmtAt? files other with
    | none =>
      rw [checkEach_of_none rest before there] at within ⊢
      exact hypothesis distinct named within found
    | some placed =>
      obtain ⟨name', t⟩ := placed
      by_cases same : other = ref
      · -- this is the one time that the statement is checked
        subst same
        cases there.symm.trans found
        refine ⟨_, stmtAt?_checkEach_self before apart found, ?_⟩
        rw [checkEach_of_some rest before found] at within
        exact jumpSites_checkTopLevel name s named (within_checkEach.trans within)
      · rw [checkEach_of_some rest before there] at within ⊢
        refine hypothesis distinct (wellScoped_checkTopLevel name' t named) within ?_
        rw [stmtAt?_setStmt_of_ne _ (Ne.symm same), found]

/-! ## Files -/

/-- Files that look the same, with the jumps handled in the statement at each place. -/
theorem handled_of_places {files files' : List SourceFile}
    (same : files'.map (SourceFile.erase id) = files.map (SourceFile.erase id))
    (placed : ∀ ref name s, stmtAt? files ref = some (name, s) →
      ∃ s', stmtAt? files' ref = some (name, s') ∧
        Handled table (s.jumpSites {}) (s'.jumpSites {})) :
    Handled table (SourceFile.jumpSites files) (SourceFile.jumpSites files') := by
  -- files and statements pair up by their places, since the files look the same
  have paired : List.Forall₂ (fun file file' => List.Forall₂ (fun s s' =>
      Handled table (Stmt.jumpSites {} s) (Stmt.jumpSites {} s')) file.body file'.body)
      files files' := by
    refine List.forall₂_iff_get.mpr ⟨by simpa using (congrArg List.length same).symm,
      fun i bound bound' => ?_⟩
    rw [List.get_eq_getElem, List.get_eq_getElem]
    have bodies : Stmt.eraseList id files'[i].body = Stmt.eraseList id files[i].body := by
      have here : (files'.map (SourceFile.erase id))[i]? = (files.map (SourceFile.erase id))[i]? :=
        congrArg (·[i]?) same
      simp only [List.getElem?_map, List.getElem?_eq_getElem bound,
        List.getElem?_eq_getElem bound', Option.map_some, Option.some.injEq] at here
      exact (SourceFile.mk.inj here).2.2
    rw [Stmt.eraseList_eq_map, Stmt.eraseList_eq_map] at bodies
    refine List.forall₂_iff_get.mpr ⟨by simpa using (congrArg List.length bodies).symm,
      fun j inside inside' => ?_⟩
    obtain ⟨s', found, handled⟩ := placed ⟨i, j⟩ files[i].name files[i].body[j] (by
      simp [stmtAt?, bound, inside])
    simp only [stmtAt?, List.getElem?_eq_getElem bound', List.getElem?_eq_getElem inside',
      Option.bind_some, Option.map_some, Option.some.injEq, Prod.mk.injEq] at found
    obtain ⟨-, rfl⟩ := found
    exact handled
  refine List.rel_flatMap paired fun file file' bodies => ?_
  rw [Stmt.jumpSitesList_eq_flatMap, Stmt.jumpSitesList_eq_flatMap]
  exact List.rel_flatMap bodies fun _ _ handled => handled

/-! ## Packages -/

/-- The jumps of a checked package are those of its numbered files, each as it was or resolved in
    its surroundings. -/
theorem jumpSites_check (package : Package) :
    Handled package.check.1.symbols (SourceFile.jumpSites package.prepare.files)
      (SourceFile.jumpSites package.check.1.files) := by
  have same := @erase_check id package
  cases ordered : Dependency.order (·.declares) TopLevel.refersTo package.prepare.topLevels with
  | error names =>
    rw [check, run_of_order_eq_error ordered]
    exact .refl _
  | ok sorted =>
    rw [check, run_of_order_eq_ok ordered] at same ⊢
    refine handled_of_places same fun ref name s found => ?_
    exact jumpSites_checkEach (distinct_order ordered) (wellScoped_initialState rfl)
      (SymbolTable.Extends.refl _).toWithin found

/-- Whether a jump with a label leads to a loop, and its label to the symbol that stands for the
    label of that very loop. -/
def HandlesAgree (symbols : SymbolTable) (jump : Jump) (name : String) : Prop :=
  ∃ target id label, jump.target = some target ∧ jump.labelSymbol = some id ∧
    symbols.get? id = some (.label label) ∧ label.name = name ∧ label.loop = some target

/-- Whether a jump with a label leads to the innermost loop with its label, and the handle of the label
    leads there too exactly if that loop is the first statement with the label in the innermost block
    that has one. -/
def LeadsToLoop (symbols : SymbolTable) (site : JumpSite) (name : String) : Prop :=
  ∃ target, site.jump.target = some target ∧ site.around.loop? (some name) = some target ∧
    (HandlesAgree symbols site.jump name ↔
      ∃ first, site.around.labelled? name = some first ∧ first.loop = some target)

/-- A labelled jump that has been resolved leads to a loop. -/
theorem leadsToLoop_of_resolve {around : Surroundings} {jump jump' : Jump} {name : String}
    (resolved : around.resolve jump = some jump') (declared : around.Declared table)
    (kind : jump'.kind ≠ .goto) (labelled : jump'.label = some name) :
    LeadsToLoop table ⟨jump', around⟩ name := by
  obtain ⟨target, found, leads, symbol⟩ := Surroundings.target_of_resolve resolved kind
  rw [labelled] at found symbol
  refine ⟨target, leads, found, ?_⟩
  -- the symbol that the label leads to says which statement was seen first
  rw [← declared.label_iff name target]
  constructor
  · rintro ⟨target', id, label, leads', seen, held, named, loop⟩
    cases leads.symm.trans leads'
    exact ⟨id, label, symbol.symm.trans seen, held, named, loop⟩
  · rintro ⟨id, label, seen, held, named, loop⟩
    exact ⟨target, id, label, leads, symbol.trans seen, held, named, loop⟩

/-- Whether a check that has come to a jump has accepted it, and so has not found an error of it. -/
def AcceptedBy (file : String) (after : Typing.State) (placed : PlacedJump) : Prop :=
  ∀ err, placed.rejection? file = some err → err ∉ after.errors

/-- Whether each `break` and `continue` with a label leads to a loop that a check has accepted among
    some jumps. They are given as they were and as they are. -/
def AcceptedLead (name file : String) (after : Typing.State) (own own' : List PlacedJump) : Prop :=
  ∀ placed placed', (placed, placed') ∈ own.zip own' → AcceptedBy file after placed →
    placed'.jump.kind ≠ .goto → placed'.jump.label = some name →
      LeadsToLoop after.symbols placed'.toJumpSite name

theorem acceptedLead_of_lexical {name file : String} {before after : Typing.State}
    {own own' : List PlacedJump} {sites : List JumpSite}
    (lexical : LexicalJumps file before after own own' sites) :
    AcceptedLead name file after own own' := by
  intro placed placed' paired accepted kind labelled
  have settled := List.forall₂_zip lexical.settled paired
  have permitted : placed.permitted = true := by
    by_contra nowhere
    have rejected : placed.rejection? file =
        some (.invalidJump placed.jump.kind placed.jump.label ⟨file, placed.position⟩) :=
      if_neg nowhere
    exact accepted _ rejected (lexical.mem_errors (List.of_mem_zip paired).1 rejected)
  exact leadsToLoop_of_resolve (settled.accepted permitted) settled.declared kind labelled

/-- A labelled `break` or `continue` that is accepted leads to the innermost loop with its label. The
    handle of the label leads there too exactly if that loop is the first statement with the label in
    the innermost block that has one. In a package a jump has been accepted if it has got handles that
    it did not have before. A check of the body of a function, and of a statement outside of functions,
    has accepted each jump whose error it has not found, whatever handles the jump came with. -/
theorem handles_agree_iff (name : String) :
    (∀ (package : Package) (before after : JumpSite),
      (before, after) ∈ (SourceFile.jumpSites package.prepare.files).zip
        (SourceFile.jumpSites package.check.1.files) →
      after.jump ≠ before.jump → after.jump.kind ≠ .goto → after.jump.label = some name →
        LeadsToLoop package.check.1.symbols after name) ∧
    ∀ s : Typing.State, s.WellScoped →
      (∀ (ctx : Context) (func : Func) (signature : Signature) (receiver : Option Ty),
        let ran := (checkBody ctx func signature receiver).run s
        AcceptedLead name ctx.file ran.2 func.ownJumps ran.1.ownJumps) ∧
      ∀ (file : String) (stmt : Stmt),
        let ran := (checkTopLevel file stmt).run s
        AcceptedLead name file ran.2 (stmt.ownJumps {}) (ran.1.ownJumps {}) := by
  constructor
  · intro package before after same accepted kind labelled
    rcases List.forall₂_zip package.jumpSites_check same with kept | ⟨resolved, declared⟩
    · exact absurd kept accepted
    · exact leadsToLoop_of_resolve resolved declared kind labelled
  · intro s named
    constructor
    · intro ctx func signature receiver
      exact acceptedLead_of_lexical (lexical_checkBody named ctx func signature receiver)
    · intro file stmt
      exact acceptedLead_of_lexical (lexical_checkTopLevel named file stmt)

/-- The package with a function that leaves its loop `L` behind another statement of the loop. -/
def leavingLoop (other : Stmt) : Package :=
  .ofFiles "main" [⟨"m.hv", "main",
    [.func "f" [] []
      [(Stmt.loop none none none [other, .jump .«break» (some "L")]).labelled "L"]]⟩]

/-- The other statement has no label. -/
def plainLoop : Package :=
  leavingLoop (.ofForm .pass)

/-- The other statement has the label of the loop too. -/
def shadowedLoop : Package :=
  leavingLoop ((Stmt.ofForm .pass).labelled "L")

/-- The function of the plain loop, with the handles in its `break` that a check of it alone gives. -/
def leftLoop : Func :=
  .make (some "f") none [] [] [(Stmt.loop none none none [.ofForm .pass,
    .ofForm (.jump ⟨.«break», some "L", some (.declared 0), some {}⟩)]).labelled "L"]

/-- The `break` is accepted, and its label leads to the loop. So it is if it comes with its handles. -/
theorem handles_agree_plainLoop : (∃ before after,
    (before, after) ∈ (SourceFile.jumpSites plainLoop.prepare.files).zip
      (SourceFile.jumpSites plainLoop.check.1.files) ∧
    HandlesAgree plainLoop.check.1.symbols after.jump "L") ∧
    let ran := (checkBody { file := "m.hv" } leftLoop ⟨[], []⟩ none).run .bare
    ran.1.ownJumps.map (·.jump) = leftLoop.ownJumps.map (·.jump) ∧
      ∃ placed ∈ ran.1.ownJumps, HandlesAgree ran.2.symbols placed.jump "L" := by
  constructor
  · have listed : (⟨⟨.«break», some "L", none, none⟩,
        [(⟨1⟩, some "L")], [[], [⟨⟨"L", none⟩, some ⟨1⟩⟩]]⟩,
      ⟨⟨.«break», some "L", some (.declared 1), some ⟨1⟩⟩,
        [(⟨1⟩, some "L")], [[], [⟨⟨"L", some (.declared 1)⟩, some ⟨1⟩⟩]]⟩) ∈
      (SourceFile.jumpSites plainLoop.prepare.files).zip
        (SourceFile.jumpSites plainLoop.check.1.files) := by decide +kernel
    obtain ⟨target, leads, -, agree⟩ :=
      (handles_agree_iff "L").1 plainLoop _ _ listed (by decide) (by decide) rfl
    cases leads
    exact ⟨_, _, listed, agree.mpr ⟨_, rfl, rfl⟩⟩
  · have accepted := ((handles_agree_iff "L").2 .bare State.wellScoped_bare).1 { file := "m.hv" }
      leftLoop ⟨[], []⟩ none
    intro ran
    have listed : (⟨⟨⟨.«break», some "L", some (.declared 0), some {}⟩,
        [({}, some "L")], [[], [⟨⟨"L", none⟩, some {}⟩]]⟩, {}⟩,
      ⟨⟨⟨.«break», some "L", some (.declared 0), some {}⟩,
        [({}, some "L")], [[], [⟨⟨"L", some (.declared 0)⟩, some {}⟩]]⟩, {}⟩) ∈
      leftLoop.ownJumps.zip ran.1.ownJumps := by decide +kernel
    obtain ⟨target, leads, -, agree⟩ := accepted _ _ listed nofun nofun rfl
    cases leads
    exact ⟨by decide +kernel, _, (List.of_mem_zip listed).2, agree.mpr ⟨_, rfl, rfl⟩⟩

/-- The `break` is accepted and leads to the loop, but its label leads to the other statement. -/
theorem handles_disagree_shadowedLoop : shadowedLoop.check.2 = [] ∧ ∃ before after,
    (before, after) ∈ (SourceFile.jumpSites shadowedLoop.prepare.files).zip
      (SourceFile.jumpSites shadowedLoop.check.1.files) ∧
    after.jump ≠ before.jump ∧ after.jump.kind = .«break» ∧ after.jump.label = some "L" ∧
      after.jump.target.isSome ∧ ¬ HandlesAgree shadowedLoop.check.1.symbols after.jump "L" := by
  have listed : (⟨⟨.«break», some "L", none, none⟩,
      [(⟨1⟩, some "L")], [[⟨⟨"L", none⟩, none⟩], [⟨⟨"L", none⟩, some ⟨1⟩⟩]]⟩,
    ⟨⟨.«break», some "L", some (.declared 2), some ⟨1⟩⟩,
      [(⟨1⟩, some "L")], [[⟨⟨"L", some (.declared 2)⟩, none⟩],
        [⟨⟨"L", some (.declared 1)⟩, some ⟨1⟩⟩]]⟩) ∈
    (SourceFile.jumpSites shadowedLoop.prepare.files).zip
      (SourceFile.jumpSites shadowedLoop.check.1.files) := by decide +kernel
  refine ⟨by decide +kernel, _, _, listed, by decide, rfl, rfl, rfl, ?_⟩
  rintro ⟨target, id, label, leads, seen, held, named, loop⟩
  rcases List.forall₂_zip shadowedLoop.jumpSites_check listed with kept | ⟨-, declared⟩
  · cases kept
  · obtain ⟨first, found, same⟩ :=
      (declared.label_iff "L" target).mp ⟨id, label, seen, held, named, loop⟩
    cases found
    cases same

end PackageCheck.Package
