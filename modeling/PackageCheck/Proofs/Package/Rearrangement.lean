import PackageCheck.Proofs.Package.ForeignFiles
import PackageCheck.Proofs.Package.Reordering

/-! # Rearranged packages

The top-level statements of a package may come in any order, and in any of its files. A package that is
accepted is accepted in every other arrangement as well, and its names stand for symbols that look the
same, as long as each name that a statement uses for a symbol of another one has been collected. Where one
has not been collected the statement may come in front of the one that it needs. -/

namespace PackageCheck

open Typing

/-! ## Numbers -/

section Lists

variable {α β γ : Type} {R : α → β → Prop} {S : β → γ → Prop} {as : List α} {bs : List β} {cs : List γ}

theorem forall₂_comp (first : List.Forall₂ R as bs) (second : List.Forall₂ S bs cs) :
    List.Forall₂ (Relation.Comp R S) as cs := by
  induction first generalizing cs with
  | nil =>
    cases second
    exact .nil
  | @cons _ b _ _ here _ hypothesis =>
    cases second with
    | cons there others => exact .cons ⟨b, here, there⟩ (hypothesis others)

theorem map_eq_of_forall₂ {f : α → γ} {g : β → γ} (related : List.Forall₂ R as bs)
    (same : ∀ a b, R a b → g b = f a) : bs.map g = as.map f := by
  rw [← List.forall₂_eq_eq_eq, List.forall₂_map_left_iff, List.forall₂_map_right_iff]
  exact (List.Forall₂.flip (R := flip R) related).imp fun b a => same a b

theorem exists_of_forall₂ (related : List.Forall₂ R as bs) {b : β} (member : b ∈ bs) :
    ∃ a ∈ as, R a b := by
  induction related with
  | nil => cases member
  | cons here _ hypothesis =>
    rcases List.mem_cons.mp member with rfl | member
    · exact ⟨_, List.mem_cons_self, here⟩
    · obtain ⟨a, listed, there⟩ := hypothesis member
      exact ⟨a, List.mem_cons_of_mem _ listed, there⟩

end Lists

/-- Whether a statement is another one with numbers. -/
def Stmt.Numbered (s numbered : Stmt) : Prop :=
  ∃ n, numbered = (s.number.run n).1

/-- Whether two statements are the same but for the numbers that they have been given. -/
def Stmt.Sibling (s s' : Stmt) : Prop :=
  ∃ move, Stmt.Moved move s s'

theorem Stmt.Sibling.names {s s' : Stmt} (sibling : s.Sibling s') :
    (s'.declaredNames, (Dependency.freeNames s').contains) =
      (s.declaredNames, (Dependency.freeNames s).contains) := by
  obtain ⟨move, moved⟩ := sibling
  rw [moved.declaredNames, moved.freeNames]

theorem Stmt.Numbered.sibling {s numbered numbered' : Stmt} (first : s.Numbered numbered)
    (second : s.Numbered numbered') : numbered.Sibling numbered' := by
  obtain ⟨n, rfl⟩ := first
  obtain ⟨n', rfl⟩ := second
  obtain ⟨count, -, -, moved⟩ := @Stmt.number_moves (StmtId.shift 0 n n') s n n'
  refine ⟨_, moved fun j _ => ?_⟩
  have shifted := StmtId.shift_behind 0 n n' j
  rwa [Nat.zero_add, Nat.zero_add] at shifted

theorem Stmt.forall₂_numbered (statements : List Stmt) (n : Nat) :
    List.Forall₂ Stmt.Numbered statements ((Stmt.numberList statements).run n).1 := by
  induction statements generalizing n with
  | nil => exact .nil
  | cons s rest hypothesis => exact .cons ⟨n, rfl⟩ (hypothesis (s.number.run n).2)

namespace Package

theorem numbered_numberList (name : String) (files : List SourceFile) (n : Nat) :
    List.Forall₂ Stmt.Numbered (ofFiles name files).ownStatements
      (ofFiles name ((SourceFile.numberList files).run n).1).ownStatements := by
  induction files generalizing n with
  | nil => exact .nil
  | cons file rest hypothesis =>
    refine List.rel_append ?_ (hypothesis (file.number.run n).2)
    change List.Forall₂ _ (if file.package = name then file.body else [])
      (if file.package = name then ((Stmt.numberList file.body).run n).1 else [])
    split
    · exact Stmt.forall₂_numbered file.body n
    · exact .nil

theorem numbered_prepare (package : Package) :
    List.Forall₂ Stmt.Numbered package.ownStatements package.prepare.ownStatements :=
  numbered_numberList package.name package.files 0

/-! ## Rearrangements -/

/-- Whether the top-level statements of a package have been put into another order or into other files
    of the package. -/
structure Rearranged (package other : Package) : Prop where
  name : other.name = package.name
  files : List.Forall₂ (fun file file' : SourceFile => file'.name = file.name ∧
    file'.package = file.package ∧ (file.package ≠ package.name → file'.body = file.body))
      package.files other.files
  statements : other.ownStatements.Perm package.ownStatements

theorem Rearranged.symm {package other : Package} (rearranged : package.Rearranged other) :
    other.Rearranged package where
  name := rearranged.name.symm
  files := List.Forall₂.flip <| rearranged.files.imp fun _ _ ⟨name, clause, body⟩ =>
    ⟨name.symm, clause.symm, fun foreign => (body (rearranged.name ▸ clause ▸ foreign)).symm⟩
  statements := rearranged.statements.symm

/-- Whether each name that a statement has used for a symbol from outside of it is among those that it was
    found to declare or to need, if some statement of the package declares it. -/
def UsesCollected (package : Package) : Prop :=
  ∀ used ∈ package.run.uses, ∀ n ∈ used.2, (∃ top ∈ package.topLevels, n ∈ top.declares) →
    ∃ user ∈ package.topLevels, user.ref = used.1 ∧ (n ∈ user.declares ∨ user.refersTo n = true)

/-- Whether the check of a package has lost no error, and no name that one statement uses of another. -/
structure Faithful (package : Package) : Prop where
  kept : ∀ failure ∈ package.run.state.failures, failure.lost = false
  collected : package.UsesCollected

/-- Whether the collector takes for free whatever the checker may take for free, of the names that some
    statement of the package declares. This is read off the text alone. -/
def CollectsFree (package : Package) : Prop :=
  ∀ s ∈ package.prepare.ownStatements, ∀ top ∈ package.topLevels, ∀ n ∈ top.declares,
    (s.mention (.checker true) n).isFree = true → (s.mention .collector n).isFree = true

instance (package : Package) : Decidable package.CollectsFree :=
  inferInstanceAs (Decidable (∀ s ∈ package.prepare.ownStatements, ∀ top ∈ package.topLevels,
    ∀ n ∈ top.declares, _ → _))

section Turns

variable {package : Package} {turns : List Turn} (takes : package.TakesTurns turns)

include takes

theorem TakesTurns.usesCollected_iff : package.UsesCollected ↔ ∀ turn ∈ turns, ∀ n, turn.Uses n →
    (∃ other ∈ turns, n ∈ other.top.declares) →
      n ∈ turn.top.declares ∨ turn.top.refersTo n = true := by
  constructor
  · rintro collected turn member n used ⟨other, listed, declares⟩
    have noted : (turn.ref, usesOutside turn.before turn.after) ∈ package.run.uses :=
      takes.uses ▸ List.mem_map_of_mem member
    obtain ⟨user, inPackage, same, known⟩ := collected _ noted n (mem_usesOutside.mpr used)
      ⟨other.top, takes.mem_topLevels_iff.mpr ⟨other, listed, rfl⟩, declares⟩
    obtain ⟨turn', member', rfl⟩ := takes.mem_topLevels_iff.mp inPackage
    obtain rfl := List.inj_on_of_nodup_map takes.nodup_refs member' member same
    exact known
  · rintro collected _ noted n used ⟨top, inPackage, declares⟩
    rw [takes.uses] at noted
    obtain ⟨turn, member, rfl⟩ := List.mem_map.mp noted
    obtain ⟨other, listed, rfl⟩ := takes.mem_topLevels_iff.mp inPackage
    exact ⟨turn.top, takes.mem_topLevels_iff.mpr ⟨turn, member, rfl⟩, rfl,
      collected turn member n (mem_usesOutside.mp used) ⟨other, listed, declares⟩⟩

/-- If the uses are collected, no statement looks for anything behind it in a sorted list. -/
theorem TakesTurns.pairwise_not_looksFor (collected : package.UsesCollected) {listed : List Turn}
    (perm : listed.Perm turns) (sorted : Dependency.Sorted (·.top.declares) (·.top.refersTo) listed) :
    listed.Pairwise fun earlier later => ¬ earlier.LooksFor later := by
  refine List.Pairwise.imp_of_mem (fun {turn other} member member' free looks => ?_) sorted
  obtain ⟨n, declares, -, used, foreign⟩ := looks
  have known := takes.usesCollected_iff.mp collected turn (perm.mem_iff.mp member) n used
    ⟨other, perm.mem_iff.mp member', declares⟩
  exact free ⟨n, declares, known.resolve_left foreign⟩

theorem TakesTurns.sorted : Dependency.Sorted (·.top.declares) (·.top.refersTo) turns :=
  List.pairwise_map.mp (Dependency.sorted_of_order_eq_ok takes.ordered)

/-- In an accepted package that is faithful the statements take a course that can be rearranged. -/
theorem TakesTurns.course (accepted : package.check.2 = []) (faithful : package.Faithful) :
    Course package.prepare.initialState turns package.run.state where
  run := takes.run
  quiet turn member :=
    takes.run.quiet_of_failures (clean_of_accepted accepted faithful.kept).failures member
  ordered := takes.pairwise_not_looksFor faithful.collected (List.Perm.refl _) takes.sorted
  named := wellScoped_initialState rfl
  fresh _ := rfl
  predeclared scope member n id found := by
    obtain rfl : scope = ScopeStack.bottom.inner := List.mem_singleton.mp member
    have listed := NameMap.mem_of_find?_ofList found
    simp only [Prelude.functions, List.mem_mapIdx] at listed
    obtain ⟨index, _, same⟩ := listed
    exact ⟨_, (Prod.mk.inj same).2.symm⟩
  silent := (takes.accepted_iff.mp accepted).1

theorem TakesTurns.lookup? (n : String) : package.check.1.lookup? n =
    (package.run.state.scopes.find? n).bind package.run.state.symbols.get? := by
  rw [check, run_of_order_eq_ok takes.ordered]
  rfl

/-- The statements of the turns are those of the package, in the order in which they are checked. -/
theorem TakesTurns.stmts_perm : (turns.map (·.stmt)).Perm package.prepare.ownStatements := by
  obtain ⟨statements, standing, perm⟩ := List.perm_comp_forall₂ (perm_of_order_eq_ok takes.ordered)
    (List.Forall₂.flip (R := flip _) package.prepare.standsAt_topLevels)
  rw [List.forall₂_map_left_iff] at standing
  have same : List.Forall₂ (fun turn s => turn.stmt = s) turns statements := by
    refine ((List.forall₂_and_left _ _).mpr ⟨takes.placed, standing⟩).imp ?_
    rintro turn s ⟨placed, ⟨file, found⟩, -⟩
    cases placed.symm.trans found
    rfl
  rw [← List.forall₂_map_left_iff, List.forall₂_eq_eq_eq] at same
  exact same ▸ perm

end Turns

/-- If the collector takes for free whatever the checker may take for free, the uses are collected. -/
theorem CollectsFree.usesCollected {package : Package} (collects : package.CollectsFree)
    (accepted : package.check.2 = [])
    (kept : ∀ failure ∈ package.run.state.failures, failure.lost = false) :
    package.UsesCollected := by
  obtain ⟨sorted, ordered, -⟩ := accepted_iff.mp accepted
  obtain ⟨turns, takes⟩ := Package.exists_takesTurns ordered
  have quiet : ∀ turn ∈ turns, turn.Quiet := fun turn member =>
    takes.run.quiet_of_failures (clean_of_accepted accepted kept).failures member
  refine takes.usesCollected_iff.mpr fun turn member n used => ?_
  rintro ⟨other, listed, declares⟩
  obtain ⟨front, behind, rfl, before, -⟩ := takes.run.split member
  have named : turn.before.WellScoped := before.later.wellScoped (wellScoped_initialState rfl)
  have blank : turn.before.scopes.find? "_" = none :=
    before.find?_blank (fun turn listed => quiet turn (List.mem_append_left _ listed))
      (by decide +kernel : ScopeStack.bottom.find? "_" = none)
  have free := isFree_of_usesOutside named blank (quiet turn member) (mem_usesOutside.mpr used)
  have free := collects turn.stmt (takes.stmts_perm.mem_iff.mp (List.mem_map_of_mem member)) other.top
    (takes.mem_topLevels_iff.mpr ⟨other, listed, rfl⟩) n declares free
  by_cases own : n ∈ turn.stmt.declaredNames
  · exact Or.inl own
  · exact Or.inr (Dependency.contains_freeNames.mpr ⟨own, free⟩)

/-! ## The same statements -/

/-- A statement as it is numbered in another package, where it stands at the place of a top-level
    statement. -/
def StandsRenumbered (files : List SourceFile) (s : Stmt) (top : TopLevel) : Prop :=
  ∃ s', s.Sibling s' ∧ StandsAt files s' top

theorem StandsRenumbered.names {files : List SourceFile} {s : Stmt} {top : TopLevel}
    (standing : StandsRenumbered files s top) :
    (top.declares, top.refersTo) = (s.declaredNames, (Dependency.freeNames s).contains) := by
  obtain ⟨s', sibling, -, same⟩ := standing
  rw [same]
  exact sibling.names

section Rearranged

variable {package other : Package} {turns : List Turn} (rearranged : package.Rearranged other)
  (takes : package.TakesTurns turns)

include rearranged takes

/-- The statements of the turns can be listed as they stand in the rearranged package. -/
theorem Rearranged.exists_listed : ∃ listed : List Turn, listed.Perm turns ∧
    List.Forall₂ (fun turn top => StandsRenumbered other.prepare.files turn.stmt top) listed
      other.prepare.topLevels := by
  obtain ⟨numbered, first, perm⟩ :=
    List.perm_comp_forall₂ rearranged.statements package.numbered_prepare
  obtain ⟨listed, perm', same⟩ :=
    Dependency.exists_perm_of_map (perm.trans takes.stmts_perm.symm)
  refine ⟨listed, perm', ?_⟩
  rw [← same, List.forall₂_map_right_iff] at first
  have second := forall₂_comp other.numbered_prepare other.prepare.standsAt_topLevels
  refine (forall₂_comp (List.Forall₂.flip (R := flip _) first) second).imp ?_
  rintro turn top ⟨s, numbered, s', numbered', standing⟩
  exact ⟨s', Stmt.Numbered.sibling numbered numbered', standing⟩

/-- So the statements have an order there as well. -/
theorem Rearranged.exists_takesTurns : ∃ turns', other.TakesTurns turns' := by
  obtain ⟨listed, perm, standing⟩ := rearranged.exists_listed takes
  obtain ⟨tops, standing, perm⟩ := List.perm_comp_forall₂ perm.symm standing
  have same := map_eq_of_forall₂ standing fun turn top (standing : StandsRenumbered _ _ _) =>
    standing.names
  obtain ⟨_, ordered⟩ := Dependency.exists_order_of_sorted perm (takes.sorted.congr same)
  exact Package.exists_takesTurns ordered

/-- The statements of the turns can be listed as they are checked in the rearranged package. -/
theorem Rearranged.exists_twins {turns' : List Turn} (takes' : other.TakesTurns turns') :
    ∃ rest : List Turn, rest.Perm turns ∧
      List.Forall₂ (fun turn turn' => turn.stmt.Sibling turn'.stmt) rest turns' := by
  obtain ⟨listed, perm, standing⟩ := rearranged.exists_listed takes
  obtain ⟨rest, standing, perm'⟩ := List.perm_comp_forall₂ (perm_of_order_eq_ok takes'.ordered)
    (List.Forall₂.flip (R := flip _) standing)
  refine ⟨rest, perm'.trans perm, List.Forall₂.flip ?_⟩
  rw [List.forall₂_map_left_iff] at standing
  refine ((List.forall₂_and_left _ _).mpr ⟨takes'.placed, standing⟩).imp ?_
  rintro turn' turn ⟨placed, s', sibling, ⟨file, found⟩, -⟩
  cases placed.symm.trans found
  exact sibling

end Rearranged

/-! ## Side by side -/

/-- A package and another arrangement of it, in their turns. -/
structure SideBySide (package other : Package) (turns turns' rest : List Turn)
    (twins : List (Turn × Turn)) : Prop where
  takes : package.TakesTurns turns
  takes' : other.TakesTurns turns'
  course : Course package.prepare.initialState turns package.run.state
  perm : rest.Perm turns
  follow : List.Forall₂ Turn.Follows rest turns'
  all : (twins.map (·.1)).Perm turns
  reached : InStep package.run.state twins other.run.state

theorem mismatches_congr {name : String} {files files' : List SourceFile}
    (same : List.Forall₂ (fun file file' => file'.name = file.name ∧ file'.package = file.package)
      files files') : (ofFiles name files').mismatches = (ofFiles name files).mismatches := by
  unfold Package.mismatches ofFiles
  induction same with
  | nil => rfl
  | cons first _ hypothesis =>
    dsimp only at hypothesis ⊢
    rw [List.filterMap_cons, List.filterMap_cons, first.1, first.2, hypothesis]

theorem mismatches_prepare (package : Package) : package.prepare.mismatches = package.mismatches := by
  have same : ∀ (files : List SourceFile) (n : Nat), List.Forall₂ (fun file file' : SourceFile =>
      file'.name = file.name ∧ file'.package = file.package) files
        ((SourceFile.numberList files).run n).1 := by
    intro files
    induction files with
    | nil => exact fun _ => .nil
    | cons file rest hypothesis => exact fun n => .cons ⟨rfl, rfl⟩ (hypothesis (file.number.run n).2)
  exact @mismatches_congr package.name _ _ (same package.files 0)

/-- The files of a rearranged package belong to the same packages. -/
theorem Rearranged.mismatches {package other : Package} (rearranged : package.Rearranged other) :
    other.mismatches = package.mismatches := by
  have files := @mismatches_congr package.name _ _
    (rearranged.files.imp fun _ _ same => ⟨same.1, same.2.1⟩)
  unfold Package.mismatches at files ⊢
  rw [rearranged.name]
  exact files

section Rearranged

variable {package other : Package}

theorem Rearranged.exists_sideBySide (rearranged : package.Rearranged other)
    (accepted : package.check.2 = []) (faithful : package.Faithful) :
    ∃ turns turns' rest twins, package.SideBySide other turns turns' rest twins := by
  obtain ⟨sorted, ordered, -⟩ := accepted_iff.mp accepted
  obtain ⟨turns, takes⟩ := Package.exists_takesTurns ordered
  obtain ⟨turns', takes'⟩ := rearranged.exists_takesTurns takes
  obtain ⟨rest, perm, siblings⟩ := rearranged.exists_twins takes takes'
  have course := takes.course accepted faithful
  have same := map_eq_of_forall₂ siblings fun turn turn' (sibling : Stmt.Sibling _ _) =>
    sibling.names
  have ordered' := takes.pairwise_not_looksFor faithful.collected perm
    (takes'.sorted.congr same.symm)
  have started : InStep package.run.state [] other.prepare.initialState := by
    refine .start rfl (fun _ => rfl) course.run.later.outer.symm ?_
    change other.prepare.mismatches = []
    rw [other.mismatches_prepare, rearranged.mismatches, ← package.mismatches_prepare]
    exact List.prefix_nil.mp (course.silent ▸ course.run.later.diagnostics)
  have all : (rest ++ ([] : List (Turn × Turn)).map (·.1)).Perm turns := by
    rwa [List.map_nil, List.append_nil]
  obtain ⟨follow, twins, all, reached⟩ := course.reached siblings takes'.run started all ordered'
  exact ⟨turns, turns', rest, twins, takes, takes', course, perm, follow, all, reached⟩

namespace SideBySide

variable {turns turns' rest : List Turn} {twins : List (Turn × Turn)}
  (both : package.SideBySide other turns turns' rest twins)

include both

theorem exists_follows {turn' : Turn} (member : turn' ∈ turns') :
    ∃ turn ∈ turns, turn.Follows turn' := by
  obtain ⟨turn, listed, follows⟩ := exists_of_forall₂ both.follow member
  exact ⟨turn, both.perm.mem_iff.mp listed, follows⟩

theorem accepted (clean : package.run.state.Clean) (accepted : package.check.2 = []) :
    other.check.2 = [] := by
  obtain ⟨-, nothing, known⟩ := both.takes.accepted_iff.mp accepted
  refine both.takes'.accepted_iff.mpr ⟨both.reached.diagnostics, fun turn' member => ?_,
    both.course.leftOver_eq_nil both.reached both.all clean.failed known⟩
  obtain ⟨turn, listed, follows⟩ := both.exists_follows member
  exact follows.left (nothing turn listed)

theorem faithful (collected : package.UsesCollected) : other.Faithful where
  kept failure member := by
    have quiet : ∀ turn' ∈ turns', turn'.Quiet := fun turn' listed => by
      obtain ⟨turn, -, follows⟩ := both.exists_follows listed
      exact follows.quiet
    rw [both.takes'.run.failures_eq quiet] at member
    cases member
  collected := by
    refine both.takes'.usesCollected_iff.mpr fun turn' member n used => ?_
    rintro ⟨other', listed', declares⟩
    obtain ⟨turn, listed, follows⟩ := both.exists_follows member
    obtain ⟨another, listed'', follows'⟩ := both.exists_follows listed'
    have names := Prod.mk.inj (Stmt.Sibling.names follows.moved)
    have names' := Prod.mk.inj (Stmt.Sibling.names follows'.moved)
    replace declares : n ∈ other'.stmt.declaredNames := declares
    rw [names'.1] at declares
    have known := both.takes.usesCollected_iff.mp collected turn listed n (follows.uses n used)
      ⟨another, listed'', declares⟩
    change n ∈ turn'.stmt.declaredNames ∨ (Dependency.freeNames turn'.stmt).contains n = true
    rw [names.1, names.2]
    exact known

theorem render_lookup? (n : String) : (other.check.1.lookup? n).map Symbol.render =
    (package.check.1.lookup? n).map Symbol.render := by
  rw [both.takes.lookup?, both.takes'.lookup?]
  exact both.course.render_find? both.reached both.all
    (both.course.run.later.wellScoped both.course.named) n

end SideBySide

theorem Rearranged.accepted (rearranged : package.Rearranged other) (accepted : package.check.2 = [])
    (faithful : package.Faithful) : other.check.2 = [] ∧ other.Faithful := by
  obtain ⟨_, _, _, _, both⟩ := rearranged.exists_sideBySide accepted faithful
  have clean := clean_of_accepted accepted faithful.kept
  exact ⟨both.accepted clean accepted, both.faithful faithful.collected⟩

/-- Declarations may come in any order. If a package is accepted and faithful, so is every rearrangement
    of it, and all its names stand for symbols that look the same. An accepted package that has lost no
    error is faithful if its text tells that each free name is collected. -/
theorem check_rearranged (rearranged : package.Rearranged other) :
    (package.check.2 = [] ∧ package.Faithful ↔ other.check.2 = [] ∧ other.Faithful) ∧
      (package.check.2 = [] → package.Faithful → ∀ n,
        (other.check.1.lookup? n).map Symbol.render =
          (package.check.1.lookup? n).map Symbol.render) ∧
      (package.check.2 = [] → (∀ failure ∈ package.run.state.failures, failure.lost = false) →
        package.CollectsFree → package.Faithful) := by
  refine ⟨⟨?_, ?_⟩, fun accepted faithful n => ?_, fun accepted kept collects => ?_⟩
  · rintro ⟨accepted, faithful⟩
    exact rearranged.accepted accepted faithful
  · rintro ⟨accepted, faithful⟩
    exact rearranged.symm.accepted accepted faithful
  · obtain ⟨_, _, _, _, both⟩ := rearranged.exists_sideBySide accepted faithful
    exact both.render_lookup? n
  · exact ⟨kept, collects.usesCollected accepted kept⟩

end Rearranged

/-- The package with `var total = count + 1` in one file and `var count = 1` in another one. -/
def countApart : Package :=
  .ofFiles "main" [
    ⟨"a.hv", "main", [.var "total" none (some (.ofForm (.binary .add (.name "count") (.int 1))))]⟩,
    ⟨"b.hv", "main", [.var "count" none (some (.int 1))]⟩]

/-- The same package with both variables in the second file. -/
def countTogether : Package :=
  .ofFiles "main" [
    ⟨"a.hv", "main", []⟩,
    ⟨"b.hv", "main", [.var "count" none (some (.int 1)),
      .var "total" none (some (.ofForm (.binary .add (.name "count") (.int 1))))]⟩]

theorem countTogether_accepted : countApart.Rearranged countTogether ∧
    (countTogether.check.2 = [] ∧ countTogether.Faithful) ∧
      (countTogether.check.1.lookup? "total").map Symbol.render =
        (countApart.check.1.lookup? "total").map Symbol.render := by
  have rearranged : countApart.Rearranged countTogether :=
    ⟨rfl, .cons ⟨rfl, rfl, nofun⟩ (.cons ⟨rfl, rfl, nofun⟩ .nil), .swap ..⟩
  have accepted : countApart.check.2 = [] := by decide +kernel
  obtain ⟨same, looks, told⟩ := check_rearranged rearranged
  have faithful := told accepted (by decide +kernel) (by decide +kernel)
  exact ⟨rearranged, same.mp ⟨accepted, faithful⟩, looks accepted faithful "total"⟩

/-- The package with `type M map[string]int`, `var m = M{k: 1}` and `var k = "a"`. -/
def keyBehind : Package :=
  .ofFiles "main" [⟨"m.hv", "main",
    [.typeAlias "M" (.map (.ofName "string") (.ofName "int")),
     .var "m" none (some (.compound (some (.ofName "M")) [⟨some (.name "k"), .int 1⟩])),
     .var "k" none (some (.string "a"))]⟩]

/-- The same package with the key in front of the map. -/
def keyAhead : Package :=
  .ofFiles "main" [⟨"m.hv", "main",
    [.typeAlias "M" (.map (.ofName "string") (.ofName "int")),
     .var "k" none (some (.string "a")),
     .var "m" none (some (.compound (some (.ofName "M")) [⟨some (.name "k"), .int 1⟩]))]⟩]

/-- The key of a map whose type is written as a name is not collected, so the map comes in front of the
    key if it stands there. -/
theorem keyBehind_refused : keyAhead.Rearranged keyBehind ∧ keyAhead.check.2 = [] ∧
    keyBehind.check.2 ≠ [] := by
  refine ⟨⟨rfl, .cons ⟨rfl, rfl, nofun⟩ .nil, .cons _ (.swap ..)⟩, ?_⟩
  decide +kernel

end Package

end PackageCheck
