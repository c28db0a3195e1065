import PackageCheck.Proofs.Package.Renumbering
import PackageCheck.Tree.Make

/-! # Files of other packages

A file that belongs to another package is reported and left out of a check. Its statements still
take their numbers among those of the other files, so another body in its place moves the numbers of
all statements behind it, and nothing but these numbers. -/

namespace PackageCheck

/-! ## Numbers -/

/-- What becomes of a number if, from a first one on, some numbers are removed and others are added
    in their place. -/
def StmtId.shift (first removed added : Nat) (id : StmtId) : StmtId :=
  if id.number < first then id else ⟨id.number - removed + added⟩

theorem StmtId.shift_of_lt {first n : Nat} (before : n < first) (removed added : Nat) :
    StmtId.shift first removed added ⟨n⟩ = ⟨n⟩ :=
  if_pos before

theorem StmtId.shift_behind (first removed added j : Nat) :
    StmtId.shift first removed added ⟨first + removed + j⟩ = ⟨first + added + j⟩ := by
  have behind : ¬ first + removed + j < first := by omega
  have moved : first + removed + j - removed + added = first + added + j := by omega
  simp only [shift, if_neg behind, moved]

namespace SourceFile

variable {move : StmtId → StmtId} {own : String}

theorem numberList_moves (files : List SourceFile) : Numbering.Moves move
    (SourceFile.numberList files) (SourceFile.numberList files)
      (List.Forall₂ (SourceFile.Moved move own)) := by
  induction files with
  | nil => exact .pure .nil
  | cons file rest hypothesis =>
    refine .bind (.bind (Stmt.numberList_moves file.body) fun _ _ => .pure fun body => ?_)
      fun _ _ => .bind hypothesis fun _ _ => .pure fun others first => .cons first others
    exact ⟨rfl, rfl, fun _ => body⟩

theorem numberList_append (before behind : List SourceFile) (n : Nat) :
    ((SourceFile.numberList (before ++ behind)).run n).1 =
      ((SourceFile.numberList before).run n).1 ++
        ((SourceFile.numberList behind).run ((SourceFile.numberList before).run n).2).1 := by
  induction before generalizing n with
  | nil => rfl
  | cons file rest hypothesis =>
    exact congrArg ((file.number.run n).1 :: ·) (hypothesis (file.number.run n).2)

/-- Another body for a file of another package leaves the numbers in front of it alone, and moves
    those behind it by the difference. -/
theorem numberList_foreign (before behind : List SourceFile) {file : SourceFile}
    (foreign : file.package ≠ own) {body : List Stmt} {first removed added : Nat}
    (start : ((SourceFile.numberList before).run 0).2 = first)
    (ends : ((Stmt.numberList file.body).run first).2 = first + removed)
    (ends' : ((Stmt.numberList body).run first).2 = first + added) :
    List.Forall₂ (SourceFile.Moved (StmtId.shift first removed added) own)
      ((SourceFile.numberList (before ++ file :: behind)).run 0).1
      ((SourceFile.numberList (before ++ { file with body := body } :: behind)).run 0).1 := by
  rw [numberList_append, numberList_append, start]
  apply List.rel_append
  · obtain ⟨count, stop, -, related⟩ := numberList_moves before 0 0
    apply related
    intro j bound
    rw [Nat.zero_add]
    exact StmtId.shift_of_lt (by omega) removed added
  · obtain ⟨count, -, -, related⟩ := numberList_moves behind (first + removed) (first + added)
    rw [← ends, ← ends'] at related
    refine .cons ⟨rfl, rfl, fun same => absurd same foreign⟩ (related fun j _ => ?_)
    rw [ends, ends']
    exact StmtId.shift_behind first removed added j

end SourceFile

namespace Package

/-- A package with another body in one of its files. -/
def withBody (package : Package) (index : Nat) (body : List Stmt) : Package :=
  { package with files := package.files.modify index fun file => { file with body := body } }

/-- A file of another package has no influence on a check: whatever its body, the same diagnostics
    are found, the statements are checked in the same order, each name at the top stands for the
    same symbol, and the symbols are the same but for the numbers of the statements, which are moved
    by a shift and moved back by the opposite one. -/
theorem check_withBody {package : Package} {index : Nat} {file : SourceFile}
    (found : package.files[index]? = some file) (foreign : file.package ≠ package.name)
    (body : List Stmt) :
    (package.withBody index body).check.2 = package.check.2 ∧
    (package.withBody index body).check.1.order = package.check.1.order ∧
    (package.withBody index body).check.1.renderOrder = package.check.1.renderOrder ∧
    (package.withBody index body).check.1.scopes = package.check.1.scopes ∧
    (∀ name, ((package.withBody index body).check.1.lookup? name).map Symbol.render =
      (package.check.1.lookup? name).map Symbol.render) ∧
    ∃ first removed added,
      (package.withBody index body).check.1.symbols =
        package.check.1.symbols.renumber (StmtId.shift first removed added) ∧
      package.check.1.symbols = (package.withBody index body).check.1.symbols.renumber
        (StmtId.shift first added removed) := by
  obtain ⟨bound, rfl⟩ := List.getElem?_eq_some_iff.mp found
  have written : package.files = package.files.take index ++
      package.files[index] :: package.files.drop (index + 1) := by
    rw [List.getElem_cons_drop, List.take_append_drop]
  have edited : (package.withBody index body).files = package.files.take index ++
      { package.files[index] with body := body } :: package.files.drop (index + 1) :=
    List.modify_eq_take_cons_drop bound
  generalize package.files.take index = before, package.files[index] = file,
    package.files.drop (index + 1) = behind at *
  -- the numbers in front of the file, those of its body and those of the other body
  obtain ⟨removed, ends, -, -⟩ := @Stmt.numberList_moves id file.body
    ((SourceFile.numberList before).run 0).2 0
  obtain ⟨added, ends', -, -⟩ := @Stmt.numberList_moves id body
    ((SourceFile.numberList before).run 0).2 0
  generalize start : ((SourceFile.numberList before).run 0).2 = first at ends ends'
  have there := SourceFile.numberList_foreign before behind foreign start ends ends'
  have back := @SourceFile.numberList_foreign package.name before behind
    { file with body := body } foreign file.body first added removed start ends' ends
  change List.Forall₂ _ _ ((SourceFile.numberList (before ++ file :: behind)).run 0).1 at back
  rw [← written, ← edited] at there back
  have moved := @run_moved _ package (package.withBody index body) rfl there
  have returned := @run_moved _ (package.withBody index body) package rfl back
  exact ⟨moved.diagnostics, moved.order, moved.rendered, moved.scopes, moved.lookup?, first,
    removed, added, moved.symbols, returned.symbols⟩

/-- A package of two files, of which the first one belongs to another package. -/
def besideForeign : Package :=
  .ofFiles "main" [
    ⟨"a.hv", "tools", []⟩,
    ⟨"b.hv", "main", [.var "x" none (some (.int 1)),
      .func "f" [] [] [.var "y" none (some (.name "x"))]]⟩]

/-- Two statements more in front move the numbers of all initial values by two. -/
theorem check_withBody_besideForeign :
    besideForeign.files[0]? = some ⟨"a.hv", "tools", []⟩ ∧ "tools" ≠ besideForeign.name ∧
    (besideForeign.withBody 0 [.ofForm .pass, .typeAlias "x" (.ofName "x")]).check.2 =
      besideForeign.check.2 ∧
    besideForeign.check.1.symbols.declared.toList.map (fun symbol => symbol.var?.bind (·.init)) =
      [some ⟨0⟩, some ⟨1⟩, some ⟨2⟩] ∧
    (besideForeign.withBody 0 [.ofForm .pass, .typeAlias "x"
        (.ofName "x")]).check.1.symbols.declared.toList.map (fun symbol =>
      symbol.var?.bind (·.init)) = [some ⟨2⟩, some ⟨3⟩, some ⟨4⟩] := by
  have same := @check_withBody besideForeign 0 _ rfl (by decide)
    [.ofForm .pass, .typeAlias "x" (.ofName "x")]
  refine ⟨rfl, by decide, same.1, ?_, ?_⟩
  · decide +kernel
  · decide +kernel

end Package

end PackageCheck
