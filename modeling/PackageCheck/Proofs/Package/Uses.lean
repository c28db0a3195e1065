import PackageCheck.Proofs.Dependency.FreeNames
import PackageCheck.Proofs.Package.Soundness
import PackageCheck.Proofs.Typing.Resolution
import PackageCheck.Tree.Make

/-! # Free names and names used outside

A statement at the top of a package comes behind those that declare its free names. So its free
names should be those that its check uses for symbols from outside. They are, unless a use is free
for a collector of names and not for a checker, or the other way around. -/

namespace PackageCheck

/-- Whether a collector and a checker agree on whether a name is free in a statement, whatever bare
    names as keys stand for. They may take a use for a free one or not

    * in a form of several variables, one of which is the name,
    * as the name of a type behind a variable of that name,
    * as a bare key of a literal that is not written as an array, a slice or a map. -/
def Stmt.ReadAlike (s : Stmt) (n : String) : Prop :=
  ∀ bareKeys, (s.mention (.checker bareKeys) n).isFree = (s.mention .collector n).isFree

instance (s : Stmt) (n : String) : Decidable (s.ReadAlike n) :=
  inferInstanceAs (Decidable (∀ _, _))

namespace Package

open Typing

variable {before : State} {file n : String} {s : Stmt}

theorem mem_usesOutside {after : State} :
    n ∈ usesOutside before after ↔ after.UsesOutside before.symbols n := by
  simp only [usesOutside, List.mem_filterMap, State.UsesOutside, Prod.exists]
  constructor
  · rintro ⟨name, id, member, found⟩
    split at found
    case isTrue outside =>
      cases found
      exact ⟨id, member, outside⟩
    case isFalse => cases found
  · rintro ⟨id, member, outside⟩
    exact ⟨n, id, member, if_pos outside⟩

/-- In front of a statement every name stands for a symbol from outside, if it stands for one. -/
theorem resolves_outside (named : before.WellScoped) (blank : before.scopes.find? "_" = none) :
    before.Resolves before.symbols n false false := by
  constructor
  · intro id found
    obtain ⟨symbol, held, -⟩ := named.find? found
    refine ⟨fun same => ?_, by rw [held]; rfl⟩
    rw [same, blank] at found
    cases found
  · intro id found
    obtain ⟨symbol, held, -⟩ := named.findType? found
    refine ⟨fun same => ?_, by rw [held]; rfl⟩
    obtain ⟨id', found⟩ := ScopeStack.find?_of_findType? found
    rw [same, blank] at found
    cases found

/-- What the check of a statement looks up. -/
theorem reads_checkTopLevel (most : Bool) (named : before.WellScoped)
    (quiet : ((checkTopLevel file s).run before).2.failures = before.failures) :
    Reads before.symbols n most (s.mention (.checker most) n)
      { before with tainted := false, uses := [] } ((checkTopLevel file s).run before).2 := by
  have looksUp : (recorded (checkStmt { file := file } s)).LooksUpAll before.symbols n most
      (s.mention (.checker most) n) := (checkStmt_looksUp { file := file } s).recorded
  exact (looksUp { before with tainted := false, uses := [] } _ _ ⟨.refl _, named⟩
    ⟨rfl, quiet⟩).2.1

section Names

variable (named : before.WellScoped) (blank : before.scopes.find? "_" = none)
  (quiet : ((checkTopLevel file s).run before).2.failures = before.failures)

include named blank quiet

/-- A free use is one for a symbol from outside. -/
theorem usesOutside_of_isFree (free : (s.mention (.checker false) n).isFree = true) :
    n ∈ usesOutside before ((checkTopLevel file s).run before).2 := by
  have resolves := resolves_outside (n := n) named blank
  exact mem_usesOutside.mpr ((reads_checkTopLevel false named quiet).least rfl
    ⟨resolves.value, resolves.type⟩ (Mention.getsOut_iff_isFree.mpr free))

/-- A use for a symbol from outside is free. -/
theorem isFree_of_usesOutside
    (used : n ∈ usesOutside before ((checkTopLevel file s).run before).2) :
    (s.mention (.checker true) n).isFree = true := by
  have resolves := resolves_outside (n := n) named blank
  rcases (reads_checkTopLevel true named quiet).most rfl ⟨resolves.value, resolves.type⟩
    (mem_usesOutside.mp used) with ⟨id, member, -⟩ | out
  · cases member
  · exact Mention.getsOut_iff_isFree.mp out

end Names

/-- The free names of a statement at which nothing fails are the names that its check uses for
    symbols from outside, apart from those that the statement declares itself. -/
theorem contains_freeNames_iff_used (named : before.WellScoped)
    (blank : before.scopes.find? "_" = none)
    (quiet : ((checkTopLevel file s).run before).2.failures = before.failures)
    (alike : s.ReadAlike n) :
    (Dependency.freeNames s).contains n = true ↔ n ∉ s.declaredNames ∧
      n ∈ usesOutside before ((checkTopLevel file s).run before).2 := by
  rw [Dependency.contains_freeNames]
  refine and_congr_right fun _ => ⟨fun free => ?_, fun used => ?_⟩
  · exact usesOutside_of_isFree named blank quiet ((alike false).trans free)
  · exact (alike true).symm.trans (isFree_of_usesOutside named blank quiet used)

/-- The statement `func f() string { var read = read(); return read }`. -/
def readOnce : Stmt :=
  .func "f" [] [.make none (.ofName "string")]
    [.var "read" none (some (.ofForm (.call (.name "read") []))), .ofForm (.ret [.name "read"])]

/-- The state in front of the first statement of a package. -/
def atFirst : State := (ofFiles "main" []).initialState

/-- The function calls the predeclared `read`, and returns its own. -/
theorem readOnce_used : (Dependency.freeNames readOnce).contains "read" = true ∧
    "read" ∈ usesOutside atFirst ((checkTopLevel "m.hv" readOnce).run atFirst).2 := by
  have named : atFirst.WellScoped := wellScoped_initialState rfl
  have nothing : ((checkTopLevel "m.hv" readOnce).run atFirst).2.failures.isEmpty = true := by
    decide +kernel
  have quiet : ((checkTopLevel "m.hv" readOnce).run atFirst).2.failures = atFirst.failures :=
    List.isEmpty_iff.mp nothing
  have free : (Dependency.freeNames readOnce).contains "read" = true := by decide +kernel
  have used := (contains_freeNames_iff_used named (by decide +kernel) quiet (by decide +kernel)).mp free
  exact ⟨free, used.2⟩

/-- The statement `func f() { var a = 1, b = a }`. -/
def formOfTwo : Stmt :=
  .func "f" [] [] [.ofForm (.var ⟨[.make "a" none (some (.literal .int "1")),
    .make "b" none (some (.name "a"))], false⟩)]

/-- The second variable has the first one as its value, which a collector takes for a free name. -/
theorem formOfTwo_collected : (Dependency.freeNames formOfTwo).contains "a" = true ∧
    ((checkTopLevel "m.hv" formOfTwo).run atFirst).2.failures = [] ∧
      "a" ∉ usesOutside atFirst ((checkTopLevel "m.hv" formOfTwo).run atFirst).2 := by
  decide +kernel

end Package

end PackageCheck
