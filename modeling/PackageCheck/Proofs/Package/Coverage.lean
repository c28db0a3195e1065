import PackageCheck.Proofs.Package.History

/-! # What validation visits

Validation and the check walk the same tree. In a run in which nothing fails, each expression that
validation visits is given its type by that run and each name its symbol, so what validation
reads and reports does not depend on the annotations with which the run has begun. -/

namespace PackageCheck

/-! ## Bound names -/

/-- A bound name is not reported as undefined. -/
theorem Visit.leftOver?_ne_undefinedSymbol {file : String} {visit : Visit} (bound : visit.isBound)
    (name : String) (site : Site) : visit.leftOver? file ≠ some (.undefinedSymbol name site) := by
  cases visit with
  | expr position blank type =>
    simp only [Visit.leftOver?]
    split <;> exact nofun
  | name ident position =>
    have bound : ident.isBound = true := bound
    simp only [Visit.leftOver?, bound, if_true]
    exact nofun

/-- The symbols left over are never reported as undefined. -/
theorem SymbolTable.undefinedSymbol_notMem_leftOver (table : SymbolTable) (name : String)
    (site : Site) : .undefinedSymbol name site ∉ table.leftOver := by
  intro member
  obtain ⟨⟨id, symbol⟩, -, reported⟩ := List.mem_filterMap.mp member
  cases symbol with
  | var var =>
    simp only at reported
    split at reported <;> cases reported
  | _ => cases reported

namespace Package

open Typing

/-! ## Visits -/

/-- What validation finds left over in a checked package. -/
def leftOver (package : Package) : List Diagnostic :=
  validate (package.orderedStatements.map fun (file, s) => (file.name, s)) package.symbols

/-- The visits of validation to a checked package, for each statement with the name of its file. -/
def visits (package : Package) : List (String × List Visit) :=
  package.orderedStatements.map fun (file, s) => (file.name, PackageCheck.visits s.walk)

/-- What is left over depends on the visits and on the declared symbols alone. -/
theorem leftOver_eq (package : Package) : package.leftOver =
    (package.visits.flatMap fun placed => placed.2.filterMap (Visit.leftOver? placed.1)) ++
      package.symbols.leftOver := by
  rw [leftOver, validate, visits, List.flatMap_map, List.flatMap_map]
  congr 1
  exact List.flatMap_congr fun placed _ => filterMap_leftOver? placed.1.name placed.2.walk

/-- If all visited names are bound, none is reported as undefined. -/
theorem undefinedSymbol_notMem_leftOver {package : Package}
    (bound : ∀ placed ∈ package.visits, ∀ visit ∈ placed.2, visit.isBound) (name : String)
    (site : Site) : .undefinedSymbol name site ∉ package.leftOver := by
  rw [leftOver_eq]
  intro member
  rcases List.mem_append.mp member with member | member
  · obtain ⟨placed, atPlace, member⟩ := List.mem_flatMap.mp member
    obtain ⟨visit, visited, reported⟩ := List.mem_filterMap.mp member
    exact Visit.leftOver?_ne_undefinedSymbol (bound placed atPlace visit visited) name site reported
  · exact package.symbols.undefinedSymbol_notMem_leftOver name site member

/-! ## Runs -/

/-- The visits to the statements at some places. -/
def visitsAt (files : List SourceFile) (refs : List StmtRef) : List (String × List Visit) :=
  (refs.filterMap (stmtAt? files)).map fun placed => (placed.1, PackageCheck.visits placed.2.walk)

theorem visits_eq_visitsAt (package : Package) :
    package.visits = visitsAt package.files package.order := by
  rw [visitsAt, ← orderedStatements_eq, List.map_map]
  rfl

/-- Statements that are the same to validation are visited alike, and their names are bound. -/
theorem visitsAt_eq {files files' : List SourceFile} {refs : List StmtRef}
    (placed : ∀ ref ∈ refs, PlacedAlike true (stmtAt? files ref) (stmtAt? files' ref)) :
    visitsAt files refs = visitsAt files' refs ∧
      ∀ placed ∈ visitsAt files refs, ∀ visit ∈ placed.2, visit.isBound := by
  induction refs with
  | nil => exact ⟨rfl, nofun⟩
  | cons ref rest hypothesis =>
    obtain ⟨here, others⟩ := List.forall_mem_cons.mp placed
    obtain ⟨same, bound⟩ := hypothesis others
    unfold visitsAt at same bound ⊢
    rw [List.filterMap_cons, List.filterMap_cons]
    generalize stmtAt? files ref = found at here ⊢
    generalize stmtAt? files' ref = found' at here ⊢
    cases here with
    | none => exact ⟨same, bound⟩
    | some alike =>
      obtain ⟨name, left⟩ := alike
      have left := left rfl
      dsimp only
      rw [List.map_cons, List.map_cons, same, left.same, name, ← same, ← left.same]
      exact ⟨rfl, List.forall_mem_cons.mpr ⟨left.bound, bound⟩⟩

/-- If nothing fails, validation visits what it visits in the package as it was written, and finds
    all names bound. -/
theorem visits_check_bare {package : Package} (clean : package.run.state.failures = []) :
    package.check.1.visits = package.bare.check.1.visits ∧
      ∀ placed ∈ package.check.1.visits, ∀ visit ∈ placed.2, visit.isBound := by
  rw [visits_eq_visitsAt, visits_eq_visitsAt, check, check]
  cases ordered : Dependency.order (·.declares) TopLevel.refersTo package.prepare.topLevels with
  | error names =>
    -- a package with a cycle is not checked, and validation finds no order to go through
    have ordered' := ordered
    rw [← topLevels_erased, ← prepare_bare] at ordered'
    rw [run_of_order_eq_error ordered, run_of_order_eq_error ordered']
    exact ⟨rfl, fun _ member => absurd member List.not_mem_nil⟩
  | ok sorted =>
    have ordered' := ordered
    rw [← topLevels_erased, ← prepare_bare] at ordered'
    rw [run_of_order_eq_ok ordered] at clean ⊢
    rw [run_of_order_eq_ok ordered', prepare_bare]
    exact visitsAt_eq (checkEach_erased true (distinct_order ordered) fun _ => clean).2

/-- If nothing fails in the run of a package, it leaves behind the same as that of any other with
    the same text, whatever annotations they begin with. Since these may be any types and symbols,
    what validation reads of an expression and of a name has been put there in the run itself. No
    name is left unbound. -/
theorem leftOver_check {package package' : Package} (name : package'.name = package.name)
    (text : package'.files.map SourceFile.bare = package.files.map SourceFile.bare)
    (clean : package.run.state.failures = []) :
    package'.check.1.leftOver = package.check.1.leftOver ∧
      (∀ name site, .undefinedSymbol name site ∉ package.check.1.leftOver) ∧
        package'.check.1.visits = package.check.1.visits ∧
          ∀ placed ∈ package.check.1.visits, ∀ visit ∈ placed.2, visit.isBound := by
  -- both runs are compared with that of the same bare package
  have same : package'.bare = package.bare := by rw [bare, bare, name, text]
  have clean' : package'.run.state.failures = [] := by
    rw [← package'.run_bare.1.state, same, package.run_bare.1.state]
    exact clean
  obtain ⟨visited, bound⟩ := visits_check_bare clean
  obtain ⟨visited', -⟩ := visits_check_bare clean'
  have visits : package'.check.1.visits = package.check.1.visits := by
    rw [visited, visited', same]
  have symbols : package'.check.1.symbols = package.check.1.symbols := by
    have symbols := package.run_bare.1.symbols
    rw [← same, package'.run_bare.1.symbols] at symbols
    exact symbols
  refine ⟨?_, undefinedSymbol_notMem_leftOver bound, visits, bound⟩
  rw [leftOver_eq, leftOver_eq, visits, symbols]

/-- The package with `var y = x` and `var x = 1`, in which the use of `x` may be annotated. -/
def copyOfNumber (type : Ty) (symbol : Option SymbolId) : Package :=
  ofFiles "main" [⟨"m.hv", "main",
    [.var "y" none (some ⟨{}, .ident ⟨"x", symbol⟩, type⟩),
     .var "x" none (some (.literal .int "1"))]⟩]

/-- A stale type and a stale symbol change nothing. -/
theorem leftOver_check_copyOfNumber :
    (copyOfNumber .unknown none).run.state.failures = [] ∧
      (copyOfNumber (.simple .string) (some (.declared 7))).check.1.visits =
        (copyOfNumber .unknown none).check.1.visits := by
  have clean : (copyOfNumber .unknown none).run.state.failures = [] :=
    List.isEmpty_iff.mp (by decide +kernel)
  exact ⟨clean, (leftOver_check rfl rfl clean).2.2.1⟩

end Package

end PackageCheck
