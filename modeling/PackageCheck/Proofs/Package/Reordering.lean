import PackageCheck.Proofs.Package.Renumbering
import PackageCheck.Proofs.Package.Turns
import PackageCheck.Proofs.Typing.ParallelTrees

/-! # Turns in another order

The same statements are checked in two orders, and nothing fails in the first one. Whatever a statement
looks for at the top of the package has been declared in front of it in both orders. So each statement
comes to the same, but for the handles: its second turn is a parallel run of its first one.

The second run goes on turn by turn. What it has reached is compared with the end of the first run, as far
as the statements are concerned that are over by then. -/

namespace PackageCheck.Package

open Typing

variable {twins : List (Turn × Turn)} {turn turn' : Turn} {id id' : SymbolId} {final s s' : State}

/-- Symbols keep their names. -/
theorem wellScoped_renumber (move : StmtId → StmtId) (named : s.WellScoped) :
    (s.renumber move).WellScoped := by
  intro scope member name id found
  obtain ⟨symbol, held, called⟩ := named scope member name id found
  refine ⟨symbol.renumber move, ?_, (Symbol.name_renumber move symbol).trans called⟩
  rw [State.renumber, SymbolTable.get?_renumber, held]
  rfl

/-! ## Counterparts -/

/-- The counterparts of the handles of the first run in the second one. Each turn of the second run comes
    with its twin, and has declared its symbols in the same order. -/
inductive Paired (twins : List (Turn × Turn)) : SymbolId → SymbolId → Prop
  | builtin (index : Nat) : Paired twins (.builtin index) (.builtin index)
  | declared {turn turn' : Turn} (listed : (turn, turn') ∈ twins) {n : Nat}
    (bound : turn.start + n < turn.stop) :
    Paired twins (.declared (turn.start + n)) (.declared (turn'.start + n))

theorem Paired.mono (twin : Turn × Turn) (paired : Paired twins id id') :
    Paired (twin :: twins) id id' := by
  cases paired with
  | builtin index => exact .builtin index
  | declared listed bound => exact .declared (List.mem_cons_of_mem _ listed) bound

theorem paired_cons : Paired ((turn, turn') :: twins) id id' ↔ Paired twins id id' ∨
    ∃ n, turn.start + n < turn.stop ∧ id = .declared (turn.start + n) ∧
      id' = .declared (turn'.start + n) := by
  constructor
  · intro paired
    cases paired with
    | builtin index => exact Or.inl (.builtin index)
    | @declared _ _ listed n bound =>
      rcases List.mem_cons.mp listed with same | listed
      · cases same
        exact Or.inr ⟨n, bound, rfl, rfl⟩
      · exact Or.inl (.declared listed bound)
  · rintro (paired | ⟨n, bound, rfl, rfl⟩)
    · exact paired.mono _
    · exact .declared List.mem_cons_self bound

/-- In the beginning only the predeclared symbols have counterparts. -/
theorem Paired.of_nil (paired : Paired [] id id') :
    ∃ index, id = .builtin index ∧ id' = .builtin index := by
  cases paired with
  | builtin index => exact ⟨index, rfl, rfl⟩
  | declared listed => cases listed

theorem Paired.optionMono (twin : Turn × Turn) {found found' : Option SymbolId}
    (paired : Option.Rel (Paired twins) found found') :
    Option.Rel (Paired (twin :: twins)) found found' := by
  cases paired with
  | none => exact .none
  | some paired => exact .some (paired.mono twin)

/-- What the second run has reached when some of its turns are over, compared with the end of the first
    one. -/
structure InStep (final : State) (twins : List (Turn × Turn)) (s' : State) : Prop where
  forth : ∀ id a b, Paired twins id a → Paired twins id b → a = b
  back : ∀ id a b, Paired twins a id → Paired twins b id → a = b
  held : ∀ index, index < s'.symbols.declared.size ↔ ∃ id, Paired twins id (.declared index)
  symbols : final.symbols.MatchedBy (Paired twins) s'.symbols
  names : ∀ twin ∈ twins, ∀ n ∈ twin.1.stmt.declaredNames,
    Option.Rel (Paired twins) (final.scopes.inner.find? n) (s'.scopes.inner.find? n)
  others : ∀ n, (∀ twin ∈ twins, n ∉ twin.1.stmt.declaredNames) → s'.scopes.inner.find? n = none
  outer : s'.scopes.outer = final.scopes.outer
  diagnostics : s'.diagnostics = []

/-! ## One turn -/

/-- What is known of a turn of the first run at the time when the second run comes to its statement. -/
structure Due (final : State) (twins : List (Turn × Turn)) (turn : Turn) : Prop where
  quiet : turn.Quiet
  named : turn.before.WellScoped
  later : Later turn.after final
  silent : final.diagnostics = []
  predeclared : ∀ scope ∈ final.scopes.outer, ∀ n id, scope.find? n = some id →
    ∃ index, id = .builtin index
  blank : final.scopes.inner.find? "_" = none
  apart : ∀ twin ∈ twins, twin.1.Apart turn
  /-- What the statement looks for is there in both runs or in none. -/
  seen : ∀ n, n ≠ "_" → turn.Uses n → n ∉ turn.stmt.declaredNames →
    ((turn.before.scopes.inner.find? n).isSome ↔ ∃ twin ∈ twins, n ∈ twin.1.stmt.declaredNames)

namespace Due

variable (due : Due final twins turn)

include due

theorem before_later : Later turn.before final :=
  turn.later.trans due.later

theorem find?_blank : turn.before.scopes.inner.find? "_" = none := by
  by_contra found
  obtain ⟨id, found⟩ := Option.ne_none_iff_exists'.mp found
  cases due.blank.symm.trans (due.before_later.inner "_" id found)

/-- The scopes around hold predeclared symbols, which are their own counterparts. -/
theorem predeclared_outer (n : String) {twins' : List (Turn × Turn)} : List.Forall₂
    (fun scope scope' : Scope => Option.Rel (Paired twins') (scope.find? n) (scope'.find? n))
      final.scopes.outer final.scopes.outer := by
  refine List.forall₂_same.mpr fun scope member => ?_
  cases found : scope.find? n with
  | none => exact .none
  | some id =>
    obtain ⟨index, rfl⟩ := due.predeclared scope member n id found
    exact .some (.builtin index)

/-- The symbols of the turn have no counterparts yet. -/
theorem not_paired {index : Nat} (first : turn.start ≤ index) (last : index < turn.stop) :
    ¬ Paired twins (.declared index) id' := by
  intro paired
  cases paired with
  | @declared other _ listed n bound =>
    have apart : other.stop ≤ turn.start ∨ turn.stop ≤ other.start := (due.apart _ listed).symbols
    omega

/-- A symbol that has a counterpart is there in front of the turn, if it is there behind it. -/
theorem held_before (paired : Paired twins id id') (held : (turn.after.symbols.get? id).isSome) :
    (turn.before.symbols.get? id).isSome := by
  cases paired with
  | builtin index => exact held
  | @declared other _ listed n bound =>
    have apart : other.stop ≤ turn.start ∨ turn.stop ≤ other.start := (due.apart _ listed).symbols
    obtain ⟨symbol, held⟩ := Option.isSome_iff_exists.mp held
    obtain ⟨last, -⟩ := Array.getElem?_eq_some_iff.mp held
    have last : other.start + n < turn.stop := last
    have first : other.start + n < turn.start := by omega
    exact Option.isSome_iff_exists.mpr ⟨_, Array.getElem?_eq_getElem first⟩

end Due

theorem InStep.find?_eq_none {n : String} (reached : InStep final twins s')
    (absent : final.scopes.inner.find? n = none) : s'.scopes.inner.find? n = none := by
  by_cases declared : ∃ twin ∈ twins, n ∈ twin.1.stmt.declaredNames
  · obtain ⟨twin, listed, declares⟩ := declared
    have related := reached.names twin listed n declares
    rw [absent] at related
    generalize s'.scopes.inner.find? n = found at related ⊢
    cases related
    rfl
  · exact reached.others n fun twin listed declares => declared ⟨twin, listed, declares⟩

theorem InStep.lt_start (reached : InStep final twins turn'.before) {index : Nat}
    (paired : Paired twins id (.declared index)) : index < turn'.start :=
  (reached.held index).mpr ⟨id, paired⟩

section Step

variable (reached : InStep final twins turn'.before) (due : Due final twins turn)

include reached due

theorem InStep.forth_cons (id a b : SymbolId) (first : Paired ((turn, turn') :: twins) id a)
    (second : Paired ((turn, turn') :: twins) id b) : a = b := by
  rcases paired_cons.mp first with before | ⟨n, bound, rfl, rfl⟩
  · rcases paired_cons.mp second with before' | ⟨n, bound, rfl, rfl⟩
    · exact reached.forth id a b before before'
    · exact absurd before (due.not_paired (Nat.le_add_right _ _) bound)
  · rcases paired_cons.mp second with before' | ⟨m, -, same, rfl⟩
    · exact absurd before' (due.not_paired (Nat.le_add_right _ _) bound)
    · cases Nat.add_left_cancel (SymbolId.declared.inj same)
      rfl

omit due in
theorem InStep.back_cons (id a b : SymbolId) (first : Paired ((turn, turn') :: twins) a id)
    (second : Paired ((turn, turn') :: twins) b id) : a = b := by
  rcases paired_cons.mp first with before | ⟨n, -, rfl, rfl⟩
  · rcases paired_cons.mp second with before' | ⟨n, -, rfl, rfl⟩
    · exact reached.back id a b before before'
    · exact absurd (reached.lt_start before) (by omega)
  · rcases paired_cons.mp second with before' | ⟨m, -, rfl, same⟩
    · exact absurd (reached.lt_start before') (by omega)
    · cases Nat.add_left_cancel (SymbolId.declared.inj same)
      rfl

/-- What corresponds in the two turns of a statement. -/
def InStep.parallel : Parallel where
  pairs := Paired ((turn, turn') :: twins)
  forth := reached.forth_cons due
  back := reached.back_cons
  builtin := .builtin
  shared n := n ∈ turn.stmt.declaredNames ∨ turn.Uses n
  base := turn.before.symbols
  base' := turn'.before.symbols
  bound := turn.stop
  next _ bound := .declared List.mem_cons_self bound

/-- A name that the statement declares or looks for at the top stands for counterparts there. -/
theorem InStep.inner {n : String} (shared : n ∈ turn.stmt.declaredNames ∨ turn.Uses n) :
    Option.Rel (Paired ((turn, turn') :: twins)) (turn.before.scopes.inner.find? n)
      (turn'.before.scopes.inner.find? n) := by
  by_cases plain : n = "_"
  · subst plain
    rw [due.find?_blank, reached.find?_eq_none due.blank]
    exact .none
  · by_cases own : n ∈ turn.stmt.declaredNames
    · rw [due.quiet.adds.free n own plain, reached.others n fun twin listed declares =>
        plain ((due.apart twin listed).names n declares own)]
      exact .none
    · have seen := due.seen n plain (shared.resolve_left own) own
      cases found : turn.before.scopes.inner.find? n with
      | none =>
        rw [found] at seen
        rw [reached.others n fun twin listed declares => nomatch seen.mpr ⟨twin, listed, declares⟩]
        exact .none
      | some id =>
        rw [found] at seen
        obtain ⟨twin, listed, declares⟩ := seen.mp rfl
        have related := reached.names twin listed n declares
        rw [due.before_later.inner n id found] at related
        exact Paired.optionMono _ related

/-- What the symbols in front of the turn have as counterparts does not change any more. -/
theorem InStep.symbols_before :
    turn.before.symbols.MatchedBy (Paired ((turn, turn') :: twins)) turn'.before.symbols := by
  intro id id' symbol paired held
  rcases paired_cons.mp paired with before | ⟨n, -, rfl, rfl⟩
  · obtain ⟨symbol', held', same⟩ :=
      reached.symbols id id' symbol before (due.before_later.symbols.kept id symbol held)
    exact ⟨symbol', held', same.mono fun _ _ => Paired.mono _⟩
  · obtain ⟨bound, -⟩ := Array.getElem?_eq_some_iff.mp held
    exact absurd bound (Nat.not_lt.mpr (Nat.le_add_right _ _))

/-- The turns begin in corresponding states. -/
theorem InStep.states (move : StmtId → StmtId) : (reached.parallel due).States false
    (State.renumber move { turn.before with tainted := false, uses := [] })
    { turn'.before with tainted := false, uses := [] } where
  named := wellScoped_renumber move due.named
  scopes := by
    refine .outside (fun n shared => .cons ?_ ?_) fun scope member n id _ held => ?_
    · exact reached.inner due shared
    · have outer : final.scopes.outer = turn.before.scopes.outer := due.before_later.outer
      change List.Forall₂ _ turn.before.scopes.outer turn'.before.scopes.outer
      rw [reached.outer, ← outer]
      exact due.predeclared_outer n
    · obtain ⟨symbol, held, -⟩ := due.named scope member n id held
      exact Option.isSome_iff_exists.mpr ⟨symbol, held⟩
  symbols := (reached.symbols_before due).renumber
  size := ⟨0, SymbolTable.size_renumber move turn.before.symbols, rfl⟩
  uses := nofun
  diagnostics _ := reached.diagnostics

theorem InStep.covers (move : StmtId → StmtId) :
    (reached.parallel due).Covers (turn.after.renumber move) where
  uses use member old := Or.inr ⟨use.2, member, old⟩
  size := Nat.le_of_eq (SymbolTable.size_renumber move turn.after.symbols)

/-- So nothing fails in the second turn either, and it ends in a corresponding state. -/
theorem InStep.parallel_turn {move : StmtId → StmtId} (moved : Stmt.Moved move turn.stmt turn'.stmt) :
    turn'.Quiet ∧ (reached.parallel due).States false (turn.after.renumber move) turn'.after ∧
      LeavesNoMore turn.checked.walk turn'.checked.walk := by
  obtain ⟨behind, checked⟩ := checkTopLevel_follows moved turn.file turn.before
  have around : (reached.parallel due).Around { file := turn.file } { file := turn'.file } :=
    ⟨.none, rfl, .nil⟩
  have sees : (reached.parallel due).Sees false turn'.stmt.declaredNames :=
    Or.inr fun n declares => Or.inl (moved.declaredNames ▸ declares)
  have first : (recorded (checkStmt { file := turn.file } turn'.stmt)).Quiet
      (State.renumber move { turn.before with tainted := false, uses := [] })
      ((checkTopLevel turn.file turn'.stmt).run (turn.before.renumber move)).1
      (turn.after.renumber move) := ⟨Prod.ext rfl behind, due.quiet⟩
  obtain ⟨checked', after', second, states, left⟩ := (checkStmt_parallels around turn'.stmt sees).recorded
    _ _ (reached.states due move) _ _ first (reached.covers due move)
  obtain rfl : turn'.checked = checked' := congrArg Prod.fst second.run
  obtain rfl : turn'.after = after' := congrArg Prod.snd second.run
  refine ⟨second.failures, states, fun nothing => Stmt.noMoreLeft_walk left ?_⟩
  exact Stmt.leftOver_eq_nil_iff.mp ((checked.leftOver "").trans (Stmt.leftOver_eq_nil_iff.mpr nothing))

section After

variable {move : StmtId → StmtId} (quiet' : turn'.Quiet)
  (states : (reached.parallel due).States false (turn.after.renumber move) turn'.after)

include states

/-- Both turns have declared as many symbols. -/
theorem InStep.stop_after : ∃ n, turn.stop = turn.start + n ∧ turn'.stop = turn'.start + n := by
  obtain ⟨n, size, size'⟩ := states.size
  exact ⟨n, (SymbolTable.size_renumber move turn.after.symbols).symm.trans size, size'⟩

theorem InStep.held_after (index : Nat) :
    index < turn'.stop ↔ ∃ id, Paired ((turn, turn') :: twins) id (.declared index) := by
  obtain ⟨n, stop, stop'⟩ := reached.stop_after due states
  constructor
  · intro bound
    by_cases before : index < turn'.start
    · obtain ⟨id, paired⟩ := (reached.held index).mp before
      exact ⟨id, paired.mono _⟩
    · obtain ⟨m, rfl⟩ := Nat.exists_eq_add_of_le (Nat.le_of_not_lt before)
      exact ⟨_, .declared List.mem_cons_self (by omega)⟩
  · rintro ⟨id, paired⟩
    rcases paired_cons.mp paired with before | ⟨m, bound, -, same⟩
    · have bound := reached.lt_start before
      omega
    · cases same
      omega

theorem InStep.symbols_after :
    final.symbols.MatchedBy (Paired ((turn, turn') :: twins)) turn'.after.symbols := by
  intro id id' symbol paired held
  rcases paired_cons.mp paired with before | ⟨n, bound, rfl, rfl⟩
  · obtain ⟨symbol', held', same⟩ := reached.symbols id id' symbol before held
    exact ⟨symbol', turn'.later.symbols.kept id' symbol' held', same.mono fun _ _ => Paired.mono _⟩
  · -- the end of the run holds what the turn has left behind
    have left := Array.getElem?_eq_getElem bound
    cases held.symm.trans (due.later.symbols.kept _ _ left)
    exact states.symbols.of_renumber _ _ _ paired left

/-- The names that the statement declares stand for counterparts in the end. -/
theorem InStep.own_after {n : String} (own : n ∈ turn.stmt.declaredNames) :
    Option.Rel (Paired ((turn, turn') :: twins)) (final.scopes.inner.find? n)
      (turn'.after.scopes.inner.find? n) := by
  have related : Option.Rel (Paired ((turn, turn') :: twins)) (turn.after.scopes.inner.find? n)
      (turn'.after.scopes.inner.find? n) := by
    cases states.scopes with
    | outside agree => exact (List.forall₂_cons.mp (agree n (Or.inl own))).1
  have same : final.scopes.inner.find? n = turn.after.scopes.inner.find? n := by
    cases found : turn.after.scopes.inner.find? n with
    | some id => exact due.later.inner n id found
    | none =>
      by_cases plain : n = "_"
      · exact plain ▸ due.blank
      · have held := due.quiet.adds.held n own plain
        rw [found] at held
        cases held
  rwa [same]

include quiet'

/-- What the second run has reached behind the turn. -/
theorem InStep.after (declares : turn'.stmt.declaredNames = turn.stmt.declaredNames) :
    InStep final ((turn, turn') :: twins) turn'.after where
  forth := reached.forth_cons due
  back := reached.back_cons
  held := reached.held_after due states
  symbols := reached.symbols_after due states
  names twin listed n member := by
    by_cases own : n ∈ turn.stmt.declaredNames
    · exact reached.own_after due states own
    · rcases List.mem_cons.mp listed with rfl | listed
      · exact absurd member own
      · rw [quiet'.adds.others n (Or.inl (declares ▸ own))]
        exact Paired.optionMono _ (reached.names twin listed n member)
  others n absent := by
    obtain ⟨own, others⟩ := List.forall_mem_cons.mp absent
    rw [quiet'.adds.others n (Or.inl (declares ▸ own))]
    exact reached.others n others
  outer := turn'.later.outer.trans reached.outer
  diagnostics := states.diagnostics
    (List.prefix_nil.mp (due.silent ▸ due.later.diagnostics))

omit quiet' in
/-- The statement has used no more names for symbols from outside. -/
theorem InStep.uses_after {n : String} (used : turn'.Uses n) : turn.Uses n := by
  obtain ⟨id', member, outside⟩ := used
  obtain ⟨⟨_, id⟩, member, rfl, paired, held⟩ := states.uses _ member
  refine ⟨id, member, ?_⟩
  rw [State.renumber, SymbolTable.get?_renumber, Option.isSome_map] at held
  rcases paired_cons.mp paired with before | ⟨m, -, -, rfl⟩
  · exact due.held_before before held
  · obtain ⟨symbol, held'⟩ := Option.isSome_iff_exists.mp outside
    obtain ⟨bound, -⟩ := Array.getElem?_eq_some_iff.mp held'
    exact absurd bound (Nat.not_lt.mpr (Nat.le_add_right _ _))

end After

end Step

/-! ## The whole run -/

/-- A run at which nothing fails, and in which no statement looks for a name that is declared behind
    it. -/
structure Course (s : State) (turns : List Turn) (final : State) : Prop where
  run : Turns s turns final
  quiet : ∀ turn ∈ turns, turn.Quiet
  ordered : turns.Pairwise fun earlier later => ¬ earlier.LooksFor later
  named : s.WellScoped
  fresh : ∀ n, s.scopes.inner.find? n = none
  predeclared : ∀ scope ∈ s.scopes.outer, ∀ n id, scope.find? n = some id →
    ∃ index, id = .builtin index
  silent : final.diagnostics = []

namespace Course

variable {turns : List Turn} (course : Course s turns final)

include course

theorem declared_of_find? {n : String} (found : final.scopes.inner.find? n = some id) :
    n ≠ "_" ∧ ∃ turn ∈ turns, n ∈ turn.stmt.declaredNames :=
  (course.run.declared_of_find? course.quiet found).resolve_left
    fun before => nomatch (course.fresh n).symm.trans before

theorem find?_blank : final.scopes.inner.find? "_" = none := by
  by_contra found
  obtain ⟨id, found⟩ := Option.ne_none_iff_exists'.mp found
  exact (course.declared_of_find? found).1 rfl

/-- A name that a statement looks for is there in front of it exactly if some statement declares it. -/
theorem isSome_find?_iff (member : turn ∈ turns) {n : String} (plain : n ≠ "_") (used : turn.Uses n)
    (foreign : n ∉ turn.stmt.declaredNames) : (turn.before.scopes.inner.find? n).isSome ↔
      ∃ other ∈ turns, n ∈ other.stmt.declaredNames := by
  obtain ⟨front, behind, rfl, before, -⟩ := course.run.split member
  have quiet : ∀ turn ∈ front, turn.Quiet := fun turn listed =>
    course.quiet turn (List.mem_append_left _ listed)
  constructor
  · intro held
    obtain ⟨id, found⟩ := Option.isSome_iff_exists.mp held
    rcases before.declared_of_find? quiet found with early | ⟨-, other, listed, declares⟩
    · cases (course.fresh n).symm.trans early
    · exact ⟨other, List.mem_append_left _ listed, declares⟩
  · rintro ⟨other, listed, declares⟩
    rcases List.mem_append.mp listed with listed | listed
    · exact before.isSome_find? quiet listed declares plain
    · rcases List.mem_cons.mp listed with rfl | listed
      · exact absurd declares foreign
      · have ordered := (List.pairwise_append.mp course.ordered).2.1
        exact absurd ⟨n, declares, plain, used, foreign⟩
          ((List.pairwise_cons.mp ordered).1 other listed)

section Rest

variable {rest : List Turn} (perm : (turn :: rest ++ twins.map (·.1)).Perm turns)
  (ordered : (turn :: rest).Pairwise fun earlier later => ¬ earlier.LooksFor later)

include perm ordered

/-- The next turn of a second run, with some statements behind it and the others over. -/
theorem due : Due final twins turn := by
  have member : turn ∈ turns := perm.mem_iff.mp List.mem_cons_self
  have earlier : ∀ twin ∈ twins, twin.1 ∈ turns := fun twin listed =>
    perm.mem_iff.mp (List.mem_append_right _ (List.mem_map_of_mem listed))
  constructor
  case quiet => exact course.quiet turn member
  case named => exact (course.run.later_before member).wellScoped course.named
  case later => exact course.run.after_later member
  case silent => exact course.silent
  case predeclared =>
    have outer : final.scopes.outer = s.scopes.outer := course.run.later.outer
    exact outer ▸ course.predeclared
  case blank => exact course.find?_blank
  case apart =>
    have apart := (course.run.pairwise_apart course.quiet).perm perm.symm Turn.Apart.symm
    obtain ⟨-, -, across⟩ := List.pairwise_append.mp apart
    intro twin listed
    exact (across turn List.mem_cons_self twin.1 (List.mem_map_of_mem listed)).symm
  case seen =>
    intro n plain used foreign
    rw [course.isSome_find?_iff member plain used foreign]
    constructor
    · -- what the statement looks for is over in the second run as well
      rintro ⟨other, listed, declares⟩
      rcases List.mem_append.mp (perm.mem_iff.mpr listed) with listed | listed
      · rcases List.mem_cons.mp listed with rfl | listed
        · exact absurd declares foreign
        · exact absurd ⟨n, declares, plain, used, foreign⟩
            ((List.pairwise_cons.mp ordered).1 other listed)
      · obtain ⟨twin, finished, rfl⟩ := List.mem_map.mp listed
        exact ⟨twin, finished, declares⟩
    · rintro ⟨twin, listed, declares⟩
      exact ⟨twin.1, earlier twin listed, declares⟩

end Rest

end Course

/-- Whether a turn of the second run is no worse than its twin, which has the same statement. -/
structure Turn.Follows (turn turn' : Turn) : Prop where
  moved : ∃ move, Stmt.Moved move turn.stmt turn'.stmt
  quiet : turn'.Quiet
  left : LeavesNoMore turn.checked.walk turn'.checked.walk
  uses : ∀ n, turn'.Uses n → turn.Uses n

/-- The turns of a second run in an order in which no statement looks for a name that is declared behind
    it. -/
theorem Course.reached {turns : List Turn} (course : Course s turns final) {rest rest' : List Turn}
    (moved : List.Forall₂ (fun turn turn' => ∃ move, Stmt.Moved move turn.stmt turn'.stmt) rest rest') :
    ∀ {twins : List (Turn × Turn)} {s' t' : State}, Turns s' rest' t' → InStep final twins s' →
      (rest ++ twins.map (·.1)).Perm turns →
        rest.Pairwise (fun earlier later => ¬ earlier.LooksFor later) →
          List.Forall₂ Turn.Follows rest rest' ∧ ∃ twins' : List (Turn × Turn),
            (twins'.map (·.1)).Perm turns ∧ InStep final twins' t' := by
  induction moved with
  | nil =>
    intro twins s' t' run reached perm _
    cases run
    exact ⟨.nil, twins, perm, reached⟩
  | @cons turn turn' rest rest' moved _ hypothesis =>
    intro twins s' t' run reached perm ordered
    obtain ⟨move, moved⟩ := moved
    cases run with
    | cons _ run =>
      have due := course.due perm ordered
      obtain ⟨quiet, states, left⟩ := reached.parallel_turn due moved
      have after := reached.after due quiet states moved.declaredNames
      have follows : turn.Follows turn' :=
        ⟨⟨move, moved⟩, quiet, left, fun n => reached.uses_after due states⟩
      have perm : (rest ++ ((turn, turn') :: twins).map (·.1)).Perm turns :=
        List.perm_middle.trans perm
      obtain ⟨others, twins', all, reached⟩ := hypothesis run after perm ordered.of_cons
      exact ⟨.cons follows others, twins', all, reached⟩

/-! ## Both ends -/

/-- A second run is in step before its first turn. -/
theorem InStep.start (symbols : s'.symbols = .empty) (fresh : ∀ n, s'.scopes.inner.find? n = none)
    (outer : s'.scopes.outer = final.scopes.outer) (silent : s'.diagnostics = []) :
    InStep final [] s' where
  forth id a b first second := by
    obtain ⟨index, rfl, rfl⟩ := first.of_nil
    obtain ⟨_, same, rfl⟩ := second.of_nil
    exact same
  back id a b first second := by
    obtain ⟨index, rfl, rfl⟩ := first.of_nil
    obtain ⟨_, rfl, same⟩ := second.of_nil
    exact same
  held index := by
    rw [symbols]
    refine iff_of_false (Nat.not_lt_zero index) ?_
    rintro ⟨id, paired⟩
    obtain ⟨_, -, absurdity⟩ := paired.of_nil
    cases absurdity
  symbols id id' symbol paired held := by
    obtain ⟨index, rfl, rfl⟩ := paired.of_nil
    exact ⟨symbol, held, Prelude.matches (List.mem_of_getElem? held)⟩
  names := nofun
  others n _ := fresh n
  outer := outer
  diagnostics := silent

section End

variable {turns : List Turn} (course : Course s turns final) (reached : InStep final twins s')
  (all : (twins.map (·.1)).Perm turns)

include course reached all

/-- All names at the top stand for counterparts. -/
theorem Course.inner (n : String) : Option.Rel (Paired twins) (final.scopes.inner.find? n)
    (s'.scopes.inner.find? n) := by
  cases found : final.scopes.inner.find? n with
  | none =>
    rw [reached.find?_eq_none found]
    exact .none
  | some id =>
    obtain ⟨-, turn, member, declares⟩ := course.declared_of_find? found
    obtain ⟨twin, listed, rfl⟩ := List.mem_map.mp (all.mem_iff.mpr member)
    exact found ▸ reached.names twin listed n declares

theorem Course.find? (n : String) :
    Option.Rel (Paired twins) (final.scopes.find? n) (s'.scopes.find? n) := by
  have outer : final.scopes.outer = s.scopes.outer := course.run.later.outer
  rw [ScopeStack.find?_eq, ScopeStack.find?_eq, reached.outer]
  have inner := course.inner reached all n
  generalize final.scopes.inner.find? n = found, s'.scopes.inner.find? n = found' at inner ⊢
  cases inner with
  | some paired => exact .some paired
  | none =>
    rw [Option.none_or]
    generalize behind : (final.scopes.outer.findSome? (·.find? n)).or (Prelude.typeId? n) = place
    cases place with
    | none => exact .none
    | some id =>
      rcases Option.or_eq_some_iff.mp behind with found | ⟨-, found⟩
      · obtain ⟨scope, member, held⟩ := List.exists_of_findSome?_eq_some found
        obtain ⟨index, rfl⟩ := course.predeclared scope (outer ▸ member) n id held
        exact .some (.builtin index)
      · obtain ⟨index, -, rfl⟩ := Option.map_eq_some_iff.mp found
        exact .some (.builtin index)

/-- All names stand for symbols that look the same. -/
theorem Course.render_find? (named : final.WellScoped) (n : String) :
    ((s'.scopes.find? n).bind s'.symbols.get?).map Symbol.render =
      ((final.scopes.find? n).bind final.symbols.get?).map Symbol.render := by
  have related := course.find? reached all n
  cases found : final.scopes.find? n with
  | none =>
    rw [found] at related
    generalize s'.scopes.find? n = found' at related ⊢
    cases related
    rfl
  | some id =>
    obtain ⟨symbol, held, -⟩ := named.find? found
    rw [found] at related
    generalize s'.scopes.find? n = found' at related ⊢
    cases related with
    | some paired =>
      obtain ⟨symbol', held', same⟩ := reached.symbols _ _ symbol paired held
      rw [Option.bind_some, Option.bind_some, held, held', Option.map_some, Option.map_some, same.render]

/-- A symbol of the second run has a counterpart in the first one, with which it matches. -/
theorem Course.exists_matches {index : Nat} {symbol' : Symbol}
    (held' : s'.symbols.get? (.declared index) = some symbol') : ∃ id symbol,
      (id, symbol) ∈ final.symbols.entries ∧ Symbol.Matches (Paired twins) symbol symbol' := by
  obtain ⟨bound, -⟩ := Array.getElem?_eq_some_iff.mp held'
  obtain ⟨id, paired⟩ := (reached.held index).mp bound
  cases id with
  | builtin index => cases paired
  | declared first =>
    have there : first < final.symbols.declared.size := by
      cases paired with
      | @declared turn turn' listed n before =>
        have member : turn ∈ turns := all.mem_iff.mp (List.mem_map_of_mem listed)
        exact Nat.lt_of_lt_of_le before (course.run.after_later member).symbols.size
    have held := Array.getElem?_eq_getElem there
    obtain ⟨symbol, found, same⟩ := reached.symbols _ _ _ paired held
    cases held'.symm.trans found
    exact ⟨_, _, mem_entries.mpr ⟨first, rfl, held⟩, same⟩

/-- If no variable of the first run is left without a known type, none of the second one is. -/
theorem Course.leftOver_eq_nil (sound : final.symbols.failed = [])
    (nothing : final.symbols.leftOver = []) : s'.symbols.leftOver = [] := by
  refine List.filterMap_eq_nil_iff.mpr ?_
  rintro ⟨id', symbol'⟩ listed'
  obtain ⟨index, rfl, held'⟩ := mem_entries.mp listed'
  obtain ⟨id, symbol, listed, same⟩ := course.exists_matches reached all held'
  cases same with
  | @var v v' named typed =>
    have known : v.type.known = true := by
      have none := List.filterMap_eq_nil_iff.mp nothing _ listed
      simpa [SymbolTable.isFailed, sound] using none
    simp only [typed.known.trans known, Bool.or_true, if_true]
  | _ => rfl

end End

end PackageCheck.Package
