import PackageCheck.Proofs.Symbol.World
import PackageCheck.Typing.Tree

/-! # Keeping handles valid

The world of a check is fixed at its end: the table that the check leaves behind, or a later one. In
front of each step the symbols so far hold handles of that world, and the scopes lead to variables
and types of it. A step keeps this up, provided that what it inserts is still there in the end, and
what it comes to is valid in the same world. There is one rule for each way of putting checks
together. -/

namespace PackageCheck.Typing

/-! ## The invariant -/

/-- Whether all handles in a state are valid in a world. -/
structure State.ValidIn (s : State) (world : World) : Prop where
  symbols : s.symbols.ValidIn world
  scopes : ∀ scope ∈ s.scopes.all, ∀ name id, scope.find? name = some id → world.HasNamed id name

namespace State.ValidIn

variable {world : World} {s s' : State} {id : SymbolId}

/-- A step that leaves the symbols and the scopes alone. -/
theorem of_eq (valid : s.ValidIn world) (symbols : s'.symbols = s.symbols)
    (scopes : s'.scopes = s.scopes) : s'.ValidIn world where
  symbols := symbols ▸ valid.symbols
  scopes := scopes ▸ valid.scopes

theorem pushScope (valid : s.ValidIn world) : s.pushScope.ValidIn world where
  symbols := valid.symbols
  scopes scope member name id found := by
    rcases List.mem_cons.mp member with rfl | member
    · cases found
    · exact valid.scopes scope member name id found

theorem popScope (valid : s.ValidIn world) : s.popScope.ValidIn world where
  symbols := valid.symbols
  scopes scope member := by
    refine valid.scopes scope ?_
    have popped : scope ∈ (ScopeStack.pop s.scopes).all := member
    unfold ScopeStack.pop at popped
    split at popped
    -- the bottom scope stays open
    · exact popped
    · rename_i outer
      rw [ScopeStack.all, outer]
      exact List.mem_cons_of_mem _ popped

theorem insertSymbol {symbol : Symbol} (valid : s.ValidIn world) (own : symbol.ValidIn world) :
    (s.insertSymbol symbol).ValidIn world where
  symbols other held found := by
    rcases SymbolTable.get?_insert_inv found with before | ⟨-, rfl⟩
    · exact valid.symbols other held before
    · exact own
  scopes := valid.scopes

/-- A new name leads to the new symbol. -/
theorem insertNamed {symbol : Symbol} (valid : s.ValidIn world) (own : symbol.ValidIn world)
    (named : world.HasNamed s.symbols.nextId symbol.name) :
    (s.insertNamed symbol).ValidIn world where
  symbols := (valid.insertSymbol own).symbols
  scopes scope member name id found := by
    by_cases blank : symbol.name = "_"
    · simp only [State.insertNamed, if_pos blank] at member
      exact valid.scopes scope member name id found
    · simp only [State.insertNamed, if_neg blank] at member
      rcases List.mem_cons.mp member with rfl | member
      · by_cases same : name = symbol.name
        · subst same
          simp only [ScopeStack.add, NameMap.find?_insert_self, Option.some.injEq] at found
          exact found ▸ named
        · simp only [ScopeStack.add, NameMap.find?_insert_of_ne _ _ same] at found
          exact valid.scopes _ List.mem_cons_self name id found
      · exact valid.scopes scope (List.mem_cons_of_mem _ member) name id found

theorem setAliased {target : Ty} (valid : s.ValidIn world) (own : target.ValidIn world) :
    (s.setAliased id target).ValidIn world where
  symbols other held found := by
    rcases SymbolTable.get?_setAliased_inv found with before | ⟨decl, -, rfl⟩
    · exact valid.symbols other held before
    · intro type same
      exact Option.some.inj same ▸ own
  scopes := valid.scopes

theorem markIfFailed (valid : s.ValidIn world) (result : Except Diagnostic α) :
    (s.markIfFailed id result).ValidIn world := by
  cases result with
  | ok a => exact valid
  | error err =>
    refine ⟨fun other held found => ?_, valid.scopes⟩
    simp only [State.markIfFailed, SymbolTable.get?_markFailed] at found
    exact valid.symbols other held found

/-- A name that is found leads to a variable or a type of that name. -/
theorem find? {name : String} (valid : s.ValidIn world) (kept : s.symbols.KeptIn world)
    (found : s.scopes.find? name = some id) : world.HasNamed id name := by
  rcases Option.or_eq_some_iff.mp found with inScope | ⟨_, simple⟩
  · obtain ⟨scope, member, held⟩ := List.exists_of_findSome?_eq_some inScope
    exact valid.scopes scope member name id held
  · exact kept.hasNamed_typeId? simple

end State.ValidIn

/-! ## Rules -/

/-- Whether a check keeps all handles valid in a world that holds what it leaves behind, and comes
    to something with a property. -/
def Check.Upholds (world : World) (check : Check α) (Q : α → Prop) : Prop :=
  ∀ s : State, s.ValidIn world → (check.run s).2.symbols.KeptIn world →
    (check.run s).2.ValidIn world ∧ Q (check.run s).1

/-- Whether the result of an attempt has a property unless it is an error. -/
def Succeeding (V : α → Prop) : Except Diagnostic α → Prop
  | .ok a => V a
  | .error _ => True

theorem succeeding_true (result : Except Diagnostic α) : Succeeding (fun _ => True) result := by
  cases result <;> exact True.intro

/-- Whether the check of a node keeps all handles valid, and comes to a node with a property, and to
    a result with another one unless it is an error. -/
def Check.UpholdsNode (world : World) (check : Check (Checked ν τ)) (N : ν → Prop)
    (V : τ → Prop) : Prop :=
  check.Upholds world fun checked => N checked.1 ∧ Succeeding V checked.2

namespace Check

variable {world : World}

namespace Upholds

variable {Q : α → Prop}

theorem pure {a : α} (holds : Q a) : Upholds world (Pure.pure a : Check α) Q :=
  fun _ valid _ => ⟨valid, holds⟩

theorem bind {check : Check α} {next : α → Check β} {R : β → Prop} (first : check.Upholds world Q)
    (second : ∀ a, Q a → (next a).Upholds world R) : (check >>= next).Upholds world R := by
  intro s valid kept
  -- what the first check leaves behind is still there behind the second one
  have grows := (next (check.run s).1).grows (check.run s).2
  have ⟨between, holds⟩ := first s valid (kept.of_within grows.symbols.toWithin)
  exact second _ holds _ between kept

theorem state :
    Typing.state.Upholds world fun s => s.ValidIn world ∧ s.symbols.KeptIn world :=
  fun _ valid kept => ⟨valid, valid, kept⟩

/-- A change to neither the symbols nor the scopes. -/
theorem change {f : State → State} {grows : ∀ s : State, s.Grows (f s)}
    (symbols : ∀ s, (f s).symbols = s.symbols) (scopes : ∀ s, (f s).scopes = s.scopes) :
    (Typing.change f grows).Upholds world fun _ => True :=
  fun s valid _ => ⟨valid.of_eq (symbols s) (scopes s), True.intro⟩

theorem touch (name : String) (id : SymbolId) :
    (Typing.touch name id).Upholds world fun _ => True :=
  change (fun _ => rfl) fun _ => rfl

theorem report (err : Diagnostic) : (Typing.report err).Upholds world fun _ => True :=
  change (fun _ => rfl) fun _ => rfl

theorem note (result : Except Diagnostic α) :
    (Typing.note result).Upholds world fun _ => True := by
  refine change (fun s => ?_) fun s => ?_
  all_goals cases result <;> rfl

theorem noteForm (sound : Bool) (result : Except Diagnostic α) :
    (Typing.noteForm sound result).Upholds world fun _ => True := by
  refine change (fun s => ?_) fun s => ?_
  all_goals cases result <;> rfl

theorem record (result : Except Diagnostic α) :
    (Typing.record result).Upholds world fun _ => True := by
  refine change (fun s => ?_) fun s => ?_
  all_goals
    cases result with
    | ok a => rfl
    | error err => cases tainted : s.tainted <;>
        simp [State.note, State.record, State.judge, State.report, tainted]

theorem withScope {check : Check α} (inside : check.Upholds world Q) :
    (Typing.withScope check).Upholds world Q :=
  fun s valid kept => (inside s.pushScope valid.pushScope kept).imp (·.popScope) id

theorem insertSymbol {symbol : Symbol} (own : symbol.ValidIn world) :
    (Typing.insertSymbol symbol).Upholds world fun id => world.Has id symbol :=
  fun s valid kept => ⟨valid.insertSymbol own, kept _ _ (s.symbols.get?_insert_nextId symbol)⟩

/-! ### Attempts -/

theorem attempt {V : β → Prop} {first : Attempt α} {next : α → Attempt β}
    (head : first.run.Upholds world (Succeeding Q))
    (tail : ∀ a, Q a → (next a).run.Upholds world (Succeeding V)) :
    (first >>= next).run.Upholds world (Succeeding V) := by
  refine bind head fun result holds => ?_
  cases result with
  | ok a => exact tail a holds
  | error err => exact pure True.intro

theorem succeed {a : α} (holds : Q a) :
    (Pure.pure a : Attempt α).run.Upholds world (Succeeding Q) :=
  pure holds

theorem fail (err : Diagnostic) : (throw err : Attempt α).run.Upholds world (Succeeding Q) :=
  pure True.intro

theorem lift {check : Check α} (inside : check.Upholds world Q) :
    (liftM check : Attempt α).run.Upholds world (Succeeding Q) :=
  bind inside fun _ holds => pure holds

theorem ofExcept {result : Except Diagnostic α} (holds : Succeeding Q result) :
    (liftM result : Attempt α).run.Upholds world (Succeeding Q) :=
  pure holds

/-- A declaration leads to what it declares, a variable or a type. -/
theorem declare {ctx : Context} {symbol : Symbol} {position : Position}
    {result : Except Diagnostic Unit} (own : symbol.ValidIn world)
    (named : ∀ id, world.Has id symbol → world.HasNamed id symbol.name) :
    (Typing.declare ctx symbol position result).run.Upholds world
      (Succeeding fun id => world.Has id symbol) := by
  intro s valid kept
  cases clash : s.clash? symbol.name with
  | some previous =>
    rw [run_declare_of_clash clash]
    exact ⟨valid, True.intro⟩
  | none =>
    rw [run_declare_of_free clash] at kept ⊢
    have inserted := kept.of_markIfFailed
    have there : world.Has s.symbols.nextId symbol :=
      inserted _ _ (s.symbols.get?_insert_nextId symbol)
    exact ⟨(valid.insertNamed own (named _ there)).markIfFailed _, there⟩

end Upholds

/-! ### Nodes -/

namespace UpholdsNode

variable {N : ν → Prop} {V : τ → Prop}

theorem pure {node : ν} {result : Except Diagnostic τ} (holds : N node)
    (value : Succeeding V result) :
    UpholdsNode world (Pure.pure (node, result) : Check (Checked ν τ)) N V :=
  Upholds.pure ⟨holds, value⟩

theorem bind {Q : α → Prop} {check : Check α} {next : α → Check (Checked ν τ)}
    (first : check.Upholds world Q) (second : ∀ a, Q a → (next a).UpholdsNode world N V) :
    (check >>= next).UpholdsNode world N V :=
  Upholds.bind first second

theorem given {Q : α → Prop} {first : Attempt α} {node : ν} {next : α → Check (Checked ν τ)}
    (head : first.run.Upholds world (Succeeding Q)) (holds : N node)
    (tail : ∀ a, Q a → (next a).UpholdsNode world N V) :
    (Typing.given first node next).UpholdsNode world N V := by
  refine Upholds.bind head fun result value => ?_
  cases result with
  | ok a => exact tail a value
  | error err => exact pure holds True.intro

theorem rebuild {check : Check (Checked ν τ)} {f : ν → μ} {M : μ → Prop}
    (inside : check.UpholdsNode world N V) (node : ∀ x, N x → M (f x)) :
    (check.rebuild f).UpholdsNode world M V :=
  Upholds.bind inside fun _ ⟨holds, value⟩ => pure (node _ holds) value

theorem mapResult {check : Check (Checked ν σ)} {f : σ → τ} {W : σ → Prop}
    (inside : check.UpholdsNode world N W) (result : ∀ a, W a → V (f a)) :
    (check.mapResult f).UpholdsNode world N V := by
  refine Upholds.bind inside fun checked ⟨holds, value⟩ => pure holds ?_
  obtain ⟨x, ended⟩ := checked
  cases ended with
  | ok a => exact result a value
  | error err => exact True.intro

theorem conclude {check : Check (Checked ν σ)} {rule : σ → Attempt τ} {W : σ → Prop}
    (inside : check.UpholdsNode world N W)
    (ruled : ∀ a, W a → (rule a).run.Upholds world (Succeeding V)) :
    (check.conclude rule).UpholdsNode world N V := by
  refine Upholds.bind inside fun checked ⟨holds, value⟩ => ?_
  refine Upholds.bind (Upholds.attempt (Upholds.ofExcept value) ruled) fun result value => ?_
  exact pure holds value

theorem andThen {check : Check (Checked ν σ)} {node : μ} {next : σ → Check (Checked μ τ)}
    {W : σ → Prop} {M : μ → Prop} (head : check.UpholdsNode world N W) (holds : M node)
    (tail : ∀ a, W a → (next a).UpholdsNode world M V) :
    (check.andThen node next).UpholdsNode world (fun x => N x.1 ∧ M x.2) V := by
  refine Upholds.bind head fun checked ⟨first, value⟩ => ?_
  refine Upholds.bind (given (Upholds.ofExcept value) holds tail) fun checked' ⟨rest, value⟩ => ?_
  exact Upholds.pure ⟨⟨first, rest⟩, value⟩

theorem alongside {check : Check (Checked ν σ)} {other : Check (Checked μ τ)} {W : σ → Prop}
    {M : μ → Prop} (head : check.UpholdsNode world N W) (tail : other.UpholdsNode world M V) :
    (check.alongside other).UpholdsNode world (fun x => N x.1 ∧ M x.2) fun _ => True := by
  refine Upholds.bind head fun (first, result) holds => ?_
  refine Upholds.bind tail fun (second, others) holds' => ?_
  exact Upholds.pure ⟨⟨holds.1, holds'.1⟩, succeeding_true _⟩

theorem recorded {check : Check (Checked ν τ)} (inside : check.UpholdsNode world N V) :
    (Typing.recorded check).Upholds world N := by
  refine Upholds.bind Upholds.state fun before _ => ?_
  refine Upholds.bind (Upholds.change (fun _ => rfl) fun _ => rfl) fun _ _ => ?_
  refine Upholds.bind inside fun checked ⟨holds, _⟩ => ?_
  refine Upholds.bind (Upholds.record _) fun _ _ => ?_
  exact Upholds.bind (Upholds.change (fun _ => rfl) fun _ => rfl) fun _ _ => Upholds.pure holds

theorem noted {check : Check (Checked ν τ)} (inside : check.UpholdsNode world N V) :
    (Typing.noted check).UpholdsNode world N V :=
  Upholds.bind inside fun _ ⟨holds, value⟩ => Upholds.bind (Upholds.note _) fun _ _ =>
    pure holds value

/-- The definition of a type is looked at in a table that holds the type already. What is left to
    check behind it sees the type with its target. -/
theorem declareType {ctx : Context} {name : String} {position : Position} {node : ν}
    {define : Attempt (Ty × α)} {next : SymbolId → α → Check (Checked ν Unit)} {W : α → Prop}
    (holds : N node)
    (defines : define.run.Upholds world (Succeeding fun found => found.1.ValidIn world ∧ W found.2))
    (tail : ∀ id a, world.HasType id name → W a →
      (next id a).UpholdsNode world N fun _ => True) :
    (Typing.declareType ctx name position node define next).UpholdsNode world
      (fun x => (∀ id, x.1 = some id → world.HasType id name) ∧ N x.2) fun _ => True := by
  intro s valid kept
  cases clash : s.clash? name with
  | some previous =>
    rw [run_declareType_of_clash clash]
    exact ⟨valid, ⟨nofun, holds⟩, True.intro⟩
  | none =>
    have declared := define.run.grows (s.declaring ctx name position)
    have new := s.symbols.get?_insert_nextId
      (.type ⟨name, some .unknown, some (ctx.site position)⟩)
    -- whatever comes behind the declaration, the type is still there in the end
    have start : ∀ behind : State, behind.symbols.KeptIn world →
        (s.declaring ctx name position).Grows behind →
          world.HasType s.symbols.nextId name ∧ (s.declaring ctx name position).ValidIn world := by
      intro behind kept grows
      have there : world.HasType s.symbols.nextId name :=
        kept.of_within grows.symbols.toWithin _ _ new
      refine ⟨there, valid.insertNamed (fun target same => ?_) (Or.inr there)⟩
      cases same
      trivial
    cases defined : (define.run.run (s.declaring ctx name position)).1 with
    | error err =>
      rw [run_declareType_of_error clash defined] at kept ⊢
      have behind := kept.of_markIfFailed
      have ⟨there, begun⟩ := start _ behind declared
      have ended := (defines _ begun behind).1
      refine ⟨ended.markIfFailed (.error err : Except Diagnostic Unit), ⟨?_, holds⟩, True.intro⟩
      exact fun id same => Option.some.inj same ▸ there
    | ok found =>
      rw [run_declareType_of_ok clash defined] at kept ⊢
      -- what is kept in the end was kept at each step before, back to the definition
      have rest := kept.of_markIfFailed
      have aliased := rest.of_within ((next s.symbols.nextId found.2).grows _).symbols.toWithin
      have behind := aliased.of_setAliased
      have ⟨there, begun⟩ := start _ behind declared
      have ⟨ended, found'⟩ := defines _ begun behind
      rw [defined] at found'
      have ⟨last, inside, _⟩ :=
        tail s.symbols.nextId found.2 there found'.2 _ (ended.setAliased found'.1) rest
      refine ⟨last.markIfFailed _, ⟨?_, inside⟩, succeeding_true _⟩
      exact fun id same => Option.some.inj same ▸ there

end UpholdsNode

end Check

end PackageCheck.Typing
