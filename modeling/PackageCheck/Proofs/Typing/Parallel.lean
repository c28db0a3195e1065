import PackageCheck.Proofs.Symbol.Matching
import PackageCheck.Proofs.Tree.NoMoreLeft
import PackageCheck.Proofs.Typing.Annotations
import PackageCheck.Proofs.Typing.Quiet

/-! # Parallel runs

The same check may run from two states: the tables hold other symbols besides those that the check comes
to, and hold them in another order, and the scopes around it hold other names besides those that it looks
up. Where the first run is quiet so is the second one. It comes to the same, up to the handles, and leaves
states behind that correspond again.

What corresponds to what is fixed before the check begins. The symbols that it is going to declare are
paired in the order of their declaration, up to those that the first run has declared in the end. The
names that it may look up outside are the shared ones. `Covers` says of the first run that it keeps to
both, so it is asked of the state at the end, and the states on the way have it by growth. -/

namespace PackageCheck.Typing

/-! ## Corresponding states -/

/-- What corresponds in two runs of a check. -/
structure Parallel where
  /-- The handles of the first run and their counterparts in the second one. -/
  pairs : SymbolId → SymbolId → Prop
  forth : ∀ id a b, pairs id a → pairs id b → a = b
  back : ∀ id a b, pairs a id → pairs b id → a = b
  builtin : ∀ index, pairs (.builtin index) (.builtin index)
  /-- The names that stand for the same outside of the check. -/
  shared : String → Prop
  /-- The tables in front of the check. -/
  base : SymbolTable
  base' : SymbolTable
  /-- How many symbols the first run has declared behind the check. -/
  bound : Nat
  /-- The symbols that the check declares are paired in their order. -/
  next : ∀ n, base.declared.size + n < bound →
    pairs (.declared (base.declared.size + n)) (.declared (base'.declared.size + n))

namespace Parallel

variable (w : Parallel)

/-- Whether a symbol was there in front of the check. -/
def Old (id : SymbolId) : Prop :=
  (w.base.get? id).isSome

/-- Whether two states correspond. The index tells whether a scope of the check itself is open. -/
structure States (nested : Bool) (s s' : State) : Prop where
  named : s.WellScoped
  scopes : ScopesMatch w.pairs w.shared w.Old nested s.scopes.all s'.scopes.all
  symbols : s.symbols.MatchedBy w.pairs s'.symbols
  /-- Both runs have declared as many symbols so far. -/
  size : ∃ n, s.symbols.declared.size = w.base.declared.size + n ∧
    s'.symbols.declared.size = w.base'.declared.size + n
  uses : ∀ use' ∈ s'.uses, ∃ use ∈ s.uses,
    use'.1 = use.1 ∧ w.pairs use.2 use'.2 ∧ (s.symbols.get? use.2).isSome
  diagnostics : s.diagnostics = [] → s'.diagnostics = []

/-- Whether the first run keeps to the shared names and to its bound up to a state. -/
structure Covers (s : State) : Prop where
  uses : ∀ use ∈ s.uses, w.Old use.2 → w.shared use.1
  size : s.symbols.declared.size ≤ w.bound

variable {w} {nested : Bool} {s s' t t' : State}

theorem Covers.of_grows (covers : w.Covers t) (grows : s.Grows t) : w.Covers s where
  uses use member := covers.uses use (grows.uses.subset member)
  size := Nat.le_trans grows.symbols.size covers.size

/-- Where one more symbol is within the bound there is room for it. -/
theorem room_of_insert {symbol : Symbol} (within : (s.symbols.insert symbol).declared.size ≤ w.bound) :
    s.symbols.declared.size < w.bound := by
  rw [SymbolTable.insert, Array.size_push] at within
  exact within

/-! ### Steps -/

namespace States

/-- Symbols keep their names and stay in the table. -/
theorem isSome_of_within (within : s.symbols.Within t.symbols) {id : SymbolId}
    (held : (s.symbols.get? id).isSome) : (t.symbols.get? id).isSome := by
  obtain ⟨symbol, held⟩ := Option.isSome_iff_exists.mp held
  rw [within.kept id symbol held]
  rfl

theorem touch (states : w.States nested s s') {name : String} {id id' : SymbolId}
    (paired : w.pairs id id') (held : (s.symbols.get? id).isSome) :
    w.States nested (s.touch name id) (s'.touch name id') where
  named := states.named
  scopes := states.scopes
  symbols := states.symbols
  size := states.size
  uses use' member := by
    rcases List.mem_cons.mp member with rfl | member
    · exact ⟨(name, id), List.mem_cons_self, rfl, paired, held⟩
    · obtain ⟨use, before, same⟩ := states.uses use' member
      exact ⟨use, List.mem_cons_of_mem _ before, same⟩
  diagnostics := states.diagnostics

theorem pushScope (states : w.States nested s s') : w.States true s.pushScope s'.pushScope where
  named := states.named.pushScope
  scopes := states.scopes.push
  symbols := states.symbols
  size := states.size
  uses := states.uses
  diagnostics := states.diagnostics

/-- Behind a scope of its own the check is back in the scopes around it. -/
theorem popScope (around : w.States nested s s') (inside : w.States true t t')
    (grows : s.pushScope.Grows t) (grows' : s'.pushScope.Grows t') :
    w.States nested t.popScope t'.popScope where
  named := around.named.grows grows.popScope
  scopes := by
    rw [grows.scopes_popScope, grows'.scopes_popScope]
    exact around.scopes
  symbols := inside.symbols
  size := inside.size
  uses := inside.uses
  diagnostics := inside.diagnostics

theorem nextId (states : w.States nested s s') (room : s.symbols.declared.size < w.bound) :
    w.pairs s.symbols.nextId s'.symbols.nextId := by
  obtain ⟨n, size, size'⟩ := states.size
  rw [size] at room
  rw [SymbolTable.nextId, SymbolTable.nextId, size, size']
  exact w.next n room

section Declarations

variable {symbol symbol' : Symbol} (states : w.States nested s s')
  (room : s.symbols.declared.size < w.bound) (same : Symbol.Matches w.pairs symbol symbol')

include states room same

theorem symbols_insert :
    (s.symbols.insert symbol).MatchedBy w.pairs (s'.symbols.insert symbol') :=
  states.symbols.insert w.forth (states.nextId room) same

theorem insertSymbol : w.States nested (s.insertSymbol symbol) (s'.insertSymbol symbol') where
  named := states.named.grows (s.grows_insertSymbol symbol)
  scopes := states.scopes
  symbols := states.symbols_insert room same
  size := by
    obtain ⟨n, size, size'⟩ := states.size
    refine ⟨n + 1, ?_, ?_⟩
    · simp only [State.insertSymbol, SymbolTable.insert, Array.size_push, size, Nat.add_assoc]
    · simp only [State.insertSymbol, SymbolTable.insert, Array.size_push, size', Nat.add_assoc]
  uses use' member := by
    obtain ⟨use, before, named, paired, held⟩ := states.uses use' member
    exact ⟨use, before, named, paired,
      isSome_of_within (s.grows_insertSymbol symbol).symbols.toWithin held⟩
  diagnostics := states.diagnostics

/-- A name that is looked at can be declared on both sides or on none. -/
theorem insertNamed (free : s.clash? symbol.name = none)
    (seen : nested = true ∨ w.shared symbol.name) :
    s'.clash? symbol'.name = none ∧ w.States nested (s.insertNamed symbol) (s'.insertNamed symbol') := by
  have inserted := states.insertSymbol room same
  rw [State.clash?] at free ⊢
  rw [same.name]
  refine ⟨?_, ?_⟩
  · split at free
    case isTrue blank => rw [if_pos blank]
    case isFalse plain =>
      rw [if_neg plain]
      have related := states.scopes.innermost seen
      change s.scopes.inner.find? symbol.name = none at free
      rw [free] at related
      change s'.scopes.inner.find? symbol.name = none
      generalize s'.scopes.inner.find? symbol.name = held at related ⊢
      cases related
      rfl
  · refine ⟨states.named.grows (s.grows_insertNamed free), ?_, inserted.symbols, inserted.size,
      inserted.uses, inserted.diagnostics⟩
    by_cases blank : symbol.name = "_"
    · simp only [State.insertNamed, same.name, if_pos blank]
      exact states.scopes
    · simp only [State.insertNamed, same.name, if_neg blank]
      exact states.scopes.add seen (states.nextId room)

end Declarations

/-- Counterparts of a type that was just declared may be given matching targets. -/
theorem setAliased (states : w.States nested s s') {index index' : Nat} {decl : TypeDecl}
    {target target' : Ty} (paired : w.pairs (.declared index) (.declared index'))
    (declared : s.symbols.get? (.declared index) = some (.type decl))
    (same : Ty.Matches w.pairs target target') :
    w.States nested (s.setAliased (.declared index) target)
      (s'.setAliased (.declared index') target') where
  named scope member name id found := by
    obtain ⟨symbol, held, named⟩ := states.named scope member name id found
    obtain ⟨symbol', held', kept⟩ := State.get?_setAliased_name held target
    exact ⟨symbol', held', kept.trans named⟩
  scopes := states.scopes
  symbols := states.symbols.setAliased w.forth w.back paired declared same
  size := by
    simp only [State.setAliased, SymbolTable.size_setAliased]
    exact states.size
  uses use' member := by
    obtain ⟨use, before, named, related, held⟩ := states.uses use' member
    obtain ⟨symbol, held⟩ := Option.isSome_iff_exists.mp held
    obtain ⟨symbol', held', -⟩ := State.get?_setAliased_name held target
    exact ⟨use, before, named, related, Option.isSome_iff_exists.mpr ⟨symbol', held'⟩⟩
  diagnostics := states.diagnostics

/-- The simple types are behind all scopes. -/
theorem typeId? {name : String} {id : SymbolId} (found : Prelude.typeId? name = some id) :
    w.pairs id id ∧ w.Old id := by
  obtain ⟨index, listed, rfl⟩ := Option.map_eq_some_iff.mp found
  obtain ⟨inside, -⟩ := List.findIdx?_eq_some_iff_getElem.mp listed
  refine ⟨w.builtin index, ?_⟩
  have bound : index < Prelude.symbols.length := Nat.lt_of_lt_of_le inside (by decide)
  simp [Old, SymbolTable.get?, bound]

/-- What the first run finds under a name has its counterpart in the second one. -/
theorem find? (states : w.States nested s s') {name : String} {id : SymbolId}
    (found : s.scopes.find? name = some id) (seen : w.Old id → w.shared name) :
    ∃ id', s'.scopes.find? name = some id' ∧ w.pairs id id' := by
  have all : ∀ scope : Scope, scope.find? name = (scope.find? name).filter fun _ => true := by
    intro scope
    cases scope.find? name <;> rfl
  simp only [ScopeStack.find?, funext all] at found ⊢
  exact states.scopes.lookup (fun _ _ _ _ _ _ => rfl) (fun _ => typeId?) seen found

theorem findType? (states : w.States nested s s') {name : String} {id : SymbolId}
    (found : s.scopes.findType? s.symbols name = some id) (seen : w.Old id → w.shared name) :
    ∃ id', s'.scopes.findType? s'.symbols name = some id' ∧ w.pairs id id' := by
  refine states.scopes.lookup (fun scope member id id' held paired => ?_) (fun _ => typeId?) seen
    found
  obtain ⟨symbol, held, -⟩ := states.named scope member name id held
  exact states.symbols.isType paired held

end States

end Parallel

/-! ## Quiet runs put together -/

namespace Check.Quiet

variable {s s₁ s' : State}

theorem pure {a : α} : (Pure.pure a : Check α).Quiet s a s :=
  ⟨rfl, rfl⟩

theorem bind {check : Check α} {next : α → Check β} {a : α} {b : β} (first : check.Quiet s a s₁)
    (second : (next a).Quiet s₁ b s') : (check >>= next).Quiet s b s' := by
  refine ⟨?_, second.failures.trans first.failures⟩
  rw [run_bind, first.run]
  exact second.run

theorem change {f : State → State} {grows : ∀ s : State, s.Grows (f s)}
    (failures : (f s).failures = s.failures) : (Typing.change f grows).Quiet s () (f s) :=
  ⟨rfl, failures⟩

theorem withScope {check : Check α} {a : α} (inside : check.Quiet s.pushScope a s₁) :
    (Typing.withScope check).Quiet s a s₁.popScope := by
  obtain ⟨run, failures⟩ := inside
  refine ⟨?_, failures⟩
  change ((check.run s.pushScope).1, (check.run s.pushScope).2.popScope) = _
  rw [run]

theorem attempt {first : Attempt α} {next : α → Attempt β} {a : α} {b : β}
    (head : Succeeds first s a s₁) (tail : Succeeds (next a) s₁ b s') :
    Succeeds (first >>= next) s b s' := by
  refine ⟨?_, tail.failures.trans head.failures⟩
  change (ExceptT.bindCont next (first.run.run s).1).run (first.run.run s).2 = _
  rw [head.run]
  exact tail.run

theorem lift {check : Check α} {a : α} (quiet : check.Quiet s a s') :
    Succeeds (liftM check) s a s' :=
  bind quiet pure

theorem ofExcept {a : α} : Succeeds (liftM (Except.ok a : Except Diagnostic α)) s a s :=
  ⟨rfl, rfl⟩

theorem given {first : Attempt α} {node node' : ν} {next : α → Check (Checked ν τ)} {a : α} {b : τ}
    (head : Succeeds first s a s₁) (tail : (next a).Passes s₁ node' b s') :
    (Typing.given first node next).Passes s node' b s' := by
  refine ⟨?_, tail.failures.trans head.failures⟩
  rw [run_given_of_ok head.run]
  exact tail.run

theorem declareType {ctx : Context} {name : String} {position : Position} {node checked : ν}
    {define : Attempt (Ty × α)} {next : SymbolId → α → Check (Checked ν Unit)} {target : Ty} {a : α}
    {b : Unit} (free : s.clash? name = none)
    (defined : Succeeds define (s.declaring ctx name position) (target, a) s₁)
    (rest : (next s.symbols.nextId a).Passes (s₁.setAliased s.symbols.nextId target) checked b s') :
    (Typing.declareType ctx name position node define next).Passes s
      (some s.symbols.nextId, checked) b s' := by
  refine ⟨?_, rest.failures.trans defined.failures⟩
  rw [run_declareType_of_ok free (congrArg Prod.fst defined.run), defined.run]
  dsimp only
  rw [rest.run]
  rfl

end Check.Quiet

/-! ## Parallel checks -/

/-- Whether two checks run in parallel, with values that are related. -/
def Check.Parallels (w : Parallel) (nested : Bool) (check check' : Check α) (V : α → α → Prop) : Prop :=
  ∀ s s', w.States nested s s' → ∀ a t, check.Quiet s a t → w.Covers t →
    ∃ a' t', check'.Quiet s' a' t' ∧ w.States nested t t' ∧ V a a'

/-- Whether an attempt succeeds in parallel with another one, with values that are related. -/
def ParallelsAttempt (w : Parallel) (nested : Bool) (attempt attempt' : Attempt α)
    (V : α → α → Prop) : Prop :=
  ∀ s s', w.States nested s s' → ∀ a t, Succeeds attempt s a t → w.Covers t →
    ∃ a' t', Succeeds attempt' s' a' t' ∧ w.States nested t t' ∧ V a a'

/-- Whether a node checks in parallel with another one, with related nodes and related results. -/
def Check.ParallelsNode (w : Parallel) (nested : Bool) (check check' : Check (Checked ν τ))
    (N : ν → ν → Prop) (V : τ → τ → Prop) : Prop :=
  ∀ s s', w.States nested s s' → ∀ node a t, check.Passes s node a t → w.Covers t →
    ∃ node' a' t', check'.Passes s' node' a' t' ∧ w.States nested t t' ∧ N node node' ∧ V a a'

section Parallels

variable {w : Parallel} {nested : Bool}

namespace Check.Parallels

variable {check check' : Check α} {V : α → α → Prop}

theorem pure {a a' : α} (related : V a a') :
    Parallels w nested (Pure.pure a : Check α) (Pure.pure a') V := by
  intro s s' states b t quiet covers
  obtain ⟨rfl, rfl⟩ := quiet.pure_inv
  exact ⟨a', s', .pure, states, related⟩

theorem bind {next next' : α → Check β} {W : β → β → Prop}
    (first : Parallels w nested check check' V)
    (second : ∀ a a', V a a' → Parallels w nested (next a) (next' a') W) :
    Parallels w nested (check >>= next) (check' >>= next') W := by
  intro s s' states b t quiet covers
  obtain ⟨a, s₁, head, tail⟩ := quiet.bind_inv
  obtain ⟨a', s₁', head', states, related⟩ :=
    first s s' states a s₁ head (covers.of_grows tail.grows)
  obtain ⟨b', t', tail', states, related⟩ := second a a' related s₁ s₁' states b t tail covers
  exact ⟨b', t', head'.bind tail', states, related⟩

theorem state : Parallels w nested state state fun _ _ => True := by
  intro s s' states found t quiet covers
  obtain ⟨rfl, rfl⟩ := quiet.state_inv
  exact ⟨s', s', ⟨rfl, rfl⟩, states, True.intro⟩

theorem noteForm {sound sound' : Bool} {result : Except Diagnostic α} (a : α) :
    Parallels w nested (Typing.noteForm sound result)
      (Typing.noteForm sound' (.ok a : Except Diagnostic α)) fun _ _ => True := by
  intro s s' states b t quiet covers
  obtain ⟨-, rfl⟩ := quiet.noteForm_inv
  exact ⟨(), s', .change rfl, states, True.intro⟩

/-- In a scope of its own a check sees all names. -/
theorem withScope (inside : Parallels w true check check' V) :
    Parallels w nested (Typing.withScope check) (Typing.withScope check') V := by
  intro s s' states a t quiet covers
  obtain ⟨s₁, within, rfl⟩ := quiet.withScope_inv
  have seen : w.Covers s₁ := ⟨covers.uses, covers.size⟩
  obtain ⟨a', t', within', behind, related⟩ := inside _ _ states.pushScope a s₁ within seen
  exact ⟨a', _, within'.withScope, states.popScope behind within.grows within'.grows, related⟩

theorem insertSymbol {symbol symbol' : Symbol} (same : Symbol.Matches w.pairs symbol symbol') :
    Parallels w nested (Typing.insertSymbol symbol) (Typing.insertSymbol symbol') w.pairs := by
  intro s s' states id t quiet covers
  obtain ⟨rfl, rfl⟩ := quiet.insertSymbol_inv
  have room := Parallel.room_of_insert covers.size
  exact ⟨_, _, ⟨rfl, rfl⟩, states.insertSymbol room same, states.nextId room⟩

/-- What is reported by the second run is reported by the first one as well. -/
theorem report (err err' : Diagnostic) :
    Parallels w nested (Typing.report err) (Typing.report err') fun _ _ => True := by
  intro s s' states a t quiet covers
  obtain rfl := quiet.change_inv
  refine ⟨(), _, .change rfl, ?_, True.intro⟩
  refine ⟨states.named, states.scopes, states.symbols, states.size, states.uses, fun clean => ?_⟩
  exact absurd clean (List.append_ne_nil_of_right_ne_nil _ (List.cons_ne_nil _ _))

end Check.Parallels

namespace Check.ParallelsNode

variable {check check' : Check (Checked ν σ)} {N : ν → ν → Prop} {V : σ → σ → Prop}

theorem pure {node node' : ν} {a a' : τ} {V : τ → τ → Prop} (same : N node node')
    (related : V a a') : ParallelsNode w nested (Pure.pure (node, .ok a) : Check (Checked ν τ))
      (Pure.pure (node', .ok a')) N V := by
  intro s s' states b c t quiet covers
  obtain ⟨same', rfl⟩ := quiet.pure_inv
  cases same'
  exact ⟨node', a', s', .pure, states, same, related⟩

/-- A check that only fails. -/
theorem fail {node : ν} {err : Diagnostic} {check' : Check (Checked ν τ)} {V : τ → τ → Prop} :
    ParallelsNode w nested (Pure.pure (node, .error err)) check' N V := by
  intro s s' states b c t quiet covers
  cases quiet.pure_inv.1

theorem rebuild {f f' : ν → μ} {M : μ → μ → Prop} (inside : ParallelsNode w nested check check' N V)
    (built : ∀ node node', N node node' → M (f node) (f' node')) :
    ParallelsNode w nested (check.rebuild f) (check'.rebuild f') M V := by
  intro s s' states node a t quiet covers
  obtain ⟨part, within, rfl⟩ := quiet.rebuild_inv
  obtain ⟨part', a', t', within', states, same, related⟩ := inside s s' states part a t within covers
  exact ⟨f' part', a', t', Quiet.bind within' .pure, states, built _ _ same, related⟩

theorem mapResult {f f' : σ → τ} {W : τ → τ → Prop}
    (inside : ParallelsNode w nested check check' N V) (mapped : ∀ a a', V a a' → W (f a) (f' a')) :
    ParallelsNode w nested (check.mapResult f) (check'.mapResult f') N W := by
  intro s s' states node b t quiet covers
  obtain ⟨a, within, rfl⟩ := quiet.mapResult_inv
  obtain ⟨node', a', t', within', states, same, related⟩ := inside s s' states node a t within covers
  exact ⟨node', f' a', t', Quiet.bind within' .pure, states, same, mapped _ _ related⟩

/-- A node behind an attempt that it fails with. -/
theorem attempted {U : α → α → Prop} {first first' : Attempt α}
    {next next' : Except Diagnostic α → Check (Checked ν σ)}
    (head : ParallelsAttempt w nested first first' U)
    (failed : ∀ err s checked b t, ¬ (next (.error err)).Passes s checked b t)
    (tail : ∀ a a', U a a' → ParallelsNode w nested (next (.ok a)) (next' (.ok a')) N V) :
    ParallelsNode w nested (first.run >>= next) (first'.run >>= next') N V := by
  intro s s' states checked b t quiet covers
  obtain ⟨result, s₁, within, rest⟩ := quiet.bind_inv
  cases result with
  | error err => exact absurd rest (failed err s₁ checked b t)
  | ok a =>
    obtain ⟨a', s₁', within', states, related⟩ :=
      head s s' states a s₁ within (covers.of_grows rest.grows)
    obtain ⟨checked', b', t', rest', behind⟩ :=
      tail a a' related s₁ s₁' states checked b t rest covers
    exact ⟨checked', b', t', Quiet.bind within' rest', behind⟩

theorem given {U : α → α → Prop} {first first' : Attempt α} {node node' : ν}
    {next next' : α → Check (Checked ν σ)} (head : ParallelsAttempt w nested first first' U)
    (tail : ∀ a a', U a a' → ParallelsNode w nested (next a) (next' a') N V) :
    ParallelsNode w nested (Typing.given first node next) (Typing.given first' node' next') N V :=
  attempted head (fun _ _ _ _ _ passes => nomatch passes.pure_inv.1) tail

theorem conclude {rule rule' : σ → Attempt τ} {W : τ → τ → Prop}
    (inside : ParallelsNode w nested check check' N V)
    (ruled : ∀ a a', V a a' → ParallelsAttempt w nested (rule a) (rule' a') W) :
    ParallelsNode w nested (check.conclude rule) (check'.conclude rule') N W := by
  intro s s' states node b t quiet covers
  obtain ⟨a, s₁, within, succeeded⟩ := quiet.conclude_inv
  obtain ⟨node', a', s₁', within', states, same, related⟩ :=
    inside s s' states node a s₁ within (covers.of_grows succeeded.grows)
  obtain ⟨b', t', succeeded', states, related⟩ :=
    ruled a a' related s₁ s₁' states b t succeeded covers
  refine ⟨node', b', t', Quiet.bind within' (Quiet.bind (a := .ok b') ?_ .pure), states, same, related⟩
  exact Quiet.ofExcept.attempt succeeded'

theorem andThen {node node' : μ} {next next' : σ → Check (Checked μ τ)} {M : μ → μ → Prop}
    {W : τ → τ → Prop} (head : ParallelsNode w nested check check' N V)
    (tail : ∀ a a', V a a' → ParallelsNode w nested (next a) (next' a') M W) :
    ParallelsNode w nested (check.andThen node next) (check'.andThen node' next')
      (fun both both' => N both.1 both'.1 ∧ M both.2 both'.2) W := by
  intro s s' states both b t quiet covers
  obtain ⟨a, s₁, within, rest⟩ := quiet.andThen_inv
  obtain ⟨first', a', s₁', within', states, same, related⟩ :=
    head s s' states both.1 a s₁ within (covers.of_grows rest.grows)
  obtain ⟨second', b', t', rest', states, others, related⟩ :=
    tail a a' related s₁ s₁' states both.2 b t rest covers
  refine ⟨(first', second'), b', t', Quiet.bind within' ?_, states, ⟨same, others⟩, related⟩
  exact Quiet.bind (a := (second', .ok b')) (Quiet.given Quiet.ofExcept rest') .pure

theorem alongside {other other' : Check (Checked μ τ)} {M : μ → μ → Prop} {W : τ → τ → Prop}
    (head : ParallelsNode w nested check check' N V)
    (tail : ParallelsNode w nested other other' M W) :
    ParallelsNode w nested (check.alongside other) (check'.alongside other')
      (fun both both' => N both.1 both'.1 ∧ M both.2 both'.2) W := by
  intro s s' states both b t quiet covers
  obtain ⟨a, s₁, within, rest⟩ := quiet.alongside_inv
  obtain ⟨first', a', s₁', within', states, same, -⟩ :=
    head s s' states both.1 a s₁ within (covers.of_grows rest.grows)
  obtain ⟨second', b', t', rest', states, others, related⟩ :=
    tail s₁ s₁' states both.2 b t rest covers
  exact ⟨(first', second'), b', t', Quiet.bind within' (Quiet.bind rest' .pure), states,
    ⟨same, others⟩, related⟩

/-- A node behind another check. -/
theorem after {first first' : Check α} {next next' : α → Check (Checked ν σ)} {U : α → α → Prop}
    (head : Parallels w nested first first' U)
    (tail : ∀ a a', U a a' → ParallelsNode w nested (next a) (next' a') N V) :
    ParallelsNode w nested (first >>= next) (first' >>= next') N V := by
  intro s s' states node b t quiet covers
  obtain ⟨a, s₁, within, rest⟩ := quiet.bind_inv
  obtain ⟨a', s₁', within', states, related⟩ :=
    head s s' states a s₁ within (covers.of_grows rest.grows)
  obtain ⟨node', b', t', rest', behind⟩ := tail a a' related s₁ s₁' states node b t rest covers
  exact ⟨node', b', t', within'.bind rest', behind⟩

/-- A node behind another one that it fails with. -/
theorem bind {next next' : Checked ν σ → Check (Checked μ τ)} {M : μ → μ → Prop} {W : τ → τ → Prop}
    (head : ParallelsNode w nested check check' N V)
    (failed : ∀ node err s checked b t, ¬ (next (node, .error err)).Passes s checked b t)
    (tail : ∀ node node' a a', N node node' → V a a' →
      ParallelsNode w nested (next (node, .ok a)) (next' (node', .ok a')) M W) :
    ParallelsNode w nested (check >>= next) (check' >>= next') M W := by
  intro s s' states checked b t quiet covers
  obtain ⟨⟨node, result⟩, s₁, within, rest⟩ := quiet.bind_inv
  cases result with
  | error err => exact absurd rest (failed node err s₁ checked b t)
  | ok a =>
    obtain ⟨node', a', s₁', within', states, same, related⟩ :=
      head s s' states node a s₁ within (covers.of_grows rest.grows)
    obtain ⟨checked', b', t', rest', behind⟩ :=
      tail node node' a a' same related s₁ s₁' states checked b t rest covers
    exact ⟨checked', b', t', Quiet.bind within' rest', behind⟩

theorem withScope (inside : ParallelsNode w true check check' N V) :
    ParallelsNode w nested (Typing.withScope check) (Typing.withScope check') N V := by
  intro s s' states node a t quiet covers
  obtain ⟨s₁, within, rfl⟩ := quiet.withScope_inv
  obtain ⟨node', a', t', within', behind, related⟩ :=
    inside _ _ states.pushScope node a s₁ within ⟨covers.uses, covers.size⟩
  exact ⟨node', a', _, within'.withScope, states.popScope behind within.grows within'.grows, related⟩

/-- A statement is left as it was entered, with its error in place of the taint. -/
theorem recorded (inside : ParallelsNode w nested check check' N V) :
    Parallels w nested (Typing.recorded check) (Typing.recorded check') N := by
  intro s s' states node t quiet covers
  obtain ⟨a, s₁, within, rfl⟩ := quiet.recorded_inv
  have entered : w.States nested s.enter s'.enter :=
    ⟨states.named, states.scopes, states.symbols, states.size, states.uses, states.diagnostics⟩
  obtain ⟨node', a', t', within', behind, same, -⟩ :=
    inside s.enter s'.enter entered node a s₁ within ⟨covers.uses, covers.size⟩
  refine ⟨node', { t' with tainted := false }.leave s', ?_, ?_, same⟩
  · refine ⟨?_, within'.failures⟩
    rw [run_recorded, within'.run]
    rfl
  · exact ⟨behind.named, behind.scopes, behind.symbols, behind.size, behind.uses, behind.diagnostics⟩

theorem noted (inside : ParallelsNode w nested check check' N V) :
    ParallelsNode w nested (Typing.noted check) (Typing.noted check') N V := by
  intro s s' states node a t quiet covers
  obtain ⟨node', a', t', within', behind⟩ :=
    inside s s' states node a t quiet.noted_inv covers
  exact ⟨node', a', t', Quiet.bind within' (Quiet.bind (Quiet.change rfl) .pure), behind⟩

/-- A type that settles with the expected one does so in parallel. -/
theorem agreeing {what what' : String} {site site' : Expr → Site} {expected expected' : Ty}
    {check check' : Check (Checked Expr Ty)} (wanted : Ty.Matches w.pairs expected expected')
    (inside : ParallelsNode w nested check check' Expr.NoWorse (Ty.Matches w.pairs)) :
    ParallelsNode w nested (Typing.agreeing what site expected check)
      (Typing.agreeing what' site' expected' check') Expr.NoWorse (Ty.Matches w.pairs) := by
  intro s s' states e type t quiet covers
  obtain ⟨before, found, within, settled⟩ := quiet.agreeing_inv
  obtain ⟨before', found', t', within', states, same, related⟩ :=
    inside s s' states before found t within covers
  unfold settle at settled
  split at settled
  case h_2 => cases (Prod.mk.inj settled).2
  case h_1 common negotiated =>
    obtain ⟨rfl, result⟩ := Prod.mk.inj settled
    cases result
    obtain ⟨common', negotiated', matching⟩ := wanted.negotiate w.forth related negotiated
    refine ⟨if before'.isBlank then before' else { before' with type := common' }, common', t', ?_,
      states, ?_, matching⟩
    · refine Quiet.bind within' ?_
      simp only [settle, negotiated']
      exact .pure
    · rw [same.alike.isBlank]
      split
      · exact same
      · exact same.withType fun known => matching.known.trans known

theorem expecting {ctx ctx' : Context} {expected expected' : Ty}
    {infer infer' : Ty → Check (Checked Expr Ty)} (wanted : Ty.Matches w.pairs expected expected')
    (inside : ParallelsNode w nested (infer expected) (infer' expected') Expr.NoWorse
      (Ty.Matches w.pairs)) :
    ParallelsNode w nested (Typing.expecting ctx expected infer) (Typing.expecting ctx' expected' infer')
      Expr.NoWorse (Ty.Matches w.pairs) :=
  inside.agreeing wanted

end Check.ParallelsNode

namespace ParallelsAttempt

open Check

variable {V : β → β → Prop}

theorem attempt {U : α → α → Prop} {first first' : Attempt α} {next next' : α → Attempt β}
    (head : ParallelsAttempt w nested first first' U)
    (tail : ∀ a a', U a a' → ParallelsAttempt w nested (next a) (next' a') V) :
    ParallelsAttempt w nested (first >>= next) (first' >>= next') V := by
  intro s s' states b t quiet covers
  obtain ⟨a, s₁, succeeded, rest⟩ := quiet.attempt_inv
  obtain ⟨a', s₁', succeeded', states, related⟩ :=
    head s s' states a s₁ succeeded (covers.of_grows rest.grows)
  obtain ⟨b', t', rest', behind⟩ := tail a a' related s₁ s₁' states b t rest covers
  exact ⟨b', t', succeeded'.attempt rest', behind⟩

theorem succeed {b b' : β} (related : V b b') :
    ParallelsAttempt w nested (Pure.pure b : Attempt β) (Pure.pure b') V := by
  intro s s' states c t quiet covers
  obtain ⟨rfl, rfl⟩ := quiet.succeed_inv
  exact ⟨b', s', .pure, states, related⟩

theorem fail {err : Diagnostic} {attempt' : Attempt β} :
    ParallelsAttempt w nested (throw err : Attempt β) attempt' V :=
  fun _ _ _ _ _ quiet _ => absurd quiet Quiet.not_fail

/-- A result that does not depend on the state. -/
theorem ofExcept {result result' : Except Diagnostic β}
    (found : ∀ b, result = .ok b → ∃ b', result' = .ok b' ∧ V b b') :
    ParallelsAttempt w nested (liftM result : Attempt β) (liftM result') V := by
  intro s s' states b t quiet covers
  obtain ⟨same, rfl⟩ := quiet.ofExcept_inv
  obtain ⟨b', rfl, related⟩ := found b same
  exact ⟨b', s', .ofExcept, states, related⟩

/-- A condition that is the same for both. -/
theorem branch {condition condition' : Prop} [Decidable condition] [Decidable condition']
    (same : condition ↔ condition') {first first' second second' : Attempt β}
    (yes : ParallelsAttempt w nested first first' V) (no : ParallelsAttempt w nested second second' V) :
    ParallelsAttempt w nested (if condition then first else second)
      (if condition' then first' else second') V := by
  by_cases holds : condition
  · rwa [if_pos holds, if_pos (same.mp holds)]
  · rwa [if_neg holds, if_neg fun holds' => holds (same.mpr holds')]

end ParallelsAttempt

end Parallels

end PackageCheck.Typing
