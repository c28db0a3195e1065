import PackageCheck.Proofs.Symbol.Roots
import PackageCheck.Proofs.Typing.Lookup
import PackageCheck.Proofs.Typing.RuleValidity

/-! # Checks that come to the same twice

The check of an expression may declare symbols, inside of the function literals in it, and it notes what
it uses. It takes nothing back and leaves the scopes alone. So whoever comes behind it finds the same
under each name and behind each type that was there before: the states that share an outlook, which
are some scopes and at least some symbols, cannot be told apart by their results.

`Check.Fixed` says of a check that it comes to one and the same result in all of these states, and that
they share the outlook again behind it. The types in the result hold no symbol but those of the outlook,
and the rules that go on with them look no further. There is one rule for each way of putting checks
together. -/

namespace PackageCheck

theorem Except.toOption_eq_some {ε α : Type} {result : Except ε α} {a : α} :
    result.toOption = some a ↔ result = .ok a := by
  cases result <;> simp [Except.toOption]

namespace Typing

/-! ## What states share -/

/-- Some scopes, and symbols to which all names in them and all types lead. -/
structure Outlook where
  scopes : ScopeStack
  world : World
  symbols : world.symbols.ValidIn world
  names : ∀ scope ∈ scopes.all, ∀ name id, scope.find? name = some id → world.HasNamed id name

/-- Whether a state has the scopes of an outlook, and all of its symbols. -/
structure State.Shares (s : State) (outlook : Outlook) : Prop where
  scopes : s.scopes = outlook.scopes
  symbols : outlook.world.symbols.Within s.symbols

namespace Outlook

/-- The state that has nothing but the outlook. -/
def state (outlook : Outlook) : State where
  scopes := outlook.scopes
  symbols := outlook.world.symbols

variable {outlook : Outlook} {name : String} {id : SymbolId}

/-- A name leads to a symbol, whatever it stands for. -/
theorem exists_of_hasNamed (named : outlook.world.HasNamed id name) :
    ∃ symbol, outlook.world.symbols.get? id = some symbol ∧ symbol.name = name := by
  rcases named with ⟨v, held, named⟩ | ⟨decl, held, named⟩
  · exact ⟨.var v, held, named⟩
  · exact ⟨.type decl, held, named⟩

theorem exists_of_find? (found : outlook.scopes.find? name = some id) :
    ∃ symbol, outlook.world.symbols.get? id = some symbol := by
  have valid : outlook.state.ValidIn outlook.world := ⟨outlook.symbols, outlook.names⟩
  have named := valid.find? (SymbolTable.keptIn_symbols _) found
  obtain ⟨symbol, held, -⟩ := exists_of_hasNamed named
  exact ⟨symbol, held⟩

theorem exists_of_findType?
    (found : outlook.scopes.findType? outlook.world.symbols name = some id) :
    ∃ symbol, outlook.world.symbols.get? id = some symbol := by
  rcases Option.or_eq_some_iff.mp found with inScope | ⟨-, simple⟩
  · obtain ⟨scope, member, held⟩ := List.exists_of_findSome?_eq_some inScope
    have ⟨_, isType⟩ := Option.filter_eq_some_iff.mp held
    obtain ⟨symbol, there, -⟩ := Option.bind_eq_some_iff.mp (Option.some_get isType).symm
    exact ⟨symbol, there⟩
  · have named := (SymbolTable.keptIn_symbols outlook.world).hasNamed_typeId? simple
    obtain ⟨symbol, there, -⟩ := exists_of_hasNamed named
    exact ⟨symbol, there⟩

end Outlook

namespace State.Shares

variable {outlook : Outlook} {s s' : State} {name : String} {id : SymbolId} {type : Ty}

theorem grows (shares : s.Shares outlook) (grows : s.Grows s') (scopes : s'.scopes = s.scopes) :
    s'.Shares outlook :=
  ⟨scopes.trans shares.scopes, shares.symbols.trans grows.symbols.toWithin⟩

theorem wellScoped (shares : s.Shares outlook) : s.WellScoped := by
  intro scope member name id found
  rw [shares.scopes] at member
  obtain ⟨symbol, held, named⟩ :=
    Outlook.exists_of_hasNamed (outlook.names scope member name id found)
  exact ⟨symbol, shares.symbols.kept id symbol held, named⟩

theorem get?_eq (shares : s.Shares outlook) (found : outlook.scopes.find? name = some id) :
    s.symbols.get? id = outlook.world.symbols.get? id := by
  obtain ⟨symbol, held⟩ := Outlook.exists_of_find? found
  rw [held, shares.symbols.kept id symbol held]

theorem declaredType?_eq (shares : s.Shares outlook)
    (held : ∃ symbol, outlook.world.symbols.get? id = some symbol) :
    s.symbols.declaredType? id = outlook.world.symbols.declaredType? id := by
  obtain ⟨symbol, held⟩ := held
  exact shares.symbols.declaredType?_eq held

theorem findType?_eq (shares : s.Shares outlook) (name : String) :
    s.scopes.findType? s.symbols name = outlook.scopes.findType? outlook.world.symbols name := by
  rw [shares.scopes]
  refine ScopeStack.findType?_congr fun scope member id found => ?_
  obtain ⟨symbol, held, -⟩ := Outlook.exists_of_hasNamed (outlook.names scope member name id found)
  rw [SymbolTable.isType, SymbolTable.isType, held, shares.symbols.kept id symbol held]

theorem underlying_eq (shares : s.Shares outlook) (own : type.ValidIn outlook.world) :
    s.symbols.underlying type = outlook.world.symbols.underlying type :=
  shares.symbols.underlying_eq outlook.symbols own

theorem memberBase_eq (shares : s.Shares outlook) (own : type.ValidIn outlook.world) :
    s.symbols.memberBase type = outlook.world.symbols.memberBase type :=
  shares.symbols.memberBase_eq outlook.symbols own

end State.Shares

/-! ## Rules -/

/-- Whether what a check comes to has a property in all states that share an outlook, which they still
    do behind it. -/
def Check.Finds (outlook : Outlook) (check : Check α) (S : α → Prop) : Prop :=
  ∀ s : State, s.Shares outlook → S (check.run s).1 ∧ (check.run s).2.Shares outlook

/-- Whether a check comes to one and the same outcome in all states that share an outlook: a value, or
    none if it fails. -/
def Check.Yields (outlook : Outlook) (result : α → Except Diagnostic τ) (check : Check α)
    (outcome : Option τ) : Prop :=
  check.Finds outlook fun a => (result a).toOption = outcome

/-- Whether an attempt comes to the same wherever an outlook is shared. -/
abbrev YieldsAttempt (outlook : Outlook) (attempt : Attempt τ) (outcome : Option τ) : Prop :=
  Check.Yields outlook id attempt.run outcome

/-- Whether the check of a node comes to the same result wherever an outlook is shared. The handles in
    the node may differ. -/
abbrev Check.YieldsNode (outlook : Outlook) (check : Check (Checked ν τ)) (outcome : Option τ) : Prop :=
  Check.Yields outlook Prod.snd check outcome

/-- Whether a check comes to the same outcome wherever an outlook is shared, and whether the value has a
    property if it is one. -/
def Check.Fixed (outlook : Outlook) (result : α → Except Diagnostic τ) (check : Check α)
    (V : τ → Prop) : Prop :=
  ∃ outcome : Option τ, (∀ a, outcome = some a → V a) ∧ check.Yields outlook result outcome

/-- Whether an attempt comes to the same, with a property, wherever an outlook is shared. -/
abbrev FixedAttempt (outlook : Outlook) (attempt : Attempt τ) (V : τ → Prop) : Prop :=
  Check.Fixed outlook id attempt.run V

/-- Whether the check of a node comes to the same, with a property, wherever an outlook is shared. -/
abbrev Check.FixedNode (outlook : Outlook) (check : Check (Checked ν τ)) (V : τ → Prop) : Prop :=
  Check.Fixed outlook Prod.snd check V

variable {outlook : Outlook} {ctx : Context}

namespace Check

/-! ## States and values -/

namespace Finds

variable {check : Check α} {S : α → Prop}

theorem pure {a : α} (holds : S a) : Finds outlook (Pure.pure a : Check α) S :=
  fun _ shares => ⟨holds, shares⟩

theorem bind {next : α → Check β} {T : β → Prop} (first : check.Finds outlook S)
    (second : ∀ a, S a → (next a).Finds outlook T) : (check >>= next).Finds outlook T := by
  intro s shares
  have ⟨holds, between⟩ := first s shares
  exact second _ holds _ between

theorem imp {T : α → Prop} (finds : check.Finds outlook S) (implied : ∀ a, S a → T a) :
    check.Finds outlook T :=
  fun s shares => (finds s shares).imp_left (implied _)

/-- What is known of what a check comes to, in all states and up to any table behind it. -/
theorem also {T : α → Prop} (finds : check.Finds outlook S)
    (ensures : ∀ table, check.Ensures table T) : check.Finds outlook fun a => S a ∧ T a := by
  intro s shares
  have ⟨holds, behind⟩ := finds s shares
  exact ⟨⟨holds, ensures _ s shares.wellScoped (.refl _)⟩, behind⟩

theorem touch (name : String) (id : SymbolId) :
    (Typing.touch name id).Finds outlook fun _ => True :=
  fun s shares => ⟨True.intro, shares.grows (s.grows_touch name id) rfl⟩

/-- What is declared in a scope is forgotten when it closes, but for the symbols. -/
theorem withScope (check : Check α) : (Typing.withScope check).Finds outlook fun _ => True := by
  intro s shares
  have grows : s.pushScope.Grows (check.run s.pushScope).2 := check.grows s.pushScope
  exact ⟨True.intro, shares.grows grows.popScope grows.scopes_popScope⟩

end Finds

/-! ## Outcomes -/

namespace Yields

variable {result : α → Except Diagnostic τ} {outcome : Option τ}

/-- What is read of the state is the same wherever the outlook is shared. -/
theorem reads {next : State → Check α}
    (same : ∀ s : State, s.Shares outlook → next s = next outlook.state)
    (goes : (next outlook.state).Yields outlook result outcome) :
    (state >>= next).Yields outlook result outcome := by
  intro s shares
  have behind := goes s shares
  rw [← same s shares] at behind
  exact behind

theorem touched {name : String} {id : SymbolId} {next : Check α}
    (goes : next.Yields outlook result outcome) :
    Check.Yields outlook result (do touch name id; next) outcome :=
  (Finds.touch name id).bind fun _ _ => goes

/-- What goes on behind a check may look at what else the check has come to, as long as that makes no
    difference to the outcome. -/
theorem bind {first : Check β} {found : β → Except Diagnostic σ} {next : β → Check α} {o : Option σ}
    {k : σ → Option τ} (head : first.Yields outlook found o)
    (tail : ∀ x a, o = some a → found x = .ok a → (next x).Yields outlook result (k a))
    (stops : ∀ x err, found x = .error err → (next x).Yields outlook result none) :
    (first >>= next).Yields outlook result (o.bind k) := by
  refine Finds.bind head fun x ended => ?_
  cases found' : found x with
  | ok a =>
    rw [found'] at ended
    obtain rfl := ended
    exact tail x a rfl found'
  | error err =>
    rw [found'] at ended
    obtain rfl := ended
    exact stops x err found'

end Yields

namespace YieldsNode

variable {check : Check (Checked ν σ)} {o : Option σ}

theorem pure {node : ν} {result : Except Diagnostic τ} :
    YieldsNode outlook (Pure.pure (node, result) : Check (Checked ν τ)) result.toOption :=
  Finds.pure rfl

/-- What goes on with the result of a node puts the node away. -/
theorem bind {next : Checked ν σ → Check (Checked μ τ)} {k : σ → Option τ}
    (inside : check.YieldsNode outlook o)
    (tail : ∀ node a, o = some a → (next (node, .ok a)).YieldsNode outlook (k a))
    (stops : ∀ node err, (next (node, .error err)).YieldsNode outlook none) :
    YieldsNode outlook (check >>= next) (o.bind k) := by
  refine Yields.bind inside ?_ ?_
  · rintro ⟨node, _⟩ a same rfl
    exact tail node a same
  · rintro ⟨node, _⟩ err rfl
    exact stops node err

theorem given {attempt : Attempt α} {node : ν} {next : α → Check (Checked ν τ)} {o : Option α}
    {k : α → Option τ} (head : YieldsAttempt outlook attempt o)
    (tail : ∀ a, o = some a → (next a).YieldsNode outlook (k a)) :
    (Typing.given attempt node next).YieldsNode outlook (o.bind k) := by
  refine Yields.bind head ?_ ?_
  · rintro _ a same rfl
    exact tail a same
  · rintro _ err rfl
    exact pure

theorem rebuild {f : ν → μ} (inside : check.YieldsNode outlook o) :
    (check.rebuild f).YieldsNode outlook o := by
  have behind : (check.rebuild f).YieldsNode outlook (o.bind some) :=
    bind inside (fun _ _ _ => pure) fun _ _ => pure
  rwa [Option.bind_fun_some] at behind

theorem mapResult {f : σ → τ} (inside : check.YieldsNode outlook o) :
    (check.mapResult f).YieldsNode outlook (o.map f) := by
  have behind : (check.mapResult f).YieldsNode outlook (o.bind fun a => some (f a)) :=
    bind inside (fun _ _ _ => pure) fun _ _ => pure
  cases o <;> exact behind

theorem conclude {rule : σ → Attempt τ} {k : σ → Option τ} (inside : check.YieldsNode outlook o)
    (ruled : ∀ a, o = some a → YieldsAttempt outlook (rule a) (k a)) :
    (check.conclude rule).YieldsNode outlook (o.bind k) :=
  bind inside (fun _ a same => Finds.bind (ruled a same) fun _ ended => .pure ended)
    fun _ _ => pure

theorem andThen {node : μ} {next : σ → Check (Checked μ τ)} {k : σ → Option τ}
    (head : check.YieldsNode outlook o)
    (tail : ∀ a, o = some a → (next a).YieldsNode outlook (k a)) :
    (check.andThen node next).YieldsNode outlook (o.bind k) :=
  bind head (fun _ a same => Finds.bind (tail a same) fun _ ended => .pure ended) fun _ _ => pure

/-- What is settled is decided by the two types. -/
theorem agreeing {what : String} {site : Expr → Site} {expected : Ty}
    {check : Check (Checked Expr Ty)} {o : Option Ty} (inside : check.YieldsNode outlook o) :
    (Typing.agreeing what site expected check).YieldsNode outlook
      (o.bind fun found => (expected.negotiate found).toOption) := by
  refine bind inside (fun e found _ => Finds.pure ?_) fun _ _ => pure
  rw [settle]
  cases expected.negotiate found <;> rfl

theorem expecting {expected : Ty} {infer : Ty → Check (Checked Expr Ty)} {o : Option Ty}
    (inside : (infer expected).YieldsNode outlook o) :
    (Typing.expecting ctx expected infer).YieldsNode outlook
      (o.bind fun found => (expected.negotiate found).toOption) :=
  agreeing inside

end YieldsNode

/-! ## Properties of outcomes -/

namespace Fixed

variable {result : α → Except Diagnostic τ} {V : τ → Prop}

theorem reads {next : State → Check α}
    (same : ∀ s : State, s.Shares outlook → next s = next outlook.state)
    (goes : Fixed outlook result (next outlook.state) V) :
    Fixed outlook result (state >>= next) V :=
  goes.imp fun _ => And.imp_right (Yields.reads same)

theorem touched {name : String} {id : SymbolId} {next : Check α}
    (goes : Fixed outlook result next V) :
    Fixed outlook result (do touch name id; next) V :=
  goes.imp fun _ => And.imp_right Yields.touched

/-- Where a check goes on behind a value, its outcome is one for each value, and there is at most one
    value. -/
theorem bindOutcome {check : Check β} {found : β → Except Diagnostic σ} {W : σ → Prop}
    {next : σ → Option τ → Prop} {whole : Check α} (head : Fixed outlook found check W)
    (tail : ∀ a, W a → ∃ outcome : Option τ, (∀ b, outcome = some b → V b) ∧ next a outcome)
    (both : ∀ (o : Option σ) (k : σ → Option τ), check.Yields outlook found o →
      (∀ a, o = some a → next a (k a)) → whole.Yields outlook result (o.bind k)) :
    Fixed outlook result whole V := by
  obtain ⟨o, value, yields⟩ := head
  cases o with
  | none => exact ⟨none, nofun, both none (fun _ => none) yields nofun⟩
  | some a =>
    obtain ⟨outcome, value', goes⟩ := tail a (value a rfl)
    refine ⟨outcome, value', both (some a) (fun _ => outcome) yields fun b same => ?_⟩
    exact Option.some.inj same ▸ goes

end Fixed

namespace FixedNode

variable {check : Check (Checked ν σ)} {W : σ → Prop} {V : τ → Prop}

theorem ok {node : ν} {a : τ} (value : V a) :
    FixedNode outlook (Pure.pure (node, .ok a) : Check (Checked ν τ)) V :=
  ⟨some a, fun _ same => Option.some.inj same ▸ value, YieldsNode.pure⟩

theorem error {node : ν} {err : Diagnostic} :
    FixedNode outlook (Pure.pure (node, .error err) : Check (Checked ν τ)) V :=
  ⟨none, nofun, YieldsNode.pure⟩

theorem given {attempt : Attempt α} {node : ν} {next : α → Check (Checked ν τ)} {Q : α → Prop}
    (head : FixedAttempt outlook attempt Q) (tail : ∀ a, Q a → (next a).FixedNode outlook V) :
    (Typing.given attempt node next).FixedNode outlook V :=
  Fixed.bindOutcome head tail fun _ _ => YieldsNode.given

theorem rebuild {f : ν → μ} (inside : check.FixedNode outlook W) :
    (check.rebuild f).FixedNode outlook W :=
  inside.imp fun _ => And.imp_right YieldsNode.rebuild

theorem mapResult {f : σ → τ} (inside : check.FixedNode outlook W)
    (mapped : ∀ a, W a → V (f a)) : (check.mapResult f).FixedNode outlook V := by
  obtain ⟨o, value, yields⟩ := inside
  refine ⟨o.map f, fun b same => ?_, YieldsNode.mapResult yields⟩
  obtain ⟨a, found, rfl⟩ := Option.map_eq_some_iff.mp same
  exact mapped a (value a found)

theorem conclude {rule : σ → Attempt τ} (inside : check.FixedNode outlook W)
    (ruled : ∀ a, W a → FixedAttempt outlook (rule a) V) :
    (check.conclude rule).FixedNode outlook V :=
  Fixed.bindOutcome inside ruled fun _ _ => YieldsNode.conclude

theorem andThen {node : μ} {next : σ → Check (Checked μ τ)} (head : check.FixedNode outlook W)
    (tail : ∀ a, W a → (next a).FixedNode outlook V) :
    (check.andThen node next).FixedNode outlook V :=
  Fixed.bindOutcome head tail fun _ _ => YieldsNode.andThen

theorem expecting {expected : Ty} {infer : Ty → Check (Checked Expr Ty)}
    (own : expected.ValidIn outlook.world)
    (inside : (infer expected).FixedNode outlook (Ty.ValidIn outlook.world)) :
    (Typing.expecting ctx expected infer).FixedNode outlook (Ty.ValidIn outlook.world) := by
  obtain ⟨o, value, yields⟩ := inside
  refine ⟨_, fun type same => ?_, YieldsNode.expecting yields⟩
  obtain ⟨found, inferred, agreed⟩ := Option.bind_eq_some_iff.mp same
  exact Ty.validIn_negotiate own (value found inferred) (Except.toOption_eq_some.mp agreed)

end FixedNode

end Check

/-! ## Attempts -/

namespace YieldsAttempt

theorem attempt {first : Attempt σ} {next : σ → Attempt τ} {o : Option σ} {k : σ → Option τ}
    (head : YieldsAttempt outlook first o)
    (tail : ∀ a, o = some a → YieldsAttempt outlook (next a) (k a)) :
    YieldsAttempt outlook (first >>= next) (o.bind k) := by
  refine Check.Yields.bind head ?_ ?_
  · rintro _ a same rfl
    exact tail a same
  · rintro _ err rfl
    exact .pure rfl

theorem reads {next : State → Attempt τ} {outcome : Option τ}
    (same : ∀ s : State, s.Shares outlook → next s = next outlook.state)
    (goes : YieldsAttempt outlook (next outlook.state) outcome) :
    YieldsAttempt outlook (do next (← state)) outcome :=
  @Check.Yields.reads _ _ _ _ _ (fun s => (next s).run) same goes

end YieldsAttempt

namespace FixedAttempt

variable {V : τ → Prop}

theorem succeed {a : τ} (value : V a) : FixedAttempt outlook (Pure.pure a : Attempt τ) V :=
  ⟨some a, fun _ same => Option.some.inj same ▸ value, .pure rfl⟩

theorem fail {err : Diagnostic} : FixedAttempt outlook (throw err : Attempt τ) V :=
  ⟨none, nofun, .pure rfl⟩

theorem ofExcept {result : Except Diagnostic τ} (value : Succeeding V result) :
    FixedAttempt outlook (liftM result : Attempt τ) V := by
  cases result with
  | ok a => exact succeed value
  | error err => exact fail

theorem attempt {Q : σ → Prop} {first : Attempt σ} {next : σ → Attempt τ}
    (head : FixedAttempt outlook first Q) (tail : ∀ a, Q a → FixedAttempt outlook (next a) V) :
    FixedAttempt outlook (first >>= next) V :=
  Check.Fixed.bindOutcome head tail fun _ _ => YieldsAttempt.attempt

theorem reads {next : State → Attempt τ}
    (same : ∀ s : State, s.Shares outlook → next s = next outlook.state)
    (goes : FixedAttempt outlook (next outlook.state) V) :
    FixedAttempt outlook (do next (← state)) V :=
  goes.imp fun _ => And.imp_right (YieldsAttempt.reads same)

theorem touched {name : String} {id : SymbolId} {next : Attempt τ}
    (goes : FixedAttempt outlook next V) :
    FixedAttempt outlook (do touch name id; next) V :=
  Check.Fixed.touched goes

end FixedAttempt

end Typing

end PackageCheck
