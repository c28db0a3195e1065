import PackageCheck.Proofs.Symbol.Extension
import PackageCheck.Typing.Tree

/-! # What checks come to

What a check finds out about the symbols stays true, since a check only adds to the table. So it
can be said of one table, that of the end of a run, and the states on the way need not be
mentioned. There is one rule for each way of putting checks together. -/

namespace PackageCheck.Typing

/-- A state in which nothing is declared. -/
def State.bare : State := { scopes := ⟨.empty, []⟩, symbols := .empty }

theorem State.wellScoped_bare : State.bare.WellScoped := by
  intro scope member name id held
  cases List.mem_singleton.mp member
  cases held

/-- Whether what a check comes to has a property in every run that ends with a table. -/
def Check.Ensures (table : SymbolTable) (check : Check α) (Q : α → Prop) : Prop :=
  ∀ s : State, s.WellScoped → (check.run s).2.symbols.Within table → Q (check.run s).1

/-- Whether a result has a property if it is not an error. -/
def Passing (V : α → Prop) (result : Except Diagnostic α) : Prop :=
  ∀ a, result = .ok a → V a

/-- Whether what the check of a node comes to has a property, and another one if the node
    checks. -/
def Check.EnsuresNode (table : SymbolTable) (check : Check (Checked ν τ)) (N : ν → Prop)
    (V : ν → τ → Prop) : Prop :=
  check.Ensures table fun checked => N checked.1 ∧ Passing (V checked.1) checked.2

namespace Check

variable {table : SymbolTable}

/-! ## Computations -/

namespace Ensures

variable {Q : α → Prop}

theorem pure {a : α} (holds : Q a) : Ensures table (Pure.pure a : Check α) Q :=
  fun _ _ _ => holds

theorem bind {check : Check α} {next : α → Check β} {R : β → Prop} (first : check.Ensures table Q)
    (second : ∀ a, Q a → (next a).Ensures table R) : (check >>= next).Ensures table R := by
  intro s named within
  have between : (check.run s).2.WellScoped := named.grows (check.grows s)
  have later := ((next (check.run s).1).grows (check.run s).2).symbols
  exact second _ (first s named (later.toWithin.trans within)) _ between within

theorem imp {check : Check α} {R : α → Prop} (ensures : check.Ensures table Q)
    (implied : ∀ a, Q a → R a) : check.Ensures table R :=
  fun s named within => implied _ (ensures s named within)

theorem and {check : Check α} {R : α → Prop} (first : check.Ensures table Q)
    (second : check.Ensures table R) : check.Ensures table fun a => Q a ∧ R a :=
  fun s named within => ⟨first s named within, second s named within⟩

theorem state : state.Ensures table fun s => s.WellScoped ∧ s.symbols.Within table :=
  fun _ named within => ⟨named, within⟩

theorem trivial (check : Check α) : check.Ensures table fun _ => True :=
  fun _ _ _ => True.intro

theorem withScope {check : Check α} (inside : check.Ensures table Q) :
    (Typing.withScope check).Ensures table Q :=
  fun _ named within => inside _ named.pushScope within

/-! ## Attempts -/

theorem attempt {V : β → Prop} {first : Attempt α} {next : α → Attempt β}
    (head : first.run.Ensures table (Passing Q))
    (tail : ∀ a, Q a → (next a).run.Ensures table (Passing V)) :
    (first >>= next).run.Ensures table (Passing V) := by
  refine bind head fun result passing => ?_
  cases result with
  | ok a => exact tail a (passing a rfl)
  | error err => exact pure nofun

theorem succeed {a : α} (holds : Q a) :
    (Pure.pure a : Attempt α).run.Ensures table (Passing Q) :=
  pure fun _ same => Except.ok.inj same ▸ holds

theorem fail (err : Diagnostic) : (throw err : Attempt α).run.Ensures table (Passing Q) :=
  pure nofun

theorem lift {check : Check α} (inside : check.Ensures table Q) :
    (liftM check : Attempt α).run.Ensures table (Passing Q) :=
  bind inside fun _ holds => pure fun _ same => Except.ok.inj same ▸ holds

theorem ofExcept {result : Except Diagnostic α} (passing : Passing Q result) :
    (liftM result : Attempt α).run.Ensures table (Passing Q) :=
  pure passing

end Ensures

/-! ## Nodes -/

namespace EnsuresNode

variable {N : ν → Prop} {V : ν → τ → Prop}

theorem pure {node : ν} {result : Except Diagnostic τ} (holds : N node)
    (passing : Passing (V node) result) :
    EnsuresNode table (Pure.pure (node, result) : Check (Checked ν τ)) N V :=
  Ensures.pure ⟨holds, passing⟩

theorem error {node : ν} {err : Diagnostic} (holds : N node) :
    EnsuresNode table (Pure.pure (node, .error err) : Check (Checked ν τ)) N V :=
  pure holds nofun

theorem ok {node : ν} {a : τ} (holds : N node) (value : V node a) :
    EnsuresNode table (Pure.pure (node, .ok a) : Check (Checked ν τ)) N V :=
  pure holds fun _ same => Except.ok.inj same ▸ value

theorem bind {Q : α → Prop} {check : Check α} {next : α → Check (Checked ν τ)}
    (first : check.Ensures table Q) (second : ∀ a, Q a → (next a).EnsuresNode table N V) :
    (check >>= next).EnsuresNode table N V :=
  Ensures.bind first second

theorem imp {check : Check (Checked ν τ)} {N' : ν → Prop} {V' : ν → τ → Prop}
    (ensures : check.EnsuresNode table N V) (node : ∀ x, N x → N' x)
    (value : ∀ x a, N x → V x a → V' x a) : check.EnsuresNode table N' V' :=
  Ensures.imp ensures fun _ ⟨holds, passing⟩ =>
    ⟨node _ holds, fun a passed => value _ a holds (passing a passed)⟩

theorem trivial (check : Check (Checked ν τ)) :
    check.EnsuresNode table (fun _ => True) fun _ _ => True :=
  fun _ _ _ => ⟨True.intro, fun _ _ => True.intro⟩

/-- A node has two properties at once. -/
theorem also {check : Check (Checked ν τ)} {N' : ν → Prop} {V' : ν → τ → Prop}
    (ensures : check.EnsuresNode table N V) (others : check.EnsuresNode table N' V') :
    check.EnsuresNode table (fun x => N x ∧ N' x) V := by
  intro s named within
  have first := ensures s named within
  exact ⟨⟨first.1, (others s named within).1⟩, first.2⟩

theorem given {Q : α → Prop} {first : Attempt α} {node : ν} {next : α → Check (Checked ν τ)}
    (head : first.run.Ensures table (Passing Q)) (holds : N node)
    (tail : ∀ a, Q a → (next a).EnsuresNode table N V) :
    (Typing.given first node next).EnsuresNode table N V := by
  refine Ensures.bind head fun result passing => ?_
  cases result with
  | ok a => exact tail a (passing a rfl)
  | error err => exact error holds

theorem rebuild {check : Check (Checked ν τ)} {f : ν → μ} {N' : μ → Prop} {V' : μ → τ → Prop}
    (ensures : check.EnsuresNode table (fun x => N' (f x)) fun x => V' (f x)) :
    (check.rebuild f).EnsuresNode table N' V' :=
  Ensures.bind ensures fun _ ⟨holds, passing⟩ => pure holds passing

theorem mapResult {check : Check (Checked ν σ)} {f : σ → τ} {W : ν → σ → Prop}
    (ensures : check.EnsuresNode table N W) (value : ∀ x a, N x → W x a → V x (f a)) :
    (check.mapResult f).EnsuresNode table N V := by
  refine Ensures.bind ensures fun checked ⟨holds, passing⟩ => pure holds fun a passed => ?_
  cases ended : checked.2 with
  | ok b =>
    rw [ended] at passed
    cases passed
    exact value _ b holds (passing b ended)
  | error err =>
    rw [ended] at passed
    cases passed

theorem conclude {check : Check (Checked ν σ)} {rule : σ → Attempt τ} {W : ν → σ → Prop}
    (ensures : check.EnsuresNode table N W)
    (ruled : ∀ x a, N x → W x a → (rule a).run.Ensures table (Passing (V x))) :
    (check.conclude rule).EnsuresNode table N V := by
  refine Ensures.bind ensures fun checked ⟨holds, passing⟩ => ?_
  refine Ensures.bind (Ensures.attempt (Ensures.ofExcept passing) fun a value => ?_)
    fun result passing => pure holds passing
  exact ruled _ a holds value

theorem andThen {check : Check (Checked ν σ)} {node : μ} {next : σ → Check (Checked μ τ)}
    {W : ν → σ → Prop} {M : μ → Prop} {P : ν × μ → Prop} {U : ν × μ → τ → Prop}
    (head : check.EnsuresNode table N W) (holds : M node)
    (tail : ∀ x a, N x → W x a → (next a).EnsuresNode table M fun y => U (x, y))
    (both : ∀ x y, N x → M y → P (x, y)) : (check.andThen node next).EnsuresNode table P U := by
  refine Ensures.bind head fun checked ⟨first, passing⟩ => ?_
  obtain ⟨x, result⟩ := checked
  have second : (Typing.given (liftM result) node next).EnsuresNode table M fun y => U (x, y) :=
    given (Ensures.ofExcept passing) holds fun a value => tail x a first value
  refine Ensures.bind second fun checked ⟨rest, passing⟩ => ?_
  exact Ensures.pure ⟨both _ _ first rest, passing⟩

theorem alongside {check : Check (Checked ν σ)} {other : Check (Checked μ τ)} {M : μ → Prop}
    {W : ν → σ → Prop} {W' : μ → τ → Prop} {P : ν × μ → Prop}
    (head : check.EnsuresNode table N W) (tail : other.EnsuresNode table M W')
    (both : ∀ x y, N x → M y → P (x, y)) :
    (check.alongside other).EnsuresNode table P fun _ _ => True := by
  refine Ensures.bind head fun checked ⟨first, _⟩ => ?_
  refine Ensures.bind tail fun checked' ⟨second, _⟩ => ?_
  exact Ensures.pure ⟨both _ _ first second, fun _ _ => True.intro⟩

theorem recorded {check : Check (Checked ν τ)} (ensures : check.EnsuresNode table N V) :
    (Typing.recorded check).Ensures table N :=
  Ensures.bind (Ensures.trivial _) fun _ _ => Ensures.bind (Ensures.trivial _) fun _ _ =>
    Ensures.bind ensures fun _ ⟨holds, _⟩ => Ensures.bind (Ensures.trivial _) fun _ _ =>
      Ensures.bind (Ensures.trivial _) fun _ _ => Ensures.pure holds

theorem noted {check : Check (Checked ν τ)} (ensures : check.EnsuresNode table N V) :
    (Typing.noted check).EnsuresNode table N V :=
  Ensures.bind ensures fun _ ⟨holds, passing⟩ => Ensures.bind (Ensures.trivial _) fun _ _ =>
    pure holds passing

/-- The check behind the definition of a type sees the type in the table. -/
theorem declareType {ctx : Context} {name : String} {position : Position} {node : ν}
    {define : Attempt (Ty × α)} {next : SymbolId → α → Check (Checked ν Unit)}
    {V : ν → Unit → Prop} (holds : N node)
    (tail : ∀ id a, (next id a).EnsuresNode table N V) :
    (Typing.declareType ctx name position node define next).EnsuresNode table (fun x => N x.2)
      fun _ _ => True := by
  intro s named within
  refine ⟨?_, fun _ _ => True.intro⟩
  cases clash : s.clash? name with
  | some previous =>
    rw [run_declareType_of_clash clash]
    exact holds
  | none =>
    have declared : s.Grows (s.declaring ctx name position) :=
      State.grows_insertNamed (by simpa [Symbol.name] using clash)
    cases defined : (define.run.run (s.declaring ctx name position)).1 with
    | error err =>
      rw [run_declareType_of_error clash defined]
      exact holds
    | ok found =>
      rw [run_declareType_of_ok clash defined] at within ⊢
      have grows := (declared.trans (define.run.grows _)).setAliased s.symbols.get?_nextId found.1
      exact (tail s.symbols.nextId found.2 _ (named.grows grows)
        ((State.within_markIfFailed _ _ _).trans within)).1

end EnsuresNode

/-! ## Nodes however they end -/

/-- Whether a check gives back a node that has a property, whether the node checks or not. -/
abbrev Gives (table : SymbolTable) (check : Check (Checked ν τ)) (N : ν → Prop) : Prop :=
  check.EnsuresNode table N fun _ _ => True

namespace Gives

variable {N : ν → Prop} {M : μ → Prop}

/-- The result of an attempt matters to no node. -/
theorem attempted (attempt : Attempt α) :
    attempt.run.Ensures table (Passing fun _ => True) :=
  (Ensures.trivial _).imp fun _ _ _ _ => True.intro

theorem pure {node : ν} {result : Except Diagnostic τ} (holds : N node) :
    Gives table (Pure.pure (node, result) : Check (Checked ν τ)) N :=
  EnsuresNode.pure holds fun _ _ => True.intro

theorem imp {check : Check (Checked ν τ)} {N' : ν → Prop} (inside : check.Gives table N)
    (implied : ∀ x, N x → N' x) : check.Gives table N' :=
  EnsuresNode.imp inside implied fun _ _ _ _ => True.intro

theorem given {attempt : Attempt α} {node : ν} {next : α → Check (Checked ν τ)}
    (holds : N node) (tail : ∀ a, (next a).Gives table N) :
    (Typing.given attempt node next).Gives table N :=
  EnsuresNode.given (attempted attempt) holds fun a _ => tail a

theorem mapResult {check : Check (Checked ν σ)} {f : σ → τ} (inside : check.Gives table N) :
    (check.mapResult f).Gives table N :=
  EnsuresNode.mapResult inside fun _ _ _ _ => True.intro

theorem conclude {check : Check (Checked ν σ)} {rule : σ → Attempt τ}
    (inside : check.Gives table N) : (check.conclude rule).Gives table N :=
  EnsuresNode.conclude inside fun _ a _ _ => attempted (rule a)

theorem rebuild {check : Check (Checked ν τ)} {f : ν → μ} (inside : check.Gives table N)
    (built : ∀ x, N x → M (f x)) : (check.rebuild f).Gives table M :=
  EnsuresNode.rebuild (inside.imp built)

theorem andThen {check : Check (Checked ν σ)} {node : μ} {next : σ → Check (Checked μ τ)}
    (head : check.Gives table N) (holds : M node) (tail : ∀ a, (next a).Gives table M) :
    (check.andThen node next).Gives table fun x => N x.1 ∧ M x.2 :=
  EnsuresNode.andThen head holds (fun _ a _ _ => tail a) fun _ _ first second => ⟨first, second⟩

theorem alongside {check : Check (Checked ν σ)} {other : Check (Checked μ τ)}
    (head : check.Gives table N) (tail : other.Gives table M) :
    (check.alongside other).Gives table fun x => N x.1 ∧ M x.2 :=
  EnsuresNode.alongside head tail fun _ _ first second => ⟨first, second⟩

theorem declareType {ctx : Context} {name : String} {position : Position} {node : ν}
    {define : Attempt (Ty × α)} {next : SymbolId → α → Check (Checked ν Unit)} (holds : N node)
    (tail : ∀ id a, (next id a).Gives table N) :
    (Typing.declareType ctx name position node define next).Gives table fun x => N x.2 :=
  EnsuresNode.declareType holds tail

/-- What is settled is the type of an expression and nothing else. -/
theorem agreeing {what : String} {site : Expr → Site} {expected : Ty} {N : Expr → Prop}
    {check : Check (Checked Expr Ty)}
    (typed : ∀ (e : Expr) (type : Ty), N e → N { e with type := type })
    (inside : check.Gives table N) : (Typing.agreeing what site expected check).Gives table N := by
  refine Ensures.bind inside fun (e, result) ⟨holds, _⟩ => ?_
  cases result with
  | error err => exact pure holds
  | ok found =>
    refine Ensures.pure ⟨?_, fun _ _ => True.intro⟩
    simp only [settle]
    split
    · split
      · exact holds
      · exact typed e _ holds
    · exact holds

end Gives

end Check

/-- The callee of a conversion gets its type, and its symbol if it is a name. -/
theorem conversion?_keeps {table : SymbolTable} {N : Expr → Prop} {callee : Expr} (ctx : Context)
    (holds : N callee) (typed : ∀ (e : Expr) (type : Ty), N e → N { e with type := type })
    (bound : ∀ position ident id type, N ⟨position, .ident ident, type⟩ →
      N ⟨position, .ident (ident.bind id), type⟩) :
    (conversion? ctx callee).run.Ensures table (Passing fun target =>
      ∀ found, target = some found → N found.1) := by
  obtain ⟨position, form, type⟩ := callee
  cases form with
  | type spec =>
    refine .attempt (Check.Gives.attempted _) fun target _ => .succeed fun found same => ?_
    cases same
    exact typed _ target holds
  | ident ident =>
    refine .attempt (Check.Gives.attempted _) fun s _ => ?_
    split
    · exact .succeed nofun
    · refine .attempt (Check.Gives.attempted _) fun _ _ => ?_
      split
      · exact .succeed nofun
      · refine .succeed fun found same => ?_
        cases same
        exact typed _ _ (bound position ident _ type holds)
  | _ => exact .succeed nofun

/-- A key gets the type of the field that it names. -/
theorem Layout.typeKey_keeps {N : Expr → Prop} {key : Expr} (layout : Layout) (holds : N key)
    (typed : ∀ (e : Expr) (type : Ty), N e → N { e with type := type }) :
    N (layout.typeKey key) := by
  unfold Layout.typeKey
  split
  · split
    · exact typed key _ holds
    · exact holds
  · exact holds

end PackageCheck.Typing
