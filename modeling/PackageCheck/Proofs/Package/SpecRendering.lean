import PackageCheck.Proofs.Package.Soundness

/-! # The texts of specifications

Specifications and types are shown to the reader by two renderings, and a type that a specification
has come to is shown in the same way as the specification. For a name this is a fact about the scopes:
what they hold under a name is a symbol of that name, in each state that the check of a package can
come through. -/

namespace PackageCheck

/-! ## Renderings -/

theorem Simple.name_of_ofName? {name : String} {simple : Simple}
    (found : Simple.ofName? name = some simple) : simple.name = name :=
  beq_iff_eq.mp (List.find?_some found :)

/-- The type that a declaration introduces is shown by the name of the declaration, be it that of a
    simple type or a custom one. -/
theorem SymbolTable.render_declaredType? {table : SymbolTable} {id : SymbolId} {symbol : Symbol}
    {type : Ty} (held : table.get? id = some symbol)
    (declared : table.declaredType? id = some type) : type.render = symbol.name := by
  rw [declaredType?, held] at declared
  split at declared
  case h_1 name site same =>
    obtain ⟨simple, found, rfl⟩ := Option.map_eq_some_iff.mp declared
    cases same
    rw [Ty.render]
    exact Simple.name_of_ofName? found
  case h_2 name target site same =>
    cases declared
    cases same
    rw [Ty.render]
    rfl
  case h_3 => cases declared

variable {table : SymbolTable}

mutual

theorem TypeSpec.Denotes.render_eq : ∀ {spec : TypeSpec} {type : Ty},
    spec.Denotes table type → type.render = spec.render
  | .named name position, type, denoted => by
    obtain ⟨id, symbol, held, rfl, declared⟩ := denoted
    rw [TypeSpec.render]
    exact SymbolTable.render_declaredType? held declared
  | .array size of, type, denoted => by
    obtain ⟨of', rfl, inside⟩ := denoted
    rw [Ty.render, TypeSpec.render, inside.render_eq]
  | .slice of, type, denoted => by
    obtain ⟨of', rfl, inside⟩ := denoted
    rw [Ty.render, TypeSpec.render, inside.render_eq]
  | .map key value, type, denoted => by
    obtain ⟨key', value', rfl, keys, values⟩ := denoted
    rw [Ty.render, TypeSpec.render, keys.render_eq, values.render_eq]
  | .pointer pointee, type, denoted => by
    obtain ⟨pointee', rfl, inside⟩ := denoted
    rw [Ty.render, TypeSpec.render, inside.render_eq]
  | .tuple members, type, denoted => by
    obtain ⟨members', rfl, inside⟩ := denoted
    rw [Ty.render, TypeSpec.render, inside.renderList_eq]
  -- the text depends on the number of results
  | .func args [], type, denoted => by
    obtain ⟨args', results', rfl, inside, rfl⟩ := denoted
    rw [Ty.render, Signature.render, TypeSpec.render, inside.renderList_eq]
  | .func args [result], type, denoted => by
    obtain ⟨args', _, rfl, inside, result', _, rfl, single, rfl⟩ := denoted
    rw [Ty.render, Signature.render, TypeSpec.render, inside.renderList_eq, single.render_eq]
  | .func args (first :: second :: rest), type, denoted => by
    obtain ⟨args', results', rfl, inside, results⟩ := denoted
    have same := results.renderList_eq
    obtain ⟨first', _, rfl, -, second', rest', rfl, -, -⟩ := results
    rw [Ty.render, Signature.render, TypeSpec.render, inside.renderList_eq, same]
    all_goals simp
  | .blank, type, denoted => by
    cases denoted
    rw [Ty.render, TypeSpec.render]

theorem TypeSpec.DenoteAll.renderList_eq : ∀ {specs : List TypeSpec} {types : List Ty},
    TypeSpec.DenoteAll table specs types → Ty.renderList types = TypeSpec.renderList specs
  | [], types, denoted => by
    cases denoted
    rw [Ty.renderList, TypeSpec.renderList]
  | [spec], types, denoted => by
    obtain ⟨type, _, rfl, single, rfl⟩ := denoted
    rw [Ty.renderList, TypeSpec.renderList, single.render_eq]
  | spec :: next :: rest, types, denoted => by
    obtain ⟨type, types', rfl, first, others⟩ := denoted
    have same := others.renderList_eq
    obtain ⟨next', rest', rfl, -, -⟩ := others
    rw [Ty.renderList, TypeSpec.renderList, first.render_eq, same]
    all_goals simp

end

/-! ## States on the way -/

namespace Package

open Typing

/-- The states that the check of a package can come through: those that its checks, its scopes and its
    statements lead to from the beginning. Whatever a check does makes the state grow. -/
inductive Reached : Typing.State → Prop
  | start (package : Package) : Reached package.prepare.initialState
  | statement {state : Typing.State} : Reached state →
      Reached { state with tainted := false, uses := [] }
  | grown {state state' : Typing.State} : Reached state → state.Grows state' → Reached state'
  | opened {state : Typing.State} : Reached state → Reached state.pushScope
  | closed {state : Typing.State} : Reached state → Reached state.popScope

theorem wellScoped_popScope {state : Typing.State} (named : state.WellScoped) :
    state.popScope.WellScoped := by
  intro scope member
  refine named scope ?_
  have popped : scope ∈ (ScopeStack.pop state.scopes).all := member
  unfold ScopeStack.pop at popped
  split at popped
  -- the bottom scope stays open
  · exact popped
  · rename_i outer
    rw [ScopeStack.all, outer]
    exact List.mem_cons_of_mem _ popped

/-- On the way, each scope holds symbols under their own names. -/
theorem Reached.wellScoped {state : Typing.State} (reached : Reached state) : state.WellScoped := by
  induction reached with
  | start package => exact wellScoped_initialState rfl
  | statement _ named => exact named
  | grown _ grows named => exact named.grows grows
  | opened _ named => exact named.pushScope
  | closed _ named => exact wellScoped_popScope named

theorem Reached.afterTopLevel (file : String) (s : Stmt) {state : Typing.State}
    (reached : Reached state) : Reached ((checkTopLevel file s).run state).2 :=
  .grown (.statement reached) ((recorded (checkStmt { file := file } s)).grows _)

theorem Reached.afterEach : ∀ {refs : List StmtRef} {files : List SourceFile}
    {state : Typing.State}, Reached state → Reached (checkEach files refs state).2.1
  | [], _, _, reached => reached
  | ref :: rest, files, state, reached => by
    cases found : stmtAt? files ref with
    | none =>
      rw [checkEach_of_none rest state found]
      exact reached.afterEach
    | some place =>
      rw [checkEach_of_some rest state found]
      exact (reached.afterTopLevel _ _).afterEach

theorem reached_run (package : Package) : Reached package.run.state := by
  dsimp only [run]
  split
  · exact .start package
  · exact Reached.afterEach (.start package)

/-! ## Texts -/

/-- The states of a check are reached, and so are those behind it. In each of them, a type that a
    specification has come to has the text of the specification. -/
theorem render_resolve :
    (∀ package : Package, Reached package.run.state) ∧
    (∀ state : Typing.State, Reached state → Reached state.pushScope ∧
      ∀ (α : Type) (check : Check α), Reached (check.run state).2) ∧
    ∀ (ctx : Context) (spec : TypeSpec) (state : Typing.State) (type : Ty), Reached state →
      ((resolve ctx spec).run.run state).1 = .ok type → type.render = spec.render := by
  refine ⟨reached_run, fun state reached => ⟨reached.opened, fun α check => ?_⟩, ?_⟩
  · exact reached.grown (check.grows state)
  · intro ctx spec state type reached resolved
    have denoted : spec.Denotes _ type := resolve_denotes spec state
      reached.wellScoped (SymbolTable.Extends.refl _).toWithin type resolved
    exact denoted.render_eq

/-- The state behind the declaration of a type `Pair`, inside of a scope. -/
def behindPair : Typing.State :=
  ((checkStmt { file := "m.hv" }
    (.typeAlias "Pair" (.tuple [.ofName "int", .ofName "string"]))).run
      (ofFiles "main" []).prepare.initialState.pushScope).2

/-- A function that takes pairs and gives a truth value together with a map. -/
def pairSpec : TypeSpec :=
  .func [.pointer (.ofName "Pair"), .array 2 (.ofName "Pair")]
    [.ofName "bool", .map (.ofName "string") (.slice .blank)]

theorem render_resolve_pairSpec : Reached behindPair ∧ ∃ type,
    ((resolve { file := "m.hv" } pairSpec).run.run behindPair).1 = .ok type ∧
    type.render = pairSpec.render := by
  obtain ⟨-, checks, texts⟩ := render_resolve
  have opened := (checks _ (.start (ofFiles "main" []))).1
  have reached : Reached behindPair := (checks _ opened).2 _ _
  obtain ⟨type, resolved⟩ : ∃ type,
      ((resolve { file := "m.hv" } pairSpec).run.run behindPair).1 = .ok type := ⟨_, rfl⟩
  exact ⟨reached, type, resolved, texts _ _ _ _ reached resolved⟩

end Package

end PackageCheck
