import PackageCheck.Proofs.Symbol.AliasChain
import PackageCheck.Proofs.Symbol.Extension
import PackageCheck.Proofs.Symbol.Renumbering
import PackageCheck.Proofs.Ty.Matching

/-! # Tables and scopes that match

The symbols of one run are put into the table in another order than those of another run, and the
tables may hold further symbols that have no counterpart. Whatever is asked of a symbol that has a
counterpart is answered alike there.

Scopes match if they hold counterparts under the same names. At the top of a package only some names
are looked at, the shared ones. Any other name may stand there for anything, as long as the first run
does not come to it. -/

namespace PackageCheck

variable {pairs : SymbolId → SymbolId → Prop}

/-! ## Symbols -/

/-- Whether two symbols are the same but for handles, numbers and sites. -/
inductive Symbol.Matches (pairs : SymbolId → SymbolId → Prop) : Symbol → Symbol → Prop
  | var {v v' : Variable} (named : v'.name = v.name) (typed : Ty.Matches pairs v.type v'.type) :
    Symbol.Matches pairs (.var v) (.var v')
  | type {decl decl' : TypeDecl} (named : decl'.name = decl.name)
    (target : Option.Rel (Ty.Matches pairs) decl.aliased decl'.aliased) :
    Symbol.Matches pairs (.type decl) (.type decl')
  | label {label label' : Label} (named : label'.name = label.name) :
    Symbol.Matches pairs (.label label) (.label label')
  | package (name : String) : Symbol.Matches pairs (.package name) (.package name)

namespace Symbol.Matches

variable {symbol symbol' : Symbol}

theorem name (same : Symbol.Matches pairs symbol symbol') : symbol'.name = symbol.name := by
  cases same with
  | package => rfl
  | _ => assumption

theorem isType (same : Symbol.Matches pairs symbol symbol') :
    symbol'.type?.isSome = symbol.type?.isSome := by
  cases same <;> rfl

theorem render (same : Symbol.Matches pairs symbol symbol') : symbol'.render = symbol.render := by
  cases same with
  | @var v v' named typed => simp only [Symbol.render, named, typed.render]
  | @type decl decl' named target =>
    obtain ⟨name, aliased, site⟩ := decl
    obtain ⟨name', aliased', site'⟩ := decl'
    obtain rfl : name' = name := named
    cases target with
    | none => rfl
    | some typed => simp only [Symbol.render, typed.render]
  | label named => simp only [Symbol.render, named]
  | package => rfl

theorem mono {more : SymbolId → SymbolId → Prop} (wider : ∀ id id', pairs id id' → more id id')
    (same : Symbol.Matches pairs symbol symbol') : Symbol.Matches more symbol symbol' := by
  cases same with
  | var named typed => exact .var named (typed.mono wider)
  | @type decl decl' named target =>
    obtain ⟨name, aliased, site⟩ := decl
    obtain ⟨name', aliased', site'⟩ := decl'
    refine .type named ?_
    cases target with
    | none => exact .none
    | some typed => exact .some (typed.mono wider)
  | label named => exact .label named
  | package name => exact .package name

/-- The numbers of statements do not count. -/
theorem of_renumber {move : StmtId → StmtId}
    (same : Symbol.Matches pairs (symbol.renumber move) symbol') :
    Symbol.Matches pairs symbol symbol' := by
  cases symbol with
  | var v =>
    cases same with
    | var named typed => exact .var named typed
  | type decl => exact same
  | label label =>
    cases same with
    | label named => exact .label named
  | package name => exact same

theorem renumber (move : StmtId → StmtId) (same : Symbol.Matches pairs symbol symbol') :
    Symbol.Matches pairs (symbol.renumber move) symbol' := by
  cases same with
  | var named typed => exact .var named typed
  | type named target => exact .type named target
  | label named => exact .label named
  | package name => exact .package name

end Symbol.Matches

/-- A predeclared symbol holds no handle. -/
theorem Prelude.matches {symbol : Symbol} (predeclared : symbol ∈ Prelude.symbols) :
    Symbol.Matches pairs symbol symbol := by
  rcases List.mem_append.mp predeclared with type | function
  · obtain ⟨simple, -, rfl⟩ := List.mem_map.mp type
    exact .type rfl .none
  · obtain ⟨⟨name, signature⟩, listed, rfl⟩ := List.mem_map.mp function
    refine .var rfl (.func ?_)
    simp only [Prelude.signatures, List.mem_cons, List.not_mem_nil, or_false, Prod.mk.injEq] at listed
    rcases listed with ⟨rfl, rfl⟩ | ⟨rfl, rfl⟩
    · exact .mk (.cons (.simple .string) .nil) (.cons (.simple .bool) .nil)
    · exact .mk .nil (.cons (.simple .string) .nil)

/-! ## Tables -/

namespace SymbolTable

/-- Whether a table holds the counterparts of the symbols of another one. -/
def MatchedBy (pairs : SymbolId → SymbolId → Prop) (table table' : SymbolTable) : Prop :=
  ∀ id id' symbol, pairs id id' → table.get? id = some symbol →
    ∃ symbol', table'.get? id' = some symbol' ∧ Symbol.Matches pairs symbol symbol'

namespace MatchedBy

variable {table table' : SymbolTable} {id id' : SymbolId}
  (matched : table.MatchedBy pairs table') (paired : pairs id id')

include matched paired

theorem type {decl : TypeDecl} (held : table.get? id = some (.type decl)) :
    ∃ decl', table'.get? id' = some (.type decl') ∧ decl'.name = decl.name ∧
      Option.Rel (Ty.Matches pairs) decl.aliased decl'.aliased := by
  obtain ⟨_, held', same⟩ := matched id id' _ paired held
  cases same with
  | type named target => exact ⟨_, held', named, target⟩

theorem var {v : Variable} (held : table.get? id = some (.var v)) :
    ∃ v', table'.get? id' = some (.var v') ∧ Ty.Matches pairs v.type v'.type := by
  obtain ⟨_, held', same⟩ := matched id id' _ paired held
  cases same with
  | var named typed => exact ⟨_, held', typed⟩

theorem isType {symbol : Symbol} (held : table.get? id = some symbol) :
    ((table'.get? id').bind (·.type?)).isSome = ((table.get? id).bind (·.type?)).isSome := by
  obtain ⟨_, held', same⟩ := matched id id' _ paired held
  rw [held, held']
  exact same.isType

/-- A declaration introduces matching types. -/
theorem declaredType? {symbol : Symbol} (held : table.get? id = some symbol) :
    Option.Rel (Ty.Matches pairs) (table.declaredType? id) (table'.declaredType? id') := by
  obtain ⟨_, held', same⟩ := matched id id' _ paired held
  simp only [SymbolTable.declaredType?, held, held']
  cases same with
  | @type decl decl' named target =>
    obtain ⟨name, aliased, site⟩ := decl
    obtain ⟨name', aliased', site'⟩ := decl'
    obtain rfl : name' = name := named
    cases target with
    | none =>
      dsimp only
      cases Simple.ofName? name' with
      | none => exact .none
      | some simple => exact .some (.simple simple)
    | some typed => exact .some (.custom name' paired)
  | _ => exact .none

/-! ### Roots -/

theorem links {next : SymbolId} (linked : table.Links id next) :
    ∃ next', pairs next next' ∧ table'.Links id' next' := by
  obtain ⟨decl, name, held, aliased⟩ := linked
  obtain ⟨decl', held', -, target⟩ := matched.type paired held
  rw [aliased] at target
  generalize aliased' : decl'.aliased = target' at target
  cases target with
  | some typed =>
    cases typed with
    | custom _ paired' => exact ⟨_, paired', decl', name, held', aliased'⟩

theorem denotes {type : Ty} (denoted : table.Denotes id type) :
    ∃ type', table'.Denotes id' type' ∧ Ty.Matches pairs type type' := by
  cases denoted with
  | @target decl _ held aliased root =>
    obtain ⟨decl', held', -, target⟩ := matched.type paired held
    rw [aliased] at target
    generalize aliased' : decl'.aliased = target' at target
    cases target with
    | some typed =>
      refine ⟨_, .target held' aliased' ?_, typed⟩
      rintro name next rfl
      cases typed with
      | custom => exact root _ _ rfl
  | @simple decl simple held aliased named =>
    obtain ⟨decl', held', same, target⟩ := matched.type paired held
    rw [aliased] at target
    generalize aliased' : decl'.aliased = target' at target
    cases target with
    | none => exact ⟨_, .simple held' aliased' (same.symm ▸ named), .simple simple⟩

end MatchedBy

section Roots

variable {table table' : SymbolTable} {type type' root : Ty} (matched : table.MatchedBy pairs table')

include matched

theorem MatchedBy.leadsIn {links : Nat} {id last : SymbolId} (leads : table.LeadsIn links id last) :
    ∀ {id'}, pairs id id' → ∃ last', pairs last last' ∧ table'.LeadsIn links id' last' := by
  induction leads with
  | refl => exact fun paired => ⟨_, paired, .refl⟩
  | link first _ hypothesis =>
    intro id' paired
    obtain ⟨next', paired', linked⟩ := matched.links paired first
    obtain ⟨last', ends, leads⟩ := hypothesis paired'
    exact ⟨last', ends, .link linked leads⟩

/-- Matching types have matching types behind them. -/
theorem MatchedBy.underlying (same : Ty.Matches pairs type type')
    (found : table.underlying type = .ok root) :
    ∃ root', table'.underlying type' = .ok root' ∧ Ty.Matches pairs root root' := by
  cases same with
  | custom name paired =>
    obtain ⟨last, ⟨links, leads⟩, denoted⟩ := rootType_eq_ok_iff.mp found
    obtain ⟨last', paired', leads'⟩ := matched.leadsIn leads paired
    obtain ⟨root', denoted', same⟩ := matched.denotes paired' denoted
    exact ⟨root', rootType_eq_ok_iff.mpr ⟨last', ⟨links, leads'⟩, denoted'⟩, same⟩
  | _ =>
    cases found
    exact ⟨_, rfl, by constructor <;> assumption⟩

theorem MatchedBy.memberBase (same : Ty.Matches pairs type type')
    (found : table.memberBase type = .ok root) :
    ∃ root', table'.memberBase type' = .ok root' ∧ Ty.Matches pairs root root' := by
  obtain ⟨base, reached, found⟩ := Except.bind_eq_ok found
  obtain ⟨base', reached', same'⟩ := matched.underlying same reached
  cases same' with
  | pointer inside =>
    obtain ⟨root', found', matching⟩ := matched.underlying inside found
    refine ⟨root', ?_, matching⟩
    simp only [SymbolTable.memberBase, reached', bind, Except.bind]
    exact found'
  | _ =>
    cases found
    refine ⟨_, ?_, by constructor <;> assumption⟩
    simp only [SymbolTable.memberBase, reached', bind, Except.bind]
    rfl

end Roots

/-! ### More symbols -/

section Changes

variable {table table' : SymbolTable} (matched : table.MatchedBy pairs table')
  (forth : ∀ id a b, pairs id a → pairs id b → a = b)
  (back : ∀ id a b, pairs a id → pairs b id → a = b)

include matched forth

theorem MatchedBy.insert {symbol symbol' : Symbol} (paired : pairs table.nextId table'.nextId)
    (same : Symbol.Matches pairs symbol symbol') :
    (table.insert symbol).MatchedBy pairs (table'.insert symbol') := by
  intro id id' held related found
  rcases get?_insert_inv found with before | ⟨rfl, rfl⟩
  · obtain ⟨held', found', matching⟩ := matched id id' held related before
    exact ⟨held', get?_insert_of_some symbol' found', matching⟩
  · obtain rfl := forth _ _ _ related paired
    exact ⟨symbol', table'.get?_insert_nextId symbol', same⟩

include back

/-- Counterparts of a declared type may be given matching targets. -/
theorem MatchedBy.setAliased {index index' : Nat} {decl : TypeDecl} {target target' : Ty}
    (paired : pairs (.declared index) (.declared index'))
    (declared : table.get? (.declared index) = some (.type decl))
    (same : Ty.Matches pairs target target') :
    (table.setAliased (.declared index) target).MatchedBy pairs
      (table'.setAliased (.declared index') target') := by
  intro id id' held related found
  by_cases here : id = .declared index
  · subst here
    obtain rfl := forth _ _ _ related paired
    obtain ⟨decl', declared', named, -⟩ := matched.type paired declared
    rw [table.get?_setAliased_self target declared] at found
    cases found
    exact ⟨_, table'.get?_setAliased_self target' declared', .type named (.some same)⟩
  · have there : id' ≠ .declared index' := fun same => here (back _ _ _ (same ▸ related) paired)
    rw [table.get?_setAliased_of_ne target here] at found
    rw [table'.get?_setAliased_of_ne target' there]
    exact matched id id' held related found

end Changes

theorem MatchedBy.renumber {move : StmtId → StmtId} {table table' : SymbolTable}
    (matched : table.MatchedBy pairs table') : (table.renumber move).MatchedBy pairs table' := by
  intro id id' symbol paired held
  rw [get?_renumber] at held
  obtain ⟨before, found, rfl⟩ := Option.map_eq_some_iff.mp held
  obtain ⟨symbol', held', same⟩ := matched id id' before paired found
  exact ⟨symbol', held', same.renumber move⟩

theorem MatchedBy.of_renumber {move : StmtId → StmtId} {table table' : SymbolTable}
    (matched : (table.renumber move).MatchedBy pairs table') : table.MatchedBy pairs table' := by
  intro id id' symbol paired held
  have renumbered : (table.renumber move).get? id = some (symbol.renumber move) := by
    rw [get?_renumber, held]
    rfl
  obtain ⟨symbol', held', same⟩ := matched id id' _ paired renumbered
  exact ⟨symbol', held', same.of_renumber⟩

end SymbolTable

/-! ## Scopes -/

/-- Whether two stacks of scopes hold counterparts under the same names. The scopes that lie outside of
    a statement do so for the shared names, and hold only old symbols under the others. The scopes
    inside do so for all names, which the index tells of the innermost scope. -/
inductive ScopesMatch (pairs : SymbolId → SymbolId → Prop) (shared : String → Prop)
    (old : SymbolId → Prop) : Bool → List Scope → List Scope → Prop
  | outside {scopes scopes' : List Scope}
    (agree : ∀ name, shared name → List.Forall₂
      (fun scope scope' : Scope => Option.Rel pairs (scope.find? name) (scope'.find? name))
        scopes scopes')
    (others : ∀ scope ∈ scopes, ∀ name id, ¬ shared name → scope.find? name = some id → old id) :
    ScopesMatch pairs shared old false scopes scopes'
  | inside {nested : Bool} {inner inner' : Scope} {outer outer' : List Scope}
    (all : ∀ name, Option.Rel pairs (inner.find? name) (inner'.find? name))
    (around : ScopesMatch pairs shared old nested outer outer') :
    ScopesMatch pairs shared old true (inner :: outer) (inner' :: outer')

namespace ScopesMatch

variable {shared : String → Prop} {old : SymbolId → Prop} {nested : Bool}

section Innermost

variable {inner inner' : Scope} {outer outer' : List Scope} {name : String}

theorem push {scopes scopes' : List Scope}
    (matching : ScopesMatch pairs shared old nested scopes scopes') :
    ScopesMatch pairs shared old true (.empty :: scopes) (.empty :: scopes') :=
  .inside (fun _ => .none) matching

/-- A name that is looked at is free in both innermost scopes or in none. -/
theorem innermost
    (matching : ScopesMatch pairs shared old nested (inner :: outer) (inner' :: outer'))
    (seen : nested = true ∨ shared name) :
    Option.Rel pairs (inner.find? name) (inner'.find? name) := by
  cases matching with
  | outside agree =>
    cases agree name (seen.resolve_left Bool.false_ne_true) with
    | cons first _ => exact first
  | inside all => exact all name

theorem add {id id' : SymbolId}
    (matching : ScopesMatch pairs shared old nested (inner :: outer) (inner' :: outer'))
    (seen : nested = true ∨ shared name) (paired : pairs id id') :
    ScopesMatch pairs shared old nested (inner.insert name id :: outer)
      (inner'.insert name id' :: outer') := by
  have added : ∀ other, Option.Rel pairs (inner.find? other) (inner'.find? other) →
      Option.Rel pairs ((inner.insert name id).find? other)
        ((inner'.insert name id').find? other) := by
    intro other related
    by_cases same : other = name
    · subst same
      rw [NameMap.find?_insert_self, NameMap.find?_insert_self]
      exact .some paired
    · rwa [NameMap.find?_insert_of_ne _ _ same, NameMap.find?_insert_of_ne _ _ same]
  cases matching with
  | outside agree others =>
    have sharedName := seen.resolve_left Bool.false_ne_true
    refine .outside (fun other isShared => ?_) fun scope member other found hidden held => ?_
    · cases agree other isShared with
      | cons first rest => exact .cons (added other first) rest
    · have apart : other ≠ name := fun same => hidden (same ▸ sharedName)
      rcases List.mem_cons.mp member with rfl | member
      · rw [NameMap.find?_insert_of_ne _ _ apart] at held
        exact others inner List.mem_cons_self other found hidden held
      · exact others scope (List.mem_cons_of_mem _ member) other found hidden held
  | inside all around => exact .inside (fun other => added other (all other)) around

end Innermost

/-! ### Looking names up -/

section Lookup

variable {name : String} {scope scope' : Scope} {scopes scopes' : List Scope}
  {wanted wanted' : SymbolId → Bool} {absent : Option SymbolId} {id : SymbolId}

/-- What a scope finds has its counterpart in a scope with the counterpart under the name, and what is
    found behind it has its counterpart there. -/
theorem lookup_cons (first : Option.Rel pairs (scope.find? name) (scope'.find? name))
    (blind : ∀ id id', scope.find? name = some id → pairs id id' → wanted' id' = wanted id)
    (behind : (scopes.findSome? fun scope => (scope.find? name).filter wanted).or absent = some id →
      ∃ id', (scopes'.findSome? fun scope => (scope.find? name).filter wanted').or absent = some id' ∧
        pairs id id')
    (found : ((scope :: scopes).findSome? fun scope => (scope.find? name).filter wanted).or absent =
      some id) :
    ∃ id', ((scope' :: scopes').findSome? fun scope => (scope.find? name).filter wanted').or absent =
      some id' ∧ pairs id id' := by
  rw [List.findSome?_cons] at found ⊢
  generalize scope.find? name = held, scope'.find? name = held' at first found blind ⊢
  cases first with
  | none => exact behind found
  | @some a b paired =>
    rw [Option.filter_some] at found ⊢
    rw [blind a b rfl paired]
    cases taken : wanted a with
    | true =>
      rw [taken] at found
      cases found
      exact ⟨b, rfl, paired⟩
    | false =>
      rw [taken] at found
      exact behind found

/-- What the first run finds under a name has its counterpart found there by the second one, unless it
    is old and the name is not shared. -/
theorem lookup (matching : ScopesMatch pairs shared old nested scopes scopes')
    (blind : ∀ scope ∈ scopes, ∀ id id', scope.find? name = some id → pairs id id' →
      wanted' id' = wanted id)
    (predeclared : ∀ id, absent = some id → pairs id id ∧ old id) (seen : old id → shared name)
    (found : (scopes.findSome? fun scope => (scope.find? name).filter wanted).or absent = some id) :
    ∃ id', (scopes'.findSome? fun scope => (scope.find? name).filter wanted').or absent = some id' ∧
      pairs id id' := by
  induction matching with
  | @outside scopes scopes' agree others =>
    -- whatever is found out here is old
    have isShared : shared name := by
      by_contra hidden
      rcases Option.or_eq_some_iff.mp found with found | ⟨-, found⟩
      · obtain ⟨scope, member, found⟩ := List.exists_of_findSome?_eq_some found
        have held := Option.eq_some_of_filter_eq_some found
        exact hidden (seen (others scope member name id hidden held))
      · exact hidden (seen (predeclared id found).2)
    have agreed := agree name isShared
    clear agree others
    induction agreed with
    | nil => exact ⟨id, found, (predeclared id found).1⟩
    | cons first _ hypothesis =>
      obtain ⟨here, blind⟩ := List.forall_mem_cons.mp blind
      exact lookup_cons first here (hypothesis blind) found
  | inside all _ hypothesis =>
    obtain ⟨here, blind⟩ := List.forall_mem_cons.mp blind
    exact lookup_cons (all name) here (hypothesis blind) found

end Lookup

end ScopesMatch

end PackageCheck
