import PackageCheck.Proofs.Dependency.Scoping
import PackageCheck.Proofs.Typing.Effect
import PackageCheck.Proofs.Typing.RuleSoundness

/-! # Names looked up outside

A name that is used in a statement stands for a symbol from outside of it, unless it is declared in
front of the use in a scope that is still open there. A variable hides what its name stands for as
a value, a type also what it stands for as a type. -/

namespace PackageCheck

/-! ## Looking up in scopes -/

/-- Whether a handle is that of a type. -/
def SymbolTable.isType (table : SymbolTable) (id : SymbolId) : Bool :=
  ((table.get? id).bind (·.type?)).isSome

namespace ScopeStack

variable {scopes : ScopeStack} {table table' : SymbolTable} {name other : String} {id : SymbolId}

/-- The innermost scope is looked at first. -/
theorem find?_eq : scopes.find? name = (scopes.inner.find? name).or
    ((scopes.outer.findSome? (·.find? name)).or (Prelude.typeId? name)) := by
  rw [find?, all, List.findSome?_cons]
  cases scopes.inner.find? name <;> rfl

theorem findType?_eq : scopes.findType? table name =
    ((scopes.inner.find? name).filter table.isType).or
      ((scopes.outer.findSome? fun scope => (scope.find? name).filter table.isType).or
        (Prelude.typeId? name)) := by
  change ((scopes.inner :: scopes.outer).findSome? fun scope =>
    (scope.find? name).filter table.isType).or _ = _
  rw [List.findSome?_cons]
  cases (scopes.inner.find? name).filter table.isType <;> rfl

theorem find?_add_self : (scopes.add name id).find? name = some id := by
  simp [find?_eq, add]

theorem find?_add_of_ne (apart : other ≠ name) :
    (scopes.add name id).find? other = scopes.find? other := by
  simp [find?_eq, add, NameMap.find?_insert_of_ne _ _ apart]

theorem findType?_add_of_ne (apart : other ≠ name) :
    (scopes.add name id).findType? table other = scopes.findType? table other := by
  simp [findType?_eq, add, NameMap.find?_insert_of_ne _ _ apart]

theorem findType?_add_of_type (type : table.isType id = true) :
    (scopes.add name id).findType? table name = some id := by
  simp [findType?_eq, add, Option.filter, type]

/-- What is no type is passed over. -/
theorem findType?_add_of_not_type (untyped : table.isType id = false)
    (free : scopes.inner.find? name = none) :
    (scopes.add name id).findType? table name = scopes.findType? table name := by
  simp [findType?_eq, add, Option.filter, untyped, free]

/-- Another table gives the same type if it takes the same of the found symbols for types. -/
theorem findType?_congr (same : ∀ scope ∈ scopes.all, ∀ id, scope.find? name = some id →
    table'.isType id = table.isType id) :
    scopes.findType? table' name = scopes.findType? table name := by
  have each : ∀ scope ∈ scopes.all, (scope.find? name).filter table'.isType =
      (scope.find? name).filter table.isType := by
    intro scope member
    cases found : scope.find? name with
    | none => rfl
    | some id => simp [Option.filter, same scope member id found]
  have all : scopes.all.findSome? (fun scope => (scope.find? name).filter table'.isType) =
      scopes.all.findSome? (fun scope => (scope.find? name).filter table.isType) := by
    generalize scopes.all = scopes at each
    induction scopes with
    | nil => rfl
    | cons scope rest ih =>
      rw [List.findSome?_cons, List.findSome?_cons, each scope List.mem_cons_self,
        ih fun other member => each other (List.mem_cons_of_mem _ member)]
  exact congrArg (·.or (Prelude.typeId? name)) all

/-- A name that stands for a type stands for something. -/
theorem find?_of_findType? (found : scopes.findType? table name = some id) :
    ∃ id', scopes.find? name = some id' := by
  rcases Option.or_eq_some_iff.mp found with inScope | ⟨-, simple⟩
  · obtain ⟨scope, member, held⟩ := List.exists_of_findSome?_eq_some inScope
    have held := (Option.filter_eq_some_iff.mp held).1
    cases inner : scopes.all.findSome? (·.find? name) with
    | none =>
      have free := List.findSome?_eq_none_iff.mp inner scope member
      cases free.symm.trans held
    | some id' => exact ⟨id', by rw [find?, inner]; rfl⟩
  · cases inner : scopes.all.findSome? (·.find? name) with
    | none => exact ⟨id, by rw [find?, inner]; exact simple⟩
    | some id' => exact ⟨id', by rw [find?, inner]; rfl⟩

end ScopeStack

/-! ## Mentions that get outside -/

namespace Mention

/-- Whether a free use of a name gets outside of scopes that may hide what the name stands for as
    a value and as a type. -/
def GetsOut (mention : Mention) (hidden hiddenType : Bool) : Prop :=
  (hidden = false ∧ mention.uses ≠ []) ∨ (hiddenType = false ∧ mention.typeUses ≠ [])

variable {first second third : Mention} {hidden hiddenType : Bool}

theorem getsOut_iff_isFree : first.GetsOut false false ↔ first.isFree = true := by
  simp [GetsOut, isFree]

theorem not_getsOut_empty : ¬ GetsOut {} hidden hiddenType := by
  simp [GetsOut]

theorem getsOut_append : (first ++ second).GetsOut hidden hiddenType ↔
    first.GetsOut hidden hiddenType ∨
      second.GetsOut (hidden || first.declares) (hiddenType || first.declaresType) := by
  simp only [GetsOut, uses_append, typeUses_append, ne_eq, List.append_eq_nil_iff, not_and_or,
    Bool.or_eq_false_iff]
  cases first.declares <;> cases first.declaresType <;> simp <;> grind

/-- Behind a piece that declares nothing there is nothing more hidden. -/
theorem Closed.getsOut_append (closed : first.Closed) :
    (first ++ second).GetsOut hidden hiddenType ↔
      first.GetsOut hidden hiddenType ∨ second.GetsOut hidden hiddenType := by
  rw [Mention.getsOut_append, closed.declares, closed.declaresType, Bool.or_false, Bool.or_false]

end Mention

namespace Typing

/-! ## Looking up in a state -/

/-- What a name stands for in a state: a symbol from outside, one that a table held already, unless
    it is hidden. The name `_` stands for nothing. -/
structure State.Resolves (s : State) (base : SymbolTable) (n : String)
    (hidden hiddenType : Bool) : Prop where
  value : ∀ id, s.scopes.find? n = some id → n ≠ "_" ∧ (base.get? id).isSome = !hidden
  type : ∀ id, s.scopes.findType? s.symbols n = some id →
    n ≠ "_" ∧ (base.get? id).isSome = !hiddenType

/-- Whether a name was used for a symbol from outside. -/
def State.UsesOutside (s : State) (base : SymbolTable) (n : String) : Prop :=
  ∃ id, (n, id) ∈ s.uses ∧ (base.get? id).isSome = true

/-- Whether a state is one behind a table, and holds symbols under their names. -/
structure State.Behind (s : State) (base : SymbolTable) : Prop where
  table : base.Extends s.symbols
  named : s.WellScoped

section States

variable {base : SymbolTable} {n : String} {hidden hiddenType : Bool} {s s' : State}

theorem State.Behind.grows (behind : s.Behind base) (grows : s.Grows s') : s'.Behind base :=
  ⟨behind.table.trans grows.symbols, behind.named.grows grows⟩

theorem State.Behind.pushScope (behind : s.Behind base) : s.pushScope.Behind base :=
  ⟨behind.table, behind.named.pushScope⟩

/-- A symbol from outside was there before, so it is not the next one to be declared. -/
theorem State.Behind.get?_nextId (behind : s.Behind base) : base.get? s.symbols.nextId = none := by
  cases held : base.get? s.symbols.nextId with
  | none => rfl
  | some symbol => cases s.symbols.get?_nextId.symm.trans (behind.table.kept _ _ held)

/-- The same scopes stand for the same if the symbols that they hold are still what they were. -/
theorem State.Resolves.of_scopes_eq (resolves : s.Resolves base n hidden hiddenType)
    (scopes : s'.scopes = s.scopes) (same : ∀ scope ∈ s.scopes.all, ∀ id,
      scope.find? n = some id → s'.symbols.isType id = s.symbols.isType id) :
    s'.Resolves base n hidden hiddenType where
  value id found := resolves.value id (scopes ▸ found)
  type id found := by
    rw [scopes, ScopeStack.findType?_congr same] at found
    exact resolves.type id found

theorem State.WellScoped.isType_eq {table : SymbolTable} (named : s.WellScoped)
    (within : s.symbols.Within table) : ∀ scope ∈ s.scopes.all, ∀ id, scope.find? n = some id →
      table.isType id = s.symbols.isType id := by
  intro scope member id found
  obtain ⟨symbol, held, -⟩ := named scope member n id found
  rw [SymbolTable.isType, SymbolTable.isType, held, within.kept _ _ held]

theorem State.WellScoped.isType_insertNamed (named : s.WellScoped) (symbol : Symbol) :
    ∀ scope ∈ s.scopes.all, ∀ id, scope.find? n = some id →
      (s.insertNamed symbol).symbols.isType id = s.symbols.isType id :=
  named.isType_eq (SymbolTable.extends_insert s.symbols symbol).toWithin

/-- A type stays one when it is given a target. -/
theorem isType_setAliased {table : SymbolTable} {id other : SymbolId} (target : Ty) :
    (table.setAliased id target).isType other = table.isType other := by
  by_cases same : other = id
  · subst same
    cases held : table.get? other with
    | none => simp [SymbolTable.isType, SymbolTable.setAliased, held]
    | some symbol =>
      cases symbol with
      | type decl =>
        cases other with
        | builtin index => simp [SymbolTable.isType, SymbolTable.setAliased, SymbolTable.set?, held]
        | declared index =>
          rw [SymbolTable.isType, SymbolTable.isType, table.get?_setAliased_self target held, held]
          rfl
      | _ => simp [SymbolTable.isType, SymbolTable.setAliased, held]
  · rw [SymbolTable.isType, SymbolTable.isType, table.get?_setAliased_of_ne target same]

/-! ## Reading -/

/-- Whether a step from one state to another does with a name what a mention says. The uses of the
    name for a symbol from outside are among those of the mention, or the other way around. -/
structure Reads (base : SymbolTable) (n : String) (most : Bool) (mention : Mention)
    (s s' : State) : Prop where
  resolves : ∀ {hidden hiddenType}, s.Resolves base n hidden hiddenType →
    s'.Resolves base n (hidden || mention.declares) (hiddenType || mention.declaresType)
  kept : s.UsesOutside base n → s'.UsesOutside base n
  least : most = false → ∀ {hidden hiddenType}, s.Resolves base n hidden hiddenType →
    mention.GetsOut hidden hiddenType → s'.UsesOutside base n
  most : most = true → ∀ {hidden hiddenType}, s.Resolves base n hidden hiddenType →
    s'.UsesOutside base n → s.UsesOutside base n ∨ mention.GetsOut hidden hiddenType

namespace Reads

variable {most : Bool} {mention mention' : Mention} {middle : State}

/-- A step that changes nothing a name is looked up in, and uses nothing. -/
theorem ofSame (resolves : ∀ {hidden hiddenType}, s.Resolves base n hidden hiddenType →
    s'.Resolves base n hidden hiddenType) (uses : s'.uses = s.uses) :
    Reads base n most {} s s' where
  resolves before := by simpa using resolves before
  kept used := by rwa [State.UsesOutside, uses]
  least _ _ _ _ out := absurd out Mention.not_getsOut_empty
  most _ _ _ _ used := Or.inl (by rwa [State.UsesOutside, uses] at used)

theorem refl (s : State) : Reads base n most {} s s :=
  ofSame (fun before => before) rfl

theorem trans (first : Reads base n most mention s middle)
    (second : Reads base n most mention' middle s') :
    Reads base n most (mention ++ mention') s s' where
  resolves before := by simpa [Bool.or_assoc] using second.resolves (first.resolves before)
  kept used := second.kept (first.kept used)
  -- a use in the second part may also be hidden by a declaration in the first one
  least least _ _ before out := by
    rcases Mention.getsOut_append.mp out with out | out
    · exact second.kept (first.least least before out)
    · exact second.least least (first.resolves before) out
  most most _ _ before used := by
    rcases second.most most (first.resolves before) used with used | out
    · exact (first.most most before used).imp id fun out => Mention.getsOut_append.mpr (Or.inl out)
    · exact Or.inr (Mention.getsOut_append.mpr (Or.inr out))

/-- A step may be described by another mention, with more uses or with fewer. -/
theorem imp (reads : Reads base n most mention s s') (declares : mention'.declares = mention.declares)
    (declaresType : mention'.declaresType = mention.declaresType)
    (fewer : most = false → ∀ {hidden hiddenType},
      mention'.GetsOut hidden hiddenType → mention.GetsOut hidden hiddenType)
    (more : most = true → ∀ {hidden hiddenType},
      mention.GetsOut hidden hiddenType → mention'.GetsOut hidden hiddenType) :
    Reads base n most mention' s s' where
  resolves before := by simpa only [declares, declaresType] using reads.resolves before
  kept := reads.kept
  least least _ _ before out := reads.least least before (fewer least out)
  most most _ _ before used := (reads.most most before used).imp id (more most)

theorem of_getsOut_iff (reads : Reads base n most mention s s')
    (declares : mention'.declares = mention.declares)
    (declaresType : mention'.declaresType = mention.declaresType)
    (same : ∀ {hidden hiddenType},
      mention'.GetsOut hidden hiddenType ↔ mention.GetsOut hidden hiddenType) :
    Reads base n most mention' s s' :=
  reads.imp declares declaresType (fun _ _ _ => same.mp) fun _ _ _ => same.mpr

/-- The order does not matter where nothing is declared. -/
theorem of_closed (reads : Reads base n most mention s s') (closed : mention.Closed)
    (closed' : mention'.Closed) (same : ∀ {hidden hiddenType},
      mention'.GetsOut hidden hiddenType ↔ mention.GetsOut hidden hiddenType) :
    Reads base n most mention' s s' :=
  reads.of_getsOut_iff (closed'.declares.trans closed.declares.symm)
    (closed'.declaresType.trans closed.declaresType.symm) same

/-! ## Steps -/

theorem usesOutside_touch {name : String} {id : SymbolId} :
    (s.touch name id).UsesOutside base n ↔
      (name = n ∧ (base.get? id).isSome = true) ∨ s.UsesOutside base n := by
  constructor
  · rintro ⟨other, member, outside⟩
    rcases List.mem_cons.mp member with same | member
    · obtain ⟨rfl, rfl⟩ := Prod.mk.inj same
      exact Or.inl ⟨rfl, outside⟩
    · exact Or.inr ⟨other, member, outside⟩
  · rintro (⟨rfl, outside⟩ | ⟨other, member, outside⟩)
    · exact ⟨id, List.mem_cons_self, outside⟩
    · exact ⟨other, List.mem_cons_of_mem _ member, outside⟩

/-- The use of a symbol hides nothing, and gets outside if the symbol is from there. -/
theorem ofTouch {name : String} {id : SymbolId} (closed : mention.Closed)
    (out : ∀ {hidden hiddenType}, s.Resolves base n hidden hiddenType →
      (mention.GetsOut hidden hiddenType ↔ name = n ∧ (base.get? id).isSome = true)) :
    Reads base n most mention s (s.touch name id) where
  resolves before := by
    rw [closed.declares, closed.declaresType, Bool.or_false, Bool.or_false]
    exact ⟨before.value, before.type⟩
  kept used := usesOutside_touch.mpr (Or.inr used)
  least _ _ _ before free := usesOutside_touch.mpr (Or.inl ((out before).mp free))
  most _ _ _ before used := by
    rcases usesOutside_touch.mp used with now | used
    · exact Or.inr ((out before).mpr now)
    · exact Or.inl used

theorem touch {name : String} {id : SymbolId} (position : Position)
    (found : s.scopes.find? name = some id) :
    Reads base n most (.ofUse n name position) s (s.touch name id) := by
  apply ofTouch (.ofUse n name position)
  intro hidden hiddenType before
  by_cases same : name = n
  · subst same
    simp [Mention.GetsOut, Mention.ofUse, (before.value id found).2]
  · simp [Mention.GetsOut, Mention.ofUse, same]

theorem touchType {name : String} {id : SymbolId} (position : Position)
    (found : s.scopes.findType? s.symbols name = some id) :
    Reads base n most (.ofTypeUse (.checker most) n name position) s (s.touch name id) := by
  apply ofTouch (.ofTypeUse (.checker most) n name position)
  intro hidden hiddenType before
  by_cases same : name = n
  · subst same
    simp [Mention.GetsOut, Mention.ofTypeUse, Reading.typesOnly, (before.type id found).2]
  · simp [Mention.GetsOut, Mention.ofTypeUse, same]

theorem scopes_insertNamed {symbol : Symbol} (named : symbol.name ≠ "_") :
    (s.insertNamed symbol).scopes = s.scopes.add symbol.name s.symbols.nextId := by
  simp [State.insertNamed, named]

theorem insertNamed_of_ne {symbol : Symbol} (behind : s.Behind base) (apart : n ≠ symbol.name)
    (before : s.Resolves base n hidden hiddenType) :
    (s.insertNamed symbol).Resolves base n hidden hiddenType := by
  have kept := behind.named.isType_insertNamed (n := n) symbol
  by_cases blank : symbol.name = "_"
  · exact before.of_scopes_eq (by simp [State.insertNamed, blank]) kept
  · have scopes := scopes_insertNamed (s := s) blank
    constructor
    · intro id found
      rw [scopes, ScopeStack.find?_add_of_ne apart] at found
      exact before.value id found
    · intro id found
      rw [scopes, ScopeStack.findType?_add_of_ne apart, ScopeStack.findType?_congr kept] at found
      exact before.type id found

/-- The name of a new symbol stands for that symbol from now on, and as a type if it is one. -/
theorem insertNamed_self {symbol : Symbol} (behind : s.Behind base)
    (free : s.clash? symbol.name = none)
    (before : s.Resolves base symbol.name hidden hiddenType) :
    (s.insertNamed symbol).Resolves base symbol.name true
      (hiddenType || symbol.type?.isSome) := by
  have kept := behind.named.isType_insertNamed (n := symbol.name) symbol
  have new : (s.insertNamed symbol).symbols.isType s.symbols.nextId = symbol.type?.isSome := by
    rw [SymbolTable.isType, State.insertNamed, SymbolTable.get?_insert_nextId]
    rfl
  by_cases blank : symbol.name = "_"
  · -- no scope holds the name `_`, so it still stands for nothing
    have after : (s.insertNamed symbol).Resolves base symbol.name hidden hiddenType :=
      before.of_scopes_eq (by simp [State.insertNamed, blank]) kept
    exact ⟨fun id found => absurd blank (after.value id found).1,
      fun id found => absurd blank (after.type id found).1⟩
  · have scopes := scopes_insertNamed (s := s) blank
    constructor
    · intro id found
      rw [scopes, ScopeStack.find?_add_self] at found
      obtain rfl := Option.some.inj found
      exact ⟨blank, by rw [behind.get?_nextId]; rfl⟩
    · intro id found
      -- a look-up of a type stops at a type and passes over everything else
      cases typed : symbol.type?.isSome with
      | true =>
        rw [scopes, ScopeStack.findType?_add_of_type (new.trans typed)] at found
        obtain rfl := Option.some.inj found
        exact ⟨blank, by rw [behind.get?_nextId, Bool.or_true]; rfl⟩
      | false =>
        have inner : s.scopes.inner.find? symbol.name = none := by
          simpa [State.clash?, blank, ScopeStack.findLocal?] using free
        rw [scopes, ScopeStack.findType?_add_of_not_type (new.trans typed) inner,
          ScopeStack.findType?_congr kept] at found
        rw [Bool.or_false]
        exact before.type id found

theorem insertNamed {symbol : Symbol} (behind : s.Behind base)
    (free : s.clash? symbol.name = none) :
    Reads base n most
      { declares := symbol.name = n
        declaresType := decide (symbol.name = n) && symbol.type?.isSome }
      s (s.insertNamed symbol) where
  resolves before := by
    by_cases same : symbol.name = n
    · subst same
      simpa using insertNamed_self behind free before
    · simpa [same] using insertNamed_of_ne behind (Ne.symm same) before
  kept used := used
  least _ _ _ _ out := by simp [Mention.GetsOut] at out
  most _ _ _ _ used := Or.inl used

theorem insertVar {v : Variable} (behind : s.Behind base) (free : s.clash? v.name = none) :
    Reads base n most (.ofNames n [v.name]) s (s.insertNamed (.var v)) := by
  have reads : Reads base n most _ s (s.insertNamed (.var v)) := insertNamed behind free
  simpa [Symbol.name, Symbol.type?, Mention.ofNames, eq_comm] using reads

/-- A new type gets its target later, which makes no difference to what names stand for. -/
theorem declaring {ctx : Context} {name : String} {position : Position} (behind : s.Behind base)
    (free : s.clash? name = none) :
    Reads base n most (.ofTypeName n name) s (s.declaring ctx name position) := by
  have reads : Reads base n most _ s (s.declaring ctx name position) := insertNamed behind free
  exact reads.of_getsOut_iff rfl (Bool.and_true _).symm Iff.rfl

theorem setAliased {id : SymbolId} (target : Ty) :
    Reads base n most {} s (s.setAliased id target) :=
  ofSame (fun before => before.of_scopes_eq rfl fun _ _ _ _ => isType_setAliased target) rfl

/-- What is declared in a scope is forgotten when it closes. -/
theorem popScope (behind : s.Behind base) (grows : s.pushScope.Grows s')
    (inside : Reads base n most mention s.pushScope s') :
    Reads base n most mention.enclosed s s'.popScope := by
  have opened : ∀ {hidden hiddenType}, s.Resolves base n hidden hiddenType →
      s.pushScope.Resolves base n hidden hiddenType := fun before => ⟨before.value, before.type⟩
  constructor
  · intro hidden hiddenType before
    simp only [Mention.declares_enclosed, Mention.declaresType_enclosed, Bool.or_false]
    -- the scopes are those from before, and their symbols have not changed meanwhile
    exact before.of_scopes_eq grows.scopes_popScope
      (behind.named.isType_eq grows.symbols.toWithin)
  · exact inside.kept
  · exact fun least _ _ before out => inside.least least (opened before) out
  · exact fun most _ _ before used => inside.most most (opened before) used

theorem labelled (behind : s.Behind base) (labels : Check.Quiet.Labelled s s') (grows : s.Grows s') :
    Reads base n most {} s s' :=
  ofSame (fun before => before.of_scopes_eq labels.scopes
    (behind.named.isType_eq grows.symbols.toWithin)) labels.uses

end Reads

end States

/-! ## The effect of reading -/

/-- The effect of looking a name up, in a run from a table on. -/
def lookups (base : SymbolTable) (n : String) (most : Bool) : Effect Mention where
  Invariant s := s.Behind base
  Leads := Reads base n most
  none := {}
  followedBy := (· ++ ·)
  refl _ := .refl _
  trans := .trans
  entered behind := ⟨behind.table, behind.named⟩
  left behind reads :=
    have started {s : State} {hidden hiddenType : Bool}
        (before : s.Resolves base n hidden hiddenType) :
        s.enter.Resolves base n hidden hiddenType :=
      ⟨before.value, before.type⟩
    ⟨⟨behind.table, behind.named⟩,
      ⟨fun before => ⟨(reads.resolves (started before)).value,
        (reads.resolves (started before)).type⟩, reads.kept,
        fun fewest _ _ before => reads.least fewest (started before),
        fun most _ _ before => reads.most most (started before)⟩⟩

end Typing

end PackageCheck
