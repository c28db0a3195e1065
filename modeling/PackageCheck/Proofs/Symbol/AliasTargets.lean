import PackageCheck.Proofs.Symbol.AliasChain
import PackageCheck.Proofs.Symbol.Extension

/-! # Targets of declared types

A type is declared before its target is known, and the target can be a type that is declared already,
the type itself among them. So a chain of aliases goes back to older and older declarations, and it
ends unless it comes to one that names itself.

`SymbolTable.Reached` are the tables that come about in this way, those in between as well.
`Reached.grounded` says what their chains are like. -/

namespace PackageCheck.SymbolTable

variable {table base : SymbolTable} {pending : Option SymbolId} {id next last : SymbolId}
  {place : Nat} {symbol : Symbol} {decl : TypeDecl} {type : Ty} {name : String}

/-! ## Reached tables -/

/-- Whether a declaration can get a type as its target: a custom type only if it is what some
    declaration of the table introduces. -/
def Offers (table : SymbolTable) (type : Ty) : Prop :=
  ∀ name next, type = .custom name next → table.declaredType? next = some type

/-- The tables that a check comes through. A declaration is pending from the time at which it is made
    until its target is known, and that of an alias until its root was asked for. -/
inductive Reached : Option SymbolId → SymbolTable → Prop
  | empty : Reached none .empty
  /-- A symbol that is no type is declared. -/
  | other {table : SymbolTable} (symbol : Symbol) (untyped : symbol.type? = none)
      (before : Reached none table) : Reached none (table.insert symbol)
  /-- A type is declared, without a target that is known. -/
  | declared {table : SymbolTable} (name : String) (site : Option Site)
      (before : Reached none table) :
      Reached (some table.nextId) (table.insert (.type ⟨name, some .unknown, site⟩))
  /-- The type turns out to be a struct, whose methods may declare more. -/
  | struct {table : SymbolTable} {id : SymbolId} (layout : StructTy)
      (before : Reached (some id) table) : Reached none (table.setAliased id (.struct layout))
  /-- The type turns out to be an alias. -/
  | target {table : SymbolTable} {id : SymbolId} {type : Ty} (offered : table.Offers type)
      (before : Reached (some id) table) : Reached (some id) (table.setAliased id type)
  /-- The alias has a root. -/
  | confirmed {table : SymbolTable} {id : SymbolId} {name : String} {root : Ty}
      (rooted : table.rootType name id = .ok root) (before : Reached (some id) table) :
      Reached none table
  /-- The declaration is given up. -/
  | failed {table : SymbolTable} {id : SymbolId} (before : Reached (some id) table) :
      Reached none (table.markFailed id)
  /-- Something that was declared turns out to be wrong. -/
  | marked {table : SymbolTable} (id : SymbolId) (before : Reached none table) :
      Reached none (table.markFailed id)

/-! ## Targets -/

/-- Whether a target leads no further than to a place, if it leads to a declaration at all. -/
def Reaches (table : SymbolTable) (place : Nat) (type : Ty) : Prop :=
  ∀ name next, type = .custom name next →
    ∃ lower ≤ place, next = .declared lower ∧ ∃ below, table.get? next = some (.type below)

/-- Whether each declared type has a target, which leads to no younger declaration. -/
def Founded (table : SymbolTable) : Prop :=
  ∀ place decl, table.get? (.declared place) = some (.type decl) →
    ∃ type, decl.aliased = some type ∧ table.Reaches place type

/-- Whether each declared type has a root or is marked as failed. -/
def Settled (table : SymbolTable) : Prop :=
  ∀ place decl, table.get? (.declared place) = some (.type decl) →
    table.isFailed (.declared place) ∨ ∃ name root, table.rootType name (.declared place) = .ok root

theorem Reaches.within {after : SymbolTable} (reaches : table.Reaches place type)
    (within : table.Within after) : after.Reaches place type := by
  intro name next same
  obtain ⟨lower, bound, there, below, held⟩ := reaches name next same
  exact ⟨lower, bound, there, below, within.kept next _ held⟩

/-- A custom type that is offered is introduced by a declaration of the table. -/
theorem Offers.reaches (offered : (table.insert symbol).Offers type) :
    (table.insert symbol).Reaches table.declared.size type := by
  intro name next same
  have introduced := offered name next same
  unfold declaredType? at introduced
  split at introduced
  · subst same
    simp at introduced
  · rename_i title aliased site held
    cases next with
    | builtin index => cases aliased_of_builtin held
    | declared lower =>
      have bound := (Array.getElem?_eq_some_iff.mp held).1
      rw [insert, Array.size_push] at bound
      exact ⟨lower, by omega, rfl, _, held⟩
  · cases introduced

/-- A type that was just declared gets its target as if it had been declared with it. -/
theorem setAliased_insert (base : SymbolTable) (decl : TypeDecl) (type : Ty) :
    (base.insert (.type decl)).setAliased base.nextId type =
      base.insert (.type { decl with aliased := some type }) := by
  rw [setAliased, get?_insert_nextId]
  have replaced (symbol : Symbol) :
      (base.declared.push (.type decl)).setIfInBounds base.declared.size symbol =
        base.declared.push symbol := by
    apply Array.ext <;> grind
  simp [set?, nextId, insert, replaced]

theorem get?_markFailed_declared (held : (table.markFailed id).get? next = some (.type decl)) :
    table.get? next = some (.type decl) := by
  rwa [get?_markFailed] at held

namespace Founded

theorem insert (founded : table.Founded)
    (targeted : ∀ decl, symbol = .type decl → ∃ type, decl.aliased = some type ∧
      (table.insert symbol).Reaches table.declared.size type) : (table.insert symbol).Founded := by
  intro place decl held
  rcases get?_insert_inv held with old | ⟨new, same⟩
  · obtain ⟨type, aliased, reaches⟩ := founded place decl old
    exact ⟨type, aliased, reaches.within (table.extends_insert symbol).toWithin⟩
  · cases new
    exact targeted decl same.symm

theorem markFailed (founded : table.Founded) (id : SymbolId) : (table.markFailed id).Founded := by
  intro place decl held
  obtain ⟨type, aliased, reaches⟩ := founded place decl (get?_markFailed_declared held)
  exact ⟨type, aliased, reaches.within (table.within_markFailed id)⟩

end Founded

namespace Settled

theorem insert (settled : table.Settled)
    (new : ∀ decl, symbol = .type decl → ∃ name root,
      (table.insert symbol).rootType name table.nextId = .ok root) :
    (table.insert symbol).Settled := by
  intro place decl held
  rcases get?_insert_inv held with old | ⟨here, same⟩
  · rcases settled place decl old with failed | ⟨name, root, rooted⟩
    · exact .inl failed
    · exact .inr ⟨name, root, (table.extends_insert symbol).toWithin.rootType rooted⟩
  · rw [here]
    exact .inr (new decl same.symm)

theorem markFailed (settled : table.Settled) (id : SymbolId) : (table.markFailed id).Settled := by
  intro place decl held
  rw [isFailed_markFailed]
  rcases settled place decl (get?_markFailed_declared held) with failed | ⟨name, root, rooted⟩
  · exact .inl (.inr failed)
  · exact .inr ⟨name, root, (table.within_markFailed id).rootType rooted⟩

/-- The newest declaration needs no root if it is marked as failed. -/
theorem markNewest (settled : base.Settled) (symbol : Symbol) :
    ((base.insert symbol).markFailed base.nextId).Settled := by
  intro place decl held
  rw [isFailed_markFailed]
  rcases get?_insert_inv (get?_markFailed_declared held) with old | ⟨here, -⟩
  · rcases settled place decl old with failed | ⟨name, root, rooted⟩
    · exact .inl (.inr failed)
    · have within := (base.extends_insert symbol).toWithin.trans
        ((base.insert symbol).within_markFailed base.nextId)
      exact .inr ⟨name, root, within.rootType rooted⟩
  · exact .inl (.inl here)

end Settled

/-! ## The invariant -/

/-- A target leads on in the same way if the newest declaration has another one. -/
theorem Reaches.retarget {other : TypeDecl} (reaches : (base.insert (.type decl)).Reaches place type) :
    (base.insert (.type other)).Reaches place type := by
  intro name next same
  obtain ⟨lower, bound, there, below, held⟩ := reaches name next same
  rcases get?_insert_inv held with old | ⟨newest, -⟩
  · exact ⟨lower, bound, there, below, get?_insert_of_some _ old⟩
  · exact ⟨lower, bound, there, other, newest ▸ get?_insert_nextId base _⟩

/-- What holds of a reached table: each declaration leads to older ones or to itself, and each has a
    root or is marked as failed. A pending declaration is the newest one and needs neither. -/
def Invariant (table : SymbolTable) : Option SymbolId → Prop
  | none => table.Founded ∧ table.Settled
  | some id => ∃ base : SymbolTable, base.Founded ∧ base.Settled ∧ id = base.nextId ∧
      ∃ decl type, table = base.insert (.type decl) ∧ decl.aliased = some type ∧
        table.Reaches base.declared.size type

theorem Invariant.founded (invariant : table.Invariant pending) : table.Founded := by
  cases pending with
  | none => exact invariant.1
  | some id =>
    obtain ⟨base, founded, -, -, decl, type, rfl, aliased, reaches⟩ := invariant
    apply founded.insert
    rintro _ ⟨⟩
    exact ⟨type, aliased, reaches⟩

theorem Reached.invariant (reached : table.Reached pending) : table.Invariant pending := by
  induction reached with
  | empty =>
    have nothing : ∀ place decl, SymbolTable.empty.get? (.declared place) ≠ some (.type decl) := by
      simp [SymbolTable.empty, get?]
    exact ⟨fun place decl held => absurd held (nothing place decl),
      fun place decl held => absurd held (nothing place decl)⟩
  | other symbol untyped before hypothesis =>
    obtain ⟨founded, settled⟩ := hypothesis
    have noType : ∀ decl, symbol ≠ .type decl := by
      rintro decl rfl
      cases untyped
    exact ⟨founded.insert fun decl same => absurd same (noType decl),
      settled.insert fun decl same => absurd same (noType decl)⟩
  | @declared table name site before hypothesis =>
    obtain ⟨founded, settled⟩ := hypothesis
    exact ⟨table, founded, settled, rfl, _, .unknown, rfl, rfl, fun _ _ same => by cases same⟩
  | struct layout before hypothesis =>
    obtain ⟨base, founded, settled, rfl, decl, type, rfl, -, -⟩ := hypothesis
    rw [setAliased_insert]
    constructor
    · apply founded.insert
      rintro _ ⟨⟩
      exact ⟨.struct layout, rfl, fun _ _ same => by cases same⟩
    · apply settled.insert
      rintro _ ⟨⟩
      refine ⟨decl.name, .struct layout, rootType_eq_ok_iff.mpr ⟨_, ⟨0, .refl⟩, ?_⟩⟩
      apply Denotes.target (get?_insert_nextId base _)
      · rfl
      · simp
  | @target _ _ type offered before hypothesis =>
    obtain ⟨base, founded, settled, rfl, decl, _, rfl, -, -⟩ := hypothesis
    rw [setAliased_insert]
    exact ⟨base, founded, settled, rfl, _, type, rfl, rfl, offered.reaches.retarget⟩
  | confirmed rooted before hypothesis =>
    have founded := hypothesis.founded
    obtain ⟨base, -, settled, rfl, decl, type, rfl, -, -⟩ := hypothesis
    exact ⟨founded, settled.insert fun _ _ => ⟨_, _, rooted⟩⟩
  | failed before hypothesis =>
    have founded := hypothesis.founded
    obtain ⟨base, -, settled, rfl, decl, type, rfl, -, -⟩ := hypothesis
    exact ⟨founded.markFailed _, settled.markNewest _⟩
  | marked id before hypothesis =>
    obtain ⟨founded, settled⟩ := hypothesis
    exact ⟨founded.markFailed id, settled.markFailed id⟩

/-! ## Chains of reached tables -/

/-- Whether a declaration leads to one that names itself. -/
def Loops (table : SymbolTable) (id : SymbolId) : Prop :=
  ∃ last, table.LeadsTo id last ∧ table.Links last last

theorem Denotes.not_custom (denoted : table.Denotes id type) : type ≠ .custom name next := by
  cases denoted with
  | target held aliased root => exact root name next
  | simple held aliased named => simp

/-- A chain that goes around in the end has no root. -/
theorem Loops.not_rooted {root : Ty} (loops : table.Loops id) :
    table.rootType name id ≠ .ok root := by
  intro rooted
  obtain ⟨last, ⟨links, leads⟩, around⟩ := loops
  obtain ⟨final, ⟨links', leads'⟩, denoted⟩ := rootType_eq_ok_iff.mp rooted
  have again : table.LeadsIn 1 last last := .link around .refl
  apply leads'.not_visitsTwice fun _ => denoted.not_links
  exact ⟨last, links, links + 1, Nat.lt_succ_self links, leads, leads.trans again⟩

/-- Targets lead to older and older declarations, so a chain ends or comes to a declaration that
    names itself. -/
theorem Founded.ends_or_loops (founded : table.Founded) :
    ∀ place decl, table.get? (.declared place) = some (.type decl) →
      (∃ last type, table.LeadsTo (.declared place) last ∧ table.Denotes last type) ∨
        table.Loops (.declared place) := by
  intro place
  induction place using Nat.strong_induction_on with
  | _ place hypothesis =>
    intro decl held
    obtain ⟨type, aliased, reaches⟩ := founded place decl held
    by_cases custom : ∃ name next, type = .custom name next
    · obtain ⟨name, next, rfl⟩ := custom
      obtain ⟨lower, bound, rfl, below, there⟩ := reaches name next rfl
      have first : table.Links (.declared place) (.declared lower) := ⟨decl, name, held, aliased⟩
      by_cases itself : lower = place
      · subst itself
        exact .inr ⟨_, ⟨0, .refl⟩, first⟩
      · rcases hypothesis lower (by omega) below there with
          ⟨last, type, ⟨links, leads⟩, denoted⟩ | ⟨last, ⟨links, leads⟩, around⟩
        · exact .inl ⟨last, type, ⟨links + 1, .link first leads⟩, denoted⟩
        · exact .inr ⟨last, ⟨links + 1, .link first leads⟩, around⟩
    · have final := Denotes.target held aliased fun name next same => custom ⟨name, next, same⟩
      exact .inl ⟨_, type, ⟨0, .refl⟩, final⟩

/-- What the chains of a table are like, in which a declaration may be pending. -/
structure Grounded (table : SymbolTable) (pending : Option SymbolId) : Prop where
  /-- The target of a declaration is declared in front of it, or it is the declaration itself. -/
  descends : ∀ place decl name next, table.get? (.declared place) = some (.type decl) →
    decl.aliased = some (.custom name next) →
      ∃ lower ≤ place, next = .declared lower ∧ ∃ below, table.get? next = some (.type below)
  /-- A declaration has a root that is not custom, unless it leads to one that names itself. -/
  rooted : ∀ place decl name, table.get? (.declared place) = some (.type decl) →
    ((∃ root, table.rootType name (.declared place) = .ok root ∧
        ∀ title next, root ≠ .custom title next) ↔
      ¬ table.Loops (.declared place))
  /-- With nothing pending, a declaration that leads to one that names itself is marked as failed. -/
  failed : pending = none → ∀ id, table.Loops id → table.isFailed id = true

theorem Reached.grounded (reached : table.Reached pending) : table.Grounded pending where
  descends place decl name next held aliased := by
    obtain ⟨type, same, reaches⟩ := reached.invariant.founded place decl held
    exact reaches name next (Option.some.inj (same.symm.trans aliased))
  rooted place decl name held := by
    constructor
    · rintro ⟨root, rooted, -⟩ loops
      exact loops.not_rooted rooted
    · intro straight
      rcases reached.invariant.founded.ends_or_loops place decl held with
        ⟨last, type, leads, denoted⟩ | loops
      · exact ⟨type, rootType_eq_ok_iff.mpr ⟨last, leads, denoted⟩, fun _ _ => denoted.not_custom⟩
      · exact absurd loops straight
  failed := by
    rintro rfl id loops
    obtain ⟨-, settled⟩ := reached.invariant
    -- what leads on is a declared type
    have linked : ∃ next, table.Links id next := by
      obtain ⟨last, ⟨links, leads⟩, around⟩ := loops
      cases leads with
      | refl => exact ⟨_, around⟩
      | link first rest => exact ⟨_, first⟩
    obtain ⟨next, linked⟩ := linked
    obtain ⟨place, -, rfl⟩ := linked.exists_place
    obtain ⟨decl, name, held, -⟩ := linked
    rcases settled place decl held with failed | ⟨name, root, rooted⟩
    · exact failed
    · exact absurd rooted loops.not_rooted

end PackageCheck.SymbolTable
