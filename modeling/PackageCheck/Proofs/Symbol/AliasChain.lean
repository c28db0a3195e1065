import Mathlib.Data.Fintype.Pigeonhole
import PackageCheck.Symbol.Table

/-! # Chains of aliases

The declaration of a type may name another declared type, and so lead on to its declaration. A chain
of such links ends at a declaration that stands for a type which is not custom, or at something that
stands for no type, or it comes back to a declaration and never ends.

`rootType_decides` says that the root of a custom type tells these apart, in any table: it follows the
chain for as many links as there are declared symbols, and only a declared symbol leads on, so a chain
that is longer has visited one of them twice. -/

namespace PackageCheck.SymbolTable

variable {table : SymbolTable} {id next last : SymbolId} {type : Ty} {links : Nat}

/-! ## Chains -/

/-- Whether a declaration names the custom type of another one. -/
def Links (table : SymbolTable) (id next : SymbolId) : Prop :=
  ∃ decl name, table.get? id = some (.type decl) ∧ decl.aliased = some (.custom name next)

/-- Whether a declaration leads to another one over a number of links. -/
inductive LeadsIn (table : SymbolTable) : Nat → SymbolId → SymbolId → Prop
  | refl {id : SymbolId} : LeadsIn table 0 id id
  | link {links : Nat} {id next last : SymbolId} (first : table.Links id next)
      (rest : LeadsIn table links next last) : LeadsIn table (links + 1) id last

/-- Whether a declaration leads to another one. -/
def LeadsTo (table : SymbolTable) (id last : SymbolId) : Prop :=
  ∃ links, table.LeadsIn links id last

/-- Whether the chain that begins with a declaration comes to some declaration twice. -/
def VisitsTwice (table : SymbolTable) (id : SymbolId) : Prop :=
  ∃ twice first second, first < second ∧
    table.LeadsIn first id twice ∧ table.LeadsIn second id twice

/-- Whether a declaration leads no further and stands for a type: its target, or the simple type of
    its name if it has no target. -/
inductive Denotes (table : SymbolTable) (id : SymbolId) : Ty → Prop
  | target {decl : TypeDecl} {type : Ty} (held : table.get? id = some (.type decl))
      (aliased : decl.aliased = some type) (root : ∀ name next, type ≠ .custom name next) :
      Denotes table id type
  | simple {decl : TypeDecl} {simple : Simple} (held : table.get? id = some (.type decl))
      (aliased : decl.aliased = none) (named : Simple.ofName? decl.name = some simple) :
      Denotes table id (.simple simple)

/-- Whether a handle leads no further and stands for no type. -/
inductive DeadEnd (table : SymbolTable) (id : SymbolId) : Prop
  | missing (held : table.get? id = none)
  | other {symbol : Symbol} (held : table.get? id = some symbol) (other : symbol.type? = none)
  | nameless {decl : TypeDecl} (held : table.get? id = some (.type decl))
      (aliased : decl.aliased = none) (named : Simple.ofName? decl.name = none)

/-! ## One step -/

theorem follow_eq_link_iff : table.follow id = .ok (.inr next) ↔ table.Links id next := by
  constructor
  · intro followed
    unfold follow at followed
    split at followed
    · rename_i title name next' site held
      cases followed
      exact ⟨_, name, held, rfl⟩
    · cases followed
    · split at followed <;> cases followed
    · cases followed
  · rintro ⟨⟨title, aliased, site⟩, name, held, rfl⟩
    simp [follow, held]

theorem follow_eq_type_iff : table.follow id = .ok (.inl type) ↔ table.Denotes id type := by
  constructor
  · intro followed
    unfold follow at followed
    split at followed
    · cases followed
    · rename_i title target site apart held
      cases followed
      exact .target held rfl apart
    · rename_i title site held
      split at followed
      · rename_i simple named
        cases followed
        exact .simple held rfl named
      · cases followed
    · cases followed
  · intro denoted
    cases denoted with
    | @target decl _ held aliased root =>
      obtain ⟨title, _, site⟩ := decl
      obtain rfl := aliased
      cases type with
      | custom name next => exact absurd rfl (root name next)
      | _ => simp [follow, held]
    | @simple decl _ held aliased named =>
      obtain ⟨title, _, site⟩ := decl
      obtain rfl := aliased
      simp [follow, held, named]

theorem follow_eq_error_iff {err : TypeError} :
    table.follow id = .error err ↔ err = .unresolved ∧ table.DeadEnd id := by
  constructor
  · intro followed
    unfold follow at followed
    split at followed
    · cases followed
    · cases followed
    · rename_i title site held
      split at followed
      · cases followed
      · rename_i named
        cases followed
        exact ⟨rfl, .nameless held rfl named⟩
    · rename_i linked denoting bare
      cases followed
      refine ⟨rfl, ?_⟩
      cases held : table.get? id with
      | none => exact .missing held
      | some symbol =>
        cases symbol with
        | type decl =>
          obtain ⟨title, aliased, site⟩ := decl
          cases aliased with
          | none => exact absurd held (bare title site)
          | some target => exact absurd held (denoting title target site)
        | _ => exact .other held rfl
  · rintro ⟨rfl, dead⟩
    cases dead with
    | missing held => simp [follow, held]
    | @other symbol held other =>
      cases symbol with
      | type decl => cases other
      | _ => simp [follow, held]
    | @nameless decl held aliased named =>
      obtain ⟨title, _, site⟩ := decl
      obtain rfl := aliased
      simp [follow, held, named]

instance : Decidable (table.Links id next) :=
  decidable_of_iff ((table.follow id).toOption.bind Sum.getRight? = some next) <| by
    rw [← follow_eq_link_iff]
    cases table.follow id <;> simp [Except.toOption]

/-- What is predeclared has no target. -/
theorem aliased_of_builtin {index : Nat} {decl : TypeDecl}
    (held : table.get? (.builtin index) = some (.type decl)) : decl.aliased = none := by
  have listed : Symbol.type decl ∈ Prelude.symbols := List.mem_of_getElem? held
  rcases List.mem_append.mp listed with simple | function
  · obtain ⟨name, -, same⟩ := List.mem_map.mp simple
    cases same
    rfl
  · simp [Prelude.signatures] at function

theorem Links.exists_place (linked : table.Links id next) :
    ∃ place < table.declared.size, id = .declared place := by
  obtain ⟨decl, name, held, aliased⟩ := linked
  cases id with
  | builtin index => simp [aliased_of_builtin held] at aliased
  | declared place => exact ⟨place, (Array.getElem?_eq_some_iff.mp held).1, rfl⟩

theorem Links.unique {next' : SymbolId} (linked : table.Links id next)
    (linked' : table.Links id next') : next = next' := by
  rw [← follow_eq_link_iff] at linked linked'
  simpa [linked] using linked'

theorem Denotes.not_links (denoted : table.Denotes id type) : ¬ table.Links id next := by
  rw [← follow_eq_type_iff] at denoted
  simp [← follow_eq_link_iff, denoted]

theorem DeadEnd.not_links (dead : table.DeadEnd id) : ¬ table.Links id next := by
  have followed := follow_eq_error_iff.mpr ⟨rfl, dead⟩
  simp [← follow_eq_link_iff, followed]

/-! ## Several steps -/

namespace LeadsIn

theorem trans {more : Nat} {middle : SymbolId} (front : table.LeadsIn links id middle)
    (behind : table.LeadsIn more middle last) : table.LeadsIn (links + more) id last := by
  induction front with
  | refl => simpa using behind
  | @link links id next middle first rest hypothesis =>
    have rest := hypothesis behind
    rw [Nat.add_right_comm]
    exact .link first rest

theorem split {more : Nat} (leads : table.LeadsIn (links + more) id last) :
    ∃ middle, table.LeadsIn links id middle ∧ table.LeadsIn more middle last := by
  induction links generalizing id with
  | zero => exact ⟨id, .refl, by simpa using leads⟩
  | succ links hypothesis =>
    rw [Nat.add_right_comm] at leads
    cases leads with
    | link first rest =>
      obtain ⟨middle, front, behind⟩ := hypothesis rest
      exact ⟨middle, .link first front, behind⟩

theorem unique {last' : SymbolId} (leads : table.LeadsIn links id last)
    (leads' : table.LeadsIn links id last') : last = last' := by
  induction leads with
  | refl => cases leads'; rfl
  | link first rest hypothesis =>
    cases leads' with
    | link first' rest' =>
      obtain rfl := first.unique first'
      exact hypothesis rest'

/-- A way around that can be gone again and again. -/
theorem repeated (around : table.LeadsIn links id id) (times : Nat) :
    table.LeadsIn (times * links) id id := by
  induction times with
  | zero => simpa using LeadsIn.refl
  | succ times hypothesis =>
    rw [Nat.succ_mul]
    exact hypothesis.trans around

/-- Each declaration in front of the last one is a declared symbol, so there are too few of them for
    that many links. -/
theorem visitsTwice (leads : table.LeadsIn links id last) (many : table.declared.size < links) :
    table.VisitsTwice id := by
  have visited : ∀ visit : Fin links, ∃ place : Fin table.declared.size,
      table.LeadsIn visit id (.declared place) := by
    intro visit
    have places : links = visit + (links - visit - 1 + 1) := by omega
    rw [places] at leads
    obtain ⟨here, front, behind⟩ := leads.split
    cases behind with
    | link first rest =>
      obtain ⟨place, bound, rfl⟩ := first.exists_place
      exact ⟨⟨place, bound⟩, front⟩
  choose place leadsTo using visited
  obtain ⟨first, second, apart, same⟩ :=
    Fintype.exists_ne_map_eq_of_card_lt place (by simpa using many)
  rcases Nat.lt_or_gt_of_ne (Fin.val_ne_of_ne apart) with before | behind
  · exact ⟨_, first, second, before, leadsTo first, same ▸ leadsTo second⟩
  · exact ⟨_, second, first, behind, leadsTo second, same ▸ leadsTo first⟩

end LeadsIn

/-- A chain that comes back never ends. -/
theorem VisitsTwice.endless (returns : table.VisitsTwice id) (links : Nat) :
    ∃ last, table.LeadsIn links id last := by
  obtain ⟨twice, first, second, before, there, back⟩ := returns
  -- the declaration that is visited twice leads to itself
  have around : table.LeadsIn (second - first) twice twice := by
    rw [show second = first + (second - first) by omega] at back
    obtain ⟨middle, front, behind⟩ := back.split
    rwa [front.unique there] at behind
  have far : links ≤ links * (second - first) := Nat.le_mul_of_pos_right links (by omega)
  have whole := there.trans (around.repeated links)
  rw [show first + links * (second - first) =
    links + (first + links * (second - first) - links) by omega] at whole
  obtain ⟨last, front, -⟩ := whole.split
  exact ⟨last, front⟩

/-- A chain that ends comes to no declaration twice. -/
theorem LeadsIn.not_visitsTwice (leads : table.LeadsIn links id last)
    (ends : ∀ next, ¬ table.Links last next) : ¬ table.VisitsTwice id := by
  intro returns
  obtain ⟨beyond, further⟩ := returns.endless (links + 1)
  obtain ⟨middle, front, behind⟩ := further.split
  obtain rfl := front.unique leads
  cases behind with
  | link first rest => exact ends _ first

/-- A chain that ends has no more links than there are declared symbols. -/
theorem LeadsIn.le_size (leads : table.LeadsIn links id last)
    (ends : ∀ next, ¬ table.Links last next) : links ≤ table.declared.size := by
  by_contra many
  exact leads.not_visitsTwice ends (leads.visitsTwice (by omega))

/-! ## The root -/

theorem followSteps_eq_ok_iff {name : String} {steps : Nat} :
    table.followSteps name steps id = .ok type ↔
      ∃ links < steps, ∃ last, table.LeadsIn links id last ∧ table.Denotes last type := by
  induction steps generalizing id with
  | zero => simp [followSteps]
  | succ steps hypothesis =>
    rw [followSteps]
    constructor
    · intro reached
      split at reached
      case h_1 found followed =>
        cases reached
        exact ⟨0, Nat.succ_pos steps, id, .refl, follow_eq_type_iff.mp followed⟩
      case h_2 next followed =>
        obtain ⟨links, few, last, leads, denoted⟩ := hypothesis.mp reached
        exact ⟨links + 1, by omega, last, .link (follow_eq_link_iff.mp followed) leads, denoted⟩
      case h_3 => cases reached
    · rintro ⟨links, few, last, leads, denoted⟩
      cases leads with
      | refl => rw [follow_eq_type_iff.mpr denoted]
      | link first rest =>
        rw [follow_eq_link_iff.mpr first]
        exact hypothesis.mpr ⟨_, by omega, last, rest, denoted⟩

theorem followSteps_eq_error_iff {name : String} {steps : Nat} {err : TypeError} :
    table.followSteps name steps id = .error err ↔
      (err = .recursiveAlias name ∧ ∃ last, table.LeadsIn steps id last) ∨
        (err = .unresolved ∧
          ∃ links < steps, ∃ last, table.LeadsIn links id last ∧ table.DeadEnd last) := by
  induction steps generalizing id with
  | zero =>
    simp only [followSteps, Except.error.injEq, Nat.not_lt_zero, false_and, exists_false,
      and_false, or_false]
    constructor
    · rintro rfl
      exact ⟨rfl, id, .refl⟩
    · rintro ⟨rfl, -⟩
      rfl
  | succ steps hypothesis =>
    rw [followSteps]
    constructor
    · intro ended
      split at ended
      case h_1 => cases ended
      case h_2 next followed =>
        have first := follow_eq_link_iff.mp followed
        rcases hypothesis.mp ended with ⟨recursive, last, leads⟩ |
          ⟨unresolved, links, few, last, leads, dead⟩
        · exact .inl ⟨recursive, last, .link first leads⟩
        · exact .inr ⟨unresolved, links + 1, by omega, last, .link first leads, dead⟩
      case h_3 failed followed =>
        cases ended
        obtain ⟨unresolved, dead⟩ := follow_eq_error_iff.mp followed
        exact .inr ⟨unresolved, 0, Nat.succ_pos steps, id, .refl, dead⟩
    · rintro (⟨recursive, last, leads⟩ | ⟨unresolved, links, few, last, leads, dead⟩)
      · cases leads with
        | link first rest =>
          rw [follow_eq_link_iff.mpr first]
          exact hypothesis.mpr (.inl ⟨recursive, last, rest⟩)
      · cases leads with
        | refl => rw [unresolved, follow_eq_error_iff.mpr ⟨rfl, dead⟩]
        | link first rest =>
          rw [follow_eq_link_iff.mpr first]
          exact hypothesis.mpr (.inr ⟨unresolved, _, by omega, last, rest, dead⟩)

theorem rootType_eq_ok_iff {name : String} : table.rootType name id = .ok type ↔
    ∃ last, table.LeadsTo id last ∧ table.Denotes last type := by
  rw [rootType, followSteps_eq_ok_iff]
  constructor
  · rintro ⟨links, -, last, leads, denoted⟩
    exact ⟨last, ⟨links, leads⟩, denoted⟩
  · rintro ⟨last, ⟨links, leads⟩, denoted⟩
    have few := leads.le_size fun _ => denoted.not_links
    exact ⟨links, Nat.lt_succ_of_le few, last, leads, denoted⟩

theorem rootType_eq_error_iff {name : String} {err : TypeError} :
    table.rootType name id = .error err ↔
      (err = .recursiveAlias name ∧ table.VisitsTwice id) ∨
        (err = .unresolved ∧ ∃ last, table.LeadsTo id last ∧ table.DeadEnd last) := by
  rw [rootType, followSteps_eq_error_iff]
  constructor
  · rintro (⟨recursive, last, leads⟩ | ⟨unresolved, links, -, last, leads, dead⟩)
    · exact .inl ⟨recursive, leads.visitsTwice (Nat.lt_succ_self _)⟩
    · exact .inr ⟨unresolved, last, ⟨links, leads⟩, dead⟩
  · rintro (⟨recursive, returns⟩ | ⟨unresolved, last, ⟨links, leads⟩, dead⟩)
    · exact .inl ⟨recursive, returns.endless _⟩
    · have few := leads.le_size fun _ => dead.not_links
      exact .inr ⟨unresolved, links, Nat.lt_succ_of_le few, last, leads, dead⟩

/-- The root of a custom type is what the chain of its declaration ends in. The chain comes back to
    a declaration exactly if the type is reported as recursive, and it ends at something that stands
    for no type exactly if the type is unresolved. Nothing else can happen. -/
theorem rootType_decides (table : SymbolTable) (name : String) (decl : SymbolId) :
    (∀ type, table.rootType name decl = .ok type ↔
      ∃ last, table.LeadsTo decl last ∧ table.Denotes last type) ∧
    ∀ err, table.rootType name decl = .error err ↔
      (err = .recursiveAlias name ∧ table.VisitsTwice decl) ∨
        (err = .unresolved ∧ ∃ last, table.LeadsTo decl last ∧ table.DeadEnd last) :=
  ⟨fun _ => rootType_eq_ok_iff, fun _ => rootType_eq_error_iff⟩

end PackageCheck.SymbolTable
