import PackageCheck.Proofs.Symbol.AliasChain
import PackageCheck.Proofs.Symbol.World

/-! # Roots in extended tables

What a table says about a type a table that holds more says as well. The converse needs that the
declarations in the type are in the table: their chains then stay inside of it, so what holds more has
nothing to add, and they end in the same way or not at all. -/

namespace PackageCheck.SymbolTable

variable {before after : SymbolTable} {id last : SymbolId}

/-! ## What is kept -/

theorem Within.refl (table : SymbolTable) : table.Within table :=
  (Extends.refl table).toWithin

/-- A symbol that is there introduces the same type. -/
theorem Within.declaredType?_eq {symbol : Symbol} (within : before.Within after)
    (held : before.get? id = some symbol) : after.declaredType? id = before.declaredType? id := by
  simp only [SymbolTable.declaredType?, held, within.kept id symbol held]

theorem Within.links {next : SymbolId} (within : before.Within after)
    (linked : before.Links id next) : after.Links id next := by
  obtain ⟨decl, name, held, aliased⟩ := linked
  exact ⟨decl, name, within.kept _ _ held, aliased⟩

theorem Within.leadsIn {links : Nat} (within : before.Within after)
    (leads : before.LeadsIn links id last) : after.LeadsIn links id last := by
  induction leads with
  | refl => exact .refl
  | link first _ hypothesis => exact .link (within.links first) hypothesis

theorem Within.visitsTwice (within : before.Within after) (returns : before.VisitsTwice id) :
    after.VisitsTwice id := by
  obtain ⟨twice, first, second, less, once, again⟩ := returns
  exact ⟨twice, first, second, less, within.leadsIn once, within.leadsIn again⟩

/-! ## Roots -/

section Roots

variable {world : World} {type : Ty}

/-- A chain that begins at a declared type goes through declared types only. -/
theorem ValidIn.exists_type {links : Nat} (valid : world.symbols.ValidIn world)
    (leads : world.symbols.LeadsIn links id last)
    (declared : ∃ decl, world.symbols.get? id = some (.type decl)) :
    ∃ decl, world.symbols.get? last = some (.type decl) := by
  induction leads with
  | refl => exact declared
  | link first _ hypothesis =>
    obtain ⟨decl, name, held, aliased⟩ := first
    have target : Ty.ValidIn world (.custom name _) := valid _ _ held _ aliased
    obtain ⟨next, there, -⟩ := target
    exact hypothesis ⟨next, there⟩

/-- A declared type has the same root in a table that holds more, and the same error if it has
    none. -/
theorem Within.rootType_eq (valid : world.symbols.ValidIn world)
    (within : world.symbols.Within after)
    (declared : ∃ decl, world.symbols.get? id = some (.type decl)) (name : String) :
    after.rootType name id = world.symbols.rootType name id := by
  cases reached : world.symbols.rootType name id with
  | ok root => exact within.rootType reached
  | error err =>
    refine rootType_eq_error_iff.mpr ?_
    rcases rootType_eq_error_iff.mp reached with ⟨rfl, returns⟩ | ⟨rfl, last, ⟨links, leads⟩, dead⟩
    · exact Or.inl ⟨rfl, within.visitsTwice returns⟩
    · refine Or.inr ⟨rfl, last, ⟨links, within.leadsIn leads⟩, ?_⟩
      -- the chain ends at a declared type, so only its name can be in the way
      obtain ⟨decl, there⟩ := valid.exists_type leads declared
      cases dead with
      | missing held => cases held.symm.trans there
      | other held other =>
        cases held.symm.trans there
        cases other
      | nameless held aliased named => exact .nameless (within.kept _ _ held) aliased named

theorem Within.underlying_eq (valid : world.symbols.ValidIn world)
    (within : world.symbols.Within after) (own : type.ValidIn world) :
    after.underlying type = world.symbols.underlying type := by
  cases type with
  | custom name decl =>
    obtain ⟨declared, held, -⟩ := own
    exact within.rootType_eq valid ⟨declared, held⟩ name
  | _ => rfl

theorem Within.memberBase_eq (valid : world.symbols.ValidIn world)
    (within : world.symbols.Within after) (own : type.ValidIn world) :
    after.memberBase type = world.symbols.memberBase type := by
  rw [SymbolTable.memberBase, SymbolTable.memberBase, within.underlying_eq valid own]
  cases reached : world.symbols.underlying type with
  | error err => rfl
  | ok base =>
    have inside := valid.underlying own reached
    cases base with
    | pointer pointee => exact within.underlying_eq valid inside
    | _ => rfl

end Roots

end PackageCheck.SymbolTable
