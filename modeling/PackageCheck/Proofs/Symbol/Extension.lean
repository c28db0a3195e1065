import PackageCheck.Typing.Growth

/-! # Extended tables

What a table says about types a table that holds more says as well: the type that a declaration
introduces, and the types behind it. -/

namespace PackageCheck.SymbolTable

variable {before after : SymbolTable} {id : SymbolId} {name : String} {type root : Ty}

theorem Within.declaredType? (within : before.Within after)
    (declared : before.declaredType? id = some type) : after.declaredType? id = some type := by
  cases found : before.get? id with
  | none => simp [SymbolTable.declaredType?, found] at declared
  | some symbol =>
    simp only [SymbolTable.declaredType?, found, within.kept id symbol found] at declared ⊢
    exact declared

theorem Within.follow {next : Ty ⊕ SymbolId} (within : before.Within after)
    (followed : before.follow id = .ok next) : after.follow id = .ok next := by
  cases found : before.get? id with
  | none => simp [SymbolTable.follow, found] at followed
  | some symbol =>
    simp only [SymbolTable.follow, found, within.kept id symbol found] at followed ⊢
    exact followed

/-- More symbols lead on from a declaration in the same way, in as many steps at most. -/
theorem Within.followSteps (within : before.Within after) : ∀ {steps more : Nat}
    {id : SymbolId}, before.followSteps name steps id = .ok root → steps ≤ more →
      after.followSteps name more id = .ok root
  | 0, _, _, reached, _ => by cases reached
  | steps + 1, 0, _, _, few => by omega
  | steps + 1, more + 1, id, reached, enough => by
    rw [SymbolTable.followSteps] at reached ⊢
    cases followed : before.follow id with
    | error err =>
      rw [followed] at reached
      cases reached
    | ok next =>
      rw [followed] at reached
      rw [within.follow followed]
      cases next with
      | inl type => exact reached
      | inr next => exact within.followSteps reached (by omega)

theorem Within.rootType (within : before.Within after)
    (reached : before.rootType name id = .ok root) : after.rootType name id = .ok root :=
  within.followSteps reached (Nat.succ_le_succ within.size)

theorem Within.underlying (within : before.Within after)
    (found : before.underlying type = .ok root) : after.underlying type = .ok root := by
  cases type with
  | custom name decl => exact within.rootType found
  | _ => exact found

theorem Within.memberBase (within : before.Within after)
    (found : before.memberBase type = .ok root) : after.memberBase type = .ok root := by
  cases reached : before.underlying type with
  | error err => simp [SymbolTable.memberBase, reached, bind, Except.bind] at found
  | ok base =>
    simp only [SymbolTable.memberBase, reached, within.underlying reached, bind,
      Except.bind] at found ⊢
    cases base with
    | pointer pointee => exact within.underlying found
    | _ => exact found

/-- A symbol of a table with one more symbol is that one, or one from before. -/
theorem get?_insert_inv {table : SymbolTable} {symbol held : Symbol}
    (found : (table.insert symbol).get? id = some held) :
    table.get? id = some held ∨ (id = table.nextId ∧ held = symbol) := by
  by_cases new : id = table.nextId
  · subst new
    rw [get?_insert_nextId] at found
    exact Or.inr ⟨rfl, (Option.some.inj found).symm⟩
  · rw [get?_insert_of_ne symbol new] at found
    exact Or.inl found

end PackageCheck.SymbolTable
