import PackageCheck.Scope
import PackageCheck.Validation

/-! # Symbols with other numbers

Symbols hold numbers of statements: that of the statement with the initial value of a variable, and
that of the loop behind a label. A table under a renumbering has the same symbols but for these
numbers, and no question that is asked of a table is answered in another way. -/

namespace PackageCheck

variable (move : StmtId → StmtId)

/-- A symbol under a renumbering of the statements. -/
def Symbol.renumber : Symbol → Symbol
  | .var v => .var { v with init := v.init.map move }
  | .label l => .label { l with loop := l.loop.map move }
  | symbol => symbol

namespace Symbol

@[simp]
theorem name_renumber (symbol : Symbol) : (symbol.renumber move).name = symbol.name := by
  cases symbol <;> rfl

@[simp]
theorem site?_renumber (symbol : Symbol) : (symbol.renumber move).site? = symbol.site? := by
  cases symbol <;> rfl

@[simp]
theorem type?_renumber (symbol : Symbol) : (symbol.renumber move).type? = symbol.type? := by
  cases symbol <;> rfl

@[simp]
theorem render_renumber (symbol : Symbol) : (symbol.renumber move).render = symbol.render := by
  cases symbol <;> rfl

end Symbol

namespace SymbolTable

/-- A table under a renumbering of the statements. -/
def renumber (table : SymbolTable) : SymbolTable :=
  { table with declared := table.declared.map (Symbol.renumber move) }

@[simp]
theorem renumber_empty : SymbolTable.empty.renumber move = .empty := by
  simp [empty, renumber]

variable (table : SymbolTable)

@[simp]
theorem size_renumber : (table.renumber move).declared.size = table.declared.size :=
  Array.size_map

@[simp]
theorem nextId_renumber : (table.renumber move).nextId = table.nextId := by
  rw [nextId, nextId, size_renumber]

/-- No predeclared symbol holds a number. -/
theorem get?_renumber (id : SymbolId) :
    (table.renumber move).get? id = (table.get? id).map (Symbol.renumber move) := by
  cases id with
  | builtin index =>
    have fixed : ∀ symbol ∈ Prelude.symbols, symbol.renumber move = symbol := by
      intro symbol member
      rcases List.mem_append.mp member with type | function
      · obtain ⟨simple, -, rfl⟩ := List.mem_map.mp type
        rfl
      · obtain ⟨signature, -, rfl⟩ := List.mem_map.mp function
        rfl
    change Prelude.symbols[index]? = Prelude.symbols[index]?.map (Symbol.renumber move)
    cases found : Prelude.symbols[index]? with
    | none => rfl
    | some symbol => rw [Option.map_some, fixed symbol (List.mem_of_getElem? found)]
  | declared index => exact Array.getElem?_map

/-! ## Changes -/

theorem insert_renumber (symbol : Symbol) :
    (table.renumber move).insert (symbol.renumber move) = (table.insert symbol).renumber move := by
  simp only [insert, renumber, Array.map_push]

theorem markFailed_renumber (id : SymbolId) :
    (table.renumber move).markFailed id = (table.markFailed id).renumber move := by
  unfold markFailed
  change (if id ∈ table.failed then _ else _) = _
  split <;> rfl

theorem setAliased_renumber (id : SymbolId) (target : Ty) :
    (table.renumber move).setAliased id target = (table.setAliased id target).renumber move := by
  unfold setAliased
  rw [get?_renumber]
  cases table.get? id with
  | none => rfl
  | some symbol =>
    cases symbol with
    | type decl =>
      cases id with
      | builtin index => rfl
      | declared index =>
        simp only [Option.map_some, Symbol.renumber, set?, size_renumber]
        split
        · simp only [renumber, Array.map_setIfInBounds, Option.getD_some, Symbol.renumber]
        · rfl
    | _ => rfl

/-! ## Questions -/

@[simp]
theorem declaredType?_renumber (id : SymbolId) :
    (table.renumber move).declaredType? id = table.declaredType? id := by
  unfold declaredType?
  rw [get?_renumber]
  cases table.get? id with
  | none => rfl
  | some symbol => cases symbol <;> rfl

theorem follow_renumber (id : SymbolId) : (table.renumber move).follow id = table.follow id := by
  unfold follow
  rw [get?_renumber]
  cases table.get? id with
  | none => rfl
  | some symbol => cases symbol <;> rfl

@[simp]
theorem rootType_renumber (name : String) (decl : SymbolId) :
    (table.renumber move).rootType name decl = table.rootType name decl := by
  have steps : ∀ (count : Nat) (id : SymbolId),
      (table.renumber move).followSteps name count id = table.followSteps name count id := by
    intro count
    induction count with
    | zero => exact fun _ => rfl
    | succ count hypothesis =>
      intro id
      simp only [followSteps, follow_renumber, hypothesis]
  rw [rootType, rootType, size_renumber, steps]

@[simp]
theorem underlying_renumber (type : Ty) :
    (table.renumber move).underlying type = table.underlying type := by
  cases type with
  | custom name decl => exact table.rootType_renumber move name decl
  | _ => rfl

@[simp]
theorem memberBase_renumber (type : Ty) :
    (table.renumber move).memberBase type = table.memberBase type := by
  simp only [memberBase, underlying_renumber]

@[simp]
theorem findType?_renumber (scopes : ScopeStack) (name : String) :
    scopes.findType? (table.renumber move) name = scopes.findType? table name := by
  have isType : ∀ id, (((table.renumber move).get? id).bind (·.type?)).isSome =
      ((table.get? id).bind (·.type?)).isSome := by
    intro id
    rw [get?_renumber]
    cases table.get? id <;> simp
  simp only [ScopeStack.findType?, isType]

/-- Validation reads no numbers. -/
theorem leftOver_renumber : (table.renumber move).leftOver = table.leftOver := by
  have entries : (table.renumber move).entries =
      table.entries.map fun entry => (entry.1, entry.2.renumber move) := by
    apply List.ext_getElem?
    intro index
    simp [SymbolTable.entries, renumber, Function.comp_def]
  rw [leftOver, leftOver, entries, List.filterMap_map]
  refine congrArg (List.filterMap · table.entries) (funext fun entry => ?_)
  obtain ⟨id, symbol⟩ := entry
  cases symbol <;> rfl

end SymbolTable

end PackageCheck
