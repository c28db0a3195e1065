import PackageCheck.Proofs.Symbol.Extension
import PackageCheck.Proofs.Tree.Finding
import PackageCheck.Proofs.Ty.Merge

/-! # What handles lead to

A handle is a number. It is valid in a world, a table of symbols and a set of statements, if there
is something with that number in the world, of the kind and the name that is meant where the handle
stands. Handles stand in the findings of a tree, in symbols and in types. -/

namespace PackageCheck

/-- The symbols and the statements that handles may lead to. -/
structure World where
  symbols : SymbolTable
  IsStmt : StmtId → Prop
  IsLoop : StmtId → Prop

namespace World

variable (world : World)

/-- Whether a handle leads to a variable of a name. -/
def HasVar (id : SymbolId) (name : String) : Prop :=
  ∃ v, world.symbols.get? id = some (.var v) ∧ v.name = name

/-- Whether a handle leads to a declared type of a name. -/
def HasType (id : SymbolId) (name : String) : Prop :=
  ∃ decl, world.symbols.get? id = some (.type decl) ∧ decl.name = name

/-- Whether a handle leads to a label of a name. -/
def HasLabel (id : SymbolId) (name : String) : Prop :=
  ∃ label, world.symbols.get? id = some (.label label) ∧ label.name = name

/-- Whether a handle leads to a symbol of the kind and the name of another one. -/
def Has (id : SymbolId) : Symbol → Prop
  | .var v => world.HasVar id v.name
  | .type decl => world.HasType id decl.name
  | .label label => world.HasLabel id label.name
  | .package _ => True

/-- Whether a handle leads to what a name in a scope can stand for. -/
def HasNamed (id : SymbolId) (name : String) : Prop :=
  world.HasVar id name ∨ world.HasType id name

end World

/-! ## Validity -/

mutual

/-- Whether the declarations in a type are declarations of types of the names they stand under. -/
def Ty.ValidIn (world : World) : Ty → Prop
  | .simple _ | .unknown => True
  | .array _ of | .slice of => of.ValidIn world
  | .map key value => key.ValidIn world ∧ value.ValidIn world
  | .pointer pointee => pointee.ValidIn world
  | .tuple members => Ty.AllValidIn world members
  | .struct layout => layout.ValidIn world
  | .func signature => signature.ValidIn world
  | .custom name decl => world.HasType decl name

/-- Whether the types of a list are valid. -/
def Ty.AllValidIn (world : World) : List Ty → Prop
  | [] => True
  | type :: rest => type.ValidIn world ∧ Ty.AllValidIn world rest

/-- Whether the types in a signature are valid. -/
def Signature.ValidIn (world : World) : Signature → Prop
  | ⟨args, results⟩ => Ty.AllValidIn world args ∧ Ty.AllValidIn world results

/-- Whether the types of fields and methods are valid. -/
def StructTy.ValidIn (world : World) : StructTy → Prop
  | ⟨_, fields, methods⟩ => FieldTy.AllValidIn world fields ∧ MethodTy.AllValidIn world methods

/-- Whether the types of fields are valid. -/
def FieldTy.AllValidIn (world : World) : List FieldTy → Prop
  | [] => True
  | ⟨_, type⟩ :: rest => type.ValidIn world ∧ FieldTy.AllValidIn world rest

/-- Whether the types of methods are valid. -/
def MethodTy.AllValidIn (world : World) : List MethodTy → Prop
  | [] => True
  | ⟨_, signature⟩ :: rest => signature.ValidIn world ∧ MethodTy.AllValidIn world rest

end

/-- Whether the handles in a symbol are valid. -/
def Symbol.ValidIn (world : World) : Symbol → Prop
  | .var v => v.type.ValidIn world ∧ ∀ id, v.init = some id → world.IsStmt id
  | .type decl => ∀ target, decl.aliased = some target → target.ValidIn world
  | .label leaf => ∀ id, leaf.loop = some id → world.IsLoop id
  | .package _ => True

/-- Whether the handles in a finding are valid. -/
def Finding.ValidIn (world : World) : Finding → Prop
  | .type found => found.ValidIn world
  | .ident leaf => ∀ id, leaf.symbol = some id → world.HasNamed id leaf.name
  | .param leaf =>
    ∀ id, leaf.symbol = some id → ∃ name, leaf.name = some name ∧ world.HasVar id name
  | .variable name symbol => ∀ id, symbol = some id → world.HasVar id name
  | .typeDecl name symbol => ∀ id, symbol = some id → world.HasType id name
  | .labels entries => ∀ name id, entries.find? name = some id → world.HasLabel id name
  | .label leaf => ∀ id, leaf.symbol = some id → world.HasLabel id leaf.name
  | .jump leaf =>
    (∀ id, leaf.labelSymbol = some id → ∃ name, leaf.label = some name ∧ world.HasLabel id name) ∧
      ∀ id, leaf.target = some id → world.IsLoop id
  | .stmt id isLoop => world.IsStmt id ∧ (isLoop = true → world.IsLoop id)

/-- Whether all of some findings are valid. -/
def World.Allows (world : World) (findings : List Finding) : Prop :=
  ∀ finding ∈ findings, finding.ValidIn world

/-- Whether the findings in one variable are valid. -/
def World.AllowsVar (world : World) (decl : VarDecl) : Prop :=
  (Finding.variable decl.name decl.symbol).ValidIn world ∧
    world.Allows (Expr.findingsOption decl.value)

namespace World

variable {world : World} {findings others : List Finding} {finding : Finding}

theorem allows_nil : world.Allows [] := nofun

theorem allows_cons :
    world.Allows (finding :: findings) ↔
      finding.ValidIn world ∧ world.Allows findings := by
  simp [Allows]

theorem allows_append :
    world.Allows (findings ++ others) ↔ world.Allows findings ∧ world.Allows others := by
  simp [Allows, or_imp, forall_and]

theorem allows_map {items : List α} {f : α → Finding} :
    world.Allows (items.map f) ↔ ∀ item ∈ items, (f item).ValidIn world := by
  simp [Allows]

theorem allows_exprs {es : List Expr} :
    world.Allows (Expr.findingsList es) ↔ ∀ e ∈ es, world.Allows e.findings := by
  induction es with
  | nil => exact ⟨fun _ => nofun, fun _ => nofun⟩
  | cons e rest hypothesis =>
    rw [Expr.findingsList, allows_append, hypothesis, List.forall_mem_cons]

theorem allows_vars {decl : VarDecl} {rest : List VarDecl} :
    world.Allows (VarDecl.findingsList (decl :: rest)) ↔
      world.AllowsVar decl ∧ world.Allows (VarDecl.findingsList rest) := by
  obtain ⟨name, position, spec, value, symbol⟩ := decl
  rw [VarDecl.findingsList, allows_cons, allows_append, ← and_assoc]
  rfl

theorem allows_branches {branch : Branch} {rest : List Branch} :
    world.Allows (Branch.findingsList (branch :: rest)) ↔
      world.Allows (Branch.findingsList [branch]) ∧
        world.Allows (Branch.findingsList rest) := by
  obtain ⟨header, condition, body⟩ := branch
  simp only [Branch.findingsList, allows_append, List.append_nil, and_assoc]

/-- A statement without a label. -/
theorem allows_form {id : StmtId} {position : Position} {form : StmtForm} :
    world.Allows (Stmt.findings ⟨id, position, none, form⟩) ↔
      (Finding.stmt id (Stmt.isLoop ⟨id, position, none, form⟩)).ValidIn world ∧
        world.Allows form.findings := by
  rw [Stmt.findings, allows_cons, Option.toList_none, List.map_nil, List.nil_append]

/-- A statement with another label. -/
theorem allows_relabel {s : Stmt} {label : Option StmtLabel} (allowed : world.Allows s.findings)
    (own : ∀ leaf, label = some leaf → (Finding.label leaf).ValidIn world) :
    world.Allows (Stmt.findings { s with label := label }) := by
  obtain ⟨id, position, old, form⟩ := s
  have ⟨number, behind⟩ := allows_cons.mp allowed
  refine allows_cons.mpr ⟨number, allows_append.mpr ⟨?_, (allows_append.mp behind).2⟩⟩
  exact allows_map.mpr fun leaf member => own leaf (Option.mem_toList.mp member)

/-- What was written is valid, as far as it holds no handles of statements. -/
theorem allows_erase (listed : ∀ id isLoop, Finding.stmt id isLoop ∈ findings →
    world.IsStmt id ∧ (isLoop = true → world.IsLoop id)) :
    world.Allows (findings.map (Finding.erase id)) := by
  intro finding member
  obtain ⟨held, inside, rfl⟩ := List.mem_map.mp member
  cases held with
  | type => trivial
  | stmt id isLoop => exact listed id isLoop inside
  | jump leaf => exact ⟨nofun, nofun⟩
  | labels => exact nofun
  | _ => exact nofun

end World

/-! ## Symbols of a table -/

/-- Whether the symbols of a table are in a world, each with its kind and its name. -/
def SymbolTable.KeptIn (table : SymbolTable) (world : World) : Prop :=
  ∀ id symbol, table.get? id = some symbol → world.Has id symbol

namespace SymbolTable

variable {world : World} {before after table : SymbolTable} {id : SymbolId} {symbol : Symbol}

/-- The symbols of the world itself. -/
theorem keptIn_symbols (world : World) : world.symbols.KeptIn world := by
  intro id symbol held
  cases symbol with
  | var v => exact ⟨v, held, rfl⟩
  | type decl => exact ⟨decl, held, rfl⟩
  | label label => exact ⟨label, held, rfl⟩
  | package name => exact True.intro

theorem KeptIn.of_within (kept : after.KeptIn world) (within : before.Within after) :
    before.KeptIn world :=
  fun id symbol held => kept id symbol (within.kept id symbol held)

theorem KeptIn.of_markIfFailed {s : Typing.State} {result : Except Diagnostic α}
    (kept : (s.markIfFailed id result).symbols.KeptIn world) : s.symbols.KeptIn world :=
  kept.of_within (s.within_markIfFailed id result)

/-- A symbol of a table in which a type has got a target is that type, or one from before. -/
theorem get?_setAliased_inv {target : Ty} {other : SymbolId} {held : Symbol}
    (found : (table.setAliased id target).get? other = some held) :
    table.get? other = some held ∨ ∃ decl, table.get? other = some (.type decl) ∧
      held = .type { decl with aliased := some target } := by
  by_cases same : other = id
  · subst same
    cases before : table.get? other with
    | none => simp [setAliased, before] at found
    | some symbol =>
      cases symbol with
      | type decl =>
        cases other with
        | builtin index =>
          -- the types that are there from the beginning get no target
          refine Or.inl ?_
          rw [← before, ← found]
          simp [setAliased, before, set?]
        | declared index =>
          rw [get?_setAliased_self table target before] at found
          exact Or.inr ⟨decl, rfl, (Option.some.inj found).symm⟩
      | _ =>
        simp only [setAliased, before] at found
        exact Or.inl found
  · rw [get?_setAliased_of_ne table target same] at found
    exact Or.inl found

/-- A type is there before it gets a target. -/
theorem KeptIn.of_setAliased {target : Ty} (kept : (table.setAliased id target).KeptIn world) :
    table.KeptIn world := by
  intro other symbol held
  obtain ⟨symbol', held', -⟩ := Typing.State.get?_setAliased_name held target
  rcases get?_setAliased_inv held' with before | ⟨decl, before, rfl⟩
  · cases held.symm.trans before
    exact kept other symbol held'
  · cases held.symm.trans before
    have there : world.Has other (.type { decl with aliased := some target }) := kept other _ held'
    exact there

theorem KeptIn.hasNamed_typeId? {name : String} (kept : table.KeptIn world)
    (found : Prelude.typeId? name = some id) : world.HasNamed id name := by
  obtain ⟨index, place, rfl⟩ := Option.map_eq_some_iff.mp found
  obtain ⟨bound, same, _⟩ := List.findIdx?_eq_some_iff_getElem.mp place
  have held : table.get? (.builtin index) =
      some (.type { name := Simple.all[index].name, aliased := none }) := by
    simp [get?, Prelude.symbols, List.getElem?_append_left, bound]
  refine Or.inr ?_
  rw [← beq_iff_eq.mp same]
  exact kept _ _ held

end SymbolTable

/-! ## Types -/

theorem FieldTy.allValidIn_iff {world : World} {fields : List FieldTy} :
    FieldTy.AllValidIn world fields ↔ ∀ field ∈ fields, field.type.ValidIn world := by
  induction fields with
  | nil => simp [FieldTy.AllValidIn]
  | cons field rest hypothesis =>
    obtain ⟨name, type⟩ := field
    simp [FieldTy.AllValidIn, hypothesis]

theorem MethodTy.allValidIn_iff {world : World} {methods : List MethodTy} :
    MethodTy.AllValidIn world methods ↔ ∀ method ∈ methods, method.signature.ValidIn world := by
  induction methods with
  | nil => simp [MethodTy.AllValidIn]
  | cons method rest hypothesis =>
    obtain ⟨name, signature⟩ := method
    simp [MethodTy.AllValidIn, hypothesis]

theorem Signature.ValidIn.resultType {world : World} {signature : Signature}
    (valid : signature.ValidIn world) : signature.resultType.ValidIn world := by
  obtain ⟨args, results⟩ := signature
  simp only [Signature.ValidIn] at valid
  unfold Signature.resultType
  dsimp only
  split
  · exact valid.2.1
  · exact valid.2

namespace StructTy.ValidIn

variable {world : World} {layout : StructTy} {name : String}

theorem field? {type : Ty} (valid : layout.ValidIn world)
    (found : layout.field? name = some type) : type.ValidIn world := by
  obtain ⟨title, fields, methods⟩ := layout
  obtain ⟨field, first, rfl⟩ := Option.map_eq_some_iff.mp found
  exact FieldTy.allValidIn_iff.mp valid.1 field (List.mem_of_find?_eq_some first)

theorem method? {signature : Signature} (valid : layout.ValidIn world)
    (found : layout.method? name = some signature) : signature.ValidIn world := by
  obtain ⟨title, fields, methods⟩ := layout
  obtain ⟨method, first, rfl⟩ := Option.map_eq_some_iff.mp found
  exact MethodTy.allValidIn_iff.mp valid.2 method (List.mem_of_find?_eq_some first)

end StructTy.ValidIn

section Merge

variable {world : World}

mutual

/-- The common type of two types holds no other declarations than they do. -/
theorem Ty.Merged.validIn : ∀ {s t u : Ty}, Ty.Merged s t u → s.ValidIn world →
    t.ValidIn world → u.ValidIn world
  | _, _, _, .found type, _, found => found
  | _, _, _, .expected type, expected, _ => expected
  | _, _, _, .simple s, first, _ => first
  | _, _, _, .custom name name' decl, first, _ => first
  | _, _, _, .array size of, first, second => of.validIn first second
  | _, _, _, .slice of, first, second => of.validIn first second
  | _, _, _, .pointer pointee, first, second => pointee.validIn first second
  | _, _, _, .map key value, first, second =>
    ⟨key.validIn first.1 second.1, value.validIn first.2 second.2⟩
  | _, _, _, .tuple members, first, second => members.validIn first second
  | _, _, _, .func args results, first, second =>
    ⟨args.validIn first.1 second.1, results.validIn first.2 second.2⟩
  | _, _, _, .struct name name' methods methods' fields, first, second =>
    ⟨fields.validIn first.1 second.1, first.2⟩

theorem Ty.AllMerged.validIn : ∀ {ss ts us : List Ty}, Ty.AllMerged ss ts us →
    Ty.AllValidIn world ss → Ty.AllValidIn world ts → Ty.AllValidIn world us
  | _, _, _, .nil, _, _ => True.intro
  | _, _, _, .cons head tail, first, second =>
    ⟨head.validIn first.1 second.1, tail.validIn first.2 second.2⟩

theorem Ty.FieldsMerged.validIn : ∀ {fs gs hs : List FieldTy}, Ty.FieldsMerged fs gs hs →
    FieldTy.AllValidIn world fs → FieldTy.AllValidIn world gs → FieldTy.AllValidIn world hs
  | _, _, _, .nil, _, _ => True.intro
  | _, _, _, .cons name head tail, first, second =>
    ⟨head.validIn first.1 second.1, tail.validIn first.2 second.2⟩

end

theorem Ty.validIn_negotiate {expected found type : Ty} (own : expected.ValidIn world)
    (valid : found.ValidIn world) (agreed : expected.negotiate found = .ok type) :
    type.ValidIn world :=
  (Ty.merged_of_merge (Ty.merge_of_negotiate agreed)).validIn own valid

end Merge

/-! ## Types behind types -/

/-- Whether the symbols of a table hold valid handles. -/
def SymbolTable.ValidIn (table : SymbolTable) (world : World) : Prop :=
  ∀ id symbol, table.get? id = some symbol → symbol.ValidIn world

namespace SymbolTable

variable {world : World} {table : SymbolTable} {type root : Ty}

theorem KeptIn.validIn_declaredType? {id : SymbolId} (kept : table.KeptIn world)
    (declared : table.declaredType? id = some type) : type.ValidIn world := by
  unfold SymbolTable.declaredType? at declared
  split at declared
  · obtain ⟨simple, -, rfl⟩ := Option.map_eq_some_iff.mp declared
    trivial
  · rename_i held
    cases declared
    exact kept _ _ held
  · cases declared

theorem ValidIn.followSteps (valid : table.ValidIn world) {name : String} {steps : Nat}
    {id : SymbolId} (reached : table.followSteps name steps id = .ok root) :
    root.ValidIn world := by
  induction steps generalizing id with
  | zero => cases reached
  | succ steps hypothesis =>
    rw [SymbolTable.followSteps] at reached
    split at reached
    case h_1 target followed =>
      -- the walk ends here, at the target of a declared type or at a type without one
      cases reached
      unfold follow at followed
      split at followed
      · cases followed
      · rename_i name target site apart held
        cases followed
        exact valid _ _ held _ rfl
      · split at followed
        · cases followed
          trivial
        · cases followed
      · cases followed
    case h_2 => exact hypothesis reached
    case h_3 => cases reached

theorem ValidIn.underlying (valid : table.ValidIn world) (own : type.ValidIn world)
    (found : table.underlying type = .ok root) : root.ValidIn world := by
  cases type with
  | custom name decl => exact valid.followSteps found
  | _ =>
    cases found
    exact own

theorem ValidIn.memberBase (valid : table.ValidIn world) (own : type.ValidIn world)
    (found : table.memberBase type = .ok root) : root.ValidIn world := by
  obtain ⟨base, reached, found⟩ := Except.bind_eq_ok found
  have inside := valid.underlying own reached
  cases base with
  | pointer pointee =>
    have behind : pointee.ValidIn world := inside
    exact valid.underlying behind found
  | _ =>
    cases found
    exact inside

end SymbolTable

end PackageCheck
