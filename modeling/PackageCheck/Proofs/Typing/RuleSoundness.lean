import PackageCheck.Proofs.Typing.Outcome
import PackageCheck.Proofs.Typing.Rules

/-! # What single rules find out

What the checks of specifications, names, operators and layouts come to, in terms of the table at
the end of a run. None of them goes into the parts of a tree. -/

namespace PackageCheck.Typing

open Check

/-! ## Names in scope -/

namespace State

variable {s : State} {name : String} {id : SymbolId}

/-- The name of a simple type stands for the symbol of the type. -/
theorem get?_typeId? {table : SymbolTable} (found : Prelude.typeId? name = some id) :
    ∃ symbol, table.get? id = some symbol ∧ symbol.name = name := by
  obtain ⟨index, place, rfl⟩ := Option.map_eq_some_iff.mp found
  obtain ⟨bound, same, _⟩ := List.findIdx?_eq_some_iff_getElem.mp place
  refine ⟨.type { name := Simple.all[index].name, aliased := none }, ?_, beq_iff_eq.mp same⟩
  simp [SymbolTable.get?, Prelude.symbols, List.getElem?_append_left, bound]

theorem WellScoped.find? (named : s.WellScoped) (found : s.scopes.find? name = some id) :
    ∃ symbol, s.symbols.get? id = some symbol ∧ symbol.name = name := by
  rcases Option.or_eq_some_iff.mp found with inScope | ⟨_, simple⟩
  · obtain ⟨scope, member, held⟩ := List.exists_of_findSome?_eq_some inScope
    exact named scope member name id held
  · exact get?_typeId? simple

theorem WellScoped.findType? (named : s.WellScoped)
    (found : s.scopes.findType? s.symbols name = some id) :
    ∃ symbol, s.symbols.get? id = some symbol ∧ symbol.name = name := by
  rcases Option.or_eq_some_iff.mp found with inScope | ⟨_, simple⟩
  · obtain ⟨scope, member, held⟩ := List.exists_of_findSome?_eq_some inScope
    exact named scope member name id (Option.filter_eq_some_iff.mp held).1
  · exact get?_typeId? simple

end State

variable {table : SymbolTable} {ctx : Context}

/-! ## Specifications -/

theorem resolveName_denotes (name : String) (position : Position) :
    (resolveName ctx name position).run.Ensures table
      (Passing ((TypeSpec.named name position).Denotes table)) := by
  refine .attempt (.lift .state) fun s ⟨named, within⟩ => ?_
  split
  case h_1 id found =>
    obtain ⟨symbol, held, called⟩ := named.findType? found
    refine .attempt (.lift (.trivial _)) fun _ _ => ?_
    split
    case h_1 type declared =>
      exact .succeed ⟨id, symbol, within.kept id symbol held, called, within.declaredType? declared⟩
    case h_2 => exact .fail _
  case h_2 =>
    split
    · exact .fail _
    · exact .fail _

mutual

theorem resolve_denotes : ∀ spec : TypeSpec,
    (resolve ctx spec).run.Ensures table (Passing (spec.Denotes table))
  | .named name position => by
    rw [resolve]
    exact resolveName_denotes name position
  | .array size of => by
    rw [resolve]
    exact .attempt (resolve_denotes of) fun type denoted => .succeed ⟨type, rfl, denoted⟩
  | .slice of => by
    rw [resolve]
    exact .attempt (resolve_denotes of) fun type denoted => .succeed ⟨type, rfl, denoted⟩
  | .map key value => by
    rw [resolve]
    refine .attempt (resolve_denotes key) fun keyType denotedKey => ?_
    refine .attempt (resolve_denotes value) fun type denoted => ?_
    exact .succeed ⟨keyType, type, rfl, denotedKey, denoted⟩
  | .pointer pointee => by
    rw [resolve]
    exact .attempt (resolve_denotes pointee) fun type denoted => .succeed ⟨type, rfl, denoted⟩
  | .tuple members => by
    rw [resolve]
    exact .attempt (resolveList_denotes members) fun types denoted => .succeed ⟨types, rfl, denoted⟩
  | .func args results => by
    rw [resolve]
    refine .attempt (resolveList_denotes args) fun argTypes denotedArgs => ?_
    refine .attempt (resolveList_denotes results) fun types denoted => ?_
    exact .succeed ⟨argTypes, types, rfl, denotedArgs, denoted⟩
  | .blank => by
    rw [resolve]
    exact .succeed rfl

theorem resolveList_denotes : ∀ specs : List TypeSpec,
    (resolveList ctx specs).run.Ensures table (Passing (TypeSpec.DenoteAll table specs))
  | [] => by
    rw [resolveList]
    exact .succeed rfl
  | spec :: rest => by
    rw [resolveList]
    refine .attempt (resolve_denotes spec) fun type denoted => ?_
    refine .attempt (resolveList_denotes rest) fun types others => ?_
    exact .succeed ⟨type, types, rfl, denoted, others⟩

end

theorem signature_denotes (params results : List Param) :
    (signature ctx params results).run.Ensures table (Passing fun found =>
      TypeSpec.DenoteAll table (params.map (·.spec)) found.args ∧
        TypeSpec.DenoteAll table (results.map (·.spec)) found.results) := by
  refine .attempt (resolveList_denotes _) fun args denotedArgs => ?_
  refine .attempt (resolveList_denotes _) fun types denoted => ?_
  exact .succeed ⟨denotedArgs, denoted⟩

theorem funcType_denotes (func : Func) :
    (funcType ctx func).run.Ensures table (Passing fun found =>
      TypeSpec.DenoteAll table (func.params.map (·.spec)) found.2.args ∧
        TypeSpec.DenoteAll table (func.results.map (·.spec)) found.2.results) := by
  refine .attempt (Q := fun _ => True) ?_ fun receiver _ => ?_
  · exact Ensures.imp (.trivial _) fun _ _ _ _ => True.intro
  · exact .attempt (signature_denotes _ _) fun found denoted => .succeed denoted

/-! ## Identifiers -/

/-- A name with a type is bound to a variable of that type. -/
theorem inferIdent_binds (ident : Ident) (position : Position) :
    (inferIdent ctx ident position).EnsuresNode table (fun _ => True)
      fun ident found => table.Binds ident (· = found) := by
  refine Ensures.bind .state fun s ⟨named, within⟩ => ?_
  split
  case h_1 => exact Ensures.pure ⟨True.intro, nofun⟩
  case h_2 id found =>
    obtain ⟨symbol, held, called⟩ := named.find? found
    refine Ensures.bind (.trivial _) fun _ _ => Ensures.pure ⟨True.intro, fun type typed => ?_⟩
    rw [held] at typed
    cases symbol with
    | var var =>
      cases typed
      exact ⟨id, var, rfl, within.kept id _ held, called, rfl⟩
    | _ => cases typed

/-- A callee that is taken for a type stands for the target of the conversion. -/
theorem conversion?_converts (callee : Expr) :
    (conversion? ctx callee).run.Ensures table (Passing fun found =>
      ∀ target, found = some target →
        target.1.namesType table = true ∧ target.1.Converts table target.2) := by
  unfold conversion?
  split
  case h_1 spec same =>
    refine .attempt (resolve_denotes spec) fun type denoted => .succeed fun target found => ?_
    cases found
    simp only [Expr.namesType, Expr.Converts, same]
    exact ⟨trivial, trivial, denoted⟩
  case h_2 ident same =>
    refine .attempt (.lift .state) fun s ⟨named, within⟩ => ?_
    split
    · exact .succeed nofun
    case h_2 id _ =>
      refine .attempt (.lift (.trivial _)) fun _ _ => ?_
      split
      · exact .succeed nofun
      case h_2 type declared =>
        refine .succeed fun target found => ?_
        cases found
        have later := within.declaredType? declared
        refine ⟨?_, rfl, id, rfl, later⟩
        simp only [Expr.namesType, Ident.bind, Option.bind_some]
        unfold SymbolTable.declaredType? at later
        split at later
        all_goals simp_all [Symbol.type?]
  case h_3 => exact .succeed nofun

/-! ## Operators -/

theorem underlying_root (type : Ty) (position : Position) :
    (underlying ctx type position).run.Ensures table
      (Passing fun root => table.underlying type = .ok root) := by
  refine .attempt (.lift .state) fun s ⟨_, within⟩ => ?_
  split
  case h_1 root found => exact .succeed (within.underlying found)
  case h_2 => exact .fail _

theorem checkOperand_arithmetic (op : String) (allowString : Bool) (type : Ty)
    (position : Position) : (checkOperand ctx op allowString type position).run.Ensures table
      (Passing fun _ => table.IsArithmetic (allowString = true) type) := by
  refine .attempt (underlying_root _ _) fun root found => ?_
  split
  case isTrue => exact .fail _
  case isFalse allowed =>
    refine .succeed ?_
    cases root with
    | simple simple =>
      refine ⟨simple, found, ?_⟩
      cases simple <;> simp_all [isArithmetic]
    | _ => simp [isArithmetic] at allowed

theorem binaryType_arithmetic (op : BinaryOp) (operand : Ty) (position : Position) :
    (binaryType ctx op operand position).run.Ensures table (Passing fun found =>
      if op.isComparison then found = .bool
      else found = operand ∧ table.IsArithmetic (op = .add) operand) := by
  unfold binaryType
  split
  · exact .succeed rfl
  · refine .attempt (checkOperand_arithmetic _ _ _ _) fun _ arithmetic => .succeed ⟨rfl, ?_⟩
    simpa using arithmetic

theorem signType_arithmetic (op : UnaryOp) (operand : Ty) (position : Position) :
    (signType ctx op operand position).run.Ensures table (Passing fun found =>
      found = operand ∧ table.IsArithmetic False operand) := by
  refine .attempt (checkOperand_arithmetic _ _ _ _) fun _ arithmetic => .succeed ⟨rfl, ?_⟩
  simpa using arithmetic

theorem derefType_pointer (operand : Ty) (position : Position) :
    (derefType ctx operand position).run.Ensures table (Passing fun found =>
      table.underlying operand = .ok (.pointer found)) := by
  refine .attempt (underlying_root _ _) fun root found => ?_
  split
  · exact .succeed found
  · exact .fail _

theorem indexTypes_indexed (left : Ty) (position : Position) :
    (indexTypes ctx left position).run.Ensures table (Passing fun found =>
      table.IsIndexed left found.1 found.2) := by
  refine .attempt (underlying_root _ _) fun root found => ?_
  split
  · exact .succeed ⟨_, found, rfl, rfl⟩
  · exact .succeed ⟨_, found, rfl, rfl⟩
  · exact .succeed ⟨_, found, rfl, rfl⟩
  · exact .succeed ⟨_, found, rfl, rfl⟩
  · exact .fail _

theorem selectorType_member (left : Ty) (member : String) (position : Position) :
    (selectorType ctx left member position).run.Ensures table (Passing fun found =>
      ∃ base, table.memberBase left = .ok base ∧ memberType? base member = some found) := by
  have reached : (memberBase ctx left position).run.Ensures table
      (Passing fun base => table.memberBase left = .ok base) := by
    refine .attempt (.lift .state) fun s ⟨_, within⟩ => ?_
    split
    case h_1 base found => exact .succeed (within.memberBase found)
    case h_2 => exact .fail _
  refine .attempt reached fun base found => ?_
  split
  case h_1 type typed => exact .succeed ⟨base, found, typed⟩
  case h_2 => exact .fail _

theorem callSignature_func (callee : Ty) (count : Nat) (position : Position) :
    (callSignature ctx callee count position).run.Ensures table (Passing fun found =>
      table.underlying callee = .ok (.func found) ∧ found.args.length = count) := by
  refine .attempt (underlying_root _ _) fun root found => ?_
  split
  · split
    case isTrue same => exact .succeed ⟨found, same⟩
    case isFalse => exact .fail _
  · exact .fail _

/-! ## Agreement -/

/-- Whether an expression has taken a type that its rule yields. -/
def Found (table : SymbolTable) (e : Expr) (found : Ty) : Prop :=
  e.type = found ∧ (e.isBlank = true ∨ e.form.Yields table found)

/-- Whether an expression has taken a type that refines the expected one. -/
def Met (table : SymbolTable) (expected : Ty) (e : Expr) (type : Ty) : Prop :=
  expected.refinedBy type = true ∧ (e.isBlank = true ∨ (e.type = type ∧ e.Sound table))

theorem Found.justified {e : Expr} {found : Ty} (holds : Found table e found) :
    e.Justified table := by
  rcases holds with ⟨same, blank | yields⟩
  · exact Or.inl blank
  · exact Or.inr (Or.inr ⟨found, yields, by rw [same]; exact Ty.refinedBy_refl found⟩)

theorem Met.ofType {expected type : Ty} {e : Expr} (met : Met table expected e type) :
    e.OfType (expected.refinedBy · = true) := by
  obtain ⟨refined, blank | ⟨same, _⟩⟩ := met
  · exact Or.inl blank
  · exact Or.inr (same ▸ refined)

theorem Met.type {expected type : Ty} {e : Expr} (met : Met table expected e type) :
    e.OfType (· = type) :=
  Or.imp_right (·.1) met.2

/-- A bare name that has met the type of a key is a key. -/
theorem Met.isKey {expected type : Ty} {key : Expr} (met : Met table expected key type) :
    key.IsKey table expected := by
  refine ⟨met.ofType, fun ident named => ?_⟩
  obtain ⟨position, form, keyType⟩ := key
  cases form with
  | ident ident' =>
    cases named
    rcases met.2 with blank | ⟨_, found, ⟨id, var, bound, held, called, rfl⟩, refined⟩
    · cases blank
    · exact ⟨id, var, bound, held, called, refined⟩
  | _ => cases named

/-! ## Composite literals -/

/-- The type of a literal is known, and it is the one that is written there, if there is one. -/
theorem compoundType_denotes (spec : Option TypeSpec) (hint : Ty) (position : Position) :
    (compoundType ctx spec hint position).run.Ensures table (Passing fun found =>
      found.known = true ∧ ∀ s, spec = some s → s.Denotes table found) := by
  have resolved : (resolveOr ctx hint spec).run.Ensures table
      (Passing fun found => ∀ s, spec = some s → s.Denotes table found) := by
    cases spec with
    | none => exact .succeed nofun
    | some spec =>
      refine Ensures.imp (resolve_denotes spec) fun result denoted found passed s same => ?_
      cases same
      exact denoted found passed
  refine .attempt resolved fun type denoted => ?_
  split
  case isTrue known => exact .succeed ⟨known, denoted⟩
  case isFalse => exact .fail _

/-- Whether elements are what a layout wants them to be. -/
def Layout.Fits (table : SymbolTable) (elements : List Element) : Layout → Prop
  | .array _ of _ | .slice of =>
    ∀ element ∈ elements, element.value.OfType (of.refinedBy · = true) ∧
      ∀ key, element.key = some key → key.IsKey table .int
  | .map keyType of =>
    ∀ element ∈ elements, element.value.OfType (of.refinedBy · = true) ∧
      ∃ key, element.key = some key ∧ key.IsKey table keyType
  | .positional fields =>
    List.Forall₂ (fun element (field : FieldTy) =>
      element.value.OfType (field.type.refinedBy · = true)) elements (fields.take elements.length)
  | .keyed layout =>
    ∀ element ∈ elements, ∃ key ident type, element.key = some key ∧ key.ident? = some ident ∧
      layout.field? ident.name = some type ∧ element.value.OfType (type.refinedBy · = true)

/-- No elements fit any layout. -/
theorem Layout.fits_nil (layout : Layout) : layout.Fits table [] := by
  cases layout with
  | positional fields => exact List.Forall₂.nil
  | _ => exact nofun

/-- One more element fits if it is what the layout wants next, and those behind it fit what the
    layout wants afterwards. -/
theorem Layout.fits_cons {layout rest : Layout} {key : Option Expr} {value : Expr} {type : Ty}
    {elements : List Element} {position : Position}
    (next : layout.next ctx key position = .ok (type, rest))
    (keyed : ∀ keyType k, layout.keyType? = some keyType → key = some k → k.IsKey table keyType)
    (typed : value.OfType (type.refinedBy · = true)) (fits : rest.Fits table elements) :
    layout.Fits table (⟨key, value⟩ :: elements) := by
  cases layout with
  | array size of index =>
    simp only [Layout.next] at next
    split at next
    · cases next
      exact List.forall_mem_cons.mpr ⟨⟨typed, fun k same => keyed .int k rfl same⟩, fits⟩
    · cases next
  | slice of =>
    cases next
    exact List.forall_mem_cons.mpr ⟨⟨typed, fun k same => keyed .int k rfl same⟩, fits⟩
  | map keyType of =>
    cases key with
    | none => cases next
    | some k =>
      cases next
      exact List.forall_mem_cons.mpr ⟨⟨typed, k, rfl, keyed _ k rfl rfl⟩, fits⟩
  | positional fields =>
    cases fields with
    | nil => cases next
    | cons field fields =>
      cases next
      exact List.Forall₂.cons typed fits
  | keyed layout =>
    simp only [Layout.next] at next
    split at next
    · cases next
    case h_2 k =>
      split at next
      · cases next
      case h_2 ident named =>
        split at next
        · cases next
        case h_2 type' field =>
          cases next
          exact List.forall_mem_cons.mpr ⟨⟨k, ident, _, rfl, named, field, typed⟩, fits⟩

/-- Whether the keys of a literal are values is the same for all its elements. -/
theorem Layout.keyType?_next {layout rest : Layout} {key : Option Expr} {type : Ty}
    {position : Position} (next : layout.next ctx key position = .ok (type, rest)) :
    rest.keyType? = layout.keyType? := by
  cases layout with
  | array size of index =>
    simp only [Layout.next] at next
    split at next
    all_goals cases next
    rfl
  | slice of =>
    cases next
    rfl
  | map keyType of =>
    cases key
    all_goals cases next
    rfl
  | positional fields =>
    cases fields
    all_goals cases next
    rfl
  | keyed layout =>
    simp only [Layout.next] at next
    split at next
    · cases next
    · split at next
      · cases next
      · split at next
        all_goals cases next
        rfl

/-- The layout of a struct literal says what the struct wants. -/
theorem structLayout_laysOut {layout : StructTy} {elements elements' : List Element}
    {position : Position} {found : Layout}
    (laid : structLayout ctx layout elements position = .ok found)
    (keys : elements'.map (·.key.isSome) = elements.map (·.key.isSome))
    (fits : found.Fits table elements') :
    (Ty.struct layout).LaysOut table found.shape elements' := by
  simp only [structLayout] at laid
  split at laid
  case isTrue none =>
    split at laid
    case isTrue same =>
      cases laid
      have length : elements'.length = layout.fields.length := by
        rw [← same, ← List.length_map (f := (·.key.isSome)), keys, List.length_map]
      have absent : ∀ keyed ∈ elements.map (·.key.isSome), keyed = false := by
        intro keyed member
        obtain ⟨element, within, rfl⟩ := List.mem_map.mp member
        have empty := List.filter_eq_nil_iff.mp (List.eq_nil_of_length_eq_zero none) element within
        simpa using empty
      have bare : ∀ element ∈ elements', element.key = Option.none := by
        intro element member
        have keyed : element.key.isSome = false :=
          absent _ (keys ▸ List.mem_map_of_mem member)
        simpa using keyed
      refine Or.inl ⟨rfl, (List.forall₂_and_left _ _).mpr ⟨bare, ?_⟩⟩
      simpa [Layout.Fits, length] using fits
    case isFalse => cases laid
  case isFalse =>
    split at laid
    case isTrue =>
      cases laid
      exact Or.inr ⟨rfl, fits⟩
    case isFalse => cases laid

/-- The layout of a literal says what its type wants. -/
theorem layoutOf_laysOut (type : Ty) (elements : List Element) (position : Position) :
    (layoutOf ctx type elements position).run.Ensures table (Passing fun layout =>
      ∃ root, table.underlying type = .ok root ∧
        (layout.keyType? = none → ∃ struct, root = .struct struct) ∧
          ∀ elements', elements'.map (·.key.isSome) = elements.map (·.key.isSome) →
            layout.Fits table elements' → root.LaysOut table layout.shape elements') := by
  refine .attempt (underlying_root _ _) fun root found => ?_
  split
  case h_1 => exact .succeed ⟨_, found, nofun, fun _ _ fits => ⟨rfl, fits⟩⟩
  case h_2 => exact .succeed ⟨_, found, nofun, fun _ _ fits => ⟨rfl, fits⟩⟩
  case h_3 => exact .succeed ⟨_, found, nofun, fun _ _ fits => ⟨rfl, fits⟩⟩
  case h_4 struct =>
    refine .ofExcept fun layout laid => ⟨_, found, fun _ => ⟨struct, rfl⟩, ?_⟩
    exact fun elements' keys fits => structLayout_laysOut laid keys fits
  case h_5 => exact .fail _

/-- A literal that is written with the type of a map, an array or a slice is no struct. -/
theorem hasValueKeys_root {spec : Option TypeSpec} {type root : Ty}
    (written : TypeSpec.hasValueKeys spec = true) (denoted : ∀ s, spec = some s → s.Denotes table type)
    (found : table.underlying type = .ok root) : ¬ ∃ struct, root = .struct struct := by
  rintro ⟨struct, rfl⟩
  cases spec with
  | none => cases written
  | some spec =>
    have denoted := denoted spec rfl
    cases spec with
    | map key value =>
      obtain ⟨_, _, rfl, _⟩ := denoted
      cases found
    | array size of =>
      obtain ⟨_, rfl, _⟩ := denoted
      cases found
    | slice of =>
      obtain ⟨_, rfl, _⟩ := denoted
      cases found
    | _ => cases written

end PackageCheck.Typing
