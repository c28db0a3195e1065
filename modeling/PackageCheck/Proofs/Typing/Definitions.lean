import PackageCheck.Proofs.Tree.TypeDecls
import PackageCheck.Proofs.Ty.Complete
import PackageCheck.Proofs.Typing.Quiet

/-! # What a quiet run defines

In a quiet run every declaration of a type is gone through and gets its definition, and no type is
declared that is not written. A definition is complete exactly if no blank is written in it.

The types of expressions and variables stay nominal on the way, since a struct stands nowhere but
in the definition of its name. -/

namespace PackageCheck

/-! ## Nominal tables -/

/-- Whether the type can stand behind a declared one: a nominal type, or a struct made of them. -/
def Ty.isDefinition : Ty → Bool
  | .struct ⟨_, fields, methods⟩ =>
    fields.all (·.type.nominal) && methods.all (·.signature.nominal)
  | type => type.nominal

theorem Ty.isDefinition_of_nominal {type : Ty} (nominal : type.nominal = true) :
    type.isDefinition = true := by
  cases type with
  | struct layout => cases nominal
  | _ => exact nominal

/-- Whether a variable has a nominal type, and a declared type a definition. -/
def Symbol.nominal : Symbol → Bool
  | .var v => v.type.nominal
  | .type decl => decl.aliased.all Ty.isDefinition
  | .label _ => true
  | .package _ => true

namespace SymbolTable

/-- Whether all types in the table are made of nominal ones. -/
def Nominal (table : SymbolTable) : Prop :=
  ∀ id symbol, table.get? id = some symbol → symbol.nominal = true

variable {table : SymbolTable}

theorem Nominal.empty : Nominal .empty := by
  intro id symbol held
  cases id with
  | builtin index =>
    have prelude : ∀ symbol ∈ Prelude.symbols, symbol.nominal = true := by decide
    exact prelude symbol (List.mem_of_getElem? held)
  | declared index => cases held

/-- A declared type is referred to by its name, so nothing is open in it. -/
theorem declaredType?_named {id : SymbolId} {type : Ty} (declared : table.declaredType? id = some type) :
    type.nominal = true ∧ type.complete = true := by
  unfold declaredType? at declared
  split at declared
  · obtain ⟨simple, -, rfl⟩ := Option.map_eq_some_iff.mp declared
    exact ⟨rfl, rfl⟩
  · cases declared
    exact ⟨rfl, rfl⟩
  · cases declared

theorem Nominal.followSteps (nominal : table.Nominal) {name : String} {root : Ty} :
    ∀ {steps : Nat} {id : SymbolId}, table.followSteps name steps id = .ok root →
      root.isDefinition = true
  | 0, _, reached => by cases reached
  | steps + 1, id, reached => by
    rw [SymbolTable.followSteps] at reached
    cases followed : table.follow id with
    | error err =>
      rw [followed] at reached
      cases reached
    | ok next =>
      rw [followed] at reached
      cases next with
      | inr next => exact nominal.followSteps reached
      | inl type =>
        cases reached
        unfold follow at followed
        split at followed
        case h_1 => cases followed
        case h_2 held =>
          cases followed
          exact nominal _ _ held
        case h_3 =>
          split at followed <;> cases followed
          rfl
        case h_4 => cases followed

theorem Nominal.underlying (nominal : table.Nominal) {type root : Ty} (named : type.nominal = true)
    (found : table.underlying type = .ok root) : root.isDefinition = true := by
  cases type with
  | custom name decl => exact nominal.followSteps found
  | _ =>
    cases found
    exact Ty.isDefinition_of_nominal named

theorem Nominal.memberBase (nominal : table.Nominal) {type base : Ty} (named : type.nominal = true)
    (found : table.memberBase type = .ok base) : base.isDefinition = true := by
  obtain ⟨root, first, found⟩ := Except.bind_eq_ok found
  have definition := nominal.underlying named first
  split at found
  case h_1 pointee =>
    have inside : pointee.nominal = true := definition
    exact nominal.underlying inside found
  case h_2 =>
    cases found
    exact definition

/-- A field or method of a declared struct has a nominal type. -/
theorem memberType?_nominal {base type : Ty} {member : String} (definition : base.isDefinition = true)
    (found : Typing.memberType? base member = some type) : type.nominal = true := by
  unfold Typing.memberType? at found
  split at found
  case h_1 layout =>
    obtain ⟨name, fields, methods⟩ := layout
    simp only [Ty.isDefinition, Bool.and_eq_true, List.all_eq_true] at definition
    rcases Option.or_eq_some_iff.mp found with field | ⟨-, method⟩
    · obtain ⟨held, listed, rfl⟩ := Option.map_eq_some_iff.mp field
      exact definition.1 held (List.mem_of_find?_eq_some listed)
    · obtain ⟨_, signature, rfl⟩ := Option.map_eq_some_iff.mp method
      obtain ⟨held, listed, rfl⟩ := Option.map_eq_some_iff.mp signature
      exact definition.2 held (List.mem_of_find?_eq_some listed)
  case h_2 => cases found

/-! ## Steps -/

/-- Whether a table holds what another one holds, and besides no types but those that are declared,
    with their definitions. -/
structure Advances (decls : List (String × Bool)) (before after : SymbolTable) : Prop where
  within : before.Within after
  nominal : after.Nominal
  declared : ∀ id decl, after.get? id = some (.type decl) →
    before.get? id = some (.type decl) ∨ (decl.name, decl.complete) ∈ decls
  defined : ∀ pair ∈ decls, ∃ id decl, after.get? id = some (.type decl) ∧
    (decl.name, decl.complete) = pair

namespace Advances

variable {before middle after : SymbolTable} {decls others : List (String × Bool)}

theorem refl (nominal : table.Nominal) : Advances [] table table where
  within := (Extends.refl table).toWithin
  nominal := nominal
  declared _ _ held := Or.inl held
  defined _ member := nomatch member

theorem trans (first : Advances decls before middle) (second : Advances others middle after) :
    Advances (decls ++ others) before after where
  within := first.within.trans second.within
  nominal := second.nominal
  declared id decl held := by
    rcases second.declared id decl held with held | new
    · rcases first.declared id decl held with held | new
      · exact Or.inl held
      · exact Or.inr (List.mem_append_left _ new)
    · exact Or.inr (List.mem_append_right _ new)
  defined pair member := by
    rcases List.mem_append.mp member with member | member
    · obtain ⟨id, decl, held, same⟩ := first.defined pair member
      exact ⟨id, decl, second.within.kept _ _ held, same⟩
    · exact second.defined pair member

/-- The order of the declarations does not matter. -/
theorem of_mem_iff (advances : Advances decls before after)
    (same : ∀ pair, pair ∈ decls ↔ pair ∈ others) : Advances others before after where
  within := advances.within
  nominal := advances.nominal
  declared id decl held := (advances.declared id decl held).imp (fun before => before) (same _).mp
  defined pair member := advances.defined pair ((same pair).mpr member)

theorem insert (nominal : table.Nominal) {symbol : Symbol} (named : symbol.nominal = true)
    (untyped : symbol.type? = none) : Advances [] table (table.insert symbol) where
  within := (extends_insert table symbol).toWithin
  nominal := by
    intro id held found
    rcases get?_insert_inv found with before | ⟨-, rfl⟩
    · exact nominal id held before
    · exact named
  declared id decl found := by
    rcases get?_insert_inv found with before | ⟨-, rfl⟩
    · exact Or.inl before
    · cases untyped
  defined _ member := nomatch member

/-- A type is declared without a target, and then gets its definition. -/
theorem define (nominal : table.Nominal) {name : String} {site : Option Site} {target : Ty}
    (definition : target.isDefinition = true) :
    Advances [(name, target.complete)] table
      ((table.insert (.type ⟨name, some .unknown, site⟩)).setAliased table.nextId target) := by
  have held : ((table.insert (.type ⟨name, some .unknown, site⟩)).setAliased table.nextId
      target).get? table.nextId = some (.type ⟨name, some target, site⟩) :=
    get?_setAliased_self _ target (get?_insert_nextId table _)
  have others : ∀ id symbol, id ≠ table.nextId →
      ((table.insert (.type ⟨name, some .unknown, site⟩)).setAliased table.nextId
        target).get? id = some symbol → table.get? id = some symbol := by
    intro id symbol other found
    rwa [get?_setAliased_of_ne _ _ other, get?_insert_of_ne _ other] at found
  constructor
  · exact ((extends_insert table _).setAliased table.get?_nextId target).toWithin
  · intro id symbol found
    by_cases new : id = table.nextId
    · subst new
      cases held.symm.trans found
      exact definition
    · exact nominal id symbol (others id symbol new found)
  · intro id decl found
    by_cases new : id = table.nextId
    · subst new
      cases held.symm.trans found
      exact Or.inr List.mem_cons_self
    · exact Or.inl (others id _ new found)
  · intro pair member
    obtain rfl := List.mem_singleton.mp member
    exact ⟨_, _, held, rfl⟩

end Advances

end SymbolTable

/-! ## Resolved types -/

namespace Typing

open SymbolTable (Advances)

open Check Check.Quiet

section Resolving

variable {ctx : Context}

mutual

/-- A resolved type is open where a blank is written. -/
theorem resolve_filled : ∀ {spec : TypeSpec} {s s' : State} {type : Ty},
    Succeeds (resolve ctx spec) s type s' →
      s'.symbols = s.symbols ∧ type.nominal = true ∧ type.complete = spec.filled
  | .named name position, s, s', type, quiet => by
    rw [resolve] at quiet
    obtain ⟨id, -, declared, rfl⟩ := resolveName_inv quiet
    exact ⟨rfl, SymbolTable.declaredType?_named declared⟩
  | .array size of, s, s', type, quiet => by
    rw [resolve] at quiet
    obtain ⟨of', s₁, resolved, rest⟩ := attempt_inv quiet
    obtain ⟨rfl, rfl⟩ := succeed_inv rest
    obtain ⟨same, nominal, filled⟩ := resolve_filled resolved
    exact ⟨same, nominal, filled⟩
  | .slice of, s, s', type, quiet => by
    rw [resolve] at quiet
    obtain ⟨of', s₁, resolved, rest⟩ := attempt_inv quiet
    obtain ⟨rfl, rfl⟩ := succeed_inv rest
    obtain ⟨same, nominal, filled⟩ := resolve_filled resolved
    exact ⟨same, nominal, filled⟩
  | .map key value, s, s', type, quiet => by
    rw [resolve] at quiet
    obtain ⟨key', s₁, resolved, rest⟩ := attempt_inv quiet
    obtain ⟨value', s₂, resolved', rest'⟩ := attempt_inv rest
    obtain ⟨rfl, rfl⟩ := succeed_inv rest'
    obtain ⟨same, nominal, filled⟩ := resolve_filled resolved
    obtain ⟨same', nominal', filled'⟩ := resolve_filled resolved'
    refine ⟨same'.trans same, ?_, ?_⟩
    · simp [Ty.nominal, nominal, nominal']
    · simp [Ty.complete, TypeSpec.filled, filled, filled']
  | .pointer pointee, s, s', type, quiet => by
    rw [resolve] at quiet
    obtain ⟨pointee', s₁, resolved, rest⟩ := attempt_inv quiet
    obtain ⟨rfl, rfl⟩ := succeed_inv rest
    obtain ⟨same, nominal, filled⟩ := resolve_filled resolved
    exact ⟨same, nominal, filled⟩
  | .tuple members, s, s', type, quiet => by
    rw [resolve] at quiet
    obtain ⟨members', s₁, resolved, rest⟩ := attempt_inv quiet
    obtain ⟨rfl, rfl⟩ := succeed_inv rest
    obtain ⟨same, nominal, filled, -⟩ := resolveList_filled resolved
    exact ⟨same, nominal, filled⟩
  | .func args results, s, s', type, quiet => by
    rw [resolve] at quiet
    obtain ⟨args', s₁, resolved, rest⟩ := attempt_inv quiet
    obtain ⟨results', s₂, resolved', rest'⟩ := attempt_inv rest
    obtain ⟨rfl, rfl⟩ := succeed_inv rest'
    obtain ⟨same, nominal, filled, -⟩ := resolveList_filled resolved
    obtain ⟨same', nominal', filled', -⟩ := resolveList_filled resolved'
    refine ⟨same'.trans same, ?_, ?_⟩
    · simp [Ty.nominal, Signature.nominal, nominal, nominal']
    · simp [Ty.complete, Signature.complete, TypeSpec.filled, filled, filled']
  | .blank, s, s', type, quiet => by
    rw [resolve] at quiet
    obtain ⟨rfl, rfl⟩ := succeed_inv quiet
    exact ⟨rfl, rfl, rfl⟩

theorem resolveList_filled : ∀ {specs : List TypeSpec} {s s' : State} {types : List Ty},
    Succeeds (resolveList ctx specs) s types s' →
      s'.symbols = s.symbols ∧ Ty.allNominal types = true ∧
        Ty.allComplete types = TypeSpec.allFilled specs ∧ types.length = specs.length
  | [], s, s', types, quiet => by
    rw [resolveList] at quiet
    obtain ⟨rfl, rfl⟩ := succeed_inv quiet
    exact ⟨rfl, rfl, rfl, rfl⟩
  | spec :: specs, s, s', types, quiet => by
    rw [resolveList] at quiet
    obtain ⟨type, s₁, resolved, rest⟩ := attempt_inv quiet
    obtain ⟨types', s₂, resolved', rest'⟩ := attempt_inv rest
    obtain ⟨rfl, rfl⟩ := succeed_inv rest'
    obtain ⟨same, nominal, filled⟩ := resolve_filled resolved
    obtain ⟨same', nominal', filled', length⟩ := resolveList_filled resolved'
    refine ⟨same'.trans same, ?_, ?_, congrArg (· + 1) length⟩
    · simp [Ty.allNominal, nominal, nominal']
    · simp [Ty.allComplete, TypeSpec.allFilled, filled, filled']

end

variable {s s' : State}

theorem resolveOr_nominal {absent type : Ty} {spec : Option TypeSpec} (nominal : absent.nominal = true)
    (quiet : Succeeds (resolveOr ctx absent spec) s type s') :
    s'.symbols = s.symbols ∧ type.nominal = true := by
  cases spec with
  | none =>
    obtain ⟨rfl, rfl⟩ := succeed_inv quiet
    exact ⟨rfl, nominal⟩
  | some spec =>
    obtain ⟨same, nominal, -⟩ := resolve_filled quiet
    exact ⟨same, nominal⟩

theorem receiverType_nominal {receiver : Option Param} {type : Option Ty}
    (quiet : Succeeds (receiverType ctx receiver) s type s') :
    s'.symbols = s.symbols ∧ ∀ t, type = some t → t.nominal = true := by
  cases receiver with
  | none =>
    obtain ⟨rfl, rfl⟩ := succeed_inv quiet
    exact ⟨rfl, nofun⟩
  | some param =>
    obtain ⟨found, s₁, resolved, rest⟩ := attempt_inv quiet
    obtain ⟨rfl, rfl⟩ := succeed_inv rest
    obtain ⟨same, nominal, -⟩ := resolve_filled resolved
    exact ⟨same, fun t found => Option.some.inj found ▸ nominal⟩

theorem signature_filled {params results : List Param} {found : Signature}
    (quiet : Succeeds (signature ctx params results) s found s') :
    s'.symbols = s.symbols ∧ found.nominal = true ∧ found.complete =
      (TypeSpec.allFilled (params.map (·.spec)) && TypeSpec.allFilled (results.map (·.spec))) := by
  obtain ⟨args, s₁, resolved, rest⟩ := attempt_inv quiet
  obtain ⟨results', s₂, resolved', rest'⟩ := attempt_inv rest
  obtain ⟨rfl, rfl⟩ := succeed_inv rest'
  obtain ⟨same, nominal, filled, -⟩ := resolveList_filled resolved
  obtain ⟨same', nominal', filled', -⟩ := resolveList_filled resolved'
  refine ⟨same'.trans same, ?_, ?_⟩
  · simp [Signature.nominal, nominal, nominal']
  · simp [Signature.complete, filled, filled']

theorem funcType_nominal {func : Func} {found : Option Ty × Signature}
    (quiet : Succeeds (funcType ctx func) s found s') :
    s'.symbols = s.symbols ∧ (∀ t, found.1 = some t → t.nominal = true) ∧
      found.2.nominal = true := by
  obtain ⟨receiver, s₁, resolved, rest⟩ := attempt_inv quiet
  obtain ⟨found', s₂, signed, rest'⟩ := attempt_inv rest
  obtain ⟨rfl, rfl⟩ := succeed_inv rest'
  obtain ⟨same, nominal⟩ := receiverType_nominal resolved
  obtain ⟨same', nominal', -⟩ := signature_filled signed
  exact ⟨same'.trans same, nominal, nominal'⟩

theorem fieldTypes_filled {fields : List FieldDecl} : ∀ {before found : List FieldTy} {s : State},
    Succeeds (fieldTypes ctx before fields) s found s' →
      s'.symbols = s.symbols ∧
        found.all (·.type.nominal) = before.all (·.type.nominal) ∧
          Ty.fieldsComplete found = (Ty.fieldsComplete before && fields.all (·.spec.filled)) := by
  induction fields with
  | nil =>
    intro before found s quiet
    obtain ⟨rfl, rfl⟩ := succeed_inv quiet
    simp
  | cons field fields ih =>
    intro before found s quiet
    rw [fieldTypes] at quiet
    split at quiet
    case isTrue =>
      obtain ⟨_, _, failed, -⟩ := attempt_inv quiet
      exact absurd failed not_fail
    case isFalse =>
      obtain ⟨type, s₁, resolved, rest⟩ := attempt_inv quiet
      obtain ⟨same, nominal, filled⟩ := resolve_filled resolved
      obtain ⟨same', nominals, filleds⟩ := ih rest
      refine ⟨same'.trans same, ?_, ?_⟩
      · simpa [nominal] using nominals
      · rw [filleds, Ty.fieldsComplete_append]
        simp [Ty.fieldsComplete, filled, Bool.and_assoc]

theorem methodTypes_filled {position : Position} {fields : List FieldTy} {methods : List Func} :
    ∀ {before found : List MethodTy} {s : State},
      Succeeds (methodTypes ctx position fields before methods) s found s' →
        s'.symbols = s.symbols ∧
          found.all (·.signature.nominal) = before.all (·.signature.nominal) ∧
            Ty.methodsComplete found = (Ty.methodsComplete before && methods.all Func.filled) ∧
              found.length = before.length + methods.length := by
  induction methods with
  | nil =>
    intro before found s quiet
    obtain ⟨rfl, rfl⟩ := succeed_inv quiet
    simp
  | cons method methods ih =>
    intro before found s quiet
    rw [methodTypes] at quiet
    dsimp only at quiet
    split at quiet
    case isTrue =>
      obtain ⟨_, _, failed, -⟩ := attempt_inv quiet
      exact absurd failed not_fail
    case isFalse =>
      obtain ⟨found', s₁, signed, rest⟩ := attempt_inv quiet
      obtain ⟨same, nominal, filled⟩ := signature_filled signed
      obtain ⟨same', nominals, filleds, length⟩ := ih rest
      refine ⟨same'.trans same, ?_, ?_, ?_⟩
      · simpa [nominal] using nominals
      · rw [filleds, Ty.methodsComplete_append]
        simp [Ty.methodsComplete, filled, Func.filled, Bool.and_assoc]
      · simpa [Nat.add_assoc, Nat.add_comm, Nat.add_left_comm] using length

/-- The definition of a struct is open where a blank is written. -/
theorem structTarget_filled {name : String} {position : Position} {fields : List FieldDecl}
    {methods : List Func} {found : Ty × List Signature}
    (symbol : Option SymbolId) (quiet : Succeeds (structTarget ctx name position fields methods) s found s') :
    s'.symbols = s.symbols ∧ found.1.isDefinition = true ∧
      found.1.complete = StructDecl.filled ⟨name, fields, methods, symbol⟩ ∧
        (∀ signature ∈ found.2, signature.nominal = true) ∧ found.2.length = methods.length := by
  obtain ⟨fields', s₁, fielded, rest⟩ := attempt_inv quiet
  obtain ⟨methods', s₂, methoded, rest'⟩ := attempt_inv rest
  obtain ⟨rfl, rfl⟩ := succeed_inv rest'
  obtain ⟨same, nominal, filled⟩ := fieldTypes_filled fielded
  obtain ⟨same', nominal', filled', length⟩ := methodTypes_filled methoded
  refine ⟨same'.trans same, ?_, ?_, ?_, ?_⟩
  · simp [Ty.isDefinition, nominal, nominal']
  · simp [Ty.complete, StructDecl.filled, filled, filled', Ty.fieldsComplete, Ty.methodsComplete]
  · intro signature member
    obtain ⟨method, listed, rfl⟩ := List.mem_map.mp member
    exact List.all_eq_true.mp nominal' method listed
  · simpa using length

end Resolving

end Typing

end PackageCheck
