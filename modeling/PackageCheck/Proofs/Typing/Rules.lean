import Mathlib.Data.List.Forall2
import PackageCheck.Proofs.Symbol.Extension
import PackageCheck.Proofs.Tree.Parts
import PackageCheck.Proofs.Ty.Refinement
import PackageCheck.Typing.Layout

/-! # Typing rules

What the type of an expression has to do with those of its parts, said of an annotated tree and
the table of its symbols, without the checker. `ExprForm.Yields` is the rule of each form. What an
expression is used for can refine the type that its rule yields, so an expression is sound if its
own type refines that one.

`ExprForm.Obeys` says the same of trees with nothing left to infer. There the types of the operands
of an operator are those of the expression, but for names. -/

namespace PackageCheck

open Typing

/-! ## Names -/

/-- Whether a name is bound to a variable of that name whose type has a property. -/
def SymbolTable.Binds (table : SymbolTable) (ident : Ident) (P : Ty → Prop) : Prop :=
  ∃ id var, ident.symbol = some id ∧ table.get? id = some (.var var) ∧ var.name = ident.name ∧
    P var.type

mutual

/-- Whether a specification stands for a type. A name stands for a declared type of that name, a
    blank for a type yet to be inferred. -/
def TypeSpec.Denotes (table : SymbolTable) : TypeSpec → Ty → Prop
  | .named name _, type => ∃ id symbol, table.get? id = some symbol ∧ symbol.name = name ∧
      table.declaredType? id = some type
  | .array size of, type => ∃ of', type = .array size of' ∧ of.Denotes table of'
  | .slice of, type => ∃ of', type = .slice of' ∧ of.Denotes table of'
  | .map key value, type => ∃ key' value', type = .map key' value' ∧ key.Denotes table key' ∧
      value.Denotes table value'
  | .pointer pointee, type => ∃ pointee', type = .pointer pointee' ∧
      pointee.Denotes table pointee'
  | .tuple members, type => ∃ members', type = .tuple members' ∧
      TypeSpec.DenoteAll table members members'
  | .func args results, type => ∃ args' results', type = .func ⟨args', results'⟩ ∧
      TypeSpec.DenoteAll table args args' ∧ TypeSpec.DenoteAll table results results'
  | .blank, type => type = .unknown

/-- Whether specifications stand for types, pair by pair. -/
def TypeSpec.DenoteAll (table : SymbolTable) : List TypeSpec → List Ty → Prop
  | [], types => types = []
  | spec :: rest, types => ∃ type types', types = type :: types' ∧ spec.Denotes table type ∧
      TypeSpec.DenoteAll table rest types'

end

/-! ## Operands -/

/-- Whether an expression is blank, or its type has a property. -/
def Expr.OfType (e : Expr) (P : Ty → Prop) : Prop :=
  e.isBlank = true ∨ P e.type

/-- Whether there is a simple type behind a type on which arithmetic is defined. Only some
    operators are defined on strings. -/
def SymbolTable.IsArithmetic (table : SymbolTable) (strings : Prop) (type : Ty) : Prop :=
  ∃ simple, table.underlying type = .ok (.simple simple) ∧ simple ≠ .bool ∧ simple ≠ .error ∧
    (simple = .string → strings)

/-- Whether a type is indexed by another one, and gives elements of a third. -/
def SymbolTable.IsIndexed (table : SymbolTable) (left index element : Ty) : Prop :=
  ∃ root, table.underlying left = .ok root ∧
    match root with
    | .array _ of | .slice of => index = .int ∧ element = of
    | .map key value => index = key ∧ element = value
    | .simple .string => index = .int ∧ element = .simple .byte
    | _ => False

/-- Whether the callee of a conversion stands for a type. -/
def Expr.Converts (table : SymbolTable) (callee : Expr) (target : Ty) : Prop :=
  callee.type = target ∧
    match callee.form with
    | .type spec => spec.Denotes table target
    | .ident ident => ∃ id, ident.symbol = some id ∧ table.declaredType? id = some target
    | _ => False

/-! ## Composite literals -/

/-- Whether an expression is the key of an element. A bare name as a key is bound to a variable. -/
def Expr.IsKey (table : SymbolTable) (keyType : Ty) (key : Expr) : Prop :=
  key.OfType (keyType.refinedBy · = true) ∧
    ∀ ident, key.ident? = some ident → table.Binds ident (·.refinedBy key.type = true)

/-- Whether the elements of a literal are laid out as a type wants them. -/
def Ty.LaysOut (table : SymbolTable) (shape : CompoundShape) (elements : List Element) :
    Ty → Prop
  | .array _ of | .slice of => shape = .listLike ∧
      ∀ element ∈ elements, element.value.OfType (of.refinedBy · = true) ∧
        ∀ key, element.key = some key → key.IsKey table .int
  | .map keyType of => shape = .mapLike ∧
      ∀ element ∈ elements, element.value.OfType (of.refinedBy · = true) ∧
        ∃ key, element.key = some key ∧ key.IsKey table keyType
  | .struct layout =>
    (shape = .listLike ∧
      List.Forall₂ (fun element (field : FieldTy) => element.key = none ∧
        element.value.OfType (field.type.refinedBy · = true)) elements layout.fields) ∨
    (shape = .mapLike ∧
      ∀ element ∈ elements, ∃ key ident type, element.key = some key ∧
        key.ident? = some ident ∧ layout.field? ident.name = some type ∧
          element.value.OfType (type.refinedBy · = true))
  | _ => False

/-! ## Rules -/

/-- Whether a form of expression yields a type. -/
def ExprForm.Yields (table : SymbolTable) (found : Ty) : ExprForm → Prop
  | .literal leaf => found = literalType leaf.kind
  | .blank => False
  | .compound spec shape elements =>
    found.known = true ∧ (∀ s, spec = some s → s.Denotes table found) ∧
      if elements.isEmpty then shape = .empty
      else ∃ root, table.underlying found = .ok root ∧ root.LaysOut table shape elements
  | .binary op left right =>
    if op.isLogical then found = .bool ∧ left.OfType (· = .bool) ∧ right.OfType (· = .bool)
    else ∃ operand, left.OfType (·.refinedBy operand = true) ∧ right.OfType (· = operand) ∧
      if op.isComparison then found = .bool
      else found = operand ∧ table.IsArithmetic (op = .add) operand
  | .unary op operand =>
    match op with
    | .plus | .minus => operand.type = found ∧ table.IsArithmetic False found
    | .not => found = .bool ∧ operand.OfType (· = .bool)
    | .addressOf => ∃ pointee, found = .pointer pointee ∧ operand.OfType (· = pointee)
    | .deref => table.underlying operand.type = .ok (.pointer found)
  | .index left place => ∃ indexType, table.IsIndexed left.type indexType found ∧
      place.OfType (indexType.refinedBy · = true)
  | .selector left field => ∃ base, table.memberBase left.type = .ok base ∧
      memberType? base field = some found
  | .call callee args =>
    if callee.namesType table then callee.Converts table found ∧ args.length = 1
    else ∃ signature, table.underlying callee.type = .ok (.func signature) ∧
      found = signature.resultType ∧
        List.Forall₂ (fun arg (type : Ty) => arg.OfType (type.refinedBy · = true)) args
          signature.args
  | .func value => ∃ signature, found = .func signature ∧
      TypeSpec.DenoteAll table (value.params.map (·.spec)) signature.args ∧
        TypeSpec.DenoteAll table (value.results.map (·.spec)) signature.results
  | .ident name => table.Binds name (· = found)
  | .type _ => False

/-- Whether the type of an expression refines the one that its rule yields. -/
def Expr.Sound (table : SymbolTable) (e : Expr) : Prop :=
  ∃ found, e.form.Yields table found ∧ found.refinedBy e.type = true

/-- Whether the type of an expression has been left open, or is sound. -/
def Expr.Justified (table : SymbolTable) (e : Expr) : Prop :=
  e.isBlank = true ∨ e.type = .unknown ∨ e.Sound table

/-- The rule for the type of a form of expression, with nothing left to infer. -/
def ExprForm.Obeys (table : SymbolTable) (type : Ty) : ExprForm → Prop
  | .literal leaf => type = literalType leaf.kind
  | .ident name => table.Binds name (·.refinedBy type = true)
  | .binary op left right =>
    if op.isLogical then type = .bool ∧ left.OfType (· = .bool) ∧ right.OfType (· = .bool)
    else if op.isComparison then
      type = .bool ∧
        (left.isBlank = true ∨ right.isBlank = true ∨ left.type.agrees right.type = true)
    else left.OfType (·.agrees type = true) ∧ right.OfType (·.agrees type = true) ∧
      table.IsArithmetic (op = .add) type
  | .unary op operand =>
    match op with
    | .plus | .minus => operand.OfType (·.agrees type = true) ∧ table.IsArithmetic False type
    | .not => type = .bool ∧ operand.OfType (· = .bool)
    | .addressOf => ∃ pointee, type = .pointer pointee ∧
        operand.OfType (·.agrees pointee = true)
    | .deref => ∃ pointee, table.underlying operand.type = .ok (.pointer pointee) ∧
        pointee.refinedBy type = true
  | .index left place => ∃ indexType element, table.IsIndexed left.type indexType element ∧
      place.OfType (indexType.refinedBy · = true) ∧ element.refinedBy type = true
  | .selector left field => ∃ base member, table.memberBase left.type = .ok base ∧
      memberType? base field = some member ∧ member.refinedBy type = true
  | form => ∃ found, form.Yields table found ∧ found.refinedBy type = true

/-! ## Refined types -/

namespace SymbolTable

variable {table : SymbolTable}

theorem followSteps_name {name : String} (name' : String) {root : Ty} : ∀ {steps : Nat}
    {id : SymbolId}, table.followSteps name steps id = .ok root →
      table.followSteps name' steps id = .ok root
  | 0, _, reached => by cases reached
  | steps + 1, id, reached => by
    rw [followSteps] at reached ⊢
    cases followed : table.follow id with
    | error err =>
      rw [followed] at reached
      cases reached
    | ok next =>
      rw [followed] at reached
      cases next with
      | inl type => exact reached
      | inr next => exact followSteps_name name' reached

/-- The simple type behind a type stays so however the type is refined. -/
theorem underlying_of_refinedBy {general specific : Ty} {simple : Simple}
    (found : table.underlying general = .ok (.simple simple))
    (refined : general.refinedBy specific = true) :
    table.underlying specific = .ok (.simple simple) := by
  cases general with
  | custom name decl =>
    obtain ⟨name', rfl⟩ := Ty.custom_refinedBy.mp refined
    exact followSteps_name name' found
  | simple s =>
    rw [Ty.simple_refinedBy.mp refined]
    exact found
  | _ => cases found

theorem IsArithmetic.refinedBy {strings : Prop} {general specific : Ty}
    (arithmetic : table.IsArithmetic strings general)
    (refined : general.refinedBy specific = true) : table.IsArithmetic strings specific := by
  obtain ⟨simple, found, rest⟩ := arithmetic
  exact ⟨simple, underlying_of_refinedBy found refined, rest⟩

end SymbolTable

theorem Expr.OfType.imp {e : Expr} {P Q : Ty → Prop} (typed : e.OfType P)
    (implied : P e.type → Q e.type) : e.OfType Q :=
  Or.imp_right implied typed

/-- With nothing left to infer, what refines the type of an operand agrees with it. -/
theorem Expr.OfType.agrees {e : Expr} {operand type : Ty}
    (known : e.isBlank = false → e.type.known = true)
    (typed : e.OfType (·.refinedBy operand = true)) (refined : operand.refinedBy type = true) :
    e.OfType (·.agrees type = true) := by
  cases blank : e.isBlank with
  | true => exact Or.inl blank
  | false =>
    have small := typed.resolve_left (by simp [blank])
    exact Or.inr (Ty.agrees_of_known (known blank) (Ty.refinedBy_trans small refined))

theorem Ty.eq_bool_of_refinedBy {type : Ty} (refined : Ty.bool.refinedBy type = true) :
    type = .bool :=
  Ty.simple_refinedBy.mp refined

/-- A sound expression obeys its rule if the types of its operands are known. -/
theorem Expr.Sound.obeys {table : SymbolTable} {e : Expr} (sound : e.Sound table)
    (known : ∀ x ∈ e.form.parts table, x.isBlank = false → x.type.known = true) :
    e.form.Obeys table e.type := by
  obtain ⟨position, form, type⟩ := e
  obtain ⟨found, yields, refined⟩ := sound
  have self : ∀ x : Expr, x ∈ x.parts table := by
    intro x
    obtain ⟨_, _, _⟩ := x
    exact List.mem_cons_self
  cases form with
  | literal leaf =>
    obtain ⟨kind, text⟩ := leaf
    cases yields
    cases kind <;> exact Ty.simple_refinedBy.mp refined
  | ident ident =>
    obtain ⟨id, var, bound, held, name, rfl⟩ := yields
    exact ⟨id, var, bound, held, name, refined⟩
  | binary op left right =>
    have knownLeft := known left (List.mem_append_left _ (self left))
    have knownRight := known right (List.mem_append_right _ (self right))
    simp only [ExprForm.Yields, ExprForm.Obeys] at yields ⊢
    split at yields
    case isTrue logical =>
      obtain ⟨rfl, operands⟩ := yields
      rw [if_pos logical]
      exact ⟨Ty.eq_bool_of_refinedBy refined, operands⟩
    case isFalse logical =>
      obtain ⟨operand, typedLeft, typedRight, yields⟩ := yields
      rw [if_neg logical]
      split at yields
      case isTrue comparison =>
        subst yields
        rw [if_pos comparison]
        refine ⟨Ty.eq_bool_of_refinedBy refined, ?_⟩
        rcases typedRight with blank | same
        · exact Or.inr (Or.inl blank)
        · rw [← same] at typedLeft
          exact Or.imp_right Or.inr (typedLeft.agrees knownLeft (Ty.refinedBy_refl _))
      case isFalse comparison =>
        obtain ⟨rfl, arithmetic⟩ := yields
        rw [if_neg comparison]
        refine ⟨typedLeft.agrees knownLeft refined, ?_, arithmetic.refinedBy refined⟩
        have small : right.OfType (·.refinedBy found = true) :=
          typedRight.imp fun same => by simp [same]
        exact small.agrees knownRight refined
  | unary op operand =>
    have knownOperand := known operand (self operand)
    cases op with
    | plus =>
      obtain ⟨rfl, arithmetic⟩ := yields
      have typed : operand.OfType (·.refinedBy operand.type = true) :=
        Or.inr (Ty.refinedBy_refl _)
      exact ⟨typed.agrees knownOperand refined, arithmetic.refinedBy refined⟩
    | minus =>
      obtain ⟨rfl, arithmetic⟩ := yields
      have typed : operand.OfType (·.refinedBy operand.type = true) :=
        Or.inr (Ty.refinedBy_refl _)
      exact ⟨typed.agrees knownOperand refined, arithmetic.refinedBy refined⟩
    | not =>
      obtain ⟨rfl, typed⟩ := yields
      exact ⟨Ty.eq_bool_of_refinedBy refined, typed⟩
    | addressOf =>
      obtain ⟨pointee, rfl, typed⟩ := yields
      obtain ⟨pointee', same, refined⟩ := Ty.pointer_refinedBy.mp refined
      refine ⟨pointee', same, ?_⟩
      have small : operand.OfType (·.refinedBy pointee = true) :=
        typed.imp fun same => by simp [same]
      exact small.agrees knownOperand refined
    | deref => exact ⟨found, yields, refined⟩
  | index left index =>
    obtain ⟨indexType, indexed, typed⟩ := yields
    exact ⟨indexType, found, indexed, typed, refined⟩
  | selector left field =>
    obtain ⟨base, reached, member⟩ := yields
    exact ⟨base, found, reached, member, refined⟩
  | blank => exact yields.elim
  | type spec => exact yields.elim
  | compound spec shape elements => exact ⟨found, yields, refined⟩
  | call callee args => exact ⟨found, yields, refined⟩
  | func func => exact ⟨found, yields, refined⟩

end PackageCheck
