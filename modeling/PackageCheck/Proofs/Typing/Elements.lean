import PackageCheck.Proofs.Typing.Quiet
import PackageCheck.Tree.Walk

/-! # Elements of composite literals

A walk passes over the bare names that stand as keys, unless the literal is written as a map, an
array or a slice. In a quiet run these are the names of fields, which are no values: every other key
is checked against a type. -/

namespace PackageCheck

/-- Whether the type is an array, a slice or a map itself, without a name in between. -/
def Ty.isIndexed : Ty → Bool
  | .array _ _ | .slice _ | .map _ _ => true
  | _ => false

namespace Typing

open Check.Quiet

variable {ctx : Context} {layout layout' : Layout} {type : Ty} {position : Position}

/-! ## Steps of a layout -/

/-- What a layout wants of the next element, and the layout of the elements behind it. -/
theorem Layout.next_inv {key : Option Expr} (next : layout.next ctx key position = .ok (type, layout')) :
    (∃ size index index', layout = .array size type index ∧ layout' = .array size type index') ∨
    (layout = .slice type ∧ layout' = .slice type) ∨
    (∃ keyType, layout = .map keyType type ∧ layout' = .map keyType type) ∨
    (∃ field rest, layout = .positional (field :: rest) ∧ type = field.type ∧
      layout' = .positional rest) ∨
    ∃ struct ident, layout = .keyed struct ∧ key.bind Expr.ident? = some ident ∧
      struct.field? ident.name = some type ∧ layout' = .keyed struct := by
  cases layout with
  | array size of index =>
    simp only [Layout.next] at next
    split at next <;> cases next
    exact Or.inl ⟨size, index, _, rfl, rfl⟩
  | slice of =>
    cases next
    exact Or.inr (Or.inl ⟨rfl, rfl⟩)
  | map keyType valueType =>
    simp only [Layout.next] at next
    split at next <;> cases next
    exact Or.inr (Or.inr (Or.inl ⟨keyType, rfl, rfl⟩))
  | positional fields =>
    cases fields with
    | nil => cases next
    | cons field rest =>
      cases next
      exact Or.inr (Or.inr (Or.inr (Or.inl ⟨field, rest, rfl, rfl, rfl⟩)))
  | keyed struct =>
    simp only [Layout.next] at next
    split at next
    case h_1 => cases next
    case h_2 key =>
      split at next
      case h_1 => cases next
      case h_2 ident named =>
        split at next
        case h_1 => cases next
        case h_2 field =>
          cases next
          exact Or.inr (Or.inr (Or.inr (Or.inr ⟨struct, ident, rfl, named, field, rfl⟩)))

/-- A key that has no type is the name of a field. -/
theorem Layout.next_ident? {key : Expr} (untyped : layout.keyType? = none)
    (unkeyed : ∀ fields, layout ≠ .positional fields)
    (next : layout.next ctx (some (layout.typeKey key)) position = .ok (type, layout')) :
    key.ident?.isSome = true := by
  rcases Layout.next_inv next with ⟨_, _, _, rfl, -⟩ | ⟨rfl, -⟩ | ⟨_, rfl, -⟩ |
    ⟨field, rest, same, -⟩ | ⟨struct, ident, rfl, named, -⟩
  · cases untyped
  · cases untyped
  · cases untyped
  · exact absurd same (unkeyed _)
  · have same : (Layout.typeKey (.keyed struct) key).ident? = key.ident? := by
      unfold Layout.typeKey
      dsimp only
      split <;> rfl
    rw [← same]
    exact Option.isSome_iff_exists.mpr ⟨ident, named⟩

/-! ## Keys -/

/-- Whether elements have no keys where a struct is written without the names of its fields. -/
def Layout.Keyless (layout : Layout) (elements : List Element) : Prop :=
  ∀ fields, layout = .positional fields → ∀ element ∈ elements, element.key = none

theorem Layout.Keyless.next {element : Element} {rest : List Element} {key : Option Expr}
    (keyless : layout.Keyless (element :: rest))
    (next : layout.next ctx key position = .ok (type, layout')) : layout'.Keyless rest := by
  intro fields same other member
  have positional : ∃ fields', layout = .positional fields' := by
    rcases Layout.next_inv next with ⟨_, _, _, rfl, rfl⟩ | ⟨rfl, rfl⟩ | ⟨_, rfl, rfl⟩ |
      ⟨field, rest, rfl, rfl, rfl⟩ | ⟨_, _, rfl, -, -, rfl⟩
    case inr.inr.inr.inl => exact ⟨_, rfl⟩
    all_goals cases same
  obtain ⟨fields', same⟩ := positional
  exact keyless fields' same other (List.mem_cons_of_mem _ member)

theorem structLayout_inv {struct : StructTy} {elements : List Element}
    (laidOut : structLayout ctx struct elements position = .ok layout) :
    (layout = .positional struct.fields ∧ ∀ element ∈ elements, element.key = none) ∨
      layout = .keyed struct := by
  unfold structLayout at laidOut
  dsimp only at laidOut
  split at laidOut
  case isTrue unkeyed =>
    split at laidOut <;> cases laidOut
    refine Or.inl ⟨rfl, fun element member => ?_⟩
    have none := List.filter_eq_nil_iff.mp (List.eq_nil_of_length_eq_zero unkeyed) element member
    simpa using none
  case isFalse =>
    split at laidOut <;> cases laidOut
    exact Or.inr rfl

section Layouts

variable {elements : List Element} {s s' : State}

theorem layoutOf_keyless (quiet : Succeeds (layoutOf ctx type elements position) s layout s') :
    layout.Keyless elements := by
  intro fields same
  obtain ⟨⟨root, -, cases⟩, -⟩ := layoutOf_inv quiet
  rcases cases with ⟨_, _, -, rfl⟩ | ⟨_, -, rfl⟩ | ⟨_, _, -, rfl⟩ | ⟨struct, -, laidOut⟩
  · cases same
  · cases same
  · cases same
  · rcases structLayout_inv laidOut with ⟨-, unkeyed⟩ | rfl
    · exact unkeyed
    · cases same

/-- A literal that is written as a map, an array or a slice has such a type. -/
theorem compoundType_isIndexed {spec : Option TypeSpec} {hint : Ty}
    (written : TypeSpec.hasValueKeys spec = true)
    (quiet : Succeeds (compoundType ctx spec hint position) s type s') : type.isIndexed = true := by
  have resolved := compoundType_inv quiet
  cases spec with
  | none => cases written
  | some spec =>
    cases spec with
    | array size of =>
      rw [resolveOr, resolve] at resolved
      obtain ⟨_, _, -, rest⟩ := attempt_inv resolved
      obtain ⟨rfl, -⟩ := succeed_inv rest
      rfl
    | slice of =>
      rw [resolveOr, resolve] at resolved
      obtain ⟨_, _, -, rest⟩ := attempt_inv resolved
      obtain ⟨rfl, -⟩ := succeed_inv rest
      rfl
    | map key value =>
      rw [resolveOr, resolve] at resolved
      obtain ⟨_, _, -, rest⟩ := attempt_inv resolved
      obtain ⟨_, _, -, rest'⟩ := attempt_inv rest
      obtain ⟨rfl, -⟩ := succeed_inv rest'
      rfl
    | _ => cases written

/-- The keys of such a literal have a type. -/
theorem layoutOf_keyType? (indexed : type.isIndexed = true)
    (quiet : Succeeds (layoutOf ctx type elements position) s layout s') :
    layout.keyType?.isSome = true := by
  obtain ⟨⟨root, found, cases⟩, -⟩ := layoutOf_inv quiet
  rcases cases with ⟨_, _, -, rfl⟩ | ⟨_, -, rfl⟩ | ⟨_, _, -, rfl⟩ | ⟨struct, rfl, -⟩
  · rfl
  · rfl
  · rfl
  · cases type with
    | custom name decl => cases indexed
    | array size of => cases found
    | slice of => cases found
    | map key value => cases found
    | _ => cases indexed

end Layouts

end Typing

end PackageCheck
