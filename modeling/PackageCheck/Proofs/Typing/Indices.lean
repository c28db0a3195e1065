import PackageCheck.Proofs.Typing.Frame
import PackageCheck.Tree.Make

/-! # Indices of array elements

The index of an element of an array literal is the number that its key denotes, or else one more
than the index in front of it. A check holds the indices against the size of the array.

A check reads a key as a 64-bit number. A numeral that denotes a larger number is passed over, as if
the key denoted nothing at all, and the element gets the next index. So an accepted literal stays
inside its array exactly if none of its keys is that large. -/

namespace PackageCheck.Typing

open Check

/-! ## Keys -/

/-- The number written by decimal digits, with or without a `+` in front, however large. -/
def numeral? (cs : List Char) : Option Nat :=
  let digits := match cs with
    | '+' :: rest => rest
    | cs => cs
  if Text.isNumeral digits then some (Text.ofDigits digits) else none

/-- The number that a key denotes, if it is an integer literal of decimal digits. -/
def denotedIndex? (key : Expr) : Option Nat :=
  match key.form with
  | .literal ⟨.int, text⟩ => numeral? text.toList
  | _ => none

/-- A 64-bit number is read off the digits if they denote one. -/
theorem parseIndex?_eq (cs : List Char) :
    parseIndex? cs = (numeral? cs).filter (· < UInt64.size) := by
  have read : ∀ digits : List Char,
      (if Text.isNumeral digits && Text.ofDigits digits < UInt64.size then
        some (Text.ofDigits digits) else none) =
      (if Text.isNumeral digits then some (Text.ofDigits digits) else none).filter
        (· < UInt64.size) := by
    intro digits
    by_cases numeral : Text.isNumeral digits
    · by_cases small : Text.ofDigits digits < UInt64.size
      · simp [numeral, small, Option.filter]
      · simp [numeral, small, Option.filter]
    · simp [numeral]
  exact read _

theorem constantIndex?_eq (key : Expr) :
    constantIndex? key = (denotedIndex? key).filter (· < UInt64.size) := by
  obtain ⟨position, form, type⟩ := key
  cases form with
  | literal literal =>
    obtain ⟨kind, text⟩ := literal
    cases kind with
    | int => exact parseIndex?_eq _
    | _ => rfl
  | _ => rfl

/-- Annotations do not change the number that a key denotes. -/
theorem constantIndex?_erase (key : Expr) : constantIndex? (key.erase id) = constantIndex? key := by
  obtain ⟨position, form, type⟩ := key
  cases form <;> rfl

/-! ## Indices -/

/-- The indices of elements, given the number that a key denotes and the index of an element that
    comes first and has no such key. -/
def elementIndices (denotes : Expr → Option Nat) (next : Nat) : List Element → List Nat
  | [] => []
  | element :: rest =>
    let index := (element.key.bind denotes).getD next
    index :: elementIndices denotes (index + 1) rest

section Indices

variable {denotes denotes' : Expr → Option Nat} {elements : List Element} {n : Nat}

/-- A number that a key denotes is the index of its element. -/
theorem mem_elementIndices {element : Element} (member : element ∈ elements)
    (denoted : element.key.bind denotes = some n) :
    ∀ next, n ∈ elementIndices denotes next elements := by
  induction elements with
  | nil => cases member
  | cons first rest hypothesis =>
    intro next
    rw [elementIndices]
    cases List.mem_cons.mp member with
    | inl same =>
      subst same
      simp [denoted]
    | inr later => exact List.mem_cons_of_mem _ (hypothesis later _)

theorem elementIndices_congr
    (same : ∀ element ∈ elements, element.key.bind denotes = element.key.bind denotes') :
    ∀ next, elementIndices denotes next elements = elementIndices denotes' next elements := by
  induction elements with
  | nil => exact fun next => rfl
  | cons first rest hypothesis =>
    intro next
    rw [elementIndices, elementIndices, same first List.mem_cons_self,
      hypothesis (fun element member => same element (List.mem_cons_of_mem _ member))]

/-- If the indices that a check sees are inside of a bound then the numbers that the keys denote
    are, unless one of them is too large to be seen. -/
theorem denoted_lt_iff {bound : Nat} (small : bound < UInt64.size)
    (seen : ∀ index ∈ elementIndices constantIndex? 0 elements, index < bound) :
    (∀ index ∈ elementIndices denotedIndex? 0 elements, index < bound) ↔
      ∀ element ∈ elements, ∀ n, element.key.bind denotedIndex? = some n → n < UInt64.size := by
  constructor
  · intro inside element member n denoted
    have lt : n < bound := inside n (mem_elementIndices member denoted 0)
    omega
  · intro sizes
    have same : ∀ element ∈ elements,
        element.key.bind denotedIndex? = element.key.bind constantIndex? := by
      intro element member
      cases key : element.key with
      | none => rfl
      | some key' =>
        simp only [Option.bind_some, constantIndex?_eq]
        cases denoted : denotedIndex? key' with
        | none => rfl
        | some n =>
          have lt : n < UInt64.size := sizes element member n (by simp [key, denoted])
          simp [Option.filter, lt]
    rwa [elementIndices_congr same]

end Indices

/-! ## Checks -/

variable {table : SymbolTable} {ctx : Context} {size : UInt64} {of : Ty}

/-- What an array does with an element: its index is inside, and the next one is no larger than the
    size. -/
theorem Layout.next_array_inv {key : Option Expr} {value : Position} {index : Nat} {found : Ty}
    {layout : Layout}
    (next : (Layout.array size of index).next ctx key value = .ok (found, layout)) :
    (key.bind constantIndex?).getD index < size.toNat ∧
      layout = .array size of ((key.bind constantIndex?).getD index + 1) := by
  simp only [Layout.next] at next
  split at next
  case isTrue inside =>
    cases next
    exact ⟨inside, rfl⟩
  case isFalse => cases next

/-- The check of a key does not change the number that it denotes. -/
theorem checkKey_constantIndex? (layout : Layout) (key : Option Expr) :
    (checkKey ctx layout key).Ensures table fun checked =>
      checked.1.bind constantIndex? = key.bind constantIndex? := by
  have erased : ∀ key : Option Expr,
      (Expr.eraseOption id key).bind constantIndex? = key.bind constantIndex? := by
    intro key
    cases key with
    | none => rfl
    | some key => exact constantIndex?_erase key
  refine Ensures.imp (@checkKey_shows table id ctx layout key) fun checked holds => ?_
  rw [← erased checked.1, holds.1, erased key]

/-- The elements of an array have their indices inside if they check. -/
theorem checkElements_indices (elements : List Element) : ∀ next : Nat,
    (checkElements ctx elements (.array size of next)).EnsuresNode table (fun _ => True) fun _ _ =>
      ∀ index ∈ elementIndices constantIndex? next elements, index < size.toNat := by
  induction elements with
  | nil =>
    intro next
    rw [checkElements]
    exact .pure True.intro fun _ _ index member => nomatch member
  | cons element rest hypothesis =>
    intro next
    obtain ⟨key, value⟩ := element
    rw [checkElements, elementIndices]
    apply EnsuresNode.bind (checkKey_constantIndex? (.array size of next) key)
    intro checked kept
    apply EnsuresNode.rebuild
    apply EnsuresNode.given (Q := fun found =>
      (key.bind constantIndex?).getD next < size.toNat ∧
        found.2 = .array size of ((key.bind constantIndex?).getD next + 1)) _ True.intro
    · intro found inside
      obtain ⟨type, layout⟩ := found
      obtain ⟨inside, rfl⟩ := inside
      refine .andThen (M := fun _ => True) (.trivial _) True.intro (fun _ _ _ _ => ?_)
        fun _ _ _ _ => True.intro
      apply (hypothesis _).imp (fun _ _ => True.intro)
      intro _ _ _ others index member
      cases List.mem_cons.mp member with
      | inl same => exact same ▸ inside
      | inr later => exact others index later
    · apply Ensures.ofExcept
      intro found passed
      cases ended : checked.2 with
      | error err =>
        rw [ended] at passed
        cases passed
      | ok _ =>
        rw [ended] at passed
        rw [← kept]
        exact Layout.next_array_inv passed

/-- The layout of an array begins at its first element. -/
theorem layoutOf_array (type : Ty) (elements : List Element) (position : Position) :
    (layoutOf ctx type elements position).run.Ensures table (Passing fun layout =>
      table.underlying type = .ok (.array size of) → layout = .array size of 0) := by
  have behind : (underlying ctx type position).run.Ensures table (Passing fun root =>
      table.underlying type = .ok root) := by
    refine .attempt (.lift .state) fun s holds => ?_
    split
    case h_1 root found => exact .succeed (holds.2.underlying found)
    case h_2 => exact .fail _
  refine .attempt behind fun root found => ?_
  split
  case h_1 size' of' =>
    refine .succeed fun array => ?_
    cases found.symm.trans array
    rfl
  case h_4 layout =>
    refine .ofExcept fun _ _ array => ?_
    cases found.symm.trans array
  case h_5 => exact .fail _
  all_goals
    refine .succeed fun array => ?_
    cases found.symm.trans array

/-- The elements of an accepted array literal have the indices that the check sees inside. -/
theorem compound_indices (size : UInt64) (of : Ty) (position : Position) (spec : Option TypeSpec)
    (shape : CompoundShape) (elements : List Element) (hint : Ty) :
    (inferForm ctx position (.compound spec shape elements) hint).EnsuresNode table
      (fun _ => True) fun _ type => table.underlying type = .ok (.array size of) →
        ∀ index ∈ elementIndices constantIndex? 0 elements, index < size.toNat := by
  rw [inferForm]
  refine .given (Gives.attempted _) True.intro fun type _ => ?_
  split
  case isTrue empty =>
    rw [List.isEmpty_iff.mp empty]
    exact .ok True.intro fun _ index member => nomatch member
  case isFalse =>
    refine .given (@layoutOf_array table ctx size of type elements position) True.intro
      fun layout begins => ?_
    refine .rebuild (.mapResult (W := fun _ _ => table.underlying type = .ok (.array size of) →
      ∀ index ∈ elementIndices constantIndex? 0 elements, index < size.toNat) ?_
      fun _ _ _ inside => inside)
    by_cases array : table.underlying type = .ok (.array size of)
    · rw [begins array]
      exact (checkElements_indices elements 0).imp (fun _ _ => True.intro) fun _ _ _ inside _ =>
        inside
    · exact (EnsuresNode.trivial _).imp (fun _ _ => True.intro) fun _ _ _ _ array' =>
        absurd array' array

/-- An accepted array literal stays inside its array exactly if none of its keys denotes a number of
    more than 64 bits. The step from one element to the next never leaves 64 bits. -/
theorem indices_in_bounds_iff (ctx : Context) (size : UInt64) (of : Ty) :
    (∀ (s after : State) (position : Position) (spec : Option TypeSpec) (shape : CompoundShape)
      (elements : List Element) (hint type : Ty) (form : ExprForm), s.WellScoped →
      (inferForm ctx position (.compound spec shape elements) hint).run s =
        ((form, .ok type), after) →
      after.symbols.underlying type = .ok (.array size of) →
        ((∀ index ∈ elementIndices denotedIndex? 0 elements, index < size.toNat) ↔
          ∀ element ∈ elements, ∀ n,
            element.key.bind denotedIndex? = some n → n < UInt64.size)) ∧
    ∀ (index : Nat) (key : Option Expr) (value : Position) (found : Ty) (layout : Layout),
      (Layout.array size of index).next ctx key value = .ok (found, layout) →
        ∃ index' < UInt64.size, layout = .array size of index' := by
  have small : size.toNat < UInt64.size := size.toNat_lt
  constructor
  · intro s after position spec shape elements hint type form named ran array
    have ended : ((inferForm ctx position (.compound spec shape elements) hint).run s).2 =
        after := by
      rw [ran]
    -- the array is looked up in the table that the check ends with
    have within := (SymbolTable.Extends.refl after.symbols).toWithin
    rw [← ended] at within
    have seen := (compound_indices size of position spec shape elements hint s named within).2
    rw [ran] at seen
    exact denoted_lt_iff small (seen type rfl array)
  · intro index key value found layout next
    obtain ⟨inside, after⟩ := Layout.next_array_inv next
    exact ⟨_, by omega, after⟩

/-- A list of integers, the first one under a key. -/
def keyedList (key : String) : ExprForm :=
  .compound none .undecided [⟨some (.literal .int key), .int 1⟩, ⟨none, .int 2⟩]

/-- The indices of the elements are 2 and 3. -/
theorem indices_in_bounds_keyedList : ∃ after form,
    (inferForm { file := "m.hv" } {} (keyedList "+2") (.array 4 .int)).run State.bare =
      ((form, .ok (.array 4 .int)), after) ∧
    ∀ index ∈ elementIndices denotedIndex? 0
      [⟨some (.literal .int "+2"), .int 1⟩, ⟨none, .int 2⟩], index < (4 : UInt64).toNat := by
  obtain ⟨after, form, ran⟩ : ∃ after form,
      (inferForm { file := "m.hv" } {} (keyedList "+2") (.array 4 .int)).run State.bare =
        ((form, .ok (.array 4 .int)), after) := ⟨_, _, rfl⟩
  have inside := (indices_in_bounds_iff { file := "m.hv" } 4 .int).1 State.bare after {} none
    .undecided _ _ _ _ State.wellScoped_bare ran rfl
  exact ⟨after, form, ran, inside.mpr (by decide +kernel)⟩

/-- The key denotes 2 to the power of 64, and is accepted in an array of four elements. -/
theorem indices_out_of_bounds_keyedList : ∃ after form,
    State.bare.WellScoped ∧
    (inferForm { file := "m.hv" } {} (keyedList "18446744073709551616") (.array 4 .int)).run
      State.bare = ((form, .ok (.array 4 .int)), after) ∧
    ¬ ∀ index ∈ elementIndices denotedIndex? 0
      [⟨some (.literal .int "18446744073709551616"), .int 1⟩, ⟨none, .int 2⟩],
        index < (4 : UInt64).toNat := by
  refine ⟨_, _, State.wellScoped_bare, rfl, ?_⟩
  decide

end PackageCheck.Typing
