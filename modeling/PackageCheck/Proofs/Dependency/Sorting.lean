import Mathlib.Data.List.Perm.Basic
import PackageCheck.Proofs.Dependency.Order

/-! # Sorted lists

Things have an order exactly if they can be listed in such a way that none refers to a name that one
behind it declares. What is put out is such a list. So whether there is an order does not depend on how
the things are given. -/

namespace PackageCheck.Dependency

variable {α : Type u} {declares : α → List String} {refersTo : α → String → Bool} {items out : List α}

/-- Whether nothing in a list refers to a name that is declared behind it. -/
def Sorted (declares : α → List String) (refersTo : α → String → Bool) (items : List α) : Prop :=
  items.Pairwise fun earlier later => ¬ ∃ name ∈ declares later, refersTo earlier name = true

/-- Whether things are sorted depends on the names alone. -/
theorem Sorted.congr {β : Type v} {declares' : β → List String} {refersTo' : β → String → Bool}
    {others : List β} (sorted : Sorted declares refersTo items)
    (same : others.map (fun other => (declares' other, refersTo' other)) =
      items.map fun item => (declares item, refersTo item)) : Sorted declares' refersTo' others := by
  have names : (items.map fun item => (declares item, refersTo item)).Pairwise
      fun earlier later => ¬ ∃ name ∈ later.1, earlier.2 name = true := List.pairwise_map.mpr sorted
  rw [← same] at names
  exact List.pairwise_map.mp names

/-- A permutation of the images of things comes from one of the things. -/
theorem exists_perm_of_map {β : Type v} {f : β → α} {things : List β}
    (perm : out.Perm (things.map f)) : ∃ things' : List β, things'.Perm things ∧ things'.map f = out := by
  have images : List.Forall₂ (fun image thing => image = f thing) (things.map f) things := by
    rw [← List.forall₂_map_right_iff, List.forall₂_eq_eq_eq]
  obtain ⟨things', same, perm⟩ := List.perm_comp_forall₂ perm images
  rw [← List.forall₂_map_right_iff, List.forall₂_eq_eq_eq] at same
  exact ⟨things', perm, same.symm⟩

/-- A permutation lists the things at all places, each of which comes once. -/
theorem exists_places (perm : out.Perm items) : ∃ places : List (α × Nat),
    places.map (·.1) = out ∧ (places.map (·.2)).Perm (List.range items.length) ∧
      ∀ place ∈ places, items[place.2]? = some place.1 := by
  rw [← List.zipIdx_map_fst 0 items] at perm
  obtain ⟨places, perm, listed⟩ := exists_perm_of_map perm
  refine ⟨places, listed, ?_, fun place member => ?_⟩
  · have all := perm.map (·.2)
    rwa [List.zipIdx_map_snd, ← List.range_eq_range'] at all
  · exact List.mem_zipIdx_iff_getElem?.mp (perm.mem_iff.mp member)

/-- What is put out is sorted. -/
theorem sorted_of_order_eq_ok (ordered : order declares refersTo items = .ok out) :
    Sorted declares refersTo out := by
  obtain ⟨places, greedy, perm, listed⟩ := order_greedy ordered
  have distinct : places.Nodup := perm.nodup_iff.mpr List.nodup_range
  have after := (greedy.isOrder perm).after.and distinct
  have pairwise : (places.map (items[·]?)).Pairwise fun earlier later => ∀ item other,
      earlier = some item → later = some other →
        ¬ ∃ name ∈ declares other, refersTo item name = true := by
    refine List.pairwise_map.mpr (after.imp fun {i j} ⟨free, apart⟩ item other here there needs => ?_)
    exact free ⟨apart, item, other, here, there, needs⟩
  rw [← listed, List.pairwise_map] at pairwise
  exact pairwise.imp fun both => both _ _ rfl rfl

/-- Things that some list shows sorted have an order. -/
theorem exists_order_of_sorted (perm : out.Perm items) (sorted : Sorted declares refersTo out) :
    ∃ out', order declares refersTo items = .ok out' := by
  obtain ⟨places, rfl, perm, given⟩ := exists_places perm
  refine exists_order_eq_ok ⟨perm, List.pairwise_map.mpr ?_⟩
  refine (List.pairwise_map.mp sorted).imp_of_mem fun {place place'} member member' free needs => ?_
  obtain ⟨-, item, other, here, there, needs⟩ := needs
  cases here.symm.trans (given place member)
  cases there.symm.trans (given place' member')
  exact free needs

end PackageCheck.Dependency
