import Mathlib.Data.Fintype.Pigeonhole
import Mathlib.Logic.Relation
import PackageCheck.Proofs.Dependency.Order

/-! # Cycles among things

There is no order exactly if some things need each other in a cycle. The things left over are then
those from which a cycle can be reached, the things on it included: a thing is emitted once all it
needs has been, so it cannot lead to a cycle, and what is left waits for something else that is
left, which goes on until a place comes up again. -/

namespace PackageCheck.Dependency

open Relation

variable {α : Type u} (declares : α → List String) (refersTo : α → String → Bool)

/-- Whether the thing at a place needs itself through others. -/
def OnCycle (items : List α) (place : Nat) : Prop :=
  TransGen (Needs declares refersTo items) place place

/-- Whether a cycle can be reached from a place. -/
def LeadsToCycle (items : List α) (place : Nat) : Prop :=
  ∃ other, ReflTransGen (Needs declares refersTo items) place other ∧
    OnCycle declares refersTo items other

open Classical in
/-- The names declared by the things that lead to a cycle, in the order in which the things are
    given. -/
noncomputable def cyclicNames (items : List α) : List String :=
  (items.zipIdx.filter fun (_, place) => LeadsToCycle declares refersTo items place).flatMap
    fun (item, _) => declares item

variable {declares refersTo} {items : List α}

/-- A thing leads to a cycle through one of the things that it needs. -/
theorem LeadsToCycle.exists_needs {place : Nat} (leads : LeadsToCycle declares refersTo items place) :
    ∃ next, Needs declares refersTo items place next ∧
      LeadsToCycle declares refersTo items next := by
  obtain ⟨other, path, cycle⟩ := leads
  rcases path.cases_head with rfl | ⟨next, needed, further⟩
  · obtain ⟨next, needed, back⟩ := TransGen.head'_iff.mp cycle
    exact ⟨next, needed, place, back, cycle⟩
  · exact ⟨next, needed, other, further, cycle⟩

/-- Where every place needs another one of a finite list, all of them lead to a cycle. -/
theorem leadsToCycle_of_stuck {places : List Nat}
    (stuck : ∀ i ∈ places, ∃ j ∈ places, Needs declares refersTo items i j) :
    ∀ i ∈ places, LeadsToCycle declares refersTo items i := by
  intro i member
  choose! next listed needed using stuck
  have inside : ∀ k, next^[k] i ∈ places := by
    intro k
    induction k with
    | zero => exact member
    | succ k ih =>
      rw [Function.iterate_succ_apply']
      exact listed _ ih
  have step : ∀ k, Needs declares refersTo items (next^[k] i) (next^[k + 1] i) := by
    intro k
    rw [Function.iterate_succ_apply']
    exact needed _ (inside k)
  have path : ∀ k d, ReflTransGen (Needs declares refersTo items) (next^[k] i) (next^[k + d] i) := by
    intro k d
    induction d with
    | zero => exact .refl
    | succ d ih => exact ih.tail (step (k + d))
  have cycle : ∀ k l, k < l → next^[k] i = next^[l] i →
      LeadsToCycle declares refersTo items i := by
    intro k l less again
    obtain ⟨d, rfl⟩ := Nat.exists_eq_add_of_lt less
    have back := TransGen.tail' (path k d) (step (k + d))
    rw [← again] at back
    exact ⟨next^[k] i, by simpa using path 0 k, back⟩
  -- The list is finite, so some place comes up twice among the successors of the first one.
  obtain ⟨k, l, ne, again⟩ := Finite.exists_ne_map_eq_of_infinite
    fun k : Nat => (⟨next^[k] i, inside k⟩ : {j // j ∈ places})
  have again : next^[k] i = next^[l] i := congrArg Subtype.val again
  rcases Nat.lt_or_gt_of_ne ne with less | less
  · exact cycle k l less again
  · exact cycle l k less again.symm

/-! ## Things left over -/

/-- What holds once the places in `done` have been emitted and some things are pending: no place
    has been lost, and no emitted one leads to a cycle. -/
structure Emitted (declares : α → List String) (refersTo : α → String → Bool) (items : List α)
    (done : List Nat) (pending : List (Pending α)) : Prop where
  tracks : Tracks declares refersTo items done pending
  cover : ∀ i < items.length, i ∈ done ∨ i ∈ pending.map (·.place)
  acyclic : ∀ i ∈ done, ¬ LeadsToCycle declares refersTo items i

variable {done : List Nat} {pending : List (Pending α)}

theorem emitted_pendingAll (items : List α) :
    Emitted declares refersTo items [] (pendingAll declares refersTo items) where
  tracks := tracks_pendingAll items
  cover i bound := Or.inr (by simpa [place_pendingAll] using bound)
  acyclic := nofun

/-- A round keeps what holds between rounds. -/
theorem Emitted.strike {before behind : List (Pending α)} {ready : Pending α}
    (emitted : Emitted declares refersTo items done (before ++ ready :: behind))
    (free : ready.waitsFor = []) :
    Emitted declares refersTo items (ready.place :: done)
      (Dependency.strike ready.place (before ++ behind)) where
  tracks := emitted.tracks.strike
  cover i bound := by
    rw [place_strike]
    have covered := emitted.cover i bound
    simp only [List.map_append, List.map_cons, List.mem_append, List.mem_cons] at covered ⊢
    rcases covered with done | inBefore | rfl | inBehind
    · exact Or.inl (Or.inr done)
    · exact Or.inr (Or.inl inBefore)
    · exact Or.inl (Or.inl rfl)
    · exact Or.inr (Or.inr inBehind)
  acyclic := by
    intro i member leads
    rcases List.mem_cons.mp member with rfl | member
    · obtain ⟨next, needed, further⟩ := leads.exists_needs
      have waits := (emitted.tracks.waits ready (by simp) next).not
      simp only [free, List.not_mem_nil, not_false_eq_true, needed, true_and, Decidable.not_not,
        true_iff] at waits
      exact emitted.acyclic next waits further
    · exact emitted.acyclic i member leads

/-- Rounds end with things left over that each wait for another one of them. -/
theorem Emitted.rounds : ∀ {count : Nat} {done : List Nat} {pending : List (Pending α)},
    Emitted declares refersTo items done pending → pending.length ≤ count →
      ∃ done', Emitted declares refersTo items done' (rounds count pending).2 ∧
        ∀ p ∈ (Dependency.rounds count pending).2, p.waitsFor ≠ []
  | 0, done, pending, emitted, short => by
    obtain rfl := List.eq_nil_of_length_eq_zero (Nat.le_zero.mp short)
    exact ⟨done, emitted, nofun⟩
  | count + 1, done, pending, emitted, short => by
    simp only [Dependency.rounds]
    cases taken : takeReady? pending with
    | none => exact ⟨done, emitted, takeReady?_eq_none taken⟩
    | some result =>
      obtain ⟨ready, others⟩ := result
      obtain ⟨before, behind, rfl, rfl, free, -⟩ := takeReady?_eq_some taken
      refine (emitted.strike free).rounds ?_
      simp only [Dependency.strike, List.length_map, List.length_append, List.length_cons] at short ⊢
      omega

/-- The places left over are those that lead to a cycle. -/
theorem Emitted.left (emitted : Emitted declares refersTo items done pending)
    (waiting : ∀ p ∈ pending, p.waitsFor ≠ []) {i : Nat} (bound : i < items.length) :
    i ∈ pending.map (·.place) ↔ LeadsToCycle declares refersTo items i := by
  constructor
  · refine leadsToCycle_of_stuck (fun i member => ?_) i
    obtain ⟨p, listed, rfl⟩ := List.mem_map.mp member
    obtain ⟨j, waits⟩ := List.exists_mem_of_ne_nil _ (waiting p listed)
    obtain ⟨needed, notDone⟩ := (emitted.tracks.waits p listed j).mp waits
    exact ⟨j, (emitted.cover j needed.lt).resolve_left notDone, needed⟩
  · intro leads
    exact (emitted.cover i bound).resolve_left fun done => emitted.acyclic i done leads

/-! ## Errors -/

theorem ascending_zipIdx (items : List α) : items.zipIdx.Pairwise fun x y => x.2 < y.2 := by
  refine List.pairwise_map.mp ?_
  rw [List.zipIdx_map_snd]
  exact List.pairwise_lt_range'

/-- The things left over are those that lead to a cycle, in the order in which they are given. -/
theorem Emitted.flatMap_left (emitted : Emitted declares refersTo items done pending)
    (waiting : ∀ p ∈ pending, p.waitsFor ≠ []) :
    pending.flatMap (fun p => declares p.item) = cyclicNames declares refersTo items := by
  classical
  have listed : pending.map (fun p => (p.item, p.place)) =
      items.zipIdx.filter fun (_, place) => LeadsToCycle declares refersTo items place := by
    have ascending : (pending.map fun p => (p.item, p.place)).Pairwise fun x y => x.2 < y.2 :=
      List.pairwise_map.mpr emitted.tracks.ascending
    have ascending' := (ascending_zipIdx items).filter
      fun (_, place) => LeadsToCycle declares refersTo items place
    have : Std.Irrefl fun x y : α × Nat => x.2 < y.2 := ⟨fun x => Nat.lt_irrefl x.2⟩
    refine List.Perm.eq_of_pairwise (fun x y _ _ less less' => ?_) ascending ascending'
      ((List.perm_ext_iff_of_nodup ascending.nodup ascending'.nodup).mpr ?_)
    · exact absurd less' (Nat.lt_asymm less)
    · rintro ⟨item, place⟩
      simp only [List.mem_map, Prod.mk.injEq, List.mem_filter, List.mem_zipIdx_iff_getElem?,
        decide_eq_true_eq]
      constructor
      · rintro ⟨p, member, rfl, rfl⟩
        have given := emitted.tracks.item p member
        have bound := (List.getElem?_eq_some_iff.mp given).1
        exact ⟨given, (emitted.left waiting bound).mp (List.mem_map_of_mem member)⟩
      · rintro ⟨given, leads⟩
        have bound := (List.getElem?_eq_some_iff.mp given).1
        obtain ⟨p, member, rfl⟩ := List.mem_map.mp ((emitted.left waiting bound).mpr leads)
        exact ⟨p, member, Option.some.inj ((emitted.tracks.item p member).symm.trans given), rfl⟩
  rw [cyclicNames, ← listed, List.flatMap_map]

/-- Where a cycle is there are things that lead to one. -/
theorem OnCycle.leads {place : Nat} (cycle : OnCycle declares refersTo items place) :
    place < items.length ∧ LeadsToCycle declares refersTo items place := by
  obtain ⟨before, -, needed⟩ := TransGen.tail'_iff.mp cycle
  exact ⟨needed.lt, place, .refl, cycle⟩

/-- Things have no order exactly if some of them are on a cycle, and the error then holds the names
    declared by the things that lead to a cycle, in the order in which the things are given. -/
theorem order_eq_error_iff_cycle (declares : α → List String) (refersTo : α → String → Bool)
    (items : List α) (names : List String) :
    order declares refersTo items = .error names ↔
      (∃ place, OnCycle declares refersTo items place) ∧
        names = cyclicNames declares refersTo items := by
  have count : (pendingAll declares refersTo items).length ≤ items.length := by simp [pendingAll]
  obtain ⟨done, emitted, waiting⟩ := (emitted_pendingAll items).rounds count
  have names_eq := emitted.flatMap_left waiting
  simp only [order]
  split
  case h_1 rounded =>
    -- Nothing is left over, so nothing leads to a cycle.
    rw [rounded] at emitted
    constructor
    · intro failed
      cases failed
    rintro ⟨⟨place, cycle⟩, -⟩
    obtain ⟨bound, leads⟩ := cycle.leads
    have member := (emitted.left (List.forall_mem_nil _) bound).mpr leads
    cases member
  case h_2 left full rounded =>
    rw [rounded] at emitted waiting names_eq
    obtain ⟨p, member⟩ := List.exists_mem_of_ne_nil left full
    have bound := (List.getElem?_eq_some_iff.mp (emitted.tracks.item p member)).1
    obtain ⟨place, -, cycle⟩ := (emitted.left waiting bound).mp (List.mem_map_of_mem member)
    rw [Except.error.injEq, names_eq, eq_comm]
    exact (and_iff_right ⟨place, cycle⟩).symm

/-- Two things that need each other are a cycle, which a third one leads to. -/
example : order Prod.fst (fun item name => item.2.contains name)
    [(["a", "aa"], ["b"]), (["b"], ["a"]), (["d"], []), (["c"], ["aa", "d"])] =
      .error ["a", "aa", "b", "c"] := rfl

end PackageCheck.Dependency
