import PackageCheck.Dependency.Order

/-! # The dependency order

What `order` puts out is an order: every thing comes after the things it needs. Among all orders
it is the one that comes first when orders are compared place by place.

The rounds are a greedy choice: of the things whose needs are met, the next one is always the one
given first. `Greedy` says this without the lists that the rounds keep. A greedy choice is an order
(`Greedy.pairwise`), and no other order comes before it (`Greedy.notAfter`). -/

namespace PackageCheck.Dependency

variable {α : Type u} (declares : α → List String) (refersTo : α → String → Bool)

/-- Whether the thing at place `i` needs the one at place `j`, which is another one and declares a
    name that the first refers to. -/
def Needs (items : List α) (i j : Nat) : Prop :=
  i ≠ j ∧ ∃ item other, items[i]? = some item ∧ items[j]? = some other ∧
    ∃ name ∈ declares other, refersTo item name = true

/-- An order of all places in which no place comes before one that it needs. -/
structure IsOrder (items : List α) (places : List Nat) : Prop where
  perm : places.Perm (List.range items.length)
  after : places.Pairwise fun earlier later => ¬ Needs declares refersTo items earlier later

/-- Whether a list of places is the same as another one, or has the lesser place where the two
    first differ. -/
def NotAfter (places other : List Nat) : Prop :=
  places = other ∨ List.Lex (· < ·) places other

theorem lex_asymm : ∀ {places other : List Nat}, List.Lex (· < ·) places other →
    ¬ List.Lex (· < ·) other places
  | _, _, .rel less, .rel less' => by omega
  | _, _, .rel less, .cons _ => Nat.lt_irrefl _ less
  | _, _, .cons _, .rel less => Nat.lt_irrefl _ less
  | _, _, .cons first, .cons second => lex_asymm first second

theorem NotAfter.antisymm {places other : List Nat} (first : NotAfter places other)
    (second : NotAfter other places) : places = other := by
  rcases first with same | less
  · exact same
  · rcases second with same | less'
    · exact same.symm
    · exact absurd less' (lex_asymm less)

theorem NotAfter.cons {rest others : List Nat} (first : Nat) (ordered : NotAfter rest others) :
    NotAfter (first :: rest) (first :: others) := by
  rcases ordered with rfl | less
  · exact Or.inl rfl
  · exact Or.inr (.cons less)

/-! ## Greedy choices -/

/-- Each place has all it needs among those `done` before it, and is the least one behind which
    that holds. -/
def Greedy (needs : Nat → Nat → Prop) : List Nat → List Nat → Prop
  | _, [] => True
  | done, place :: rest =>
    (∀ j, needs place j → j ∈ done) ∧
    (∀ later ∈ rest, (∀ j, needs later j → j ∈ done) → place < later) ∧
    Greedy needs (place :: done) rest

section Greedy

variable {needs : Nat → Nat → Prop}

/-- No place of a greedy choice needs one behind it. -/
theorem Greedy.pairwise : ∀ {done places : List Nat}, Greedy needs done places →
    places.Nodup → (∀ place ∈ places, place ∉ done) →
    places.Pairwise fun earlier later => ¬ needs earlier later
  | _, [], _, _, _ => .nil
  | done, place :: rest, greedy, nodup, fresh => by
    obtain ⟨ready, _, tail⟩ := greedy
    obtain ⟨notMem, nodup⟩ := List.nodup_cons.mp nodup
    refine List.pairwise_cons.mpr ⟨?_, tail.pairwise nodup ?_⟩
    · intro later member needed
      exact fresh later (List.mem_cons_of_mem _ member) (ready later needed)
    · intro later member done
      rcases List.mem_cons.mp done with rfl | done
      · exact notMem member
      · exact fresh later (List.mem_cons_of_mem _ member) done

/-- A greedy choice comes before every other way to put its places into an order. -/
theorem Greedy.notAfter (irreflexive : ∀ i, ¬ needs i i) :
    ∀ {done places other : List Nat}, Greedy needs done places → other.Perm places →
      other.Pairwise (fun earlier later => ¬ needs earlier later) →
      (∀ i ∈ places, ∀ j, needs i j → j ∈ done ∨ j ∈ places) → NotAfter places other
  | _, [], other, _, perm, _, _ => by
    exact Or.inl (List.perm_nil.mp perm).symm
  | done, place :: rest, [], _, perm, _, _ => by
    exact absurd perm.symm (by simp)
  | done, place :: rest, first :: others, greedy, perm, ordered, closed => by
    obtain ⟨_, least, tail⟩ := greedy
    obtain ⟨firstOrdered, ordered⟩ := List.pairwise_cons.mp ordered
    have member : first ∈ place :: rest := perm.mem_iff.mp List.mem_cons_self
    have ready : ∀ j, needs first j → j ∈ done := by
      intro j needed
      rcases closed first member j needed with met | pending
      · exact met
      · rcases List.mem_cons.mp (perm.mem_iff.mpr pending) with rfl | later
        · exact absurd needed (irreflexive _)
        · exact absurd needed (firstOrdered j later)
    by_cases same : first = place
    · subst same
      refine .cons first (tail.notAfter irreflexive (List.Perm.cons_inv perm) ordered ?_)
      intro i memberI j needed
      rcases closed i (List.mem_cons_of_mem _ memberI) j needed with met | pending
      · exact Or.inl (List.mem_cons_of_mem _ met)
      · rcases List.mem_cons.mp pending with rfl | later
        · exact Or.inl List.mem_cons_self
        · exact Or.inr later
    · have later : first ∈ rest := (List.mem_cons.mp member).resolve_left same
      exact Or.inr (.rel (least first later ready))

/-- Of the places whose needs are met at some point of a greedy choice, the least one is next. -/
theorem Greedy.earliest : ∀ {done places before : List Nat} {place : Nat} {behind : List Nat},
    Greedy needs done places → places = before ++ place :: behind → ∀ later ∈ behind,
      (∀ j, needs later j → j ∈ done ∨ j ∈ before) → place < later
  | done, _, [], place, behind, greedy, rfl, later, member, met => by
    obtain ⟨_, least, _⟩ := greedy
    exact least later member fun j needed => (met j needed).resolve_right (by simp)
  | done, _, first :: before, place, behind, greedy, rfl, later, member, met => by
    obtain ⟨_, _, tail⟩ := greedy
    refine tail.earliest rfl later member ?_
    intro j needed
    rcases met j needed with inDone | inBefore
    · exact Or.inl (List.mem_cons_of_mem _ inDone)
    · rcases List.mem_cons.mp inBefore with rfl | inBefore
      · exact Or.inl List.mem_cons_self
      · exact Or.inr inBefore

/-- Where nothing needs anything, the ascending list is a greedy choice. -/
theorem greedy_of_ascending : ∀ {done places : List Nat}, places.Pairwise (· < ·) →
    Greedy (fun _ _ => False) done places
  | _, [], _ => trivial
  | _, place :: rest, ascending => by
    obtain ⟨first, ascending⟩ := List.pairwise_cons.mp ascending
    exact ⟨fun _ needed => needed.elim, fun later member _ => first later member,
      greedy_of_ascending ascending⟩

/-- The ascending list of the first `n` numbers comes before all its permutations. -/
theorem range_notAfter_of_perm {n : Nat} {places : List Nat}
    (perm : places.Perm (List.range n)) : NotAfter (List.range n) places :=
  (greedy_of_ascending List.pairwise_lt_range : Greedy _ [] _).notAfter (fun _ => id) perm
    (List.pairwise_of_forall fun _ _ => id) (fun _ _ _ => False.elim)

end Greedy

/-! ## Rounds -/

/-- What holds of the things still pending once the places in `done` have been emitted. -/
structure Tracks (items : List α) (done : List Nat) (pending : List (Pending α)) : Prop where
  ascending : pending.Pairwise fun p q => p.place < q.place
  item : ∀ p ∈ pending, items[p.place]? = some p.item
  waits : ∀ p ∈ pending, ∀ j,
    j ∈ p.waitsFor ↔ Needs declares refersTo items p.place j ∧ j ∉ done
  fresh : ∀ p ∈ pending, p.place ∉ done

variable {declares refersTo}

theorem Needs.lt {items : List α} {i j : Nat} (needed : Needs declares refersTo items i j) :
    j < items.length := by
  obtain ⟨_, _, _, _, there, _⟩ := needed
  exact (List.getElem?_eq_some_iff.mp there).1

theorem mem_dependencies {items : List α} {place : Nat} {item : α}
    (here : items[place]? = some item) (j : Nat) :
    j ∈ dependencies declares refersTo items place item ↔
      Needs declares refersTo items place j := by
  simp only [dependencies, List.mem_filterMap, Prod.exists, List.mem_zipIdx_iff_getElem?,
    Option.ite_none_right_eq_some, Option.some.injEq, List.any_eq_true, Needs]
  constructor
  · rintro ⟨other, i, there, ⟨distinct, name, declared, refers⟩, rfl⟩
    exact ⟨Ne.symm distinct, item, other, here, there, name, declared, refers⟩
  · rintro ⟨distinct, item', other, here', there, name, declared, refers⟩
    obtain rfl : item = item' := Option.some.inj (here.symm.trans here')
    exact ⟨other, j, there, ⟨Ne.symm distinct, name, declared, refers⟩, rfl⟩

/-- The places of all things, from the first to the last. -/
theorem place_pendingAll (items : List α) :
    (pendingAll declares refersTo items).map (·.place) = List.range items.length := by
  rw [pendingAll, List.map_map]
  exact List.zipIdx_map_snd 0 items |>.trans (List.range_eq_range' ..).symm

theorem tracks_pendingAll (items : List α) :
    Tracks declares refersTo items [] (pendingAll declares refersTo items) where
  ascending := by
    have sorted : ((pendingAll declares refersTo items).map (·.place)).Pairwise (· < ·) := by
      rw [place_pendingAll]
      exact List.pairwise_lt_range
    exact List.pairwise_map.mp sorted
  item := by
    intro p member
    obtain ⟨⟨item, place⟩, here, rfl⟩ := List.mem_map.mp member
    exact List.mem_zipIdx_iff_getElem?.mp here
  waits := by
    intro p member j
    obtain ⟨⟨item, place⟩, here, rfl⟩ := List.mem_map.mp member
    simp [mem_dependencies (List.mem_zipIdx_iff_getElem?.mp here)]
  fresh := by simp

/-- Striking a place takes no thing away. -/
theorem place_strike (place : Nat) (pending : List (Pending α)) :
    (strike place pending).map (·.place) = pending.map (·.place) := by
  rw [strike, List.map_map]
  rfl

/-- A round takes the first thing that waits for nothing. -/
theorem takeReady?_eq_some {ready : Pending α} : ∀ {pending others : List (Pending α)},
    takeReady? pending = some (ready, others) →
      ∃ before behind, pending = before ++ ready :: behind ∧ others = before ++ behind ∧
        ready.waitsFor = [] ∧ ∀ p ∈ before, p.waitsFor ≠ []
  | [], _, taken => by simp [takeReady?] at taken
  | p :: rest, others, taken => by
    simp only [takeReady?] at taken
    split at taken
    next free =>
      simp only [Option.some.injEq, Prod.mk.injEq] at taken
      obtain ⟨rfl, rfl⟩ := taken
      exact ⟨[], rest, rfl, rfl, List.isEmpty_iff.mp free, by simp⟩
    next busy =>
      obtain ⟨⟨ready', others'⟩, takenBehind, equal⟩ := Option.map_eq_some_iff.mp taken
      obtain ⟨rfl, rfl⟩ := Prod.mk.inj equal
      obtain ⟨before, behind, rfl, rfl, free, waiting⟩ := takeReady?_eq_some takenBehind
      refine ⟨p :: before, behind, rfl, rfl, free, ?_⟩
      intro q member
      rcases List.mem_cons.mp member with rfl | member
      · exact fun empty => busy (List.isEmpty_iff.mpr empty)
      · exact waiting q member

/-- There is no further round if all things wait for something. -/
theorem takeReady?_eq_none : ∀ {pending : List (Pending α)},
    takeReady? pending = none → ∀ p ∈ pending, p.waitsFor ≠ []
  | [], _, _, member => by simp at member
  | p :: rest, stuck, q, member => by
    simp only [takeReady?] at stuck
    split at stuck
    next => simp at stuck
    next busy =>
      rcases List.mem_cons.mp member with rfl | member
      · exact fun empty => busy (List.isEmpty_iff.mpr empty)
      · exact takeReady?_eq_none (Option.map_eq_none_iff.mp stuck) q member

section Round

variable {items : List α} {done : List Nat} {pending before behind : List (Pending α)}
  {ready : Pending α}

/-- What holds of the pending things holds of those left over by a round. -/
theorem Tracks.strike (tracks : Tracks declares refersTo items done (before ++ ready :: behind)) :
    Tracks declares refersTo items (ready.place :: done)
      (Dependency.strike ready.place (before ++ behind)) := by
  have sublist : (before ++ behind).Sublist (before ++ ready :: behind) :=
    List.Sublist.append_left (List.sublist_cons_self ready behind) before
  have origin : ∀ q ∈ Dependency.strike ready.place (before ++ behind), ∃ p ∈ before ++ behind,
      q = { p with waitsFor := p.waitsFor.filter (· ≠ ready.place) } := by
    intro q member
    obtain ⟨p, memberP, rfl⟩ := List.mem_map.mp member
    exact ⟨p, memberP, rfl⟩
  refine ⟨List.pairwise_map.mpr (tracks.ascending.sublist sublist), ?_, ?_, ?_⟩
  · intro q member
    obtain ⟨p, memberP, rfl⟩ := origin q member
    exact tracks.item p (sublist.mem memberP)
  · intro q member j
    obtain ⟨p, memberP, rfl⟩ := origin q member
    simp only [List.mem_filter, tracks.waits p (sublist.mem memberP), List.mem_cons, not_or,
      decide_eq_true_eq]
    constructor
    · rintro ⟨⟨needed, notDone⟩, distinct⟩
      exact ⟨needed, distinct, notDone⟩
    · rintro ⟨needed, distinct, notDone⟩
      exact ⟨⟨needed, notDone⟩, distinct⟩
  · intro q member done
    obtain ⟨p, memberP, rfl⟩ := origin q member
    rcases List.mem_cons.mp done with same | done
    · have apart := tracks.ascending
      rw [List.pairwise_append] at apart
      obtain ⟨_, behindApart, acrossApart⟩ := apart
      rcases List.mem_append.mp memberP with inBefore | inBehind
      · have := acrossApart p inBefore ready List.mem_cons_self
        simp only at same
        omega
      · have := (List.pairwise_cons.mp behindApart).1 p inBehind
        simp only at same
        omega
    · exact tracks.fresh p (sublist.mem memberP) done

/-- The thing that a round takes has all it needs, and no other thing of which that holds was given
    before it. -/
theorem Tracks.taken (tracks : Tracks declares refersTo items done (before ++ ready :: behind))
    (free : ready.waitsFor = []) (waiting : ∀ p ∈ before, p.waitsFor ≠ []) :
    (∀ j, Needs declares refersTo items ready.place j → j ∈ done) ∧
      ∀ p ∈ before ++ behind, (∀ j, Needs declares refersTo items p.place j → j ∈ done) →
        ready.place < p.place := by
  have met : ∀ p ∈ before ++ ready :: behind,
      p.waitsFor = [] ↔ ∀ j, Needs declares refersTo items p.place j → j ∈ done := by
    intro p member
    rw [List.eq_nil_iff_forall_not_mem]
    simp only [tracks.waits p member, not_and, Decidable.not_not]
  refine ⟨(met ready (by simp)).mp free, ?_⟩
  intro p member allMet
  rcases List.mem_append.mp member with inBefore | inBehind
  · exact absurd ((met p (List.mem_append_left _ inBefore)).mpr allMet) (waiting p inBefore)
  · have ascending := (List.pairwise_append.mp tracks.ascending).2.1
    exact (List.pairwise_cons.mp ascending).1 p inBehind

end Round

/-- Rounds that leave nothing over are a greedy choice among all places. -/
theorem rounds_greedy {items : List α} : ∀ {count : Nat} {done : List Nat}
    {pending emitted : List (Pending α)}, Tracks declares refersTo items done pending →
      rounds count pending = (emitted, []) →
      Greedy (Needs declares refersTo items) done (emitted.map (·.place)) ∧
        (emitted.map (·.place)).Perm (pending.map (·.place)) ∧
        ∀ p ∈ emitted, items[p.place]? = some p.item
  | 0, done, pending, emitted, _, h => by
    simp only [rounds, Prod.mk.injEq] at h
    obtain ⟨rfl, rfl⟩ := h
    exact ⟨trivial, .refl _, by simp⟩
  | count + 1, done, pending, emitted, tracks, h => by
    simp only [rounds] at h
    cases taken : takeReady? pending with
    | none =>
      simp only [taken, Prod.mk.injEq] at h
      obtain ⟨rfl, rfl⟩ := h
      exact ⟨trivial, .refl _, by simp⟩
    | some result =>
      obtain ⟨ready, others⟩ := result
      simp only [taken, Prod.mk.injEq] at h
      obtain ⟨rfl, leftNil⟩ := h
      obtain ⟨before, behind, rfl, rfl, free, waiting⟩ := takeReady?_eq_some taken
      obtain ⟨greedy, perm, item⟩ := rounds_greedy tracks.strike
        (show _ = (_, []) from Prod.ext rfl leftNil)
      obtain ⟨met, least⟩ := tracks.taken free waiting
      rw [place_strike] at perm
      refine ⟨⟨met, ?_, greedy⟩, ?_, ?_⟩
      · intro later member allMet
        obtain ⟨p, memberP, rfl⟩ := List.mem_map.mp (perm.mem_iff.mp member)
        exact least p memberP allMet
      · simp only [List.map_cons, List.map_append] at perm ⊢
        exact (perm.cons ready.place).trans List.perm_middle.symm
      · intro p member
        rcases List.mem_cons.mp member with rfl | member
        · exact tracks.item _ (by simp)
        · exact item p member

/-- Nothing is left over by as many rounds as there are things if the things have an order. -/
theorem rounds_left_nil {items : List α} {places : List Nat}
    (order : IsOrder declares refersTo items places) : ∀ {count : Nat} {done : List Nat}
    {pending : List (Pending α)}, Tracks declares refersTo items done pending →
      pending.length ≤ count → (∀ i < items.length, i ∈ done ∨ i ∈ pending.map (·.place)) →
      (rounds count pending).2 = []
  | 0, _, pending, _, short, _ => by
    rw [List.eq_nil_of_length_eq_zero (Nat.le_zero.mp short)]
    rfl
  | count + 1, done, pending, tracks, short, cover => by
    simp only [rounds]
    cases taken : takeReady? pending with
    | some result =>
      obtain ⟨ready, others⟩ := result
      obtain ⟨before, behind, rfl, rfl, free, waiting⟩ := takeReady?_eq_some taken
      simp only
      refine rounds_left_nil order tracks.strike ?_ ?_
      · simp only [strike, List.length_map, List.length_append, List.length_cons] at short ⊢
        omega
      · intro i bound
        rcases cover i bound with met | pending
        · exact Or.inl (List.mem_cons_of_mem _ met)
        · rw [place_strike]
          simp only [List.map_append, List.map_cons, List.mem_append, List.mem_cons] at pending ⊢
          rcases pending with h | rfl | h
          · exact Or.inr (Or.inl h)
          · exact Or.inl (Or.inl rfl)
          · exact Or.inr (Or.inr h)
    | none =>
      -- The first pending place in the order would have to wait for one before it.
      have waiting := takeReady?_eq_none taken
      cases found : places.find? (· ∈ pending.map (·.place)) with
      | none =>
        cases pending with
        | nil => rfl
        | cons p rest =>
          have bound : p.place < items.length :=
            (List.getElem?_eq_some_iff.mp (tracks.item p List.mem_cons_self)).1
          have member : p.place ∈ places :=
            order.perm.mem_iff.mpr (List.mem_range.mpr bound)
          simpa using List.find?_eq_none.mp found p.place member
      | some i =>
        obtain ⟨isPending, earlier, later, rfl, notBefore⟩ := List.find?_eq_some_iff_append.mp found
        obtain ⟨p, member, rfl⟩ := List.mem_map.mp (of_decide_eq_true isPending)
        obtain ⟨j, waits⟩ := List.exists_mem_of_ne_nil _ (waiting p member)
        obtain ⟨needed, notDone⟩ := (tracks.waits p member j).mp waits
        have pendingJ := (cover j needed.lt).resolve_left notDone
        have memberJ := order.perm.mem_iff.mpr (List.mem_range.mpr needed.lt)
        rcases List.mem_append.mp memberJ with inEarlier | inLater
        · have := notBefore j inEarlier
          simp [pendingJ] at this
        · rcases List.mem_cons.mp inLater with same | inLater
          · exact absurd same.symm needed.1
          · have behind := (List.pairwise_append.mp order.after).2.1
            exact absurd needed ((List.pairwise_cons.mp behind).1 j inLater)

/-! ## Orders -/

/-- `out` lists the things at the given places, which are an order and come before all other
    orders. -/
structure IsLeastOrder (declares : α → List String) (refersTo : α → String → Bool)
    (items out : List α) (places : List Nat) : Prop where
  isOrder : IsOrder declares refersTo items places
  map_eq : out.map some = places.map (items[·]?)
  perm : out.Perm items
  notAfter : ∀ other, IsOrder declares refersTo items other → NotAfter places other
  /-- Of the things whose needs are met at some point, the one given first is next. -/
  earliest : ∀ before place behind, places = before ++ place :: behind → ∀ later ∈ behind,
    (∀ j, Needs declares refersTo items later j → j ∈ before) → place < later
  /-- Things given in an order stay as they are. -/
  unchanged : IsOrder declares refersTo items (List.range items.length) → out = items

/-- The things put out are those at the places of a greedy choice among all places. -/
theorem order_greedy {items out : List α} (h : order declares refersTo items = .ok out) :
    ∃ places, Greedy (Needs declares refersTo items) [] places ∧
      places.Perm (List.range items.length) ∧ out.map some = places.map (items[·]?) := by
  simp only [order] at h
  split at h
  next emitted rounded =>
    obtain ⟨greedy, perm, item⟩ := rounds_greedy (tracks_pendingAll items) rounded
    rw [place_pendingAll] at perm
    refine ⟨emitted.map (·.place), greedy, perm, ?_⟩
    rw [← Except.ok.inj h, List.map_map, List.map_map]
    exact List.map_congr_left fun p member => (item p member).symm
  next => cases h

theorem map_getElem?_range (items : List α) :
    (List.range items.length).map (items[·]?) = items.map some := by
  apply List.ext_getElem?
  intro i
  by_cases bound : i < items.length
  · simp [bound]
  · simp [Nat.not_lt.mp bound]

theorem Greedy.isOrder {items : List α} {places : List Nat}
    (greedy : Greedy (Needs declares refersTo items) [] places)
    (perm : places.Perm (List.range items.length)) : IsOrder declares refersTo items places :=
  ⟨perm, greedy.pairwise (perm.nodup_iff.mpr List.nodup_range) (by simp)⟩

/-- What is put out is the first of all orders. -/
theorem isLeastOrder_of_order_eq_ok {items out : List α}
    (h : order declares refersTo items = .ok out) :
    ∃ places, IsLeastOrder declares refersTo items out places := by
  obtain ⟨places, greedy, perm, mapEq⟩ := order_greedy h
  have least : ∀ other, IsOrder declares refersTo items other → NotAfter places other := by
    intro other isOrder
    refine greedy.notAfter (fun _ needed => needed.1 rfl) (isOrder.perm.trans perm.symm)
      isOrder.after ?_
    intro i _ j needed
    exact Or.inr (perm.mem_iff.mpr (List.mem_range.mpr needed.lt))
  refine ⟨places, greedy.isOrder perm, mapEq, ?_, least, ?_, ?_⟩
  · have permSome : (out.map some).Perm (items.map some) := by
      rw [mapEq, ← map_getElem?_range]
      exact perm.map _
    simpa using permSome.filterMap id
  · intro before place behind equal later member met
    exact greedy.earliest equal later member fun j needed => Or.inr (met j needed)
  · intro isOrder
    have places_eq : places = List.range items.length :=
      (least _ isOrder).antisymm (range_notAfter_of_perm perm)
    rw [places_eq, map_getElem?_range] at mapEq
    exact (List.map_inj_right fun _ _ => Option.some.inj).mp mapEq

/-- Three things, of which the first needs the other two and these share a name: the second and the
    third stay in the order given, and the first comes behind them. -/
theorem isLeastOrder_shared_name :
    order Prod.fst (fun item name => item.2.contains name)
        [(["main"], ["a", "main"]), (["a", "b"], []), (["a"], ["z"])] =
      .ok [(["a", "b"], []), (["a"], ["z"]), (["main"], ["a", "main"])] ∧
    ∃ places, IsLeastOrder Prod.fst (fun item name => item.2.contains name)
      [(["main"], ["a", "main"]), (["a", "b"], []), (["a"], ["z"])]
      [(["a", "b"], []), (["a"], ["z"]), (["main"], ["a", "main"])] places :=
  ⟨rfl, isLeastOrder_of_order_eq_ok rfl⟩

/-- Things that have an order are put into order. -/
theorem exists_order_eq_ok {items : List α} {places : List Nat}
    (ordered : IsOrder declares refersTo items places) :
    ∃ out, order declares refersTo items = .ok out := by
  have count : (pendingAll declares refersTo items).length ≤ items.length := by simp [pendingAll]
  have left := rounds_left_nil ordered (tracks_pendingAll items) count
    (by simp [place_pendingAll])
  simp only [order]
  split
  next => exact ⟨_, rfl⟩
  next rounded =>
    exact absurd (show (rounds items.length (pendingAll declares refersTo items)) = (_, [])
      from Prod.ext rfl left) (fun equal => by simp_all)

end PackageCheck.Dependency
