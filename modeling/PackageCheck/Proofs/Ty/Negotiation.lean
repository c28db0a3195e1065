import PackageCheck.Proofs.Ty.Place

/-! # What stands in the way of a common type

Two types clash at a place where their heads differ, and leave a question open at a place where both
are unknown. These are the obstacles between them, and a walk from left to right comes to an end at
the first one: `Ty.merge` fails with it, and succeeds if there is none.

So negotiation gives the least refinement of two types that both of them have. It treats them alike,
and its error is that of the first obstacle. -/

namespace PackageCheck

/-! ## Merging part by part -/

theorem Ty.mergeAll_append {as bs cs ds : List Ty} (same : as.length = bs.length) :
    Ty.mergeAll (as ++ cs) (bs ++ ds) =
      (do return (← Ty.mergeAll as bs) ++ (← Ty.mergeAll cs ds)) := by
  induction as generalizing bs with
  | nil =>
    cases bs with
    | nil =>
      simp only [List.nil_append]
      cases Ty.mergeAll cs ds <;> rfl
    | cons b bs => cases same
  | cons a as hypothesis =>
    cases bs with
    | nil => cases same
    | cons b bs =>
      simp only [List.cons_append, Ty.mergeAll, hypothesis (Nat.succ.inj same), bind_assoc,
        pure_bind]

theorem Ty.mergeFields_types (fs gs : List FieldTy) :
    (Ty.mergeFields fs gs).map (List.map (·.type)) =
      Ty.mergeAll (fs.map (·.type)) (gs.map (·.type)) := by
  induction fs generalizing gs with
  | nil => cases gs <;> rfl
  | cons f fs hypothesis =>
    obtain ⟨name, s⟩ := f
    cases gs with
    | nil => rfl
    | cons g gs =>
      obtain ⟨name', t⟩ := g
      simp only [Ty.mergeFields, List.map_cons, Ty.mergeAll, ← hypothesis]
      cases s.merge t <;> cases Ty.mergeFields fs gs <;> rfl

namespace Ty

variable {s t u : Ty}

/-- The parts of a common type are the common types of the parts. -/
theorem merge_parts (known : s ≠ .unknown) (same : s.head = t.head) :
    (s.merge t).map parts = mergeAll s.parts t.parts := by
  cases s with
  | unknown => exact absurd rfl known
  | simple a => cases t <;> simp_all [head, merge, mergeAll, parts, Except.map]
  | custom name d => cases t <;> simp_all [head, merge, mergeAll, parts, Except.map]
  | array m s =>
    cases t with
    | array n t =>
      cases same
      simp only [merge, parts, mergeAll, if_true]
      cases s.merge t <;> rfl
    | _ => cases same
  | slice s =>
    cases t with
    | slice t =>
      simp only [merge, parts, mergeAll]
      cases s.merge t <;> rfl
    | _ => cases same
  | pointer s =>
    cases t with
    | pointer t =>
      simp only [merge, parts, mergeAll]
      cases s.merge t <;> rfl
    | _ => cases same
  | map k v =>
    cases t with
    | map l w =>
      simp only [merge, parts, mergeAll]
      cases k.merge l <;> cases v.merge w <;> rfl
    | _ => cases same
  | tuple ss =>
    cases t with
    | tuple ts =>
      simp only [merge, parts, if_pos (Head.tuple.inj same)]
      cases mergeAll ss ts <;> rfl
    | _ => cases same
  | struct layout =>
    obtain ⟨name, fs, methods⟩ := layout
    cases t with
    | struct layout' =>
      obtain ⟨name', gs, methods'⟩ := layout'
      simp only [merge, parts, if_pos (Head.struct.inj same), ← mergeFields_types]
      cases mergeFields fs gs <;> rfl
    | _ => cases same
  | func signature =>
    obtain ⟨as, rs⟩ := signature
    cases t with
    | func signature' =>
      obtain ⟨bs, ss⟩ := signature'
      obtain ⟨args, results⟩ := Head.func.inj same
      simp only [merge, parts, mergeAll_append args, if_pos (And.intro args results)]
      cases mergeAll as bs <;> cases mergeAll rs ss <;> rfl
    | _ => cases same

theorem merge_unknown_left (known : t ≠ .unknown) : unknown.merge t = .ok t := by
  cases t <;> first | rfl | exact absurd rfl known

theorem merge_unknown_right (known : s ≠ .unknown) : s.merge .unknown = .ok s := by
  cases s <;> first | rfl | exact absurd rfl known

theorem merge_of_head_ne (expected : s ≠ .unknown) (found : t ≠ .unknown)
    (differ : s.head ≠ t.head) : s.merge t = .error .clash := by
  cases s with
  | unknown => exact absurd rfl expected
  | struct layout =>
    obtain ⟨_, fs, _⟩ := layout
    cases t with
    | struct layout' =>
      obtain ⟨_, gs, _⟩ := layout'
      rw [merge, if_neg fun same => differ (congrArg Head.struct same)]
    | unknown => exact absurd rfl found
    | _ => simp [merge]
  | func signature =>
    obtain ⟨as, rs⟩ := signature
    cases t with
    | func signature' =>
      obtain ⟨bs, ss⟩ := signature'
      rw [merge, if_neg fun same => differ (congrArg₂ Head.func same.1 same.2)]
    | unknown => exact absurd rfl found
    | _ => simp [merge]
  | _ => cases t <;> simp_all [head, merge]

/-- What becomes of the parts of lists that have common types place by place. -/
theorem merge_of_mergeAll_eq_ok {ss ts us : List Ty} (merged : mergeAll ss ts = .ok us) {i : Nat}
    (first : ss[i]? = some s) (second : ts[i]? = some t) : ∃ u, s.merge t = .ok u := by
  induction ss generalizing ts us i with
  | nil => cases first
  | cons a ss hypothesis =>
    cases ts with
    | nil => cases second
    | cons b ts =>
      rw [mergeAll] at merged
      obtain ⟨head, here, merged⟩ := Except.bind_eq_ok merged
      obtain ⟨tail, below, _⟩ := Except.bind_eq_ok merged
      cases i with
      | zero =>
        cases first
        cases second
        exact ⟨head, here⟩
      | succ i => exact hypothesis below first second

/-- Lists have no common types because of their first pair of types that has none. -/
theorem exists_of_mergeAll_eq_error {ss ts : List Ty} {conflict : Conflict}
    (failed : mergeAll ss ts = .error conflict) :
    ∃ (i : Nat) (s t : Ty), ss[i]? = some s ∧ ts[i]? = some t ∧ s.merge t = .error conflict ∧
      ∀ j < i, ∀ s t : Ty, ss[j]? = some s → ts[j]? = some t → ∃ u, s.merge t = .ok u := by
  induction ss generalizing ts with
  | nil => cases failed
  | cons a ss hypothesis =>
    cases ts with
    | nil => cases failed
    | cons b ts =>
      rw [mergeAll] at failed
      cases here : a.merge b with
      | error err =>
        rw [here] at failed
        cases failed
        exact ⟨0, a, b, rfl, rfl, here, nofun⟩
      | ok head =>
        cases below : mergeAll ss ts with
        | ok tail =>
          rw [here, below] at failed
          cases failed
        | error err =>
          rw [here, below] at failed
          cases failed
          obtain ⟨i, s, t, first, second, inside, before⟩ := hypothesis below
          refine ⟨i + 1, s, t, first, second, inside, fun j bound s t first second => ?_⟩
          cases j with
          | zero =>
            cases first
            cases second
            exact ⟨head, here⟩
          | succ j => exact before j (Nat.lt_of_succ_lt_succ bound) s t first second

/-! ## Obstacles -/

/-- Whether both types are unknown at a place. -/
def OpenAt (s t : Ty) (place : List Nat) : Prop :=
  s.part? place = some .unknown ∧ t.part? place = some .unknown

/-- Whether the types have different heads at a place, though neither is unknown there. -/
def ClashAt (s t : Ty) (place : List Nat) : Prop :=
  ∃ a b, s.part? place = some a ∧ t.part? place = some b ∧ a ≠ .unknown ∧ b ≠ .unknown ∧
    a.head ≠ b.head

/-- Whether a conflict stands in the way at a place. -/
def ConflictAt (s t : Ty) (place : List Nat) : Conflict → Prop
  | .clash => s.ClashAt t place
  | .undetermined => s.OpenAt t place

variable {place : List Nat} {conflict : Conflict}

theorem conflictAt_symm (conflicting : s.ConflictAt t place conflict) :
    t.ConflictAt s place conflict := by
  cases conflict with
  | clash =>
    obtain ⟨a, b, first, second, known, known', differ⟩ := conflicting
    exact ⟨b, a, second, first, known', known, Ne.symm differ⟩
  | undetermined => exact And.symm conflicting

theorem not_clashAt_of_openAt (opened : s.OpenAt t place) : ¬ s.ClashAt t place := by
  rintro ⟨a, b, here, -, known, -⟩
  exact known (Option.some.inj (here.symm.trans opened.1))

/-- There is one conflict at a place. -/
theorem ConflictAt.unique {conflict' : Conflict} (first : s.ConflictAt t place conflict)
    (second : s.ConflictAt t place conflict') : conflict = conflict' := by
  cases conflict with
  | clash =>
    cases conflict' with
    | clash => rfl
    | undetermined => exact absurd first (not_clashAt_of_openAt second)
  | undetermined =>
    cases conflict' with
    | clash => exact absurd second (not_clashAt_of_openAt first)
    | undetermined => rfl

/-- Below the top a conflict is one of two parts at the same place. -/
theorem conflictAt_cons {i : Nat} : s.ConflictAt t (i :: place) conflict ↔
    ∃ a b, s.parts[i]? = some a ∧ t.parts[i]? = some b ∧ a.ConflictAt b place conflict := by
  have step : ∀ {type part : Ty}, type.part? (i :: place) = some part ↔
      ∃ inner, type.parts[i]? = some inner ∧ inner.part? place = some part := by
    intro type part
    exact Option.bind_eq_some_iff
  cases conflict with
  | clash =>
    simp only [ConflictAt, ClashAt, step]
    constructor
    · rintro ⟨a, b, ⟨c, here, first⟩, ⟨d, here', second⟩, differ⟩
      exact ⟨c, d, here, here', a, b, first, second, differ⟩
    · rintro ⟨c, d, here, here', a, b, first, second, differ⟩
      exact ⟨a, b, ⟨c, here, first⟩, ⟨d, here', second⟩, differ⟩
  | undetermined =>
    simp only [ConflictAt, OpenAt, step]
    constructor
    · rintro ⟨⟨c, here, first⟩, d, here', second⟩
      exact ⟨c, d, here, here', first, second⟩
    · rintro ⟨c, d, here, here', first, second⟩
      exact ⟨⟨c, here, first⟩, d, here', second⟩

/-- Nothing stands in the way where one type is unknown and the other is not. -/
theorem not_conflictAt_unknown (known : t ≠ .unknown) : ¬ unknown.ConflictAt t place conflict := by
  intro conflicting
  cases place with
  | nil =>
    cases conflict with
    | clash =>
      obtain ⟨a, b, first, -, known', -⟩ := conflicting
      exact known' (Option.some.inj first).symm
    | undetermined => exact known (Option.some.inj conflicting.2)
  | cons i place =>
    obtain ⟨a, b, here, -⟩ := conflictAt_cons.mp conflicting
    cases here

/-- Two types with one head have a conflict at no place but below the top. -/
theorem not_conflictAt_nil (known : s ≠ .unknown) (same : s.head = t.head) :
    ¬ s.ConflictAt t [] conflict := by
  intro conflicting
  cases conflict with
  | clash =>
    obtain ⟨a, b, first, second, -, -, differ⟩ := conflicting
    cases first
    cases second
    exact differ same
  | undetermined => exact known (Option.some.inj conflicting.1)

/-- A type is unknown, or the other one is, or they have different heads or the same one. -/
theorem merge_cases (s t : Ty) :
    (s = .unknown ∧ t = .unknown) ∨ (s = .unknown ∧ t ≠ .unknown) ∨
      (s ≠ .unknown ∧ t = .unknown) ∨ (s ≠ .unknown ∧ t ≠ .unknown ∧ s.head ≠ t.head) ∨
      (s ≠ .unknown ∧ s.head = t.head) := by
  by_cases expected : s = .unknown <;> by_cases found : t = .unknown <;>
    by_cases same : s.head = t.head <;> simp_all

/-- Types that have a common type have no conflict anywhere. -/
theorem not_conflictAt_of_merge_eq_ok (s : Ty) : ∀ {t u : Ty}, s.merge t = .ok u →
    ∀ place conflict, ¬ s.ConflictAt t place conflict := by
  induction s using induction_parts with
  | step s hypothesis =>
    intro t u merged place conflict
    rcases merge_cases s t with ⟨rfl, rfl⟩ | ⟨rfl, known⟩ | ⟨known, rfl⟩ | ⟨first, second, differ⟩ |
      ⟨known, same⟩
    · cases merged
    · exact not_conflictAt_unknown known
    · exact fun conflicting => not_conflictAt_unknown known (conflictAt_symm conflicting)
    · cases (merge_of_head_ne first second differ).symm.trans merged
    · cases place with
      | nil => exact not_conflictAt_nil known same
      | cons i place =>
        -- a conflict further down would be one between two parts, which have a common type
        intro conflicting
        obtain ⟨a, b, first, second, below⟩ := conflictAt_cons.mp conflicting
        have parts := merge_parts known same
        rw [merged] at parts
        obtain ⟨v, inside⟩ := merge_of_mergeAll_eq_ok parts.symm first second
        exact hypothesis a (List.mem_of_getElem? first) inside place conflict below

/-- Whether a conflict stands in the way at a place to which no other one comes first. -/
def FirstConflict (s t : Ty) (conflict : Conflict) : Prop :=
  ∃ place, s.ConflictAt t place conflict ∧
    ∀ other conflict', s.ConflictAt t other conflict' → ¬ other < place

theorem FirstConflict.symm (first : s.FirstConflict t conflict) : t.FirstConflict s conflict := by
  obtain ⟨place, conflicting, before⟩ := first
  exact ⟨place, conflictAt_symm conflicting, fun other conflict' held =>
    before other conflict' (conflictAt_symm held)⟩

/-- Types that have no common type fail with the first conflict. -/
theorem firstConflict_of_merge_eq_error (s : Ty) : ∀ {t : Ty} {conflict : Conflict},
    s.merge t = .error conflict → s.FirstConflict t conflict := by
  induction s using induction_parts with
  | step s hypothesis =>
    intro t conflict failed
    rcases merge_cases s t with ⟨rfl, rfl⟩ | ⟨rfl, known⟩ | ⟨known, rfl⟩ | ⟨first, second, differ⟩ |
      ⟨known, same⟩
    · cases failed
      exact ⟨[], ⟨rfl, rfl⟩, fun _ _ _ => List.not_lt_nil _⟩
    · cases (merge_unknown_left known).symm.trans failed
    · cases (merge_unknown_right known).symm.trans failed
    · cases (merge_of_head_ne first second differ).symm.trans failed
      exact ⟨[], ⟨s, t, rfl, rfl, first, second, differ⟩, fun _ _ _ => List.not_lt_nil _⟩
    -- the heads are the same, so the merge has failed in the first pair of parts that has no
    -- common type, and there at its first conflict
    · have parts := merge_parts known same
      rw [failed] at parts
      obtain ⟨i, a, b, first, second, inside, before⟩ := exists_of_mergeAll_eq_error parts.symm
      obtain ⟨place, below, ahead⟩ := hypothesis a (List.mem_of_getElem? first) inside
      refine ⟨i :: place, conflictAt_cons.mpr ⟨a, b, first, second, below⟩, ?_⟩
      intro other conflict' conflicting
      cases other with
      | nil => exact absurd conflicting (not_conflictAt_nil known same)
      | cons j other =>
        obtain ⟨c, d, first', second', below'⟩ := conflictAt_cons.mp conflicting
        rw [List.cons_lt_cons_iff]
        rintro (earlier | ⟨rfl, earlier⟩)
        -- the parts in front have common types, so there is no conflict between them
        · obtain ⟨u, merged⟩ := before j earlier c d first' second'
          exact not_conflictAt_of_merge_eq_ok c merged other conflict' below'
        · cases first.symm.trans first'
          cases second.symm.trans second'
          exact ahead other conflict' below' earlier

theorem FirstConflict.unique {conflict' : Conflict} (first : s.FirstConflict t conflict)
    (first' : s.FirstConflict t conflict') : conflict = conflict' := by
  obtain ⟨place, held, before⟩ := first
  obtain ⟨place', held', before'⟩ := first'
  have same : place = place' :=
    List.le_antisymm (before place' conflict' held') (before' place conflict held)
  exact held.unique (same ▸ held')

/-- A merge fails with a conflict exactly if that is the first one. -/
theorem merge_eq_error_iff : s.merge t = .error conflict ↔ s.FirstConflict t conflict := by
  refine ⟨firstConflict_of_merge_eq_error s, fun first => ?_⟩
  -- the merge decides: it cannot succeed, and what it fails with is first as well
  cases merged : s.merge t with
  | ok u =>
    obtain ⟨place, held, -⟩ := first
    exact absurd held (not_conflictAt_of_merge_eq_ok s merged place conflict)
  | error conflict' => rw [first.unique (firstConflict_of_merge_eq_error s merged)]

/-! ## Common refinements -/

/-- Whether there is a type that refines both. -/
def Compatible (s t : Ty) : Prop :=
  ∃ u : Ty, s.refinedBy u = true ∧ t.refinedBy u = true

theorem forall₂_compatible {ss ts : List Ty} (all : List.Forall₂ Compatible ss ts) :
    ∃ us : List Ty, List.Forall₂ (fun s u => s.refinedBy u = true) ss us ∧
      List.Forall₂ (fun t u => t.refinedBy u = true) ts us := by
  induction all with
  | nil => exact ⟨[], .nil, .nil⟩
  | cons here _ hypothesis =>
    obtain ⟨u, first, second⟩ := here
    obtain ⟨us, firsts, seconds⟩ := hypothesis
    exact ⟨u :: us, .cons first firsts, .cons second seconds⟩

/-- Types that clash nowhere have a common refinement. -/
theorem compatible_of_not_clashAt (s : Ty) : ∀ {t : Ty}, (∀ place, ¬ s.ClashAt t place) →
    s.Compatible t := by
  induction s using induction_parts with
  | step s hypothesis =>
    intro t apart
    by_cases expected : s = .unknown
    · exact ⟨t, by rw [expected, unknown_refinedBy], refinedBy_refl t⟩
    by_cases found : t = .unknown
    · exact ⟨s, refinedBy_refl s, by rw [found, unknown_refinedBy]⟩
    by_cases same : s.head = t.head
    · have below : List.Forall₂ Compatible s.parts t.parts := by
        refine List.forall₂_iff_get.mpr ⟨length_parts_of_head same, fun i bound bound' => ?_⟩
        refine hypothesis _ (List.getElem_mem bound) fun place clash => apart (i :: place) ?_
        have conflicting : s.parts[i].ConflictAt t.parts[i] place .clash := clash
        exact conflictAt_cons.mpr ⟨_, _, List.getElem?_eq_getElem bound,
          List.getElem?_eq_getElem bound', conflicting⟩
      -- the common refinement has the one head, and common refinements of the parts below it
      obtain ⟨us, firsts, seconds⟩ := forall₂_compatible below
      obtain ⟨u, head, rfl⟩ := s.exists_of_parts firsts.length_eq.symm
      exact ⟨u, refinedBy_iff.mpr (Or.inr ⟨head.symm, firsts⟩),
        refinedBy_iff.mpr (Or.inr ⟨same.symm.trans head.symm, seconds⟩)⟩
    · exact absurd ⟨s, t, rfl, rfl, expected, found, same⟩ (apart [])

/-- Types have a common refinement exactly if they clash nowhere. -/
theorem compatible_iff : s.Compatible t ↔ ∀ place, ¬ s.ClashAt t place := by
  refine ⟨?_, compatible_of_not_clashAt s⟩
  rintro ⟨u, first, second⟩ place ⟨a, b, here, here', known, known', differ⟩
  rcases refinedBy_part? first here with open' | ⟨c, found, same⟩
  · exact known open'
  rcases refinedBy_part? second here' with open' | ⟨d, found', same'⟩
  · exact known' open'
  cases found.symm.trans found'
  exact differ (same.symm.trans same')

/-- Types have a common type exactly if they have a common refinement and no open place. -/
theorem exists_merge_iff : (∃ u, s.merge t = .ok u) ↔
    s.Compatible t ∧ ∀ place, ¬ s.OpenAt t place := by
  rw [compatible_iff]
  constructor
  · rintro ⟨u, merged⟩
    have apart := not_conflictAt_of_merge_eq_ok s merged
    exact ⟨fun place => apart place .clash, fun place => apart place .undetermined⟩
  · rintro ⟨noClash, noOpen⟩
    cases merged : s.merge t with
    | ok u => exact ⟨u, rfl⟩
    | error conflict =>
      obtain ⟨place, held, -⟩ := merge_eq_error_iff.mp merged
      cases conflict with
      | clash => exact absurd held (noClash place)
      | undetermined => exact absurd held (noOpen place)

end Ty

mutual

/-- The common type of two types is refined by all their common refinements. -/
theorem Ty.Merged.least : ∀ {s t u v : Ty}, Ty.Merged s t u → s.refinedBy v = true →
    t.refinedBy v = true → u.refinedBy v = true
  | _, _, _, v, .found type, _, found => found
  | _, _, _, v, .expected type, expected, _ => expected
  | _, _, _, v, .simple s, first, _ => first
  | _, _, _, v, .custom name name' decl, first, _ => first
  | _, _, _, v, .array size of, first, second => by
    obtain ⟨of', rfl, first'⟩ := Ty.array_refinedBy.mp first
    obtain ⟨_, same, second'⟩ := Ty.array_refinedBy.mp second
    cases same
    exact Ty.array_refinedBy.mpr ⟨of', rfl, of.least first' second'⟩
  | _, _, _, v, .slice of, first, second => by
    obtain ⟨of', rfl, first⟩ := Ty.slice_refinedBy.mp first
    obtain ⟨_, same, second⟩ := Ty.slice_refinedBy.mp second
    cases same
    exact Ty.slice_refinedBy.mpr ⟨of', rfl, of.least first second⟩
  | _, _, _, v, .pointer pointee, first, second => by
    obtain ⟨pointee', rfl, first⟩ := Ty.pointer_refinedBy.mp first
    obtain ⟨_, same, second⟩ := Ty.pointer_refinedBy.mp second
    cases same
    exact Ty.pointer_refinedBy.mpr ⟨pointee', rfl, pointee.least first second⟩
  | _, _, _, v, .map key value, first, second => by
    obtain ⟨key', value', rfl, firstKey, firstValue⟩ := Ty.map_refinedBy.mp first
    obtain ⟨_, _, same, secondKey, secondValue⟩ := Ty.map_refinedBy.mp second
    cases same
    exact Ty.map_refinedBy.mpr
      ⟨key', value', rfl, key.least firstKey secondKey, value.least firstValue secondValue⟩
  | _, _, _, v, .tuple members, first, second => by
    obtain ⟨members', rfl, first⟩ := Ty.tuple_refinedBy.mp first
    obtain ⟨_, same, second⟩ := Ty.tuple_refinedBy.mp second
    cases same
    exact Ty.tuple_refinedBy.mpr ⟨members', rfl, members.least first second⟩
  | _, _, _, v, .func args results, first, second => by
    obtain ⟨signature', rfl, firstArgs, firstResults⟩ := Ty.func_refinedBy.mp first
    obtain ⟨_, same, secondArgs, secondResults⟩ := Ty.func_refinedBy.mp second
    cases same
    exact Ty.func_refinedBy.mpr ⟨signature', rfl, args.least firstArgs secondArgs,
      results.least firstResults secondResults⟩
  | _, _, _, v, .struct name name' methods methods' fields, first, second => by
    obtain ⟨layout', rfl, first'⟩ := Ty.struct_refinedBy.mp first
    obtain ⟨_, same, second'⟩ := Ty.struct_refinedBy.mp second
    cases same
    exact Ty.struct_refinedBy.mpr ⟨layout', rfl, fields.least first' second'⟩

theorem Ty.AllMerged.least : ∀ {ss ts us vs : List Ty}, Ty.AllMerged ss ts us →
    Ty.allRefinedBy ss vs = true → Ty.allRefinedBy ts vs = true → Ty.allRefinedBy us vs = true
  | _, _, _, vs, .nil, first, _ => first
  | _, _, _, vs, .cons head tail, first, second => by
    obtain ⟨v, vs', rfl, first, firsts⟩ := Ty.cons_allRefinedBy.mp first
    obtain ⟨_, _, same, second, seconds⟩ := Ty.cons_allRefinedBy.mp second
    cases same
    exact Ty.cons_allRefinedBy.mpr
      ⟨v, vs', rfl, head.least first second, tail.least firsts seconds⟩

theorem Ty.FieldsMerged.least : ∀ {fs gs hs ks : List FieldTy}, Ty.FieldsMerged fs gs hs →
    Ty.fieldsRefinedBy fs ks = true → Ty.fieldsRefinedBy gs ks = true →
      Ty.fieldsRefinedBy hs ks = true
  | _, _, _, ks, .nil, first, _ => first
  | _, _, _, ks, .cons name head tail, first, second => by
    obtain ⟨v, ks', rfl, first, firsts⟩ := Ty.cons_fieldsRefinedBy.mp first
    obtain ⟨_, _, same, second, seconds⟩ := Ty.cons_fieldsRefinedBy.mp second
    cases same
    exact Ty.cons_fieldsRefinedBy.mpr
      ⟨v, ks', rfl, head.least first second, tail.least firsts seconds⟩

end

mutual

/-- A known type is the common type of itself and any other one. -/
theorem Ty.Merged.eq_of_known : ∀ {s t u : Ty}, Ty.Merged s t u → s.known = true → u = s
  | _, _, _, .found type, known => nomatch known
  | _, _, _, .expected type, _ => rfl
  | _, _, _, .simple s, _ => rfl
  | _, _, _, .custom name name' decl, _ => rfl
  | _, _, _, .array size of, known => congrArg (Ty.array size) (of.eq_of_known known)
  | _, _, _, .slice of, known => congrArg Ty.slice (of.eq_of_known known)
  | _, _, _, .pointer pointee, known => congrArg Ty.pointer (pointee.eq_of_known known)
  | _, _, _, .map key value, known => by
    rw [Ty.known, Bool.and_eq_true] at known
    rw [key.eq_of_known known.1, value.eq_of_known known.2]
  | _, _, _, .tuple members, known => congrArg Ty.tuple (members.eq_of_known known)
  | _, _, _, .func args results, known => by
    rw [Ty.known, Signature.known, Bool.and_eq_true] at known
    rw [args.eq_of_known known.1, results.eq_of_known known.2]
  | _, _, _, .struct name name' methods methods' fields, known => by
    rw [Ty.known] at known
    rw [fields.eq_of_known known]

theorem Ty.AllMerged.eq_of_known : ∀ {ss ts us : List Ty}, Ty.AllMerged ss ts us →
    Ty.allKnown ss = true → us = ss
  | _, _, _, .nil, _ => rfl
  | _, _, _, .cons head tail, known => by
    rw [Ty.allKnown, Bool.and_eq_true] at known
    rw [head.eq_of_known known.1, tail.eq_of_known known.2]

theorem Ty.FieldsMerged.eq_of_known : ∀ {fs gs hs : List FieldTy}, Ty.FieldsMerged fs gs hs →
    Ty.fieldsKnown fs = true → hs = fs
  | _, _, _, .nil, _ => rfl
  | _, _, _, .cons name head tail, known => by
    rw [Ty.fieldsKnown, Bool.and_eq_true] at known
    rw [head.eq_of_known known.1, tail.eq_of_known known.2]

end

/-! ## Negotiation -/

namespace Ty

variable {s t u : Ty}

theorem negotiate_eq_ok_iff : s.negotiate t = .ok u ↔ s.merge t = .ok u := by
  refine ⟨merge_of_negotiate, fun merged => ?_⟩
  rw [negotiate, merged]

/-- Negotiation gives the least refinement of both types. It succeeds exactly if they have a common
    refinement and are not both unknown at any place, and leaves a known type as it is. -/
theorem negotiate_least (s t : Ty) :
    ((∃ u, s.negotiate t = .ok u) ↔ s.Compatible t ∧ ∀ place, ¬ s.OpenAt t place) ∧
      ∀ u, s.negotiate t = .ok u → s.refinedBy u = true ∧ t.refinedBy u = true ∧
        (∀ v : Ty, s.refinedBy v = true → t.refinedBy v = true → u.refinedBy v = true) ∧
          (s.known = true → u = s) := by
  simp only [negotiate_eq_ok_iff]
  refine ⟨exists_merge_iff, fun u merged => ?_⟩
  have parts := merged_of_merge merged
  have ⟨expected, found⟩ := parts.refines
  exact ⟨expected, found, fun v => parts.least, parts.eq_of_known⟩

/-- The error of a conflict between two types. -/
theorem negotiate_of_firstConflict_clash (first : s.FirstConflict t .clash) :
    s.negotiate t = .error (.mismatch s t) := by
  rw [negotiate, merge_eq_error_iff.mpr first]

theorem negotiate_of_firstConflict_undetermined (first : s.FirstConflict t .undetermined) :
    s.negotiate t = .error .unresolved := by
  rw [negotiate, merge_eq_error_iff.mpr first]

/-- Negotiation does not mind the order of the types: it fails on both or on neither, with errors of
    one kind or with types that are the same up to names and methods. -/
theorem negotiate_symm (s t : Ty) :
    (∃ u v, s.negotiate t = .ok u ∧ t.negotiate s = .ok v ∧ u.agrees v = true) ∨
      (s.negotiate t = .error .unresolved ∧ t.negotiate s = .error .unresolved) ∨
      (s.negotiate t = .error (.mismatch s t) ∧ t.negotiate s = .error (.mismatch t s)) := by
  cases merged : s.merge t with
  | ok u =>
    cases merged' : t.merge s with
    | ok v =>
      have parts := merged_of_merge merged
      have parts' := merged_of_merge merged'
      refine Or.inl ⟨u, v, negotiate_eq_ok_iff.mpr merged, negotiate_eq_ok_iff.mpr merged', ?_⟩
      rw [agrees, Bool.and_eq_true]
      exact ⟨parts.least parts'.refines.2 parts'.refines.1,
        parts'.least parts.refines.2 parts.refines.1⟩
    | error conflict =>
      have failed := merge_eq_error_iff.mpr (merge_eq_error_iff.mp merged').symm
      cases merged.symm.trans failed
  | error conflict =>
    have first := merge_eq_error_iff.mp merged
    cases conflict with
    | clash =>
      exact Or.inr (Or.inr ⟨negotiate_of_firstConflict_clash first,
        negotiate_of_firstConflict_clash first.symm⟩)
    | undetermined =>
      exact Or.inr (Or.inl ⟨negotiate_of_firstConflict_undetermined first,
        negotiate_of_firstConflict_undetermined first.symm⟩)

/-- Whether types clash, but only behind a place where both are unknown. -/
def ClashHidden (s t : Ty) : Prop :=
  (∃ place, s.ClashAt t place) ∧
    ∃ place, s.OpenAt t place ∧ ∀ other, s.ClashAt t other → place < other

/-- The error of a negotiation is a mismatch of the whole types if they have no common refinement,
    and an open question if they have one, unless they clash only behind an open place. Then the
    clash goes unnoticed. -/
theorem negotiate_error_iff {err : TypeError} (failed : s.negotiate t = .error err) :
    ((s.Compatible t → err = .unresolved) ∧ (¬ s.Compatible t → err = .mismatch s t) ↔
      ¬ s.ClashHidden t) ∧ (s.ClashHidden t → err = .unresolved) := by
  cases merged : s.merge t with
  | ok u => cases (negotiate_eq_ok_iff.mpr merged).symm.trans failed
  | error conflict =>
    have first := merge_eq_error_iff.mp merged
    cases conflict with
    | clash =>
      cases (negotiate_of_firstConflict_clash first).symm.trans failed
      obtain ⟨place, clash, before⟩ := first
      have apart : ¬ s.Compatible t := fun compatible => compatible_iff.mp compatible place clash
      have noticed : ¬ s.ClashHidden t := by
        rintro ⟨-, other, opened, ahead⟩
        exact before other .undetermined opened (ahead place clash)
      exact ⟨⟨fun _ => noticed, fun _ => ⟨fun compatible => absurd compatible apart, fun _ => rfl⟩⟩,
        fun hidden => absurd hidden noticed⟩
    | undetermined =>
      cases (negotiate_of_firstConflict_undetermined first).symm.trans failed
      obtain ⟨place, opened, before⟩ := first
      -- every clash comes behind the open place, so it is hidden if there is one
      have ahead : ∀ other, s.ClashAt t other → place < other := by
        intro other clash
        rcases List.le_iff_lt_or_eq.mp (before other .clash clash) with behind | same
        · exact behind
        · exact absurd (same ▸ clash) (not_clashAt_of_openAt opened)
      refine ⟨⟨fun ⟨_, mismatched⟩ hidden => ?_, fun noticed => ⟨fun _ => rfl, fun apart => ?_⟩⟩,
        fun _ => rfl⟩
      · obtain ⟨⟨other, clash⟩, -⟩ := hidden
        cases mismatched fun compatible => compatible_iff.mp compatible other clash
      · refine absurd (compatible_iff.mpr fun other clash => noticed ?_) apart
        exact ⟨⟨other, clash⟩, place, opened, ahead⟩

/-- The keys clash in front of the open question. -/
theorem clashing_keys_reported :
    (map int .unknown).negotiate (map string .unknown) =
        .error (.mismatch (map int .unknown) (map string .unknown)) ∧
      ¬ (map int .unknown).ClashHidden (map string .unknown) :=
  ⟨rfl, fun hidden => nomatch (negotiate_error_iff rfl).2 hidden⟩

/-- The values clash behind the open question about the keys. -/
theorem clashing_values_unnoticed :
    (map .unknown int).negotiate (map .unknown string) = .error .unresolved ∧
      ¬ (map .unknown int).Compatible (map .unknown string) :=
  ⟨rfl, fun compatible => compatible_iff.mp compatible [1]
    ⟨int, string, rfl, rfl, nofun, nofun, by decide⟩⟩

end Ty

end PackageCheck
