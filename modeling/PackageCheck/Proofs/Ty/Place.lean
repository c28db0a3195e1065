import Mathlib.Data.List.Forall2
import PackageCheck.Proofs.Ty.Refinement

/-! # Places in types

A type has a head and, below it, parts from left to right. A place is the way from a type down to
one of the parts of its parts, so places in the order of lists are met by a walk from left to right
that looks at each head in front of the parts below it.

Refinement and merging are the same at every type once it is seen in this way: what refines a type
that is not unknown has its head, and the parts of a common type are the common types of the
parts. -/

namespace PackageCheck

/-! ## Heads and parts -/

/-- A type without its parts. As far as refinement goes, the names of structs and custom types and
    the methods of structs are no part of a type. -/
inductive Ty.Head where
  | simple (name : Simple)
  | array (size : UInt64)
  | slice
  | map
  | pointer
  | tuple (count : Nat)
  | struct (fields : List String)
  | func (args results : Nat)
  | custom (decl : SymbolId)
  | unknown
deriving DecidableEq

namespace Ty

/-- The head of a type. -/
def head : Ty → Ty.Head
  | .simple name => .simple name
  | .array size _ => .array size
  | .slice _ => .slice
  | .map _ _ => .map
  | .pointer _ => .pointer
  | .tuple members => .tuple members.length
  | .struct layout => .struct (layout.fields.map (·.name))
  | .func signature => .func signature.args.length signature.results.length
  | .custom _ decl => .custom decl
  | .unknown => .unknown

/-- The parts of a type from left to right. -/
def parts : Ty → List Ty
  | .array _ of => [of]
  | .slice of => [of]
  | .map key value => [key, value]
  | .pointer pointee => [pointee]
  | .tuple members => members
  | .struct layout => layout.fields.map (·.type)
  | .func signature => signature.args ++ signature.results
  | _ => []

/-- The part of a type at a place. -/
def part? : Ty → List Nat → Option Ty
  | type, [] => some type
  | type, i :: place => type.parts[i]?.bind (·.part? place)

theorem head_eq_unknown {type : Ty} : type.head = .unknown ↔ type = .unknown := by
  cases type <;> simp [head]

theorem sizeOf_lt_of_mem_parts {type part : Ty} (member : part ∈ type.parts) :
    sizeOf part < sizeOf type := by
  cases type with
  | struct layout =>
    obtain ⟨name, fields, methods⟩ := layout
    obtain ⟨⟨label, type⟩, inside, rfl⟩ := List.mem_map.mp member
    have smaller := List.sizeOf_lt_of_mem inside
    simp only [struct.sizeOf_spec, StructTy.mk.sizeOf_spec, FieldTy.mk.sizeOf_spec] at smaller ⊢
    omega
  | func signature =>
    obtain ⟨args, results⟩ := signature
    simp only [func.sizeOf_spec, Signature.mk.sizeOf_spec]
    rcases List.mem_append.mp member with inside | inside
    · have smaller : sizeOf part < sizeOf args := List.sizeOf_lt_of_mem inside
      omega
    · have smaller : sizeOf part < sizeOf results := List.sizeOf_lt_of_mem inside
      omega
  | tuple members =>
    have smaller := List.sizeOf_lt_of_mem (show part ∈ members from member)
    simp only [tuple.sizeOf_spec]
    omega
  | map key value =>
    rcases List.mem_pair.mp member with rfl | rfl
    · simp only [map.sizeOf_spec]
      omega
    · simp only [map.sizeOf_spec]
      omega
  | array size of =>
    rw [List.mem_singleton.mp member, array.sizeOf_spec]
    omega
  | slice of =>
    rw [List.mem_singleton.mp member, slice.sizeOf_spec]
    omega
  | pointer pointee =>
    rw [List.mem_singleton.mp member, pointer.sizeOf_spec]
    omega
  | _ => cases member

/-- What holds of a type as soon as it holds of its parts holds of all types. -/
theorem induction_parts {P : Ty → Prop} (step : ∀ type : Ty, (∀ part ∈ type.parts, P part) → P type)
    (type : Ty) : P type :=
  step type fun part _ => induction_parts step part
termination_by sizeOf type
decreasing_by exact sizeOf_lt_of_mem_parts ‹_›

/-- A head tells how many parts there are. -/
theorem length_parts_of_head {s t : Ty} (same : s.head = t.head) :
    s.parts.length = t.parts.length := by
  cases s with
  | struct layout =>
    cases t with
    | struct layout' => simpa [parts] using congrArg List.length (Head.struct.inj same)
    | _ => cases same
  | _ => cases t <;> simp_all [head, parts]

/-- There is a type for each head and as many parts as belong to it. -/
theorem exists_of_parts (type : Ty) {others : List Ty} (count : others.length = type.parts.length) :
    ∃ other : Ty, other.head = type.head ∧ other.parts = others := by
  cases type with
  | array size of =>
    obtain ⟨other, rfl⟩ := List.length_eq_one_iff.mp count
    exact ⟨.array size other, rfl, rfl⟩
  | slice of =>
    obtain ⟨other, rfl⟩ := List.length_eq_one_iff.mp count
    exact ⟨.slice other, rfl, rfl⟩
  | pointer pointee =>
    obtain ⟨other, rfl⟩ := List.length_eq_one_iff.mp count
    exact ⟨.pointer other, rfl, rfl⟩
  | map key value =>
    obtain ⟨other, other', rfl⟩ := List.length_eq_two.mp count
    exact ⟨.map other other', rfl, rfl⟩
  | tuple members => exact ⟨.tuple others, congrArg Head.tuple count, rfl⟩
  | struct layout =>
    -- each field keeps its name
    have named : (layout.fields.map (·.name)).length = others.length := by
      simpa [parts] using count.symm
    let fields := ((layout.fields.map (·.name)).zip others).map fun field =>
      FieldTy.mk field.1 field.2
    have names : fields.map (·.name) = layout.fields.map (·.name) := by
      rw [List.map_map]
      exact List.map_fst_zip (Nat.le_of_eq named)
    have types : fields.map (·.type) = others := by
      rw [List.map_map]
      exact List.map_snd_zip (Nat.le_of_eq named.symm)
    exact ⟨.struct ⟨"", fields, []⟩, congrArg Head.struct names, types⟩
  | func signature =>
    have both : others.length = signature.args.length + signature.results.length := by
      simpa [parts] using count
    refine ⟨.func ⟨others.take signature.args.length, others.drop signature.args.length⟩, ?_, ?_⟩
    · simp [head, both]
    · simp [parts]
  | simple name => exact ⟨.simple name, rfl, (List.length_eq_zero_iff.mp count).symm⟩
  | custom name decl => exact ⟨.custom name decl, rfl, (List.length_eq_zero_iff.mp count).symm⟩
  | unknown => exact ⟨.unknown, rfl, (List.length_eq_zero_iff.mp count).symm⟩

/-! ## Known types -/

theorem allKnown_iff {types : List Ty} :
    allKnown types = true ↔ ∀ type ∈ types, type.known = true := by
  induction types with
  | nil => simp [allKnown]
  | cons type rest hypothesis => simp [allKnown, hypothesis]

theorem fieldsKnown_iff {fields : List FieldTy} :
    fieldsKnown fields = true ↔ ∀ field ∈ fields, field.type.known = true := by
  induction fields with
  | nil => simp [fieldsKnown]
  | cons field rest hypothesis =>
    obtain ⟨name, type⟩ := field
    simp [fieldsKnown, hypothesis]

/-- A type is known if it is not unknown itself and its parts are known. -/
theorem known_iff_parts {type : Ty} :
    type.known = true ↔ type ≠ .unknown ∧ ∀ part ∈ type.parts, part.known = true := by
  cases type with
  | struct layout =>
    obtain ⟨name, fields, methods⟩ := layout
    simp [known, parts, fieldsKnown_iff]
  | func signature =>
    obtain ⟨args, results⟩ := signature
    simp [known, Signature.known, parts, allKnown_iff, or_imp, forall_and]
  | tuple members => simp [known, parts, allKnown_iff]
  | _ => simp [known, parts]

end Ty

/-! ## Refinement -/

theorem Ty.allRefinedBy_iff {ss ts : List Ty} : Ty.allRefinedBy ss ts = true ↔
    List.Forall₂ (fun s t => s.refinedBy t = true) ss ts := by
  induction ss generalizing ts with
  | nil => rw [Ty.nil_allRefinedBy, List.forall₂_nil_left_iff]
  | cons s ss hypothesis =>
    cases ts with
    | nil => simp [Ty.allRefinedBy]
    | cons t ts => simp [Ty.allRefinedBy, hypothesis]

theorem Ty.fieldsRefinedBy_iff {fs gs : List FieldTy} : Ty.fieldsRefinedBy fs gs = true ↔
    fs.map (·.name) = gs.map (·.name) ∧
      List.Forall₂ (fun s t => s.refinedBy t = true) (fs.map (·.type)) (gs.map (·.type)) := by
  induction fs generalizing gs with
  | nil => simp [Ty.nil_fieldsRefinedBy]
  | cons f fs hypothesis =>
    obtain ⟨a, s⟩ := f
    cases gs with
    | nil => simp [Ty.fieldsRefinedBy]
    | cons g gs =>
      obtain ⟨b, t⟩ := g
      simp [Ty.fieldsRefinedBy, hypothesis, and_assoc, and_left_comm]

/-- Two lists in a row are related to two others of the same lengths place by place. -/
theorem forall₂_append_iff {α β : Type} {R : α → β → Prop} {as cs : List α} {bs ds : List β}
    (same : as.length = bs.length) :
    List.Forall₂ R (as ++ cs) (bs ++ ds) ↔ List.Forall₂ R as bs ∧ List.Forall₂ R cs ds := by
  induction as generalizing bs with
  | nil =>
    cases bs with
    | nil => simp
    | cons b bs => cases same
  | cons a as hypothesis =>
    cases bs with
    | nil => cases same
    | cons b bs => simp [hypothesis (Nat.succ.inj same), and_assoc]

theorem exists_getElem?_of_forall₂ {α β : Type} {R : α → β → Prop} {as : List α} {bs : List β}
    (all : List.Forall₂ R as bs) {i : Nat} {a : α} (found : as[i]? = some a) :
    ∃ b, bs[i]? = some b ∧ R a b := by
  obtain ⟨bound, rfl⟩ := List.getElem?_eq_some_iff.mp found
  have bound' : i < bs.length := all.length_eq ▸ bound
  exact ⟨bs[i], List.getElem?_eq_getElem bound', all.get bound bound'⟩

/-- A search finds related things, if it cannot tell related things apart. -/
theorem rel_find? {α : Type} {R : α → α → Prop} {wanted : α → Bool} {items items' : List α}
    (blind : ∀ a b, R a b → wanted b = wanted a) (related : List.Forall₂ R items items') :
    Option.Rel R (items.find? wanted) (items'.find? wanted) := by
  induction related with
  | nil => exact .none
  | cons first _ hypothesis =>
    rw [List.find?_cons, List.find?_cons, blind _ _ first]
    split
    · exact .some first
    · exact hypothesis

namespace Ty

variable {s t u : Ty}

/-- What refines a type that is not unknown has its head, and parts that refine its parts. -/
theorem refinedBy_iff : s.refinedBy t = true ↔
    s = .unknown ∨ s.head = t.head ∧
      List.Forall₂ (fun s t => s.refinedBy t = true) s.parts t.parts := by
  cases s with
  | unknown => simp [unknown_refinedBy]
  | tuple ss =>
    cases t with
    | tuple ts =>
      simp only [Ty.refinedBy, allRefinedBy_iff, head, parts, reduceCtorEq, false_or,
        Head.tuple.injEq]
      exact ⟨fun refined => ⟨refined.length_eq, refined⟩, fun both => both.2⟩
    | _ => simp [Ty.refinedBy, head]
  | struct layout =>
    obtain ⟨_, fields, _⟩ := layout
    cases t with
    | struct layout' =>
      obtain ⟨_, fields', _⟩ := layout'
      simp only [Ty.refinedBy, fieldsRefinedBy_iff, head, parts, reduceCtorEq, false_or,
        Head.struct.injEq]
    | _ => simp [Ty.refinedBy, head]
  | func signature =>
    obtain ⟨args, results⟩ := signature
    cases t with
    | func signature' =>
      obtain ⟨args', results'⟩ := signature'
      simp only [Ty.refinedBy, allRefinedBy_iff, head, parts, reduceCtorEq, false_or,
        Head.func.injEq, Bool.and_eq_true]
      constructor
      · rintro ⟨first, second⟩
        exact ⟨⟨first.length_eq, second.length_eq⟩,
          (forall₂_append_iff first.length_eq).mpr ⟨first, second⟩⟩
      · rintro ⟨⟨same, -⟩, both⟩
        exact (forall₂_append_iff same).mp both
    | _ => simp [Ty.refinedBy, head]
  | _ => cases t <;> simp [Ty.refinedBy, head, parts]

/-- A refinement has each head of a type at the same place. -/
theorem refinedBy_part? {place : List Nat} {part : Ty} (refined : s.refinedBy t = true)
    (found : s.part? place = some part) : part = .unknown ∨
      ∃ part', t.part? place = some part' ∧ part'.head = part.head := by
  induction place generalizing s t with
  | nil =>
    cases found
    rcases refinedBy_iff.mp refined with open' | ⟨same, -⟩
    · exact Or.inl open'
    · exact Or.inr ⟨t, rfl, same.symm⟩
  | cons i place hypothesis =>
    obtain ⟨inner, here, found⟩ := Option.bind_eq_some_iff.mp found
    rcases refinedBy_iff.mp refined with rfl | ⟨-, below⟩
    · cases here
    · obtain ⟨inner', here', refined⟩ := exists_getElem?_of_forall₂ below here
      rcases hypothesis refined found with open' | ⟨part', found', same⟩
      · exact Or.inl open'
      · exact Or.inr ⟨part', by rw [part?, here', Option.bind_some, found'], same⟩

/-- A type with the same heads at all places refines the other one. -/
theorem refinedBy_of_heads (s : Ty) : ∀ {t : Ty},
    (∀ place, (s.part? place).map head = (t.part? place).map head) → s.refinedBy t = true := by
  induction s using induction_parts with
  | step s hypothesis =>
    intro t heads
    have same : s.head = t.head := Option.some.inj (heads [])
    refine refinedBy_iff.mpr (Or.inr ⟨same, List.forall₂_iff_get.mpr ?_⟩)
    refine ⟨length_parts_of_head same, fun i bound bound' => ?_⟩
    refine hypothesis _ (List.getElem_mem bound) fun place => ?_
    have below := heads (i :: place)
    rw [part?, part?, List.getElem?_eq_getElem bound, List.getElem?_eq_getElem bound'] at below
    exact below

/-- Types that refine each other have one head. -/
theorem head_of_agrees (refined : s.refinedBy t = true) (refined' : t.refinedBy s = true) :
    s.head = t.head := by
  rcases refinedBy_iff.mp refined with rfl | ⟨same, -⟩
  · rcases refinedBy_iff.mp refined' with rfl | ⟨same, -⟩
    · rfl
    · exact same.symm
  · exact same

theorem heads_of_agrees {place : List Nat} (refined : s.refinedBy t = true)
    (refined' : t.refinedBy s = true) : (s.part? place).map head = (t.part? place).map head := by
  have same := head_of_agrees refined refined'
  induction place generalizing s t with
  | nil => exact congrArg some same
  | cons i place hypothesis =>
    rcases refinedBy_iff.mp refined with rfl | ⟨-, below⟩
    · rw [head_eq_unknown.mp same.symm]
    rcases refinedBy_iff.mp refined' with rfl | ⟨-, below'⟩
    · rw [head_eq_unknown.mp same]
    rw [part?, part?]
    cases here : s.parts[i]? with
    | none =>
      have length := length_parts_of_head same
      rw [List.getElem?_eq_none_iff, length, ← List.getElem?_eq_none_iff] at here
      rw [here]
    | some part =>
      obtain ⟨part', here', first⟩ := exists_getElem?_of_forall₂ below here
      obtain ⟨_, again, second⟩ := exists_getElem?_of_forall₂ below' here'
      cases here.symm.trans again
      rw [here', Option.bind_some, Option.bind_some]
      exact hypothesis first second (head_of_agrees first second)

/-- Types agree exactly if they have the same heads at all places. -/
theorem agrees_iff_heads : s.agrees t = true ↔
    ∀ place, (s.part? place).map head = (t.part? place).map head := by
  rw [agrees, Bool.and_eq_true]
  refine ⟨fun both place => heads_of_agrees both.1 both.2, fun heads => ?_⟩
  exact ⟨refinedBy_of_heads s heads, refinedBy_of_heads t fun place => (heads place).symm⟩

end Ty

end PackageCheck
