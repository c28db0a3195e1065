import Mathlib.Logic.Relation
import PackageCheck.Proofs.Ty.Complete
import PackageCheck.Proofs.Ty.Place

/-! # Occurrences in types

A type occurs in another one if it is that type, or if it stands somewhere inside of it. What
stands directly inside of a type are its members: its parts and, in a struct, the types in the
signatures of the methods, which are no parts of it.

Two functions look for unknown types. `Ty.complete` goes from members to their members and finds
each occurrence (`complete_iff_not_occursIn`). `Ty.known` goes from parts to parts alone, so it
passes over the ones in the signatures of methods (`known_exact_iff`). -/

namespace PackageCheck

namespace Ty

/-! ## Members -/

/-- The types in the signatures of the methods of a struct. -/
def methodTypes : Ty → List Ty
  | .struct layout =>
    layout.methods.flatMap fun method => method.signature.args ++ method.signature.results
  | _ => []

/-- The types that stand directly inside of a type. -/
def members (type : Ty) : List Ty :=
  type.parts ++ type.methodTypes

/-- Whether the first type is the second one or stands inside of it, at any depth. -/
def OccursIn (part whole : Ty) : Prop :=
  Relation.ReflTransGen (fun s t => s ∈ t.members) part whole

/-- Whether the first type is the second one or stands inside of it, with no signature of a method
    around it. -/
def OccursOutsideMethods (part whole : Ty) : Prop :=
  Relation.ReflTransGen (fun s t => s ∈ t.parts) part whole

/-- What stands outside of methods stands inside of the type all the same. -/
theorem OccursOutsideMethods.occursIn {part whole : Ty} (occurs : part.OccursOutsideMethods whole) :
    part.OccursIn whole :=
  Relation.ReflTransGen.mono (fun _ _ member => List.mem_append_left _ member) part whole occurs

theorem sizeOf_lt_of_mem_members {type member : Ty} (inside : member ∈ type.members) :
    sizeOf member < sizeOf type := by
  rcases List.mem_append.mp inside with part | ofMethod
  · exact sizeOf_lt_of_mem_parts part
  · cases type with
    | struct layout =>
      obtain ⟨name, fields, methods⟩ := layout
      obtain ⟨⟨label, ⟨args, results⟩⟩, listed, mentioned⟩ := List.mem_flatMap.mp ofMethod
      have smaller := List.sizeOf_lt_of_mem listed
      simp only [struct.sizeOf_spec, StructTy.mk.sizeOf_spec, MethodTy.mk.sizeOf_spec,
        Signature.mk.sizeOf_spec] at smaller ⊢
      rcases List.mem_append.mp mentioned with argument | result
      · have within : sizeOf member < sizeOf args := List.sizeOf_lt_of_mem argument
        omega
      · have within : sizeOf member < sizeOf results := List.sizeOf_lt_of_mem result
        omega
    | _ => cases ofMethod

/-! ## Deciding occurrences -/

/-- A test that a type passes exactly if it is not unknown, and all that the test looks at inside of
    it passes too, finds out whether it comes upon an unknown type on any way down. -/
theorem test_iff_not_reaches {inside : Ty → List Ty} {test : Ty → Bool}
    (smaller : ∀ type, ∀ part ∈ inside type, sizeOf part < sizeOf type)
    (step : ∀ type, test type = true ↔ type ≠ .unknown ∧ ∀ part ∈ inside type, test part = true)
    (type : Ty) :
    test type = true ↔ ¬ Relation.ReflTransGen (fun s t => s ∈ inside t) .unknown type := by
  have below : ∀ part ∈ inside type,
      test part = true ↔ ¬ Relation.ReflTransGen (fun s t => s ∈ inside t) .unknown part :=
    fun part _ => test_iff_not_reaches smaller step part
  rw [step]
  constructor
  · rintro ⟨filled, passed⟩ reaches
    -- the way down is empty, or it enters the type through one of its members
    rcases Relation.ReflTransGen.cases_tail_iff _ _ _ |>.mp reaches with same | ⟨part, way, member⟩
    · exact filled same
    · exact (below part member).mp (passed part member) way
  · intro missed
    refine ⟨?_, fun part member => (below part member).mpr fun way => missed (way.tail member)⟩
    rintro rfl
    exact missed .refl
termination_by sizeOf type
decreasing_by exact smaller type part ‹_›

/-- A type is known exactly if nothing is left to infer outside of the signatures of methods. -/
theorem known_iff_not_occursOutsideMethods (type : Ty) :
    type.known = true ↔ ¬ unknown.OccursOutsideMethods type :=
  test_iff_not_reaches (fun _ _ member => sizeOf_lt_of_mem_parts member)
    (fun _ => known_iff_parts) type

theorem allComplete_iff {types : List Ty} :
    allComplete types = true ↔ ∀ type ∈ types, type.complete = true := by
  induction types with
  | nil => simp [allComplete]
  | cons type rest hypothesis => simp [allComplete, hypothesis]

theorem fieldsComplete_iff {fields : List FieldTy} :
    fieldsComplete fields = true ↔ ∀ field ∈ fields, field.type.complete = true := by
  induction fields with
  | nil => simp [fieldsComplete]
  | cons field rest hypothesis =>
    obtain ⟨name, type⟩ := field
    simp [fieldsComplete, hypothesis]

theorem methodsComplete_iff {methods : List MethodTy} :
    methodsComplete methods = true ↔ ∀ method ∈ methods, method.signature.complete = true := by
  induction methods with
  | nil => simp [methodsComplete]
  | cons method rest hypothesis =>
    obtain ⟨name, signature⟩ := method
    simp [methodsComplete, hypothesis]

theorem complete_iff_members {type : Ty} :
    type.complete = true ↔ type ≠ .unknown ∧ ∀ member ∈ type.members, member.complete = true := by
  cases type with
  | struct layout =>
    obtain ⟨name, fields, methods⟩ := layout
    -- the test goes through the methods one by one, their types are listed all together
    have signatures : methodsComplete methods = true ↔
        ∀ type ∈ methodTypes (.struct ⟨name, fields, methods⟩), type.complete = true := by
      rw [methodsComplete_iff, methodTypes, List.forall_mem_flatMap]
      refine forall₂_congr fun method _ => ?_
      obtain ⟨label, ⟨arguments, results⟩⟩ := method
      rw [Signature.complete, Bool.and_eq_true, allComplete_iff, allComplete_iff,
        List.forall_mem_append]
    simp [complete, members, parts, fieldsComplete_iff, signatures, or_imp, forall_and]
  | func signature =>
    obtain ⟨args, results⟩ := signature
    simp [complete, Signature.complete, members, parts, methodTypes, allComplete_iff, or_imp,
      forall_and]
  | tuple types => simp [complete, members, parts, methodTypes, allComplete_iff]
  | _ => simp [complete, members, parts, methodTypes]

/-- A type is complete exactly if nothing is left to infer anywhere inside of it. -/
theorem complete_iff_not_occursIn (type : Ty) :
    type.complete = true ↔ ¬ unknown.OccursIn type :=
  test_iff_not_reaches (fun _ _ inside => sizeOf_lt_of_mem_members inside)
    (fun _ => complete_iff_members) type

/-! ## What a known type may hold -/

/-- A type is known exactly if nothing is left to infer outside of the signatures of methods. This
    is to say that nothing is left to infer anywhere in it, unless something is left in the
    signatures of methods and nowhere else. -/
theorem known_exact_iff (type : Ty) :
    (type.known = true ↔ ¬ unknown.OccursOutsideMethods type) ∧
      ((type.known = true ↔ ¬ unknown.OccursIn type) ↔
        ¬ (unknown.OccursIn type ∧ ¬ unknown.OccursOutsideMethods type)) := by
  have outside : type.known = true ↔ ¬ unknown.OccursOutsideMethods type :=
    known_iff_not_occursOutsideMethods type
  refine ⟨outside, ?_⟩
  rw [outside]
  constructor
  · rintro exact ⟨occurs, missed⟩
    exact exact.mp missed occurs
  · intro noticed
    refine ⟨fun missed occurs => noticed ⟨occurs, missed⟩, fun absent occurs => ?_⟩
    exact absent occurs.occursIn

/-- A struct whose only method takes an argument of which nothing is known. -/
def openMethod : Ty :=
  .struct ⟨"S", [], [⟨"m", [.unknown], []⟩]⟩

/-- The struct is known, though there is something left to infer in it. -/
theorem openMethod_known : openMethod.known = true ∧ unknown.OccursIn openMethod := by
  have inside : unknown ∈ openMethod.members := List.mem_singleton_self _
  exact ⟨rfl, .single inside⟩

end Ty

end PackageCheck
