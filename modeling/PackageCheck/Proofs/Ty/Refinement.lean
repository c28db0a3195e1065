import PackageCheck.Proofs.Ty.Merge

/-! # Refinement of types

A type refines another one if it is the other one with some unknown parts filled in. The names of
structs and custom types are for the reader only, and the methods of a struct do not belong to its
values, so neither counts.

Refinement orders types by what is known of them. The common type of two types refines both, and
a known type is refined by nothing but itself, up to names. -/

namespace PackageCheck

mutual

/-- Whether the second type is the first one with some unknown parts filled in. -/
def Ty.refinedBy : Ty → Ty → Bool
  | .unknown, _ => true
  | .simple s, .simple t => s == t
  | .array m s, .array n t => m == n && s.refinedBy t
  | .slice s, .slice t => s.refinedBy t
  | .map k v, .map l w => k.refinedBy l && v.refinedBy w
  | .pointer s, .pointer t => s.refinedBy t
  | .tuple ss, .tuple ts => Ty.allRefinedBy ss ts
  | .struct ⟨_, fs, _⟩, .struct ⟨_, gs, _⟩ => Ty.fieldsRefinedBy fs gs
  | .func ⟨as, rs⟩, .func ⟨bs, ss⟩ => Ty.allRefinedBy as bs && Ty.allRefinedBy rs ss
  | .custom _ d, .custom _ e => d == e
  | _, _ => false

/-- Whether two lists of types are of one length, and refined pair by pair. -/
def Ty.allRefinedBy : List Ty → List Ty → Bool
  | [], [] => true
  | s :: ss, t :: ts => s.refinedBy t && Ty.allRefinedBy ss ts
  | _, _ => false

/-- Whether two lists of fields have the same names, and types that are refined pair by pair. -/
def Ty.fieldsRefinedBy : List FieldTy → List FieldTy → Bool
  | [], [] => true
  | ⟨a, s⟩ :: fs, ⟨b, t⟩ :: gs => a == b && s.refinedBy t && Ty.fieldsRefinedBy fs gs
  | _, _ => false

end

attribute [local simp] Ty.refinedBy Ty.allRefinedBy Ty.fieldsRefinedBy

/-- Whether two types are the same up to the names of structs and custom types, and the methods of
    structs. -/
def Ty.agrees (s t : Ty) : Bool :=
  s.refinedBy t && t.refinedBy s

/-! ## Shapes

What refines a type that is not unknown has its shape. -/

namespace Ty

variable {t : Ty}

theorem simple_refinedBy {s : Simple} : (Ty.simple s).refinedBy t = true ↔ t = .simple s := by
  cases t with
  | simple s' =>
    simp only [Ty.refinedBy, beq_iff_eq, Ty.simple.injEq]
    exact eq_comm
  | _ => simp [Ty.refinedBy]

theorem array_refinedBy {size : UInt64} {of : Ty} : (Ty.array size of).refinedBy t = true ↔
    ∃ of', t = .array size of' ∧ of.refinedBy of' = true := by
  cases t with
  | array size' of' =>
    simp only [Ty.refinedBy, Bool.and_eq_true, beq_iff_eq, Ty.array.injEq]
    constructor
    · rintro ⟨rfl, refined⟩
      exact ⟨of', ⟨rfl, rfl⟩, refined⟩
    · rintro ⟨_, ⟨rfl, rfl⟩, refined⟩
      exact ⟨rfl, refined⟩
  | _ => simp [Ty.refinedBy]

theorem slice_refinedBy {of : Ty} : (Ty.slice of).refinedBy t = true ↔
    ∃ of', t = .slice of' ∧ of.refinedBy of' = true := by
  cases t <;> simp [Ty.refinedBy]

theorem map_refinedBy {key value : Ty} : (Ty.map key value).refinedBy t = true ↔
    ∃ key' value', t = .map key' value' ∧ key.refinedBy key' = true ∧
      value.refinedBy value' = true := by
  cases t with
  | map key' value' =>
    simp only [Ty.refinedBy, Bool.and_eq_true, Ty.map.injEq]
    constructor
    · rintro ⟨refined, refined'⟩
      exact ⟨key', value', ⟨rfl, rfl⟩, refined, refined'⟩
    · rintro ⟨_, _, ⟨rfl, rfl⟩, refined, refined'⟩
      exact ⟨refined, refined'⟩
  | _ => simp [Ty.refinedBy]

theorem pointer_refinedBy {pointee : Ty} : (Ty.pointer pointee).refinedBy t = true ↔
    ∃ pointee', t = .pointer pointee' ∧ pointee.refinedBy pointee' = true := by
  cases t <;> simp [Ty.refinedBy]

theorem tuple_refinedBy {members : List Ty} : (Ty.tuple members).refinedBy t = true ↔
    ∃ members', t = .tuple members' ∧ Ty.allRefinedBy members members' = true := by
  cases t <;> simp [Ty.refinedBy]

theorem struct_refinedBy {layout : StructTy} : (Ty.struct layout).refinedBy t = true ↔
    ∃ layout', t = .struct layout' ∧
      Ty.fieldsRefinedBy layout.fields layout'.fields = true := by
  obtain ⟨_, fields, _⟩ := layout
  cases t with
  | struct layout' =>
    obtain ⟨_, fields', _⟩ := layout'
    simp [Ty.refinedBy]
  | _ => simp [Ty.refinedBy]

theorem func_refinedBy {signature : Signature} : (Ty.func signature).refinedBy t = true ↔
    ∃ signature', t = .func signature' ∧
      Ty.allRefinedBy signature.args signature'.args = true ∧
      Ty.allRefinedBy signature.results signature'.results = true := by
  obtain ⟨args, results⟩ := signature
  cases t with
  | func signature' =>
    obtain ⟨args', results'⟩ := signature'
    simp [Ty.refinedBy]
  | _ => simp [Ty.refinedBy]

theorem custom_refinedBy {name : String} {decl : SymbolId} :
    (Ty.custom name decl).refinedBy t = true ↔ ∃ name', t = .custom name' decl := by
  cases t with
  | custom name' decl' =>
    simp only [Ty.refinedBy, beq_iff_eq, Ty.custom.injEq]
    exact ⟨fun same => ⟨name', rfl, same.symm⟩, fun ⟨_, _, same⟩ => same.symm⟩
  | _ => simp [Ty.refinedBy]

theorem unknown_refinedBy : Ty.unknown.refinedBy t = true := by
  simp [Ty.refinedBy]

theorem nil_allRefinedBy {types : List Ty} : Ty.allRefinedBy [] types = true ↔ types = [] := by
  cases types <;> simp [Ty.allRefinedBy]

theorem cons_allRefinedBy {type : Ty} {rest types : List Ty} :
    Ty.allRefinedBy (type :: rest) types = true ↔
      ∃ type' rest', types = type' :: rest' ∧ type.refinedBy type' = true ∧
        Ty.allRefinedBy rest rest' = true := by
  cases types with
  | nil => simp [Ty.allRefinedBy]
  | cons type' rest' =>
    simp only [Ty.allRefinedBy, Bool.and_eq_true, List.cons.injEq]
    constructor
    · rintro ⟨refined, others⟩
      exact ⟨type', rest', ⟨rfl, rfl⟩, refined, others⟩
    · rintro ⟨_, _, ⟨rfl, rfl⟩, refined, others⟩
      exact ⟨refined, others⟩

theorem nil_fieldsRefinedBy {fields : List FieldTy} :
    Ty.fieldsRefinedBy [] fields = true ↔ fields = [] := by
  cases fields <;> simp [Ty.fieldsRefinedBy]

theorem cons_fieldsRefinedBy {name : String} {type : Ty} {rest fields : List FieldTy} :
    Ty.fieldsRefinedBy (⟨name, type⟩ :: rest) fields = true ↔
      ∃ type' rest', fields = ⟨name, type'⟩ :: rest' ∧ type.refinedBy type' = true ∧
        Ty.fieldsRefinedBy rest rest' = true := by
  cases fields with
  | nil => simp [Ty.fieldsRefinedBy]
  | cons field rest' =>
    obtain ⟨name', type'⟩ := field
    simp only [Ty.fieldsRefinedBy, Bool.and_eq_true, beq_iff_eq, List.cons.injEq,
      FieldTy.mk.injEq]
    constructor
    · rintro ⟨⟨rfl, refined⟩, others⟩
      exact ⟨type', rest', ⟨⟨rfl, rfl⟩, rfl⟩, refined, others⟩
    · rintro ⟨_, _, ⟨⟨rfl, rfl⟩, rfl⟩, refined, others⟩
      exact ⟨⟨rfl, refined⟩, others⟩

end Ty

/-! ## Order -/

mutual

@[simp]
theorem Ty.refinedBy_refl : ∀ type : Ty, type.refinedBy type = true
  | .simple _ => by simp [Ty.refinedBy]
  | .array _ of => by simp [Ty.refinedBy, Ty.refinedBy_refl of]
  | .slice of => by simp [Ty.refinedBy, Ty.refinedBy_refl of]
  | .map key value => by simp [Ty.refinedBy, Ty.refinedBy_refl key, Ty.refinedBy_refl value]
  | .pointer pointee => by simp [Ty.refinedBy, Ty.refinedBy_refl pointee]
  | .tuple members => by simp [Ty.refinedBy, Ty.allRefinedBy_refl members]
  | .struct ⟨_, fields, _⟩ => by simp [Ty.refinedBy, Ty.fieldsRefinedBy_refl fields]
  | .func ⟨args, results⟩ => by
    simp [Ty.refinedBy, Ty.allRefinedBy_refl args, Ty.allRefinedBy_refl results]
  | .custom _ _ => by simp [Ty.refinedBy]
  | .unknown => by simp [Ty.refinedBy]

theorem Ty.allRefinedBy_refl : ∀ types : List Ty, Ty.allRefinedBy types types = true
  | [] => by simp [Ty.allRefinedBy]
  | type :: rest => by
    simp [Ty.allRefinedBy, Ty.refinedBy_refl type, Ty.allRefinedBy_refl rest]

theorem Ty.fieldsRefinedBy_refl : ∀ fields : List FieldTy, Ty.fieldsRefinedBy fields fields = true
  | [] => by simp [Ty.fieldsRefinedBy]
  | ⟨_, type⟩ :: rest => by
    simp [Ty.fieldsRefinedBy, Ty.refinedBy_refl type, Ty.fieldsRefinedBy_refl rest]

end

mutual

theorem Ty.refinedBy_trans : ∀ {s t u : Ty}, s.refinedBy t = true → t.refinedBy u = true →
    s.refinedBy u = true
  | .unknown, _, _, _, _ => Ty.unknown_refinedBy
  | .simple s, t, u, first, second => by
    rw [Ty.simple_refinedBy.mp first] at second
    exact second
  | .array m s, t, u, first, second => by
    obtain ⟨t', rfl, first'⟩ := Ty.array_refinedBy.mp first
    obtain ⟨u', rfl, second'⟩ := Ty.array_refinedBy.mp second
    exact Ty.array_refinedBy.mpr ⟨u', rfl, Ty.refinedBy_trans first' second'⟩
  | .slice s, t, u, first, second => by
    obtain ⟨t', rfl, first⟩ := Ty.slice_refinedBy.mp first
    obtain ⟨u', rfl, second⟩ := Ty.slice_refinedBy.mp second
    exact Ty.slice_refinedBy.mpr ⟨u', rfl, Ty.refinedBy_trans first second⟩
  | .map k v, t, u, first, second => by
    obtain ⟨k', v', rfl, key, value⟩ := Ty.map_refinedBy.mp first
    obtain ⟨k'', v'', rfl, key', value'⟩ := Ty.map_refinedBy.mp second
    exact Ty.map_refinedBy.mpr
      ⟨k'', v'', rfl, Ty.refinedBy_trans key key', Ty.refinedBy_trans value value'⟩
  | .pointer s, t, u, first, second => by
    obtain ⟨t', rfl, first⟩ := Ty.pointer_refinedBy.mp first
    obtain ⟨u', rfl, second⟩ := Ty.pointer_refinedBy.mp second
    exact Ty.pointer_refinedBy.mpr ⟨u', rfl, Ty.refinedBy_trans first second⟩
  | .tuple ss, t, u, first, second => by
    obtain ⟨ts, rfl, first⟩ := Ty.tuple_refinedBy.mp first
    obtain ⟨us, rfl, second⟩ := Ty.tuple_refinedBy.mp second
    exact Ty.tuple_refinedBy.mpr ⟨us, rfl, Ty.allRefinedBy_trans first second⟩
  | .struct ⟨_, fs, _⟩, t, u, first, second => by
    obtain ⟨layout', rfl, first'⟩ := Ty.struct_refinedBy.mp first
    obtain ⟨layout'', rfl, second'⟩ := Ty.struct_refinedBy.mp second
    exact Ty.struct_refinedBy.mpr ⟨layout'', rfl, Ty.fieldsRefinedBy_trans first' second'⟩
  | .func ⟨as, rs⟩, t, u, first, second => by
    obtain ⟨signature', rfl, args, results⟩ := Ty.func_refinedBy.mp first
    obtain ⟨signature'', rfl, args', results'⟩ := Ty.func_refinedBy.mp second
    exact Ty.func_refinedBy.mpr ⟨signature'', rfl, Ty.allRefinedBy_trans args args',
      Ty.allRefinedBy_trans results results'⟩
  | .custom _ d, t, u, first, second => by
    obtain ⟨name', rfl⟩ := Ty.custom_refinedBy.mp first
    exact Ty.custom_refinedBy.mpr (Ty.custom_refinedBy.mp second)

theorem Ty.allRefinedBy_trans : ∀ {ss ts us : List Ty}, Ty.allRefinedBy ss ts = true →
    Ty.allRefinedBy ts us = true → Ty.allRefinedBy ss us = true
  | [], ts, us, first, second => by
    rw [Ty.nil_allRefinedBy.mp first] at second
    exact second
  | s :: ss, ts, us, first, second => by
    obtain ⟨t, ts', rfl, first, rest⟩ := Ty.cons_allRefinedBy.mp first
    obtain ⟨u, us', rfl, second, rest'⟩ := Ty.cons_allRefinedBy.mp second
    exact Ty.cons_allRefinedBy.mpr
      ⟨u, us', rfl, Ty.refinedBy_trans first second, Ty.allRefinedBy_trans rest rest'⟩

theorem Ty.fieldsRefinedBy_trans : ∀ {fs gs hs : List FieldTy}, Ty.fieldsRefinedBy fs gs = true →
    Ty.fieldsRefinedBy gs hs = true → Ty.fieldsRefinedBy fs hs = true
  | [], gs, hs, first, second => by
    rw [Ty.nil_fieldsRefinedBy.mp first] at second
    exact second
  | ⟨a, s⟩ :: fs, gs, hs, first, second => by
    obtain ⟨t, gs', rfl, first, rest⟩ := Ty.cons_fieldsRefinedBy.mp first
    obtain ⟨u, hs', rfl, second, rest'⟩ := Ty.cons_fieldsRefinedBy.mp second
    exact Ty.cons_fieldsRefinedBy.mpr
      ⟨u, hs', rfl, Ty.refinedBy_trans first second, Ty.fieldsRefinedBy_trans rest rest'⟩

end

/-! ## Known types -/

mutual

/-- A known type is refined by nothing but itself, up to names. -/
theorem Ty.refinedBy_symm : ∀ {s t : Ty}, s.known = true → s.refinedBy t = true →
    t.refinedBy s = true
  | .unknown, _, known, _ => by simp [Ty.known] at known
  | .simple s, t, known, refined => by
    rw [Ty.simple_refinedBy.mp refined]
    exact Ty.refinedBy_refl _
  | .array m s, t, known, refined => by
    obtain ⟨t', rfl, refined'⟩ := Ty.array_refinedBy.mp refined
    rw [Ty.known] at known
    exact Ty.array_refinedBy.mpr ⟨s, rfl, Ty.refinedBy_symm known refined'⟩
  | .slice s, t, known, refined => by
    obtain ⟨t', rfl, refined⟩ := Ty.slice_refinedBy.mp refined
    rw [Ty.known] at known
    exact Ty.slice_refinedBy.mpr ⟨s, rfl, Ty.refinedBy_symm known refined⟩
  | .map k v, t, known, refined => by
    obtain ⟨k', v', rfl, key, value⟩ := Ty.map_refinedBy.mp refined
    rw [Ty.known, Bool.and_eq_true] at known
    exact Ty.map_refinedBy.mpr
      ⟨k, v, rfl, Ty.refinedBy_symm known.1 key, Ty.refinedBy_symm known.2 value⟩
  | .pointer s, t, known, refined => by
    obtain ⟨t', rfl, refined⟩ := Ty.pointer_refinedBy.mp refined
    rw [Ty.known] at known
    exact Ty.pointer_refinedBy.mpr ⟨s, rfl, Ty.refinedBy_symm known refined⟩
  | .tuple ss, t, known, refined => by
    obtain ⟨ts, rfl, refined⟩ := Ty.tuple_refinedBy.mp refined
    rw [Ty.known] at known
    exact Ty.tuple_refinedBy.mpr ⟨ss, rfl, Ty.allRefinedBy_symm known refined⟩
  | .struct ⟨name, fs, methods⟩, t, known, refined => by
    obtain ⟨layout', rfl, refined'⟩ := Ty.struct_refinedBy.mp refined
    rw [Ty.known] at known
    exact Ty.struct_refinedBy.mpr ⟨_, rfl, Ty.fieldsRefinedBy_symm known refined'⟩
  | .func ⟨as, rs⟩, t, known, refined => by
    obtain ⟨signature', rfl, args, results⟩ := Ty.func_refinedBy.mp refined
    rw [Ty.known, Signature.known, Bool.and_eq_true] at known
    exact Ty.func_refinedBy.mpr
      ⟨_, rfl, Ty.allRefinedBy_symm known.1 args, Ty.allRefinedBy_symm known.2 results⟩
  | .custom name d, t, known, refined => by
    obtain ⟨name', rfl⟩ := Ty.custom_refinedBy.mp refined
    exact Ty.custom_refinedBy.mpr ⟨name, rfl⟩

theorem Ty.allRefinedBy_symm : ∀ {ss ts : List Ty}, Ty.allKnown ss = true →
    Ty.allRefinedBy ss ts = true → Ty.allRefinedBy ts ss = true
  | [], ts, _, refined => by
    rw [Ty.nil_allRefinedBy.mp refined]
    rfl
  | s :: ss, ts, known, refined => by
    obtain ⟨t, ts', rfl, refined, rest⟩ := Ty.cons_allRefinedBy.mp refined
    rw [Ty.allKnown, Bool.and_eq_true] at known
    exact Ty.cons_allRefinedBy.mpr
      ⟨s, ss, rfl, Ty.refinedBy_symm known.1 refined, Ty.allRefinedBy_symm known.2 rest⟩

theorem Ty.fieldsRefinedBy_symm : ∀ {fs gs : List FieldTy}, Ty.fieldsKnown fs = true →
    Ty.fieldsRefinedBy fs gs = true → Ty.fieldsRefinedBy gs fs = true
  | [], gs, _, refined => by
    rw [Ty.nil_fieldsRefinedBy.mp refined]
    rfl
  | ⟨a, s⟩ :: fs, gs, known, refined => by
    obtain ⟨t, gs', rfl, refined, rest⟩ := Ty.cons_fieldsRefinedBy.mp refined
    rw [Ty.fieldsKnown, Bool.and_eq_true] at known
    exact Ty.cons_fieldsRefinedBy.mpr
      ⟨s, fs, rfl, Ty.refinedBy_symm known.1 refined, Ty.fieldsRefinedBy_symm known.2 rest⟩

end

namespace Ty

/-- What refines a known type agrees with it. -/
theorem agrees_of_known {s t : Ty} (known : s.known = true) (refined : s.refinedBy t = true) :
    s.agrees t = true := by
  rw [agrees, refined, refinedBy_symm known refined]
  rfl

end Ty

/-! ## Negotiation -/

mutual

theorem Ty.Merged.refines : ∀ {s t u : Ty}, Ty.Merged s t u →
    s.refinedBy u = true ∧ t.refinedBy u = true
  | _, _, _, .found type => ⟨Ty.unknown_refinedBy, Ty.refinedBy_refl type⟩
  | _, _, _, .expected type => ⟨Ty.refinedBy_refl type, Ty.unknown_refinedBy⟩
  | _, _, _, .simple s => ⟨Ty.refinedBy_refl _, Ty.refinedBy_refl _⟩
  | _, _, _, .custom name name' decl => by simp [Ty.refinedBy]
  | _, _, _, .array size of => by simpa [Ty.refinedBy] using of.refines
  | _, _, _, .slice of => of.refines
  | _, _, _, .pointer pointee => pointee.refines
  | _, _, _, .map key value => by simp [Ty.refinedBy, key.refines, value.refines]
  | _, _, _, .tuple members => members.refines
  | _, _, _, .func args results => by simp [Ty.refinedBy, args.refines, results.refines]
  | _, _, _, .struct name name' methods methods' fields => fields.refines

theorem Ty.AllMerged.refines : ∀ {ss ts us : List Ty}, Ty.AllMerged ss ts us →
    Ty.allRefinedBy ss us = true ∧ Ty.allRefinedBy ts us = true
  | _, _, _, .nil => ⟨rfl, rfl⟩
  | _, _, _, .cons head tail => by simp [Ty.allRefinedBy, head.refines, tail.refines]

theorem Ty.FieldsMerged.refines : ∀ {fs gs hs : List FieldTy}, Ty.FieldsMerged fs gs hs →
    Ty.fieldsRefinedBy fs hs = true ∧ Ty.fieldsRefinedBy gs hs = true
  | _, _, _, .nil => ⟨rfl, rfl⟩
  | _, _, _, .cons name head tail => by simp [Ty.fieldsRefinedBy, head.refines, tail.refines]

end

/-- The common type of two types refines both. -/
theorem Ty.refinedBy_merge {s t u : Ty} (merged : s.merge t = .ok u) :
    s.refinedBy u = true ∧ t.refinedBy u = true :=
  (Ty.merged_of_merge merged).refines

end PackageCheck
