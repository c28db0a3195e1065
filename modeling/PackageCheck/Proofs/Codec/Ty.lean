import PackageCheck.Codec.Ty
import PackageCheck.Codec.TypeSpec
import PackageCheck.Proofs.Codec.Leaf

/-! # Stored types read back

Types and type specifications are read as what they were stored as, in both styles of cases, with
the names of structs and all methods. The bound for the nesting is no restriction: reading goes one
step down for each array or object of the stored form at most. -/

namespace PackageCheck

/-! ## Handles in types -/

mutual

/-- Whether the handles in a type can be stored. -/
def Ty.storable : Ty → Bool
  | .simple _ | .unknown => true
  | .array _ of | .slice of => of.storable
  | .map key value => key.storable && value.storable
  | .pointer pointee => pointee.storable
  | .tuple members => Ty.allStorable members
  | .struct layout => layout.storable
  | .func signature => signature.storable
  | .custom _ decl => decl.storable

/-- Whether the handles in a struct can be stored. -/
def StructTy.storable : StructTy → Bool
  | ⟨_, fields, methods⟩ => FieldTy.allStorable fields && MethodTy.allStorable methods

/-- Whether the handles in a signature can be stored. -/
def Signature.storable : Signature → Bool
  | ⟨args, results⟩ => Ty.allStorable args && Ty.allStorable results

/-- Whether the handles in types can be stored. -/
def Ty.allStorable : List Ty → Bool
  | [] => true
  | type :: rest => type.storable && Ty.allStorable rest

/-- Whether the handles in fields can be stored. -/
def FieldTy.allStorable : List FieldTy → Bool
  | [] => true
  | ⟨_, type⟩ :: rest => type.storable && FieldTy.allStorable rest

/-- Whether the handles in methods can be stored. -/
def MethodTy.allStorable : List MethodTy → Bool
  | [] => true
  | ⟨_, signature⟩ :: rest => signature.storable && MethodTy.allStorable rest

end

/-! ## Types -/

theorem Simple.stores (simple : Simple) : Stores (.str simple.tag) Simple.ofJson? simple :=
  ⟨rfl, nofun, by cases simple <;> rfl⟩

variable {style : Json.CaseStyle}

mutual

/-- A type is read back. -/
theorem Ty.stores_read (type : Ty) (fits : type.storable) {n : Nat}
    (room : type.toJson.depth < n) : Stores type.toJson (Ty.read style n) type := by
  obtain ⟨n, rfl⟩ := exists_eq_succ_of_lt room
  cases type with
  | simple name => exact (Simple.stores name).tagged rfl
  | array size of =>
    simp only [Ty.toJson, Json.tagged, Json.depth, Json.depthOfEntries] at room
    have inner : Stores of.toJson (Ty.read style n) of := Ty.stores_read of fits (by omega)
    refine ⟨?_, nofun, ?_⟩
    · simp [Ty.toJson, Json.tagged, Json.nat, Json.isPlain, Json.entriesPlain, inner.plain]
    · have parts : Ty.read style (n + 1) (Ty.array size of).toJson = (do
        return .array (← (Json.nat size.toNat).word64?) (← Ty.read style n of.toJson)) := by
        cases style <;> rfl
      rw [parts, word64?_nat, inner.read]
      rfl
  | slice of =>
    simp only [Ty.toJson, Json.tagged, Json.depth, Json.depthOfEntries] at room
    have inner : Stores of.toJson (Ty.read style n) of := Ty.stores_read of fits (by omega)
    exact inner.tagged rfl
  | map key value =>
    simp only [Ty.toJson, Json.tagged, Json.depth, Json.depthOfEntries] at room
    obtain ⟨keyFits, valueFits⟩ := Bool.and_eq_true_iff.mp fits
    have first : Stores key.toJson (Ty.read style n) key := Ty.stores_read key keyFits (by omega)
    have second : Stores value.toJson (Ty.read style n) value :=
      Ty.stores_read value valueFits (by omega)
    refine ⟨?_, nofun, ?_⟩
    · simp [Ty.toJson, Json.tagged, Json.isPlain, Json.entriesPlain, first.plain, second.plain]
    · have parts : Ty.read style (n + 1) (Ty.map key value).toJson = (do
        return .map (← Ty.read style n key.toJson) (← Ty.read style n value.toJson)) := by
        cases style <;> rfl
      rw [parts, first.read, second.read]
      rfl
  | pointer pointee =>
    simp only [Ty.toJson, Json.tagged, Json.depth, Json.depthOfEntries] at room
    have inner : Stores pointee.toJson (Ty.read style n) pointee :=
      Ty.stores_read pointee fits (by omega)
    exact inner.tagged rfl
  | tuple members =>
    simp only [Ty.toJson, Json.tagged, Json.depth, Json.depthOfEntries] at room
    have inner : StoresAll (Ty.toJsonList members) (Ty.read style n) members :=
      Ty.storesAll_read members fits (by omega)
    exact inner.list.tagged rfl
  | struct layout =>
    simp only [Ty.toJson, Json.tagged, Json.depth, Json.depthOfEntries] at room
    have inner : Stores layout.toJson (StructTy.read style n) layout :=
      StructTy.stores_read layout fits (by omega)
    exact inner.tagged rfl
  | func signature =>
    simp only [Ty.toJson, Json.tagged, Json.depth, Json.depthOfEntries] at room
    have inner : Stores signature.toJson (Signature.read style n) signature :=
      Signature.stores_read signature fits (by omega)
    exact inner.tagged rfl
  | custom name decl =>
    have handle := SymbolId.stores fits
    refine ⟨?_, nofun, ?_⟩
    · simp [Ty.toJson, Json.tagged, Json.isPlain, Json.entriesPlain, handle.plain]
    · have parts : Ty.read style (n + 1) (Ty.custom name decl).toJson = (do
        return .custom name (← SymbolId.ofJson? decl.toJson)) := rfl
      rw [parts, handle.read]
      rfl
  | unknown => exact ⟨rfl, nofun, rfl⟩

/-- A struct is read back, with its name. -/
theorem StructTy.stores_read (layout : StructTy) (fits : layout.storable) {n : Nat}
    (room : layout.toJson.depth < n) : Stores layout.toJson (StructTy.read style n) layout := by
  obtain ⟨n, rfl⟩ := exists_eq_succ_of_lt room
  obtain ⟨name, fields, methods⟩ := layout
  simp only [StructTy.toJson, Json.depth, Json.depthOfEntries] at room
  obtain ⟨fieldsFit, methodsFit⟩ := Bool.and_eq_true_iff.mp fits
  have first : StoresAll (FieldTy.toJsonList fields) (FieldTy.read style n) fields :=
    FieldTy.storesAll_read fields fieldsFit (by omega)
  have second : StoresAll (MethodTy.toJsonList methods) (MethodTy.read style n) methods :=
    MethodTy.storesAll_read methods methodsFit (by omega)
  refine ⟨?_, nofun, ?_⟩
  · simp [StructTy.toJson, Json.isPlain, Json.entriesPlain, first.plain, second.plain]
  · have parts : StructTy.read style (n + 1) (StructTy.mk name fields methods).toJson = (do
      return ⟨name, ← (FieldTy.toJsonList fields).mapM (FieldTy.read style n),
        ← (MethodTy.toJsonList methods).mapM (MethodTy.read style n)⟩) := rfl
    rw [parts, first.read, second.read]
    rfl

/-- A signature is read back. -/
theorem Signature.stores_read (signature : Signature) (fits : signature.storable) {n : Nat}
    (room : signature.toJson.depth < n) :
    Stores signature.toJson (Signature.read style n) signature := by
  obtain ⟨n, rfl⟩ := exists_eq_succ_of_lt room
  obtain ⟨args, results⟩ := signature
  simp only [Signature.toJson, Json.depth, Json.depthOfEntries] at room
  obtain ⟨argsFit, resultsFit⟩ := Bool.and_eq_true_iff.mp fits
  have first : StoresAll (Ty.toJsonList args) (Ty.read style n) args :=
    Ty.storesAll_read args argsFit (by omega)
  have second : StoresAll (Ty.toJsonList results) (Ty.read style n) results :=
    Ty.storesAll_read results resultsFit (by omega)
  refine ⟨?_, nofun, ?_⟩
  · simp [Signature.toJson, Json.isPlain, Json.entriesPlain, first.plain, second.plain]
  · have parts : Signature.read style (n + 1) (Signature.mk args results).toJson = (do
      return ⟨← (Ty.toJsonList args).mapM (Ty.read style n),
        ← (Ty.toJsonList results).mapM (Ty.read style n)⟩) := rfl
    rw [parts, first.read, second.read]
    rfl

/-- Types are read back. -/
theorem Ty.storesAll_read (types : List Ty) (fits : Ty.allStorable types) {n : Nat}
    (room : Json.depthOfItems (Ty.toJsonList types) < n) :
    StoresAll (Ty.toJsonList types) (Ty.read style n) types := by
  cases types with
  | nil => exact .nil
  | cons type rest =>
    simp only [Ty.toJsonList, Json.depthOfItems] at room
    obtain ⟨here, others⟩ := Bool.and_eq_true_iff.mp fits
    exact .cons (Ty.stores_read type here (by omega)) (Ty.storesAll_read rest others (by omega))

/-- Fields are read back. -/
theorem FieldTy.storesAll_read (fields : List FieldTy) (fits : FieldTy.allStorable fields)
    {n : Nat} (room : Json.depthOfItems (FieldTy.toJsonList fields) < n) :
    StoresAll (FieldTy.toJsonList fields) (FieldTy.read style n) fields := by
  cases fields with
  | nil => exact .nil
  | cons field rest =>
    obtain ⟨name, type⟩ := field
    simp only [FieldTy.toJsonList, Json.depthOfItems, Json.depth, Json.depthOfEntries] at room
    obtain ⟨here, others⟩ := Bool.and_eq_true_iff.mp fits
    obtain ⟨m, rfl⟩ := exists_eq_succ_of_lt room
    have inner : Stores type.toJson (Ty.read style m) type := Ty.stores_read type here (by omega)
    refine .cons ⟨?_, nofun, ?_⟩ (FieldTy.storesAll_read rest others (by omega))
    · simp [Json.isPlain, Json.entriesPlain, inner.plain]
    · have parts : FieldTy.read style (m + 1)
          (.obj [("name", .str name), ("type", type.toJson)]) = (do
        return ⟨name, ← Ty.read style m type.toJson⟩) := rfl
      rw [parts, inner.read]
      rfl

/-- Methods are read back. -/
theorem MethodTy.storesAll_read (methods : List MethodTy) (fits : MethodTy.allStorable methods)
    {n : Nat} (room : Json.depthOfItems (MethodTy.toJsonList methods) < n) :
    StoresAll (MethodTy.toJsonList methods) (MethodTy.read style n) methods := by
  cases methods with
  | nil => exact .nil
  | cons method rest =>
    obtain ⟨name, signature⟩ := method
    simp only [MethodTy.toJsonList, Json.depthOfItems, Json.depth, Json.depthOfEntries] at room
    obtain ⟨here, others⟩ := Bool.and_eq_true_iff.mp fits
    obtain ⟨m, rfl⟩ := exists_eq_succ_of_lt room
    have inner : Stores signature.toJson (Signature.read style m) signature :=
      Signature.stores_read signature here (by omega)
    refine .cons ⟨?_, nofun, ?_⟩ (MethodTy.storesAll_read rest others (by omega))
    · simp [Json.isPlain, Json.entriesPlain, inner.plain]
    · have parts : MethodTy.read style (m + 1)
          (.obj [("name", .str name), ("signature", signature.toJson)]) = (do
        return ⟨name, ← Signature.read style m signature.toJson⟩) := rfl
      rw [parts, inner.read]
      rfl

end

theorem Ty.stores {type : Ty} (fits : type.storable) :
    Stores type.toJson (Ty.ofJson? style) type :=
  have stored : Stores type.toJson (Ty.read style (type.toJson.depth + 1)) type :=
    Ty.stores_read type fits (Nat.lt_succ_self _)
  ⟨stored.plain, stored.given, stored.read⟩

/-! ## Type specifications -/

mutual

/-- A specification is read back. -/
theorem TypeSpec.stores_read (spec : TypeSpec) {n : Nat} (room : spec.toJson.depth < n) :
    Stores spec.toJson (TypeSpec.read style n) spec := by
  obtain ⟨n, rfl⟩ := exists_eq_succ_of_lt room
  cases spec with
  | named name position =>
    refine ⟨rfl, nofun, ?_⟩
    have parts : TypeSpec.read style (n + 1) (TypeSpec.named name position).toJson = (do
      return .named name (← Position.ofJson? position.toJson)) := by
      cases style <;> rfl
    rw [parts, position.stores.read]
    rfl
  | array size of =>
    simp only [TypeSpec.toJson, Json.tagged, Json.depth, Json.depthOfEntries] at room
    have inner : Stores of.toJson (TypeSpec.read style n) of :=
      TypeSpec.stores_read of (by omega)
    refine ⟨?_, nofun, ?_⟩
    · simp [TypeSpec.toJson, Json.tagged, Json.nat, Json.isPlain, Json.entriesPlain, inner.plain]
    · have parts : TypeSpec.read style (n + 1) (TypeSpec.array size of).toJson = (do
        return .array (← (Json.nat size.toNat).word64?) (← TypeSpec.read style n of.toJson)) := by
        cases style <;> rfl
      rw [parts, word64?_nat, inner.read]
      rfl
  | slice of =>
    simp only [TypeSpec.toJson, Json.tagged, Json.depth, Json.depthOfEntries] at room
    have inner : Stores of.toJson (TypeSpec.read style n) of :=
      TypeSpec.stores_read of (by omega)
    exact inner.tagged rfl
  | map key value =>
    simp only [TypeSpec.toJson, Json.tagged, Json.depth, Json.depthOfEntries] at room
    have first : Stores key.toJson (TypeSpec.read style n) key :=
      TypeSpec.stores_read key (by omega)
    have second : Stores value.toJson (TypeSpec.read style n) value :=
      TypeSpec.stores_read value (by omega)
    refine ⟨?_, nofun, ?_⟩
    · simp [TypeSpec.toJson, Json.tagged, Json.isPlain, Json.entriesPlain, first.plain,
        second.plain]
    · have parts : TypeSpec.read style (n + 1) (TypeSpec.map key value).toJson = (do
        return .map (← TypeSpec.read style n key.toJson)
          (← TypeSpec.read style n value.toJson)) := by
        cases style <;> rfl
      rw [parts, first.read, second.read]
      rfl
  | pointer pointee =>
    simp only [TypeSpec.toJson, Json.tagged, Json.depth, Json.depthOfEntries] at room
    have inner : Stores pointee.toJson (TypeSpec.read style n) pointee :=
      TypeSpec.stores_read pointee (by omega)
    exact inner.tagged rfl
  | tuple members =>
    simp only [TypeSpec.toJson, Json.tagged, Json.depth, Json.depthOfEntries] at room
    have inner : StoresAll (TypeSpec.toJsonList members) (TypeSpec.read style n) members :=
      TypeSpec.storesAll_read members (by omega)
    exact inner.list.tagged rfl
  | func args results =>
    simp only [TypeSpec.toJson, Json.tagged, Json.depth, Json.depthOfEntries] at room
    have first : StoresAll (TypeSpec.toJsonList args) (TypeSpec.read style n) args :=
      TypeSpec.storesAll_read args (by omega)
    have second : StoresAll (TypeSpec.toJsonList results) (TypeSpec.read style n) results :=
      TypeSpec.storesAll_read results (by omega)
    refine ⟨?_, nofun, ?_⟩
    · simp [TypeSpec.toJson, Json.tagged, Json.isPlain, Json.entriesPlain, first.plain,
        second.plain]
    · have parts : TypeSpec.read style (n + 1) (TypeSpec.func args results).toJson = (do
        return .func (← (TypeSpec.toJsonList args).mapM (TypeSpec.read style n))
          (← (TypeSpec.toJsonList results).mapM (TypeSpec.read style n))) := by
        cases style <;> rfl
      rw [parts, first.read, second.read]
      rfl
  | blank => exact ⟨rfl, nofun, rfl⟩

/-- Specifications are read back. -/
theorem TypeSpec.storesAll_read (specs : List TypeSpec) {n : Nat}
    (room : Json.depthOfItems (TypeSpec.toJsonList specs) < n) :
    StoresAll (TypeSpec.toJsonList specs) (TypeSpec.read style n) specs := by
  cases specs with
  | nil => exact .nil
  | cons spec rest =>
    simp only [TypeSpec.toJsonList, Json.depthOfItems] at room
    exact .cons (TypeSpec.stores_read spec (by omega)) (TypeSpec.storesAll_read rest (by omega))

end

theorem TypeSpec.stores (spec : TypeSpec) : Stores spec.toJson (TypeSpec.ofJson? style) spec :=
  have stored : Stores spec.toJson (TypeSpec.read style (spec.toJson.depth + 1)) spec :=
    TypeSpec.stores_read spec (Nat.lt_succ_self _)
  ⟨stored.plain, stored.given, stored.read⟩

end PackageCheck
