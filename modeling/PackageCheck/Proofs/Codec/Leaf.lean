import PackageCheck.Codec.Leaf
import PackageCheck.Codec.Operator
import PackageCheck.Proofs.Json.Parsing

/-! # Stored values read back

What reading makes of the stored form of a value, first for what stands at the leaves of trees. A
handle reads back if its number is in the range of stored handles. -/

namespace PackageCheck

/-! ## Values, lists and absent values -/

/-- Whether a JSON value can be written, and is read as a given value. -/
structure Stores (json : Json) (read : Json → Option α) (a : α) : Prop where
  plain : json.isPlain
  given : json ≠ .null
  read : read json = some a

/-- Whether JSON values can be written, and are read as given values. -/
structure StoresAll (jsons : List Json) (read : Json → Option α) (as : List α) : Prop where
  plain : Json.itemsPlain jsons
  read : jsons.mapM read = some as

/-- Whether a JSON value can be written, and is read as a value that may be absent. -/
structure StoresOption (json : Json) (read : Json → Option α) (a : Option α) : Prop where
  plain : json.isPlain
  read : json.nullable? read = some a

section Stored

variable {read : Json → Option α} {encode : α → Json} {json : Json} {jsons : List Json}
  {a : α} {as : List α}

theorem StoresAll.nil : StoresAll [] read [] := ⟨rfl, rfl⟩

theorem StoresAll.cons (first : Stores json read a) (rest : StoresAll jsons read as) :
    StoresAll (json :: jsons) read (a :: as) where
  plain := by
    rw [Json.itemsPlain, first.plain, rest.plain]
    rfl
  read := by
    rw [List.mapM_cons, first.read, rest.read]
    rfl

theorem StoresAll.ofList (stored : ∀ a ∈ as, Stores (encode a) read a) :
    StoresAll (as.map encode) read as := by
  induction as with
  | nil => exact .nil
  | cons a rest ih =>
    obtain ⟨here, others⟩ := List.forall_mem_cons.mp stored
    exact .cons here (ih others)

/-- An array of stored values. -/
theorem StoresAll.list (stored : StoresAll jsons read as) :
    Stores (.arr jsons) (Json.list? read) as :=
  ⟨stored.plain, nofun, stored.read⟩

theorem StoresOption.absent : StoresOption .null read none := ⟨rfl, rfl⟩

theorem Stores.toOption (stored : Stores json read a) : StoresOption json read (some a) where
  plain := stored.plain
  read := by
    -- a value that is stored as `null` would be read as absent
    have present : json.nullable? read = (read json).map some := by
      cases json with
      | null => exact absurd rfl stored.given
      | _ => rfl
    rw [present, stored.read]
    rfl

theorem StoresOption.ofOption {a : Option α} (stored : ∀ b, a = some b → Stores (encode b) read b) :
    StoresOption (.ofOption encode a) read a := by
  cases a with
  | none => exact .absent
  | some b => exact (stored b rfl).toOption

/-- The data of a case without names. -/
theorem Stores.tagged {body : Json} {inner : Json → Option β} {b : β} {f : β → α} {tag : String}
    (stored : Stores body inner b)
    (reads : read (.tagged tag body) = (inner body).map f) :
    Stores (.tagged tag body) read (f b) where
  plain := by
    rw [Json.tagged, Json.isPlain, Json.entriesPlain, stored.plain]
    rfl
  given := nofun
  read := by
    rw [reads, stored.read]
    rfl

end Stored

/-- Whatever is nested less deep than a bound leaves room for one level. -/
theorem exists_eq_succ_of_lt {depth n : Nat} (room : depth < n) : ∃ m, n = m + 1 :=
  Nat.exists_eq_succ_of_ne_zero (Nat.ne_zero_of_lt room)

/-! ## Scalars and positions -/

theorem stores_str (text : String) : Stores (.str text) Json.string? text :=
  ⟨rfl, nofun, rfl⟩

theorem below?_nat {bound n : Nat} (below : n < bound) : (Json.nat n).below? bound = some n := by
  change (if n < bound then some n else none) = some n
  rw [if_pos below]

theorem word32?_nat (n : UInt32) : (Json.nat n.toNat).word32? = some n := by
  rw [Json.word32?, below?_nat n.toNat_lt]
  simp

theorem word64?_nat (n : UInt64) : (Json.nat n.toNat).word64? = some n := by
  rw [Json.word64?, below?_nat n.toNat_lt]
  simp

theorem Position.stores (position : Position) :
    Stores position.toJson Position.ofJson? position where
  plain := rfl
  given := nofun
  read := by
    have parts : Position.ofJson? position.toJson = (do
      return ⟨← (Json.nat position.line.toNat).word32?,
        ← (Json.nat position.character.toNat).word32?⟩) := rfl
    rw [parts, word32?_nat, word32?_nat]
    rfl

/-! ## Handles -/

/-- Whether the number of a statement is in the range of stored ones. -/
def StmtId.storable (id : StmtId) : Bool :=
  id.number < UInt32.size

/-- Whether the number of a symbol is in the range of stored ones. -/
def SymbolId.storable : SymbolId → Bool
  | .builtin index | .declared index => index < UInt64.size

/-- Whether a symbol that may be absent can be stored. -/
def SymbolId.optionStorable (id : Option SymbolId) : Bool :=
  id.all SymbolId.storable

theorem StmtId.stores {id : StmtId} (fits : id.storable) : Stores id.toJson StmtId.ofJson? id where
  plain := rfl
  given := nofun
  read := by
    rw [StmtId.ofJson?, StmtId.toJson, below?_nat (of_decide_eq_true fits)]
    rfl

theorem SymbolId.stores {id : SymbolId} (fits : id.storable) :
    Stores id.toJson SymbolId.ofJson? id := by
  cases id with
  | builtin index | declared index =>
    refine ⟨rfl, nofun, ?_⟩
    change ((Json.nat index).below? UInt64.size).map _ = _
    rw [below?_nat (of_decide_eq_true fits)]
    rfl

theorem SymbolId.storesOption {id : Option SymbolId} (fits : SymbolId.optionStorable id) :
    StoresOption (.ofOption SymbolId.toJson id) SymbolId.ofJson? id := by
  refine .ofOption ?_
  rintro _ rfl
  exact SymbolId.stores fits

/-! ## Maps -/

namespace NameMap

/-- An entry behind all others is put at the end. -/
theorem insertEntry_of_lt {name : String} {value : α} {entries : List (String × α)}
    (behind : ∀ entry ∈ entries, entry.1 < name) :
    insertEntry name value entries = entries ++ [(name, value)] := by
  induction entries with
  | nil => rfl
  | cons entry rest ih =>
    obtain ⟨key, old⟩ := entry
    obtain ⟨here, others⟩ := List.forall_mem_cons.mp behind
    have apart : name ≠ key := fun same => String.lt_irrefl key (same ▸ here)
    have after : ¬ name < key := fun less => String.lt_irrefl key (String.lt_trans here less)
    rw [insertEntry, if_neg apart, if_neg after, ih others, List.cons_append]

theorem entries_foldl_insert {entries : List (String × α)} {m : NameMap α}
    (ascending : (m.entries ++ entries).Pairwise fun a b => a.1 < b.1) :
    (entries.foldl (fun m entry => m.insert entry.1 entry.2) m).entries = m.entries ++ entries := by
  induction entries generalizing m with
  | nil => exact (List.append_nil _).symm
  | cons entry rest ih =>
    -- the entries are in ascending order, so each one is inserted behind those before it
    have behind : ∀ earlier ∈ m.entries, earlier.1 < entry.1 := fun earlier member =>
      (List.pairwise_append.mp ascending).2.2 earlier member entry List.mem_cons_self
    have inserted : (m.insert entry.1 entry.2).entries = m.entries ++ [entry] :=
      insertEntry_of_lt behind
    rw [List.foldl_cons, ih, inserted, List.append_assoc, List.singleton_append]
    rw [inserted, List.append_assoc]
    exact ascending

/-- A map is that of its entries. -/
theorem ofList_entries (m : NameMap α) : ofList m.entries = m := by
  have same : (ofList m.entries).entries = m.entries := entries_foldl_insert m.ascending
  generalize ofList m.entries = other at same ⊢
  cases m
  cases other
  cases same
  rfl

end NameMap

/-- Entries are written with their names and read with them. -/
theorem stores_entries {encode : α → Json} {read : Json → Option α} {entries : List (String × α)}
    (stored : ∀ entry ∈ entries, Stores (encode entry.2) read entry.2) :
    Json.entriesPlain (entries.map fun entry => (entry.1, encode entry.2)) = true ∧
      ((entries.map fun entry => (entry.1, encode entry.2)).mapM fun entry =>
        (read entry.2).bind fun value => some (entry.1, value)) = some entries := by
  induction entries with
  | nil => exact ⟨rfl, rfl⟩
  | cons entry rest ih =>
    obtain ⟨here, others⟩ := List.forall_mem_cons.mp stored
    obtain ⟨plain, back⟩ := ih others
    rw [List.map_cons]
    constructor
    · rw [Json.entriesPlain, here.plain, plain]
      rfl
    · rw [List.mapM_cons, here.read, back]
      rfl

theorem NameMap.stores {encode : α → Json} {read : Json → Option α} {m : NameMap α}
    (stored : ∀ entry ∈ m.entries, Stores (encode entry.2) read entry.2) :
    Stores (m.toJson encode) (NameMap.ofJson? read) m := by
  obtain ⟨plain, back⟩ := stores_entries stored
  refine ⟨plain, nofun, ?_⟩
  change (((m.entries.map fun entry => (entry.1, encode entry.2)).mapM fun entry =>
    (read entry.2).bind fun value => some (entry.1, value)).bind fun entries =>
      some (NameMap.ofList entries)) = some m
  rw [back]
  exact congrArg some m.ofList_entries

/-! ## Operators and kinds -/

theorem BinaryOp.stores (op : BinaryOp) : Stores (.str op.tag) BinaryOp.ofJson? op :=
  ⟨rfl, nofun, by cases op <;> rfl⟩

theorem UnaryOp.stores (op : UnaryOp) : Stores (.str op.tag) UnaryOp.ofJson? op :=
  ⟨rfl, nofun, by cases op <;> rfl⟩

theorem AssignOp.stores (op : AssignOp) : Stores (.str op.tag) AssignOp.ofJson? op :=
  ⟨rfl, nofun, by cases op <;> rfl⟩

theorem JumpKind.stores (kind : JumpKind) : Stores (.str kind.tag) JumpKind.ofJson? kind :=
  ⟨rfl, nofun, by cases kind <;> rfl⟩

theorem LiteralKind.stores (kind : LiteralKind) :
    Stores (.str kind.tag) LiteralKind.ofJson? kind :=
  ⟨rfl, nofun, by cases kind <;> rfl⟩

theorem CompoundShape.stores (shape : CompoundShape) :
    Stores (.str shape.tag) CompoundShape.ofJson? shape :=
  ⟨rfl, nofun, by cases shape <;> rfl⟩

end PackageCheck
