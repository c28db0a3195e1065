import PackageCheck.Proofs.Ty.Negotiation

/-! # The text of a type

Types are shown to the reader as texts without full brackets. The text of a type is read from left to
right: the word or the bracket it begins with tells what kind of type it is, and a row of items is read
item by item up to its closing bracket, since each item ends in front of a comma or a bracket.

This takes names that are words, and custom types without the name of a simple type or the word that a
map or a function begins with. -/

namespace PackageCheck

/-! ## Words -/

/-- Whether a character belongs to no word. -/
def isPunctuation (c : Char) : Bool :=
  c ∈ [' ', '*', ',', ':', '(', ')', '[', ']', '\x7b', '\x7d']

/-- Whether characters are those of a word, or of a part of one. -/
def Wordlike (chars : List Char) : Prop := ∀ c ∈ chars, isPunctuation c = false

/-- Whether a name is a word. -/
def IsWord (name : String) : Prop := name ≠ "" ∧ Wordlike name.toList

instance (chars : List Char) : Decidable (Wordlike chars) :=
  decidable_of_iff ((chars.all fun c => !isPunctuation c) = true) (by simp [Wordlike])

instance (name : String) : Decidable (IsWord name) :=
  inferInstanceAs (Decidable (name ≠ "" ∧ Wordlike name.toList))

/-- Whether no word goes on at the beginning of a text. -/
def Breaks (text : List Char) : Prop := ∀ c, text.head? = some c → isPunctuation c = true

/-- Whether a type has come to its end in front of a text. -/
def Ends (text : List Char) : Prop := ∀ c, text.head? = some c → c ∈ [',', ')', ']', '\x7d']

/-- The word at the beginning of a text. -/
def leading (text : List Char) : List Char := text.takeWhile (!isPunctuation ·)

theorem Ends.breaks {text : List Char} (ends : Ends text) : Breaks text := by
  intro c first
  have member := ends c first
  simp only [List.mem_cons, List.not_mem_nil, or_false] at member
  rcases member with rfl | rfl | rfl | rfl <;> rfl

theorem ends_nil : Ends [] := nofun

theorem leading_append {word text : List Char} (plain : Wordlike word) (breaks : Breaks text) :
    leading (word ++ text) = word := by
  rw [leading, List.takeWhile_append_of_pos fun c member => by simp [plain c member]]
  cases text with
  | nil => simp
  | cons c rest => simp [breaks c rfl]

/-- Words in front of texts that do not go on with them are told apart from the texts. -/
theorem append_inj_of_breaks {word word' text text' : List Char} (plain : Wordlike word)
    (plain' : Wordlike word') (breaks : Breaks text) (breaks' : Breaks text')
    (same : word ++ text = word' ++ text') : word = word' ∧ text = text' := by
  have words : word = word' := by
    rw [← leading_append plain breaks, ← leading_append plain' breaks', same]
  subst words
  exact ⟨rfl, List.append_cancel_left same⟩

theorem plain_toDigits (n : Nat) : Wordlike (Nat.toDigits 10 n) := by
  intro c member
  have digit : c.isDigit = true := Nat.isDigit_of_mem_toDigits (by decide) (by decide) member
  by_contra punctuation
  simp only [isPunctuation, decide_eq_false_iff_not, not_not, List.mem_cons, List.not_mem_nil,
    or_false] at punctuation
  rcases punctuation with rfl | rfl | rfl | rfl | rfl | rfl | rfl | rfl | rfl | rfl <;>
    exact absurd digit (by decide)

theorem Simple.ofName?_name (s : Simple) : Simple.ofName? s.name = some s := by
  cases s <;> rfl

/-- The name of a simple type is a word without another meaning. -/
theorem Simple.name_fits (s : Simple) : IsWord s.name ∧ s.name ≠ "map" ∧ s.name ≠ "func" := by
  have all : (Simple.all.all fun s =>
      decide (IsWord s.name ∧ s.name ≠ "map" ∧ s.name ≠ "func")) = true := by decide +kernel
  exact of_decide_eq_true (List.all_eq_true.mp all s s.mem_all)

theorem Simple.isWord_name (s : Simple) : IsWord s.name := s.name_fits.1

/-! ## Rows -/

/-- Items with a comma between any two. -/
def row (text : α → List Char) : List α → List Char
  | [] => []
  | item :: items => text item ++ items.flatMap fun item => ',' :: ' ' :: text item

theorem row_cons_cons (text : α → List Char) (item next : α) (items : List α) :
    row text (item :: next :: items) = text item ++ ',' :: ' ' :: row text (next :: items) := rfl

section Rows

variable {text : α → List Char} {R : α → α → Prop} {items items' : List α} {closing : Char}
  {rest rest' : List Char}

/-- Behind an item comes a comma or a bracket. -/
theorem ends_items (text : α → List Char) (closes : closing = ')' ∨ closing = '\x7d')
    (items : List α) : Ends ((items.flatMap fun item => ',' :: ' ' :: text item) ++ closing :: rest) := by
  rintro c first
  cases items with
  | nil =>
    cases first
    rcases closes with rfl | rfl <;> decide
  | cons item items =>
    cases first
    decide

/-- Items behind commas are read up to the bracket, if each of them is. -/
theorem read_items (closes : closing = ')' ∨ closing = '\x7d')
    (reads : ∀ item ∈ items, ∀ item' ∈ items', ∀ rest rest', Ends rest → Ends rest' →
      text item ++ rest = text item' ++ rest' → R item item' ∧ rest = rest')
    (same : (items.flatMap fun item => ',' :: ' ' :: text item) ++ closing :: rest =
      (items'.flatMap fun item => ',' :: ' ' :: text item) ++ closing :: rest') :
    List.Forall₂ R items items' ∧ rest = rest' := by
  have apart : closing ≠ ',' := by rcases closes with rfl | rfl <;> decide
  induction items generalizing items' with
  | nil =>
    cases items' with
    | nil => exact ⟨.nil, List.tail_eq_of_cons_eq same⟩
    | cons item' items' => exact absurd (List.head_eq_of_cons_eq same) apart
  | cons item items hypothesis =>
    cases items' with
    | nil => exact absurd (List.head_eq_of_cons_eq same).symm apart
    | cons item' items' =>
      simp only [List.flatMap_cons, List.cons_append, List.append_assoc, List.cons.injEq,
        true_and] at same
      obtain ⟨first, same⟩ := reads item List.mem_cons_self item' List.mem_cons_self _ _
        (ends_items text closes items) (ends_items text closes items') same
      obtain ⟨others, same⟩ := hypothesis (fun item member item' member' => reads item
        (List.mem_cons_of_mem _ member) item' (List.mem_cons_of_mem _ member')) same
      exact ⟨.cons first others, same⟩

/-- A row in brackets is read item by item, if no item looks like the end of the row. -/
theorem read_row (closes : closing = ')' ∨ closing = '\x7d')
    (starts : ∀ item ∈ items, ∀ rest, ¬ Ends (text item ++ rest))
    (starts' : ∀ item ∈ items', ∀ rest, ¬ Ends (text item ++ rest))
    (reads : ∀ item ∈ items, ∀ item' ∈ items', ∀ rest rest', Ends rest → Ends rest' →
      text item ++ rest = text item' ++ rest' → R item item' ∧ rest = rest')
    (same : row text items ++ closing :: rest = row text items' ++ closing :: rest') :
    List.Forall₂ R items items' ∧ rest = rest' := by
  have ends : ∀ {rest : List Char}, Ends (closing :: rest) := ends_items text closes []
  cases items with
  | nil =>
    cases items' with
    | nil => exact ⟨.nil, List.tail_eq_of_cons_eq same⟩
    | cons item' items' =>
      rw [row, row, List.append_assoc, List.nil_append] at same
      exact absurd (same ▸ ends) (starts' item' List.mem_cons_self _)
  | cons item items =>
    cases items' with
    | nil =>
      rw [row, row, List.append_assoc, List.nil_append] at same
      exact absurd (same ▸ ends) (starts item List.mem_cons_self _)
    | cons item' items' =>
      exact read_items closes reads (by simpa [row] using same)

end Rows

/-! ## Texts -/

namespace Ty

/-- The characters that a type is shown as. -/
def text (type : Ty) : List Char := type.render.toList

/-- The characters that types in a row are shown as. -/
def listText (types : List Ty) : List Char := (renderList types).toList

/-- The characters that fields in a row are shown as. -/
def fieldText (fields : List FieldTy) : List Char := (renderFields fields).toList

/-- What is shown behind the arguments of a function: the type of its calls, if there are results. -/
def resultText (signature : Signature) : List Char :=
  if signature.results.isEmpty then [] else ' ' :: signature.resultType.text

/-- The text of a type in terms of those of its parts. -/
def spelling : Ty → List Char
  | .simple s => s.name.toList
  | .array size of => '[' :: (Nat.toDigits 10 size.toNat ++ ']' :: of.text)
  | .slice of => '[' :: ']' :: of.text
  | .map key value => "map".toList ++ '[' :: (key.text ++ ']' :: value.text)
  | .pointer pointee => '*' :: pointee.text
  | .tuple members => '(' :: (listText members ++ [')'])
  | .struct layout => '\x7b' :: (fieldText layout.fields ++ ['\x7d'])
  | .func signature =>
    "func".toList ++ '(' :: (listText signature.args ++ ')' :: resultText signature)
  | .custom name _ => name.toList
  | .unknown => "_".toList

theorem text_eq (type : Ty) : type.text = type.spelling := by
  cases type with
  | struct layout =>
    obtain ⟨name, fields, methods⟩ := layout
    simp [text, render, spelling, fieldText]
  | func signature =>
    obtain ⟨args, results⟩ := signature
    rcases results with - | ⟨first, - | ⟨second, rest⟩⟩ <;>
      simp [text, render, Signature.render, spelling, listText, resultText, Signature.resultType]
  | tuple members => simp [text, render, spelling, listText]
  | _ => simp [text, render, spelling]

theorem text_simple (s : Simple) : (simple s).text = s.name.toList := text_eq _

theorem text_custom (name : String) (decl : SymbolId) : (custom name decl).text = name.toList :=
  text_eq _

theorem text_array (size : UInt64) (of : Ty) :
    (array size of).text = '[' :: (Nat.toDigits 10 size.toNat ++ ']' :: of.text) := text_eq _

theorem text_slice (of : Ty) : (slice of).text = '[' :: ']' :: of.text := text_eq _

theorem text_map (key value : Ty) :
    (map key value).text = "map".toList ++ '[' :: (key.text ++ ']' :: value.text) := text_eq _

theorem text_pointer (pointee : Ty) : (pointer pointee).text = '*' :: pointee.text := text_eq _

theorem text_tuple (members : List Ty) :
    (tuple members).text = '(' :: (listText members ++ [')']) := text_eq _

theorem text_struct (layout : StructTy) :
    (struct layout).text = '\x7b' :: (fieldText layout.fields ++ ['\x7d']) := text_eq _

theorem text_func (signature : Signature) : (func signature).text = "func".toList ++
    '(' :: (listText signature.args ++ ')' :: resultText signature) := text_eq _

theorem resultText_of_nil {signature : Signature} (empty : signature.results = []) :
    resultText signature = [] := by
  rw [resultText, empty, List.isEmpty_nil, if_pos rfl]

theorem resultText_of_ne_nil {signature : Signature} (nonempty : signature.results ≠ []) :
    resultText signature = ' ' :: signature.resultType.text := by
  rw [resultText, if_neg (by simpa using nonempty)]

/-- Types stand in a row. -/
theorem listText_eq (types : List Ty) : listText types = row text types := by
  induction types with
  | nil => simp [listText, renderList, row]
  | cons type rest hypothesis =>
    cases rest with
    | nil => simp [listText, text, renderList, row]
    | cons next rest =>
      rw [row_cons_cons, ← hypothesis]
      simp [listText, text, renderList]

/-- The characters that a field is shown as. -/
def oneFieldText (field : FieldTy) : List Char :=
  field.name.toList ++ ':' :: ' ' :: field.type.text

/-- Fields stand in a row. -/
theorem fieldText_eq (fields : List FieldTy) : fieldText fields = row oneFieldText fields := by
  induction fields with
  | nil => simp [fieldText, renderFields, row]
  | cons field rest hypothesis =>
    obtain ⟨name, type⟩ := field
    cases rest with
    | nil => simp [fieldText, oneFieldText, text, renderFields, row]
    | cons next rest =>
      rw [row_cons_cons, ← hypothesis]
      simp [fieldText, oneFieldText, text, renderFields]

/-! ## Names -/

/-- Whether a type of its own can have a name: it is a word with no other meaning. -/
def IsTypeName (name : String) : Prop :=
  IsWord name ∧ Simple.ofName? name = none ∧ name ≠ "map" ∧ name ≠ "func"

instance (name : String) : Decidable (IsTypeName name) :=
  inferInstanceAs (Decidable (_ ∧ _))

/-- Whether the names that a type itself shows are fit for it, and that of a custom type is the name of
    its declaration. -/
def Fits (declared : String → SymbolId) : Ty → Prop
  | .custom name decl => IsTypeName name ∧ declared name = decl
  | .struct layout => ∀ field ∈ layout.fields, IsWord field.name
  | _ => True

/-- Whether all names in a type are fit for what they name. -/
inductive Named (declared : String → SymbolId) : Ty → Prop
  | intro {type : Ty} : type.Fits declared → (∀ part ∈ type.parts, Named declared part) →
      Named declared type

/-- Whether a type is fully known, and its names tell what they name. -/
structure Legible (declared : String → SymbolId) (type : Ty) : Prop where
  known : type.known = true
  named : type.Named declared

namespace Legible

variable {declared : String → SymbolId} {type part : Ty}

theorem ne_unknown (legible : type.Legible declared) : type ≠ .unknown := by
  rintro rfl
  cases legible.known

theorem fits (legible : type.Legible declared) : type.Fits declared := by
  obtain ⟨own, -⟩ := legible.named
  exact own

theorem of_mem_parts (legible : type.Legible declared) (member : part ∈ type.parts) :
    part.Legible declared := by
  obtain ⟨-, parts⟩ := legible.named
  exact ⟨(known_iff_parts.mp legible.known).2 part member, parts part member⟩

/-- What the calls of a function come to is legible with it. -/
theorem resultType {signature : Signature} (legible : (func signature).Legible declared)
    (nonempty : signature.results ≠ []) : signature.resultType.Legible declared := by
  have inside : ∀ result ∈ signature.results, result.Legible declared :=
    fun result member => legible.of_mem_parts (List.mem_append_right _ member)
  obtain ⟨args, results⟩ := signature
  rcases results with - | ⟨first, - | ⟨second, rest⟩⟩
  · exact absurd rfl nonempty
  · exact inside first List.mem_cons_self
  · refine ⟨?_, .intro trivial fun part member => (inside part member).named⟩
    rw [Signature.resultType, Ty.known, allKnown_iff]
    exact fun part member => (inside part member).known

end Legible

theorem sizeOf_resultType_lt {signature : Signature} (nonempty : signature.results ≠ []) :
    sizeOf signature.resultType < sizeOf (func signature) := by
  obtain ⟨args, results⟩ := signature
  rcases results with - | ⟨first, - | ⟨second, rest⟩⟩
  · exact absurd rfl nonempty
  · exact sizeOf_lt_of_mem_parts (List.mem_append_right _ List.mem_cons_self)
  · simp only [Signature.resultType, tuple.sizeOf_spec, func.sizeOf_spec, Signature.mk.sizeOf_spec]
    omega

/-! ## Kinds -/

/-- What the beginning of a text tells about a type. -/
inductive Kind where
  | named (name : List Char)
  | array | slice | map | pointer | tuple | struct | func

/-- The kind of a type. -/
def kind : Ty → Kind
  | .simple s => .named s.name.toList
  | .array _ _ => .array
  | .slice _ => .slice
  | .map _ _ => .map
  | .pointer _ => .pointer
  | .tuple _ => .tuple
  | .struct _ => .struct
  | .func _ => .func
  | .custom name _ => .named name.toList
  | .unknown => .named "_".toList

/-- The kind of the type that a word begins with. -/
def kindOfWord (word : List Char) : Kind :=
  if word = "map".toList then .map else if word = "func".toList then .func else .named word

/-- The kind of the type at the beginning of a text. -/
def kindOf (text : List Char) : Kind :=
  match leading text, text with
  | [], '*' :: _ => .pointer
  | [], '(' :: _ => .tuple
  | [], '\x7b' :: _ => .struct
  | [], _ :: ']' :: _ => .slice
  | [], _ => .array
  | word, _ => kindOfWord word

theorem kindOf_word {word text : List Char} (plain : Wordlike word) (nonempty : word ≠ [])
    (breaks : Breaks text) : kindOf (word ++ text) = kindOfWord word := by
  rw [kindOf.eq_def, leading_append plain breaks]
  cases word with
  | nil => exact absurd rfl nonempty
  | cons c rest => rfl

theorem kindOf_name {name : String} {text : List Char} (word : IsWord name) (apart : name ≠ "map")
    (apart' : name ≠ "func") (breaks : Breaks text) :
    kindOf (name.toList ++ text) = .named name.toList := by
  have nonempty : name.toList ≠ [] := fun empty => word.1 (String.toList_eq_nil_iff.mp empty)
  rw [kindOf_word word.2 nonempty breaks, kindOfWord, if_neg, if_neg]
  · exact fun same => apart' (String.toList_inj.mp same)
  · exact fun same => apart (String.toList_inj.mp same)

theorem breaks_cons {c : Char} {text : List Char} (punctuation : isPunctuation c = true) :
    Breaks (c :: text) := by
  rintro _ ⟨⟩
  exact punctuation

/-- Behind the bracket of an array stands a number. -/
theorem kindOf_array (n : Nat) (text : List Char) :
    kindOf ('[' :: (Nat.toDigits 10 n ++ text)) = .array := by
  have plain := plain_toDigits n
  cases digits : Nat.toDigits 10 n with
  | nil => exact absurd digits Nat.toDigits_ne_nil
  | cons d rest =>
    rw [digits] at plain
    have digit : d ≠ ']' := by
      rintro rfl
      cases plain ']' List.mem_cons_self
    rw [kindOf.eq_def, show leading ('[' :: (d :: rest ++ text)) = [] from rfl]
    simp [digit]

/-- The kind of a legible type is read off the beginning of its text. -/
theorem kindOf_text {declared : String → SymbolId} {type : Ty} {rest : List Char}
    (legible : type.Legible declared) (breaks : Breaks rest) :
    kindOf (type.text ++ rest) = type.kind := by
  cases type with
  | simple s =>
    rw [text_simple]
    exact kindOf_name s.isWord_name s.name_fits.2.1 s.name_fits.2.2 breaks
  | custom name decl =>
    obtain ⟨⟨word, -, apart, apart'⟩, -⟩ := legible.fits
    rw [text_custom]
    exact kindOf_name word apart apart' breaks
  | map key value =>
    rw [text_map, List.append_assoc]
    exact kindOf_word (by decide) (by decide) (breaks_cons rfl)
  | func signature =>
    rw [text_func, List.append_assoc]
    exact kindOf_word (by decide) (by decide) (breaks_cons rfl)
  | array size of =>
    rw [text_array, List.cons_append, List.append_assoc]
    exact kindOf_array _ _
  | slice of =>
    rw [text_slice]
    rfl
  | pointer pointee =>
    rw [text_pointer]
    rfl
  | tuple members =>
    rw [text_tuple]
    rfl
  | struct layout =>
    rw [text_struct]
    rfl
  | unknown => exact absurd rfl legible.ne_unknown

theorem not_ends_word {name : String} (word : IsWord name) (rest : List Char) :
    ¬ Ends (name.toList ++ rest) := by
  intro ends
  cases chars : name.toList with
  | nil => exact word.1 (String.toList_eq_nil_iff.mp chars)
  | cons c others =>
    rw [chars] at ends
    have plain := word.2 c (chars ▸ List.mem_cons_self)
    rw [ends.breaks c rfl] at plain
    cases plain

/-- A type does not begin with the end of one. -/
theorem not_ends_text {declared : String → SymbolId} {type : Ty} (legible : type.Legible declared)
    (rest : List Char) : ¬ Ends (type.text ++ rest) := by
  cases type with
  | simple s =>
    rw [text_simple]
    exact not_ends_word s.isWord_name rest
  | custom name decl =>
    rw [text_custom]
    exact not_ends_word legible.fits.1.1 rest
  | func signature =>
    rw [text_func]
    exact fun ends => absurd (ends 'f' rfl) (by decide)
  | map key value =>
    rw [text_map]
    exact fun ends => absurd (ends 'm' rfl) (by decide)
  | array size of =>
    rw [text_array]
    exact fun ends => absurd (ends '[' rfl) (by decide)
  | slice of =>
    rw [text_slice]
    exact fun ends => absurd (ends '[' rfl) (by decide)
  | pointer pointee =>
    rw [text_pointer]
    exact fun ends => absurd (ends '*' rfl) (by decide)
  | tuple members =>
    rw [text_tuple]
    exact fun ends => absurd (ends '(' rfl) (by decide)
  | struct layout =>
    rw [text_struct]
    exact fun ends => absurd (ends '\x7b' rfl) (by decide)
  | unknown => exact absurd rfl legible.ne_unknown

end Ty

end PackageCheck
