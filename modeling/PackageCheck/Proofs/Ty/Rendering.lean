import PackageCheck.Proofs.Ty.Text

/-! # What the text of a type tells

The text of a type tells the type, up to one thing: a single result of a function stands without brackets
and several results stand in brackets, so a single result that is a tuple reads as several results. Apart
from that, known types with one text are the same, and so they negotiate. -/

namespace PackageCheck

/-! ## Tuples as results -/

/-- Whether a function has a single result, and that is a tuple of several types. -/
def Signature.returnsTuple (signature : Signature) : Bool :=
  match signature.results with
  | [.tuple (_ :: _ :: _)] => true
  | _ => false

namespace Ty

/-- What a type itself says about tuples as results. -/
def ownTupleResult : Ty → List Bool
  | .func signature => [signature.returnsTuple]
  | _ => []

/-- For each function in a type, in the order of the text, whether its only result is a tuple of
    several types. -/
def tupleResults (type : Ty) : List Bool :=
  type.ownTupleResult ++ type.parts.attach.flatMap fun part => tupleResults part.1
termination_by sizeOf type
decreasing_by exact sizeOf_lt_of_mem_parts part.2

theorem tupleResults_eq (type : Ty) :
    type.tupleResults = type.ownTupleResult ++ type.parts.flatMap tupleResults := by
  rw [tupleResults, List.flatMap_subtype (g := tupleResults) fun _ _ => rfl, List.unattach_attach]

theorem tupleResults_tuple (members : List Ty) :
    (tuple members).tupleResults = members.flatMap tupleResults := by
  rw [tupleResults_eq]
  rfl

/-- A single result that is a tuple holds the same functions as several results. -/
theorem tupleResults_resultType {signature : Signature} (results : signature.results ≠ []) :
    signature.resultType.tupleResults = signature.results.flatMap tupleResults := by
  obtain ⟨args, types⟩ := signature
  cases types with
  | nil => exact absurd rfl results
  | cons first rest =>
    cases rest with
    | nil => simp [Signature.resultType]
    | cons second rest => exact tupleResults_tuple _

theorem tupleResults_func (signature : Signature) : (func signature).tupleResults =
    signature.returnsTuple ::
      (signature.args.flatMap tupleResults ++ signature.results.flatMap tupleResults) := by
  rw [tupleResults_eq, parts, List.flatMap_append]
  rfl

/-! ## Alike types -/

/-- Whether two types have as many functions, and are the same exactly if the same ones of these have a
    tuple as their only result. -/
structure Alike (s t : Ty) : Prop where
  count : s.tupleResults.length = t.tupleResults.length
  refined : s.refinedBy t = true ↔ s.tupleResults = t.tupleResults

section Alike

variable {s t : Ty} {ss ts : List Ty} {signature signature' : Signature}

theorem count_of_allAlike (all : List.Forall₂ Alike ss ts) :
    (ss.flatMap tupleResults).length = (ts.flatMap tupleResults).length := by
  induction all with
  | nil => rfl
  | cons here _ hypothesis =>
    simp only [List.flatMap_cons, List.length_append, here.count, hypothesis]

theorem refined_of_allAlike (all : List.Forall₂ Alike ss ts) :
    List.Forall₂ (fun s t => s.refinedBy t = true) ss ts ↔
      ss.flatMap tupleResults = ts.flatMap tupleResults := by
  induction all with
  | nil => simp
  | cons here _ hypothesis =>
    rw [List.forall₂_cons, here.refined, hypothesis, List.flatMap_cons, List.flatMap_cons]
    constructor
    · rintro ⟨first, others⟩
      rw [first, others]
    · exact fun same => List.append_inj same here.count

theorem alike_of_parts (known : s ≠ .unknown) (heads : s.head = t.head)
    (own : s.ownTupleResult = t.ownTupleResult) (below : List.Forall₂ Alike s.parts t.parts) :
    s.Alike t where
  count := by
    rw [tupleResults_eq, tupleResults_eq t, own, List.length_append, List.length_append,
      count_of_allAlike below]
  refined := by
    rw [refinedBy_iff, refined_of_allAlike below, tupleResults_eq, tupleResults_eq t, own,
      List.append_cancel_left_eq]
    simp [known, heads]

theorem returnsTuple_singleton {args : List Ty} {result : Ty} :
    (Signature.mk args [result]).returnsTuple = true ↔ ∃ n, 2 ≤ n ∧ result.head = .tuple n := by
  cases result with
  | tuple members =>
    cases members with
    | nil => simp [Signature.returnsTuple, head]
    | cons first rest => cases rest <;> simp [Signature.returnsTuple, head]
  | _ => simp [Signature.returnsTuple, head]

theorem returnsTuple_cons_cons (args : List Ty) (first second : Ty) (rest : List Ty) :
    (Signature.mk args (first :: second :: rest)).returnsTuple = false := by
  simp [Signature.returnsTuple]

/-- Results are refined one by one exactly if the types of the calls are, unless one of the functions
    has a tuple as its only result. -/
theorem forall₂_results_iff (known : ∀ result ∈ signature.results, result ≠ .unknown)
    (nonempty : signature.results ≠ []) (nonempty' : signature'.results ≠ []) :
    List.Forall₂ (fun s t => s.refinedBy t = true) signature.results signature'.results ↔
      signature.returnsTuple = signature'.returnsTuple ∧
        signature.resultType.refinedBy signature'.resultType = true := by
  obtain ⟨args, results⟩ := signature
  obtain ⟨args', results'⟩ := signature'
  rcases results with - | ⟨result, - | ⟨second, rest⟩⟩
  · exact absurd rfl nonempty
  · have heads : ∀ {t : Ty}, result.refinedBy t = true → result.head = t.head := by
      intro t refined
      rcases refinedBy_iff.mp refined with open' | ⟨same, -⟩
      · exact absurd open' (known result List.mem_cons_self)
      · exact same
    rcases results' with - | ⟨result', - | ⟨second', rest'⟩⟩
    · exact absurd rfl nonempty'
    · simp only [List.forall₂_cons, List.Forall₂.nil, and_true, Signature.resultType]
      refine ⟨fun refined => ⟨?_, refined⟩, And.right⟩
      rw [Bool.eq_iff_iff, returnsTuple_singleton, returnsTuple_singleton, heads refined]
    · refine iff_of_false (fun refined => by cases refined with | cons _ more => cases more) ?_
      rintro ⟨lone, refined⟩
      rw [returnsTuple_cons_cons] at lone
      have tuples : (Signature.mk args [result]).returnsTuple = true :=
        returnsTuple_singleton.mpr ⟨_, by simp, heads refined⟩
      cases lone.symm.trans tuples
  · rcases results' with - | ⟨result', - | ⟨second', rest'⟩⟩
    · exact absurd rfl nonempty'
    · refine iff_of_false (fun refined => by cases refined with | cons _ more => cases more) ?_
      rintro ⟨lone, refined⟩
      rw [returnsTuple_cons_cons] at lone
      rcases refinedBy_iff.mp refined with open' | ⟨same, -⟩
      · cases open'
      · have tuples : (Signature.mk args' [result']).returnsTuple = true :=
          returnsTuple_singleton.mpr ⟨_, by simp, same.symm⟩
        cases lone.trans tuples
    · rw [returnsTuple_cons_cons, returnsTuple_cons_cons]
      simp [Signature.resultType, Ty.refinedBy, allRefinedBy_iff]

theorem alike_func_of_nil (empty : signature.results = []) (empty' : signature'.results = [])
    (args : List.Forall₂ Alike signature.args signature'.args) :
    (func signature).Alike (func signature') := by
  have known : func signature ≠ .unknown := by
    intro impossible
    cases impossible
  refine alike_of_parts known ?_ ?_ ?_
  · rw [head, head, args.length_eq, empty, empty']
  · rw [ownTupleResult, ownTupleResult, Signature.returnsTuple, Signature.returnsTuple, empty, empty']
  · rwa [parts, parts, empty, empty', List.append_nil, List.append_nil]

theorem alike_func (known : ∀ result ∈ signature.results, result ≠ .unknown)
    (nonempty : signature.results ≠ []) (nonempty' : signature'.results ≠ [])
    (args : List.Forall₂ Alike signature.args signature'.args)
    (result : signature.resultType.Alike signature'.resultType) :
    (func signature).Alike (func signature') where
  count := by
    rw [tupleResults_func, tupleResults_func, ← tupleResults_resultType nonempty,
      ← tupleResults_resultType nonempty']
    simp only [List.length_cons, List.length_append, count_of_allAlike args, result.count]
  refined := by
    have both : (func signature).refinedBy (func signature') = true ↔
        List.Forall₂ (fun s t => s.refinedBy t = true) signature.args signature'.args ∧
        List.Forall₂ (fun s t => s.refinedBy t = true) signature.results signature'.results := by
      obtain ⟨args, results⟩ := signature
      obtain ⟨args', results'⟩ := signature'
      rw [Ty.refinedBy, Bool.and_eq_true, allRefinedBy_iff, allRefinedBy_iff]
    rw [both, forall₂_results_iff known nonempty nonempty', refined_of_allAlike args,
      result.refined, tupleResults_func, tupleResults_func, ← tupleResults_resultType nonempty,
      ← tupleResults_resultType nonempty', List.cons.injEq]
    constructor
    · rintro ⟨first, lone, second⟩
      exact ⟨lone, by rw [first, second]⟩
    · rintro ⟨lone, same⟩
      have ⟨first, second⟩ := List.append_inj same (count_of_allAlike args)
      exact ⟨first, lone, second⟩

end Alike

/-! ## Reading -/

/-- Whether each legible type with the text of a type is like it, and ends where it ends. -/
def Reads (declared : String → SymbolId) (s : Ty) : Prop :=
  ∀ ⦃t : Ty⦄ ⦃rest rest' : List Char⦄, t.Legible declared → Ends rest → Ends rest' →
    s.text ++ rest = t.text ++ rest' → s.Alike t ∧ rest = rest'

section Reading

variable {declared : String → SymbolId} {rest rest' : List Char}

/-- Types with the same text are of the same kind. -/
theorem kind_eq_of_text {s t : Ty} (own : s.Legible declared) (legible : t.Legible declared)
    (ends : Ends rest) (ends' : Ends rest') (same : s.text ++ rest = t.text ++ rest') :
    s.kind = t.kind := by
  rw [← kindOf_text own ends.breaks, same, kindOf_text legible ends'.breaks]

/-- Types in brackets are read one after the other. -/
theorem read_list {ss ts : List Ty} (own : ∀ s ∈ ss, s.Legible declared)
    (reads : ∀ s ∈ ss, Reads declared s) (legible : ∀ t ∈ ts, t.Legible declared)
    (same : listText ss ++ ')' :: rest = listText ts ++ ')' :: rest') :
    List.Forall₂ Alike ss ts ∧ rest = rest' := by
  rw [listText_eq, listText_eq] at same
  refine read_row (.inl rfl) (fun s member => not_ends_text (own s member))
    (fun t member => not_ends_text (legible t member)) ?_ same
  exact fun s member t member' _ _ ends ends' => reads s member (legible t member') ends ends'

/-- The text of a field begins with its name. -/
theorem not_ends_oneFieldText {field : FieldTy} (word : IsWord field.name) (rest : List Char) :
    ¬ Ends (oneFieldText field ++ rest) := by
  rw [oneFieldText, List.append_assoc]
  exact not_ends_word word _

/-- Fields in brackets are read one after the other, each behind its name. -/
theorem read_fields {fs gs : List FieldTy} (words : ∀ f ∈ fs, IsWord f.name)
    (words' : ∀ g ∈ gs, IsWord g.name) (reads : ∀ f ∈ fs, Reads declared f.type)
    (legible : ∀ g ∈ gs, g.type.Legible declared)
    (same : fieldText fs ++ '\x7d' :: rest = fieldText gs ++ '\x7d' :: rest') :
    List.Forall₂ (fun f g => f.name = g.name ∧ f.type.Alike g.type) fs gs ∧ rest = rest' := by
  rw [fieldText_eq, fieldText_eq] at same
  refine read_row (.inr rfl) (fun f member => not_ends_oneFieldText (words f member))
    (fun g member => not_ends_oneFieldText (words' g member)) ?_ same
  intro f member g member' rest rest' ends ends' same
  rw [oneFieldText, oneFieldText, List.append_assoc, List.append_assoc] at same
  obtain ⟨names, behind⟩ := append_inj_of_breaks (words f member).2 (words' g member').2
    (breaks_cons rfl) (breaks_cons rfl) same
  have behind := List.tail_eq_of_cons_eq (List.tail_eq_of_cons_eq behind)
  obtain ⟨types, same⟩ := reads f member (legible g member') ends ends' behind
  exact ⟨⟨String.toList_inj.mp names, types⟩, same⟩

theorem reads_simple {s : Simple} (own : (simple s).Legible declared) :
    Reads declared (simple s) := by
  intro t rest rest' legible ends ends' same
  have kinds := kind_eq_of_text own legible ends ends' same
  cases t with
  | simple s' =>
    rw [text_simple, text_simple] at same
    obtain ⟨names, behind⟩ := append_inj_of_breaks s.isWord_name.2 s'.isWord_name.2 ends.breaks
      ends'.breaks same
    have found := s.ofName?_name
    rw [String.toList_inj.mp names, s'.ofName?_name] at found
    cases found
    exact ⟨alike_of_parts own.ne_unknown rfl rfl .nil, behind⟩
  | custom name decl =>
    -- no custom type has the name of a simple one
    obtain ⟨⟨-, free, -⟩, -⟩ := legible.fits
    cases String.toList_inj.mp (Kind.named.inj kinds)
    cases s.ofName?_name.symm.trans free
  | unknown => exact absurd rfl legible.ne_unknown
  | _ => cases kinds

theorem reads_custom {name : String} {decl : SymbolId}
    (own : (custom name decl).Legible declared) : Reads declared (custom name decl) := by
  intro t rest rest' legible ends ends' same
  have kinds := kind_eq_of_text own legible ends ends' same
  obtain ⟨⟨word, free, -⟩, leads⟩ := own.fits
  cases t with
  | custom name' decl' =>
    obtain ⟨⟨word', -⟩, leads'⟩ := legible.fits
    rw [text_custom, text_custom] at same
    obtain ⟨names, behind⟩ := append_inj_of_breaks word.2 word'.2 ends.breaks ends'.breaks same
    cases String.toList_inj.mp names
    cases leads.symm.trans leads'
    exact ⟨alike_of_parts own.ne_unknown rfl rfl .nil, behind⟩
  | simple s =>
    cases String.toList_inj.mp (Kind.named.inj kinds)
    cases s.ofName?_name.symm.trans free
  | unknown => exact absurd rfl legible.ne_unknown
  | _ => cases kinds

theorem reads_array {size : UInt64} {of : Ty} (own : (array size of).Legible declared)
    (inside : Reads declared of) : Reads declared (array size of) := by
  intro t rest rest' legible ends ends' same
  have kinds := kind_eq_of_text own legible ends ends' same
  cases t with
  | array size' of' =>
    rw [text_array, text_array] at same
    simp only [List.cons_append, List.append_assoc, List.cons.injEq, true_and] at same
    obtain ⟨digits, behind⟩ := append_inj_of_breaks (plain_toDigits _) (plain_toDigits _)
      (breaks_cons rfl) (breaks_cons rfl) same
    have sizes : size.toNat = size'.toNat := by
      rw [← Nat.ofDigitChars_ten_toDigits (n := size.toNat), digits, Nat.ofDigitChars_ten_toDigits]
    cases UInt64.toNat_inj.mp sizes
    obtain ⟨below, behind⟩ := inside (legible.of_mem_parts List.mem_cons_self) ends ends'
      (List.tail_eq_of_cons_eq behind)
    exact ⟨alike_of_parts own.ne_unknown rfl rfl (.cons below .nil), behind⟩
  | _ => cases kinds

theorem reads_slice {of : Ty} (own : (slice of).Legible declared) (inside : Reads declared of) :
    Reads declared (slice of) := by
  intro t rest rest' legible ends ends' same
  have kinds := kind_eq_of_text own legible ends ends' same
  cases t with
  | slice of' =>
    rw [text_slice, text_slice] at same
    simp only [List.cons_append, List.cons.injEq, true_and] at same
    obtain ⟨below, same⟩ :=
      inside (legible.of_mem_parts List.mem_cons_self) ends ends' same
    exact ⟨alike_of_parts own.ne_unknown rfl rfl (.cons below .nil), same⟩
  | _ => cases kinds

theorem reads_pointer {pointee : Ty} (own : (pointer pointee).Legible declared)
    (inside : Reads declared pointee) : Reads declared (pointer pointee) := by
  intro t rest rest' legible ends ends' same
  have kinds := kind_eq_of_text own legible ends ends' same
  cases t with
  | pointer pointee' =>
    rw [text_pointer, text_pointer] at same
    simp only [List.cons_append, List.cons.injEq, true_and] at same
    obtain ⟨below, same⟩ :=
      inside (legible.of_mem_parts List.mem_cons_self) ends ends' same
    exact ⟨alike_of_parts own.ne_unknown rfl rfl (.cons below .nil), same⟩
  | _ => cases kinds

theorem reads_map {key value : Ty} (own : (map key value).Legible declared)
    (keys : Reads declared key) (values : Reads declared value) :
    Reads declared (map key value) := by
  intro t rest rest' legible ends ends' same
  have kinds := kind_eq_of_text own legible ends ends' same
  cases t with
  | map key' value' =>
    rw [text_map, text_map] at same
    simp only [List.append_assoc, List.cons_append, List.append_cancel_left_eq, List.cons.injEq,
      true_and] at same
    have closes : ∀ {text : List Char}, Ends (']' :: text) := by
      rintro _ c ⟨⟩
      decide
    obtain ⟨first, same⟩ := keys (legible.of_mem_parts List.mem_cons_self) closes closes same
    simp only [List.cons.injEq, true_and] at same
    obtain ⟨second, same⟩ := values
      (legible.of_mem_parts (List.mem_cons_of_mem _ List.mem_cons_self)) ends ends' same
    exact ⟨alike_of_parts own.ne_unknown rfl rfl (.cons first (.cons second .nil)), same⟩
  | _ => cases kinds

theorem reads_tuple {members : List Ty} (own : (tuple members).Legible declared)
    (inside : ∀ s ∈ members, Reads declared s) : Reads declared (tuple members) := by
  intro t rest rest' legible ends ends' same
  have kinds := kind_eq_of_text own legible ends ends' same
  cases t with
  | tuple members' =>
    rw [text_tuple, text_tuple] at same
    simp only [List.cons_append, List.append_assoc, List.cons.injEq, true_and,
      List.nil_append] at same
    obtain ⟨below, same⟩ := read_list (fun s => own.of_mem_parts) inside
      (fun t => legible.of_mem_parts) same
    exact ⟨alike_of_parts own.ne_unknown (congrArg Head.tuple below.length_eq) rfl below, same⟩
  | _ => cases kinds

theorem reads_struct {layout : StructTy} (own : (struct layout).Legible declared)
    (inside : ∀ f ∈ layout.fields, Reads declared f.type) : Reads declared (struct layout) := by
  intro t rest rest' legible ends ends' same
  have kinds := kind_eq_of_text own legible ends ends' same
  cases t with
  | struct layout' =>
    rw [text_struct, text_struct] at same
    simp only [List.cons_append, List.append_assoc, List.cons.injEq, true_and,
      List.nil_append] at same
    obtain ⟨below, same⟩ := read_fields own.fits legible.fits inside
      (fun g member => legible.of_mem_parts (List.mem_map_of_mem member)) same
    have names : layout.fields.map (·.name) = layout'.fields.map (·.name) := by
      rw [← List.forall₂_eq_eq_eq, List.forall₂_map_left_iff, List.forall₂_map_right_iff]
      exact below.imp fun _ _ => And.left
    have types : List.Forall₂ Alike (struct layout).parts (struct layout').parts := by
      rw [parts, parts, List.forall₂_map_left_iff, List.forall₂_map_right_iff]
      exact below.imp fun _ _ => And.right
    exact ⟨alike_of_parts own.ne_unknown (congrArg Head.struct names) rfl types, same⟩
  | _ => cases kinds

/-- Behind the arguments of functions either stand no results, or the types of the calls are read. -/
theorem read_results {signature signature' : Signature}
    (reads : signature.results ≠ [] → Reads declared signature.resultType)
    (legible : (func signature').Legible declared) (ends : Ends rest) (ends' : Ends rest')
    (same : resultText signature ++ rest = resultText signature' ++ rest') :
    (signature.results = [] ∧ signature'.results = [] ∨
      signature.results ≠ [] ∧ signature'.results ≠ [] ∧
        signature.resultType.Alike signature'.resultType) ∧ rest = rest' := by
  -- no type ends in front of the blank between arguments and results
  have blank : ∀ {text : List Char}, ¬ Ends (' ' :: text) :=
    fun ends => absurd (ends ' ' rfl) (by decide)
  by_cases empty : signature.results = []
  · rw [resultText_of_nil empty, List.nil_append] at same
    by_cases empty' : signature'.results = []
    · rw [resultText_of_nil empty', List.nil_append] at same
      exact ⟨.inl ⟨empty, empty'⟩, same⟩
    · rw [resultText_of_ne_nil empty'] at same
      exact absurd (same ▸ ends) blank
  · rw [resultText_of_ne_nil empty] at same
    by_cases empty' : signature'.results = []
    · rw [resultText_of_nil empty', List.nil_append] at same
      exact absurd (same ▸ ends') blank
    · rw [resultText_of_ne_nil empty'] at same
      obtain ⟨results, behind⟩ := reads empty (legible.resultType empty') ends ends'
        (List.tail_eq_of_cons_eq same)
      exact ⟨.inr ⟨empty, empty', results⟩, behind⟩

theorem reads_func {signature : Signature} (own : (func signature).Legible declared)
    (args : ∀ s ∈ signature.args, Reads declared s)
    (result : signature.results ≠ [] → Reads declared signature.resultType) :
    Reads declared (func signature) := by
  intro t rest rest' legible ends ends' same
  have kinds := kind_eq_of_text own legible ends ends' same
  cases t with
  | func signature' =>
    rw [text_func, text_func] at same
    simp only [List.append_assoc, List.cons_append, List.append_cancel_left_eq, List.cons.injEq,
      true_and] at same
    obtain ⟨below, behind⟩ := read_list
      (fun s member => own.of_mem_parts (List.mem_append_left _ member)) args
      (fun t member => legible.of_mem_parts (List.mem_append_left _ member)) same
    obtain ⟨⟨empty, empty'⟩ | ⟨nonempty, nonempty', results⟩, behind⟩ :=
      read_results result legible ends ends' behind
    · exact ⟨alike_func_of_nil empty empty' below, behind⟩
    · refine ⟨alike_func ?_ nonempty nonempty' below results, behind⟩
      exact fun r member => (own.of_mem_parts (List.mem_append_right _ member)).ne_unknown
  | _ => cases kinds

/-- Each legible type is read off its text, together with the place where it ends. -/
theorem Legible.reads {s : Ty} (own : s.Legible declared) : Reads declared s := by
  have inside : ∀ part ∈ s.parts, Reads declared part :=
    fun part member => (own.of_mem_parts member).reads
  have called : ∀ signature, s = func signature → signature.results ≠ [] →
      Reads declared signature.resultType :=
    fun signature shape nonempty => ((shape ▸ own).resultType nonempty).reads
  cases s with
  | simple s => exact reads_simple own
  | custom name decl => exact reads_custom own
  | array size of => exact reads_array own (inside of List.mem_cons_self)
  | slice of => exact reads_slice own (inside of List.mem_cons_self)
  | pointer pointee => exact reads_pointer own (inside pointee List.mem_cons_self)
  | map key value =>
    exact reads_map own (inside key List.mem_cons_self)
      (inside value (List.mem_cons_of_mem _ List.mem_cons_self))
  | tuple members => exact reads_tuple own inside
  | struct layout =>
    exact reads_struct own fun f member => inside f.type (List.mem_map_of_mem member)
  | func signature =>
    exact reads_func own (fun s member => inside s (List.mem_append_left _ member))
      (called signature rfl)
  | unknown => exact absurd rfl own.ne_unknown
termination_by sizeOf s
decreasing_by
  · exact sizeOf_lt_of_mem_parts member
  · exact shape ▸ sizeOf_resultType_lt nonempty

/-- Types with one text are alike. -/
theorem alike_of_render_eq {s t : Ty} (legible : s.Legible declared)
    (legible' : t.Legible declared) (same : s.render = t.render) : s.Alike t := by
  refine (legible.reads legible' ends_nil ends_nil ?_).1
  rw [text, text, same]

end Reading

/-! ## Negotiation -/

section Negotiation

variable {s t : Ty} {declared : String → SymbolId}

theorem part?_ne_unknown (known : s.known = true) (place : List Nat) :
    s.part? place ≠ some .unknown := by
  induction place generalizing s with
  | nil =>
    rintro ⟨⟩
    cases known
  | cons i place hypothesis =>
    intro found
    obtain ⟨part, here, found⟩ := Option.bind_eq_some_iff.mp found
    exact hypothesis ((known_iff_parts.mp known).2 part (List.mem_of_getElem? here)) found

/-- Known types negotiate exactly if they are the same. Otherwise they are mismatched. -/
theorem negotiate_known (known : s.known = true) (known' : t.known = true) :
    ((∃ u, s.negotiate t = .ok u) ↔ s.refinedBy t = true) ∧
      ∀ err, s.negotiate t = .error err → err = .mismatch s t := by
  have closed : ∀ place, ¬ s.OpenAt t place := fun place opened =>
    part?_ne_unknown known place opened.1
  refine ⟨⟨?_, fun refined => ?_⟩, fun err failed => ?_⟩
  · rintro ⟨u, agreed⟩
    obtain ⟨expected, found, -⟩ := (negotiate_least s t).2 u agreed
    exact refinedBy_trans expected (refinedBy_symm known' found)
  · exact (negotiate_least s t).1.mpr ⟨⟨t, refined, refinedBy_refl t⟩, closed⟩
  · cases merged : s.merge t with
    | ok u => cases (negotiate_eq_ok_iff.mpr merged).symm.trans failed
    | error conflict =>
      have first := merge_eq_error_iff.mp merged
      cases conflict with
      | clash => cases (negotiate_of_firstConflict_clash first).symm.trans failed; rfl
      | undetermined =>
        obtain ⟨place, opened, -⟩ := first
        exact absurd opened (closed place)

/-- Known types that are shown as one text negotiate exactly if the same of their functions, in the
    order of the text, have a tuple of several types as their only result. Otherwise they are mismatched,
    and the message shows the one text for both. -/
theorem negotiate_of_render_eq (declared : String → SymbolId) (s t : Ty)
    (legible : s.Legible declared) (legible' : t.Legible declared) (same : s.render = t.render) :
    ((∃ u, s.negotiate t = .ok u) ↔ s.tupleResults = t.tupleResults) ∧
      (s.tupleResults ≠ t.tupleResults → s.negotiate t = .error (.mismatch s t)) := by
  obtain ⟨agreed, failed⟩ := negotiate_known legible.known legible'.known
  have exact : (∃ u, s.negotiate t = .ok u) ↔ s.tupleResults = t.tupleResults :=
    agreed.trans (alike_of_render_eq legible legible' same).refined
  refine ⟨exact, fun apart => ?_⟩
  cases negotiated : s.negotiate t with
  | ok u => exact absurd (exact.mp ⟨u, negotiated⟩) apart
  | error err => rw [failed err negotiated]

/-- A function that gives a pair. -/
def givesPair : Ty := func ⟨[], [tuple [int, string]]⟩

/-- A function that gives two results. -/
def givesTwo : Ty := func ⟨[], [int, string]⟩

/-- A function that takes a pointer to a declared type, and gives a struct of the given name. -/
def givesStruct (name : String) : Ty :=
  func ⟨[pointer (custom "Point" (.declared 0))], [struct ⟨name, [⟨"read", givesPair⟩], []⟩]⟩

/-- The only declared type there is. -/
def onlyPoint (_ : String) : SymbolId := .declared 0

theorem named_intString : ∀ part ∈ [int, string], part.Named onlyPoint :=
  List.forall_mem_cons.mpr ⟨.intro trivial nofun, List.forall_mem_singleton.mpr (.intro trivial nofun)⟩

theorem named_givesPair : givesPair.Named onlyPoint :=
  .intro trivial (List.forall_mem_singleton.mpr (.intro trivial named_intString))

theorem named_givesStruct (name : String) : (givesStruct name).Named onlyPoint := by
  have point : (custom "Point" (.declared 0)).Named onlyPoint := .intro ⟨by decide, rfl⟩ nofun
  have read : (struct ⟨name, [⟨"read", givesPair⟩], []⟩).Named onlyPoint :=
    .intro (List.forall_mem_singleton.mpr (by decide)) (List.forall_mem_singleton.mpr named_givesPair)
  exact .intro trivial (List.forall_mem_cons.mpr
    ⟨.intro trivial (List.forall_mem_singleton.mpr point), List.forall_mem_singleton.mpr read⟩)

/-- The structs have different names, which are not shown, and the one pair is a single result in both. -/
theorem negotiate_of_render_eq_givesStruct :
    (givesStruct "A").render = (givesStruct "B").render ∧
    (givesStruct "A").tupleResults = [false, true] ∧
    ∃ u, (givesStruct "A").negotiate (givesStruct "B") = .ok u := by
  have same : (givesStruct "A").render = (givesStruct "B").render := rfl
  have results : ∀ name, (givesStruct name).tupleResults = [false, true] := by
    intro name
    simp [givesStruct, givesPair, tupleResults_eq, ownTupleResult, Signature.returnsTuple, parts]
  have negotiated := negotiate_of_render_eq onlyPoint (givesStruct "A") (givesStruct "B")
    ⟨rfl, named_givesStruct "A"⟩ ⟨rfl, named_givesStruct "B"⟩ same
  exact ⟨same, results "A", negotiated.1.mpr ((results "A").trans (results "B").symm)⟩

/-- A function that gives a pair is shown as one that gives two results, and is another type. -/
theorem givesPair_mistaken :
    givesPair.Legible onlyPoint ∧ givesTwo.Legible onlyPoint ∧
    givesPair.render = givesTwo.render ∧
    givesPair.negotiate givesTwo = .error (.mismatch givesPair givesTwo) := by
  exact ⟨⟨rfl, named_givesPair⟩, ⟨rfl, .intro trivial named_intString⟩, by decide +kernel, rfl⟩

end Negotiation

end Ty

end PackageCheck
