import PackageCheck.Json.Parser
import PackageCheck.Proofs.Json.Tokens

/-! # Reading a printed value

The parser makes the value again of the tokens that write it, unless it nests too deep. With the
lexer in front, reading undoes printing. -/

namespace PackageCheck.Json

/-! ## Tokens -/

theorem tokensOfItems_cons (item next : Json) (rest : List Json) :
    tokensOfItems (item :: next :: rest) =
      item.tokens ++ .comma :: tokensOfItems (next :: rest) := rfl

theorem tokensOfEntries_cons (key : String) (value : Json) (next : String × Json)
    (rest : List (String × Json)) :
    tokensOfEntries ((key, value) :: next :: rest) =
      .str (some key) :: .colon :: (value.tokens ++ .comma :: tokensOfEntries (next :: rest)) := rfl

/-! ## Ends -/

/-- An entry whose name could be read. -/
def named (entry : String × Json) : Option String × Json := (some entry.1, entry.2)

theorem mapM_named (entries : List (String × Json)) :
    ((entries.map named).mapM fun entry => entry.1.map fun key => (key, entry.2)) =
      some entries := by
  induction entries with
  | nil => rfl
  | cons entry rest ih =>
    rw [List.map_cons, List.mapM_cons, ih]
    rfl

/-- An object is readable if all its names are. -/
theorem ofReverseEntries_named (entries : List (String × Json)) :
    ofReverseEntries (entries.map named) = .obj entries.reverse := by
  rw [ofReverseEntries, ← List.map_reverse, mapM_named]

namespace Parser

variable {limit : Nat}

/-- Inside of few enough brackets, what has been read is kept. -/
theorem close_of_lt {frames : List Frame} (room : frames.length < limit) (value : Json) :
    close limit value frames = ⟨.after value, frames⟩ := by
  have few : (frames.take limit).length < limit := by
    rw [List.length_take]
    omega
  rw [close, if_pos few]

/-! ## Beginnings -/

/-- The first token of a value says the same to the first item of an array and to any other. -/
theorem tokens_starts (value : Json) : ∃ token others, value.tokens = token :: others ∧
    ∀ frames, step limit ⟨.firstItem, frames⟩ token = step limit ⟨.value, frames⟩ token := by
  cases value with
  | arr items => exact ⟨.openArr, _, rfl, fun frames => by cases frames <;> rfl⟩
  | obj entries => exact ⟨.openObj, _, rfl, fun frames => by cases frames <;> rfl⟩
  | str text => exact ⟨.str (some text), _, rfl, fun frames => by cases frames <;> rfl⟩
  | null | bool _ | int _ | real _ | unreadable =>
    exact ⟨.scalar _, _, rfl, fun frames => by cases frames <;> rfl⟩

theorem tokensOfItems_starts (item : Json) (rest : List Json) :
    ∃ others, tokensOfItems (item :: rest) = item.tokens ++ others := by
  cases rest with
  | nil => exact ⟨[], by rw [tokensOfItems, List.append_nil]⟩
  | cons next rest => exact ⟨.comma :: tokensOfItems (next :: rest), rfl⟩

theorem foldlM_firstItem (item : Json) (rest : List Json) (others : List Token)
    (frames : List Frame) :
    (tokensOfItems (item :: rest) ++ others).foldlM (step limit) ⟨.firstItem, frames⟩ =
      (tokensOfItems (item :: rest) ++ others).foldlM (step limit) ⟨.value, frames⟩ := by
  obtain ⟨behind, whole⟩ := tokensOfItems_starts item rest
  obtain ⟨token, inside, start, same⟩ := @tokens_starts limit item
  rw [whole, start]
  simp only [List.cons_append, List.foldlM_cons, same]

/-- The first name of an object is read like any other. -/
theorem foldlM_firstKey (entry : String × Json) (rest : List (String × Json))
    (others : List Token) (frames : List Frame) :
    (tokensOfEntries (entry :: rest) ++ others).foldlM (step limit)
        ⟨.firstKey, .obj [] none :: frames⟩ =
      (tokensOfEntries (entry :: rest) ++ others).foldlM (step limit) ⟨.key [], frames⟩ := by
  obtain ⟨key, value⟩ := entry
  cases rest <;> rfl

/-! ## Values -/

mutual

/-- The tokens of a value are read as that value. -/
theorem foldlM_tokens (value : Json) (frames : List Frame)
    (room : frames.length + value.depth ≤ limit) :
    value.tokens.foldlM (step limit) ⟨.value, frames⟩ = some ⟨.after value, frames⟩ := by
  cases value with
  | null | bool _ | int _ | real _ | unreadable | str _ => rfl
  | arr items =>
    rw [depth] at room
    cases items with
    | nil =>
      change some (close limit (.arr []) frames) = _
      rw [close_of_lt (by omega)]
    | cons item rest =>
      -- an array may be closed in place of its first item, so the parser is in a mode of its own
      have inside := foldlM_items (item :: rest) [] frames (List.cons_ne_nil _ _) (by omega)
      rw [← foldlM_firstItem] at inside
      exact inside
  | obj entries =>
    rw [depth] at room
    cases entries with
    | nil =>
      change some (close limit (.obj []) frames) = _
      rw [close_of_lt (by omega)]
    | cons entry rest =>
      have inside := foldlM_entries (entry :: rest) [] frames (List.cons_ne_nil _ _) (by omega)
      rw [List.map_nil, ← foldlM_firstKey] at inside
      exact inside

/-- The tokens of the last items of an array are read as these items. -/
theorem foldlM_items (items before : List Json) (frames : List Frame) (nonempty : items ≠ [])
    (room : frames.length + depthOfItems items < limit) :
    (tokensOfItems items ++ [Token.closeArr]).foldlM (step limit)
        ⟨.value, .arr before :: frames⟩ =
      some ⟨.after (.arr (before.reverse ++ items)), frames⟩ := by
  cases items with
  | nil => exact absurd rfl nonempty
  | cons item rest =>
    rw [depthOfItems] at room
    have first := foldlM_tokens item (.arr before :: frames)
      (by rw [List.length_cons]; omega)
    cases rest with
    | nil =>
      rw [tokensOfItems, List.foldlM_append, first]
      change some (close limit (.arr (item :: before).reverse) frames) = _
      rw [close_of_lt (by omega), List.reverse_cons]
    | cons next rest =>
      -- the items that have been read are kept in reverse, with the last one in front
      have others := foldlM_items (next :: rest) (item :: before) frames (List.cons_ne_nil _ _)
        (by omega)
      rw [List.reverse_cons, List.append_assoc] at others
      rw [tokensOfItems_cons, List.append_assoc, List.foldlM_append, first]
      exact others

/-- The tokens of the last entries of an object are read as these entries. -/
theorem foldlM_entries (entries before : List (String × Json)) (frames : List Frame)
    (nonempty : entries ≠ []) (room : frames.length + depthOfEntries entries < limit) :
    (tokensOfEntries entries ++ [Token.closeObj]).foldlM (step limit)
        ⟨.key (before.map named), frames⟩ =
      some ⟨.after (.obj (before.reverse ++ entries)), frames⟩ := by
  cases entries with
  | nil => exact absurd rfl nonempty
  | cons entry rest =>
    obtain ⟨key, value⟩ := entry
    rw [depthOfEntries] at room
    have first := foldlM_tokens value (.obj (before.map named) (some key) :: frames)
      (by rw [List.length_cons]; omega)
    cases rest with
    | nil =>
      rw [tokensOfEntries, List.cons_append, List.cons_append, List.foldlM_cons]
      change (value.tokens ++ [Token.closeObj]).foldlM (step limit)
        ⟨.value, .obj (before.map named) (some key) :: frames⟩ = _
      rw [List.foldlM_append, first]
      change some (close limit (ofReverseEntries (((key, value) :: before).map named)) frames) = _
      rw [ofReverseEntries_named, close_of_lt (by omega), List.reverse_cons]
    | cons next rest =>
      have others := foldlM_entries (next :: rest) ((key, value) :: before) frames
        (List.cons_ne_nil _ _) (by omega)
      rw [List.reverse_cons, List.append_assoc] at others
      rw [tokensOfEntries_cons, List.cons_append, List.cons_append, List.foldlM_cons]
      change ((value.tokens ++ Token.comma :: tokensOfEntries (next :: rest)) ++
        [Token.closeObj]).foldlM (step limit)
          ⟨.value, .obj (before.map named) (some key) :: frames⟩ = _
      rw [List.append_assoc, List.foldlM_append, first]
      exact others

end

end Parser

/-- Reading a printed document gives its value, if that does not nest too deep. -/
theorem parse?_pretty {value : Json} {limit : Nat} (plain : value.isPlain)
    (room : value.depth ≤ limit) : parse? limit (value.pretty ++ "\n") = some value := by
  have read : value.tokens.foldlM (Parser.step limit) {} = some ⟨.after value, []⟩ :=
    Parser.foldlM_tokens value [] (by simpa using room)
  rw [parse?, ofChars?_pretty plain]
  change (value.tokens.foldlM (Parser.step limit) {}).bind Parser.finish = _
  rw [read]
  rfl

end PackageCheck.Json
