import Mathlib.Data.List.Basic
import Mathlib.Data.List.TakeWhile
import PackageCheck.Json.Printer
import PackageCheck.Json.Token

/-! # The tokens of a printed value

A value that holds integers, strings and words alone is printed as a text of which the lexer makes
the tokens of the value again, whatever the layout. -/

namespace PackageCheck.Json

/-! ## Values and their tokens -/

mutual

/-- Whether a value can be written: it holds no number but integers, and nothing unreadable. -/
def isPlain : Json → Bool
  | .real _ | .unreadable => false
  | .arr items => itemsPlain items
  | .obj entries => entriesPlain entries
  | .null | .bool _ | .int _ | .str _ => true

/-- Whether all items of an array can be written. -/
def itemsPlain : List Json → Bool
  | [] => true
  | item :: rest => item.isPlain && itemsPlain rest

/-- Whether all values of an object can be written. -/
def entriesPlain : List (String × Json) → Bool
  | [] => true
  | (_, value) :: rest => value.isPlain && entriesPlain rest

end

mutual

/-- The tokens that write a value. -/
def tokens : Json → List Token
  | .str text => [.str (some text)]
  | .arr items => .openArr :: (tokensOfItems items ++ [.closeArr])
  | .obj entries => .openObj :: (tokensOfEntries entries ++ [.closeObj])
  | value => [.scalar value]

/-- The tokens that write the items of an array. -/
def tokensOfItems : List Json → List Token
  | [] => []
  | [item] => item.tokens
  | item :: rest => item.tokens ++ .comma :: tokensOfItems rest

/-- The tokens that write the entries of an object. -/
def tokensOfEntries : List (String × Json) → List Token
  | [] => []
  | [(key, value)] => .str (some key) :: .colon :: value.tokens
  | (key, value) :: rest =>
    .str (some key) :: .colon :: (value.tokens ++ .comma :: tokensOfEntries rest)

end

/-! ## Runs of the lexer

Punctuation and strings end where they end. A word goes on up to the next delimiter, so a printed
scalar is only a token in front of one, or at the end of the text. -/

namespace Lexer

/-- Whether a character ends a word. -/
def isDelimiter (c : Char) : Bool :=
  isSpace c || c == '"' || (punctuation? c).isSome

/-- Whether a lexer has read some tokens, given in reverse, and is not in the middle of another one
    but for a word that may end here. -/
def Done (lexer : Lexer) (tokens : List Token) : Prop :=
  match lexer.mode with
  | .between => lexer.tokens = tokens
  | .word read => endWord lexer.tokens read = some tokens
  | _ => False

/-- Behind a delimiter it does not matter whether a word has ended there. -/
theorem step_of_done {lexer : Lexer} {tokens : List Token} (done : lexer.Done tokens) {c : Char}
    (delimiter : isDelimiter c) : lexer.step c = step ⟨.between, tokens⟩ c := by
  obtain ⟨mode, before⟩ := lexer
  cases mode with
  | between =>
    obtain rfl : before = tokens := done
    rfl
  | word read =>
    have ended : endWord before read = some tokens := done
    have delimiter : (isSpace c || c == '"' || (punctuation? c).isSome) = true := delimiter
    simp only [step, delimiter, if_true, ended, Option.map_some]
  | string | escape | unit => exact done.elim

/-- The tokens are all there at the end. -/
theorem finish_of_done {lexer : Lexer} {tokens : List Token} (done : lexer.Done tokens) :
    lexer.finish = some tokens.reverse := by
  obtain ⟨mode, before⟩ := lexer
  cases mode with
  | between =>
    obtain rfl : before = tokens := done
    rfl
  | word read =>
    have ended : endWord before read = some tokens := done
    simp only [finish, ended, Option.map_some]
  | string | escape | unit => exact done.elim

end Lexer

/-- Whether the lexer makes some tokens of characters, and is between two tokens behind them. -/
def LexesTo (cs : List Char) (tokens : List Token) : Prop :=
  ∀ before, cs.foldlM Lexer.step ⟨.between, before⟩ =
    some ⟨.between, tokens.reverse ++ before⟩

/-- Whether the lexer makes some tokens of characters, if the last one ends there. -/
def Lexes (cs : List Char) (tokens : List Token) : Prop :=
  ∀ before, ∃ lexer, cs.foldlM Lexer.step ⟨.between, before⟩ = some lexer ∧
    lexer.Done (tokens.reverse ++ before)

section Runs

variable {cs others : List Char} {tokens tokens' : List Token}

theorem LexesTo.lexes (lexed : LexesTo cs tokens) : Lexes cs tokens :=
  fun before => ⟨_, lexed before, rfl⟩

theorem LexesTo.nil : LexesTo [] [] := fun _ => rfl

/-- A character that is a token of its own. -/
theorem LexesTo.punctuation {c : Char} {token : Token}
    (stepped : ∀ before, Lexer.stepBetween before c = ⟨.between, token :: before⟩) :
    LexesTo [c] [token] := by
  intro before
  simp only [List.foldlM_cons, Lexer.step, stepped, List.foldlM_nil]
  rfl

theorem LexesTo.append (first : LexesTo cs tokens) (second : LexesTo others tokens') :
    LexesTo (cs ++ others) (tokens ++ tokens') := by
  intro before
  rw [List.foldlM_append, first before, List.reverse_append, List.append_assoc]
  exact second _

theorem LexesTo.appendLexes (first : LexesTo cs tokens) (second : Lexes others tokens') :
    Lexes (cs ++ others) (tokens ++ tokens') := by
  intro before
  rw [List.foldlM_append, first before, List.reverse_append, List.append_assoc]
  exact second _

/-- What starts with a delimiter ends the last token in front of it. -/
theorem Lexes.append {c : Char} (first : Lexes cs tokens) (delimiter : Lexer.isDelimiter c)
    (second : LexesTo (c :: others) tokens') :
    LexesTo (cs ++ c :: others) (tokens ++ tokens') := by
  intro before
  obtain ⟨lexer, read, done⟩ := first before
  rw [List.foldlM_append, read, List.reverse_append, List.append_assoc,
    ← second (tokens.reverse ++ before), List.foldlM_cons, ← Lexer.step_of_done done delimiter]
  rfl

/-- The whole text is read. -/
theorem Lexes.ofChars? (lexed : Lexes cs tokens) : Token.ofChars? cs = some tokens := by
  obtain ⟨lexer, read, done⟩ := lexed []
  rw [List.append_nil] at done
  rw [Token.ofChars?, read]
  exact (Lexer.finish_of_done done).trans (by rw [List.reverse_reverse])

end Runs

/-! ## Words -/

/-- Characters without a delimiter are read as one word. -/
theorem foldlM_word {cs : List Char} (inside : ∀ c ∈ cs, Lexer.isDelimiter c = false)
    (read : List Char) (before : List Token) :
    cs.foldlM Lexer.step ⟨.word read, before⟩ = some ⟨.word (cs.reverse ++ read), before⟩ := by
  induction cs generalizing read with
  | nil => rfl
  | cons c rest ih =>
    obtain ⟨here, others⟩ := List.forall_mem_cons.mp inside
    have here : (Lexer.isSpace c || c == '"' || (Lexer.punctuation? c).isSome) = false := here
    rw [List.foldlM_cons, Lexer.step]
    simp only [here, Bool.false_eq_true, if_false]
    rw [List.reverse_cons, List.append_assoc]
    exact ih others (c :: read)

/-- A word that stands for a scalar. -/
theorem lexes_scalar {cs : List Char} {value : Json} (nonempty : cs ≠ [])
    (inside : ∀ c ∈ cs, Lexer.isDelimiter c = false) (scalar : scalar? cs = some value) :
    Lexes cs [.scalar value] := by
  intro before
  cases cs with
  | nil => exact absurd rfl nonempty
  | cons c rest =>
    obtain ⟨here, others⟩ := List.forall_mem_cons.mp inside
    simp only [Lexer.isDelimiter, Bool.or_eq_false_iff, Option.isSome_eq_false_iff,
      Option.isNone_iff_eq_none] at here
    obtain ⟨⟨blank, quote⟩, symbol⟩ := here
    refine ⟨⟨.word (rest.reverse ++ [c]), before⟩, ?_, ?_⟩
    · rw [List.foldlM_cons, Lexer.step]
      simp only [Lexer.stepBetween, blank, quote, symbol, Bool.false_eq_true, if_false]
      exact foldlM_word others [c] before
    · have word : (rest.reverse ++ [c]).reverse = c :: rest := by simp
      simp only [Lexer.Done, Lexer.endWord, word, scalar, Option.map_some]
      rfl

/-! ## Integers -/

theorem isDigit_of_mem_toDigits {n : Nat} {c : Char} (member : c ∈ Nat.toDigits 10 n) :
    c.isDigit = true :=
  Nat.isDigit_of_mem_toDigits (by decide) (Nat.le_refl _) member

theorem digitChar_ne_zero : ∀ d < 10, 0 < d → Nat.digitChar d ≠ '0' := by decide

theorem head?_toDigits_ne_zero {n : Nat} (positive : 0 < n) :
    (Nat.toDigits 10 n).head? ≠ some '0' := by
  induction n using Nat.strongRecOn with
  | ind n ih =>
    by_cases small : n < 10
    · rw [Nat.toDigits_of_lt_base small]
      exact fun zero => digitChar_ne_zero n small positive (Option.some.inj zero)
    · -- the first digit is that of the number without its last one
      have front := ih (n / 10) (by omega) (by omega)
      obtain ⟨c, rest, digits⟩ := List.exists_cons_of_ne_nil (Nat.toDigits_ne_nil (n := n / 10))
      rw [digits] at front
      rw [Nat.toDigits_of_base_le (by decide) (by omega), digits]
      exact front

theorem isWhole_toDigits (n : Nat) : isWhole (Nat.toDigits 10 n) = true := by
  rcases Nat.eq_zero_or_pos n with rfl | positive
  · rfl
  · have first := head?_toDigits_ne_zero positive
    cases digits : Nat.toDigits 10 n with
    | nil => exact absurd digits Nat.toDigits_ne_nil
    | cons c rest =>
      rw [digits, List.head?_cons] at first
      have first : c ≠ '0' := fun same => first (congrArg some same)
      cases rest <;> simp [isWhole, first]

/-- The digits of a number are read as that number, behind a minus unless it is zero. -/
theorem number?_toDigits {negative : Bool} {n : Nat} (signed : negative = true → 0 < n) :
    number? negative (Nat.toDigits 10 n) =
      some (.int (if negative then -(n : Int) else n)) := by
  have all : ∀ c ∈ Nat.toDigits 10 n, c.isDigit = true := fun c => isDigit_of_mem_toDigits
  have split : digits (Nat.toDigits 10 n) = (Nat.toDigits 10 n, []) := by
    rw [digits, List.takeWhile_eq_self_iff.mpr all, List.dropWhile_eq_nil_iff.mpr all]
  have value : Text.ofDigits (Nat.toDigits 10 n) = n := Nat.ofDigitChars_ten_toDigits
  have plain : (negative && Nat.toDigits 10 n == ['0']) = false := by
    cases negative with
    | false => rfl
    | true =>
      have first := head?_toDigits_ne_zero (signed rfl)
      rw [Bool.true_and, beq_eq_false_iff_ne]
      intro zero
      rw [zero] at first
      exact first rfl
  simp only [number?, split, isWhole_toDigits, value, plain, List.isEmpty_nil, Bool.not_true,
    Bool.false_eq_true, if_false, Bool.not_false, Bool.and_self, if_true]

theorem isDelimiter_digit : ∀ d < 10, Lexer.isDelimiter (Char.ofNat (48 + d)) = false := by decide

theorem isDelimiter_of_isDigit {c : Char} (digit : c.isDigit = true) :
    Lexer.isDelimiter c = false := by
  have least : 48 ≤ c.toNat ∧ c.toNat ≤ 57 := by
    simpa [Char.isDigit, UInt32.le_iff_toNat_le] using digit
  have place : c = Char.ofNat (48 + (c.toNat - 48)) := by
    rw [Nat.add_sub_cancel' least.1, Char.ofNat_toNat]
  rw [place]
  exact isDelimiter_digit _ (by omega)

/-- A word that starts with a digit is a number. -/
theorem scalar?_of_isDigit {c : Char} (digit : c.isDigit = true) (rest : List Char) :
    scalar? (c :: rest) = number? false (c :: rest) := by
  have apart : ∀ other : Char, other.isDigit = false → c ≠ other := by
    rintro other letter rfl
    rw [digit] at letter
    cases letter
  have not_n := apart 'n' (by decide)
  have not_t := apart 't' (by decide)
  have not_f := apart 'f' (by decide)
  have not_minus := apart '-' (by decide)
  unfold scalar?
  split <;> simp_all

/-- The text of an integer is read as that integer. -/
theorem lexes_int (n : Int) : Lexes (toString n).toList [.scalar (.int n)] := by
  have digits : ∀ m : Nat, ∀ c ∈ Nat.toDigits 10 m, Lexer.isDelimiter c = false :=
    fun m c member => isDelimiter_of_isDigit (isDigit_of_mem_toDigits member)
  cases n with
  | ofNat m =>
    have text : (toString (Int.ofNat m)).toList = Nat.toDigits 10 m := String.toList_ofList
    rw [text]
    refine lexes_scalar Nat.toDigits_ne_nil (digits m) ?_
    have number := @number?_toDigits false m nofun
    obtain ⟨c, rest, text⟩ := List.exists_cons_of_ne_nil (Nat.toDigits_ne_nil (n := m) (b := 10))
    have digit : c.isDigit = true := isDigit_of_mem_toDigits (text ▸ List.mem_cons_self)
    rw [text] at number ⊢
    rw [scalar?_of_isDigit digit]
    exact number
  | negSucc m =>
    have text : (toString (Int.negSucc m)).toList = '-' :: Nat.toDigits 10 (m + 1) := by
      rw [Int.toString_eq_repr, Int.repr, String.toList_append]
      exact congrArg ('-' :: ·) String.toList_ofList
    rw [text]
    refine lexes_scalar (List.cons_ne_nil _ _)
      (List.forall_mem_cons.mpr ⟨by decide, digits (m + 1)⟩) ?_
    exact number?_toDigits fun _ => Nat.succ_pos m

/-! ## Strings -/

/-- The hexadecimal digits that the printer writes are read as what they stand for. -/
theorem hexDigit?_hexDigit : ∀ n < 16, hexDigit? (hexDigit n) = some n := by decide

theorem ofUnit_toNat {c : Char} (control : c.toNat < 0x20) : Piece.ofUnit c.toNat = .char c := by
  have below : ¬ 0xD800 ≤ c.toNat := by omega
  have below' : ¬ 0xDC00 ≤ c.toNat := by omega
  simp [Piece.ofUnit, below, below', Char.ofNat_toNat]

/-- A unit with two zeros in front is read as the piece that it is. -/
theorem foldlM_unit {high low : Char} {x y : Nat} (first : hexDigit? high = some x)
    (second : hexDigit? low = some y) (read : List Piece) (before : List Token) :
    ['\\', 'u', '0', '0', high, low].foldlM Lexer.step ⟨.string read, before⟩ =
      some ⟨.string (.ofUnit (16 * x + y) :: read), before⟩ := by
  have zero : hexDigit? '0' = some 0 := by decide
  simp [Lexer.step, zero, first, second]

/-- What is written for a character inside of a string is read as that character. -/
theorem foldlM_escape (c : Char) (read : List Piece) (before : List Token) :
    (escape c).foldlM Lexer.step ⟨.string read, before⟩ =
      some ⟨.string (.char c :: read), before⟩ := by
  unfold escape
  split
  -- all other characters have an escape of their own, which is read in one or two steps
  case h_8 quote backslash _ _ _ _ _ =>
    split
    next control =>
      have high := hexDigit?_hexDigit (c.toNat / 16) (by omega)
      have low := hexDigit?_hexDigit (c.toNat % 16) (by omega)
      have whole : 16 * (c.toNat / 16) + c.toNat % 16 = c.toNat := by omega
      rw [foldlM_unit high low, whole, ofUnit_toNat control]
    next printed =>
      have not_quote : (c == '"') = false := beq_eq_false_iff_ne.mpr quote
      have not_backslash : (c == '\\') = false := beq_eq_false_iff_ne.mpr backslash
      simp only [List.foldlM_cons, Lexer.step, not_quote, not_backslash, printed, if_false]
      rfl
  all_goals rfl

theorem foldlM_escapes (cs : List Char) (read : List Piece) (before : List Token) :
    (cs.flatMap escape).foldlM Lexer.step ⟨.string read, before⟩ =
      some ⟨.string ((cs.map .char).reverse ++ read), before⟩ := by
  induction cs generalizing read with
  | nil => rfl
  | cons c rest ih =>
    rw [List.flatMap_cons, List.foldlM_append, foldlM_escape, List.map_cons, List.reverse_cons,
      List.append_assoc]
    exact ih (.char c :: read)

/-- Whole characters need no other half. -/
theorem charsOfReverse?_chars (cs after : List Char) :
    charsOfReverse? (cs.map .char) after = some (cs.reverse ++ after) := by
  induction cs generalizing after with
  | nil => rfl
  | cons c rest ih =>
    rw [List.map_cons, charsOfReverse?, ih, List.reverse_cons, List.append_assoc]
    rfl

/-- A string between quotes is read as that string. -/
theorem lexesTo_quote (s : String) : LexesTo (quote s).toList [.str (some s)] := by
  intro before
  have text : (quote s).toList = '"' :: (s.toList.flatMap escape ++ ['"']) := by
    simp [quote]
  have token : Lexer.stringToken (s.toList.map .char).reverse = .str (some s) := by
    rw [Lexer.stringToken, ← List.map_reverse, charsOfReverse?_chars]
    simp
  rw [text, List.foldlM_cons]
  change List.foldlM Lexer.step ⟨.string [], before⟩ _ = _
  rw [List.foldlM_append, foldlM_escapes, List.append_nil]
  change some (Lexer.mk .between (Lexer.stringToken (s.toList.map .char).reverse :: before)) = _
  rw [token]
  rfl

/-! ## Layout -/

theorem toList_newline (level : Nat) :
    (newline level).toList = '\n' :: List.replicate (2 * level) ' ' := by
  simp [newline]

/-- A break holds no token. -/
theorem lexesTo_newline (level : Nat) : LexesTo (newline level).toList [] := by
  have blanks : ∀ (n : Nat), LexesTo (List.replicate n ' ') [] := by
    intro n
    induction n with
    | zero => exact .nil
    | succ n ih =>
      rw [List.replicate_succ]
      exact fun before => ih before
  rw [toList_newline]
  exact fun before => blanks (2 * level) before

/-- A break ends the last token in front of it. -/
theorem Lexes.append_newline {cs others : List Char} {tokens tokens' : List Token} {level : Nat}
    (first : Lexes cs tokens) (second : LexesTo ((newline level).toList ++ others) tokens') :
    LexesTo (cs ++ ((newline level).toList ++ others)) (tokens ++ tokens') := by
  rw [toList_newline] at second ⊢
  exact first.append (by decide) second

theorem lexesTo_comma : LexesTo [','] [.comma] :=
  .punctuation fun _ => rfl

theorem lexesTo_colon : LexesTo [':', ' '] [.colon] :=
  have colon : LexesTo [':'] [.colon] := .punctuation fun _ => rfl
  have blank : LexesTo [' '] [] := fun _ => rfl
  colon.append blank

theorem lexes_null : Lexes "null".toList [.scalar .null] :=
  lexes_scalar (by decide) (List.forall_iff_forall_mem.mp (by decide)) rfl

theorem lexes_bool (value : Bool) :
    Lexes (if value then "true" else "false").toList [.scalar (.bool value)] := by
  cases value with
  | false => exact lexes_scalar (by decide) (List.forall_iff_forall_mem.mp (by decide)) rfl
  | true => exact lexes_scalar (by decide) (List.forall_iff_forall_mem.mp (by decide)) rfl

/-- What stands between brackets ends with a break. -/
theorem Lexes.bracketed {opening closing : Char} {token token' : Token} {cs : List Char}
    {tokens : List Token} (opens : LexesTo [opening] [token]) (inside : Lexes cs tokens)
    (closes : LexesTo [closing] [token']) (level : Nat) :
    LexesTo (opening :: (cs ++ ((newline level).toList ++ [closing])))
      (token :: (tokens ++ [token'])) :=
  (opens.appendLexes inside).append_newline ((lexesTo_newline level).append closes)

mutual

/-- A printed value is read as its tokens. -/
theorem lexes_indented (level : Nat) (value : Json) (plain : value.isPlain) :
    Lexes (value.indented level).toList value.tokens := by
  cases value with
  | null => exact lexes_null
  | bool value => exact lexes_bool value
  | int value => exact lexes_int value
  | real text => cases plain
  | unreadable => cases plain
  | str text => exact (lexesTo_quote text).lexes
  | arr items =>
    have opens : LexesTo ['['] [.openArr] := .punctuation fun _ => rfl
    have closes : LexesTo [']'] [.closeArr] := .punctuation fun _ => rfl
    have inside := lexes_indentedItems (level + 1) items plain
    cases items with
    | nil =>
      -- no break stands between the brackets of an empty array
      have text : ((Json.arr []).indented level).toList = ['[', ']'] := by simp [indented]
      rw [text]
      exact (opens.append closes).lexes
    | cons item rest =>
      have text : ((Json.arr (item :: rest)).indented level).toList = '[' ::
          ((indentedItems (level + 1) (item :: rest)).toList ++
            ((newline level).toList ++ [']'])) := by
        simp [indented]
      rw [text, tokens]
      -- the break in front of the bracket ends the last item, which may be a word
      exact (inside.bracketed opens closes level).lexes
  | obj entries =>
    have opens : LexesTo ['\x7b'] [.openObj] := .punctuation fun _ => rfl
    have closes : LexesTo ['\x7d'] [.closeObj] := .punctuation fun _ => rfl
    have inside := lexes_indentedEntries (level + 1) entries plain
    cases entries with
    | nil =>
      have text : ((Json.obj []).indented level).toList = ['\x7b', '\x7d'] := by simp [indented]
      rw [text]
      exact (opens.append closes).lexes
    | cons entry rest =>
      have text : ((Json.obj (entry :: rest)).indented level).toList = '\x7b' ::
          ((indentedEntries (level + 1) (entry :: rest)).toList ++
            ((newline level).toList ++ ['\x7d'])) := by
        simp [indented]
      rw [text, tokens]
      exact (inside.bracketed opens closes level).lexes

/-- The printed items of an array are read as their tokens. -/
theorem lexes_indentedItems (level : Nat) (items : List Json) (plain : itemsPlain items) :
    Lexes (indentedItems level items).toList (tokensOfItems items) := by
  cases items with
  | nil => exact LexesTo.nil.lexes
  | cons item rest =>
    obtain ⟨here, others⟩ := Bool.and_eq_true_iff.mp plain
    have first := (lexesTo_newline level).appendLexes (lexes_indented level item here)
    cases rest with
    | nil =>
      rw [indentedItems, tokensOfItems, String.toList_append]
      exact first
    | cons next rest =>
      have second := lexes_indentedItems level (next :: rest) others
      have whole := (first.append (by decide) lexesTo_comma).appendLexes second
      simpa [indentedItems, tokensOfItems] using whole

/-- The printed entries of an object are read as their tokens. -/
theorem lexes_indentedEntries (level : Nat) (entries : List (String × Json))
    (plain : entriesPlain entries) :
    Lexes (indentedEntries level entries).toList (tokensOfEntries entries) := by
  cases entries with
  | nil => exact LexesTo.nil.lexes
  | cons entry rest =>
    obtain ⟨key, value⟩ := entry
    obtain ⟨here, others⟩ := Bool.and_eq_true_iff.mp plain
    have named := ((lexesTo_newline level).append (lexesTo_quote key)).append lexesTo_colon
    have first := named.appendLexes (lexes_indented level value here)
    cases rest with
    | nil => simpa [indentedEntries, tokensOfEntries] using first
    | cons next rest =>
      have second := lexes_indentedEntries level (next :: rest) others
      have whole := (first.append (by decide) lexesTo_comma).appendLexes second
      simpa [indentedEntries, tokensOfEntries] using whole

end

/-- A printed document, with a line break at its end, is read as the tokens of its value. -/
theorem ofChars?_pretty {value : Json} (plain : value.isPlain) :
    Token.ofChars? (value.pretty ++ "\n").toList = some value.tokens := by
  have line : LexesTo ['\n'] [] := fun _ => rfl
  have lexed := (lexes_indented 0 value plain).append (by decide) line
  rw [List.append_nil] at lexed
  rw [String.toList_append]
  exact lexed.lexes.ofChars?

end PackageCheck.Json
