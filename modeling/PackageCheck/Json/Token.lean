import PackageCheck.Json.Basic
import PackageCheck.Text.Decimal

/-! # JSON tokens

A text is read one character at a time by a machine without recursion: `Lexer.step` takes one
character, `Token.ofChars?` folds it over the text. A token is a bracket, a comma, a colon or a
finished scalar. The escapes of a string may name half of a pair without the other half; such a
string is a token too, without a text. -/

namespace PackageCheck.Json

/-- The smallest pieces of a JSON text. -/
inductive Token where
  | openArr
  | closeArr
  | openObj
  | closeObj
  | comma
  | colon
  /-- A string with its escapes resolved, if they can be. -/
  | str (text : Option String)
  /-- A literal word or a number. -/
  | scalar (value : Json)

/-! ## Scalars -/

/-- A digit run split off the front: the digits and what follows them. -/
def digits (cs : List Char) : List Char × List Char :=
  (cs.takeWhile Char.isDigit, cs.dropWhile Char.isDigit)

/-- Whether a run of digits is the integer part of a number: one digit at least, and no zero in
    front of another digit. -/
def isWhole : List Char → Bool
  | [] => false
  | ['0'] => true
  | c :: _ => c != '0'

/-- Whether `cs` is nothing, or an exponent: `e` or `E`, a sign or none, and digits. -/
def isExponent : List Char → Bool
  | [] => true
  | c :: '+' :: rest => (c == 'e' || c == 'E') && Text.isNumeral rest
  | c :: '-' :: rest => (c == 'e' || c == 'E') && Text.isNumeral rest
  | c :: rest => (c == 'e' || c == 'E') && Text.isNumeral rest

/-- Whether `cs` is a fraction or nothing, then an exponent or nothing. -/
def isFractionAndExponent : List Char → Bool
  | '.' :: rest => !(digits rest).1.isEmpty && isExponent (digits rest).2
  | rest => isExponent rest

/-- The number written by a sign and `cs`, if it is one. -/
def number? (negative : Bool) (cs : List Char) : Option Json :=
  let (whole, rest) := digits cs
  if !isWhole whole then none
  else if rest.isEmpty && !(negative && whole == ['0']) then
    let value := Text.ofDigits whole
    some (.int (if negative then -(value : Int) else value))
  else if isFractionAndExponent rest then
    some (.real (String.ofList (if negative then '-' :: cs else cs)))
  else none

/-- The scalar that a word stands for: one of the three literal words, or a number. -/
def scalar? : List Char → Option Json
  | ['n', 'u', 'l', 'l'] => some .null
  | ['t', 'r', 'u', 'e'] => some (.bool true)
  | ['f', 'a', 'l', 's', 'e'] => some (.bool false)
  | '-' :: cs => number? true cs
  | cs => number? false cs

/-! ## Escapes in strings -/

/-- The value of a hexadecimal digit. -/
def hexDigit? (c : Char) : Option Nat :=
  if '0' ≤ c && c ≤ '9' then some (c.toNat - '0'.toNat)
  else if 'a' ≤ c && c ≤ 'f' then some (c.toNat - 'a'.toNat + 10)
  else if 'A' ≤ c && c ≤ 'F' then some (c.toNat - 'A'.toNat + 10)
  else none

/-- The character that a one-letter escape stands for. -/
def escaped? : Char → Option Char
  | '"' => some '"'
  | '\\' => some '\\'
  | '/' => some '/'
  | 'b' => some '\x08'
  | 'f' => some '\x0c'
  | 'n' => some '\n'
  | 'r' => some '\r'
  | 't' => some '\t'
  | _ => none

/-- A piece of a string: a character, or half of a pair of 16-bit units, which is a character only
    next to its other half. -/
inductive Piece where
  | char (c : Char)
  | high (unit : Nat)
  | low (unit : Nat)

/-- The piece that a 16-bit unit is. -/
def Piece.ofUnit (unit : Nat) : Piece :=
  if 0xD800 ≤ unit && unit ≤ 0xDBFF then .high unit
  else if 0xDC00 ≤ unit && unit ≤ 0xDFFF then .low unit
  else .char (Char.ofNat unit)

/-- The character that two halves of a pair stand for. -/
def ofHalves (high low : Nat) : Char :=
  Char.ofNat (0x10000 + (high - 0xD800) * 0x400 + (low - 0xDC00))

/-- The characters of a string whose pieces are given in reverse, in front of `after`. A half
    without its other half makes the string none. -/
def charsOfReverse? : List Piece → List Char → Option (List Char)
  | [], after => some after
  | .char c :: before, after => charsOfReverse? before (c :: after)
  | .low low :: .high high :: before, after => charsOfReverse? before (ofHalves high low :: after)
  | _, _ => none

/-! ## The machine -/

/-- Where in a token the machine stands. What has been read of it is kept in reverse. -/
inductive Lexer.Mode where
  /-- Between two tokens. -/
  | between
  /-- Inside a literal word or a number. -/
  | word (read : List Char)
  /-- Inside a string. -/
  | string (read : List Piece)
  /-- Behind a backslash. -/
  | escape (read : List Piece)
  /-- Inside the four digits of a unit. -/
  | unit (read : List Piece) (count value : Nat)

/-- The machine: the mode and the tokens read, the last one first. -/
structure Lexer where
  mode : Lexer.Mode := .between
  tokens : List Token := []

namespace Lexer

/-- The token that is a single character. -/
def punctuation? : Char → Option Token
  | '[' => some .openArr
  | ']' => some .closeArr
  | '\x7b' => some .openObj
  | '\x7d' => some .closeObj
  | ',' => some .comma
  | ':' => some .colon
  | _ => none

/-- Whether `c` may stand between tokens. -/
def isSpace (c : Char) : Bool :=
  c == ' ' || c == '\t' || c == '\n' || c == '\r'

/-- Takes a character between two tokens. -/
def stepBetween (tokens : List Token) (c : Char) : Lexer :=
  if isSpace c then ⟨.between, tokens⟩
  else if c == '"' then ⟨.string [], tokens⟩
  else match punctuation? c with
    | some token => ⟨.between, token :: tokens⟩
    | none => ⟨.word [c], tokens⟩

/-- Ends a word. -/
def endWord (tokens : List Token) (read : List Char) : Option (List Token) :=
  (scalar? read.reverse).map fun value => .scalar value :: tokens

/-- The token of a string. -/
def stringToken (read : List Piece) : Token :=
  .str ((charsOfReverse? read []).map String.ofList)

/-- Takes one character. -/
def step (lexer : Lexer) (c : Char) : Option Lexer :=
  match lexer.mode with
  | .between => some (stepBetween lexer.tokens c)
  | .word read =>
    if isSpace c || c == '"' || (punctuation? c).isSome then
      (endWord lexer.tokens read).map fun tokens => stepBetween tokens c
    else some ⟨.word (c :: read), lexer.tokens⟩
  | .string read =>
    if c == '"' then some ⟨.between, stringToken read :: lexer.tokens⟩
    else if c == '\\' then some ⟨.escape read, lexer.tokens⟩
    else if c.toNat < 0x20 then none
    else some ⟨.string (.char c :: read), lexer.tokens⟩
  | .escape read =>
    if c == 'u' then some ⟨.unit read 0 0, lexer.tokens⟩
    else (escaped? c).map fun e => ⟨.string (.char e :: read), lexer.tokens⟩
  | .unit read count value => do
    let value := 16 * value + (← hexDigit? c)
    if count < 3 then return ⟨.unit read (count + 1) value, lexer.tokens⟩
    else return ⟨.string (.ofUnit value :: read), lexer.tokens⟩

/-- The tokens read, if the text may end here. -/
def finish (lexer : Lexer) : Option (List Token) :=
  match lexer.mode with
  | .between => some lexer.tokens.reverse
  | .word read => (endWord lexer.tokens read).map List.reverse
  | _ => none

end Lexer

/-- The tokens of a text, unless some part of it is no token. -/
def Token.ofChars? (cs : List Char) : Option (List Token) := do
  let lexer ← cs.foldlM Lexer.step ({} : Lexer)
  lexer.finish

end PackageCheck.Json
