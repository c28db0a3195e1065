import PackageCheck.Json.Basic

/-! # Writing JSON texts

Two layouts: on one line without blanks, and indented by two blanks a level. In strings only the
quote, the backslash and the control characters below the blank are escaped. What cannot be read
is written as `null`. -/

namespace PackageCheck.Json

/-! ## Strings -/

/-- A hexadecimal digit, in lower case. -/
def hexDigit (n : Nat) : Char :=
  if n < 10 then Char.ofNat ('0'.toNat + n) else Char.ofNat ('a'.toNat + (n - 10))

/-- The characters that write `c` inside a string. -/
def escape : Char → List Char
  | '"' => ['\\', '"']
  | '\\' => ['\\', '\\']
  | '\x08' => ['\\', 'b']
  | '\x0c' => ['\\', 'f']
  | '\n' => ['\\', 'n']
  | '\r' => ['\\', 'r']
  | '\t' => ['\\', 't']
  | c =>
    if c.toNat < 0x20 then ['\\', 'u', '0', '0', hexDigit (c.toNat / 16), hexDigit (c.toNat % 16)]
    else [c]

/-- A string between quotes. -/
def quote (s : String) : String :=
  "\"" ++ String.ofList (s.toList.flatMap escape) ++ "\""

/-! ## On one line -/

mutual

/-- A value on one line. -/
def compact : Json → String
  | .null | .unreadable => "null"
  | .bool value => if value then "true" else "false"
  | .int value => toString value
  | .real text => text
  | .str text => quote text
  | .arr items => "[" ++ compactItems items ++ "]"
  | .obj entries => "\x7b" ++ compactEntries entries ++ "\x7d"

/-- The items of an array, with a comma between any two. -/
def compactItems : List Json → String
  | [] => ""
  | [item] => item.compact
  | item :: rest => item.compact ++ "," ++ compactItems rest

/-- The entries of an object, with a comma between any two. -/
def compactEntries : List (String × Json) → String
  | [] => ""
  | [(key, value)] => quote key ++ ":" ++ value.compact
  | (key, value) :: rest => quote key ++ ":" ++ value.compact ++ "," ++ compactEntries rest

end

/-! ## Indented -/

/-- The break in front of something that stands `level` levels deep. -/
def newline (level : Nat) : String :=
  "\n" ++ String.ofList (List.replicate (2 * level) ' ')

mutual

/-- A value that stands `level` levels deep. Each item and entry has its own line, and empty
    brackets stay together. -/
def indented (level : Nat) : Json → String
  | .null | .unreadable => "null"
  | .bool value => if value then "true" else "false"
  | .int value => toString value
  | .real text => text
  | .str text => quote text
  | .arr [] => "[]"
  | .arr items => "[" ++ indentedItems (level + 1) items ++ newline level ++ "]"
  | .obj [] => "\x7b\x7d"
  | .obj entries => "\x7b" ++ indentedEntries (level + 1) entries ++ newline level ++ "\x7d"

/-- The items of an array, each behind its break. -/
def indentedItems (level : Nat) : List Json → String
  | [] => ""
  | [item] => newline level ++ item.indented level
  | item :: rest => newline level ++ item.indented level ++ "," ++ indentedItems level rest

/-- The entries of an object, each behind its break. -/
def indentedEntries (level : Nat) : List (String × Json) → String
  | [] => ""
  | [(key, value)] => newline level ++ quote key ++ ": " ++ value.indented level
  | (key, value) :: rest =>
    newline level ++ quote key ++ ": " ++ value.indented level ++ "," ++
      indentedEntries level rest

end

/-- A value laid out over lines, as a document of its own. -/
def pretty (value : Json) : String := value.indented 0

end PackageCheck.Json
