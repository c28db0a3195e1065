import PackageCheck.Json.Token

/-! # Reading JSON texts

A text holds one value and nothing after it. The tokens are taken one by one by a machine that
keeps the arrays and objects still open, so how deep a text nests is the length of that stack.

All of a text has to be well formed, but not all of it has to stand for a value: a string without
a text, an object with such a name, and an array or object inside too many others are read as
`Json.unreadable`. -/

namespace PackageCheck.Json

/-- An object whose entries are given in reverse. One name without a text makes it unreadable. -/
def ofReverseEntries (entries : List (Option String × Json)) : Json :=
  match entries.reverse.mapM fun (key, value) => key.map (·, value) with
  | some entries => .obj entries
  | none => .unreadable

/-- An array or object still open, with what has been read of it in reverse. -/
inductive Parser.Frame where
  | arr (items : List Json)
  | obj (entries : List (Option String × Json)) (key : Option String)

/-- What may come next. -/
inductive Parser.Expect where
  /-- A value. -/
  | value
  /-- The first item of an array, or its end. -/
  | firstItem
  /-- The first name of an object, or its end. -/
  | firstKey
  /-- A name of an object with the entries read before it. -/
  | key (entries : List (Option String × Json))
  /-- The colon behind a name. -/
  | colon (entries : List (Option String × Json)) (key : Option String)
  /-- What may follow the value just read. -/
  | after (value : Json)

/-- The machine: what may come next, and what is still open, the innermost first. -/
structure Parser where
  expect : Parser.Expect := .value
  frames : List Parser.Frame := []

namespace Parser

/-- Takes a token that starts a value. -/
def startValue (frames : List Frame) : Token → Option Parser
  | .str (some text) => some ⟨.after (.str text), frames⟩
  | .str none => some ⟨.after .unreadable, frames⟩
  | .scalar value => some ⟨.after value, frames⟩
  | .openArr => some ⟨.firstItem, .arr [] :: frames⟩
  | .openObj => some ⟨.firstKey, .obj [] none :: frames⟩
  | _ => none

/-- Ends an array or object inside `frames`, which can be read if they are fewer than `limit`. The
    frames beyond the limit are not counted, since they can be many. -/
def close (limit : Nat) (value : Json) (frames : List Frame) : Parser :=
  ⟨.after (if (frames.take limit).length < limit then value else .unreadable), frames⟩

/-- Takes the token behind a finished value, which belongs to the innermost open bracket. -/
def endValue (limit : Nat) (value : Json) : List Frame → Token → Option Parser
  | .arr items :: frames, .comma => some ⟨.value, .arr (value :: items) :: frames⟩
  | .arr items :: frames, .closeArr => some (close limit (.arr (value :: items).reverse) frames)
  | .obj entries key :: frames, .comma => some ⟨.key ((key, value) :: entries), frames⟩
  | .obj entries key :: frames, .closeObj =>
    some (close limit (ofReverseEntries ((key, value) :: entries)) frames)
  | _, _ => none

/-- Takes one token. What has `limit` or more brackets open around it is not read. -/
def step (limit : Nat) (parser : Parser) (token : Token) : Option Parser :=
  match parser.expect, parser.frames, token with
  | .value, frames, token => startValue frames token
  | .firstItem, _ :: frames, .closeArr => some (close limit (.arr []) frames)
  | .firstItem, frames, token => startValue frames token
  | .firstKey, _ :: frames, .closeObj => some (close limit (.obj []) frames)
  | .firstKey, _ :: frames, .str key => some ⟨.colon [] key, frames⟩
  | .key entries, frames, .str key => some ⟨.colon entries key, frames⟩
  | .colon entries key, frames, .colon => some ⟨.value, .obj entries key :: frames⟩
  | .after value, frames, token => endValue limit value frames token
  | _, _, _ => none

/-- The value read, if the text may end here. -/
def finish (parser : Parser) : Option Json :=
  match parser.expect, parser.frames with
  | .after value, [] => some value
  | _, _ => none

end Parser

/-- The value that a text writes, if it is well formed. An array or object with `limit` or more
    others around it is unreadable. -/
def parse? (limit : Nat) (text : String) : Option Json := do
  let tokens ← Token.ofChars? text.toList
  let parser ← tokens.foldlM (Parser.step limit) ({} : Parser)
  parser.finish

end PackageCheck.Json
