/-! # JSON values

The values of the JSON format. An object keeps its entries in the order written, repeated names
included, because whether a repeated name is an error depends on what is being read. A number is
kept as an integer when it is written as one, without fraction and exponent, and as its own text
otherwise. A text may also hold parts that are well formed but stand for no value. They matter only
where they are read, so they have a place among the values. -/

namespace PackageCheck

/-- A JSON value. -/
inductive Json where
  | null
  | bool (value : Bool)
  /-- A number written as an integer. The text `-0` is no integer. -/
  | int (value : Int)
  /-- Any other number, as written. -/
  | real (text : String)
  | str (text : String)
  | arr (items : List Json)
  | obj (entries : List (String × Json))
  /-- A part of a text that can be passed over, but not read. -/
  | unreadable
deriving Inhabited

namespace Json

/-- An integer that counts something. -/
def nat (n : Nat) : Json := .int n

/-- The value if there is one, and `null` otherwise. -/
def ofOption (encode : α → Json) : Option α → Json
  | some a => encode a
  | none => .null

/-- An array of encoded values. -/
def ofList (encode : α → Json) (items : List α) : Json :=
  .arr (items.map encode)

/-- A tagged value: an object whose only name is the tag. -/
def tagged (tag : String) (body : Json) : Json :=
  .obj [(tag, body)]

/-! ## Nesting -/

mutual

/-- How many arrays and objects lie around the innermost value. -/
def depth : Json → Nat
  | .arr items => depthOfItems items + 1
  | .obj entries => depthOfEntries entries + 1
  | _ => 0

/-- The largest depth among the items of an array. -/
def depthOfItems : List Json → Nat
  | [] => 0
  | item :: rest => max item.depth (depthOfItems rest)

/-- The largest depth among the values of an object. -/
def depthOfEntries : List (String × Json) → Nat
  | [] => 0
  | (_, value) :: rest => max value.depth (depthOfEntries rest)

end

end Json

end PackageCheck
