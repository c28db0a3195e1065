import PackageCheck.Json.Decoder
import PackageCheck.Tree.Basic

/-! # Stored operators and kinds

Cases without data are stored as their names. -/

namespace PackageCheck

/-- Reads one of the given cases by its stored name. -/
def Json.caseOf? (all : List α) (tag : α → String) (json : Json) : Option α := do
  let name ← json.bareCase?
  all.find? (tag · == name)

/-! ## Operators -/

/-- The stored name of an operator between two operands. -/
def BinaryOp.tag : BinaryOp → String
  | add => "Add"
  | sub => "Sub"
  | mul => "Mul"
  | div => "Div"
  | rem => "Rem"
  | eq => "Eq"
  | ne => "Ne"
  | lt => "Lt"
  | gt => "Gt"
  | le => "Le"
  | ge => "Ge"
  | and => "And"
  | or => "Or"

/-- Reads an operator between two operands. -/
def BinaryOp.ofJson? : Json → Option BinaryOp :=
  Json.caseOf? [add, sub, mul, div, rem, eq, ne, lt, gt, le, ge, and, or] tag

/-- The stored name of an operator in front of an operand. -/
def UnaryOp.tag : UnaryOp → String
  | plus => "Plus"
  | minus => "Minus"
  | not => "Not"
  | addressOf => "AddressOf"
  | deref => "Deref"

/-- Reads an operator in front of an operand. -/
def UnaryOp.ofJson? : Json → Option UnaryOp :=
  Json.caseOf? [plus, minus, not, addressOf, deref] tag

/-- The stored name of an assignment operator. -/
def AssignOp.tag : AssignOp → String
  | assign => "Assign"
  | add => "Add"
  | sub => "Sub"
  | mul => "Mul"
  | div => "Div"

/-- Reads an assignment operator. -/
def AssignOp.ofJson? : Json → Option AssignOp :=
  Json.caseOf? [assign, add, sub, mul, div] tag

/-! ## Kinds -/

/-- The stored name of a kind of jump. -/
def JumpKind.tag : JumpKind → String
  | .break => "Break"
  | .continue => "Continue"
  | .goto => "Goto"

/-- Reads a kind of jump. -/
def JumpKind.ofJson? : Json → Option JumpKind :=
  Json.caseOf? [.break, .continue, .goto] tag

/-- The stored name of a kind of literal. -/
def LiteralKind.tag : LiteralKind → String
  | int => "Int"
  | float => "Float"
  | string => "String"
  | char => "Char"
  | bool => "Bool"

/-- Reads a kind of literal. -/
def LiteralKind.ofJson? : Json → Option LiteralKind :=
  Json.caseOf? [int, float, string, char, bool] tag

/-- The stored name of the shape of a composite literal. -/
def CompoundShape.tag : CompoundShape → String
  | undecided => "Unknown"
  | empty => "Empty"
  | listLike => "ListLike"
  | mapLike => "MapLike"

/-- Reads the shape of a composite literal. -/
def CompoundShape.ofJson? : Json → Option CompoundShape :=
  Json.caseOf? [undecided, empty, listLike, mapLike] tag

end PackageCheck
