/-! # Operators

The operators of expressions and assignments, and the kinds of jumps, with the way a program
spells them. -/

namespace PackageCheck

/-- The operators between two operands. -/
inductive BinaryOp where
  | add
  | sub
  | mul
  | div
  | rem
  | eq
  | ne
  | lt
  | gt
  | le
  | ge
  | and
  | or
deriving DecidableEq, Inhabited

namespace BinaryOp

/-- Whether the operator compares its operands. -/
def isComparison : BinaryOp → Bool
  | eq | ne | lt | gt | le | ge => true
  | _ => false

/-- Whether the operator combines truth values. -/
def isLogical : BinaryOp → Bool
  | and | or => true
  | _ => false

/-- The spelling of the operator. -/
def render : BinaryOp → String
  | add => "+"
  | sub => "-"
  | mul => "*"
  | div => "/"
  | rem => "%"
  | eq => "=="
  | ne => "!="
  | lt => "<"
  | gt => ">"
  | le => "<="
  | ge => ">="
  | and => "&&"
  | or => "||"

end BinaryOp

/-- The operators in front of one operand. -/
inductive UnaryOp where
  | plus
  | minus
  | not
  | addressOf
  | deref
deriving DecidableEq, Inhabited

/-- The spelling of the operator. -/
def UnaryOp.render : UnaryOp → String
  | plus => "+"
  | minus => "-"
  | not => "!"
  | addressOf => "&"
  | deref => "*"

/-- The operators of assignments. -/
inductive AssignOp where
  | assign
  | add
  | sub
  | mul
  | div
deriving DecidableEq, Inhabited

/-- The operation that a compound assignment applies. A plain assignment applies none. -/
def AssignOp.binary? : AssignOp → Option BinaryOp
  | assign => none
  | add => some .add
  | sub => some .sub
  | mul => some .mul
  | div => some .div

/-- The kinds of jumps. -/
inductive JumpKind where
  | break
  | continue
  | goto
deriving DecidableEq, Inhabited

/-- The spelling of the jump. -/
def JumpKind.render : JumpKind → String
  | .break => "break"
  | .continue => "continue"
  | .goto => "goto"

end PackageCheck
