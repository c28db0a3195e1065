/-! # Simple types

The types that have a name of their own and no parts. -/

namespace PackageCheck

/-- The simple types. -/
inductive Simple where
  | bool
  | byte
  | complex128
  | complex64
  | error
  | float32
  | float64
  | int
  | int16
  | int32
  | int64
  | int8
  | rune
  | string
  | uint
  | uint16
  | uint32
  | uint64
  | uint8
  | uintptr
deriving DecidableEq, Inhabited

namespace Simple

/-- All simple types, in the order in which they are predeclared. -/
def all : List Simple :=
  [bool, byte, complex128, complex64, error, float32, float64, int, int16, int32, int64, int8,
   rune, string, uint, uint16, uint32, uint64, uint8, uintptr]

/-- The name a program uses. -/
def name : Simple → String
  | bool => "bool"
  | byte => "byte"
  | complex128 => "complex128"
  | complex64 => "complex64"
  | error => "error"
  | float32 => "float32"
  | float64 => "float64"
  | int => "int"
  | int16 => "int16"
  | int32 => "int32"
  | int64 => "int64"
  | int8 => "int8"
  | rune => "rune"
  | string => "string"
  | uint => "uint"
  | uint16 => "uint16"
  | uint32 => "uint32"
  | uint64 => "uint64"
  | uint8 => "uint8"
  | uintptr => "uintptr"

/-- The simple type of a name. -/
def ofName? (name : String) : Option Simple :=
  all.find? (·.name == name)

/-- The list of all simple types misses none. -/
theorem mem_all (s : Simple) : s ∈ all := by cases s <;> decide

end Simple

end PackageCheck
