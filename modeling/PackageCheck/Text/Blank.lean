/-! # Blank characters

The characters that Unicode gives the property `White_Space`, and the texts made of nothing else. -/

namespace PackageCheck.Text

/-- The inclusive ranges of code points with the property `White_Space`, in ascending order. -/
def blankRanges : List (Nat × Nat) :=
  [(0x09, 0x0D), (0x20, 0x20), (0x85, 0x85), (0xA0, 0xA0), (0x1680, 0x1680), (0x2000, 0x200A),
   (0x2028, 0x2029), (0x202F, 0x202F), (0x205F, 0x205F), (0x3000, 0x3000)]

/-- Whether `c` has the property `White_Space`. -/
def isBlank (c : Char) : Bool :=
  blankRanges.any fun (first, last) => first ≤ c.toNat && c.toNat ≤ last

/-- Whether a text says nothing: it is empty or made of blanks alone. -/
def isBlankText (s : String) : Bool :=
  s.toList.all isBlank

end PackageCheck.Text
