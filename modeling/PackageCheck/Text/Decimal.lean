/-! # Decimal numerals

Runs of the digits `0` to `9` and the numbers they denote. Zeros in front change nothing. -/

namespace PackageCheck.Text

/-- Whether `cs` is a run of digits, one at least. -/
def isNumeral (cs : List Char) : Bool :=
  !cs.isEmpty && cs.all Char.isDigit

/-- The number that a run of digits denotes. -/
def ofDigits (cs : List Char) : Nat :=
  cs.foldl (fun n c => 10 * n + (c.toNat - '0'.toNat)) 0

/-- One more digit at the end makes a number ten times as large and adds the digit. -/
theorem ofDigits_append_singleton (cs : List Char) (c : Char) :
    ofDigits (cs ++ [c]) = 10 * ofDigits cs + (c.toNat - '0'.toNat) := by
  simp [ofDigits, List.foldl_append]

end PackageCheck.Text
