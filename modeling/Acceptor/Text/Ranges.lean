/-
  Sets of characters as ranges of code points.

  A property of characters that a standard gives as a table is carried as the list of its ranges,
  both ends included.
-/

namespace Acceptor.Text

/-- Ranges of code points, both ends included. -/
abbrev Ranges := List (Nat × Nat)

namespace Ranges

/-- Whether a character is in one of the ranges. -/
def holds (rs : Ranges) (c : Char) : Bool :=
  rs.any fun (first, last) => first ≤ c.toNat && c.toNat ≤ last

end Ranges

end Acceptor.Text
