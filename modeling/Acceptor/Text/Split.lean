/-
  Splitting a line at marks.

  1. **At the first mark** — `splitAround mark s` is what stands before and behind the first
     occurrence of `mark` in `s`; there is no answer when `mark` does not occur.

  2. **At every comma** — `listItems s`, the trimmed pieces between commas that are not empty.
-/
import Acceptor.Text.Blank

namespace Acceptor.Text

/-! ## The first occurrence of a mark -/

/-- What stands before and behind the first occurrence of `mark`. -/
def splitAround (mark : List Char) : List Char → Option (List Char × List Char)
  | [] => if mark = [] then some ([], []) else none
  | c :: rest =>
    if mark.isPrefixOf (c :: rest) then some ([], (c :: rest).drop mark.length)
    else (splitAround mark rest).map fun (before, behind) => (c :: before, behind)

/-! ## Lists with commas -/

/-- The items of a list that is written with commas: trimmed, and none of them empty. -/
def listItems (s : List Char) : List (List Char) :=
  ((s.splitOn ',').map trim).filter (· ≠ [])

end Acceptor.Text
