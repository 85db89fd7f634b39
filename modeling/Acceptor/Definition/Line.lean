/-
  The lines of a definition.

  A line keeps its number, counted from one over all lines of the text, and its text without the
  blanks at either end.  Blank lines and comments have a number but no meaning, so the significant
  lines are the others.
-/
import Acceptor.Text.Line

namespace Acceptor.Definition

/-- A trimmed line of a text with its number. -/
structure Line where
  number : Nat
  text : String
deriving DecidableEq

/-- Every line of a text, trimmed and numbered from one. -/
def numberedLines (text : String) : List Line :=
  ((Text.lines text.toList).zipIdx 1).map fun (line, n) => ⟨n, String.ofList (Text.trim line)⟩

/-- The lines that are neither blank nor comments. -/
def significantLines (text : String) : List Line :=
  (numberedLines text).filter fun line => !Text.isRemark line.text.toList

end Acceptor.Definition
