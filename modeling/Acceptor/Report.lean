/-
  Judging a text of inputs.

  Every line of the text that is neither blank nor a comment is an input.  An input is judged
  without the blanks at its ends, and its row shows it so.

  1. **Candidates** — `candidates`, the inputs of a text in order.

  2. **Rows** — `evaluate` judges them, and `report` writes one row per line.
-/
import Acceptor.Definition.Reader
import Acceptor.Run

namespace Acceptor

/-! ## Candidates -/

/-- The lines of a text that are inputs, trimmed. -/
def candidates (inputs : String) : List String :=
  (((Text.lines inputs.toList).map Text.trim).filter fun line => !Text.isRemark line).map
    String.ofList

/-! ## Rows -/

/-- An input with its verdict. -/
structure Row where
  text : String
  verdict : Verdict
deriving DecidableEq

/-- A row as a report writes it. -/
def Row.line (r : Row) : String := r.text ++ ": " ++ r.verdict.text

namespace Automaton

/-- The row of an input. -/
def judge (d : Automaton) (text : String) : Row := ⟨text, (d.run text).verdict⟩

/-- The rows of a text of inputs; each is noted. -/
def evaluate (d : Automaton) (inputs : String) : Logged (List Row) :=
  let rows := (candidates inputs).map d.judge
  { log := rows.map fun r => .judged r.text r.verdict, value := rows }

/-- The report on a text of inputs, a line for each row. -/
def report (d : Automaton) (inputs : String) : String :=
  String.join ((d.evaluate inputs).value.map fun r => r.line ++ "\n")

end Automaton

/-- The report of the automaton that a text defines on a text of inputs. -/
def report (definition inputs : String) : Except Definition.Error String :=
  (Definition.parse definition).value.map fun d => d.report inputs

end Acceptor
