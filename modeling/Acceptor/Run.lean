/-
  The run of an automaton on an input.

  The input is the text up to its first line end, a carriage return or a newline.  Blanks in it
  are passed over, and every other character is a symbol to be followed.  A run stops at the end of
  the input, at the first character outside the alphabet, or at the first symbol on which the state
  has no transition.

  1. **The result** — `Run` holds the start, the steps taken, the reason for the halt and the
     verdict.  A position counts every character of the text from zero, the blanks included.

  2. **Following** — `follow` walks the characters from a state; `Automaton.run` begins at the
     start and adds the verdict, which accepts only a run that was completed.
-/
import Acceptor.Automaton
import Acceptor.Text.Blank
import Acceptor.Verdict

namespace Acceptor

/-! ## The result of a run -/

/-- Why a run stopped. -/
inductive Halt
  /-- The input was read to its end. -/
  | completed
  /-- A character is not in the alphabet. -/
  | unknownSymbol (position : Nat) (symbol : Char)
  /-- The state has no transition on a symbol. -/
  | noTransition (position : Nat) (state : Nat) (symbol : Char)
deriving DecidableEq

/-- The course of an automaton over an input. -/
structure Run where
  start : Nat
  /-- The symbols followed, each with the state it led to. -/
  steps : List (Char × Nat)
  halt : Halt
  verdict : Verdict
deriving DecidableEq

namespace Run

/-- The states visited, each with the symbol that led there; none led to the first. -/
def path (r : Run) : List (Nat × Option Char) :=
  (r.start, none) :: r.steps.map fun (c, s) => (s, some c)

/-- The state in which steps from a start end. -/
def lastOf (start : Nat) (steps : List (Char × Nat)) : Nat :=
  (steps.getLast?.map (·.2)).getD start

/-- The state in which the run stopped. -/
def last (r : Run) : Nat := lastOf r.start r.steps

/-- It is the last state of the path. -/
theorem getLast?_path (r : Run) : r.path.getLast?.map (·.1) = some r.last := by
  simp only [path, last, lastOf, List.getLast?_cons, List.getLast?_map]
  cases r.steps.getLast? <;> rfl

end Run

/-! ## Following an input -/

/-- Whether a character ends the input. -/
def endsInput (c : Char) : Bool := c == '\n' || c == '\r'

namespace TransitionSystem

/-- The steps from a state over the characters of an input, the first of them at `position`, and
    why they end. -/
def follow (m : TransitionSystem) (s position : Nat) : List Char → List (Char × Nat) × Halt
  | [] => ([], .completed)
  | c :: rest =>
    if endsInput c then ([], .completed)
    else if Text.isBlank c then m.follow s (position + 1) rest
    else if m.hasSymbol c then
      match m.next? s c with
      | none => ([], .noTransition position s c)
      | some t =>
        let (steps, halt) := m.follow t (position + 1) rest
        ((c, t) :: steps, halt)
    else ([], .unknownSymbol position c)

end TransitionSystem

namespace Automaton

/-- The verdict on a run that ended in a state. -/
def verdict (d : Automaton) (last : Nat) : Halt → Verdict
  | .completed => .ofBool (d.isAccepting last)
  | _ => .rejected

/-- The run on an input. -/
def run (d : Automaton) (input : String) : Run :=
  let (steps, halt) := d.follow d.start 0 input.toList
  { start := d.start, steps, halt, verdict := d.verdict (Run.lastOf d.start steps) halt }

/-- Whether an input is accepted. -/
def accepts (d : Automaton) (input : String) : Bool := (d.run input).verdict.isAccepted

end Automaton

end Acceptor
