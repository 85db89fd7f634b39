/-
  A run in words.

  1. **The trace** — the names of the states visited, with the symbols between them as arrows:
     `A -1-> B -0-> C`.

  2. **The halt** — one sentence on why the run stopped.
-/
import Acceptor.Run

namespace Acceptor.Run

/-! ## The trace -/

/-- One step: the symbol in an arrow, and the name of the state it led to. -/
def describeStep (m : TransitionSystem) : Char × Nat → String
  | (c, s) => "-" ++ String.singleton c ++ "-> " ++ m.name s

/-- The states visited and the symbols that led from one to the next. -/
def describe (m : TransitionSystem) (r : Run) : String :=
  " ".intercalate (m.name r.start :: r.steps.map (describeStep m))

/-! ## The halt -/

/-- Why the run stopped. -/
def describeHalt (m : TransitionSystem) (r : Run) : String :=
  match r.halt, r.verdict with
  | .completed, .accepted => "ended in accepting state " ++ m.name r.last
  | .completed, .rejected => "ended in non-accepting state " ++ m.name r.last
  | .unknownSymbol position c, _ =>
    "symbol '" ++ String.singleton c ++ "' at " ++ toString position ++ " is not in the alphabet"
  | .noTransition position s c, _ =>
    "no transition from " ++ m.name s ++ " on '" ++ String.singleton c ++ "' at " ++
      toString position

end Acceptor.Run
