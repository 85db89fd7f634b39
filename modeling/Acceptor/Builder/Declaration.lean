/-
  Declarations and their answers as data, so that a history of a builder is a list.

  1. **One declaration** — `declare` gives the answer and the builder after it, or the cause of
     the failure; `attempt` goes on with the old builder after a failure.

  2. **Many** — `declareAll` stops at the first failure, `replay` goes through all of them.
-/
import Acceptor.Builder

namespace Acceptor

/-- Something to be said to a builder. -/
inductive Declaration
  | state (name : String)
  | symbol (token : String)
  | start (name : String)
  | accept (name : String)
  | transition (source : String) (symbol : Char) (target : String)
deriving DecidableEq

/-- What a builder says to a declaration that succeeds. -/
inductive Answer
  /-- The state that was named. -/
  | state (s : Nat)
  /-- The symbol that was written. -/
  | symbol (c : Char)
  /-- What stood in the place of the new start or target. -/
  | replaced (old : Option Nat)
deriving DecidableEq

namespace Builder

/-! ## One declaration -/

/-- The answer to a declaration, and the builder after it. -/
def declare (b : Builder) : Declaration → Except Cause (Answer × Builder)
  | .state name => let (s, b') := b.addState name; .ok (.state s, b')
  | .symbol token => (b.addSymbol token).map fun (c, b') => (.symbol c, b')
  | .start name => (b.setStart name).map fun (old, b') => (.replaced old, b')
  | .accept name => (b.addAccept name).map fun (s, b') => (.state s, b')
  | .transition source symbol target =>
    (b.addTransition source symbol target).map fun (old, b') => (.replaced old, b')

/-- The answer to a declaration or the cause of its failure, and the builder after it: the old one
    after a failure. -/
def attempt (b : Builder) (x : Declaration) : Except Cause Answer × Builder :=
  match b.declare x with
  | .ok (answer, b') => (.ok answer, b')
  | .error cause => (.error cause, b)

/-! ## Many declarations -/

/-- The answers to a list of declarations, up to the first failure. -/
def declareAll (b : Builder) : List Declaration → Except Cause (List Answer × Builder)
  | [] => .ok ([], b)
  | x :: xs => do
    let (answer, b) ← b.declare x
    let (answers, b) ← b.declareAll xs
    return (answer :: answers, b)

/-- The outcomes of a list of declarations, failures among them, and the builder at the end. -/
def replay (b : Builder) : List Declaration → List (Except Cause Answer) × Builder
  | [] => ([], b)
  | x :: xs =>
    let (outcome, b) := b.attempt x
    let (outcomes, b) := b.replay xs
    (outcome :: outcomes, b)

end Builder

end Acceptor
