/-
  The verdict on an input: accepted or rejected.
-/

namespace Acceptor

/-- What an automaton says of an input. -/
inductive Verdict
  | accepted
  | rejected
deriving DecidableEq

namespace Verdict

/-- Accepted when the condition holds. -/
def ofBool : Bool → Verdict
  | true => accepted
  | false => rejected

/-- Whether the input is accepted. -/
def isAccepted : Verdict → Bool
  | accepted => true
  | rejected => false

/-- The verdict as a report writes it. -/
def text : Verdict → String
  | accepted => "ACCEPTED"
  | rejected => "REJECTED"

end Verdict

end Acceptor
