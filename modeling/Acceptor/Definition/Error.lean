/-
  The failure of a definition: its cause, and the line that is to blame.

  A definition can fail at a line, or at its end when a part is missing; only a failure at a line
  has a place.
-/
import Acceptor.Cause
import Acceptor.Definition.Line

namespace Acceptor.Definition

/-- Why a text is not a definition. -/
structure Error where
  cause : Cause
  /-- The line that failed, if one did. -/
  place : Option Line := none
deriving DecidableEq

/-- The wording of a failure: the line in front, if there is one. -/
def Error.message (e : Error) : String :=
  match e.place with
  | none => e.cause.message
  | some line =>
    "line " ++ toString line.number ++ " `" ++ line.text ++ "`: " ++ e.cause.message

end Acceptor.Definition
