/-
  Texts and definitions from files.
-/
import Acceptor.Definition.Reader
import Acceptor.Failure

namespace Acceptor

variable {m : Type → Type} [Monad m]

namespace Host

/-- The text of a file.  A file whose bytes are no text cannot be read. -/
def readText (host : Host m) (path : String) : m (Except Failure String) := do
  match ← host.read path with
  | .error fault => return .error (.unreadable path fault)
  | .ok bytes =>
    match String.fromUTF8? bytes with
    | none => return .error (.unreadable path .invalidText)
    | some text => return .ok text

/-- The automaton that a file defines. -/
def load (host : Host m) (path : String) : m (Logged (Except Failure Automaton)) := do
  match ← host.readText path with
  | .error failure => return { value := .error failure }
  | .ok text =>
    let read := Definition.parse text
    return { log := .loading path :: read.log, value := read.value.mapError (.invalid path) }

end Host

end Acceptor
