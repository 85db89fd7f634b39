/-
  The interactive program: an answer to each line, as it comes.

  The standard input is heard byte by byte.  A byte 0x0A ends a line, and each line is read as text
  on its own.  Blank lines and comments have no answer.  A line that is no text ends the program;
  the answers before it were given.

  1. **One line** — `answer` writes the row, the trace and the halt; `answerLine` reads the bytes.

  2. **Byte by byte** — `Hearing` is how far a conversation is.  `hear` takes one byte more and
     answers at the end of a line, `close` answers when the standard input is at its end.

  3. **The program** — `converse` hears all of the standard input; `interactive` loads the
     definition first.
-/
import Acceptor.Files.Load
import Acceptor.Program.Outcome
import Acceptor.Run.Description
import Acceptor.Settings
import Acceptor.Text.Line

namespace Acceptor.Program

/-! ## One line -/

/-- The answer to an input, in three lines. -/
def answer (d : Automaton) (text : String) : String :=
  let r := d.run text
  text ++ ": " ++ r.verdict.text ++ "\n  " ++ r.describe d.toTransitionSystem ++ "\n  " ++
    r.describeHalt d.toTransitionSystem ++ "\n"

/-- The answer to the bytes of a line: none to a blank line or a comment. -/
def answerLine (d : Automaton) (line : List UInt8) : Except SystemFault String :=
  match String.fromUTF8? line.toByteArray with
  | none => .error .invalidText
  | some text =>
    let trimmed := Text.trim text.toList
    .ok (if Text.isRemark trimmed then "" else answer d (String.ofList trimmed))

/-! ## Byte by byte -/

/-- The byte that ends a line. -/
def lineEnd : UInt8 := 0x0A

/-- How far a conversation is. -/
inductive Hearing
  /-- On a line: the bytes of it that were heard, the last one first. -/
  | onLine (heard : List UInt8)
  /-- It ended in a fault. -/
  | broken (fault : SystemFault)
deriving DecidableEq

namespace Hearing

/-- The answer to a line that was heard; another line can follow. -/
def endLine (d : Automaton) (heard : List UInt8) : String × Hearing :=
  match answerLine d heard.reverse with
  | .ok text => (text, onLine [])
  | .error fault => ("", broken fault)

/-- What is said at the next byte. -/
def hear (d : Automaton) : Hearing → UInt8 → String × Hearing
  | onLine heard, byte =>
    if byte = lineEnd then endLine d heard else ("", onLine (byte :: heard))
  | broken fault, _ => ("", broken fault)

/-- What is said at the end of the standard input: the last line needs no byte that ends it. -/
def close (d : Automaton) : Hearing → String × Hearing
  | onLine heard => endLine d heard
  | broken fault => ("", broken fault)

/-- Whether more can be heard. -/
def isOnLine : Hearing → Bool
  | onLine _ => true
  | broken _ => false

/-- What a conversation leaves behind when it goes no further. -/
def outcome (said : String) : Hearing → Outcome
  | onLine _ => { output := said }
  | broken fault => { output := said, failure := some (.interrupted fault) }

end Hearing

/-! ## The program -/

/-- What was said before, with what is said at the next byte. -/
def listen (d : Automaton) (before : String × Hearing) (byte : UInt8) : String × Hearing :=
  let (text, hearing) := before.2.hear d byte
  (before.1 ++ text, hearing)

/-- What is left behind when the standard input ends here. -/
def leave (d : Automaton) (before : String × Hearing) : Outcome :=
  let (last, ended) := before.2.close d
  ended.outcome (before.1 ++ last)

/-- The answers to all of the standard input. -/
def converse (d : Automaton) (input : ByteArray) : Outcome :=
  leave d (input.data.toList.foldl (listen d) ("", .onLine []))

variable {m : Type → Type} [Monad m]

/-- The file with the definition: the first argument, if there is one. -/
def definitionOf (arguments : List String) : String :=
  arguments.head?.getD ({} : Settings).definition

/-- The program, with its arguments and the conversation that follows when the definition was
    read. -/
def interactiveWith (host : Host m) (arguments : List String)
    (conversation : Automaton → m Outcome) : m Outcome := do
  match (← host.load (definitionOf arguments)).value with
  | .error failure => return { output := "", failure := some failure }
  | .ok d => conversation d

/-- The program with the action that takes all of its standard input. -/
def interactive (host : Host m) (arguments : List String) (input : m ByteArray) : m Outcome :=
  interactiveWith host arguments fun d => return converse d (← input)

end Acceptor.Program
