/-
  The command line.

  One executable serves two programs and goes by its name: under the name `interactive` it answers
  the lines of the standard input one by one, under any other name it judges the inputs of a file.
  Everything that is decided is decided in the modules under `Program`; here files are read and
  written, and texts are printed.
-/
import Acceptor.Program.Batch
import Acceptor.Program.Interactive

namespace Acceptor.CommandLine

/-! ## The files of the system -/

/-- The number and the wording of an error of the system. -/
def numbered : IO.Error → Option (UInt32 × String)
  | .alreadyExists _ code text | .otherError code text | .resourceBusy code text
  | .resourceVanished code text | .unsupportedOperation code text | .hardwareFault code text
  | .unsatisfiedConstraints code text | .illegalOperation code text | .protocolError code text
  | .timeExpired code text | .interrupted _ code text | .noFileOrDirectory _ code text
  | .invalidArgument _ code text | .permissionDenied _ code text
  | .resourceExhausted _ code text | .inappropriateType _ code text
  | .noSuchThing _ code text => some (code, text)
  | .unexpectedEof | .userError _ => none

/-- The fault behind an error of the system. -/
def faultOf (e : IO.Error) : SystemFault :=
  match numbered e with
  | some (2, _) => .notFound
  | some (6, _) => .noDevice
  | some (13, _) => .permissionDenied
  | some (20, _) => .notDirectory
  | some (21, _) => .isDirectory
  | some (28, _) => .noSpace
  | some (36, _) => .nameTooLong
  | some (code, text) => .other (text ++ " (os error " ++ toString code ++ ")")
  | none => .other (toString e)

/-- An action with its error as a value. -/
def attempt {α : Type} (action : IO α) : IO (Except SystemFault α) := do
  match ← action.toBaseIO with
  | .ok a => return .ok a
  | .error e => return .error (faultOf e)

/-- The files of the system, by their paths. -/
def host : Host IO where
  read path := attempt (IO.FS.withFile path .read fun file => file.readBinToEnd)
  write path text := attempt (IO.FS.withFile path .write fun file => do
    file.putStr text
    file.flush)

/-! ## The standard streams -/

/-- The standard output of the system. -/
def standardOutput : Program.Outlet IO where
  put text := attempt (IO.print text)
  flush := attempt do (← IO.getStdout).flush

/-- Prints a text at once, if it is not empty. -/
def say (text : String) : IO Unit := do
  if text ≠ "" then
    IO.print text
    (← IO.getStdout).flush

/-- The next byte of a stream, if there is one. -/
def nextByte (input : IO.FS.Stream) : IO (Except SystemFault (Option UInt8)) :=
  attempt do return (← input.read 1).data.toList.head?

/-! ## The two programs -/

/-- Hears the standard input to its end, or to a fault, and says every answer when it comes. -/
def talk (d : Automaton) (input : IO.FS.Stream) : IO Program.Outcome := do
  let mut said := ""
  let mut hearing : Program.Hearing := .onLine []
  while hearing.isOnLine do
    match ← nextByte input with
    | .error fault => hearing := .broken fault
    | .ok none =>
      let (last, ended) := hearing.close d
      say last
      return ended.outcome (said ++ last)
    | .ok (some byte) =>
      let (text, next) := hearing.hear d byte
      say text
      said := said ++ text
      hearing := next
  return hearing.outcome said

/-- Tells the failure of a program, if it failed. -/
def finish (o : Program.Outcome) : IO UInt32 := do
  IO.eprint o.errorOutput
  return o.exitCode

/-- The batch program. -/
def batch (arguments : List String) : IO UInt32 := do
  let drawing ← IO.getEnv Settings.drawingVariable
  finish (← Program.batchWith Dot.respacer standardOutput host arguments drawing)

/-- The interactive program. -/
def interactive (arguments : List String) : IO UInt32 := do
  let input ← IO.getStdin
  finish (← Program.interactiveWith host arguments fun d => talk d input)

end Acceptor.CommandLine

/-- Runs the program that the executable is named for. -/
def main (arguments : List String) : IO UInt32 := do
  if (← IO.appPath).fileStem == some "interactive" then Acceptor.CommandLine.interactive arguments
  else Acceptor.CommandLine.batch arguments
