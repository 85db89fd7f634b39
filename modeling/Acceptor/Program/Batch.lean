/-
  The batch program: all or nothing.

  1. **The stages** — read the definition, read the inputs, write the drawing, in this order; then
     every input is judged.  The first stage that fails ends the program.

  2. **The rows** — when all stages are passed, the rows are printed one by one.  Only then can a
     fault come after something was printed: the standard output may refuse a row.

  3. **Why it is all or nothing** — nothing but the drawing is written, and it is the last thing
     that can fail in front of the rows; so a program that fails in a stage has written nothing and
     prints nothing.  The inputs are those that were there before the drawing, even when the
     drawing replaces their file.
-/
import Acceptor.Drawing.Printer
import Acceptor.Files.Load
import Acceptor.Program.Outcome
import Acceptor.Report
import Acceptor.Settings

namespace Acceptor.Program

variable {m : Type → Type} [Monad m]

/-! ## The stages -/

/-- Writes the drawing of an automaton as it is printed again, if one is wanted. -/
def saveDrawing (printer : Dot.Printer) (host : Host m) (d : Automaton) :
    Option String → m (Except Failure Unit)
  | none => return .ok ()
  | some path =>
    match d.render printer with
    | .error failure => return .error failure
    | .ok text => do
      return (← host.write path text).mapError (.unwritable path)

/-- The stages of the program; the result is the rows. -/
def stages (printer : Dot.Printer) (host : Host m) (settings : Settings) :
    ExceptT Failure m (List Row) := do
  let d ← ExceptT.mk (Logged.value <$> host.load settings.definition)
  let inputs ← ExceptT.mk (host.readText settings.input)
  ExceptT.mk (saveDrawing printer host d settings.drawing)
  return (d.evaluate inputs).value

/-! ## The rows -/

/-- Prints rows behind what was printed before, a line for each.  The first line that is not taken
    is the last. -/
def printRows (out : Outlet m) (printed : String) : List Row → m Outcome
  | [] => do
    match ← out.flush with
    | .ok () => return { output := printed }
    | .error fault => return { output := printed, failure := some (.interrupted fault) }
  | row :: rows => do
    let line := row.line ++ "\n"
    match ← out.put line with
    | .ok () => printRows out (printed ++ line) rows
    | .error fault => return { output := printed, failure := some (.interrupted fault) }

/-! ## The program -/

/-- The program, with its arguments and the file for the drawing that the environment names. -/
def batchWith (printer : Dot.Printer) (out : Outlet m) (host : Host m) (arguments : List String)
    (drawing : Option String) : m Outcome := do
  let settings := (Settings.ofArguments arguments).value.withEnvironment drawing
  match ← (stages printer host settings).run with
  | .ok rows => printRows out "" rows
  | .error failure => return { output := "", failure := some failure }

/-- The program with the printer that respaces drawings and a standard output that takes
    everything. -/
def batch (host : Host m) (arguments : List String) (drawing : Option String) : m Outcome :=
  batchWith Dot.respacer .unfailing host arguments drawing

end Acceptor.Program
