/-
  What the batch program is to work on.

  Two arguments name the files; any other number of them leaves the files as they are by default,
  and is noted unless it is zero.  The environment may name a file for the drawing.
-/
import Acceptor.Log

namespace Acceptor

/-- The files of a batch. -/
structure Settings where
  /-- The file with the definition. -/
  definition : String := "Conf.txt"
  /-- The file with the inputs. -/
  input : String := "Cadenas.txt"
  /-- The file to which the drawing goes, if one is wanted. -/
  drawing : Option String := none
deriving DecidableEq

namespace Settings

/-- The environment variable that names the file for the drawing. -/
def drawingVariable : String := "DFA_DOT"

/-- The settings that the arguments of a call select. -/
def ofArguments : List String → Logged Settings
  | [definition, input] => { value := { definition, input } }
  | [] => { value := {} }
  | arguments =>
    let default : Settings := {}
    { log := [.argumentCount arguments.length default.definition default.input], value := default }

/-- The settings with another file for the drawing. -/
def withDrawing (s : Settings) (drawing : Option String) : Settings := { s with drawing }

/-- The settings with the file for the drawing that the environment names; an empty name is
    none. -/
def withEnvironment (s : Settings) (value : Option String) : Settings :=
  s.withDrawing (value.filter (· ≠ ""))

end Settings

end Acceptor
