/-
  What can go wrong when the library works on files.

  A failure has a message, and it may have a source: the wording of what caused it.  The chain is
  both in one.
-/
import Acceptor.Definition.Error
import Acceptor.Files.Host

namespace Acceptor

/-- Why a program, or a step of one, failed. -/
inductive Failure
  /-- A file cannot be read as text. -/
  | unreadable (path : String) (fault : SystemFault)
  /-- A file holds no definition. -/
  | invalid (path : String) (error : Definition.Error)
  /-- A drawing was not understood. -/
  | undrawable (reason : String)
  /-- A file cannot be written. -/
  | unwritable (path : String) (fault : SystemFault)
  /-- The standard input ended in a fault, or the standard output did not take what was printed. -/
  | interrupted (fault : SystemFault)
deriving DecidableEq

namespace Failure

/-- The wording of a failure, without its source. -/
def message : Failure → String
  | unreadable path _ => "cannot read " ++ path
  | invalid path _ => "invalid automaton definition in " ++ path
  | undrawable reason => "cannot render automaton as dot: " ++ reason
  | unwritable path _ => "cannot write " ++ path
  | interrupted fault => fault.text

/-- The wording of what caused a failure. -/
def source : Failure → Option String
  | unreadable _ fault | unwritable _ fault => some fault.text
  | invalid _ error => some error.message
  | undrawable _ | interrupted _ => none

/-- The wording of a failure with its source. -/
def chain (e : Failure) : String :=
  match e.source with
  | none => e.message
  | some source => e.message ++ ": " ++ source

end Failure

end Acceptor
