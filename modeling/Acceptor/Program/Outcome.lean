/-
  What a program prints, and what it leaves behind when it ends.

  1. **The standard output** — `Outlet` takes texts and may refuse each of them, so a program that
     prints can fail while it prints.

  2. **The end** — `Outcome`: what was printed, and why the program failed, if it did.
-/
import Acceptor.Failure

namespace Acceptor.Program

/-! ## The standard output -/

/-- The standard output of a program, with what is held back in front of it. -/
structure Outlet (m : Type → Type) where
  /-- Takes a text. -/
  put : String → m (Except SystemFault Unit)
  /-- Passes on what was taken and held back. -/
  flush : m (Except SystemFault Unit)

/-- The standard output that takes everything. -/
def Outlet.unfailing {m : Type → Type} [Monad m] : Outlet m where
  put _ := return .ok ()
  flush := return .ok ()

/-! ## The end -/

/-- The texts that the standard output of a program took, and why the program failed, if it did. -/
structure Outcome where
  output : String
  failure : Option Failure := none
deriving DecidableEq

namespace Outcome

/-- The exit code: one after a failure. -/
def exitCode (o : Outcome) : UInt32 := if o.failure.isSome then 1 else 0

/-- The standard error: one line that tells the failure. -/
def errorOutput (o : Outcome) : String :=
  match o.failure with
  | none => ""
  | some failure => "error: " ++ failure.chain ++ "\n"

end Outcome

end Acceptor.Program
