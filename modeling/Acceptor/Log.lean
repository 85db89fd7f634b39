/-
  The account that the library gives of its work.

  A record says one thing that was noticed.  Functions that notice something answer with a
  `Logged` value: the records, in the order in which they arose, beside the result.

  1. **Records** — what can be noticed, with the level and the wording of each.

  2. **Logged values** — a result with the records that led to it.
-/
import Acceptor.Text.Literal
import Acceptor.Verdict

namespace Acceptor

/-! ## Records -/

/-- How much attention a record asks for. -/
inductive Level
  | debug
  | info
  | warn
deriving DecidableEq

/-- The name of a level. -/
def Level.text : Level → String
  | debug => "DEBUG"
  | info => "INFO"
  | warn => "WARN"

/-- Something that was noticed. -/
inductive Record
  /-- A definition names a start again. -/
  | startRedefined (new old : String)
  /-- A definition binds a state and a symbol again. -/
  | rebound (line : Nat) (source : String) (symbol : Char) (target old : String)
  /-- A definition was complete. -/
  | built (stateCount : Nat) (alphabet : List Char) (transitionCount : Nat)
  /-- Some states cannot be reached from the start. -/
  | unreachable (start : String) (names : List String)
  /-- No state is accepting. -/
  | noAccepting
  /-- A definition was read from a file. -/
  | loading (path : String)
  /-- An input was judged. -/
  | judged (input : String) (verdict : Verdict)
  /-- A program was called with a number of arguments that it does not know. -/
  | argumentCount (count : Nat) (definition input : String)
deriving DecidableEq

namespace Record

/-- The level of a record. -/
def level : Record → Level
  | startRedefined .. | argumentCount .. => .warn
  | unreachable .. | noAccepting => .info
  | rebound .. | built .. | loading .. | judged .. => .debug

/-- The wording of a record. -/
def message : Record → String
  | startRedefined new old => "start state redefined: '" ++ new ++ "' replaces '" ++ old ++ "'"
  | rebound line source symbol target old =>
    "line " ++ toString line ++ ": " ++ source ++ "," ++ String.singleton symbol ++
      " now goes to " ++ target ++ " instead of " ++ old
  | built stateCount alphabet transitionCount =>
    "built automaton: " ++ toString stateCount ++ " states, alphabet \x7b" ++
      ",".intercalate (alphabet.map String.singleton) ++ "\x7d, " ++
      toString transitionCount ++ " transitions"
  | unreachable start names =>
    "states unreachable from '" ++ start ++ "': " ++ ", ".intercalate names
  | noAccepting => "no accepting states: every input will be rejected"
  | loading path => "loading automaton from " ++ path
  | judged input verdict => Text.literal input ++ " -> " ++ verdict.text
  | argumentCount count definition input =>
    "expected 0 or 2 arguments, got " ++ toString count ++ "; using " ++ definition ++ " and " ++
      input

/-- A record on one line: its level and its wording. -/
def text (r : Record) : String := r.level.text ++ " " ++ r.message

end Record

/-! ## Logged values -/

/-- A result with the records that led to it. -/
structure Logged (α : Type) where
  log : List Record := []
  value : α

end Acceptor
