/-
  Reading a definition.

  A definition is a header part and a transition part.  In the header part each significant line is
  a header; the line `transitions:` ends it, and every significant line behind it is a transition.
  A line stands for declarations, and they are made one after the other, so that the first line
  that fails decides the outcome, whatever follows.

  1. **One line** — `declarations` reads the line, `Reader.step` makes its declarations.

  2. **All lines** — `Reader.readLines` goes on until a line fails.

  3. **The definition** — `parse` builds the automaton from what was declared and takes note of
     states that cannot be reached and of an automaton that accepts nothing.
-/
import Acceptor.Automaton.Reachability
import Acceptor.Definition.Error
import Acceptor.Definition.Header
import Acceptor.Definition.Rule
import Acceptor.Log

namespace Acceptor.Definition

/-! ## One line -/

/-- The two parts of a definition. -/
inductive Part
  | header
  | transitions
deriving DecidableEq

/-- The declarations that a line of a part stands for, and the part to which the next line
    belongs. -/
def declarations : Part → List Char → Except Cause (Part × List Declaration)
  | .header, line =>
    match Header.ofLine? line with
    | none => .error .unrecognizedLine
    | some h => .ok (if h.keyword = .transitions then .transitions else .header, h.declarations)
  | .transitions, line => (Rule.ofLine line).map fun r => (.transitions, [r.declaration])

/-- What has been read of a definition. -/
structure Reader where
  part : Part := .header
  builder : Builder := {}
deriving DecidableEq

/-- What is to be noted of a declaration on a line that was answered so: that it replaced
    something. -/
def noteOf (m : TransitionSystem) (number : Nat) : Declaration × Answer → Option Record
  | (.start new, .replaced (some old)) => some (.startRedefined new (m.name old))
  | (.transition source symbol target, .replaced (some old)) =>
    some (.rebound number source symbol target (m.name old))
  | _ => none

namespace Reader

/-- Reads one significant line. -/
def step (r : Reader) (line : Line) : Except Cause (Logged Reader) := do
  let (part, xs) ← declarations r.part line.text.toList
  let (answers, builder) ← r.builder.declareAll xs
  let log := (xs.zip answers).filterMap (noteOf builder.toTransitionSystem line.number)
  return { log, value := { part, builder } }

/-! ## All lines -/

/-- Reads significant lines up to the first that fails; what was noted before stays noted. -/
def readLines (r : Reader) : List Line → Logged (Except Error Reader)
  | [] => { value := .ok r }
  | line :: rest =>
    match r.step line with
    | .error cause => { value := .error { cause, place := some line } }
    | .ok read =>
      let later := read.value.readLines rest
      { log := read.log ++ later.log, value := later.value }

end Reader

/-! ## The definition -/

/-- What is to be noted of an automaton that was built. -/
def summary (d : Automaton) : List Record :=
  let unreachable := d.unreachable
  [.built d.stateCount d.alphabet d.transitions.length] ++
    (if unreachable = [] then []
      else [.unreachable (d.name d.start) (unreachable.map d.name)]) ++
    (if d.acceptingStates = [] then [.noAccepting] else [])

/-- The automaton that a text defines. -/
def parse (text : String) : Logged (Except Error Automaton) :=
  let read := Reader.readLines {} (significantLines text)
  match read.value with
  | .error e => { log := read.log, value := .error e }
  | .ok r =>
    match r.builder.build with
    | .error cause => { log := read.log, value := .error { cause } }
    | .ok d => { log := read.log ++ summary d, value := .ok d }

end Acceptor.Definition
