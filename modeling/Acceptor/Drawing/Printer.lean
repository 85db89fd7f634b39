/-
  Drawings that are printed again.

  A drawing is not saved as it was written.  A library for the DOT language reads it, and what is
  saved is what the library prints.

  1. **Printers** — `Printer` is such a library: it reads a text as a graph or refuses it, and
     prints the graphs that it has read.

  2. **Rendering** — `Automaton.render` has a drawing read and printed again.

  3. **A printer** — `respacer` is the one that the programs use.  It passes over the text once and
     changes the spacing on the way: a second blank in front of the brace, none between a node and
     its attribute, and no newline at the end.
-/
import Acceptor.Drawing
import Acceptor.Failure

namespace Acceptor

namespace Dot

/-! ## Printers -/

/-- A library for the language: it reads graphs, and prints what it has read. -/
structure Printer where
  Graph : Type
  parse : String → Except String Graph
  print : Graph → String

end Dot

/-! ## Rendering -/

/-- The text of a drawing, printed again. -/
def Automaton.render (d : Automaton) (p : Dot.Printer) : Except Failure String := do
  let g ← (p.parse (d.draw .spaced)).mapError .undrawable
  return p.print g

/-! ## A printer -/

namespace Dot

/-- Where the printer is in a page. -/
inductive Spot
  | opening
  /-- In front of the first identifier of a line, in it or behind it, behind the blank that follows
      it, and in the rest of the line. -/
  | front
  | first
  | gap
  | rest
  /-- In a quoted text, and behind a backslash in it; `behind` is where it goes on. -/
  | quote (behind : Spot)
  | escape (behind : Spot)
  | closed

namespace Spot

/-- What a character does. -/
def step : Spot → Char → Option (List Char × Spot)
  | opening, c => if c = '\x7b' then some ([' ', c], rest) else some ([c], opening)
  | front, c =>
    if c = ' ' then some ([c], front)
    else if c = '\x7d' then some ([c], closed)
    else if c = '"' then some ([c], quote first)
    else some ([c], first)
  | first, c => if c = ' ' then some ([], gap) else some ([c], first)
  | gap, c => if c = '[' then some ([c], rest) else some ([' ', c], rest)
  | rest, c =>
    if c = '\n' then some ([c], front)
    else if c = '"' then some ([c], quote rest)
    else some ([c], rest)
  | quote behind, c =>
    if c = '"' then some ([c], behind)
    else if c = '\\' then some ([c], escape behind)
    else some ([c], quote behind)
  | escape behind, c => some ([c], quote behind)
  | closed, c => if c = '\n' then some ([], closed) else none

/-- What is printed on the way through a text, behind what was printed before, the last character
    first; and where the way ends. -/
def runOnto (s : Spot) (printed : List Char) : List Char → Option (List Char × Spot)
  | [] => some (printed, s)
  | c :: w =>
    match s.step c with
    | none => none
    | some (v, s') => s'.runOnto (v.reverse ++ printed) w

end Spot

/-- The printer that respaces a text while it reads it.  It must have come to the end of the
    graph. -/
def respacer : Printer where
  Graph := String
  parse text :=
    match Spot.opening.runOnto [] text.toList with
    | some (printed, .closed) => .ok (String.ofList printed.reverse)
    | _ => .error "expected a graph"
  print := id

end Dot

end Acceptor
