/-
  Drawing an automaton as a graph in the DOT language.

  A drawing is a list of statements.  Each state is a node, with a double circle if it is
  accepting; each pair of states with a transition between them has one edge, labelled with all
  the symbols that lead from the one to the other; a point marks the start.

  1. **Statements** — `Statement`, and the names in it: bare words and quoted names.

  2. **The drawing** — `Automaton.edges` groups the transitions by source and target, in ascending
     order; `Automaton.drawing` puts the statements together.

  3. **Layouts** — the same statements are written in one of two layouts, which differ in their
     spacing only.
-/
import Acceptor.Automaton

namespace Acceptor

namespace Drawing

/-! ## Statements -/

/-- How a node looks. -/
inductive Shape
  | circle
  | doubleCircle
  | point
deriving DecidableEq

/-- The word for a shape. -/
def Shape.text : Shape → String
  | circle => "circle"
  | doubleCircle => "doublecircle"
  | point => "point"

/-- The name of a node in a statement: a word as it stands, or any text in quotes. -/
inductive NodeName
  | bare (word : String)
  | quoted (name : String)
deriving DecidableEq

/-- A text in double quotes, with a backslash in front of each double quote and backslash. -/
def quote (s : String) : String :=
  String.ofList (['"'] ++ s.toList.flatMap quoteChar ++ ['"'])
where
  /-- One character as it stands in quotes. -/
  quoteChar (c : Char) : List Char := if c = '\\' || c = '"' then ['\\', c] else [c]

/-- A node name as it is written. -/
def NodeName.text : NodeName → String
  | bare word => word
  | quoted name => quote name

/-- One line of a drawing.  An edge without symbols has no label. -/
inductive Statement
  | node (name : NodeName) (shape : Shape)
  | edge (source target : NodeName) (symbols : List Char)
deriving DecidableEq

end Drawing

open Drawing

/-! ## The drawing of an automaton -/

/-- All transitions from one state to another. -/
structure Edge where
  source : Nat
  target : Nat
  symbols : List Char
deriving DecidableEq

namespace TransitionSystem

/-- The edges out of a state, by ascending target; the symbols are in the order of the alphabet. -/
def edgesFrom (m : TransitionSystem) (source : Nat) : List Edge :=
  let row := m.row source
  m.states.filterMap fun target =>
    match row.filterMap fun (c, t) => if t = target then some c else none with
    | [] => none
    | symbols => some { source, target, symbols }

/-- Every edge, by ascending source and target. -/
def edges (m : TransitionSystem) : List Edge := m.states.flatMap m.edgesFrom

/-- The node of a state. -/
def nodeOf (m : TransitionSystem) (s : Nat) : Statement :=
  .node (.quoted (m.name s)) (if m.isAccepting s then .doubleCircle else .circle)

/-- The statement of an edge. -/
def edgeOf (m : TransitionSystem) (e : Edge) : Statement :=
  .edge (.quoted (m.name e.source)) (.quoted (m.name e.target)) e.symbols

end TransitionSystem

/-- The node that marks the start. -/
def Drawing.startMark : NodeName := .bare "__start"

/-- The statements that draw an automaton: states, edges, and the mark of the start. -/
def Automaton.drawing (d : Automaton) : List Statement :=
  d.states.map d.nodeOf ++ d.edges.map d.edgeOf ++
    [.node startMark .point, .edge startMark (.quoted (d.name d.start)) []]

/-! ## Layouts -/

namespace Drawing

/-- The spacing of a drawing. -/
structure Layout where
  /-- The line that opens the graph. -/
  opening : String
  /-- What stands between a node and its shape. -/
  gap : String
  /-- The line that closes the graph. -/
  closing : String

/-- A blank in front of every attribute, and a newline at the end. -/
def Layout.spaced : Layout := ⟨"digraph \x7b\n", " ", "\x7d\n"⟩

/-- No blank between a node and its shape, and no newline at the end. -/
def Layout.compact : Layout := ⟨"digraph  \x7b\n", "", "\x7d"⟩

/-- A statement as it is written, on a line of its own. -/
def Statement.line (layout : Layout) : Statement → String
  | node name shape => "  " ++ name.text ++ layout.gap ++ "[shape=" ++ shape.text ++ "]\n"
  | edge source target [] => "  " ++ source.text ++ " -> " ++ target.text ++ "\n"
  | edge source target symbols =>
    "  " ++ source.text ++ " -> " ++ target.text ++
      " [label=" ++ quote (",".intercalate (symbols.map String.singleton)) ++ "]\n"

/-- Statements as one text. -/
def write (layout : Layout) (statements : List Statement) : String :=
  layout.opening ++ String.join (statements.map (Statement.line layout)) ++ layout.closing

end Drawing

/-- The text that draws an automaton. -/
def Automaton.draw (d : Automaton) (layout : Layout) : String := write layout d.drawing

end Acceptor
