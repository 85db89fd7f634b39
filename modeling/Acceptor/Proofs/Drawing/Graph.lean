/-
  The graph that a drawing draws.

  The statements of a drawing are read as a graph: a name is the node with its characters, in quotes
  or not, and what is said of a node later counts more.  The states and the mark of the start share
  the names of nodes, so a state may bear the name of the mark, and then the two are one node.

  1. **Graphs** — `Graph.of`: the nodes that statements mention, the last value of each attribute,
     and the edges.

  2. **What is shown** — `Graph.Shows g d marker`: one node for each state, and one more that points
     to the start.

  3. **The graph of a drawing** — its nodes are the states and the mark (`nodes_graphOf`); each
     state has its shape, unless it bears the name of the mark.

  Main result: `draw_shows_iff`, a drawing shows its automaton exactly when no state bears the name
  of the mark.
-/
import Acceptor.Proofs.Builder.History
import Acceptor.Proofs.Drawing.Dot
import Acceptor.Proofs.Drawing.Faithful

namespace Acceptor

open Drawing

namespace Dot

/-! ## Graphs -/

/-- The characters of a name, which are the node that it names. -/
def characters : NodeName → String
  | .bare word => word
  | .quoted name => name

/-- An edge of a graph, with its label if it has one. -/
structure Arrow where
  source : String
  target : String
  label : Option String
deriving DecidableEq

/-- A directed graph whose nodes have attributes. -/
structure Graph where
  /-- The nodes in the order in which they are first mentioned. -/
  nodes : List String
  /-- Nodes with keys and values, in the order in which they are given. -/
  given : List (String × String × String)
  arrows : List Arrow
deriving DecidableEq

/-- The value of an attribute of a node: the one that is given last. -/
def Graph.attribute? (g : Graph) (node key : String) : Option String :=
  (g.given.filterMap fun (n, k, value) => if n = node ∧ k = key then some value else none).getLast?

/-- The nodes that a statement mentions. -/
def Statement.mentions (x : Statement) : List String :=
  match x.subject with
  | .node name => [characters name]
  | .edge source target => [characters source, characters target]

/-- The attributes that a statement gives to a node. -/
def Statement.given (x : Statement) : List (String × String × String) :=
  match x.subject with
  | .node name => x.attributes.map fun (k, value) => (characters name, characters k, characters value)
  | .edge _ _ => []

/-- The edge that a statement draws. -/
def Statement.arrow? (x : Statement) : Option Arrow :=
  match x.subject with
  | .node _ => none
  | .edge source target =>
    some { source := characters source
           target := characters target
           label := (x.attributes.filterMap fun (k, value) =>
             if characters k = "label" then some (characters value) else none).getLast? }

/-- The graph that statements draw. -/
def Graph.of (xs : List Statement) : Graph where
  nodes := (xs.flatMap Statement.mentions).eraseDups
  given := xs.flatMap Statement.given
  arrows := xs.filterMap Statement.arrow?

/-- The graph that a text draws. -/
def graph? (text : String) : Option Graph := (read text).map Graph.of

/-! ## What is shown -/

/-- A graph shows an automaton, and a node of it marks the start. -/
structure Graph.Shows (g : Graph) (d : Automaton) (marker : String) : Prop where
  /-- The mark is no state. -/
  separate : marker ∉ d.names
  /-- There is one node for each state, and one for the mark. -/
  nodes : g.nodes.Perm (marker :: d.names)
  /-- The shape of a state shows whether it is accepting. -/
  shape : ∀ s name, d.name? s = some name →
    g.attribute? name "shape" = some (if d.isAccepting s then "doublecircle" else "circle")
  /-- The mark is a point. -/
  point : g.attribute? marker "shape" = some "point"
  /-- One edge has no label: it goes from the mark to the start. -/
  start : g.arrows.filter (fun a => a.label.isNone) = [⟨marker, d.name d.start, none⟩]

end Dot

/-! ## The graph of a drawing -/

namespace Automaton

open Dot (Graph Arrow)

variable {d : Automaton}

/-- The mark of the start can be read. -/
theorem isReadable_startMark : Dot.IsReadable startMark := by
  show Dot.isWord "__start".toList = true
  decide

/-- The statements of a drawing can be read. -/
theorem canBeRead_of_mem_drawing {x : Drawing.Statement} (hx : x ∈ d.drawing) :
    Dot.CanBeRead x := by
  rcases mem_drawing.1 hx with ⟨s, -, rfl⟩ | ⟨e, -, rfl⟩ | rfl | rfl
  · trivial
  · exact ⟨trivial, trivial⟩
  · exact isReadable_startMark
  · exact ⟨isReadable_startMark, trivial⟩

/-- The graph that is drawn. -/
def graphOf (d : Automaton) : Graph := Graph.of (d.drawing.map Dot.ofDrawing)

theorem graph?_draw {layout : Layout} (hlayout : Dot.IsLayout layout) (d : Automaton) :
    Dot.graph? (d.draw layout) = some d.graphOf := by
  rw [Dot.graph?, draw, Dot.read_write hlayout fun _ => canBeRead_of_mem_drawing]
  rfl

/-! The three parts of the graph, from the parts of the automaton. -/

/-- The word for the shape of a state. -/
def shapeOf (d : Automaton) (s : Nat) : String :=
  if d.isAccepting s then "doublecircle" else "circle"

/-- What the node of a state says. -/
def stateStatement (d : Automaton) (s : Nat) : Dot.Statement :=
  ⟨.node (.quoted (d.name s)), [(.bare "shape", .bare (d.shapeOf s))]⟩

/-- What an edge between states says. -/
def edgeStatement (d : Automaton) (e : Edge) : Dot.Statement :=
  ⟨.edge (.quoted (d.name e.source)) (.quoted (d.name e.target)),
    [(.bare "label", .quoted (label e.symbols))]⟩

/-- What is said of the mark. -/
def markStatements (d : Automaton) : List Dot.Statement :=
  [⟨.node startMark, [(.bare "shape", .bare "point")]⟩,
    ⟨.edge startMark (.quoted (d.name d.start)), []⟩]

theorem ofDrawing_nodeOf (d : Automaton) (s : Nat) :
    Dot.ofDrawing (d.nodeOf s) = d.stateStatement s := by
  rw [TransitionSystem.nodeOf, stateStatement, shapeOf]
  by_cases hacc : d.isAccepting s = true
  · rw [if_pos hacc, if_pos hacc]
    rfl
  · rw [if_neg hacc, if_neg hacc]
    rfl

/-- An edge between states has a label, for some symbol leads from the one to the other. -/
theorem ofDrawing_edgeOf {e : Edge} (he : e ∈ d.edges) :
    Dot.ofDrawing (d.edgeOf e) = d.edgeStatement e := by
  obtain ⟨-, -, -, hne⟩ := TransitionSystem.mem_edges_iff.1 he
  rw [TransitionSystem.edgeOf, edgeStatement]
  cases hsymbols : e.symbols with
  | nil => exact absurd hsymbols hne
  | cons c symbols => rfl

/-- What the drawing says, statement by statement. -/
theorem map_ofDrawing_drawing (d : Automaton) :
    d.drawing.map Dot.ofDrawing =
      d.states.map d.stateStatement ++ d.edges.map d.edgeStatement ++ d.markStatements := by
  have hnodes : (d.states.map d.nodeOf).map Dot.ofDrawing = d.states.map d.stateStatement := by
    rw [List.map_map]
    exact List.map_congr_left fun s _ => ofDrawing_nodeOf d s
  have hedges : (d.edges.map d.edgeOf).map Dot.ofDrawing = d.edges.map d.edgeStatement := by
    rw [List.map_map]
    exact List.map_congr_left fun e he => ofDrawing_edgeOf he
  rw [drawing, List.map_append, List.map_append, hnodes, hedges]
  rfl

/-- The nodes are the states, and then the mark if it is none of them. -/
theorem nodes_graphOf (hstart : d.start < d.stateCount) :
    d.graphOf.nodes = (d.names ++ ["__start"]).eraseDups := by
  have hname : ∀ {s}, s < d.stateCount → d.name s ∈ d.names := fun hs =>
    List.mem_of_getElem? (TransitionSystem.name?_eq_some_name hs)
  have hedges : (d.edges.flatMap fun e => [d.name e.source, d.name e.target]) ⊆ d.names := by
    intro n hn
    obtain ⟨e, he, hn⟩ := List.mem_flatMap.1 hn
    obtain ⟨hsource, htarget⟩ := TransitionSystem.lt_of_mem_edges he
    rcases List.mem_pair.1 hn with rfl | rfl
    · exact hname hsource
    · exact hname htarget
  have hmark : ["__start", d.name d.start] ⊆ d.names ++ ["__start"] := by
    intro n hn
    rcases List.mem_pair.1 hn with rfl | rfl
    · exact List.mem_append_right _ (List.mem_singleton_self _)
    · exact List.mem_append_left _ (hname hstart)
  have hmentions : (d.drawing.map Dot.ofDrawing).flatMap Dot.Statement.mentions =
      d.names ++ ((d.edges.flatMap fun e => [d.name e.source, d.name e.target]) ++
        (["__start"] ++ ["__start", d.name d.start])) := by
    rw [map_ofDrawing_drawing, List.flatMap_append, List.flatMap_append, List.flatMap_map,
      List.flatMap_map, List.append_assoc, ← map_name_states d, List.map_eq_flatMap]
    rfl
  show List.eraseDups _ = _
  rw [hmentions, eraseDups_append_of_subset hedges, ← List.append_assoc,
    ← List.append_nil ["__start", d.name d.start], eraseDups_append_of_subset hmark,
    List.append_nil]

/-- The shapes of the states are given first, and then that of the mark. -/
theorem given_graphOf (d : Automaton) :
    d.graphOf.given =
      (d.states.map fun s => (d.name s, "shape", d.shapeOf s)) ++ [("__start", "shape", "point")] := by
  have hedges : (d.edges.flatMap fun _ => ([] : List (String × String × String))) = [] :=
    List.flatMap_eq_nil_iff.2 fun _ _ => rfl
  show (d.drawing.map Dot.ofDrawing).flatMap Dot.Statement.given = _
  rw [map_ofDrawing_drawing, List.flatMap_append, List.flatMap_append, List.flatMap_map,
    List.flatMap_map, List.map_eq_flatMap]
  show _ ++ (d.edges.flatMap fun _ => []) ++ _ = _
  rw [hedges, List.append_nil]
  rfl

/-- The edges between states have labels, and the edge of the mark has none. -/
theorem arrows_graphOf (d : Automaton) :
    d.graphOf.arrows =
      (d.edges.map fun e => ⟨d.name e.source, d.name e.target, some (label e.symbols)⟩) ++
        [⟨"__start", d.name d.start, none⟩] := by
  have hstates : (d.states.filterMap fun _ => (none : Option Arrow)) = [] :=
    List.filterMap_eq_nil_iff.2 fun _ _ => rfl
  show (d.drawing.map Dot.ofDrawing).filterMap Dot.Statement.arrow? = _
  rw [map_ofDrawing_drawing, List.filterMap_append, List.filterMap_append, List.filterMap_map,
    List.filterMap_map]
  show (d.states.filterMap fun _ => none) ++ _ ++ _ = _
  rw [hstates, List.nil_append, ← List.filterMap_eq_map]
  rfl

/-! What is shown of the states and of the mark. -/

/-- The mark is a point, whatever else is said of a node of this name. -/
theorem attribute?_mark (d : Automaton) : d.graphOf.attribute? "__start" "shape" = some "point" := by
  rw [Graph.attribute?, given_graphOf, List.filterMap_append, List.getLast?_append]
  rfl

/-- What is picked is the same wherever it is picked. -/
theorem getLast?_eq_some_of_forall {α : Type} {xs : List α} {a : α} (hall : ∀ x ∈ xs, x = a)
    (ha : a ∈ xs) : xs.getLast? = some a := by
  cases hlast : xs.getLast? with
  | none =>
    rw [List.getLast?_eq_none_iff.1 hlast] at ha
    cases ha
  | some x => rw [hall x (List.mem_of_getLast? hlast)]

/-- The node of a state has the shape of the state, unless it is the mark as well. -/
theorem attribute?_name (hm : d.toTransitionSystem.WellFormed) {s : Nat} (hs : s < d.stateCount)
    (hmark : d.name s ≠ "__start") :
    d.graphOf.attribute? (d.name s) "shape" = some (d.shapeOf s) := by
  rw [Graph.attribute?, given_graphOf]
  apply getLast?_eq_some_of_forall
  · intro value hvalue
    obtain ⟨⟨n, k, v⟩, hgiven, hpick⟩ := List.mem_filterMap.1 hvalue
    dsimp only at hpick
    split at hpick
    · rename_i hkey
      cases hpick
      rcases List.mem_append.1 hgiven with hstate | hpoint
      · -- no two states have the same name
        obtain ⟨t, ht, heq⟩ := List.mem_map.1 hstate
        obtain ⟨hname, hvalue⟩ := Prod.mk.inj heq
        obtain ⟨-, rfl⟩ := Prod.mk.inj hvalue
        rw [hm.name_inj (TransitionSystem.mem_states.1 ht) hs (hname.trans hkey.1)]
      · obtain ⟨hname, -⟩ := Prod.mk.inj (List.mem_singleton.1 hpoint)
        exact absurd (hkey.1.symm.trans hname) hmark
    · cases hpick
  · refine List.mem_filterMap.2 ⟨(d.name s, "shape", d.shapeOf s), ?_, if_pos ⟨rfl, rfl⟩⟩
    exact List.mem_append_left _ (List.mem_map.2 ⟨s, TransitionSystem.mem_states.2 hs, rfl⟩)

/-- The edge without a label is that of the mark. -/
theorem filter_arrows_graphOf (d : Automaton) :
    d.graphOf.arrows.filter (fun a => a.label.isNone) = [⟨"__start", d.name d.start, none⟩] := by
  have hlabelled : (d.edges.map fun e =>
      (⟨d.name e.source, d.name e.target, some (label e.symbols)⟩ : Arrow)).filter
        (fun a => a.label.isNone) = [] := by
    rw [List.filter_eq_nil_iff]
    intro a ha
    obtain ⟨e, -, rfl⟩ := List.mem_map.1 ha
    exact Bool.false_ne_true
  rw [arrows_graphOf, List.filter_append, hlabelled]
  rfl

/-! ## The main result -/

section Shows

variable (hd : d.IsBuilt)

include hd

/-- When no state bears the name of the mark, the graph shows the automaton. -/
theorem shows_graphOf (hmark : "__start" ∉ d.names) : d.graphOf.Shows d "__start" := by
  obtain ⟨hm, hstart⟩ := hd.wellFormed
  have hnodup : (d.names ++ ["__start"]).Nodup := by
    rw [List.nodup_append]
    refine ⟨hm.names_nodup, by simp, ?_⟩
    intro a ha b hb hab
    rw [List.mem_singleton.1 hb] at hab
    exact hmark (hab ▸ ha)
  refine ⟨hmark, ?_, ?_, attribute?_mark d, filter_arrows_graphOf d⟩
  · rw [nodes_graphOf hstart, eraseDups_of_nodup hnodup]
    exact List.perm_append_singleton "__start" d.names
  · intro s name hname
    have hs : s < d.stateCount := TransitionSystem.lt_of_name?_eq_some hname
    have hself : d.name s = name := TransitionSystem.name_of_name?_eq_some hname
    have hother : d.name s ≠ "__start" := by
      rw [hself]
      rintro rfl
      exact hmark (List.mem_of_getElem? hname)
    rw [← hself]
    exact attribute?_name hm hs hother

/-- When a state bears the name of the mark, there are no more nodes than states. -/
theorem nodes_graphOf_of_mem (hmark : "__start" ∈ d.names) : d.graphOf.nodes = d.names := by
  obtain ⟨hm, hstart⟩ := hd.wellFormed
  rw [nodes_graphOf hstart, eraseDups_concat_of_mem hmark, eraseDups_of_nodup hm.names_nodup]

/-- So no node is left to mark the start. -/
theorem not_shows_graphOf (hmark : "__start" ∈ d.names) (marker : String) :
    ¬ d.graphOf.Shows d marker := by
  intro h
  have hlength := h.nodes.length_eq
  rw [nodes_graphOf_of_mem hd hmark, List.length_cons] at hlength
  omega

/-- **A drawing shows its automaton exactly when no state bears the name of the mark.**  Otherwise
    the mark and the state are one node, which is a point, accepting or not. -/
theorem draw_shows_iff :
    ∃ g, Dot.graph? (d.draw .spaced) = some g ∧
      ((∃ marker, g.Shows d marker) ↔ "__start" ∉ d.names) ∧
        ("__start" ∉ d.names → g.Shows d "__start") ∧
          ("__start" ∈ d.names →
            g.nodes = d.names ∧ g.attribute? "__start" "shape" = some "point") := by
  refine ⟨d.graphOf, graph?_draw Dot.isLayout_spaced d, ⟨?_, ?_⟩, shows_graphOf hd, ?_⟩
  · rintro ⟨marker, h⟩ hmark
    exact not_shows_graphOf hd hmark marker h
  · intro hmark
    exact ⟨"__start", shows_graphOf hd hmark⟩
  · intro hmark
    exact ⟨nodes_graphOf_of_mem hd hmark, attribute?_mark d⟩

end Shows

/-- An automaton whose names have to be quoted. -/
def speckled : Automaton := ⟨⟨["A\"", "B\\"], ['0'], [1], [((0, '0'), 1)]⟩, 0⟩

theorem speckled_isBuilt : speckled.IsBuilt :=
  ⟨[.state "A\"", .state "B\\", .symbol "0", .start "A\"", .accept "B\\",
    .transition "A\"" '0' "B\\"], by decide +kernel⟩

/-- Its drawing shows it: the second state has a double circle, and the mark points to the first. -/
theorem speckled_shown :
    speckled.IsBuilt ∧
      ∃ g, Dot.graph? (speckled.draw .spaced) = some g ∧ g.Shows speckled "__start" := by
  obtain ⟨g, hg, -, hshows, -⟩ := draw_shows_iff speckled_isBuilt
  exact ⟨speckled_isBuilt, g, hg, hshows (by decide)⟩

/-- An automaton whose only state, which accepts, bears the name of the mark. -/
def eclipsed : Automaton := ⟨⟨["__start"], ['0'], [0], []⟩, 0⟩

theorem eclipsed_isBuilt : eclipsed.IsBuilt :=
  ⟨[.state "__start", .symbol "0", .start "__start", .accept "__start"], by decide +kernel⟩

/-- Its drawing does not show it: there is one node, and that is a point. -/
theorem eclipsed_not_shown :
    eclipsed.IsBuilt ∧ eclipsed.isAccepting 0 = true ∧
      ∃ g, Dot.graph? (eclipsed.draw .spaced) = some g ∧ g.nodes = ["__start"] ∧
        g.attribute? "__start" "shape" = some "point" ∧ ∀ marker, ¬ g.Shows eclipsed marker := by
  have hmark : "__start" ∈ eclipsed.names := List.mem_singleton_self _
  exact ⟨eclipsed_isBuilt, rfl, eclipsed.graphOf, graph?_draw Dot.isLayout_spaced eclipsed,
    nodes_graphOf_of_mem eclipsed_isBuilt hmark, attribute?_mark eclipsed,
    not_shows_graphOf eclipsed_isBuilt hmark⟩

end Automaton

end Acceptor
