/-
  A drawing loses nothing.

  What a drawing shows is all that a run depends on, so automata with the same drawing have the same
  states and transitions and accept the same inputs.

  1. **Edges** — there is an edge from one state to another exactly when some symbol leads from the
     one to the other, and its symbols are those that do (`mem_edges_iff`,
     `next?_eq_some_iff_mem_edges`).

  2. **What is shown** — each part of the automaton, read off the statements of its drawing: names
     are distinct, so the node of a name is the node of its state.

  3. **The text** — every statement of a drawing is legible, so the text of the drawing shows the
     statements (`drawing_eq_of_draw_eq`).

  Main result: `alike_of_draw_eq`.
-/
import Acceptor.Proofs.Automaton.Alike
import Acceptor.Proofs.Automaton.Listing
import Acceptor.Proofs.Drawing.Legible

namespace Acceptor

open Drawing

/-! ## Edges -/

namespace TransitionSystem

variable {m : TransitionSystem} {s t : Nat} {c : Char}

/-- The symbols that lead from one state to another, in the order of the alphabet. -/
def symbolsBetween (m : TransitionSystem) (s t : Nat) : List Char :=
  (m.row s).filterMap fun (c, u) => if u = t then some c else none

theorem mem_symbolsBetween_iff :
    c ∈ m.symbolsBetween s t ↔ c ∈ m.alphabet ∧ m.next? s c = some t := by
  unfold symbolsBetween
  rw [List.mem_filterMap]
  constructor
  · rintro ⟨⟨a, u⟩, hrow, hpick⟩
    dsimp only at hpick
    split at hpick
    · rename_i hu
      cases hpick
      subst hu
      exact mem_row.1 hrow
    · cases hpick
  · intro h
    exact ⟨(c, t), mem_row.2 h, if_pos rfl⟩

theorem mem_edges_iff {e : Edge} :
    e ∈ m.edges ↔ e.source < m.stateCount ∧ e.target < m.stateCount ∧
      e.symbols = m.symbolsBetween e.source e.target ∧ e.symbols ≠ [] := by
  obtain ⟨source, target, symbols⟩ := e
  rw [edges, List.mem_flatMap]
  constructor
  · rintro ⟨s, hs, hedge⟩
    obtain ⟨t, ht, hmatch⟩ := List.mem_filterMap.1 hedge
    split at hmatch
    · cases hmatch
    · rename_i hne
      cases hmatch
      exact ⟨mem_states.1 hs, mem_states.1 ht, rfl, hne⟩
  · rintro ⟨hs, ht, hsymbols, hne⟩
    refine ⟨source, mem_states.2 hs, List.mem_filterMap.2 ⟨target, mem_states.2 ht, ?_⟩⟩
    split
    · rename_i hnone
      exact absurd (hsymbols.trans hnone) hne
    · rw [Option.some_inj, Edge.mk.injEq]
      exact ⟨rfl, rfl, hsymbols.symm⟩

/-- A transition is a symbol of an edge. -/
theorem WellFormed.next?_eq_some_iff_mem_edges (hm : m.WellFormed) :
    m.next? s c = some t ↔ ∃ symbols, ⟨s, t, symbols⟩ ∈ m.edges ∧ c ∈ symbols := by
  constructor
  · intro h
    obtain ⟨hs, hc, ht⟩ := hm.next?_declared h
    have hmem : c ∈ m.symbolsBetween s t := mem_symbolsBetween_iff.2 ⟨hc, h⟩
    exact ⟨_, mem_edges_iff.2 ⟨hs, ht, rfl, List.ne_nil_of_mem hmem⟩, hmem⟩
  · rintro ⟨symbols, hedge, hc⟩
    obtain ⟨-, -, hsymbols, -⟩ := mem_edges_iff.1 hedge
    change symbols = m.symbolsBetween s t at hsymbols
    rw [hsymbols] at hc
    exact (mem_symbolsBetween_iff.1 hc).2

end TransitionSystem

namespace Automaton

variable {d d' : Automaton} {s t : Nat} {c : Char}

/-! ## What is shown -/

/-- The states by name. -/
theorem map_name_states (d : Automaton) : d.states.map d.name = d.names := by
  apply List.ext_getElem
  · simp [TransitionSystem.states, TransitionSystem.stateCount]
  · intro s hs hs'
    simp [TransitionSystem.states, TransitionSystem.name, TransitionSystem.name?, hs']

/-- The name on the node of a state. -/
def stateName? : Statement → Option String
  | .node (.quoted name) _ => some name
  | _ => none

/-- The nodes of the states bear the names, in their order. -/
theorem filterMap_stateName?_drawing (d : Automaton) :
    d.drawing.filterMap stateName? = d.names := by
  have hnodes : (d.states.map d.nodeOf).filterMap stateName? = d.names := by
    have hname : stateName? ∘ d.nodeOf = fun s => some (d.name s) := rfl
    rw [List.filterMap_map, hname, List.filterMap_eq_map']
    exact map_name_states d
  have hedges : (d.edges.map d.edgeOf).filterMap stateName? = [] := by
    rw [List.filterMap_map, List.filterMap_eq_nil_iff]
    intro e _
    rfl
  rw [drawing, List.filterMap_append, List.filterMap_append, hnodes, hedges]
  simp [stateName?, startMark]

theorem mem_drawing {x : Statement} :
    x ∈ d.drawing ↔ (∃ s < d.stateCount, d.nodeOf s = x) ∨ (∃ e ∈ d.edges, d.edgeOf e = x) ∨
      x = .node startMark .point ∨ x = .edge startMark (.quoted (d.name d.start)) [] := by
  simp [drawing]

/-- The mark of the start points to it. -/
theorem start_mem_drawing_iff {name : String} :
    .edge startMark (.quoted name) [] ∈ d.drawing ↔ name = d.name d.start := by
  rw [mem_drawing]
  simp [TransitionSystem.nodeOf, TransitionSystem.edgeOf, startMark]

section WellFormed

variable (hm : d.toTransitionSystem.WellFormed)

include hm

/-- A double circle is the node of an accepting state. -/
theorem doubleCircle_mem_drawing_iff (hs : s < d.stateCount) :
    .node (.quoted (d.name s)) .doubleCircle ∈ d.drawing ↔ d.isAccepting s = true := by
  rw [mem_drawing]
  simp only [TransitionSystem.nodeOf, TransitionSystem.edgeOf, startMark, Statement.node.injEq,
    NodeName.quoted.injEq, reduceCtorEq, and_false, exists_false, or_false]
  constructor
  · rintro ⟨u, hu, hname, hshape⟩
    rw [hm.name_inj hu hs hname] at hshape
    split at hshape
    · assumption
    · cases hshape
  · intro hacc
    exact ⟨s, hs, rfl, if_pos hacc⟩

/-- An edge between two names is the edge between their states. -/
theorem edge_mem_drawing_iff (hs : s < d.stateCount) (ht : t < d.stateCount)
    {symbols : List Char} :
    .edge (.quoted (d.name s)) (.quoted (d.name t)) symbols ∈ d.drawing ↔
      ⟨s, t, symbols⟩ ∈ d.edges := by
  rw [mem_drawing]
  simp only [TransitionSystem.nodeOf, TransitionSystem.edgeOf, startMark, Statement.edge.injEq,
    NodeName.quoted.injEq, reduceCtorEq, and_false, false_and, exists_false, or_false, false_or]
  constructor
  · rintro ⟨e, he, hsource, htarget, rfl⟩
    obtain ⟨hsource', htarget'⟩ := TransitionSystem.lt_of_mem_edges he
    rw [← hm.name_inj hsource' hs hsource, ← hm.name_inj htarget' ht htarget]
    exact he
  · intro he
    exact ⟨_, he, rfl, rfl, rfl⟩

end WellFormed

/-- Automata with the same statements are alike. -/
theorem alike_of_drawing_eq (hm : d.toTransitionSystem.WellFormed)
    (hm' : d'.toTransitionSystem.WellFormed) (hstart : d.start < d.stateCount)
    (hstart' : d'.start < d'.stateCount) (h : d.drawing = d'.drawing) : d.Alike d' := by
  have hnames : d.names = d'.names := by
    rw [← filterMap_stateName?_drawing d, h, filterMap_stateName?_drawing]
  have hname : ∀ s, d.name s = d'.name s := fun s => congrArg (fun ns => ns[s]?.getD "") hnames
  have hcount : d.stateCount = d'.stateCount := congrArg List.length hnames
  refine .of_states hm hm' hnames ?_ ?_ ?_
  · have hmark : d.name d.start = d'.name d'.start := by
      rw [← start_mem_drawing_iff, ← h, start_mem_drawing_iff]
    rw [← hname] at hmark
    exact hm.name_inj hstart (hcount ▸ hstart') hmark
  · intro s hs
    rw [Bool.eq_iff_iff, ← doubleCircle_mem_drawing_iff hm hs,
      ← doubleCircle_mem_drawing_iff hm' (hcount ▸ hs), h, hname]
  · intro s hs c
    have hedges : ∀ t symbols, ⟨s, t, symbols⟩ ∈ d.edges ↔ ⟨s, t, symbols⟩ ∈ d'.edges := by
      intro t symbols
      by_cases ht : t < d.stateCount
      · rw [← edge_mem_drawing_iff hm hs ht,
          ← edge_mem_drawing_iff hm' (hcount ▸ hs) (hcount ▸ ht), h, hname, hname]
      · -- no edge ends past the last state
        refine iff_of_false (fun he => ht (TransitionSystem.lt_of_mem_edges he).2) fun he => ht ?_
        rw [hcount]
        exact (TransitionSystem.lt_of_mem_edges he).2
    apply Option.ext
    intro t
    rw [hm.next?_eq_some_iff_mem_edges, hm'.next?_eq_some_iff_mem_edges]
    simp only [hedges]

/-! ## The text -/

theorem legible_of_mem_drawing {x : Statement} (hx : x ∈ d.drawing) : x.Legible := by
  rcases mem_drawing.1 hx with ⟨s, -, rfl⟩ | ⟨e, -, rfl⟩ | rfl | rfl
  · exact trivial
  · exact ⟨trivial, trivial⟩
  · exact rfl
  · exact ⟨rfl, trivial⟩

/-- The text of a drawing shows its statements. -/
theorem drawing_eq_of_draw_eq {layout : Layout} (hlayout : layout.IsPlain)
    (h : d.draw layout = d'.draw layout) : d.drawing = d'.drawing :=
  write_inj hlayout (fun _ hx => legible_of_mem_drawing hx)
    (fun _ hx => legible_of_mem_drawing hx) h

/-! ## The main result -/

/-- **A drawing loses nothing.**  Built automata that are drawn by the same text have the same
    states and transitions, and so accept the same inputs. -/
theorem alike_of_draw_eq (hd : d.IsBuilt) (hd' : d'.IsBuilt)
    (h : d.draw .spaced = d'.draw .spaced) :
    d.Alike d' ∧ d.acceptingStates = d'.acceptingStates ∧
      ∀ input, d.accepts input = d'.accepts input := by
  obtain ⟨hm, hstart⟩ := hd.wellFormed
  obtain ⟨hm', hstart'⟩ := hd'.wellFormed
  have halike : d.Alike d' :=
    alike_of_drawing_eq hm hm' hstart hstart' (drawing_eq_of_draw_eq Layout.isPlain_spaced h)
  exact ⟨halike, halike.acceptingStates_eq, halike.accepts_eq hm hm'⟩

/-- An automaton whose names and symbols are marks of the drawing. -/
def scribbled : Automaton :=
  ⟨⟨["a\" -> \"b", "", "\\"], [',', '"'], [1], [((1, '"'), 2), ((0, '"'), 1), ((0, ','), 1)]⟩, 0⟩

/-- The same states and transitions, come by in another way and with a symbol that is not used. -/
def rescribbled : Automaton :=
  ⟨⟨["a\" -> \"b", "", "\\"], [',', 'x', '"'], [1],
    [((0, ','), 1), ((1, '"'), 2), ((0, ','), 2), ((0, '"'), 1)]⟩, 0⟩

theorem scribbled_alike :
    scribbled.draw .spaced = rescribbled.draw .spaced ∧ scribbled.Alike rescribbled ∧
      scribbled.acceptingStates = rescribbled.acceptingStates ∧
        ∀ input, scribbled.accepts input = rescribbled.accepts input := by
  have hbuilt : scribbled.IsBuilt := by
    refine ⟨[.state "a\" -> \"b", .state "", .state "\\", .symbol ",", .symbol "\"",
      .start "a\" -> \"b", .accept "", .transition "a\" -> \"b" ',' "",
      .transition "a\" -> \"b" '"' "", .transition "" '"' "\\"], ?_⟩
    rfl
  have hrebuilt : rescribbled.IsBuilt := by
    refine ⟨[.state "a\" -> \"b", .state "", .state "\\", .symbol ",", .symbol "x", .symbol "\"",
      .start "a\" -> \"b", .accept "", .transition "a\" -> \"b" '"' "",
      .transition "a\" -> \"b" ',' "\\", .transition "" '"' "\\",
      .transition "a\" -> \"b" ',' ""], ?_⟩
    rfl
  have hdrawn : scribbled.draw .spaced = rescribbled.draw .spaced := by decide +kernel
  exact ⟨hdrawn, alike_of_draw_eq hbuilt hrebuilt hdrawn⟩

end Automaton

end Acceptor
