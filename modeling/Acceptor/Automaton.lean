/-
  Deterministic finite automata with named states.

  A state is its position in the order of declaration, counted from zero; a symbol is one
  character.  The transition function is partial: a state need not have a transition on every
  symbol.

  1. **The transition system** — `TransitionSystem` is the table alone: state names, alphabet,
     accepting states and bindings.  A binding maps a state and a symbol to a target.  The latest
     binding comes first, so the first match is the one that holds, and binding a pair again needs
     no search.

  2. **The automaton** — a transition system with a start state.

  3. **Good standing** — `WellFormed` says when every number in a system is one of its states and
     nothing is declared twice.
-/

namespace Acceptor

/-! ## Transition systems -/

/-- A step from one state to another on a symbol. -/
structure Transition where
  source : Nat
  symbol : Char
  target : Nat
deriving DecidableEq

/-- States, alphabet, accepting states and transitions. -/
structure TransitionSystem where
  /-- The name of each state, in the order of declaration. -/
  names : List String := []
  /-- The symbols, in the order of declaration. -/
  alphabet : List Char := []
  /-- The accepting states, in no order that counts. -/
  accepting : List Nat := []
  /-- The target of a state and a symbol, the latest binding first. -/
  bindings : List ((Nat × Char) × Nat) := []
deriving DecidableEq

namespace TransitionSystem

/-- How many states there are. -/
def stateCount (m : TransitionSystem) : Nat := m.names.length

/-- Every state, in ascending order. -/
def states (m : TransitionSystem) : List Nat := List.range m.stateCount

/-- The state of a name. -/
def state? (m : TransitionSystem) (name : String) : Option Nat := m.names.idxOf? name

/-- The name of a state, if there is such a state. -/
def name? (m : TransitionSystem) (s : Nat) : Option String := m.names[s]?

/-- The name of a state; the empty text past the last state. -/
def name (m : TransitionSystem) (s : Nat) : String := (m.name? s).getD ""

/-- Whether a character is a symbol of the alphabet. -/
def hasSymbol (m : TransitionSystem) (c : Char) : Bool := m.alphabet.contains c

/-- Whether a state is accepting. -/
def isAccepting (m : TransitionSystem) (s : Nat) : Bool := m.accepting.contains s

/-- The accepting states in ascending order. -/
def acceptingStates (m : TransitionSystem) : List Nat := m.states.filter m.isAccepting

/-- Where a state goes on a symbol. -/
def next? (m : TransitionSystem) (s : Nat) (c : Char) : Option Nat := m.bindings.lookup (s, c)

/-- The transitions out of one state, in the order of the alphabet. -/
def row (m : TransitionSystem) (s : Nat) : List (Char × Nat) :=
  m.alphabet.filterMap fun c => (m.next? s c).map fun t => (c, t)

/-- Every transition, by source and then in the order of the alphabet. -/
def transitions (m : TransitionSystem) : List Transition :=
  m.states.flatMap fun s => (m.row s).map fun (c, t) => ⟨s, c, t⟩

/-- Every number is a state, every bound symbol is in the alphabet, and no name and no symbol is
    declared twice. -/
structure WellFormed (m : TransitionSystem) : Prop where
  names_nodup : m.names.Nodup
  alphabet_nodup : m.alphabet.Nodup
  accepting_lt : ∀ s ∈ m.accepting, s < m.stateCount
  binding_declared : ∀ s c t, ((s, c), t) ∈ m.bindings →
    s < m.stateCount ∧ c ∈ m.alphabet ∧ t < m.stateCount

/-! The look-ups, seen from the lists behind them. -/

variable {m : TransitionSystem} {s t : Nat} {c : Char}

@[simp] theorem mem_states : s ∈ m.states ↔ s < m.stateCount := by simp [states]

@[simp] theorem hasSymbol_iff : m.hasSymbol c = true ↔ c ∈ m.alphabet := by simp [hasSymbol]

@[simp] theorem isAccepting_iff : m.isAccepting s = true ↔ s ∈ m.accepting := by
  simp [isAccepting]

@[simp] theorem mem_acceptingStates :
    s ∈ m.acceptingStates ↔ s < m.stateCount ∧ s ∈ m.accepting := by simp [acceptingStates]

theorem mem_row : (c, t) ∈ m.row s ↔ c ∈ m.alphabet ∧ m.next? s c = some t := by
  simp [row, List.mem_filterMap]

theorem mem_transitions {x : Transition} :
    x ∈ m.transitions ↔
      x.source < m.stateCount ∧ x.symbol ∈ m.alphabet ∧
        m.next? x.source x.symbol = some x.target := by
  obtain ⟨s, c, t⟩ := x
  simp only [transitions, List.mem_flatMap, List.mem_map, mem_states, Prod.exists, mem_row,
    Transition.mk.injEq]
  constructor
  · rintro ⟨s, hs, c, t, ⟨hc, ht⟩, rfl, rfl, rfl⟩
    exact ⟨hs, hc, ht⟩
  · rintro ⟨hs, hc, ht⟩
    exact ⟨s, hs, c, t, ⟨hc, ht⟩, rfl, rfl, rfl⟩

end TransitionSystem

/-! ## Automata -/

/-- A transition system with the state in which every run begins. -/
structure Automaton extends TransitionSystem where
  start : Nat
deriving DecidableEq

end Acceptor
