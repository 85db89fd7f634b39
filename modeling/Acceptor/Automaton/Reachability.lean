/-
  Which states can be reached from the start.

  1. **The relation** — `Reaches d s`: a chain of transitions leads from the start of `d` to `s`.

  2. **The search** — level by level.  It keeps the states that it has not met yet, and each round
     takes from them the ones to which some state of the frontier goes.  It ends when a round takes
     none; every other round makes the list of unmet states shorter.
-/
import Acceptor.Automaton

namespace Acceptor

/-! ## The relation -/

namespace Automaton

/-- A chain of transitions leads from the start to the state. -/
inductive Reaches (d : Automaton) : Nat → Prop
  | start : Reaches d d.start
  | step {s t : Nat} {c : Char} : Reaches d s → d.next? s c = some t → Reaches d t

end Automaton

/-! ## The search -/

namespace TransitionSystem

/-- The states to which the states of a list go in one step. -/
def successors (m : TransitionSystem) (frontier : List Nat) : List Nat :=
  frontier.flatMap fun s => (m.row s).map fun (_, t) => t

/-- The states of `unseen` that no chain of transitions within `unseen` reaches from `frontier`. -/
def unreached (m : TransitionSystem) (frontier unseen : List Nat) : List Nat :=
  let targets := m.successors frontier
  if unseen.any targets.contains then
    m.unreached (unseen.filter targets.contains) (unseen.filter (!targets.contains ·))
  else unseen
termination_by unseen.length
decreasing_by
  rename_i h
  obtain ⟨s, hs, ht⟩ := List.any_eq_true.1 h
  simp only [List.unattach_filter, List.unattach_attach]
  exact List.length_filter_lt_length_iff_exists.2 ⟨s, hs, by simpa using ht⟩

/-- The states that a list of states goes to in one step are the targets of its transitions. -/
theorem mem_successors {m : TransitionSystem} {frontier : List Nat} {t : Nat} :
    t ∈ m.successors frontier ↔ ∃ s ∈ frontier, ∃ c ∈ m.alphabet, m.next? s c = some t := by
  simp [successors, mem_row]

end TransitionSystem

namespace Automaton

/-- The states that the start does not reach, in ascending order. -/
def unreachable (d : Automaton) : List Nat :=
  d.unreached [d.start] (d.states.filter (· ≠ d.start))

/-- The states that the start reaches, in ascending order. -/
def reachable (d : Automaton) : List Nat :=
  let unmet := d.unreachable
  d.states.filter fun s => !unmet.contains s

/-- A state is on exactly one of the two lists. -/
theorem mem_reachable {d : Automaton} {s : Nat} :
    s ∈ d.reachable ↔ s < d.stateCount ∧ s ∉ d.unreachable := by simp [reachable]

end Automaton

end Acceptor
