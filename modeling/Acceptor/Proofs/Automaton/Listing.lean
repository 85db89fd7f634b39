/-
  Everything that an automaton lists is one of its states.

  An automaton lists its states, its accepting states, its transitions, the states that it reaches
  and those that it does not, and the edges of its drawing.  In a well-formed system each number on
  such a list is a state; together with the start this is `Listed`.
-/
import Acceptor.Automaton.Reachability
import Acceptor.Drawing
import Acceptor.Proofs.Automaton.Lookup

namespace Acceptor

namespace TransitionSystem

variable {m : TransitionSystem} {s : Nat}

/-! ## The lists -/

/-- The search takes states from the unmet ones and leaves the others as they are.  Induction along
    its rounds. -/
theorem unreached_sublist (frontier unseen : List Nat) :
    (m.unreached frontier unseen).Sublist unseen := by
  fun_induction unreached with
  | case1 frontier unseen targets hmore ih =>
    simp only [List.unattach_filter, List.unattach_attach] at ih
    exact ih.trans List.filter_sublist
  | case2 frontier unseen targets hdone => exact List.Sublist.refl unseen

theorem mem_of_mem_unreached {frontier unseen : List Nat} (h : s ∈ m.unreached frontier unseen) :
    s ∈ unseen := (unreached_sublist frontier unseen).subset h

theorem lt_of_mem_edges {e : Edge} (h : e ∈ m.edges) :
    e.source < m.stateCount ∧ e.target < m.stateCount := by
  obtain ⟨source, hsource, he⟩ := List.mem_flatMap.1 h
  obtain ⟨target, htarget, he⟩ := List.mem_filterMap.1 he
  split at he
  · cases he
  · cases he
    exact ⟨mem_states.1 hsource, mem_states.1 htarget⟩

end TransitionSystem

namespace Automaton

variable {d : Automaton} {s : Nat}

theorem lt_of_mem_unreachable (h : s ∈ d.unreachable) : s < d.stateCount := by
  have hunmet := TransitionSystem.mem_of_mem_unreached h
  exact TransitionSystem.mem_states.1 (List.mem_filter.1 hunmet).1

/-! ## All of them together -/

/-- Every number that an automaton lists is one of its states. -/
structure Listed (d : Automaton) : Prop where
  start : d.start < d.stateCount
  states : ∀ s ∈ d.states, s < d.stateCount
  acceptingStates : ∀ s ∈ d.acceptingStates, s < d.stateCount
  transitions : ∀ x ∈ d.transitions, x.source < d.stateCount ∧ x.target < d.stateCount
  reachable : ∀ s ∈ d.reachable, s < d.stateCount
  unreachable : ∀ s ∈ d.unreachable, s < d.stateCount
  next? : ∀ s c t, d.next? s c = some t → t < d.stateCount
  edges : ∀ e ∈ d.edges, e.source < d.stateCount ∧ e.target < d.stateCount

theorem listed (hm : d.toTransitionSystem.WellFormed) (hstart : d.start < d.stateCount) :
    d.Listed where
  start := hstart
  states _ hs := TransitionSystem.mem_states.1 hs
  acceptingStates _ hs := (TransitionSystem.mem_acceptingStates.1 hs).1
  transitions x hx := by
    obtain ⟨hsource, -, hnext⟩ := TransitionSystem.mem_transitions.1 hx
    exact ⟨hsource, (hm.next?_declared hnext).2.2⟩
  reachable _ hs := (mem_reachable.1 hs).1
  unreachable _ hs := lt_of_mem_unreachable hs
  next? _ _ _ ht := (hm.next?_declared ht).2.2
  edges _ he := TransitionSystem.lt_of_mem_edges he

end Automaton

end Acceptor
