/-
  The search for unreachable states is right.

  The search keeps two lists, the frontier and the states that it has not met.  Its invariant is
  that no transition leads from a state on neither list to one that was not met (`Explored`); a
  round keeps it, because it takes every target of the frontier from the unmet states.  At the end
  no transition at all leads to a state that is left over, so none of these is reached; and whatever
  was taken on the way is a target of a state that is reached.

  Main results: `mem_reachable_iff` and `mem_unreachable_iff`, in a well-formed system the two lists
  hold exactly the states that a chain of transitions from the start leads to, and exactly the
  others.
-/
import Acceptor.Automaton.Reachability
import Acceptor.Proofs.Automaton.Listing

namespace Acceptor

/-! ## The search -/

namespace TransitionSystem

variable {m : TransitionSystem} {s t : Nat} {c : Char} {frontier unseen : List Nat}

/-- No transition leads from a state on neither list to an unseen one. -/
def Explored (m : TransitionSystem) (frontier unseen : List Nat) : Prop :=
  ∀ s c t, m.next? s c = some t → s ∉ frontier → s ∉ unseen → t ∉ unseen

/-- Each state that is left over has no transition leading to it from any that is not. -/
theorem not_mem_unreached_of_next? (hm : m.WellFormed) (hinv : m.Explored frontier unseen)
    (hnext : m.next? s c = some t) (hs : s ∉ m.unreached frontier unseen) :
    t ∉ m.unreached frontier unseen := by
  -- a transition out of the frontier leads to one of the targets of the round
  have htarget : ∀ {frontier s c t}, m.next? s c = some t → s ∈ frontier →
      t ∈ m.successors frontier := fun hnext hs =>
    mem_successors.2 ⟨_, hs, _, (hm.next?_declared hnext).2.1, hnext⟩
  fun_induction unreached with
  | case1 frontier unseen targets hmore ih =>
    simp only [List.unattach_filter, List.unattach_attach] at ih hs ⊢
    refine ih ?_ hs
    intro p c q hq hp hp' hmem
    obtain ⟨hunseen, hnew⟩ := List.mem_filter.1 hmem
    have hq' : q ∉ targets := by simpa using hnew
    have hpout : p ∉ unseen := by
      intro hin
      by_cases ht : p ∈ targets
      · exact hp (List.mem_filter.2 ⟨hin, by simpa using ht⟩)
      · exact hp' (List.mem_filter.2 ⟨hin, by simpa using ht⟩)
    by_cases hfrontier : p ∈ frontier
    · exact hq' (htarget hq hfrontier)
    · exact hinv p c q hq hfrontier hpout hunseen
  | case2 frontier unseen targets hdone =>
    intro hmem
    by_cases hfrontier : s ∈ frontier
    · apply hdone
      rw [List.any_eq_true]
      exact ⟨t, hmem, by simpa using htarget hnext hfrontier⟩
    · exact hinv s c t hnext hfrontier hs hmem

end TransitionSystem

namespace Automaton

variable {d : Automaton} {s : Nat} {frontier unseen : List Nat}

/-- Each state that is taken is reached, if the frontier is. -/
theorem reaches_of_not_mem_unreached (hfrontier : ∀ p ∈ frontier, d.Reaches p) (hs : s ∈ unseen)
    (hout : s ∉ d.unreached frontier unseen) : d.Reaches s := by
  fun_induction TransitionSystem.unreached with
  | case1 frontier unseen targets hmore ih =>
    simp only [List.unattach_filter, List.unattach_attach] at ih hout
    have hnew : ∀ p ∈ unseen.filter targets.contains, d.Reaches p := by
      intro p hp
      have htarget : p ∈ targets := by simpa using (List.mem_filter.1 hp).2
      obtain ⟨q, hq, c, -, hnext⟩ := TransitionSystem.mem_successors.1 htarget
      exact .step (hfrontier q hq) hnext
    by_cases ht : s ∈ targets
    · exact hnew s (List.mem_filter.2 ⟨hs, by simpa using ht⟩)
    · exact ih hnew (List.mem_filter.2 ⟨hs, by simpa using ht⟩) hout
  | case2 frontier unseen targets hdone => exact absurd hs hout

/-! ## The two lists -/

section Lists

variable (hm : d.toTransitionSystem.WellFormed)

include hm

theorem Reaches.lt (hstart : d.start < d.stateCount) (h : d.Reaches s) : s < d.stateCount := by
  cases h with
  | start => exact hstart
  | step _ hnext => exact (hm.next?_declared hnext).2.2

/-- No state that the search leaves over is reached.  Induction on the chain of transitions. -/
theorem not_mem_unreachable_of_reaches (h : d.Reaches s) : s ∉ d.unreachable := by
  have hexplored : d.Explored [d.start] (d.states.filter (· ≠ d.start)) := by
    intro p c q hnext hp hp' _
    have hplt : p < d.stateCount := (hm.next?_declared hnext).1
    apply hp'
    rw [List.mem_filter]
    exact ⟨TransitionSystem.mem_states.2 hplt, by simpa using hp⟩
  induction h with
  | start =>
    intro hmem
    have hunmet := TransitionSystem.mem_of_mem_unreached hmem
    simpa using (List.mem_filter.1 hunmet).2
  | step _ hnext ih => exact TransitionSystem.not_mem_unreached_of_next? hm hexplored hnext ih

/-- The unreachable states are those to which no chain of transitions leads. -/
theorem mem_unreachable_iff : s ∈ d.unreachable ↔ s < d.stateCount ∧ ¬ d.Reaches s := by
  constructor
  · intro h
    exact ⟨lt_of_mem_unreachable h, fun hreaches => not_mem_unreachable_of_reaches hm hreaches h⟩
  · rintro ⟨hlt, hnot⟩
    have hne : s ≠ d.start := fun hs => hnot (hs ▸ .start)
    have hunmet : s ∈ d.states.filter (· ≠ d.start) :=
      List.mem_filter.2 ⟨TransitionSystem.mem_states.2 hlt, by simpa using hne⟩
    have hfrontier : ∀ p ∈ [d.start], d.Reaches p := by
      intro p hp
      rw [List.mem_singleton.1 hp]
      exact .start
    by_cases hout : s ∈ d.unreachable
    · exact hout
    · exact absurd (reaches_of_not_mem_unreached hfrontier hunmet hout) hnot

/-- The reachable states are those to which a chain of transitions leads. -/
theorem mem_reachable_iff (hstart : d.start < d.stateCount) :
    s ∈ d.reachable ↔ d.Reaches s := by
  rw [mem_reachable, mem_unreachable_iff hm]
  constructor
  · rintro ⟨hlt, hnot⟩
    by_cases hreaches : d.Reaches s
    · exact hreaches
    · exact absurd ⟨hlt, hreaches⟩ hnot
  · intro h
    exact ⟨h.lt hm hstart, fun hnot => hnot.2 h⟩

end Lists

end Automaton

end Acceptor
