/-
  Automata that cannot be told apart by their states and transitions.

  1. **Built automata** — `IsBuilt d`: some history of a builder ends in `d`.

  2. **Likeness** — `d.Alike d'`: the same names with the same numbers, the same start, the same
     accepting states, and the same target of each state and symbol.  Alphabets may differ, by
     symbols on which no state has a transition.

  3. **Acceptance** — in a well-formed automaton an input is accepted exactly when its symbols lead
     from the start to an accepting state (`accepts_iff_after?`), so automata that are alike accept
     the same inputs (`Alike.accepts_eq`).
-/
import Acceptor.Builder.WellFormed
import Acceptor.Proofs.Run.Visit

namespace Acceptor

namespace Automaton

variable {d d' : Automaton}

/-! ## Built automata -/

/-- Some history of a builder ends in the automaton. -/
def IsBuilt (d : Automaton) : Prop :=
  ∃ history, (({} : Builder).replay history).2.build = .ok d

theorem IsBuilt.wellFormed (h : d.IsBuilt) :
    d.toTransitionSystem.WellFormed ∧ d.start < d.stateCount := by
  obtain ⟨history, hd⟩ := h
  exact (Builder.wellFormed_empty.replay history).build hd

theorem IsBuilt.alphabet_ne_nil (h : d.IsBuilt) : d.alphabet ≠ [] := by
  obtain ⟨history, hd⟩ := h
  obtain ⟨-, halphabet, -, hsystem⟩ := Builder.build_eq_ok_iff.1 hd
  rwa [hsystem]

/-! ## Likeness -/

/-- The states, the start, the accepting states and the transitions are the same. -/
structure Alike (d d' : Automaton) : Prop where
  names : d.names = d'.names
  start : d.start = d'.start
  accepting : ∀ s, d.isAccepting s = d'.isAccepting s
  next? : ∀ s c, d.next? s c = d'.next? s c

/-- It is enough to look at the states: a number past the last of them is not accepting, and nothing
    leads from there. -/
theorem Alike.of_states (hm : d.toTransitionSystem.WellFormed)
    (hm' : d'.toTransitionSystem.WellFormed) (hnames : d.names = d'.names)
    (hstart : d.start = d'.start)
    (haccepting : ∀ s < d.stateCount, d.isAccepting s = d'.isAccepting s)
    (hnext : ∀ s < d.stateCount, ∀ c, d.next? s c = d'.next? s c) : d.Alike d' := by
  have hcount : d.stateCount = d'.stateCount := congrArg List.length hnames
  refine ⟨hnames, hstart, ?_, ?_⟩
  · intro s
    by_cases hs : s < d.stateCount
    · exact haccepting s hs
    · rw [hm.isAccepting_eq_false hs, hm'.isAccepting_eq_false (hcount ▸ hs)]
  · intro s c
    by_cases hs : s < d.stateCount
    · exact hnext s hs c
    · rw [hm.next?_eq_none hs, hm'.next?_eq_none (hcount ▸ hs)]

/-! ## Acceptance -/

theorem mem_alphabet_of_after? (hm : d.toTransitionSystem.WellFormed) {word : List Char} {s t : Nat}
    (h : d.after? s word = some t) : ∀ c ∈ word, c ∈ d.alphabet := by
  induction word generalizing s with
  | nil => simp
  | cons a word ih =>
    rw [TransitionSystem.after?_cons] at h
    obtain ⟨u, hu, h⟩ := Option.bind_eq_some_iff.1 h
    exact List.forall_mem_cons.2 ⟨(hm.next?_declared hu).2.1, ih h⟩

/-- An input is accepted exactly when its symbols lead from the start to an accepting state. -/
theorem accepts_iff_after? (hm : d.toTransitionSystem.WellFormed) {input : String} :
    d.accepts input = true ↔
      ∃ s, d.after? d.start (symbols input.toList) = some s ∧ d.isAccepting s = true := by
  rw [accepts_eq_true_iff, verdict_run_eq_accepted_iff]
  constructor
  · rintro ⟨-, hlast⟩
    exact hlast
  · rintro ⟨s, hs, hacc⟩
    exact ⟨mem_alphabet_of_after? hm hs, s, hs, hacc⟩

namespace Alike

variable (h : d.Alike d')

include h

theorem acceptingStates_eq : d.acceptingStates = d'.acceptingStates := by
  have hcount : d.stateCount = d'.stateCount := congrArg List.length h.names
  have haccepting : d.isAccepting = d'.isAccepting := funext h.accepting
  rw [TransitionSystem.acceptingStates, TransitionSystem.acceptingStates,
    TransitionSystem.states, TransitionSystem.states, hcount, haccepting]

theorem after?_eq (s : Nat) (word : List Char) : d.after? s word = d'.after? s word := by
  have hnext : d.next? = d'.next? := funext fun s => funext fun c => h.next? s c
  rw [TransitionSystem.after?, TransitionSystem.after?, hnext]

/-- Automata that are alike accept the same inputs. -/
theorem accepts_eq (hm : d.toTransitionSystem.WellFormed) (hm' : d'.toTransitionSystem.WellFormed)
    (input : String) : d.accepts input = d'.accepts input := by
  rw [Bool.eq_iff_iff, accepts_iff_after? hm, accepts_iff_after? hm', h.after?_eq, h.start]
  simp only [h.accepting]

end Alike

end Automaton

end Acceptor
