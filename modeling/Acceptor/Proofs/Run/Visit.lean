/-
  Where the runs of an automaton can go.

  1. **Words** — a state that is reached is the state after some word of the alphabet
     (`exists_word_of_reaches`), and a walk is completed exactly when its word can be followed to
     the end (`walk_completed_iff`).

  2. **Visits** — `r.Visits s`: the state is on the path of the run.  What a run visits is reached,
     for each of its steps is a transition.

  3. **Inputs** — a word without blanks is an input, and its symbols are all of it.  So where no
     symbol is blank, every reached state is the end of a completed run
     (`exists_completed_iff_reaches`).  A blank symbol would be passed over by every run, and the
     states behind it would be out of reach of the runs.

  4. **Verdicts** — an input is accepted exactly when its symbols lead to an accepting state
     (`verdict_run_eq_accepted_iff`).
-/
import Acceptor.Proofs.Automaton.Reachability
import Acceptor.Proofs.Run.Textbook

namespace Acceptor

/-! ## Words -/

namespace TransitionSystem

variable {m : TransitionSystem} {s t : Nat} {c : Char}

theorem after?_concat {word : List Char} (h : m.after? s word = some t) (c : Char) :
    m.after? s (word ++ [c]) = m.next? t c := by
  induction word generalizing s with
  | nil =>
    cases h
    rw [List.nil_append, after?_cons]
    exact Option.bind_fun_some _
  | cons a word ih =>
    rw [after?_cons] at h
    obtain ⟨u, hu, h⟩ := Option.bind_eq_some_iff.1 h
    rw [List.cons_append, after?_cons, hu]
    exact ih h

/-- A walk is completed exactly when its word can be followed to the end, and then it ends in the
    state after the word. -/
theorem walk_completed_iff {xs : List (Char × Nat)} :
    (m.walk s xs).2 = .completed ∧ Run.lastOf s (m.walk s xs).1 = t ↔
      (∀ c ∈ xs.map (·.1), c ∈ m.alphabet) ∧ m.after? s (xs.map (·.1)) = some t := by
  induction s, xs using m.walk_induction with
  | nil s => simp [walk, Run.lastOf]
  | unknown s c position rest hc => simp [walk_unknown hc, hc]
  | unbound s c position rest hc hu => simp [walk_unbound hc hu, hu]
  | bound s c position rest u hc hu ih =>
    rw [walk_bound hc hu, Run.lastOf_cons, List.map_cons, List.forall_mem_cons, after?_cons, hu,
      and_iff_right hc]
    exact ih

end TransitionSystem

namespace Automaton

variable {d : Automaton} {s t : Nat} {c : Char} {input : String}

/-- A chain of transitions spells a word of the alphabet. -/
theorem exists_word_of_reaches (hm : d.toTransitionSystem.WellFormed) (h : d.Reaches s) :
    ∃ word, (∀ c ∈ word, c ∈ d.alphabet) ∧ d.after? d.start word = some s := by
  induction h with
  | start => exact ⟨[], by simp, rfl⟩
  | @step s t c _ hnext ih =>
    obtain ⟨word, hword, hs⟩ := ih
    refine ⟨word ++ [c], ?_, ?_⟩
    · intro x hx
      rcases List.mem_append.1 hx with hx | hx
      · exact hword x hx
      · rw [List.mem_singleton.1 hx]
        exact (hm.next?_declared hnext).2.1
    · rw [TransitionSystem.after?_concat hs, hnext]

end Automaton

/-! ## Visits -/

/-- A state is on the path of a run. -/
def Run.Visits (r : Run) (s : Nat) : Prop := ∃ symbol, (s, symbol) ∈ r.path

/-- A run visits the state in which it stops. -/
theorem Run.visits_last (r : Run) : r.Visits r.last := by
  obtain ⟨⟨s, symbol⟩, hentry, hlast⟩ := Option.map_eq_some_iff.1 r.getLast?_path
  exact ⟨symbol, hlast ▸ List.mem_of_getLast? hentry⟩

namespace Automaton

variable {d : Automaton} {s t : Nat} {c : Char} {input : String}

/-- A walk from a reached state leads to reached states. -/
theorem reaches_of_mem_walk {xs : List (Char × Nat)} (hs : d.Reaches s)
    (h : (c, t) ∈ (d.walk s xs).1) : d.Reaches t := by
  induction s, xs using d.walk_induction with
  | nil s => cases h
  | unknown s a position rest ha =>
    rw [TransitionSystem.walk_unknown ha] at h
    cases h
  | unbound s a position rest ha hu =>
    rw [TransitionSystem.walk_unbound ha hu] at h
    cases h
  | bound s a position rest u ha hu ih =>
    rw [TransitionSystem.walk_bound ha hu] at h
    have hu' : d.Reaches u := .step hs hu
    rcases List.mem_cons.1 h with heq | h
    · cases heq
      exact hu'
    · exact ih hu' h

/-- What a run visits is reached. -/
theorem reaches_of_visits (h : (d.run input).Visits s) : d.Reaches s := by
  obtain ⟨symbol, hentry⟩ := h
  rcases List.mem_cons.1 hentry with heq | hentry
  · cases heq
    exact .start
  · obtain ⟨⟨c, t⟩, hstep, heq⟩ := List.mem_map.1 hentry
    cases heq
    rw [d.steps_run] at hstep
    exact reaches_of_mem_walk .start hstep

end Automaton

/-! ## Inputs -/

theorem isBlank_of_endsInput {c : Char} (h : endsInput c = true) : Text.isBlank c = true := by
  rcases Bool.or_eq_true_iff.1 h with h | h
  · rw [eq_of_beq h]
    decide
  · rw [eq_of_beq h]
    decide

/-- Without blanks, all characters are symbols. -/
theorem symbols_eq_self {word : List Char} (h : ∀ c ∈ word, Text.isBlank c = false) :
    symbols word = word := by
  induction word with
  | nil => rfl
  | cons c word ih =>
    rw [List.forall_mem_cons] at h
    have hend : endsInput c ≠ true := by
      intro hend
      rw [isBlank_of_endsInput hend] at h
      cases h.1
    rw [symbols_cons, if_neg hend, if_neg (by rw [h.1]; exact Bool.false_ne_true), ih h.2]

namespace Automaton

variable {d : Automaton} {s : Nat}

/-- A run is completed in a state exactly when the symbols of the input lead there. -/
theorem run_completed_iff {input : String} :
    (d.run input).halt = .completed ∧ (d.run input).last = s ↔
      (∀ c ∈ symbols input.toList, c ∈ d.alphabet) ∧
        d.after? d.start (symbols input.toList) = some s := by
  rw [d.halt_run, d.last_run, d.steps_run, TransitionSystem.walk_completed_iff,
    map_fst_symbolsFrom]

section Inputs

variable (hm : d.toTransitionSystem.WellFormed)
  (hsymbols : ∀ c ∈ d.alphabet, Text.isBlank c = false)

include hm hsymbols

/-- Where no symbol is blank, a state is reached exactly when some run is completed in it. -/
theorem exists_completed_iff_reaches :
    (∃ input, (d.run input).halt = .completed ∧ (d.run input).last = s) ↔ d.Reaches s := by
  constructor
  · rintro ⟨input, -, rfl⟩
    exact reaches_of_visits (Run.visits_last _)
  · intro h
    obtain ⟨word, hword, hs⟩ := exists_word_of_reaches hm h
    have hself : symbols (String.ofList word).toList = word := by
      rw [String.toList_ofList]
      exact symbols_eq_self fun c hc => hsymbols c (hword c hc)
    exact ⟨String.ofList word, run_completed_iff.2 (by rw [hself]; exact ⟨hword, hs⟩)⟩

/-- Nor is there a difference between the states that runs visit and those in which they are
    completed. -/
theorem exists_visits_iff_reaches : (∃ input, (d.run input).Visits s) ↔ d.Reaches s := by
  constructor
  · rintro ⟨input, h⟩
    exact reaches_of_visits h
  · intro h
    obtain ⟨input, -, hlast⟩ := (exists_completed_iff_reaches hm hsymbols).2 h
    exact ⟨input, hlast ▸ Run.visits_last _⟩

end Inputs

/-! ## Verdicts -/

theorem accepts_eq_true_iff {input : String} :
    d.accepts input = true ↔ (d.run input).verdict = .accepted := by
  rw [accepts]
  cases (d.run input).verdict <;> simp [Verdict.isAccepted]

/-- An input is accepted exactly when its run is completed in an accepting state. -/
theorem accepts_iff {input : String} :
    d.accepts input = true ↔
      (d.run input).halt = .completed ∧ d.isAccepting (d.run input).last = true := by
  rw [accepts_eq_true_iff, d.verdict_run, verdict_eq_accepted_iff]

/-- An input is accepted exactly when its symbols are in the alphabet and lead from the start to an
    accepting state. -/
theorem verdict_run_eq_accepted_iff {input : String} :
    (d.run input).verdict = .accepted ↔
      (∀ c ∈ symbols input.toList, c ∈ d.alphabet) ∧
        ∃ s, d.after? d.start (symbols input.toList) = some s ∧ d.isAccepting s = true := by
  rw [d.verdict_run, verdict_eq_accepted_iff]
  constructor
  · rintro ⟨hhalt, hacc⟩
    obtain ⟨hknown, hs⟩ := run_completed_iff.1 ⟨hhalt, rfl⟩
    exact ⟨hknown, _, hs, hacc⟩
  · rintro ⟨hknown, s, hs, hacc⟩
    obtain ⟨hhalt, rfl⟩ := run_completed_iff.2 ⟨hknown, hs⟩
    exact ⟨hhalt, hacc⟩

end Automaton

end Acceptor
