/-
  The run is the run of the textbook.

  Take from the input its symbols `w`, and follow `w` from the start as far as that is possible.
  `IsTextbookRun d input k r` says that `r` is the account of this, where `k` is how far one gets:

  * the path is the start and one entry for each of the first `k` symbols;
  * if that is all of `w`, the run is completed, and the last state decides;
  * otherwise the input is rejected, and the halt names the symbol that could not be followed and
    the place where it stands in the input, every character counted.

  Main result: `run_isTextbookRun`.  The loop behind `run` is gone after `follow_eq_walk`, so each
  part is a fact about a walk.
-/
import Acceptor.Proofs.Run.Walk

namespace Acceptor

/-! ## The account that a textbook gives -/

/-- The run of an automaton on an input, of whose symbols the first `k` can be followed. -/
structure Automaton.IsTextbookRun (d : Automaton) (input : List Char) (k : Nat) (r : Run) :
    Prop where
  /-- No more than `k` symbols can be followed. -/
  longest :
    IsGreatest {j | j ≤ (symbols input).length ∧ d.Admits d.start ((symbols input).take j)} k
  /-- The path holds the start and one entry for each of the `k` symbols: the state after it and
      the symbol itself. -/
  path : ∃ entries, r.path = (d.start, none) :: entries ∧ entries.length = k ∧
    ∀ i < k, ∃ s c, entries[i]? = some (s, some c) ∧ (symbols input)[i]? = some c ∧
      d.after? d.start ((symbols input).take (i + 1)) = some s
  /-- The run ends in the last state of the path. -/
  last : r.path.getLast?.map (·.1) = some r.last
  /-- When every symbol was followed, the last state decides. -/
  completed : k = (symbols input).length →
    r.halt = .completed ∧ (r.verdict = .accepted ↔ d.isAccepting r.last = true)
  /-- When a symbol is left over, the halt names the first such and its position: the symbols in
      front of that position are the ones that were followed. -/
  stopped : k < (symbols input).length →
    r.verdict = .rejected ∧
      ∃ c position, (symbols input)[k]? = some c ∧ input[position]? = some c ∧
        symbols (input.take position) = (symbols input).take k ∧
        (d.hasSymbol c = false → r.halt = .unknownSymbol position c) ∧
        (d.hasSymbol c = true → r.halt = .noTransition position r.last c)

/-! ## The parts of a run -/

namespace Automaton

variable {d : Automaton} {input : String}

theorem verdict_run (d : Automaton) (input : String) :
    (d.run input).verdict = d.verdict (d.run input).last (d.run input).halt := rfl

/-- There are as many steps as symbols that can be followed. -/
theorem isGreatest_length_steps (d : Automaton) (input : String) :
    IsGreatest {j | j ≤ (symbols input.toList).length ∧
      d.Admits d.start ((symbols input.toList).take j)} (d.run input).steps.length := by
  rw [d.steps_run, ← map_fst_symbolsFrom 0]
  exact d.isGreatest_length_walk d.start _

/-- A step is on the symbol in its place, and leads to the state after the symbols up to there. -/
theorem step_run {i s : Nat} {c : Char} (h : (d.run input).steps[i]? = some (c, s)) :
    (symbols input.toList)[i]? = some c ∧
      d.after? d.start ((symbols input.toList).take (i + 1)) = some s := by
  rw [d.steps_run] at h
  rw [← map_fst_symbolsFrom 0]
  exact TransitionSystem.walk_step h

/-- A run that followed every symbol was completed. -/
theorem halt_of_length_eq (h : (d.run input).steps.length = (symbols input.toList).length) :
    (d.run input).halt = .completed := by
  rw [d.halt_run]
  apply TransitionSystem.walk_completed
  rw [← d.steps_run, h, ← map_fst_symbolsFrom 0, List.length_map]

/-- A run that left symbols over names the first of them, and the place where it stands. -/
theorem halt_of_length_lt (h : (d.run input).steps.length < (symbols input.toList).length) :
    ∃ c position, (symbols input.toList)[(d.run input).steps.length]? = some c ∧
      input.toList[position]? = some c ∧
        symbols (input.toList.take position) =
          (symbols input.toList).take (d.run input).steps.length ∧
        (d.hasSymbol c = false → (d.run input).halt = .unknownSymbol position c) ∧
        (d.hasSymbol c = true →
          (d.run input).halt = .noTransition position (d.run input).last c) := by
  rw [← map_fst_symbolsFrom 0, List.length_map] at h
  obtain ⟨⟨c, position⟩, hnext⟩ :
      ∃ x, (symbolsFrom 0 input.toList)[(d.run input).steps.length]? = some x :=
    ⟨_, List.getElem?_eq_getElem h⟩
  -- the positions of an input count from zero
  obtain ⟨n, hn, hc, hbefore⟩ := position_of_symbolsFrom hnext
  obtain rfl : position = n := by omega
  have hsymbol : (symbols input.toList)[(d.run input).steps.length]? = some c := by
    rw [← map_fst_symbolsFrom 0, List.getElem?_map, hnext]
    rfl
  have hstopped := TransitionSystem.walk_stopped (m := d.toTransitionSystem) (s := d.start)
    (by rw [← d.steps_run]; exact hnext)
  rw [← d.halt_run, ← d.steps_run, ← d.last_run, ← TransitionSystem.hasSymbol_iff,
    Bool.not_eq_true] at hstopped
  obtain ⟨hunknown, hunbound⟩ := hstopped
  exact ⟨c, position, hsymbol, hc, hbefore, hunknown, hunbound⟩

/-! The verdict depends on the halt and on the last state. -/

/-- A run is accepted exactly when it was completed in an accepting state. -/
theorem verdict_eq_accepted_iff {s : Nat} {halt : Halt} :
    d.verdict s halt = .accepted ↔ halt = .completed ∧ d.isAccepting s = true := by
  cases halt with
  | completed => cases h : d.isAccepting s <;> simp [verdict, Verdict.ofBool, h]
  | unknownSymbol position c => simp [verdict]
  | noTransition position s c => simp [verdict]

theorem verdict_eq_rejected_of_ne {s : Nat} {halt : Halt} (h : halt ≠ .completed) :
    d.verdict s halt = .rejected := by
  cases halt with
  | completed => exact absurd rfl h
  | unknownSymbol position c => rfl
  | noTransition position s c => rfl

end Automaton

/-! ## The main result -/

/-- **The run is the run of the textbook**, for every automaton and every input. -/
theorem run_isTextbookRun (d : Automaton) (input : String) :
    ∃ k, d.IsTextbookRun input.toList k (d.run input) := by
  -- the number of steps is how far one gets
  refine ⟨(d.run input).steps.length, ?_, ?_, Run.getLast?_path _, ?_, ?_⟩
  · exact d.isGreatest_length_steps input
  · refine ⟨(d.run input).steps.map fun x => (x.2, some x.1), rfl, List.length_map _, ?_⟩
    intro i hi
    obtain ⟨⟨c, s⟩, hcs⟩ : ∃ x, (d.run input).steps[i]? = some x :=
      ⟨_, List.getElem?_eq_getElem hi⟩
    obtain ⟨hc, hs⟩ := Automaton.step_run hcs
    refine ⟨s, c, ?_, hc, hs⟩
    rw [List.getElem?_map, hcs]
    rfl
  · intro hk
    have hdone := Automaton.halt_of_length_eq hk
    refine ⟨hdone, ?_⟩
    rw [d.verdict_run, Automaton.verdict_eq_accepted_iff]
    exact and_iff_right hdone
  · intro hk
    obtain ⟨c, position, hsymbol, hc, hbefore, hunknown, hunbound⟩ :=
      Automaton.halt_of_length_lt hk
    refine ⟨?_, c, position, hsymbol, hc, hbefore, hunknown, hunbound⟩
    rw [d.verdict_run]
    apply Automaton.verdict_eq_rejected_of_ne
    -- whether the symbol is in the alphabet or not, the halt is not the completed one
    intro hdone
    cases hb : d.hasSymbol c with
    | false => simp [hunknown hb] at hdone
    | true => simp [hunbound hb] at hdone

end Acceptor
