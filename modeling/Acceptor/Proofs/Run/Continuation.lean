/-
  Runs on longer inputs.

  Suppose that more is written behind an input.  What was followed before is followed again, for a
  run looks at its input from the front.  Whether it then goes on depends on how it ended.

  1. **Symbols** — behind characters that do not end the input, its symbols go on, at later
     positions (`symbolsFrom_append`); a line end shuts off whatever is written behind it.

  2. **Walks** — a walk that was completed goes on from its last state (`walk_append`), one that was
     stopped does not; and positions play no part but in the halt (`walk_later`).

  3. **Runs** — `Continues d u v`: the run on `u` against the run on `u ++ v`.  Main result:
     `run_continues`.
-/
import Acceptor.Proofs.Run.Walk

namespace Acceptor

/-! ## Symbols -/

section Symbols

variable {before : List Char}

theorem symbolsFrom_append (h : ∀ c ∈ before, endsInput c = false) (position : Nat)
    (rest : List Char) :
    symbolsFrom position (before ++ rest) =
      symbolsFrom position before ++ symbolsFrom (position + before.length) rest := by
  induction before generalizing position with
  | nil => rfl
  | cons c before ih =>
    rw [List.forall_mem_cons] at h
    have hend : endsInput c ≠ true := by rw [h.1]; exact Bool.false_ne_true
    have hlength : position + (c :: before).length = position + 1 + before.length := by
      rw [List.length_cons]
      omega
    rw [List.cons_append, symbolsFrom_cons, symbolsFrom_cons, if_neg hend, if_neg hend,
      ih h.2 (position + 1), hlength]
    split
    · rfl
    · rw [List.cons_append]

/-- Behind a character that ends the input nothing counts. -/
theorem symbolsFrom_append_of_endsInput {c : Char} (hc : c ∈ before) (hend : endsInput c = true)
    (position : Nat) (rest : List Char) :
    symbolsFrom position (before ++ rest) = symbolsFrom position before := by
  induction before generalizing position with
  | nil => cases hc
  | cons a before ih =>
    rw [List.cons_append, symbolsFrom_cons, symbolsFrom_cons]
    split
    · rfl
    · rename_i ha
      have hmem : c ∈ before := by
        rcases List.mem_cons.1 hc with rfl | hc
        · exact absurd hend ha
        · exact hc
      rw [ih hmem (position + 1)]

/-- An input that begins at a later position has its symbols there. -/
theorem symbolsFrom_add (position n : Nat) (input : List Char) :
    symbolsFrom (position + n) input =
      (symbolsFrom position input).map fun (c, p) => (c, p + n) := by
  induction input generalizing position with
  | nil => rfl
  | cons c rest ih =>
    have hnext : position + n + 1 = position + 1 + n := by omega
    rw [symbolsFrom_cons, symbolsFrom_cons, hnext, ih (position + 1)]
    split
    · rfl
    · split
      · rfl
      · rfl

end Symbols

/-! ## Walks -/

/-- The same halt, so many positions later. -/
def Halt.later (n : Nat) : Halt → Halt
  | .completed => .completed
  | .unknownSymbol position c => .unknownSymbol (position + n) c
  | .noTransition position s c => .noTransition (position + n) s c

/-- Further steps go on where the first ones ended. -/
theorem Run.lastOf_append (s : Nat) (steps more : List (Char × Nat)) :
    lastOf s (steps ++ more) = lastOf (lastOf s steps) more := by
  induction steps generalizing s with
  | nil => rfl
  | cons step steps ih =>
    obtain ⟨c, t⟩ := step
    rw [List.cons_append, lastOf_cons, lastOf_cons, ih]

namespace TransitionSystem

variable {m : TransitionSystem} {s : Nat} {xs : List (Char × Nat)}

theorem walk_append (h : (m.walk s xs).2 = .completed) (ys : List (Char × Nat)) :
    m.walk s (xs ++ ys) =
      ((m.walk s xs).1 ++ (m.walk (Run.lastOf s (m.walk s xs).1) ys).1,
        (m.walk (Run.lastOf s (m.walk s xs).1) ys).2) := by
  induction s, xs using m.walk_induction with
  | nil s => rfl
  | unknown s c position rest hc => simp [walk_unknown hc] at h
  | unbound s c position rest hc hu => simp [walk_unbound hc hu] at h
  | bound s c position rest t hc ht ih =>
    rw [walk_bound hc ht] at h
    rw [List.cons_append, walk_bound hc ht, walk_bound hc ht, ih h, Run.lastOf_cons,
      List.cons_append]

/-- A walk that was stopped does not go on. -/
theorem walk_append_of_stopped (h : (m.walk s xs).2 ≠ .completed) (ys : List (Char × Nat)) :
    m.walk s (xs ++ ys) = m.walk s xs := by
  induction s, xs using m.walk_induction with
  | nil s => exact absurd rfl h
  | unknown s c position rest hc => rw [List.cons_append, walk_unknown hc, walk_unknown hc]
  | unbound s c position rest hc hu =>
    rw [List.cons_append, walk_unbound hc hu, walk_unbound hc hu]
  | bound s c position rest t hc ht ih =>
    rw [walk_bound hc ht] at h
    rw [List.cons_append, walk_bound hc ht, walk_bound hc ht, ih h]

/-- The same symbols at later positions are followed in the same way. -/
theorem walk_later (m : TransitionSystem) (n s : Nat) (xs : List (Char × Nat)) :
    m.walk s (xs.map fun (c, p) => (c, p + n)) = ((m.walk s xs).1, (m.walk s xs).2.later n) := by
  induction s, xs using m.walk_induction with
  | nil s => rfl
  | unknown s c position rest hc =>
    rw [List.map_cons, walk_unknown hc, walk_unknown hc]
    rfl
  | unbound s c position rest hc hu =>
    rw [List.map_cons, walk_unbound hc hu, walk_unbound hc hu]
    rfl
  | bound s c position rest t hc ht ih =>
    rw [List.map_cons, walk_bound hc ht, walk_bound hc ht, ih]

end TransitionSystem

/-! ## Runs -/

namespace Automaton

variable {d : Automaton}

/-- The same automaton with another start. -/
def startedIn (d : Automaton) (s : Nat) : Automaton := { d with start := s }

theorem verdict_later (d : Automaton) (n s : Nat) (halt : Halt) :
    d.verdict s (halt.later n) = d.verdict s halt := by
  cases halt <;> rfl

/-- What becomes of the run on an input when more is written behind it. -/
structure Continues (d : Automaton) (u v : String) : Prop where
  /-- When the run was stopped or the input was ended by a line end, it stays as it is. -/
  ended : (d.run u).halt ≠ .completed ∨ '\n' ∈ u.toList ∨ '\r' ∈ u.toList →
    d.run (u ++ v) = d.run u
  /-- Otherwise what was written behind is followed from the last state, and decides on the halt and
      the verdict. -/
  onward : (d.run u).halt = .completed → '\n' ∉ u.toList → '\r' ∉ u.toList →
    (d.run (u ++ v)).path =
        (d.run u).path ++ ((d.startedIn (d.run u).last).run v).path.tail ∧
      (d.run (u ++ v)).verdict = ((d.startedIn (d.run u).last).run v).verdict ∧
        (d.run (u ++ v)).halt = ((d.startedIn (d.run u).last).run v).halt.later u.length
  /-- In any case the path begins as before. -/
  path : (d.run u).path <+: (d.run (u ++ v)).path

/-- A run stays as it is when its walk does. -/
theorem run_append_of_ended {u v : String}
    (h : (d.run u).halt ≠ .completed ∨ '\n' ∈ u.toList ∨ '\r' ∈ u.toList) :
    d.run (u ++ v) = d.run u := by
  rw [d.run_eq_runOf, d.run_eq_runOf, String.toList_append]
  by_cases hend : ∃ c ∈ u.toList, endsInput c = true
  · obtain ⟨c, hc, hends⟩ := hend
    rw [symbolsFrom_append_of_endsInput hc hends]
  · -- without a line end it was stopped, and the symbols behind are not looked at
    have hopen : ∀ c ∈ u.toList, endsInput c = false := fun c hc =>
      Bool.eq_false_iff.2 fun hends => hend ⟨c, hc, hends⟩
    have hstopped : (d.run u).halt ≠ .completed := by
      rcases h with h | h | h
      · exact h
      · exact absurd ⟨_, h, rfl⟩ hend
      · exact absurd ⟨_, h, rfl⟩ hend
    rw [d.halt_run] at hstopped
    rw [symbolsFrom_append hopen, TransitionSystem.walk_append_of_stopped hstopped]

/-- A completed run goes on from its last state. -/
theorem run_append_of_completed {u : String} (hdone : (d.run u).halt = .completed)
    (hopen : ∀ c ∈ u.toList, endsInput c = false) (v : String) :
    d.run (u ++ v) =
      { start := d.start
        steps := (d.run u).steps ++ ((d.startedIn (d.run u).last).run v).steps
        halt := ((d.startedIn (d.run u).last).run v).halt.later u.length
        verdict := ((d.startedIn (d.run u).last).run v).verdict } := by
  have hsymbols : symbolsFrom 0 (u ++ v).toList =
      symbolsFrom 0 u.toList ++ (symbolsFrom 0 v.toList).map fun (c, p) => (c, p + u.length) := by
    rw [String.toList_append, symbolsFrom_append hopen, symbolsFrom_add, String.length_toList]
  have hlast : (d.run u).last = Run.lastOf d.start (d.walk d.start (symbolsFrom 0 u.toList)).1 := by
    rw [d.last_run, d.steps_run]
  rw [d.halt_run] at hdone
  rw [d.run_eq_runOf (u ++ v), hsymbols, TransitionSystem.walk_append hdone,
    TransitionSystem.walk_later, hlast, d.steps_run, run_eq_runOf (d.startedIn _)]
  simp only [runOf, startedIn, verdict_later, Run.lastOf_append]
  rfl

/-- **A longer input continues the run**, for all automata and all inputs. -/
theorem run_continues (d : Automaton) (u v : String) : d.Continues u v := by
  have honward : (d.run u).halt = .completed → '\n' ∉ u.toList → '\r' ∉ u.toList →
      d.run (u ++ v) = _ := fun hdone hn hr =>
    run_append_of_completed hdone (endsInput_eq_false hn hr) v
  refine ⟨run_append_of_ended, ?_, ?_⟩
  · intro hdone hn hr
    rw [honward hdone hn hr]
    exact ⟨by simp [Run.path], rfl, rfl⟩
  · by_cases hended : (d.run u).halt ≠ .completed ∨ '\n' ∈ u.toList ∨ '\r' ∈ u.toList
    · exact ⟨[], by rw [List.append_nil, run_append_of_ended hended]⟩
    · rw [not_or, not_or, Classical.not_not] at hended
      obtain ⟨hdone, hn, hr⟩ := hended
      rw [honward hdone hn hr]
      exact ⟨((d.startedIn (d.run u).last).run v).steps.map fun (c, s) => (s, some c),
        by simp [Run.path]⟩

end Automaton

end Acceptor
