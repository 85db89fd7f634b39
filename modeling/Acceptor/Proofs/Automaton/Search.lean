/-
  The search with a queue, and what a search finds.

  The lists of reachable and unreachable states are made level by level.  The usual search keeps a
  queue: it takes a state from the front and puts every target that it meets for the first time at
  the end.  Cycles, loops and parallel edges bring it back to states that it has met, and these do
  not enter the queue again.

  1. **The queue** — `Search`: the states met and those of them that wait; `turn?` takes one of
     these, and there is no turn when none waits.

  2. **The invariant** — `Invariant d taken w`: the search has met the states that it took and those
     that wait, all of them once and all of them reached, and every target of a state that it took.
     One turn keeps it (`Invariant.turn?`).

  3. **The end** — a state is taken once, and there are finitely many; so a search ends
     (`Invariant.exists_end`), and what it has met by then is closed under transitions.

  4. **Chains and closed sets** — to be reached is to be at the end of a word, and to be in every
     closed set that holds the start.

  Main result: `finds_of_isBuilt`.
-/
import Acceptor.Proofs.Automaton.Alike
import Mathlib.Data.List.Perm.Subperm

namespace Acceptor

/-! ## The queue -/

/-- A search under way. -/
structure Search where
  /-- The states met so far, in the order in which they were met. -/
  met : List Nat
  /-- Those of them that still wait to be taken. -/
  queue : List Nat

namespace Search

/-- A search that has met one state. -/
def beginAt (s : Nat) : Search := ⟨[s], [s]⟩

/-- Meets a state, which waits at the end of the queue if it was not met before. -/
def meet (w : Search) (t : Nat) : Search :=
  if t ∈ w.met then w else { met := w.met ++ [t], queue := w.queue ++ [t] }

/-- Takes the first state that waits, and meets its targets in the order of the alphabet. -/
def turn? (m : TransitionSystem) (w : Search) : Option Search :=
  match w.queue with
  | [] => none
  | s :: rest => some (((m.row s).map (·.2)).foldl meet { w with queue := rest })

/-- So many turns, if there are so many. -/
def turns? (m : TransitionSystem) : Nat → Search → Option Search
  | 0, w => some w
  | n + 1, w => (w.turn? m).bind (turns? m n)

/-- What is met for the first time is added to both lists, and all that is met is on the first. -/
theorem foldl_meet (w : Search) (targets : List Nat) :
    ∃ new, targets.foldl meet w = ⟨w.met ++ new, w.queue ++ new⟩ ∧
      (w.met.Nodup → (w.met ++ new).Nodup) ∧ (∀ t ∈ new, t ∈ targets) ∧
        ∀ t ∈ targets, t ∈ w.met ++ new := by
  induction targets generalizing w with
  | nil => exact ⟨[], by simp, by simp, by simp, by simp⟩
  | cons t targets ih =>
    rw [List.foldl_cons]
    obtain ⟨new, heq, hnodup, hnew, hall⟩ := ih (w.meet t)
    by_cases ht : t ∈ w.met
    · have hmeet : w.meet t = w := if_pos ht
      rw [hmeet] at heq hnodup hall ⊢
      refine ⟨new, heq, hnodup, fun u hu => List.mem_cons_of_mem t (hnew u hu), ?_⟩
      rw [List.forall_mem_cons]
      exact ⟨List.mem_append_left new ht, hall⟩
    · have hmeet : w.meet t = ⟨w.met ++ [t], w.queue ++ [t]⟩ := if_neg ht
      rw [hmeet] at heq hnodup hall ⊢
      simp only [List.append_assoc, List.singleton_append] at heq hnodup hall
      refine ⟨t :: new, heq, ?_, ?_, ?_⟩
      · intro hmet
        refine hnodup (List.nodup_append.2 ⟨hmet, by simp, ?_⟩)
        intro a ha b hb hab
        rw [List.mem_singleton.1 hb] at hab
        exact ht (hab ▸ ha)
      · rw [List.forall_mem_cons]
        exact ⟨List.mem_cons_self, fun u hu => List.mem_cons_of_mem t (hnew u hu)⟩
      · rw [List.forall_mem_cons]
        exact ⟨List.mem_append_right _ List.mem_cons_self, hall⟩

/-! ## The invariant -/

/-- What a search keeps true of the states that it took and of all that it has met. -/
structure Invariant (d : Automaton) (taken : List Nat) (w : Search) : Prop where
  /-- What was met was taken or waits. -/
  met_eq : w.met = taken ++ w.queue
  /-- Nothing is met twice. -/
  nodup : w.met.Nodup
  start_mem : d.start ∈ w.met
  reaches : ∀ s ∈ w.met, d.Reaches s
  /-- Nothing is left out behind a state that was taken. -/
  next?_mem : ∀ s ∈ taken, ∀ c t, d.next? s c = some t → t ∈ w.met

namespace Invariant

variable {d : Automaton} {taken rest : List Nat} {w : Search} {s : Nat}

theorem beginAt (d : Automaton) : Invariant d [] (beginAt d.start) where
  met_eq := rfl
  nodup := List.pairwise_singleton _ d.start
  start_mem := List.mem_singleton_self d.start
  reaches s hs := by
    rw [List.mem_singleton.1 hs]
    exact .start
  next?_mem := by simp

/-- A turn keeps the invariant: one more state was taken. -/
theorem turn? (hm : d.toTransitionSystem.WellFormed) (h : Invariant d taken w)
    (hqueue : w.queue = s :: rest) :
    ∃ w', w.turn? d.toTransitionSystem = some w' ∧ Invariant d (taken ++ [s]) w' := by
  obtain ⟨new, heq, hnodup, hnew, hall⟩ :=
    foldl_meet { w with queue := rest } ((d.row s).map (·.2))
  have hs : d.Reaches s := by
    apply h.reaches
    rw [h.met_eq, hqueue]
    exact List.mem_append_right taken List.mem_cons_self
  -- the states met in this turn are the targets of `s`
  have htarget : ∀ t, t ∈ (d.row s).map (·.2) ↔ ∃ c, d.next? s c = some t := by
    intro t
    rw [List.mem_map]
    constructor
    · rintro ⟨⟨c, u⟩, hrow, rfl⟩
      exact ⟨c, (TransitionSystem.mem_row.1 hrow).2⟩
    · rintro ⟨c, hnext⟩
      exact ⟨(c, t), TransitionSystem.mem_row.2 ⟨(hm.next?_declared hnext).2.1, hnext⟩, rfl⟩
  refine ⟨⟨w.met ++ new, rest ++ new⟩, ?_, ?_, hnodup h.nodup, ?_, ?_, ?_⟩
  · rw [Search.turn?, hqueue]
    exact congrArg some heq
  · rw [h.met_eq, hqueue]
    simp
  · exact List.mem_append_left new h.start_mem
  · intro t ht
    rcases List.mem_append.1 ht with ht | ht
    · exact h.reaches t ht
    · obtain ⟨c, hnext⟩ := (htarget t).1 (hnew t ht)
      exact .step hs hnext
  · intro p hp c t hnext
    rcases List.mem_append.1 hp with hp | hp
    · exact List.mem_append_left new (h.next?_mem p hp c t hnext)
    · rw [List.mem_singleton.1 hp] at hnext
      exact hall t ((htarget t).2 ⟨c, hnext⟩)

/-! ## The end -/

section End

variable (hm : d.toTransitionSystem.WellFormed) (hstart : d.start < d.stateCount)

include hm hstart

/-- There are no more states to be met than there are states. -/
theorem length_met_le (h : Invariant d taken w) : w.met.length ≤ d.stateCount := by
  have hsub : w.met ⊆ d.states := fun s hs =>
    TransitionSystem.mem_states.2 ((h.reaches s hs).lt hm hstart)
  have hle := (h.nodup.subperm hsub).length_le
  rwa [TransitionSystem.states, List.length_range] at hle

/-- A search ends.  Induction on the number of states that it has not taken. -/
theorem exists_end (h : Invariant d taken w) :
    ∃ n w' all, w.turns? d.toTransitionSystem n = some w' ∧ w'.queue = [] ∧
      all.length = taken.length + n ∧ Invariant d all w' := by
  induction hleft : d.stateCount - taken.length generalizing taken w with
  | zero =>
    have hlength := h.length_met_le hm hstart
    rw [h.met_eq, List.length_append] at hlength
    exact ⟨0, w, taken, rfl, List.length_eq_zero_iff.1 (by omega), rfl, h⟩
  | succ k ih =>
    cases hqueue : w.queue with
    | nil => exact ⟨0, w, taken, rfl, hqueue, rfl, h⟩
    | cons s rest =>
      obtain ⟨w₁, hturn, h₁⟩ := h.turn? hm hqueue
      have hlength : (taken ++ [s]).length = taken.length + 1 := List.length_append
      obtain ⟨n, w', all, hturns, hend, hall, h'⟩ := ih h₁ (by omega)
      refine ⟨n + 1, w', all, ?_, hend, by omega, h'⟩
      rw [turns?, hturn]
      exact hturns

end End

/-- At the end exactly the reached states were met. -/
theorem mem_met_iff_of_end (h : Invariant d taken w) (hend : w.queue = []) :
    s ∈ w.met ↔ d.Reaches s := by
  refine ⟨h.reaches s, ?_⟩
  have hall : w.met = taken := by rw [h.met_eq, hend, List.append_nil]
  intro hs
  induction hs with
  | start => exact h.start_mem
  | @step s t c _ hnext ih => exact h.next?_mem s (hall ▸ ih) c t hnext

end Invariant

end Search

namespace Automaton

variable {d : Automaton} {s : Nat}

/-! ## Chains and closed sets -/

/-- A state that is at the end of a word from a reached state is reached. -/
theorem Reaches.after? {word : List Char} {t : Nat} (hs : d.Reaches s)
    (h : d.after? s word = some t) : d.Reaches t := by
  induction word generalizing s with
  | nil =>
    cases h
    exact hs
  | cons c word ih =>
    obtain ⟨u, hu, h⟩ := Option.bind_eq_some_iff.1 h
    exact ih (.step hs hu) h

/-- The states that are reached are those at the ends of words. -/
theorem reaches_iff_exists_after? (hm : d.toTransitionSystem.WellFormed) :
    d.Reaches s ↔ ∃ word, d.after? d.start word = some s := by
  constructor
  · intro h
    obtain ⟨word, -, hs⟩ := exists_word_of_reaches hm h
    exact ⟨word, hs⟩
  · rintro ⟨word, hs⟩
    exact Reaches.start.after? hs

/-- A set of states holds the start and every target of its states. -/
def IsClosed (d : Automaton) (S : Set Nat) : Prop :=
  d.start ∈ S ∧ ∀ s ∈ S, ∀ c t, d.next? s c = some t → t ∈ S

/-- The states that are reached form the least closed set. -/
theorem isLeast_reaches (d : Automaton) : IsLeast {S | d.IsClosed S} {s | d.Reaches s} := by
  have hclosed : d.IsClosed {s | d.Reaches s} :=
    ⟨Reaches.start, fun _ hs _ _ hnext => Reaches.step hs hnext⟩
  refine ⟨hclosed, ?_⟩
  rintro S ⟨hstart, hnext⟩ s hs
  induction hs with
  | start => exact hstart
  | @step s t c _ ht ih => exact hnext s ih c t ht

/-! ## What is found -/

/-- The lists of reachable and of unreachable states are what they should be. -/
structure Finds (d : Automaton) : Prop where
  /-- A search with a queue takes each reachable state once and ends then: no state waits, and those
      that it has met are the reachable ones. -/
  ends : ∃ w, (Search.beginAt d.start).turns? d.toTransitionSystem d.reachable.length = some w ∧
    w.queue = [] ∧ w.met.Perm d.reachable
  /-- Along a word of bound transitions each reachable state is reached from the start, and no
      other. -/
  chains : ∀ s, s ∈ d.reachable ↔ ∃ word, d.after? d.start word = some s
  /-- No smaller set holds the start and is closed under transitions. -/
  least : IsLeast {S | d.IsClosed S} {s | s ∈ d.reachable}
  /-- The others are unreachable. -/
  others : ∀ s, s ∈ d.unreachable ↔ s < d.stateCount ∧ s ∉ d.reachable
  /-- Each state is listed once, and in ascending order. -/
  reachable_ascending : d.reachable.Pairwise (· < ·)
  unreachable_ascending : d.unreachable.Pairwise (· < ·)

theorem ascending_states (d : Automaton) : d.states.Pairwise (· < ·) := List.pairwise_lt_range

/-- A search from the start ends with the reachable states. -/
theorem exists_search_end (hm : d.toTransitionSystem.WellFormed) (hstart : d.start < d.stateCount) :
    ∃ w, (Search.beginAt d.start).turns? d.toTransitionSystem d.reachable.length = some w ∧
      w.queue = [] ∧ w.met.Perm d.reachable := by
  obtain ⟨n, w, taken, hturns, hend, hlength, h⟩ :=
    (Search.Invariant.beginAt d).exists_end hm hstart
  have hnodup : d.reachable.Nodup := List.nodup_range.filter _
  have hperm : w.met.Perm d.reachable := by
    rw [List.perm_ext_iff_of_nodup h.nodup hnodup]
    intro s
    rw [h.mem_met_iff_of_end hend, mem_reachable_iff hm hstart]
  have hn : n = d.reachable.length := by
    rw [← hperm.length_eq, h.met_eq, hend, List.append_nil, hlength]
    simp
  exact ⟨w, hn ▸ hturns, hend, hperm⟩

/-- **The states that are found are the reachable ones**, for everything that is built. -/
theorem finds_of_isBuilt (hd : d.IsBuilt) : d.Finds := by
  obtain ⟨hm, hstart⟩ := hd.wellFormed
  have hreachable : ∀ s, s ∈ d.reachable ↔ d.Reaches s := fun s => mem_reachable_iff hm hstart
  refine ⟨exists_search_end hm hstart, ?_, ?_, ?_, d.ascending_states.filter _, ?_⟩
  · intro s
    rw [hreachable, reaches_iff_exists_after? hm]
  · simp only [hreachable]
    exact d.isLeast_reaches
  · intro s
    rw [mem_unreachable_iff hm, hreachable]
  · exact d.ascending_states.sublist
      ((TransitionSystem.unreached_sublist _ _).trans List.filter_sublist)

/-- Two states that lead to each other on two symbols, one of them also to itself, and two more of
    which one leads to the other and back into the circle. -/
def roundabout : Automaton :=
  ⟨⟨["A", "B", "C", "D"], ['0', '1'], [],
    [((3, '0'), 0), ((3, '1'), 2), ((1, '1'), 0), ((1, '0'), 0), ((0, '1'), 0), ((0, '0'), 1)]⟩, 0⟩

theorem roundabout_isBuilt : roundabout.IsBuilt :=
  ⟨[.state "A", .state "B", .state "C", .state "D", .symbol "0", .symbol "1", .start "A",
    .transition "A" '0' "B", .transition "A" '1' "A", .transition "B" '0' "A",
    .transition "B" '1' "A", .transition "D" '1' "C", .transition "D" '0' "A"], by decide +kernel⟩

theorem roundabout_finds :
    roundabout.IsBuilt ∧ roundabout.reachable = [0, 1] ∧ roundabout.unreachable = [2, 3] ∧
      roundabout.Finds :=
  ⟨roundabout_isBuilt, by decide +kernel, by decide +kernel, finds_of_isBuilt roundabout_isBuilt⟩

end Automaton

end Acceptor
