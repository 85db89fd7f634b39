/-
  A run as a walk over the symbols of its input.

  `follow` reads an input character by character: it stops at a line end, passes over blanks and
  counts positions while it moves from state to state.  Here the two concerns come apart:

  1. **Symbols** — `symbols` picks from an input the characters that a run has to follow, and
     `symbolsFrom` adds the position of each.  Line ends, blanks and counting play no part after
     that.

  2. **Words** — `after?` is the state after a word and `Admits` says that a word can be followed to
     its end: every symbol is in the alphabet and every step is bound.

  3. **The walk** — `walk` follows a list of placed symbols, and `follow_eq_walk` says that a run is
     a walk.  The lemmas behind it say how long a walk is, which states it passes, and why it ends;
     each is an induction along the walk (`walk_induction`).

  4. **Runs** — the steps and the halt of a run are those of a walk from the start.
-/
import Acceptor.Run
import Mathlib.Order.Bounds.Defs

namespace Acceptor

/-! ## The symbols of an input -/

/-- The characters that a run follows: of those in front of the first line end, the ones that are
    not blank. -/
def symbols (input : List Char) : List Char :=
  (input.takeWhile fun c => !endsInput c).filter fun c => !Text.isBlank c

/-- The same characters, each with its position; the first character of the input is at
    `position`. -/
def symbolsFrom (position : Nat) (input : List Char) : List (Char × Nat) :=
  ((input.zipIdx position).takeWhile fun x => !endsInput x.1).filter fun x => !Text.isBlank x.1

/-- Only line ends end an input. -/
theorem endsInput_eq_false {input : List Char} (hnewline : '\n' ∉ input) (hreturn : '\r' ∉ input) :
    ∀ c ∈ input, endsInput c = false := by
  intro c hc
  have hn : c ≠ '\n' := fun heq => hnewline (heq ▸ hc)
  have hr : c ≠ '\r' := fun heq => hreturn (heq ▸ hc)
  rw [endsInput, beq_eq_false_iff_ne.2 hn, beq_eq_false_iff_ne.2 hr, Bool.or_false]

@[simp] theorem symbols_nil : symbols [] = [] := rfl

@[simp] theorem symbolsFrom_nil (position : Nat) : symbolsFrom position [] = [] := rfl

theorem symbols_cons (c : Char) (rest : List Char) :
    symbols (c :: rest) =
      if endsInput c then [] else if Text.isBlank c then symbols rest else c :: symbols rest := by
  unfold symbols
  rw [List.takeWhile_cons]
  by_cases hend : endsInput c = true
  · simp [hend]
  · by_cases hblank : Text.isBlank c = true
    · simp [hend, hblank]
    · simp [hend, hblank]

theorem symbolsFrom_cons (position : Nat) (c : Char) (rest : List Char) :
    symbolsFrom position (c :: rest) =
      if endsInput c then []
      else if Text.isBlank c then symbolsFrom (position + 1) rest
      else (c, position) :: symbolsFrom (position + 1) rest := by
  unfold symbolsFrom
  rw [List.zipIdx_cons, List.takeWhile_cons]
  by_cases hend : endsInput c = true
  · simp [hend]
  · by_cases hblank : Text.isBlank c = true
    · simp [hend, hblank]
    · simp [hend, hblank]

/-- Without the positions they are the symbols. -/
@[simp] theorem map_fst_symbolsFrom (position : Nat) (input : List Char) :
    (symbolsFrom position input).map (·.1) = symbols input := by
  induction input generalizing position with
  | nil => rfl
  | cons c rest ih =>
    rw [symbolsFrom_cons, symbols_cons]
    split
    · rfl
    · split
      · exact ih (position + 1)
      · rw [List.map_cons, ih (position + 1)]

/-- The position of a symbol is where it stands in the input, and the symbols in front of it are
    those in front of its position. -/
theorem position_of_symbolsFrom {position k p : Nat} {c : Char} {input : List Char}
    (h : (symbolsFrom position input)[k]? = some (c, p)) :
    ∃ n, p = position + n ∧ input[n]? = some c ∧
      symbols (input.take n) = (symbols input).take k := by
  induction input generalizing position k with
  | nil => simp at h
  | cons d rest ih =>
    rw [symbolsFrom_cons] at h
    by_cases hend : endsInput d = true
    · simp [hend] at h
    · rw [if_neg hend] at h
      by_cases hblank : Text.isBlank d = true
      · -- a blank moves the positions and leaves the symbols as they are
        rw [if_pos hblank] at h
        obtain ⟨n, hp, hc, hbefore⟩ := ih h
        refine ⟨n + 1, by omega, by rw [List.getElem?_cons_succ]; exact hc, ?_⟩
        rw [List.take_succ_cons, symbols_cons, symbols_cons, if_neg hend, if_neg hend,
          if_pos hblank, if_pos hblank]
        exact hbefore
      · rw [if_neg hblank] at h
        cases k with
        | zero =>
          -- the first symbol stands at the front, and nothing in front of it
          simp only [List.getElem?_cons_zero, Option.some.injEq, Prod.mk.injEq] at h
          obtain ⟨rfl, rfl⟩ := h
          exact ⟨0, by simp, by simp, by simp⟩
        | succ k =>
          rw [List.getElem?_cons_succ] at h
          obtain ⟨n, hp, hc, hbefore⟩ := ih h
          refine ⟨n + 1, by omega, by rw [List.getElem?_cons_succ]; exact hc, ?_⟩
          rw [List.take_succ_cons, symbols_cons, symbols_cons, if_neg hend, if_neg hend,
            if_neg hblank, if_neg hblank, List.take_succ_cons, hbefore]

/-- The first step leads to the state from which the others go on. -/
@[simp] theorem Run.lastOf_cons (s t : Nat) (c : Char) (steps : List (Char × Nat)) :
    Run.lastOf s ((c, t) :: steps) = Run.lastOf t steps := by
  unfold Run.lastOf
  rw [List.getLast?_cons]
  cases steps.getLast? <;> rfl

namespace TransitionSystem

/-! ## Words -/

/-- The state after a word, if every step of it is bound. -/
def after? (m : TransitionSystem) (s : Nat) (word : List Char) : Option Nat := word.foldlM m.next? s

/-- A word can be followed from a state to its end. -/
def Admits (m : TransitionSystem) (s : Nat) (word : List Char) : Prop :=
  (∀ c ∈ word, c ∈ m.alphabet) ∧ ∃ t, m.after? s word = some t

variable {m : TransitionSystem} {s t : Nat} {c : Char} {word : List Char}

@[simp] theorem after?_nil : m.after? s [] = some s := rfl

@[simp] theorem after?_cons :
    m.after? s (c :: word) = (m.next? s c).bind fun t => m.after? t word := rfl

@[simp] theorem admits_nil : m.Admits s [] := ⟨by simp, s, rfl⟩

theorem admits_cons :
    m.Admits s (c :: word) ↔ c ∈ m.alphabet ∧ ∃ t, m.next? s c = some t ∧ m.Admits t word := by
  constructor
  · rintro ⟨hword, u, hu⟩
    rw [after?_cons] at hu
    obtain ⟨t, ht, hu⟩ := Option.bind_eq_some_iff.1 hu
    have htail : ∀ x ∈ word, x ∈ m.alphabet := fun x hx => hword x (List.mem_cons_of_mem c hx)
    exact ⟨hword c List.mem_cons_self, t, ht, htail, u, hu⟩
  · rintro ⟨hc, t, ht, hword, u, hu⟩
    refine ⟨?_, u, by rw [after?_cons, ht]; exact hu⟩
    intro x hx
    rcases List.mem_cons.1 hx with rfl | hx
    · exact hc
    · exact hword x hx

/-! ## The walk -/

/-- The steps from a state over placed symbols, and why they end. -/
def walk (m : TransitionSystem) (s : Nat) : List (Char × Nat) → List (Char × Nat) × Halt
  | [] => ([], .completed)
  | (c, position) :: rest =>
    if m.hasSymbol c then
      match m.next? s c with
      | none => ([], .noTransition position s c)
      | some t => ((c, t) :: (m.walk t rest).1, (m.walk t rest).2)
    else ([], .unknownSymbol position c)

/-- Following an input is walking over its symbols. -/
theorem follow_eq_walk (m : TransitionSystem) (s position : Nat) (input : List Char) :
    m.follow s position input = m.walk s (symbolsFrom position input) := by
  induction input generalizing s position with
  | nil => rfl
  | cons c rest ih =>
    -- a line end stops both, a blank is passed over by both, and a symbol is a step of both
    rw [follow, symbolsFrom_cons]
    by_cases hend : endsInput c = true
    · rw [if_pos hend, if_pos hend]
      rfl
    · rw [if_neg hend, if_neg hend]
      by_cases hblank : Text.isBlank c = true
      · rw [if_pos hblank, if_pos hblank]
        exact ih s (position + 1)
      · rw [if_neg hblank, if_neg hblank, walk]
        cases m.next? s c with
        | none => rfl
        | some t =>
          dsimp only
          rw [ih t (position + 1)]

/-! Each way in which a walk can begin, as an equation. -/

variable {position : Nat} {rest : List (Char × Nat)}

theorem walk_unknown (hc : c ∉ m.alphabet) :
    m.walk s ((c, position) :: rest) = ([], .unknownSymbol position c) := by
  rw [walk, if_neg (by simpa using hc)]

theorem walk_unbound (hc : c ∈ m.alphabet) (h : m.next? s c = none) :
    m.walk s ((c, position) :: rest) = ([], .noTransition position s c) := by
  rw [walk, if_pos (by simpa using hc), h]

theorem walk_bound (hc : c ∈ m.alphabet) (h : m.next? s c = some t) :
    m.walk s ((c, position) :: rest) = ((c, t) :: (m.walk t rest).1, (m.walk t rest).2) := by
  rw [walk, if_pos (by simpa using hc), h]

/-! Induction along a walk, with one case for each way in which it can go on. -/

theorem walk_induction (m : TransitionSystem) {motive : Nat → List (Char × Nat) → Prop}
    (nil : ∀ s, motive s [])
    (unknown : ∀ s c position rest, c ∉ m.alphabet → motive s ((c, position) :: rest))
    (unbound : ∀ s c position rest, c ∈ m.alphabet → m.next? s c = none →
      motive s ((c, position) :: rest))
    (bound : ∀ s c position rest t, c ∈ m.alphabet → m.next? s c = some t → motive t rest →
      motive s ((c, position) :: rest))
    (s : Nat) (xs : List (Char × Nat)) : motive s xs := by
  induction xs generalizing s with
  | nil => exact nil s
  | cons x rest ih =>
    obtain ⟨c, position⟩ := x
    by_cases hc : c ∈ m.alphabet
    · cases ht : m.next? s c with
      | none => exact unbound s c position rest hc ht
      | some t => exact bound s c position rest t hc ht (ih t)
    · exact unknown s c position rest hc

/-! ## What a walk does -/

variable {xs : List (Char × Nat)}

/-- A symbol that cannot be followed ends every admitted word in front of it. -/
theorem isGreatest_zero_of_stuck (h : ∀ t, c ∈ m.alphabet → m.next? s c ≠ some t) :
    IsGreatest {j | j ≤ (c :: word).length ∧ m.Admits s ((c :: word).take j)} 0 := by
  refine ⟨⟨Nat.zero_le _, admits_nil⟩, ?_⟩
  rintro j ⟨-, hj⟩
  cases j with
  | zero => exact Nat.le_refl 0
  | succ j =>
    -- a longer word would begin with a step on `c`
    rw [List.take_succ_cons] at hj
    obtain ⟨hc, t, ht, -⟩ := admits_cons.1 hj
    exact absurd ht (h t hc)

/-- A symbol that can be followed makes the longest admitted word longer by one. -/
theorem isGreatest_succ_of_bound {k : Nat} (hc : c ∈ m.alphabet) (ht : m.next? s c = some t)
    (h : IsGreatest {j | j ≤ word.length ∧ m.Admits t (word.take j)} k) :
    IsGreatest {j | j ≤ (c :: word).length ∧ m.Admits s ((c :: word).take j)} (k + 1) := by
  obtain ⟨⟨hle, hk⟩, hmax⟩ := h
  refine ⟨⟨Nat.succ_le_succ hle, ?_⟩, ?_⟩
  · rw [List.take_succ_cons]
    exact admits_cons.2 ⟨hc, t, ht, hk⟩
  · rintro j ⟨hjle, hj⟩
    cases j with
    | zero => exact Nat.zero_le _
    | succ j =>
      -- behind the step on `c` the rest of the word is followed from `t`
      rw [List.take_succ_cons] at hj
      obtain ⟨-, t', ht', hj⟩ := admits_cons.1 hj
      obtain rfl : t = t' := Option.some.inj (ht.symm.trans ht')
      have hj' : j ≤ k := hmax ⟨Nat.le_of_succ_le_succ hjle, hj⟩
      omega

/-- A walk is as long as the longest prefix of its symbols that can be followed. -/
theorem isGreatest_length_walk (m : TransitionSystem) (s : Nat) (xs : List (Char × Nat)) :
    IsGreatest {j | j ≤ (xs.map (·.1)).length ∧ m.Admits s ((xs.map (·.1)).take j)}
      (m.walk s xs).1.length := by
  induction s, xs using m.walk_induction with
  | nil s =>
    refine ⟨⟨Nat.le_refl 0, admits_nil⟩, ?_⟩
    rintro j ⟨hj, -⟩
    exact hj
  | unknown s c position rest hc =>
    rw [walk_unknown hc]
    exact isGreatest_zero_of_stuck fun t hc' _ => hc hc'
  | unbound s c position rest hc ht =>
    rw [walk_unbound hc ht]
    exact isGreatest_zero_of_stuck fun t _ h => by simp [ht] at h
  | bound s c position rest t hc ht ih =>
    rw [walk_bound hc ht]
    exact isGreatest_succ_of_bound hc ht ih

/-- The `i`-th step of a walk is on the `i`-th symbol, and leads to the state after the first
    `i + 1` symbols. -/
theorem walk_step {i : Nat} (h : (m.walk s xs).1[i]? = some (c, t)) :
    (xs.map (·.1))[i]? = some c ∧ m.after? s ((xs.map (·.1)).take (i + 1)) = some t := by
  induction s, xs using m.walk_induction generalizing i with
  | nil s => simp [walk] at h
  | unknown s d position rest hd => simp [walk_unknown hd] at h
  | unbound s d position rest hd hu => simp [walk_unbound hd hu] at h
  | bound s d position rest u hd hu ih =>
    rw [walk_bound hd hu] at h
    cases i with
    | zero =>
      -- the first step is the one that was just found to be bound
      simp only [List.getElem?_cons_zero, Option.some.injEq, Prod.mk.injEq] at h
      obtain ⟨rfl, rfl⟩ := h
      simp [hu]
    | succ i =>
      rw [List.getElem?_cons_succ] at h
      obtain ⟨hsymbol, hstate⟩ := ih h
      refine ⟨by simpa using hsymbol, ?_⟩
      rw [List.map_cons, List.take_succ_cons, after?_cons, hu]
      exact hstate

/-- Every step of a walk is bound. -/
theorem exists_next?_of_mem_walk (h : (c, t) ∈ (m.walk s xs).1) : ∃ u, m.next? u c = some t := by
  induction s, xs using m.walk_induction with
  | nil s => simp [walk] at h
  | unknown s d position rest hd => simp [walk_unknown hd] at h
  | unbound s d position rest hd hu => simp [walk_unbound hd hu] at h
  | bound s d position rest u hd hu ih =>
    rw [walk_bound hd hu] at h
    rcases List.mem_cons.1 h with heq | h
    · cases heq
      exact ⟨s, hu⟩
    · exact ih h

/-- A walk over all of its symbols is completed. -/
theorem walk_completed (h : (m.walk s xs).1.length = xs.length) :
    (m.walk s xs).2 = .completed := by
  induction s, xs using m.walk_induction with
  | nil s => rfl
  | unknown s c position rest hc => simp [walk_unknown hc] at h
  | unbound s c position rest hc ht => simp [walk_unbound hc ht] at h
  | bound s c position rest t hc ht ih =>
    rw [walk_bound hc ht] at h ⊢
    exact ih (Nat.succ.inj h)

/-- A walk that leaves symbols over names the first of them, and the state in which it stopped if
    the symbol is in the alphabet. -/
theorem walk_stopped {position : Nat}
    (h : xs[(m.walk s xs).1.length]? = some (c, position)) :
    (c ∉ m.alphabet → (m.walk s xs).2 = .unknownSymbol position c) ∧
      (c ∈ m.alphabet →
        (m.walk s xs).2 = .noTransition position (Run.lastOf s (m.walk s xs).1) c) := by
  induction s, xs using m.walk_induction with
  | nil s => simp at h
  | unknown s d p rest hd =>
    rw [walk_unknown hd] at h ⊢
    simp only [List.length_nil, List.getElem?_cons_zero, Option.some.injEq, Prod.mk.injEq] at h
    obtain ⟨rfl, rfl⟩ := h
    exact ⟨fun _ => rfl, fun hc => absurd hc hd⟩
  | unbound s d p rest hd hu =>
    rw [walk_unbound hd hu] at h ⊢
    simp only [List.length_nil, List.getElem?_cons_zero, Option.some.injEq, Prod.mk.injEq] at h
    obtain ⟨rfl, rfl⟩ := h
    exact ⟨fun hc => absurd hd hc, fun _ => rfl⟩
  | bound s d p rest t hd hu ih =>
    rw [walk_bound hd hu] at h ⊢
    rw [Run.lastOf_cons]
    rw [List.length_cons, List.getElem?_cons_succ] at h
    exact ih h

/-- A walk that ends at an unknown symbol names a character outside the alphabet. -/
theorem unknown_of_walk {position : Nat} {c : Char}
    (h : (m.walk s xs).2 = .unknownSymbol position c) : c ∉ m.alphabet := by
  induction s, xs using m.walk_induction with
  | nil s => cases h
  | unknown s a p rest ha =>
    rw [walk_unknown ha] at h
    cases h
    exact ha
  | unbound s a p rest ha hu =>
    rw [walk_unbound ha hu] at h
    cases h
  | bound s a p rest t ha ht ih =>
    rw [walk_bound ha ht] at h
    exact ih h

/-- A walk that ends without a transition ends in the state that it names. -/
theorem state_of_walk {position : Nat} (h : (m.walk s xs).2 = .noTransition position t c) :
    t = Run.lastOf s (m.walk s xs).1 := by
  induction s, xs using m.walk_induction with
  | nil s => cases h
  | unknown s d p rest hd =>
    rw [walk_unknown hd] at h
    cases h
  | unbound s d p rest hd hu =>
    rw [walk_unbound hd hu] at h ⊢
    cases h
    rfl
  | bound s d p rest u hd hu ih =>
    rw [walk_bound hd hu] at h ⊢
    rw [Run.lastOf_cons]
    exact ih h

end TransitionSystem

namespace Automaton

/-! ## Runs -/

/-- The steps of a run are those of a walk over the symbols of the input. -/
theorem steps_run (d : Automaton) (input : String) :
    (d.run input).steps = (d.walk d.start (symbolsFrom 0 input.toList)).1 := by
  rw [← d.follow_eq_walk]
  rfl

/-- So is the halt. -/
theorem halt_run (d : Automaton) (input : String) :
    (d.run input).halt = (d.walk d.start (symbolsFrom 0 input.toList)).2 := by
  rw [← d.follow_eq_walk]
  rfl

@[simp] theorem start_run (d : Automaton) (input : String) : (d.run input).start = d.start := rfl

theorem last_run (d : Automaton) (input : String) :
    (d.run input).last = Run.lastOf d.start (d.run input).steps := rfl

/-- The run that a walk from the start makes. -/
def runOf (d : Automaton) (w : List (Char × Nat) × Halt) : Run :=
  { start := d.start, steps := w.1, halt := w.2, verdict := d.verdict (Run.lastOf d.start w.1) w.2 }

theorem run_eq_runOf (d : Automaton) (input : String) :
    d.run input = d.runOf (d.walk d.start (symbolsFrom 0 input.toList)) := by
  rw [← d.follow_eq_walk]
  rfl

end Automaton

end Acceptor
