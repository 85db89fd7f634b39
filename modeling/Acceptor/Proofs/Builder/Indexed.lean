/-
  A builder with look-up tables beside its lists.

  A `Builder` searches its lists whenever it needs the state of a name, a symbol or a target.  An
  `IndexedBuilder` does not search: it has an index from names to states, a set of symbols, a set of
  accepting states and a table of targets.  Names and symbols then stand in two places, in a list
  for their order and in a table for the look-up, and each declaration has to change both.

  1. **The tables** — `IndexedBuilder`, its five declarations, and histories of them.

  2. **In step** — `InStep t m`: the tables answer what a search of the lists of `m` would answer.

  3. **Each declaration keeps step** — one lemma for each way in which lists and tables grow.

  4. **Every history keeps step** — `Follows.replay`: the two builders give the same outcomes,
     failures included, and stay in step.
-/
import Acceptor.Builder.WellFormed
import Mathlib.Logic.Function.Basic

namespace Acceptor

/-! ## The tables -/

/-- The declarations so far, with a table for each look-up. -/
structure IndexedBuilder where
  /-- The names of the states, in the order of declaration. -/
  names : List String := []
  /-- The state of a name. -/
  index : String → Option Nat := fun _ => none
  /-- The symbols, in the order of declaration. -/
  alphabet : List Char := []
  /-- The set of symbols. -/
  symbols : Char → Bool := fun _ => false
  start : Option Nat := none
  /-- The set of accepting states. -/
  accepting : Nat → Bool := fun _ => false
  /-- The target of a state and a symbol. -/
  targets : Nat × Char → Option Nat := fun _ => none

namespace IndexedBuilder

/-- Declares a state: a new name goes to the end of the list and into the index. -/
def addState (t : IndexedBuilder) (name : String) : Nat × IndexedBuilder :=
  match t.index name with
  | some s => (s, t)
  | none =>
    let s := t.names.length
    (s, { t with names := t.names ++ [name], index := Function.update t.index name (some s) })

/-- Declares a symbol: a new one goes into the set and to the end of the list. -/
def addSymbol (t : IndexedBuilder) (token : String) : Except Cause (Char × IndexedBuilder) :=
  (symbolOf token).map fun c =>
    (c, if t.symbols c then t
      else { t with symbols := Function.update t.symbols c true, alphabet := t.alphabet ++ [c] })

/-- Makes a state the start; the answer is the start before. -/
def setStart (t : IndexedBuilder) (name : String) : Except Cause (Option Nat × IndexedBuilder) :=
  match t.index name with
  | some s => .ok (t.start, { t with start := some s })
  | none => .error (.unknownStart name)

/-- Makes a state accepting; the answer is the state. -/
def addAccept (t : IndexedBuilder) (name : String) : Except Cause (Nat × IndexedBuilder) :=
  match t.index name with
  | some s => .ok (s, { t with accepting := Function.update t.accepting s true })
  | none => .error (.unknownAccept name)

/-- Binds a state and a symbol to a target; the answer is the target before. -/
def addTransition (t : IndexedBuilder) (source : String) (symbol : Char) (target : String) :
    Except Cause (Option Nat × IndexedBuilder) :=
  match t.index source, t.symbols symbol, t.index target with
  | some s, true, some u =>
    .ok (t.targets (s, symbol),
      { t with targets := Function.update t.targets (s, symbol) (some u) })
  | _, _, _ => .error (.unknownReference source symbol target)

/-- The answer to a declaration, and the builder after it. -/
def declare (t : IndexedBuilder) : Declaration → Except Cause (Answer × IndexedBuilder)
  | .state name => let (s, t') := t.addState name; .ok (.state s, t')
  | .symbol token => (t.addSymbol token).map fun (c, t') => (.symbol c, t')
  | .start name => (t.setStart name).map fun (old, t') => (.replaced old, t')
  | .accept name => (t.addAccept name).map fun (s, t') => (.state s, t')
  | .transition source symbol target =>
    (t.addTransition source symbol target).map fun (old, t') => (.replaced old, t')

/-- The outcome of a declaration, and the builder after it: the old one after a failure. -/
def attempt (t : IndexedBuilder) (x : Declaration) : Except Cause Answer × IndexedBuilder :=
  match t.declare x with
  | .ok (answer, t') => (.ok answer, t')
  | .error cause => (.error cause, t)

/-- The outcomes of a list of declarations, failures among them, and the builder at the end. -/
def replay (t : IndexedBuilder) : List Declaration → List (Except Cause Answer) × IndexedBuilder
  | [] => ([], t)
  | x :: xs =>
    let (outcome, t) := t.attempt x
    let (outcomes, t) := t.replay xs
    (outcome :: outcomes, t)

/-! ## In step -/

/-- The tables answer what a search of the lists of a system would answer. -/
structure InStep (t : IndexedBuilder) (m : TransitionSystem) : Prop where
  names_eq : t.names = m.names
  index_eq : ∀ n, t.index n = m.state? n
  alphabet_eq : t.alphabet = m.alphabet
  symbols_eq : ∀ c, t.symbols c = m.hasSymbol c
  accepting_eq : ∀ s, t.accepting s = m.isAccepting s
  targets_eq : ∀ s c, t.targets (s, c) = m.next? s c

/-- Two builders are in step, and have one start. -/
structure Follows (t : IndexedBuilder) (b : Builder) : Prop where
  inStep : t.InStep b.toTransitionSystem
  start_eq : t.start = b.start

/-- Nothing was told to either of two empty builders. -/
theorem follows_empty : ({} : IndexedBuilder).Follows {} where
  inStep :=
    { names_eq := rfl
      index_eq := fun _ => rfl
      alphabet_eq := rfl
      symbols_eq := fun _ => rfl
      accepting_eq := fun _ => rfl
      targets_eq := fun _ _ => rfl }
  start_eq := rfl

/-- Two outcomes agree: the same failure, or the same answer from builders that are in step. -/
inductive Agree {α : Type} :
    Except Cause (α × IndexedBuilder) → Except Cause (α × Builder) → Prop
  | ok {a : α} {t : IndexedBuilder} {b : Builder} : t.Follows b → Agree (.ok (a, t)) (.ok (a, b))
  | error (cause : Cause) : Agree (.error cause) (.error cause)

/-- Outcomes still agree when their answers are wrapped. -/
theorem Agree.map {α β : Type} {x : Except Cause (α × IndexedBuilder)}
    {y : Except Cause (α × Builder)} (h : Agree x y) (f : α → β) :
    Agree (x.map fun (a, t) => (f a, t)) (y.map fun (a, b) => (f a, b)) := by
  cases h with
  | ok h => exact .ok h
  | error cause => exact .error cause

/-! ## Each declaration keeps step

  Where a list grows at its end, or a binding is put in front, a search finds what the updated table
  holds. -/

section Step

variable {m : TransitionSystem} {t : IndexedBuilder} {b : Builder} {s u : Nat} {n : String}
  {c : Char}

/-- A new name is found at the end of the list, and every other name where it was. -/
theorem state?_concat (h : m.state? n = none) (k : String) :
    TransitionSystem.state? { m with names := m.names ++ [n] } k =
      Function.update m.state? n (some m.stateCount) k := by
  have hsearch : TransitionSystem.state? { m with names := m.names ++ [n] } k =
      (m.state? k).or (if n = k then some m.stateCount else none) := by
    show (m.names ++ [n]).findIdx? (· == k) = (m.names.findIdx? (· == k)).or _
    rw [List.findIdx?_append]
    by_cases hk : n = k <;> simp [hk, TransitionSystem.stateCount]
  rw [hsearch, Function.update_apply]
  by_cases hk : k = n
  · -- the search of the old list finds nothing and goes on to the end
    rw [if_pos hk, if_pos hk.symm, hk, h]
    rfl
  · rw [if_neg hk, if_neg (Ne.symm hk), Option.or_none]

theorem InStep.addName (h : t.InStep m) (hn : m.state? n = none) :
    InStep
      { t with
        names := t.names ++ [n]
        index := Function.update t.index n (some t.names.length) }
      { m with names := m.names ++ [n] } where
  names_eq := congrArg (· ++ [n]) h.names_eq
  index_eq k := by
    have hindex : t.index = m.state? := funext h.index_eq
    rw [state?_concat hn, hindex, h.names_eq]
    rfl
  alphabet_eq := h.alphabet_eq
  symbols_eq := h.symbols_eq
  accepting_eq := h.accepting_eq
  targets_eq := h.targets_eq

theorem InStep.addSymbol (h : t.InStep m) :
    InStep { t with symbols := Function.update t.symbols c true, alphabet := t.alphabet ++ [c] }
      { m with alphabet := m.alphabet ++ [c] } where
  names_eq := h.names_eq
  index_eq := h.index_eq
  alphabet_eq := congrArg (· ++ [c]) h.alphabet_eq
  symbols_eq k := by
    show Function.update t.symbols c true k = (m.alphabet ++ [c]).contains k
    rw [Function.update_apply, List.contains_append, h.symbols_eq k]
    by_cases hk : k = c
    · simp [hk]
    · simp [hk, TransitionSystem.hasSymbol]
  accepting_eq := h.accepting_eq
  targets_eq := h.targets_eq

theorem InStep.addAccepting (h : t.InStep m) :
    InStep { t with accepting := Function.update t.accepting s true }
      { m with accepting := m.accepting.insert s } where
  names_eq := h.names_eq
  index_eq := h.index_eq
  alphabet_eq := h.alphabet_eq
  symbols_eq := h.symbols_eq
  accepting_eq k := by
    show Function.update t.accepting s true k = (m.accepting.insert s).contains k
    rw [Function.update_apply, h.accepting_eq k, TransitionSystem.isAccepting, Bool.eq_iff_iff]
    by_cases hk : k = s <;> simp [hk]
  targets_eq := h.targets_eq

theorem InStep.addBinding (h : t.InStep m) :
    InStep { t with targets := Function.update t.targets (s, c) (some u) }
      { m with bindings := ((s, c), u) :: m.bindings } where
  names_eq := h.names_eq
  index_eq := h.index_eq
  alphabet_eq := h.alphabet_eq
  symbols_eq := h.symbols_eq
  accepting_eq := h.accepting_eq
  targets_eq s' c' := by
    show Function.update t.targets (s, c) (some u) (s', c') =
      (((s, c), u) :: m.bindings).lookup (s', c')
    rw [Function.update_apply, List.lookup_cons, h.targets_eq s' c']
    by_cases hk : (s', c') = (s, c)
    · rw [if_pos hk, beq_iff_eq.2 hk]
    · rw [if_neg hk, beq_eq_false_iff_ne.2 hk]
      rfl

/-- Builders in step answer a declaration alike, and are in step after it. -/
theorem Follows.declare (h : t.Follows b) (x : Declaration) :
    Agree (t.declare x) (b.declare x) := by
  have hstep := h.inStep
  -- both look up the same things, and where the tables agree they take the same branch
  cases x with
  | state n =>
    simp only [IndexedBuilder.declare, Builder.declare, IndexedBuilder.addState, Builder.addState,
      hstep.index_eq n]
    cases hn : b.state? n with
    | some s => exact .ok h
    | none =>
      rw [hstep.names_eq]
      refine .ok ⟨?_, h.start_eq⟩
      have hgrown := hstep.addName hn
      rwa [hstep.names_eq] at hgrown
  | symbol token =>
    refine Agree.map ?_ Answer.symbol
    unfold IndexedBuilder.addSymbol Builder.addSymbol
    cases symbolOf token with
    | error cause => exact .error cause
    | ok c =>
      simp only [Except.map, hstep.symbols_eq c]
      cases hc : b.hasSymbol c with
      | true => exact .ok h
      | false => exact .ok ⟨hstep.addSymbol, h.start_eq⟩
  | start n =>
    refine Agree.map ?_ Answer.replaced
    unfold IndexedBuilder.setStart Builder.setStart
    rw [hstep.index_eq n, h.start_eq]
    cases b.state? n with
    | some s => exact .ok ⟨{ hstep with }, rfl⟩
    | none => exact .error _
  | accept n =>
    refine Agree.map ?_ Answer.state
    unfold IndexedBuilder.addAccept Builder.addAccept
    rw [hstep.index_eq n]
    cases b.state? n with
    | some s => exact .ok ⟨hstep.addAccepting, h.start_eq⟩
    | none => exact .error _
  | transition p c q =>
    refine Agree.map ?_ Answer.replaced
    unfold IndexedBuilder.addTransition Builder.addTransition
    rw [hstep.index_eq p, hstep.symbols_eq c, hstep.index_eq q]
    cases b.state? p with
    | none => exact .error _
    | some s =>
      cases b.hasSymbol c with
      | false => exact .error _
      | true =>
        cases b.state? q with
        | none => exact .error _
        | some u =>
          dsimp only
          rw [hstep.targets_eq s c]
          exact .ok ⟨hstep.addBinding, h.start_eq⟩

/-! ## Every history keeps step -/

/-- So they do when a failure leaves both as they were. -/
theorem Follows.attempt (h : t.Follows b) (x : Declaration) :
    (t.attempt x).1 = (b.attempt x).1 ∧ (t.attempt x).2.Follows (b.attempt x).2 := by
  unfold IndexedBuilder.attempt Builder.attempt
  have hagree := h.declare x
  generalize t.declare x = outcome at hagree ⊢
  generalize b.declare x = outcome' at hagree ⊢
  cases hagree with
  | ok hafter => exact ⟨rfl, hafter⟩
  | error cause => exact ⟨rfl, h⟩

/-- Two builders that are in step give the same outcomes to a history, and are in step after it.
    Induction on the history. -/
theorem Follows.replay (h : t.Follows b) (xs : List Declaration) :
    (t.replay xs).1 = (b.replay xs).1 ∧ (t.replay xs).2.Follows (b.replay xs).2 := by
  induction xs generalizing t b with
  | nil => exact ⟨rfl, h⟩
  | cons x xs ih =>
    obtain ⟨hanswer, hafter⟩ := h.attempt x
    obtain ⟨houtcomes, hend⟩ := ih hafter
    refine ⟨?_, hend⟩
    show (t.attempt x).1 :: ((t.attempt x).2.replay xs).1 =
      (b.attempt x).1 :: ((b.attempt x).2.replay xs).1
    rw [hanswer, houtcomes]

end Step

end IndexedBuilder

end Acceptor
