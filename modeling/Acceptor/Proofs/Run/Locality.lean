/-
  What one more declaration does to runs.

  An automaton was built, and then one more thing was declared and the automaton was built again.
  Its runs may differ only where the new declaration can be seen.  A run sees of a system the
  symbols that it reads and the states that it leaves; the rest of the table could be any other.

  1. **What a run looks at** — `Leaves r s c`: the path of `r` goes on from `s` by a step on `c`.
     Where two automata agree on these steps and on the halt, the run is the same
     (`AgreeOn.run_eq`).

  2. **A new symbol** — nothing is bound on it, so a walk that stopped at it stops there still, now
     because there is no transition (`walk_newSymbol`).

  3. **The effect of a declaration** — `Declaration.Alters`, with one case for each kind of
     declaration.  Main result: `exists_alters_of_declare`.
-/
import Acceptor.Proofs.Builder.Records
import Acceptor.Proofs.Run.Continuation

namespace Acceptor

/-! ## What a run looks at -/

namespace Run

/-- Somewhere on its path a run leaves a state on a symbol. -/
def Leaves (r : Run) (s : Nat) (c : Char) : Prop := ∃ a t, [(s, a), (t, some c)] <:+: r.path

/-- The states that steps leave, each with the symbol that is followed. -/
def departures (s : Nat) : List (Char × Nat) → List (Nat × Char)
  | [] => []
  | (c, t) :: steps => (s, c) :: departures t steps

theorem mem_departures_iff {s p : Nat} {c : Char} {steps : List (Char × Nat)} (b : Option Char) :
    (s, c) ∈ departures p steps ↔
      ∃ a t, [(s, a), (t, some c)] <:+: (p, b) :: steps.map fun (c, t) => (t, some c) := by
  induction steps generalizing p b with
  | nil =>
    refine iff_of_false List.not_mem_nil ?_
    rintro ⟨a, t, h⟩
    simpa using h.length_le
  | cons step steps ih =>
    obtain ⟨x, q⟩ := step
    rw [departures, List.mem_cons, ih (some x), List.map_cons]
    constructor
    · rintro (heq | ⟨a, t, h⟩)
      · cases heq
        exact ⟨b, q, [], _, rfl⟩
      · exact ⟨a, t, List.infix_cons h⟩
    · rintro ⟨a, t, h⟩
      rcases List.infix_cons_iff.1 h with h | h
      · -- the path begins with these two entries, so this is the first step
        obtain ⟨hfirst, hsecond⟩ := List.cons_prefix_cons.1 h
        cases hfirst
        cases (List.cons_prefix_cons.1 hsecond).1
        exact .inl rfl
      · exact .inr ⟨a, t, h⟩

theorem leaves_iff {r : Run} {s : Nat} {c : Char} :
    r.Leaves s c ↔ (s, c) ∈ departures r.start r.steps := (mem_departures_iff none).symm

end Run

namespace TransitionSystem

variable {m m' : TransitionSystem} {s : Nat} {xs : List (Char × Nat)}

/-- Two systems that agree wherever a walk looks are walked alike. -/
theorem walk_congr (hknown : m.alphabet ⊆ m'.alphabet)
    (hunknown : ∀ position c, (m.walk s xs).2 = .unknownSymbol position c →
      c ∈ m'.alphabet → c ∈ m.alphabet)
    (hsteps : ∀ p c, (p, c) ∈ Run.departures s (m.walk s xs).1 → m'.next? p c = m.next? p c)
    (hstuck : ∀ position p c, (m.walk s xs).2 = .noTransition position p c →
      m'.next? p c = m.next? p c) :
    m'.walk s xs = m.walk s xs := by
  induction s, xs using m.walk_induction with
  | nil s => rfl
  | unknown s c position rest hc =>
    rw [walk_unknown hc] at hunknown ⊢
    exact walk_unknown fun hc' => hc (hunknown position c rfl hc')
  | unbound s c position rest hc hu =>
    rw [walk_unbound hc hu] at hstuck ⊢
    exact walk_unbound (hknown hc) ((hstuck position s c rfl).trans hu)
  | bound s c position rest t hc ht ih =>
    rw [walk_bound hc ht] at hunknown hsteps hstuck ⊢
    have hfirst : m'.next? s c = some t := (hsteps s c List.mem_cons_self).trans ht
    have hrest := ih hunknown (fun p a hp => hsteps p a (List.mem_cons_of_mem _ hp)) hstuck
    rw [walk_bound (hknown hc) hfirst, hrest]

/-! ## A new symbol -/

/-- A walk that met a new symbol meets it again, and finds nothing bound on it. -/
theorem walk_newSymbol {c : Char} {position : Nat} (hknown : m.alphabet ⊆ m'.alphabet)
    (hnew : c ∈ m'.alphabet) (hnext : m'.next? = m.next?) (hunbound : ∀ s, m.next? s c = none)
    (h : (m.walk s xs).2 = .unknownSymbol position c) :
    m'.walk s xs = ((m.walk s xs).1, .noTransition position (Run.lastOf s (m.walk s xs).1) c) := by
  induction s, xs using m.walk_induction with
  | nil s => cases h
  | unknown s a p rest ha =>
    rw [walk_unknown ha] at h ⊢
    cases h
    exact walk_unbound hnew (by rw [hnext]; exact hunbound s)
  | unbound s a p rest ha hu =>
    rw [walk_unbound ha hu] at h
    cases h
  | bound s a p rest t ha ht ih =>
    rw [walk_bound ha ht] at h ⊢
    have hfirst : m'.next? s a = some t := by rw [hnext]; exact ht
    rw [walk_bound (hknown ha) hfirst, ih h, Run.lastOf_cons]

end TransitionSystem

namespace Automaton

variable {d d' : Automaton} {input : String}

/-- Two automata agree on all that a run looks at. -/
structure AgreeOn (d d' : Automaton) (r : Run) : Prop where
  start : d'.start = d.start
  known : d.alphabet ⊆ d'.alphabet
  /-- The character at which the run stopped is unknown to both. -/
  unknown : ∀ position c, r.halt = .unknownSymbol position c → c ∈ d'.alphabet → c ∈ d.alphabet
  steps : ∀ s c, r.Leaves s c → d'.next? s c = d.next? s c
  /-- The symbol on which the run could not go on is bound in both or in none. -/
  stuck : ∀ position s c, r.halt = .noTransition position s c → d'.next? s c = d.next? s c

/-- Automata with the same alphabet and the same transitions agree on every run. -/
theorem agreeOn_of_eq (hstart : d'.start = d.start) (halphabet : d'.alphabet = d.alphabet)
    (hnext : d'.next? = d.next?) (r : Run) : d.AgreeOn d' r where
  start := hstart
  known := by rw [halphabet]; exact List.Subset.refl _
  unknown _ _ _ hc := by rw [← halphabet]; exact hc
  steps s c _ := by rw [hnext]
  stuck _ s c _ := by rw [hnext]

/-- A run on which they agree is the same, up to what is said of its last state. -/
theorem AgreeOn.run_eq (h : d.AgreeOn d' (d.run input)) :
    d'.run input =
      { d.run input with verdict := d'.verdict (d.run input).last (d.run input).halt } := by
  obtain ⟨hstart, hknown, hunknown, hsteps, hstuck⟩ := h
  simp only [Run.leaves_iff, d.start_run, d.steps_run] at hsteps
  rw [d.halt_run] at hunknown hstuck
  have hwalk := TransitionSystem.walk_congr hknown hunknown hsteps hstuck
  rw [d'.run_eq_runOf, hstart, hwalk, d.run_eq_runOf, runOf, hstart]
  rfl

/-- The stopped run after the symbol at which it stopped was declared. -/
theorem run_newSymbol {c : Char} {position : Nat} (hunbound : ∀ s, d.next? s c = none)
    (h : (d.run input).halt = .unknownSymbol position c) :
    Automaton.run { d with alphabet := d.alphabet ++ [c] } input =
      { d.run input with halt := .noTransition position (d.run input).last c } := by
  rw [d.halt_run] at h
  have hwalk : TransitionSystem.walk { d.toTransitionSystem with alphabet := d.alphabet ++ [c] }
      d.start (symbolsFrom 0 input.toList) = _ :=
    TransitionSystem.walk_newSymbol (List.subset_append_left d.alphabet [c])
      (List.mem_append_right _ List.mem_cons_self) rfl hunbound h
  rw [run_eq_runOf]
  refine (congrArg (runOf _) hwalk).trans ?_
  rw [d.run_eq_runOf, runOf, runOf, h]
  rfl

/-! ## The effect of a declaration -/

/-- A symbol was declared. -/
structure WithSymbol (d : Automaton) (c : Char) (d' : Automaton) : Prop where
  /-- If it was known, no run is another. -/
  known : c ∈ d.alphabet → ∀ input, d'.run input = d.run input
  /-- Nor is any run that did not stop at it. -/
  elsewhere : ∀ input, (∀ position, (d.run input).halt ≠ .unknownSymbol position c) →
    d'.run input = d.run input
  /-- A run that stopped at it does so for another reason. -/
  here : ∀ input position, (d.run input).halt = .unknownSymbol position c →
    d'.run input = { d.run input with halt := .noTransition position (d.run input).last c }

/-- A state was declared accepting. -/
structure WithAccepting (d : Automaton) (s : Nat) (d' : Automaton) : Prop where
  path : ∀ input, (d'.run input).path = (d.run input).path
  halt : ∀ input, (d'.run input).halt = (d.run input).halt
  /-- A completed run that ends in the state is accepted. -/
  here : ∀ input, (d.run input).halt = .completed → (d.run input).last = s →
    (d'.run input).verdict = .accepted
  /-- Any other run has the verdict that it had. -/
  elsewhere : ∀ input, ¬ ((d.run input).halt = .completed ∧ (d.run input).last = s) →
    (d'.run input).verdict = (d.run input).verdict

/-- A state was bound on a symbol: a run that neither left the state on the symbol nor was stopped
    there is the same. -/
def WithBinding (d : Automaton) (s : Nat) (c : Char) (d' : Automaton) : Prop :=
  ∀ input, ¬ (d.run input).Leaves s c →
    (∀ position, (d.run input).halt ≠ .noTransition position s c) → d'.run input = d.run input

end Automaton

/-- What a declaration does to the runs of an automaton. -/
def Declaration.Alters (d d' : Automaton) : Declaration → Prop
  | .state _ => ∀ input, d'.run input = d.run input
  | .symbol token => ∃ c, token.toList = [c] ∧ d.WithSymbol c d'
  | .start name => ∃ s, d.state? name = some s ∧ ∀ input, d'.run input = (d.startedIn s).run input
  | .accept name => ∃ s, d.state? name = some s ∧ d.WithAccepting s d'
  | .transition source c _ => ∃ s, d.state? source = some s ∧ d.WithBinding s c d'

namespace Automaton

variable {d : Automaton}

/-! Each kind of declaration, as a change of the automaton. -/

theorem run_addName (d : Automaton) (n input : String) :
    Automaton.run { d with names := d.names ++ [n] } input = d.run input := by
  have hagree : d.AgreeOn { d with names := d.names ++ [n] } (d.run input) := by
    apply agreeOn_of_eq <;> rfl
  exact hagree.run_eq

/-- No run stops at a known symbol. -/
theorem withSymbol_self {c : Char} (hc : c ∈ d.alphabet) : d.WithSymbol c d where
  known _ _ := rfl
  elsewhere _ _ := rfl
  here input position h := by
    rw [d.halt_run] at h
    exact absurd hc (TransitionSystem.unknown_of_walk h)

theorem withSymbol_add (hd : d.toTransitionSystem.WellFormed) {c : Char} (hc : c ∉ d.alphabet) :
    d.WithSymbol c { d with alphabet := d.alphabet ++ [c] } where
  known hc' := absurd hc' hc
  elsewhere input hne :=
    AgreeOn.run_eq
      { start := rfl
        known := List.subset_append_left _ _
        unknown := by
          intro position a ha hmem
          rcases List.mem_append.1 hmem with hmem | hmem
          · exact hmem
          · obtain rfl := List.mem_singleton.1 hmem
            exact absurd ha (hne position)
        steps := fun _ _ _ => rfl
        stuck := fun _ _ _ _ => rfl }
  here input position h := by
    refine run_newSymbol ?_ h
    intro s
    rw [Option.eq_none_iff_forall_ne_some]
    intro t hnext
    exact hc (hd.next?_declared hnext).2.1

theorem run_addAccepting (d : Automaton) (s : Nat) (input : String) :
    Automaton.run { d with accepting := d.accepting.insert s } input =
      { d.run input with
        verdict := Automaton.verdict { d with accepting := d.accepting.insert s }
          (d.run input).last (d.run input).halt } := by
  have hagree : d.AgreeOn { d with accepting := d.accepting.insert s } (d.run input) := by
    apply agreeOn_of_eq <;> rfl
  exact hagree.run_eq

/-- No other state has become accepting. -/
theorem verdict_addAccepting {s t : Nat} {halt : Halt} (h : ¬ (halt = .completed ∧ t = s)) :
    Automaton.verdict { d with accepting := d.accepting.insert s } t halt = d.verdict t halt := by
  cases halt with
  | unknownSymbol position c => rfl
  | noTransition position p c => rfl
  | completed =>
    have hne : t ≠ s := fun heq => h ⟨rfl, heq⟩
    have hsame : (d.accepting.insert s).contains t = d.accepting.contains t := by
      rw [Bool.eq_iff_iff, List.contains_iff_mem, List.contains_iff_mem, List.mem_insert_iff]
      exact ⟨fun hmem => hmem.resolve_left hne, .inr⟩
    exact congrArg Verdict.ofBool hsame

theorem withAccepting_insert (d : Automaton) (s : Nat) :
    d.WithAccepting s { d with accepting := d.accepting.insert s } := by
  refine ⟨?_, ?_, ?_, ?_⟩
  · intro input
    rw [run_addAccepting]
    rfl
  · intro input
    rw [run_addAccepting]
  · intro input hdone hlast
    have hacc : (d.accepting.insert s).contains s = true :=
      List.contains_iff_mem.2 List.mem_insert_self
    rw [run_addAccepting, hdone, hlast]
    show Verdict.ofBool _ = _
    rw [TransitionSystem.isAccepting, hacc]
    rfl
  · intro input hne
    rw [run_addAccepting]
    exact verdict_addAccepting hne

theorem withBinding_cons (d : Automaton) (s t : Nat) (c : Char) :
    d.WithBinding s c { d with bindings := ((s, c), t) :: d.bindings } := by
  intro input hleft htried
  exact AgreeOn.run_eq
    { start := rfl
      known := List.Subset.refl _
      unknown := fun _ _ _ hc => hc
      steps := by
        intro p a hp
        apply TransitionSystem.next?_cons_of_ne
        intro heq
        cases heq
        exact hleft hp
      stuck := by
        intro position p a hp
        apply TransitionSystem.next?_cons_of_ne
        intro heq
        cases heq
        exact htried position hp }

end Automaton

namespace Builder

variable {b b' : Builder} {x : Declaration} {answer : Answer} {d : Automaton}

/-- What was built can be built again after one more declaration, and the declaration tells what has
    become of the runs. -/
theorem WellFormed.exists_alters (hb : b.WellFormed) (hd : b.build = .ok d)
    (hx : b.declare x = .ok (answer, b')) : ∃ d', b'.build = .ok d' ∧ x.Alters d d' := by
  obtain ⟨hwell, -⟩ := hb.build hd
  obtain ⟨hnames, halphabet, hstart, hsystem⟩ := build_eq_ok_iff.1 hd
  obtain ⟨m, first⟩ := d
  obtain rfl : m = b.toTransitionSystem := hsystem
  cases x with
  | state n =>
    rcases declare_state_cases hx with ⟨s, -, -, rfl⟩ | ⟨-, rfl⟩
    · exact ⟨_, hd, fun _ => rfl⟩
    · exact ⟨⟨{ b.toTransitionSystem with names := b.names ++ [n] }, first⟩,
        build_eq_ok_iff.2 ⟨by simp, halphabet, hstart, rfl⟩,
        Automaton.run_addName ⟨b.toTransitionSystem, first⟩ n⟩
  | symbol token =>
    obtain ⟨c, hc, -, rfl⟩ := declare_symbol_iff.1 hx
    have htoken := symbolOf_eq_ok_iff.1 hc
    split
    · rename_i hknown
      exact ⟨_, hd, c, htoken, Automaton.withSymbol_self hknown⟩
    · rename_i hnew
      exact ⟨⟨{ b.toTransitionSystem with alphabet := b.alphabet ++ [c] }, first⟩,
        build_eq_ok_iff.2 ⟨hnames, by simp, hstart, rfl⟩, c, htoken,
        Automaton.withSymbol_add hwell hnew⟩
  | start n =>
    obtain ⟨s, hs, -, rfl⟩ := declare_start_iff.1 hx
    exact ⟨⟨b.toTransitionSystem, s⟩, build_eq_ok_iff.2 ⟨hnames, halphabet, rfl, rfl⟩, s, hs,
      fun _ => rfl⟩
  | accept n =>
    obtain ⟨s, hs, -, rfl⟩ := declare_accept_iff.1 hx
    exact ⟨⟨{ b.toTransitionSystem with accepting := b.accepting.insert s }, first⟩,
      build_eq_ok_iff.2 ⟨hnames, halphabet, hstart, rfl⟩, s, hs,
      Automaton.withAccepting_insert ⟨b.toTransitionSystem, first⟩ s⟩
  | transition p c q =>
    obtain ⟨s, t, hs, -, -, -, rfl⟩ := declare_transition_iff.1 hx
    exact ⟨⟨{ b.toTransitionSystem with bindings := ((s, c), t) :: b.bindings }, first⟩,
      build_eq_ok_iff.2 ⟨hnames, halphabet, hstart, rfl⟩, s, hs,
      Automaton.withBinding_cons ⟨b.toTransitionSystem, first⟩ s t c⟩

/-- **A declaration acts on runs locally.**  Whatever was declared before: if it could be built and
    one more declaration succeeds, it can be built again, and the runs differ only where the
    declaration says. -/
theorem exists_alters_of_declare {history : List Declaration}
    (hd : (({} : Builder).replay history).2.build = .ok d)
    (hx : (({} : Builder).replay history).2.declare x = .ok (answer, b')) :
    ∃ d', b'.build = .ok d' ∧ x.Alters d d' :=
  (wellFormed_empty.replay history).exists_alters hd hx

/-- Two states with a step from one to the other. -/
def pair : Automaton := ⟨⟨["A", "B"], ['0'], [], [((0, '0'), 1)]⟩, 0⟩

/-- What was declared for it. -/
def pairHistory : List Declaration :=
  [.state "A", .state "B", .symbol "0", .start "A", .transition "A" '0' "B"]

/-- What may be declared then: among them a known and a new symbol, and a new binding and one in the
    place of another. -/
def furtherDeclarations : List Declaration :=
  [.state "C", .symbol "0", .symbol "1", .start "B", .accept "B", .transition "B" '0' "A",
    .transition "A" '0' "A"]

theorem pair_alters :
    (({} : Builder).replay pairHistory).2.build = .ok pair ∧
      ∀ x ∈ furtherDeclarations, ∃ answer b' d',
        (({} : Builder).replay pairHistory).2.declare x = .ok (answer, b') ∧
          b'.build = .ok d' ∧ x.Alters pair d' := by
  have hbuild : (({} : Builder).replay pairHistory).2.build = .ok pair := by decide
  have hsucceeds : ∀ x ∈ furtherDeclarations,
      ((({} : Builder).replay pairHistory).2.declare x).isOk = true := by decide
  refine ⟨hbuild, ?_⟩
  intro x hmem
  have hok := hsucceeds x hmem
  cases hx : (({} : Builder).replay pairHistory).2.declare x with
  | error cause =>
    rw [hx] at hok
    cases hok
  | ok r =>
    obtain ⟨answer, b'⟩ := r
    obtain ⟨d', hd', halters⟩ := exists_alters_of_declare hbuild hx
    exact ⟨answer, b', d', rfl, hd', halters⟩

end Builder

end Acceptor
