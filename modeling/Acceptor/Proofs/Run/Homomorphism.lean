/-
  Runs and maps between automata.

  A map of states that takes start to start, keeps acceptance and goes along with every transition
  takes each run of the one automaton to a run of the other.  It need neither be injective nor hit
  every state.

  1. **Homomorphisms** — `d.IsHom P d' f`: the conditions on `f`, asked of the states for which `P`
     holds.  All states of a built automaton are more than is needed: a run never leaves the states
     that are reached, so `d.Reaches` is enough (`IsHom.of_isBuilt`).

  2. **Mapped runs** — `Halt.map` and `Run.map` put `f s` in place of each state `s` and change
     nothing else.

  3. **Lockstep** — one step of a walk from `s` is one step of the other walk from `f s`, and both
     stop for the same reason (`walk_map`); so a run is mapped to a run (`run_eq_map`).

  4. **Names** — `d.SameByName d' g`: what can be said of the reached states of `d` by their names
     holds of the states of `d'` with the names under `g`.  Numbers do not occur in it, nor the
     order of the alphabet, nor any state that is not reached.  Such automata are joined by a
     homomorphism (`SameByName.isHom`).

  5. **Histories** — `History.SameContent xs ys`: the same names, symbols and accepting states in
     any order and any number, and the same last start and last targets.  What is built from such
     histories is the same by name (`SameContent.sameByName`).

  Main result: `homomorphism_preserves_runs`.
-/
import Acceptor.Proofs.Automaton.Alike
import Acceptor.Proofs.Builder.Account

namespace Acceptor

/-! ## Homomorphisms -/

namespace Automaton

/-- A map of states respects start, symbols, acceptance and transitions, on the states for which
    `P` holds. -/
structure IsHom (d : Automaton) (P : Nat → Prop) (d' : Automaton) (f : Nat → Nat) : Prop where
  symbols : ∀ c, c ∈ d'.alphabet ↔ c ∈ d.alphabet
  start : f d.start = d'.start
  accepting : ∀ s, P s → (d'.isAccepting (f s) = true ↔ d.isAccepting s = true)
  /-- A transition goes to a transition, and a missing one to a missing one. -/
  next? : ∀ s, P s → ∀ c ∈ d.alphabet, d'.next? (f s) c = (d.next? s c).map f

variable {d d' : Automaton} {f : Nat → Nat} {P Q : Nat → Prop}

/-- It is enough to look at fewer states. -/
theorem IsHom.mono (h : d.IsHom P d' f) (hPQ : ∀ s, Q s → P s) : d.IsHom Q d' f where
  symbols := h.symbols
  start := h.start
  accepting s hs := h.accepting s (hPQ s hs)
  next? s hs := h.next? s (hPQ s hs)

/-- In a built automaton every state that is reached is a state. -/
theorem IsHom.of_isBuilt (hd : d.IsBuilt) (h : d.IsHom (· < d.stateCount) d' f) :
    d.IsHom d.Reaches d' f := by
  obtain ⟨hm, hstart⟩ := hd.wellFormed
  exact h.mono fun s hs => hs.lt hm hstart

end Automaton

/-! ## Mapped runs -/

/-- The reason for a halt, with the state under a map. -/
def Halt.map (f : Nat → Nat) : Halt → Halt
  | .completed => .completed
  | .unknownSymbol position c => .unknownSymbol position c
  | .noTransition position s c => .noTransition position (f s) c

namespace Run

/-- The run with every state under a map. -/
def map (f : Nat → Nat) (r : Run) : Run where
  start := f r.start
  steps := r.steps.map fun (c, s) => (c, f s)
  halt := r.halt.map f
  verdict := r.verdict

theorem path_map (f : Nat → Nat) (r : Run) :
    (r.map f).path = r.path.map fun (s, symbol) => (f s, symbol) := by
  show (f r.start, none) :: List.map _ (List.map _ r.steps) = _ :: List.map _ (List.map _ r.steps)
  rw [List.map_map, List.map_map]
  rfl

theorem lastOf_map (f : Nat → Nat) (s : Nat) (steps : List (Char × Nat)) :
    lastOf (f s) (steps.map fun (c, t) => (c, f t)) = f (lastOf s steps) := by
  unfold lastOf
  rw [List.getLast?_map]
  cases steps.getLast? <;> rfl

end Run

namespace Automaton

variable {d d' : Automaton} {f : Nat → Nat} {s : Nat} {input : String}

/-! ## Lockstep -/

/-- A walk from a reached state is mapped to the walk from its image.  Induction along the walk;
    it stays on reached states, so the conditions on the map hold all the way. -/
theorem walk_map (h : d.IsHom d.Reaches d' f) (hs : d.Reaches s) (xs : List (Char × Nat)) :
    d'.walk (f s) xs =
      ((d.walk s xs).1.map fun (c, t) => (c, f t), (d.walk s xs).2.map f) := by
  induction s, xs using d.walk_induction with
  | nil s => rfl
  | unknown s c position rest hc =>
    have hc' : c ∉ d'.alphabet := mt (h.symbols c).1 hc
    rw [TransitionSystem.walk_unknown hc, TransitionSystem.walk_unknown hc']
    rfl
  | unbound s c position rest hc hu =>
    have hc' : c ∈ d'.alphabet := (h.symbols c).2 hc
    have hu' : d'.next? (f s) c = none := by
      rw [h.next? s hs c hc, hu]
      rfl
    rw [TransitionSystem.walk_unbound hc hu, TransitionSystem.walk_unbound hc' hu']
    rfl
  | bound s c position rest t hc ht ih =>
    have hc' : c ∈ d'.alphabet := (h.symbols c).2 hc
    have ht' : d'.next? (f s) c = some (f t) := by
      rw [h.next? s hs c hc, ht]
      rfl
    rw [TransitionSystem.walk_bound hc ht, TransitionSystem.walk_bound hc' ht', ih (.step hs ht)]
    rfl

/-- The verdict on a run that ended in a reached state is the verdict on its image. -/
theorem verdict_map (h : d.IsHom d.Reaches d' f) (hs : d.Reaches s) (halt : Halt) :
    d'.verdict (f s) (halt.map f) = d.verdict s halt := by
  cases halt with
  | completed =>
    have haccepting : d'.isAccepting (f s) = d.isAccepting s :=
      Bool.eq_iff_iff.2 (h.accepting s hs)
    show Verdict.ofBool (d'.isAccepting (f s)) = Verdict.ofBool (d.isAccepting s)
    rw [haccepting]
  | unknownSymbol position c => rfl
  | noTransition position t c => rfl

/-- A run is mapped to the run on the same input. -/
theorem run_eq_map (h : d.IsHom d.Reaches d' f) (input : String) :
    d'.run input = (d.run input).map f := by
  have hwalk := walk_map h .start (symbolsFrom 0 input.toList)
  rw [h.start] at hwalk
  have hsteps : (d'.run input).steps = (d.run input).steps.map fun (c, s) => (c, f s) := by
    rw [d'.steps_run, d.steps_run, hwalk]
  have hhalt : (d'.run input).halt = (d.run input).halt.map f := by
    rw [d'.halt_run, d.halt_run, hwalk]
  have hlast : (d'.run input).last = f (d.run input).last := by
    rw [d'.last_run, hsteps, ← h.start, Run.lastOf_map]
    rfl
  have hverdict : (d'.run input).verdict = (d.run input).verdict := by
    rw [d'.verdict_run, d.verdict_run, hlast, hhalt,
      verdict_map h (reaches_of_visits (Run.visits_last _))]
  have hstart : (d'.run input).start = f (d.run input).start := h.start.symm
  calc d'.run input
    _ = ⟨(d'.run input).start, (d'.run input).steps, (d'.run input).halt,
          (d'.run input).verdict⟩ := rfl
    _ = (d.run input).map f := by
      rw [hstart, hsteps, hhalt, hverdict]
      rfl

/-! ## Names -/

/-- What the reached states of `d` do, said by their names, the states of `d'` do under the names
    that `g` gives. -/
structure SameByName (d d' : Automaton) (g : String → String) : Prop where
  symbols : ∀ c, c ∈ d'.alphabet ↔ c ∈ d.alphabet
  start : d'.name? d'.start = (d.name? d.start).map g
  accepting : ∀ s s', d.Reaches s → d'.name? s' = (d.name? s).map g →
    (d'.isAccepting s' = true ↔ d.isAccepting s = true)
  /-- A transition goes to the state of the name, and a missing one to a missing one. -/
  next? : ∀ s s', d.Reaches s → d'.name? s' = (d.name? s).map g → ∀ c ∈ d.alphabet,
    (d'.next? s' c).map d'.name? = (d.next? s c).map fun t => (d.name? t).map g

/-- The state of `d'` whose name is, under `g`, that of a state of `d`. -/
def partner (d d' : Automaton) (g : String → String) (s : Nat) : Nat :=
  (d'.state? (g (d.name s))).getD 0

section SameByName

variable {g : String → String}

/-- The partner of a state is the state with its name, if there is one. -/
theorem partner_eq (hm' : d'.toTransitionSystem.WellFormed) {s' : Nat} (hs : s < d.stateCount)
    (h : d'.name? s' = (d.name? s).map g) : d.partner d' g s = s' := by
  rw [TransitionSystem.name?_eq_some_name hs] at h
  have hstate : d'.state? (g (d.name s)) = some s' := hm'.state?_eq_some_iff.2 h
  rw [partner, hstate]
  rfl

/-- A reached state has a partner of its name.  Induction on the chain of transitions. -/
theorem SameByName.name?_partner (h : d.SameByName d' g) (hd : d.IsBuilt) (hd' : d'.IsBuilt)
    (hs : d.Reaches s) : d'.name? (d.partner d' g s) = (d.name? s).map g := by
  obtain ⟨hm, hstart⟩ := hd.wellFormed
  obtain ⟨hm', -⟩ := hd'.wellFormed
  induction hs with
  | start =>
    rw [partner_eq hm' hstart h.start]
    exact h.start
  | @step s t c hs ht ih =>
    obtain ⟨-, hc, htlt⟩ := hm.next?_declared ht
    have hnext := h.next? s _ hs ih c hc
    rw [ht] at hnext
    obtain ⟨t', -, hname⟩ := Option.map_eq_some_iff.1 hnext
    rw [partner_eq hm' htlt hname]
    exact hname

/-- The partners of reached states make a homomorphism. -/
theorem SameByName.isHom (h : d.SameByName d' g) (hd : d.IsBuilt) (hd' : d'.IsBuilt) :
    d.IsHom d.Reaches d' (d.partner d' g) := by
  obtain ⟨hm, hstart⟩ := hd.wellFormed
  obtain ⟨hm', -⟩ := hd'.wellFormed
  refine ⟨h.symbols, partner_eq hm' hstart h.start, ?_, ?_⟩
  · intro s hs
    exact h.accepting s _ hs (h.name?_partner hd hd' hs)
  · intro s hs c hc
    have hnext := h.next? s _ hs (h.name?_partner hd hd' hs) c hc
    cases ht : d.next? s c with
    | none =>
      rw [ht] at hnext
      exact Option.map_eq_none_iff.1 hnext
    | some t =>
      rw [ht] at hnext
      obtain ⟨t', ht', hname⟩ := Option.map_eq_some_iff.1 hnext
      have hpartner : d.partner d' g t = t' :=
        partner_eq hm' (hm.next?_declared ht).2.2 hname
      rw [ht', Option.map_some, hpartner]

end SameByName

end Automaton

/-! ## Histories -/

/-- Two histories say the same, but for order and repetition where these do not count. -/
structure History.SameContent (xs ys : List Declaration) : Prop where
  names : ∀ n, n ∈ xs.filterMap name? ↔ n ∈ ys.filterMap name?
  symbols : ∀ c, c ∈ xs.filterMap symbol? ↔ c ∈ ys.filterMap symbol?
  start : (xs.filterMap start?).getLast? = (ys.filterMap start?).getLast?
  accepting : ∀ n, n ∈ xs.filterMap accept? ↔ n ∈ ys.filterMap accept?
  targets : ∀ p c, (xs.filterMap (target? p c)).getLast? = (ys.filterMap (target? p c)).getLast?

section SameContent

variable {xs ys : List Declaration} {b b' : Builder} {d d' : Automaton}

/-- What is built from histories that say the same is the same by name. -/
theorem History.SameContent.sameByName (h : SameContent xs ys) (hr : b.Records xs)
    (hr' : b'.Records ys) (hb : b.WellFormed) (hb' : b'.WellFormed) (hd : b.build = .ok d)
    (hd' : b'.build = .ok d') : d.SameByName d' id := by
  obtain ⟨-, -, hstart, hsystem⟩ := Builder.build_eq_ok_iff.1 hd
  obtain ⟨-, -, hstart', hsystem'⟩ := Builder.build_eq_ok_iff.1 hd'
  -- a reached state has a name, and so has its counterpart
  have hname : ∀ {s s'}, d.Reaches s → d'.name? s' = (d.name? s).map id →
      ∃ p, b.name? s = some p ∧ b'.name? s' = some p := by
    intro s s' hs hs'
    have hlt : s < d.stateCount := hs.lt (hb.build hd).1 (hb.build hd).2
    obtain ⟨p, hp⟩ := TransitionSystem.exists_name?_of_lt hlt
    rw [hp] at hs'
    rw [hsystem] at hp
    rw [hsystem'] at hs'
    exact ⟨p, hp, hs'⟩
  constructor
  · intro c
    rw [hsystem, hsystem', hr.mem_alphabet_iff, hr'.mem_alphabet_iff]
    exact (h.symbols c).symm
  · obtain ⟨n, hn, hlast⟩ := hr.exists_name_of_start hb hstart
    obtain ⟨n', hn', hlast'⟩ := hr'.exists_name_of_start hb' hstart'
    have hsame : n = n' := by
      rw [h.start, hlast'] at hlast
      exact (Option.some.inj hlast).symm
    rw [hsystem, hsystem', hn, hn', hsame]
    rfl
  · intro s s' hs hs'
    obtain ⟨p, hp, hp'⟩ := hname hs hs'
    rw [hsystem, hsystem', hr.isAccepting_iff hb hp, hr'.isAccepting_iff hb' hp']
    exact (h.accepting p).symm
  · intro s s' hs hs' c _
    obtain ⟨p, hp, hp'⟩ := hname hs hs'
    rw [hsystem, hsystem']
    cases ht : b.next? s c with
    | none =>
      have hnone : (ys.filterMap (target? p c)).getLast? = none := by
        rw [← h.targets, (hr.next?_eq_none_iff hb hp).1 ht]
        rfl
      rw [(hr'.next?_eq_none_iff hb' hp').2 (List.getLast?_eq_none_iff.1 hnone)]
      rfl
    | some t =>
      obtain ⟨q, hq, hlast⟩ := (hr.next?_eq_some_iff hb hp).1 ht
      rw [h.targets] at hlast
      obtain ⟨s₁, t', hs₁, ht', hq'⟩ := (hr'.next?_iff p c q).1 hlast
      obtain rfl : s₁ = s' := hb'.system.name?_inj hs₁ hp'
      rw [ht', Option.map_some, Option.map_some, hq, hq']
      rfl

end SameContent

namespace Automaton

/-! ## The main result -/

/-- **Homomorphisms preserve runs.**  The image of a run is the run on the same input, with the
    same symbols and positions, the same kind of halt and the same verdict.  So a verdict does not
    depend on the numbers or the names of states, on the order of the alphabet, or on states that
    are not reached; nor on the order of declarations or on repetitions among them. -/
theorem homomorphism_preserves_runs :
    (∀ (d d' : Automaton) (f : Nat → Nat), d.IsBuilt → d.IsHom (· < d.stateCount) d' f →
      ∀ input, d'.run input = (d.run input).map f ∧
        (d'.run input).path = (d.run input).path.map fun (s, symbol) => (f s, symbol)) ∧
      (∀ (d d' : Automaton) (g : String → String), d.IsBuilt → d'.IsBuilt → d.SameByName d' g →
        ∀ input, (d'.run input).verdict = (d.run input).verdict) ∧
      ∀ (xs ys : List Declaration) (d d' : Automaton),
        (({} : Builder).replay xs).2.build = .ok d →
        (({} : Builder).replay ys).2.build = .ok d' →
        History.SameContent (History.accepted xs) (History.accepted ys) →
        ∀ input, (d'.run input).verdict = (d.run input).verdict := by
  -- automata that are the same by name are joined by a homomorphism
  have hnames : ∀ (d d' : Automaton) (g : String → String), d.IsBuilt → d'.IsBuilt →
      d.SameByName d' g → ∀ input, (d'.run input).verdict = (d.run input).verdict := by
    intro d d' g hd hd' h input
    rw [run_eq_map (h.isHom hd hd') input]
    rfl
  refine ⟨?_, hnames, ?_⟩
  · intro d d' f hd h input
    have hrun : d'.run input = (d.run input).map f := run_eq_map (h.of_isBuilt hd) input
    refine ⟨hrun, ?_⟩
    rw [hrun, Run.path_map]
  · intro xs ys d d' hd hd' h
    have hsame : d.SameByName d' id :=
      h.sameByName (Builder.records_replay xs) (Builder.records_replay ys)
        (Builder.wellFormed_empty.replay xs) (Builder.wellFormed_empty.replay ys) hd hd'
    exact hnames d d' id ⟨xs, hd⟩ ⟨ys, hd'⟩ hsame

/-- Steps counted by four; an odd number of them is accepted. -/
def quarters : Automaton :=
  ⟨⟨["E0", "O0", "E1", "O1"], ['a', 'b'], [3, 1],
    [((3, 'a'), 0), ((2, 'a'), 3), ((1, 'a'), 2), ((0, 'a'), 1)]⟩, 0⟩

def quartersHistory : List Declaration :=
  [.state "E0", .state "O0", .state "E1", .state "O1", .symbol "a", .symbol "b", .start "E0",
   .accept "O0", .accept "O1", .transition "E0" 'a' "O0", .transition "O0" 'a' "E1",
   .transition "E1" 'a' "O1", .transition "O1" 'a' "E0"]

/-- The same automaton, declared in another order, with repetitions and with failures. -/
def quartersAgain : List Declaration :=
  [.symbol "b", .state "O1", .start "E0", .state "O0", .state "O1", .symbol "ab", .symbol "a",
   .state "E1", .state "E0", .start "O0", .accept "O1", .accept "O0", .accept "O1", .start "E0",
   .transition "E0" 'c' "E0", .transition "E0" 'a' "E1", .transition "E0" 'a' "O0",
   .transition "O0" 'a' "E1", .transition "E1" 'a' "O1", .transition "O1" 'a' "E0"]

/-- Steps counted by two, with another order of states and symbols and a state to which nothing
    leads. -/
def halves : Automaton :=
  ⟨⟨["odd", "even", "spare"], ['b', 'a'], [0], [((2, 'b'), 0), ((0, 'a'), 1), ((1, 'a'), 0)]⟩, 1⟩

def halvesHistory : List Declaration :=
  [.state "odd", .state "even", .state "spare", .symbol "b", .symbol "a", .start "even",
   .accept "odd", .transition "even" 'a' "odd", .transition "odd" 'a' "even",
   .transition "spare" 'b' "odd"]

/-- The half in which a quarter lies. -/
def halfOf (s : Nat) : Nat := 1 - s % 2

/-- Its name. -/
def halfNamed (name : String) : String := if name = "E0" ∨ name = "E1" then "even" else "odd"

theorem build_quarters : (({} : Builder).replay quartersHistory).2.build = .ok quarters := by
  decide +kernel

theorem quarters_isBuilt : quarters.IsBuilt := ⟨quartersHistory, build_quarters⟩

theorem halves_isBuilt : halves.IsBuilt := ⟨halvesHistory, by decide +kernel⟩

theorem mem_halves_alphabet_iff (c : Char) : c ∈ halves.alphabet ↔ c ∈ quarters.alphabet := by
  show c ∈ ['b', 'a'] ↔ c ∈ ['a', 'b']
  simp [or_comm]

theorem eq_or_eq_of_mem_quarters {c : Char} (h : c ∈ quarters.alphabet) : c = 'a' ∨ c = 'b' := by
  simpa [quarters] using h

theorem halfOf_isHom : quarters.IsHom (· < 4) halves halfOf := by
  have haccepting : ∀ s ∈ List.range 4,
      (halves.isAccepting (halfOf s) = true ↔ quarters.isAccepting s = true) := by decide +kernel
  have hnext : ∀ s ∈ List.range 4,
      halves.next? (halfOf s) 'a' = (quarters.next? s 'a').map halfOf ∧
        halves.next? (halfOf s) 'b' = (quarters.next? s 'b').map halfOf := by decide +kernel
  refine ⟨mem_halves_alphabet_iff, rfl, fun s hs => haccepting s (List.mem_range.2 hs), ?_⟩
  intro s hs c hc
  rcases eq_or_eq_of_mem_quarters hc with rfl | rfl
  · exact (hnext s (List.mem_range.2 hs)).1
  · exact (hnext s (List.mem_range.2 hs)).2

theorem halfNamed_sameByName : quarters.SameByName halves halfNamed := by
  have hlt : ∀ {s}, quarters.Reaches s → s < 4 :=
    fun hs => hs.lt quarters_isBuilt.wellFormed.1 quarters_isBuilt.wellFormed.2
  -- a state with one of the names is one of the three
  have hlt' : ∀ {s s'}, quarters.Reaches s →
      halves.name? s' = (quarters.name? s).map halfNamed → s' < 3 := by
    intro s s' hs h
    rw [TransitionSystem.name?_eq_some_name (m := quarters.toTransitionSystem) (hlt hs)] at h
    exact TransitionSystem.lt_of_name?_eq_some h
  have haccepting : ∀ s ∈ List.range 4, ∀ s' ∈ List.range 3,
      halves.name? s' = (quarters.name? s).map halfNamed →
        (halves.isAccepting s' = true ↔ quarters.isAccepting s = true) := by decide +kernel
  have hnext : ∀ s ∈ List.range 4, ∀ s' ∈ List.range 3,
      halves.name? s' = (quarters.name? s).map halfNamed →
        ((halves.next? s' 'a').map halves.name? =
          (quarters.next? s 'a').map fun t => (quarters.name? t).map halfNamed) ∧
        (halves.next? s' 'b').map halves.name? =
          (quarters.next? s 'b').map fun t => (quarters.name? t).map halfNamed := by
    decide +kernel
  refine ⟨mem_halves_alphabet_iff, by decide +kernel, ?_, ?_⟩
  · intro s s' hs h
    exact haccepting s (List.mem_range.2 (hlt hs)) s' (List.mem_range.2 (hlt' hs h)) h
  · intro s s' hs h c hc
    have hboth := hnext s (List.mem_range.2 (hlt hs)) s' (List.mem_range.2 (hlt' hs h)) h
    rcases eq_or_eq_of_mem_quarters hc with rfl | rfl
    · exact hboth.1
    · exact hboth.2

theorem quartersAgain_sameContent : History.SameContent (History.accepted quartersHistory)
    (History.accepted quartersAgain) := by
  have hkept : History.accepted quartersAgain =
      [.symbol "b", .state "O1", .state "O0", .state "O1", .symbol "a", .state "E1", .state "E0",
       .start "O0", .accept "O1", .accept "O0", .accept "O1", .start "E0",
       .transition "E0" 'a' "E1", .transition "E0" 'a' "O0", .transition "O0" 'a' "E1",
       .transition "E1" 'a' "O1", .transition "O1" 'a' "E0"] := by decide +kernel
  have hall : History.accepted quartersHistory = quartersHistory := by decide +kernel
  rw [hkept, hall]
  refine ⟨?_, ?_, by decide +kernel, ?_, ?_⟩
  · intro n
    have hsub : ["E0", "O0", "E1", "O1"] ⊆ ["O1", "O0", "O1", "E1", "E0"] := by decide
    have hsub' : ["O1", "O0", "O1", "E1", "E0"] ⊆ ["E0", "O0", "E1", "O1"] := by decide
    exact ⟨fun h => hsub h, fun h => hsub' h⟩
  · intro c
    simp [quartersHistory, History.symbol?, symbolOf, or_comm]
  · intro n
    have hsub : ["O0", "O1"] ⊆ ["O1", "O0", "O1"] := by decide
    have hsub' : ["O1", "O0", "O1"] ⊆ ["O0", "O1"] := by decide
    exact ⟨fun h => hsub h, fun h => hsub' h⟩
  · intro p c
    by_cases hpc : "E0" = p ∧ 'a' = c
    · -- the target that was given first is replaced
      obtain ⟨rfl, rfl⟩ := hpc
      decide +kernel
    · simp only [quartersHistory, List.filterMap_cons, History.target?, if_neg hpc]

/-- The numbers of the automaton that is declared again are not those of `quarters`. -/
theorem exists_build_quartersAgain :
    ∃ d, (({} : Builder).replay quartersAgain).2.build = .ok d ∧ d ≠ quarters := by
  refine ⟨⟨⟨["O1", "O0", "E1", "E0"], ['b', 'a'], [1, 0], [((0, 'a'), 3), ((2, 'a'), 0),
    ((1, 'a'), 2), ((3, 'a'), 1), ((3, 'a'), 2)]⟩, 3⟩, ?_, ?_⟩
  · decide +kernel
  · decide +kernel

theorem quarters_run_as_halves :
    quarters.IsHom (· < 4) halves halfOf ∧
      (∀ input, halves.run input = (quarters.run input).map halfOf ∧
        (halves.run input).path = (quarters.run input).path.map fun (s, c) => (halfOf s, c)) ∧
      quarters.SameByName halves halfNamed ∧
      (∀ input, (halves.run input).verdict = (quarters.run input).verdict) ∧
      ∃ d, (({} : Builder).replay quartersAgain).2.build = .ok d ∧ d ≠ quarters ∧
        ∀ input, (d.run input).verdict = (quarters.run input).verdict := by
  obtain ⟨hruns, hsame, hhistories⟩ := homomorphism_preserves_runs
  obtain ⟨d, hd, hne⟩ := exists_build_quartersAgain
  have hmapped := hruns quarters halves halfOf quarters_isBuilt halfOf_isHom
  have hnamed := hsame quarters halves halfNamed quarters_isBuilt halves_isBuilt
    halfNamed_sameByName
  have hagain := hhistories _ _ quarters d build_quarters hd quartersAgain_sameContent
  exact ⟨halfOf_isHom, hmapped, halfNamed_sameByName, hnamed, d, hd, hne, hagain⟩

end Automaton

end Acceptor
