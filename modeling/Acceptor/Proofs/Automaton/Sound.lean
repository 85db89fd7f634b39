/-
  Every number that a builder or an automaton gives away is one of its states.

  1. **Builders** — `Builder.Sound`: the look-ups agree with each other, the start is a state, and
     so is every number in an answer.

  2. **Automata** — `Automaton.Sound`: the same of what was built, which moreover has a state and a
     symbol; all that it lists are states, and each of its runs can be put into words.

  3. **Histories** — `every_history_sound`: this holds after every history, whatever was declared
     and whatever failed, of all that is built and of all that is read from a text.  A builder with
     look-up tables beside its lists goes through the same history with the same outcomes, and its
     tables agree with the lists at the end.
-/
import Acceptor.Proofs.Automaton.Listing
import Acceptor.Proofs.Builder.Indexed
import Acceptor.Proofs.Builder.Records
import Acceptor.Proofs.Definition.Reading
import Acceptor.Proofs.Run.Rendering

namespace Acceptor

/-! ## Builders -/

/-- The states in an answer. -/
def Answer.states : Answer → List Nat
  | .state s => [s]
  | .symbol _ => []
  | .replaced old => old.toList

namespace Builder

/-- What may be relied on between declarations. -/
structure Sound (b : Builder) : Prop where
  coherent : b.toTransitionSystem.Coherent
  start_lt : ∀ s, b.start = some s → s < b.stateCount
  /-- The states in an answer are states of the builder that gave it. -/
  answer_lt : ∀ x answer b', b.declare x = .ok (answer, b') →
    ∀ s ∈ answer.states, s < b'.stateCount

/-- A declaration takes no state away. -/
theorem stateCount_le_of_declare {b b' : Builder} {x : Declaration} {answer : Answer}
    (h : b.declare x = .ok (answer, b')) : b.stateCount ≤ b'.stateCount := by
  cases x with
  | state n =>
    rcases declare_state_cases h with ⟨s, -, -, rfl⟩ | ⟨-, rfl⟩
    · exact Nat.le_refl _
    · show b.names.length ≤ (b.names ++ [n]).length
      rw [List.length_append]
      omega
  | symbol token =>
    obtain ⟨c, -, -, rfl⟩ := declare_symbol_iff.1 h
    split <;> exact Nat.le_refl _
  | start n =>
    obtain ⟨s, -, -, rfl⟩ := declare_start_iff.1 h
    exact Nat.le_refl _
  | accept n =>
    obtain ⟨s, -, -, rfl⟩ := declare_accept_iff.1 h
    exact Nat.le_refl _
  | transition p c q =>
    obtain ⟨s, t, -, -, -, -, rfl⟩ := declare_transition_iff.1 h
    exact Nat.le_refl _

/-- The states in an answer are states of the builder after it: those that it names are found by
    their names, and those that it replaces were there before. -/
theorem WellFormed.answer_lt {b b' : Builder} (hb : b.WellFormed) {x : Declaration}
    {answer : Answer} (h : b.declare x = .ok (answer, b')) {s : Nat} (hs : s ∈ answer.states) :
    s < b'.stateCount := by
  have hle := stateCount_le_of_declare h
  cases x with
  | state n =>
    rcases declare_state_cases h with ⟨t, ht, rfl, rfl⟩ | ⟨rfl, rfl⟩
    · rw [List.mem_singleton.1 hs]
      exact TransitionSystem.lt_of_state?_eq_some ht
    · rw [List.mem_singleton.1 hs]
      show b.names.length < (b.names ++ [n]).length
      rw [List.length_append, List.length_singleton]
      omega
  | symbol token =>
    -- a symbol is no state
    obtain ⟨c, -, rfl, -⟩ := declare_symbol_iff.1 h
    cases hs
  | start n =>
    obtain ⟨t, -, rfl, -⟩ := declare_start_iff.1 h
    have hold : s < b.stateCount := hb.start_lt s (Option.mem_toList.1 hs)
    omega
  | accept n =>
    obtain ⟨t, ht, rfl, -⟩ := declare_accept_iff.1 h
    have hfound : t < b.stateCount := TransitionSystem.lt_of_state?_eq_some ht
    rw [List.mem_singleton.1 hs]
    omega
  | transition p c q =>
    obtain ⟨t, u, -, -, -, rfl, -⟩ := declare_transition_iff.1 h
    obtain ⟨-, -, hold⟩ := hb.system.next?_declared (Option.mem_toList.1 hs)
    omega

theorem WellFormed.sound {b : Builder} (hb : b.WellFormed) : b.Sound where
  coherent := hb.system.coherent
  start_lt := hb.start_lt
  answer_lt _ _ _ h _ hs := hb.answer_lt h hs

end Builder

/-! ## Automata -/

namespace Automaton

/-- What may be relied on in an automaton. -/
structure Sound (d : Automaton) : Prop where
  coherent : d.toTransitionSystem.Coherent
  has_state : 0 < d.stateCount
  has_symbol : d.alphabet ≠ []
  /-- The start, and every number on a list, is a state. -/
  listed : d.Listed
  /-- The states of runs have names. -/
  rendered : d.Rendered

/-- What a well-formed builder builds is sound. -/
theorem sound_of_build {b : Builder} {d : Automaton} (hb : b.WellFormed) (hd : b.build = .ok d) :
    d.Sound := by
  obtain ⟨hm, hstart⟩ := hb.build hd
  obtain ⟨-, halphabet, -, hsystem⟩ := Builder.build_eq_ok_iff.1 hd
  exact
    { coherent := hm.coherent
      has_state := Nat.zero_lt_of_lt hstart
      has_symbol := by rwa [hsystem]
      listed := listed hm hstart
      rendered := rendered hm hstart }

end Automaton

/-! ## Histories -/

/-- What is read from a text has a history. -/
theorem exists_history_of_parse {text : String} {d : Automaton}
    (h : (Definition.parse text).value = .ok d) :
    ∃ history, (({} : Builder).replay history).2.build = .ok d := by
  obtain ⟨-, rules, answers, b, -, hxs, hd⟩ := Definition.parse_eq_ok_iff.1 h
  exact ⟨_, by rw [Builder.replay_of_declareAll hxs]; exact hd⟩

/-- **After every history the builder is sound, and so is all that is built or read.**  Look-up
    tables beside the lists give the same outcomes and stay in step with the lists. -/
theorem every_history_sound :
    (∀ history, (({} : Builder).replay history).2.Sound) ∧
      (∀ history, (({} : IndexedBuilder).replay history).1 = (({} : Builder).replay history).1 ∧
        (({} : IndexedBuilder).replay history).2.Follows (({} : Builder).replay history).2) ∧
      (∀ history d, (({} : Builder).replay history).2.build = .ok d → d.Sound) ∧
      ∀ text d, (Definition.parse text).value = .ok d → d.Sound := by
  have hhistory : ∀ history, (({} : Builder).replay history).2.WellFormed :=
    fun history => Builder.wellFormed_empty.replay history
  refine ⟨fun history => (hhistory history).sound, ?_, ?_, ?_⟩
  · intro history
    exact IndexedBuilder.follows_empty.replay history
  · intro history d hd
    exact Automaton.sound_of_build (hhistory history) hd
  · intro text d h
    obtain ⟨history, hd⟩ := exists_history_of_parse h
    exact Automaton.sound_of_build (hhistory history) hd

/-- A history with two failures among its declarations: a state that is never declared, and a symbol
    of two characters. -/
def faltering : List Declaration :=
  [.state "A", .accept "B", .symbol "01", .symbol "0", .start "A", .transition "A" '0' "A"]

/-- What is built in spite of the failures is sound. -/
theorem faltering_sound :
    (({} : Builder).replay faltering).2.build = .ok ⟨⟨["A"], ['0'], [], [((0, '0'), 0)]⟩, 0⟩ ∧
      Automaton.Sound ⟨⟨["A"], ['0'], [], [((0, '0'), 0)]⟩, 0⟩ :=
  have hbuilt : (({} : Builder).replay faltering).2.build =
      .ok ⟨⟨["A"], ['0'], [], [((0, '0'), 0)]⟩, 0⟩ := by decide +kernel
  ⟨hbuilt, every_history_sound.2.2.1 faltering _ hbuilt⟩

end Acceptor
