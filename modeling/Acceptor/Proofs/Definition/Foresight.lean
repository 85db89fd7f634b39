/-
  What a definition tells of its runs beforehand.

  When a definition is complete, its automaton is searched for states that cannot be reached, and
  what is found goes into the log, before any input is seen.  `Foreseen d log` says that the runs
  bear it out.

  1. **The log** — reading the lines notes replacements only (`Record.IsReplacement`), so every
     other record comes from the summary at the end (`mem_log_iff_of_parse`).

  2. **The symbols** — tokens are trimmed, so no symbol of a definition is blank, and every word of
     the alphabet is an input whose symbols it is.

  3. **Foresight** — `parse_foreseen` puts this together with what runs can reach.
-/
import Acceptor.Proofs.Definition.Meaning
import Acceptor.Proofs.Run.Visit

namespace Acceptor

/-! ## The log -/

/-- A record of something that replaced something else. -/
def Record.IsReplacement : Record → Prop
  | .startRedefined .. | .rebound .. => True
  | _ => False

namespace Definition

variable {text : String} {d : Automaton} {x : Record}

theorem isReplacement_of_noteOf {m : TransitionSystem} {number : Nat} {y : Declaration × Answer}
    (h : noteOf m number y = some x) : x.IsReplacement := by
  unfold noteOf at h
  split at h
  · cases h
    trivial
  · cases h
    trivial
  · cases h

/-- Reading lines notes replacements only.  Induction on the lines. -/
theorem isReplacement_of_mem_readLines {r : Reader} {lines : List Line}
    (h : x ∈ (r.readLines lines).log) : x.IsReplacement := by
  induction lines generalizing r with
  | nil => cases h
  | cons line lines ih =>
    rw [Reader.readLines] at h
    cases hstep : r.step line with
    | error cause =>
      rw [hstep] at h
      cases h
    | ok read =>
      rw [hstep] at h
      rcases List.mem_append.1 h with hline | hlater
      · obtain ⟨part, xs, answers, b, -, -, rfl⟩ := Reader.exists_of_step_eq_ok hstep
        obtain ⟨y, -, hy⟩ := List.mem_filterMap.1 hline
        exact isReplacement_of_noteOf hy
      · exact ih hlater

/-- The records of a definition that can be read: first those of its lines, then the summary. -/
theorem log_of_parse (h : (parse text).value = .ok d) :
    (parse text).log = (Reader.readLines {} (significantLines text)).log ++ summary d := by
  unfold parse at h ⊢
  dsimp only at h ⊢
  split at h
  · cases h
  · split at h
    · cases h
    · cases h
      rfl

/-- What is not about a replacement stands in the summary. -/
theorem mem_log_iff_of_parse (h : (parse text).value = .ok d) (hx : ¬ x.IsReplacement) :
    x ∈ (parse text).log ↔ x ∈ summary d := by
  rw [log_of_parse h, List.mem_append]
  exact or_iff_right fun hlines => hx (isReplacement_of_mem_readLines hlines)

theorem mem_summary_iff :
    x ∈ summary d ↔
      x = .built d.stateCount d.alphabet d.transitions.length ∨
        (d.unreachable ≠ [] ∧ x = .unreachable (d.name d.start) (d.unreachable.map d.name)) ∨
          (d.acceptingStates = [] ∧ x = .noAccepting) := by
  unfold summary
  by_cases hnone : d.unreachable = []
  · by_cases hacc : d.acceptingStates = [] <;> simp [hnone, hacc]
  · by_cases hacc : d.acceptingStates = [] <;> simp [hnone, hacc]

theorem built_mem_summary_iff {count m : Nat} {symbols : List Char} :
    .built count symbols m ∈ summary d ↔
      count = d.stateCount ∧ symbols = d.alphabet ∧ m = d.transitions.length := by
  simp [mem_summary_iff]

theorem unreachable_mem_summary_iff {start : String} {names : List String} :
    .unreachable start names ∈ summary d ↔
      d.unreachable ≠ [] ∧ start = d.name d.start ∧ names = d.unreachable.map d.name := by
  simp [mem_summary_iff]

theorem noAccepting_mem_summary_iff : .noAccepting ∈ summary d ↔ d.acceptingStates = [] := by
  simp [mem_summary_iff]

/-- Nothing in the summary is about a replacement. -/
theorem not_isReplacement_of_mem_summary (h : x ∈ summary d) : ¬ x.IsReplacement := by
  rcases mem_summary_iff.1 h with rfl | ⟨-, rfl⟩ | ⟨-, rfl⟩
  · exact id
  · exact id
  · exact id

/-! ## The symbols -/

/-- No symbol that is read is blank. -/
theorem not_isBlank_of_parse (h : (parse text).value = .ok d) {c : Char} (hc : c ∈ d.alphabet) :
    Text.isBlank c = false := by
  have hitem : [c] ∈ itemsOf .alphabet (headerLines text) := by
    rw [← List.mem_eraseDups, ← (describes_of_parse h).alphabet]
    exact List.mem_map_of_mem hc
  obtain ⟨value, -, hmem⟩ := List.mem_flatMap.1 hitem
  exact (Text.mem_listItems_trimmed hmem).first c rfl

/-! ## Foresight -/

/-- What is known of an automaton before any run, with a log, is what its runs show. -/
structure Foreseen (d : Automaton) (log : List Record) : Prop where
  /-- A state is reachable exactly when some run is completed in it. -/
  reachable : ∀ s, s ∈ d.reachable ↔
    ∃ input, (d.run input).halt = .completed ∧ (d.run input).last = s
  /-- Some input is accepted exactly when an accepting state is reachable. -/
  accepted : (∃ input, d.accepts input = true) ↔ ∃ s ∈ d.reachable, d.isAccepting s = true
  /-- The states that are reported as unreachable are those that no run visits. -/
  reported : ∀ start names, .unreachable start names ∈ log → d.name? d.start = some start ∧
    ∀ name, name ∈ names ↔ ∃ s, d.name? s = some name ∧ ∀ input, ¬ (d.run input).Visits s
  /-- When none are reported, every state is visited by some run. -/
  unreported : (∀ start names, .unreachable start names ∉ log) →
    ∀ s < d.stateCount, ∃ input, (d.run input).Visits s
  /-- When no accepting state is reported, every input is rejected. -/
  noAccepting : .noAccepting ∈ log → ∀ input, (d.run input).verdict = .rejected

section Foreseen

variable (hm : d.toTransitionSystem.WellFormed)
  (hsymbols : ∀ c ∈ d.alphabet, Text.isBlank c = false)

include hm hsymbols

theorem exists_accepts_iff (hstart : d.start < d.stateCount) :
    (∃ input, d.accepts input = true) ↔ ∃ s ∈ d.reachable, d.isAccepting s = true := by
  simp only [Automaton.accepts_iff, Automaton.mem_reachable_iff hm hstart,
    ← Automaton.exists_completed_iff_reaches hm hsymbols]
  constructor
  · rintro ⟨input, hhalt, hacc⟩
    exact ⟨_, ⟨input, hhalt, rfl⟩, hacc⟩
  · rintro ⟨s, ⟨input, hhalt, rfl⟩, hacc⟩
    exact ⟨input, hhalt, hacc⟩

/-- The unreachable states are the ones that no run visits. -/
theorem mem_unreachable_iff_unvisited {s : Nat} :
    s ∈ d.unreachable ↔ s < d.stateCount ∧ ∀ input, ¬ (d.run input).Visits s := by
  rw [Automaton.mem_unreachable_iff hm, ← Automaton.exists_visits_iff_reaches hm hsymbols,
    not_exists]

/-- Seen by their names. -/
theorem mem_map_unreachable_iff {name : String} :
    name ∈ d.unreachable.map d.name ↔
      ∃ s, d.name? s = some name ∧ ∀ input, ¬ (d.run input).Visits s := by
  rw [List.mem_map]
  constructor
  · rintro ⟨s, hs, rfl⟩
    obtain ⟨hlt, hnever⟩ := (mem_unreachable_iff_unvisited hm hsymbols).1 hs
    exact ⟨s, TransitionSystem.name?_eq_some_name hlt, hnever⟩
  · rintro ⟨s, hname, hnever⟩
    have hlt : s < d.stateCount := TransitionSystem.lt_of_name?_eq_some hname
    exact ⟨s, (mem_unreachable_iff_unvisited hm hsymbols).2 ⟨hlt, hnever⟩,
      TransitionSystem.name_of_name?_eq_some hname⟩

end Foreseen

/-- Without accepting states nothing is accepted. -/
theorem verdict_of_acceptingStates_eq_nil (hm : d.toTransitionSystem.WellFormed)
    (h : d.acceptingStates = []) (input : String) : (d.run input).verdict = .rejected := by
  cases hverdict : (d.run input).verdict with
  | rejected => rfl
  | accepted =>
    rw [d.verdict_run, Automaton.verdict_eq_accepted_iff] at hverdict
    have hacc := TransitionSystem.isAccepting_iff.1 hverdict.2
    have hmem : (d.run input).last ∈ d.acceptingStates :=
      TransitionSystem.mem_acceptingStates.2 ⟨hm.accepting_lt _ hacc, hacc⟩
    rw [h] at hmem
    cases hmem

/-- **What a definition tells of its runs beforehand is so.** -/
theorem parse_foreseen (h : (parse text).value = .ok d) : Foreseen d (parse text).log := by
  obtain ⟨hm, hstart⟩ := wellFormed_of_parse h
  have hsymbols : ∀ c ∈ d.alphabet, Text.isBlank c = false := fun c hc => not_isBlank_of_parse h hc
  refine ⟨?_, exists_accepts_iff hm hsymbols hstart, ?_, ?_, ?_⟩
  · intro s
    rw [Automaton.mem_reachable_iff hm hstart, Automaton.exists_completed_iff_reaches hm hsymbols]
  · intro start names hrecord
    rw [mem_log_iff_of_parse h id, unreachable_mem_summary_iff] at hrecord
    obtain ⟨-, rfl, rfl⟩ := hrecord
    exact ⟨TransitionSystem.name?_eq_some_name hstart,
      fun name => mem_map_unreachable_iff hm hsymbols⟩
  · intro hsilent s hs
    -- no report means that the search left nothing over
    have hnone : d.unreachable = [] := by
      by_contra hsome
      refine hsilent (d.name d.start) (d.unreachable.map d.name) ?_
      rw [mem_log_iff_of_parse h id, unreachable_mem_summary_iff]
      exact ⟨hsome, rfl, rfl⟩
    by_contra hnever
    have hmem : s ∈ d.unreachable :=
      (mem_unreachable_iff_unvisited hm hsymbols).2 ⟨hs, not_exists.1 hnever⟩
    rw [hnone] at hmem
    cases hmem
  · intro hrecord input
    rw [mem_log_iff_of_parse h id, noAccepting_mem_summary_iff] at hrecord
    exact verdict_of_acceptingStates_eq_nil hm hrecord input

/-- Two states of which one is out of reach, and none accepting. -/
def outOfReach : String := "states: A, B\nalphabet: 0\nstart: A\ntransitions:\nA,0->A\nB,0->A\n"

/-- Of this automaton both reports are made, and both are right. -/
theorem outOfReach_foreseen :
    (parse outOfReach).value =
        .ok ⟨⟨["A", "B"], ['0'], [], [((1, '0'), 0), ((0, '0'), 0)]⟩, 0⟩ ∧
      .unreachable "A" ["B"] ∈ (parse outOfReach).log ∧
        .noAccepting ∈ (parse outOfReach).log ∧
          Foreseen ⟨⟨["A", "B"], ['0'], [], [((1, '0'), 0), ((0, '0'), 0)]⟩, 0⟩
            (parse outOfReach).log := by
  have hread : (parse outOfReach).value =
      .ok ⟨⟨["A", "B"], ['0'], [], [((1, '0'), 0), ((0, '0'), 0)]⟩, 0⟩ := by decide +kernel
  exact ⟨hread, by decide +kernel, by decide +kernel, parse_foreseen hread⟩

end Definition

end Acceptor
