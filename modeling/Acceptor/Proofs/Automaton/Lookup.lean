/-
  What the look-ups of a system answer.

  A system can be asked for the state of a name and for the name of a state, for the symbols of its
  alphabet, for its accepting states and for the target of a state and a symbol.  `Coherent` puts
  together what a caller may rely on, in the terms of these questions alone:

  * names and states correspond one to one, and a number has a name exactly when it is one of the
    states;
  * the alphabet lists each of its symbols once;
  * an accepting state is a state, and a bound transition has declared ends and a declared symbol.

  A well-formed system is coherent (`WellFormed.coherent`).
-/
import Acceptor.Automaton

namespace Acceptor

namespace TransitionSystem

variable {m : TransitionSystem} {s t : Nat} {c : Char} {n : String}

/-! ## Names -/

@[simp] theorem isSome_name?_iff : (m.name? s).isSome = true ↔ s < m.stateCount := by
  simp [name?, stateCount]

theorem lt_of_name?_eq_some (h : m.name? s = some n) : s < m.stateCount := by
  rw [← isSome_name?_iff, h]
  rfl

theorem exists_name?_of_lt (h : s < m.stateCount) : ∃ n, m.name? s = some n := by
  rw [← Option.isSome_iff_exists, isSome_name?_iff]
  exact h

/-- Where there is a name, `name` is that name. -/
theorem name_of_name?_eq_some (h : m.name? s = some n) : m.name s = n := by
  rw [name, h]
  rfl

theorem name?_eq_some_name (h : s < m.stateCount) : m.name? s = some (m.name s) := by
  obtain ⟨n, hn⟩ := exists_name?_of_lt h
  rw [name_of_name?_eq_some hn, hn]

@[simp] theorem isSome_state?_iff : (m.state? n).isSome = true ↔ n ∈ m.names := by
  simp [state?]

theorem mem_names_iff : n ∈ m.names ↔ ∃ s, m.name? s = some n := List.mem_iff_getElem?

/-- A system that names more states keeps the names of those it had. -/
theorem name?_append {m' : TransitionSystem} {more : List String}
    (h : m'.names = m.names ++ more) (hs : s < m.stateCount) : m'.name? s = m.name? s := by
  show m'.names[s]? = m.names[s]?
  rw [h, List.getElem?_append_left hs]

/-- A binding that is put in front is found for its own state and symbol only. -/
theorem next?_cons_of_ne {s' t' : Nat} {c' : Char} (h : (s, c) ≠ (s', c')) :
    TransitionSystem.next? { m with bindings := ((s', c'), t') :: m.bindings } s c =
      m.next? s c := by
  show List.lookup (s, c) (((s', c'), t') :: m.bindings) = _
  rw [List.lookup_cons, beq_eq_false_iff_ne.2 h]
  rfl

/-! ## Looking up in a well-formed system -/

namespace WellFormed

variable (hm : m.WellFormed)

include hm

/-- No two states have one name. -/
theorem name?_inj (hs : m.name? s = some n) (ht : m.name? t = some n) : s = t := by
  have hlt : s < m.names.length := lt_of_name?_eq_some hs
  have hsame : m.names[s]? = m.names[t]? := hs.trans ht.symm
  exact (List.getElem?_inj hlt hm.names_nodup).1 hsame

theorem name_inj (hs : s < m.stateCount) (ht : t < m.stateCount) (h : m.name s = m.name t) :
    s = t := by
  have hname : m.name? s = some (m.name t) := by
    rw [← h]
    exact name?_eq_some_name hs
  exact hm.name?_inj hname (name?_eq_some_name ht)

/-- The state of a name is the one that has the name. -/
theorem state?_eq_some_iff : m.state? n = some s ↔ m.name? s = some n := by
  constructor
  · intro h
    obtain ⟨hs, hn, -⟩ := List.idxOf?_eq_some_iff.1 h
    show m.names[s]? = some n
    rw [List.getElem?_eq_getElem hs, hn]
  · intro h
    have hmem : n ∈ m.names := mem_names_iff.2 ⟨s, h⟩
    obtain ⟨t, ht⟩ := Option.isSome_iff_exists.1 (isSome_state?_iff.2 hmem)
    obtain ⟨hlt, hn, -⟩ := List.idxOf?_eq_some_iff.1 ht
    have hname : m.name? t = some n := by
      show m.names[t]? = some n
      rw [List.getElem?_eq_getElem hlt, hn]
    rw [ht, hm.name?_inj hname h]

/-- A bound transition has declared ends and a declared symbol. -/
theorem next?_declared (h : m.next? s c = some t) :
    s < m.stateCount ∧ c ∈ m.alphabet ∧ t < m.stateCount := by
  obtain ⟨before, after, hsplit, -⟩ := List.lookup_eq_some_iff.1 h
  have hmem : ((s, c), t) ∈ m.bindings := by
    rw [hsplit]
    simp
  exact hm.binding_declared s c t hmem

/-! Past the last state nothing is to be found. -/

theorem isAccepting_eq_false (hs : ¬ s < m.stateCount) : m.isAccepting s = false := by
  rw [Bool.eq_false_iff]
  intro hacc
  exact hs (hm.accepting_lt s (isAccepting_iff.1 hacc))

theorem next?_eq_none (hs : ¬ s < m.stateCount) : m.next? s c = none := by
  rw [Option.eq_none_iff_forall_ne_some]
  intro t hnext
  exact hs (hm.next?_declared hnext).1

end WellFormed

/-! ## What a caller may rely on -/

/-- The look-ups of a system agree with each other and with its lists. -/
structure Coherent (m : TransitionSystem) : Prop where
  names_nodup : m.names.Nodup
  /-- The look-ups between names and states undo each other. -/
  state?_iff : ∀ n s, m.state? n = some s ↔ m.name? s = some n
  /-- The names that have a state are the declared ones. -/
  isSome_state? : ∀ n, (m.state? n).isSome = true ↔ n ∈ m.names
  /-- The numbers that have a name are those below the number of states. -/
  isSome_name? : ∀ s, (m.name? s).isSome = true ↔ s < m.stateCount
  alphabet_nodup : m.alphabet.Nodup
  /-- The alphabet lists the symbols, and nothing else. -/
  hasSymbol_iff : ∀ c, m.hasSymbol c = true ↔ c ∈ m.alphabet
  accepting_lt : ∀ s, m.isAccepting s = true → s < m.stateCount
  /-- Bound transitions have declared ends and a declared symbol. -/
  next?_declared : ∀ s c t, m.next? s c = some t →
    s < m.stateCount ∧ m.hasSymbol c = true ∧ t < m.stateCount

theorem WellFormed.coherent (hm : m.WellFormed) : m.Coherent where
  names_nodup := hm.names_nodup
  state?_iff _ _ := hm.state?_eq_some_iff
  isSome_state? _ := isSome_state?_iff
  isSome_name? _ := isSome_name?_iff
  alphabet_nodup := hm.alphabet_nodup
  hasSymbol_iff _ := hasSymbol_iff
  accepting_lt s hs := hm.accepting_lt s (isAccepting_iff.1 hs)
  next?_declared s c t h := by
    obtain ⟨hs, hc, ht⟩ := hm.next?_declared h
    exact ⟨hs, hasSymbol_iff.2 hc, ht⟩

end TransitionSystem

end Acceptor
