/-
  How many transitions there are.

  The bindings of a transition system are a table in which a pair of a state and a symbol may stand
  several times, and only its latest entry counts.  The list of transitions does not look at the
  table: it goes through all states and all symbols.  Both have one transition for each pair that is
  bound.

  1. **Bound pairs** — `boundPairs`, and how a new entry adds to them (`card_boundPairs_bind`).

  2. **Rows** — the symbols of a row are those of the alphabet on which the state goes on
     (`map_fst_row`), so no pair is listed twice.

  3. **The list** — main result `length_transitions`: where everything bound is declared, the list
     has as many transitions as there are bound pairs.
-/
import Acceptor.Proofs.Automaton.Lookup
import Mathlib.Data.Finset.Card

namespace Acceptor

/-- The pair of a state and a symbol for which a transition stands. -/
def Transition.pair (x : Transition) : Nat × Char := (x.source, x.symbol)

namespace TransitionSystem

variable {m : TransitionSystem} {s t : Nat} {c : Char}

/-! ## Bound pairs -/

/-- The pairs of a state and a symbol that are bound. -/
def boundPairs (m : TransitionSystem) : Finset (Nat × Char) := (m.bindings.map (·.1)).toFinset

theorem mem_boundPairs_iff : (s, c) ∈ m.boundPairs ↔ ∃ t, m.next? s c = some t := by
  rw [boundPairs, List.mem_toFinset, List.mem_map]
  constructor
  · rintro ⟨⟨pair, t⟩, hmem, rfl⟩
    -- a pair that stands in the table is found there
    cases hnext : m.next? s c with
    | some t => exact ⟨t, rfl⟩
    | none =>
      have hne : (s, c) ≠ (s, c) := by simpa using List.lookup_eq_none_iff.1 hnext _ hmem
      exact absurd rfl hne
  · rintro ⟨t, hnext⟩
    obtain ⟨above, below, hsplit, -⟩ := List.lookup_eq_some_iff.1 hnext
    exact ⟨((s, c), t), by rw [hsplit]; exact List.mem_append_right _ List.mem_cons_self, rfl⟩

/-- To bind a pair again adds no pair, and to bind another adds one. -/
theorem card_boundPairs_bind (m : TransitionSystem) (s t : Nat) (c : Char) :
    (boundPairs { m with bindings := ((s, c), t) :: m.bindings }).card =
      m.boundPairs.card + if (m.next? s c).isSome then 0 else 1 := by
  have hinsert : boundPairs { m with bindings := ((s, c), t) :: m.bindings } =
      insert (s, c) m.boundPairs := List.toFinset_cons
  rw [hinsert]
  cases hnext : m.next? s c with
  | some old => exact congrArg _ (Finset.insert_eq_of_mem (mem_boundPairs_iff.2 ⟨old, hnext⟩))
  | none =>
    have hnew : (s, c) ∉ m.boundPairs := by
      rw [mem_boundPairs_iff, hnext]
      simp
    exact Finset.card_insert_of_notMem hnew

/-! ## Rows -/

theorem map_fst_row (m : TransitionSystem) (s : Nat) :
    (m.row s).map (·.1) = m.alphabet.filter fun c => (m.next? s c).isSome := by
  rw [row]
  induction m.alphabet with
  | nil => rfl
  | cons c alphabet ih =>
    rw [List.filterMap_cons, List.filter_cons]
    cases m.next? s c with
    | none => exact ih
    | some t => exact congrArg (c :: ·) ih

theorem nodup_map_fst_row (hm : m.WellFormed) (s : Nat) : ((m.row s).map (·.1)).Nodup := by
  rw [map_fst_row]
  exact hm.alphabet_nodup.filter _

/-! ## The list -/

/-- The pairs of the list are those of its rows. -/
theorem map_pair_transitions (m : TransitionSystem) :
    m.transitions.map Transition.pair =
      m.states.flatMap fun s => ((m.row s).map (·.1)).map fun c => (s, c) := by
  rw [transitions, List.map_flatMap]
  simp only [List.map_map]
  rfl

/-- No pair is listed twice. -/
theorem nodup_map_pair_transitions (hm : m.WellFormed) :
    (m.transitions.map Transition.pair).Nodup := by
  rw [map_pair_transitions, List.nodup_flatMap]
  constructor
  · intro s _
    exact (nodup_map_fst_row hm s).map fun _ _ h => congrArg Prod.snd h
  · refine List.Pairwise.imp ?_ List.nodup_range
    intro s t hne x hs ht
    obtain ⟨c, -, rfl⟩ := List.mem_map.1 hs
    obtain ⟨c', -, heq⟩ := List.mem_map.1 ht
    exact hne (congrArg Prod.fst heq).symm

/-- Where everything bound is declared, there is one transition for each bound pair. -/
theorem length_transitions (hm : m.WellFormed) : m.transitions.length = m.boundPairs.card := by
  have hpairs : (m.transitions.map Transition.pair).toFinset = m.boundPairs := by
    ext ⟨s, c⟩
    rw [List.mem_toFinset, List.mem_map, mem_boundPairs_iff]
    constructor
    · rintro ⟨x, hx, heq⟩
      cases heq
      exact ⟨x.target, (mem_transitions.1 hx).2.2⟩
    · rintro ⟨t, hnext⟩
      obtain ⟨hs, hc, -⟩ := hm.next?_declared hnext
      exact ⟨⟨s, c, t⟩, mem_transitions.2 ⟨hs, hc, hnext⟩, rfl⟩
  rw [← hpairs, List.toFinset_card_of_nodup (nodup_map_pair_transitions hm), List.length_map]

end TransitionSystem

end Acceptor
