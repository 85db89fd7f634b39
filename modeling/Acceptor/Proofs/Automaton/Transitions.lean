/-
  What stands on the list of transitions.

  The list is made by going through all states and all symbols, while the transitions are kept in a
  table.  So the list has everything only because the table never holds a pair outside of these, in
  whatever order things were declared, bound again, or declared in vain.

  1. **Order** — `Transition.Before`: by source, and then by the place of the symbol in the
     alphabet.  The list is in this order, strictly (`pairwise_before_transitions`).

  2. **Completeness** — in a well-formed system, what is listed is what is bound
     (`mem_transitions_iff_next?`).

  3. **Histories** — `History.boundPairs`: the pairs of a name and a symbol to which a target was
     given with success.  There is one transition for each of them (`length_transitions_of_build`).

  Main result: `isListing_of_build`.
-/
import Acceptor.Proofs.Automaton.Table
import Acceptor.Proofs.Builder.Account
import Mathlib.Data.Finset.Image

namespace Acceptor

/-! ## Order -/

/-- A transition has its place before another one: by source, and then by symbol, in the order of an
    alphabet. -/
def Transition.Before (alphabet : List Char) (x y : Transition) : Prop :=
  x.source < y.source ∨
    x.source = y.source ∧ alphabet.idxOf x.symbol < alphabet.idxOf y.symbol

instance (alphabet : List Char) (x y : Transition) : Decidable (x.Before alphabet y) :=
  inferInstanceAs (Decidable (_ ∨ _))

/-- Where nothing is repeated, places ascend. -/
theorem pairwise_idxOf {α : Type} [DecidableEq α] {xs : List α} (h : xs.Nodup) :
    xs.Pairwise fun a b => xs.idxOf a < xs.idxOf b := by
  rw [List.pairwise_iff_getElem]
  intro i j hi hj hij
  rw [h.idxOf_getElem i hi, h.idxOf_getElem j hj]
  exact hij

namespace TransitionSystem

variable {m : TransitionSystem} {s t : Nat} {c : Char}

/-- The symbols of a row are in the order of the alphabet. -/
theorem pairwise_idxOf_row (hm : m.WellFormed) (s : Nat) :
    (m.row s).Pairwise fun x y => m.alphabet.idxOf x.1 < m.alphabet.idxOf y.1 := by
  have hsymbols : ((m.row s).map (·.1)).Pairwise fun a b =>
      m.alphabet.idxOf a < m.alphabet.idxOf b := by
    rw [map_fst_row]
    exact (pairwise_idxOf hm.alphabet_nodup).sublist List.filter_sublist
  rwa [List.pairwise_map] at hsymbols

theorem pairwise_before_transitions (hm : m.WellFormed) :
    m.transitions.Pairwise (Transition.Before m.alphabet) := by
  rw [transitions, List.pairwise_flatMap]
  constructor
  · -- in a row the sources are the same
    intro s _
    rw [List.pairwise_map]
    exact (pairwise_idxOf_row hm s).imp fun h => .inr ⟨rfl, h⟩
  · refine List.pairwise_lt_range.imp ?_
    intro s t hst x hx y hy
    obtain ⟨_, -, rfl⟩ := List.mem_map.1 hx
    obtain ⟨_, -, rfl⟩ := List.mem_map.1 hy
    exact .inl hst

/-! ## Completeness -/

/-- A transition is listed exactly when it is bound, for any numbers and any character. -/
theorem WellFormed.mem_transitions_iff_next? (hm : m.WellFormed) :
    ⟨s, c, t⟩ ∈ m.transitions ↔ m.next? s c = some t := by
  rw [mem_transitions]
  constructor
  · rintro ⟨-, -, h⟩
    exact h
  · intro h
    obtain ⟨hs, hc, -⟩ := hm.next?_declared h
    exact ⟨hs, hc, h⟩

end TransitionSystem

/-! ## Histories -/

namespace History

/-- The name and the symbol to which a declaration gives a target. -/
def pair? : Declaration → Option (String × Char)
  | .transition p c _ => some (p, c)
  | _ => none

/-- The names and symbols to which a target was given with success, as often as that was done. -/
def boundPairs (xs : List Declaration) : List (String × Char) :=
  (xs.zip (({} : Builder).replay xs).1).filterMap fun (x, answer) =>
    if answer.isOk then pair? x else none

variable {xs : List Declaration} {p : String} {c : Char}

theorem pair?_eq_some_iff {x : Declaration} :
    pair? x = some (p, c) ↔ ∃ q, target? p c x = some q := by
  cases x with
  | transition p' c' q =>
    rw [pair?, target?, Option.some_inj, Prod.mk.injEq]
    split <;> simp [*]
  | _ => simp [pair?, target?]

/-- A pair was bound when a target was given to it. -/
theorem mem_filterMap_pair?_iff :
    (p, c) ∈ xs.filterMap pair? ↔ ∃ q, q ∈ xs.filterMap (target? p c) := by
  simp only [List.mem_filterMap, pair?_eq_some_iff]
  constructor
  · rintro ⟨x, hx, q, hq⟩
    exact ⟨q, x, hx, hq⟩
  · rintro ⟨q, x, hx, hq⟩
    exact ⟨x, hx, q, hq⟩

end History

namespace Builder

open History (accepted outcome extend)

/-- What is read from the declarations that were answered with success is read from those that the
    account accepts.  Induction on the history, from the right. -/
theorem filterMap_answered {α : Type} (f : Declaration → Option α) (xs : List Declaration) :
    (xs.zip (({} : Builder).replay xs).1).filterMap
        (fun (x, answer) => if answer.isOk then f x else none) =
      (accepted xs).filterMap f := by
  induction xs using List.reverseRecOn with
  | nil => rfl
  | append_singleton xs x ih =>
    have hanswer : ((({} : Builder).replay xs).2.attempt x).1 = outcome (accepted xs) x :=
      (records_replay xs).attempt_fst (wellFormed_empty.replay xs) x
    rw [replay_concat, List.zip_append (length_replay {} xs).symm, List.filterMap_append, ih,
      History.accepted_concat, hanswer, extend]
    cases outcome (accepted xs) x with
    | ok answer =>
      rw [List.filterMap_append]
      rfl
    | error cause => exact List.append_nil _

variable {b : Builder} {xs : List Declaration}

/-- The pairs that a builder has bound, by the names of their states, are those of its history. -/
theorem Records.image_boundPairs (h : b.Records xs) (hb : b.WellFormed) :
    b.boundPairs.image (fun x => (b.name x.1, x.2)) = (xs.filterMap History.pair?).toFinset := by
  ext ⟨p, c⟩
  rw [List.mem_toFinset, History.mem_filterMap_pair?_iff, Finset.mem_image]
  constructor
  · rintro ⟨⟨s, c'⟩, hbound, heq⟩
    cases heq
    obtain ⟨t, ht⟩ := TransitionSystem.mem_boundPairs_iff.1 hbound
    have hname := TransitionSystem.name?_eq_some_name (hb.system.next?_declared ht).1
    obtain ⟨q, -, hlast⟩ := (h.next?_eq_some_iff hb hname).1 ht
    exact ⟨q, List.mem_of_getLast? hlast⟩
  · rintro ⟨q, hq⟩
    obtain ⟨q', hlast⟩ := Option.isSome_iff_exists.1 (List.getLast?_isSome.2 (List.ne_nil_of_mem hq))
    obtain ⟨s, t, hs, ht, -⟩ := (h.next?_iff p c q').1 hlast
    refine ⟨(s, c), TransitionSystem.mem_boundPairs_iff.2 ⟨t, ht⟩, ?_⟩
    rw [TransitionSystem.name_of_name?_eq_some hs]

/-- Distinct states have distinct names, so there are as many pairs by name as by number. -/
theorem Records.card_boundPairs (h : b.Records xs) (hb : b.WellFormed) :
    b.boundPairs.card = (xs.filterMap History.pair?).toFinset.card := by
  rw [← h.image_boundPairs hb, Finset.card_image_of_injOn]
  rintro ⟨s, c⟩ hs ⟨s', c'⟩ hs' heq
  obtain ⟨t, ht⟩ := TransitionSystem.mem_boundPairs_iff.1 hs
  obtain ⟨t', ht'⟩ := TransitionSystem.mem_boundPairs_iff.1 hs'
  obtain ⟨hname, rfl⟩ := Prod.mk.inj heq
  rw [hb.system.name_inj (hb.system.next?_declared ht).1 (hb.system.next?_declared ht').1 hname]

end Builder

namespace Automaton

variable {d : Automaton} {history : List Declaration}

theorem length_transitions_of_build
    (h : (({} : Builder).replay history).2.build = .ok d) :
    d.transitions.length = (History.boundPairs history).toFinset.card := by
  have hwell : (({} : Builder).replay history).2.WellFormed :=
    Builder.wellFormed_empty.replay history
  obtain ⟨-, -, -, hsystem⟩ := Builder.build_eq_ok_iff.1 h
  rw [History.boundPairs, Builder.filterMap_answered,
    ← (Builder.records_replay history).card_boundPairs hwell, ← hsystem]
  exact TransitionSystem.length_transitions (hwell.build h).1

/-! ## The main result -/

/-- The list of transitions of an automaton that a history built. -/
structure IsListing (history : List Declaration) (d : Automaton) : Prop where
  /-- What is bound is listed and nothing else, for any numbers and any character. -/
  complete : ∀ s c t, ⟨s, c, t⟩ ∈ d.transitions ↔ d.next? s c = some t
  /-- No state and symbol are listed twice. -/
  once : (d.transitions.map Transition.pair).Nodup
  /-- The list ascends by source, and then in the order of the alphabet. -/
  ascending : d.transitions.Pairwise (Transition.Before d.alphabet)
  /-- There is one transition for each name and symbol to which a target was ever given with
      success. -/
  length : d.transitions.length = (History.boundPairs history).toFinset.card

/-- **The list of transitions is complete**, whatever the history of the automaton. -/
theorem isListing_of_build (h : (({} : Builder).replay history).2.build = .ok d) :
    IsListing history d := by
  have hm : d.toTransitionSystem.WellFormed :=
    ((Builder.wellFormed_empty.replay history).build h).1
  exact ⟨fun _ _ _ => hm.mem_transitions_iff_next?, TransitionSystem.nodup_map_pair_transitions hm,
    TransitionSystem.pairwise_before_transitions hm, length_transitions_of_build h⟩

/-- A history in which a pair is bound twice, the first attempt fails, and the symbols are declared
    in another order than they are used. -/
def wavering : List Declaration :=
  [.state "A", .symbol "1", .transition "A" '1' "B", .state "B", .symbol "0",
    .transition "B" '0' "A", .transition "A" '0' "B", .transition "A" '1' "A", .accept "C",
    .transition "A" '1' "B", .transition "A" '2' "B", .start "A"]

/-- Three transitions were bound, and three are listed. -/
theorem wavering_isListing :
    (({} : Builder).replay wavering).2.build =
        .ok ⟨⟨["A", "B"], ['1', '0'], [],
          [((0, '1'), 1), ((0, '1'), 0), ((0, '0'), 1), ((1, '0'), 0)]⟩, 0⟩ ∧
      IsListing wavering ⟨⟨["A", "B"], ['1', '0'], [],
        [((0, '1'), 1), ((0, '1'), 0), ((0, '0'), 1), ((1, '0'), 0)]⟩, 0⟩ := by
  have hbuild : (({} : Builder).replay wavering).2.build =
      .ok ⟨⟨["A", "B"], ['1', '0'], [],
        [((0, '1'), 1), ((0, '1'), 0), ((0, '0'), 1), ((1, '0'), 0)]⟩, 0⟩ := by decide +kernel
  exact ⟨hbuild, isListing_of_build hbuild⟩

end Automaton

end Acceptor
