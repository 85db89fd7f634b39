/-
  The edges of a drawing part the transitions.

  A drawing has one edge for all transitions between the same two states.  The usual way to come by
  these edges is to go through the transitions, to put each into the group of those with the same
  ends, and to sort the groups by their ends; in between, the groups are in a map, which may give
  them back in any order.  Here that way is shown to lead to the edges that are drawn, and each
  transition to stand on one of them.

  1. **Groups** — `grouped xs` puts the transitions `xs` into groups one by one.  `IsGrouping` says
     what that comes to, and every transition that is put into its group keeps it
     (`IsGrouping.put`).

  2. **Order** — the edges ascend strictly by their ends, and the symbols of each by their places in
     the alphabet, which they have from the list of transitions.

  3. **Sorting** — the edges are a grouping of the transitions (`isGrouping_edges`), and a grouping
     that is sorted is unlike no other (`IsGrouping.mergeSort_eq`).

  4. **Parts** — `IsPartition m es`: each transition has its place on exactly one of the edges.

  Main result: `edges_partition`.
-/
import Acceptor.Proofs.Automaton.Transitions
import Acceptor.Proofs.Drawing.Graph
import Mathlib.Data.List.Sort

namespace Acceptor

open Drawing

/-! ## Groups -/

/-- Where a transition begins and ends. -/
def Transition.ends (x : Transition) : Nat × Nat := (x.source, x.target)

/-- The symbols of the transitions between two ends, in their order. -/
def symbolsOn (ends : Nat × Nat) (xs : List Transition) : List Char :=
  (xs.filter fun x => x.ends = ends).map (·.symbol)

namespace Edge

/-- Where an edge begins and ends. -/
def ends (e : Edge) : Nat × Nat := (e.source, e.target)

/-- The transitions that stand on an edge. -/
def transitions (e : Edge) : List Transition := e.symbols.map fun c => ⟨e.source, c, e.target⟩

/-- The symbols that groups have for two ends: none if no group has these ends. -/
def symbolsAt (ends : Nat × Nat) (groups : List Edge) : List Char :=
  ((groups.find? fun g => g.ends = ends).map symbols).getD []

/-- Puts a transition into the group with its ends, behind those that are there.  The group is taken
    out and put in again. -/
def put (groups : List Edge) (x : Transition) : List Edge :=
  ⟨x.source, x.target, symbolsAt x.ends groups ++ [x.symbol]⟩ ::
    groups.filter fun g => g.ends ≠ x.ends

/-- The groups of transitions with the same ends. -/
def grouped (xs : List Transition) : List Edge := xs.foldl put []

/-- Groups hold some transitions, each of them in the group with its ends. -/
structure IsGrouping (xs : List Transition) (groups : List Edge) : Prop where
  /-- There are no two groups with the same ends. -/
  nodup : (groups.map ends).Nodup
  /-- A group has all symbols that there are between its ends, and at least one. -/
  mem_iff : ∀ g, g ∈ groups ↔ g.symbols = symbolsOn g.ends xs ∧ g.symbols ≠ []

variable {xs : List Transition} {groups groups' : List Edge} {x : Transition} {g g' : Edge}
  {p : Nat × Nat}

/-- An edge is its ends and its symbols. -/
theorem eq_iff_ends : g = g' ↔ g.ends = g'.ends ∧ g.symbols = g'.symbols := by
  obtain ⟨source, target, symbols⟩ := g
  obtain ⟨source', target', symbols'⟩ := g'
  simp [ends, and_assoc]

theorem symbolsOn_concat_of_eq (h : x.ends = p) :
    symbolsOn p (xs ++ [x]) = symbolsOn p xs ++ [x.symbol] := by
  rw [symbolsOn, List.filter_append, List.filter_cons_of_pos (by simpa using h), List.map_append]
  rfl

theorem symbolsOn_concat_of_ne (h : x.ends ≠ p) : symbolsOn p (xs ++ [x]) = symbolsOn p xs := by
  rw [symbolsOn, List.filter_append, List.filter_cons_of_neg (by simpa using h), List.filter_nil,
    List.append_nil]
  rfl

namespace IsGrouping

theorem nil : IsGrouping [] [] where
  nodup := List.nodup_nil
  mem_iff g := by simp [symbolsOn]

/-- What is found under two ends is all that there is between them. -/
theorem symbolsAt_eq (h : IsGrouping xs groups) (p : Nat × Nat) :
    symbolsAt p groups = symbolsOn p xs := by
  rw [symbolsAt]
  cases hfind : groups.find? fun g => g.ends = p with
  | some g =>
    have hends : g.ends = p := by simpa using List.find?_some hfind
    rw [← hends]
    exact ((h.mem_iff g).1 (List.mem_of_find?_eq_some hfind)).1
  | none =>
    -- otherwise there would be a group with these ends
    by_contra hne
    have hgroup : ⟨p.1, p.2, symbolsOn p xs⟩ ∈ groups :=
      (h.mem_iff _).2 ⟨rfl, fun hnil => hne hnil.symm⟩
    simpa [ends] using List.find?_eq_none.1 hfind _ hgroup

/-- A transition that is put into its group leaves all groups as they should be. -/
theorem put (h : IsGrouping xs groups) (x : Transition) :
    IsGrouping (xs ++ [x]) (put groups x) where
  nodup := by
    rw [Edge.put, List.map_cons, List.nodup_cons]
    constructor
    · intro hmem
      obtain ⟨g, hg, hends⟩ := List.mem_map.1 hmem
      exact of_decide_eq_true (List.mem_filter.1 hg).2 hends
    · exact h.nodup.sublist (List.filter_sublist.map ends)
  mem_iff g := by
    rw [Edge.put, List.mem_cons, List.mem_filter, h.symbolsAt_eq]
    by_cases hends : x.ends = g.ends
    · rw [symbolsOn_concat_of_eq hends, eq_iff_ends, hends]
      constructor
      · rintro (⟨-, hsymbols⟩ | ⟨-, hother⟩)
        · exact ⟨hsymbols, by rw [hsymbols]; simp⟩
        · exact absurd rfl (of_decide_eq_true hother)
      · rintro ⟨hsymbols, -⟩
        exact .inl ⟨hends.symm, hsymbols⟩
    · rw [symbolsOn_concat_of_ne hends, ← h.mem_iff]
      constructor
      · rintro (rfl | ⟨hg, -⟩)
        · exact absurd rfl hends
        · exact hg
      · intro hg
        exact .inr ⟨hg, decide_eq_true (Ne.symm hends)⟩

/-- Induction on the transitions, each of which is put behind those in front of it. -/
theorem grouped (xs : List Transition) : IsGrouping xs (grouped xs) := by
  induction xs using List.reverseRecOn with
  | nil => exact nil
  | append_singleton xs x ih =>
    rw [Edge.grouped, List.foldl_concat]
    exact ih.put x

/-- A group is known by its ends. -/
theorem eq_of_ends (h : IsGrouping xs groups) (hg : g ∈ groups) (hg' : g' ∈ groups)
    (hends : g.ends = g'.ends) : g = g' := by
  have hsymbols : g.symbols = g'.symbols := by
    rw [((h.mem_iff g).1 hg).1, ((h.mem_iff g').1 hg').1, hends]
  exact eq_iff_ends.2 ⟨hends, hsymbols⟩

/-- The groups are determined but for their order. -/
theorem perm (h : IsGrouping xs groups) (h' : IsGrouping xs groups') : groups.Perm groups' := by
  rw [List.perm_ext_iff_of_nodup (List.Nodup.of_map ends h.nodup)
    (List.Nodup.of_map ends h'.nodup)]
  intro g
  rw [h.mem_iff, h'.mem_iff]

end IsGrouping

/-! ## Order -/

/-- An edge has its place before another one: by source, and then by target. -/
def Before (e e' : Edge) : Prop :=
  e.source < e'.source ∨ e.source = e'.source ∧ e.target < e'.target

instance (e e' : Edge) : Decidable (e.Before e') := inferInstanceAs (Decidable (_ ∨ _))

/-- The comparison by which edges are sorted: of two edges, the second does not have its place
    before the first. -/
def notBehind (e e' : Edge) : Bool := decide (¬ e'.Before e)

variable {e e' e'' : Edge}

theorem Before.ends_ne (h : e.Before e') : e.ends ≠ e'.ends := by
  intro heq
  obtain ⟨hsource, htarget⟩ := Prod.mk.inj heq
  rcases h with h | ⟨-, h⟩ <;> omega

theorem notBehind_iff :
    e.notBehind e' = true ↔
      e.source < e'.source ∨ e.source = e'.source ∧ e.target ≤ e'.target := by
  rw [notBehind, decide_eq_true_iff, Before]
  omega

theorem Before.notBehind (h : e.Before e') : e.notBehind e' = true := by
  rw [notBehind_iff]
  rcases h with h | ⟨h, h'⟩
  · exact .inl h
  · exact .inr ⟨h, Nat.le_of_lt h'⟩

theorem notBehind_trans (h : e.notBehind e' = true) (h' : e'.notBehind e'' = true) :
    e.notBehind e'' = true := by
  rw [notBehind_iff] at h h' ⊢
  omega

theorem notBehind_total (e e' : Edge) : (e.notBehind e' || e'.notBehind e) = true := by
  rw [Bool.or_eq_true, notBehind_iff, notBehind_iff]
  omega

theorem ends_eq_of_notBehind (h : e.notBehind e' = true) (h' : e'.notBehind e = true) :
    e.ends = e'.ends := by
  rw [notBehind_iff] at h h'
  rw [ends, ends, Prod.mk.injEq]
  omega

end Edge

/-- Lists that ascend by the same measure and have the same members are the same. -/
theorem eq_of_ascending {α : Type} {key : α → Nat} {xs ys : List α}
    (hxs : xs.Pairwise fun a b => key a < key b) (hys : ys.Pairwise fun a b => key a < key b)
    (h : ∀ a, a ∈ xs ↔ a ∈ ys) : xs = ys := by
  have hirrefl : Std.Irrefl fun a b => key a < key b := ⟨fun _ => Nat.lt_irrefl _⟩
  have hantisymm : Std.Antisymm fun a b => key a < key b :=
    ⟨fun _ _ hab hba => absurd hba (Nat.lt_asymm hab)⟩
  exact hxs.eq_of_mem_iff hys h

namespace TransitionSystem

variable {m : TransitionSystem} {s t : Nat} {c : Char} {p : Nat × Nat} {e : Edge}

theorem source_of_mem_edgesFrom (he : e ∈ m.edgesFrom s) : e.source = s := by
  obtain ⟨t, -, hmatch⟩ := List.mem_filterMap.1 he
  split at hmatch
  · cases hmatch
  · cases hmatch
    rfl

/-- The edges are made by ascending source, and from each source by ascending target. -/
theorem pairwise_before_edges (m : TransitionSystem) : m.edges.Pairwise Edge.Before := by
  rw [edges, List.pairwise_flatMap]
  constructor
  · intro s _
    refine List.Pairwise.filterMap _ ?_ List.pairwise_lt_range
    intro t t' hlt e he e' he'
    split at he
    · cases he
    · split at he'
      · cases he'
      · cases he
        cases he'
        exact .inr ⟨rfl, hlt⟩
  · refine List.pairwise_lt_range.imp ?_
    intro s s' hlt e he e' he'
    rw [← source_of_mem_edgesFrom he, ← source_of_mem_edgesFrom he'] at hlt
    exact .inl hlt

/-- The symbols of an edge are in the order of the alphabet, for they are picked from a row. -/
theorem pairwise_idxOf_symbolsBetween (hm : m.WellFormed) (s t : Nat) :
    (m.symbolsBetween s t).Pairwise fun a b => m.alphabet.idxOf a < m.alphabet.idxOf b := by
  refine List.Pairwise.filterMap _ ?_ (pairwise_idxOf_row hm s)
  rintro ⟨a, u⟩ ⟨a', u'⟩ hlt c hc c' hc'
  dsimp only at hc hc'
  split at hc
  · split at hc'
    · cases hc
      cases hc'
      exact hlt
    · cases hc'
  · cases hc

/-- The symbols of a group are in the order of the alphabet, for the list of transitions is in this
    order where the sources are the same. -/
theorem pairwise_idxOf_symbolsOn (hm : m.WellFormed) (p : Nat × Nat) :
    (symbolsOn p m.transitions).Pairwise fun a b => m.alphabet.idxOf a < m.alphabet.idxOf b := by
  rw [symbolsOn, List.pairwise_map]
  have hlisted := (pairwise_before_transitions hm).filter fun x => x.ends = p
  refine hlisted.imp_of_mem ?_
  intro x y hx hy hbefore
  have hxp : x.ends = p := of_decide_eq_true (List.mem_filter.1 hx).2
  have hyp : y.ends = p := of_decide_eq_true (List.mem_filter.1 hy).2
  have hsource : x.source = y.source := congrArg Prod.fst (hxp.trans hyp.symm)
  rcases hbefore with hlt | ⟨-, hlt⟩
  · omega
  · exact hlt

theorem mem_symbolsOn_iff (hm : m.WellFormed) :
    c ∈ symbolsOn p m.transitions ↔ m.next? p.1 c = some p.2 := by
  rw [symbolsOn, List.mem_map, ← hm.mem_transitions_iff_next?]
  constructor
  · rintro ⟨x, hx, rfl⟩
    obtain ⟨hmem, hends⟩ := List.mem_filter.1 hx
    rw [← of_decide_eq_true hends]
    exact hmem
  · intro h
    exact ⟨_, List.mem_filter.2 ⟨h, decide_eq_true rfl⟩, rfl⟩

/-- The symbols that are gathered from the list of transitions are those that are drawn. -/
theorem symbolsOn_transitions (hm : m.WellFormed) (s t : Nat) :
    symbolsOn (s, t) m.transitions = m.symbolsBetween s t := by
  refine eq_of_ascending (pairwise_idxOf_symbolsOn hm (s, t))
    (pairwise_idxOf_symbolsBetween hm s t) ?_
  intro c
  rw [mem_symbolsOn_iff hm, mem_symbolsBetween_iff]
  exact ⟨fun h => ⟨(hm.next?_declared h).2.1, h⟩, And.right⟩

/-! ## Sorting -/

/-- The edges are the groups of the transitions. -/
theorem isGrouping_edges (hm : m.WellFormed) : Edge.IsGrouping m.transitions m.edges where
  nodup := List.pairwise_map.2 ((pairwise_before_edges m).imp fun h => h.ends_ne)
  mem_iff e := by
    rw [mem_edges_iff, show e.ends = (e.source, e.target) from rfl, symbolsOn_transitions hm]
    constructor
    · rintro ⟨-, -, h⟩
      exact h
    · rintro ⟨hsymbols, hne⟩
      -- an edge without a symbol could go anywhere, but one with a symbol has a transition
      obtain ⟨c, hc⟩ := List.exists_mem_of_ne_nil _ hne
      rw [hsymbols, mem_symbolsBetween_iff] at hc
      obtain ⟨hs, -, ht⟩ := hm.next?_declared hc.2
      exact ⟨hs, ht, hsymbols, hne⟩

end TransitionSystem

/-- Groups that are sorted come out in one order, in whatever order they are given. -/
theorem Edge.IsGrouping.mergeSort_eq {xs : List Transition} {groups sorted : List Edge}
    (h : IsGrouping xs sorted) (hsorted : sorted.Pairwise Before) (hperm : groups.Perm sorted) :
    groups.mergeSort notBehind = sorted := by
  have hperm' : (groups.mergeSort notBehind).Perm sorted :=
    (List.mergeSort_perm groups notBehind).trans hperm
  have hascending : (groups.mergeSort notBehind).Pairwise fun e e' => e.notBehind e' = true :=
    @List.pairwise_mergeSort _ notBehind (fun _ _ _ => notBehind_trans) notBehind_total groups
  have hascending' : sorted.Pairwise fun e e' => e.notBehind e' = true :=
    hsorted.imp fun hbefore => hbefore.notBehind
  refine List.Perm.eq_of_pairwise ?_ hascending hascending' hperm'
  intro e e' he he' hle hle'
  exact h.eq_of_ends (hperm'.mem_iff.1 he) he' (ends_eq_of_notBehind hle hle')

/-! ## Parts -/

/-- Edges part the transitions of a system among them. -/
structure IsPartition (m : TransitionSystem) (es : List Edge) : Prop where
  /-- The edges ascend strictly by source and then by target. -/
  ascending : es.Pairwise Edge.Before
  /-- There is one edge from a state to another if some symbol leads from the one to the other. -/
  one : ∀ s t c, m.next? s c = some t → ∃! e, e ∈ es ∧ e.ends = (s, t)
  /-- Otherwise there is none. -/
  needed : ∀ e ∈ es, ∃ c, m.next? e.source c = some e.target
  /-- An edge has the symbols that lead from its source to its target. -/
  mem_symbols_iff : ∀ e ∈ es, ∀ c, c ∈ e.symbols ↔ m.next? e.source c = some e.target
  /-- It has each of them once, and in the order of the alphabet. -/
  inOrder : ∀ e ∈ es, e.symbols.Pairwise fun a b => m.alphabet.idxOf a < m.alphabet.idxOf b
  /-- Each transition stands on an edge once. -/
  perm : (es.flatMap Edge.transitions).Perm m.transitions
  /-- So there are as many symbols on all edges as there are transitions. -/
  total : (es.flatMap Edge.symbols).length = m.transitions.length
  /-- No symbol is on two edges with the same source. -/
  apart : ∀ e ∈ es, ∀ e' ∈ es, e.source = e'.source → ∀ c ∈ e.symbols, c ∈ e'.symbols → e = e'

namespace TransitionSystem

variable {m : TransitionSystem} {c : Char} {e e' : Edge}

theorem mem_symbols_iff (hm : m.WellFormed) (he : e ∈ m.edges) :
    c ∈ e.symbols ↔ m.next? e.source c = some e.target := by
  rw [(((isGrouping_edges hm).mem_iff e).1 he).1, mem_symbolsOn_iff hm]
  rfl

theorem pairwise_idxOf_symbols (hm : m.WellFormed) (he : e ∈ m.edges) :
    e.symbols.Pairwise fun a b => m.alphabet.idxOf a < m.alphabet.idxOf b := by
  rw [(((isGrouping_edges hm).mem_iff e).1 he).1]
  exact pairwise_idxOf_symbolsOn hm e.ends

theorem nodup_transitions_of_mem_edges (hm : m.WellFormed) (he : e ∈ m.edges) :
    e.transitions.Nodup := by
  refine List.Nodup.map (fun _ _ h => congrArg Transition.symbol h) ?_
  refine (pairwise_idxOf_symbols hm he).imp ?_
  rintro a b hlt rfl
  exact Nat.lt_irrefl _ hlt

/-- A transition on an edge has its ends. -/
theorem ends_of_mem_transitions {x : Transition} (hx : x ∈ e.transitions) : x.ends = e.ends := by
  obtain ⟨c, -, rfl⟩ := List.mem_map.1 hx
  rfl

/-- No transition is lost, and none is drawn twice. -/
theorem flatMap_transitions_perm (hm : m.WellFormed) :
    (m.edges.flatMap Edge.transitions).Perm m.transitions := by
  have hnodup : (m.edges.flatMap Edge.transitions).Nodup := by
    rw [List.nodup_flatMap]
    refine ⟨fun e he => nodup_transitions_of_mem_edges hm he, ?_⟩
    refine (pairwise_before_edges m).imp ?_
    intro e e' hbefore x hx hx'
    exact hbefore.ends_ne ((ends_of_mem_transitions hx).symm.trans (ends_of_mem_transitions hx'))
  rw [List.perm_ext_iff_of_nodup hnodup (List.Nodup.of_map _ (nodup_map_pair_transitions hm))]
  rintro ⟨s, c, t⟩
  rw [hm.mem_transitions_iff_next?, hm.next?_eq_some_iff_mem_edges, List.mem_flatMap]
  constructor
  · rintro ⟨e, he, hx⟩
    obtain ⟨c', hc', heq⟩ := List.mem_map.1 hx
    cases heq
    exact ⟨e.symbols, he, hc'⟩
  · rintro ⟨symbols, he, hc⟩
    exact ⟨_, he, List.mem_map.2 ⟨c, hc, rfl⟩⟩

/-- The edges part the transitions. -/
theorem isPartition_edges (hm : m.WellFormed) : IsPartition m m.edges where
  ascending := pairwise_before_edges m
  one s t c h := by
    obtain ⟨symbols, he, -⟩ := hm.next?_eq_some_iff_mem_edges.1 h
    refine ⟨_, ⟨he, rfl⟩, ?_⟩
    rintro e ⟨he', hends⟩
    exact (isGrouping_edges hm).eq_of_ends he' he hends
  needed e he := by
    obtain ⟨c, hc⟩ := List.exists_mem_of_ne_nil _ (((isGrouping_edges hm).mem_iff e).1 he).2
    exact ⟨c, (mem_symbols_iff hm he).1 hc⟩
  mem_symbols_iff _ he _ := mem_symbols_iff hm he
  inOrder _ he := pairwise_idxOf_symbols hm he
  perm := flatMap_transitions_perm hm
  total := by
    have hlength : ∀ e : Edge, e.transitions.length = e.symbols.length := fun e =>
      List.length_map _
    rw [← (flatMap_transitions_perm hm).length_eq, List.length_flatMap, List.length_flatMap,
      funext hlength]
  apart e he e' he' hsource c hc hc' := by
    rw [mem_symbols_iff hm he] at hc
    rw [mem_symbols_iff hm he', ← hsource, hc] at hc'
    exact (isGrouping_edges hm).eq_of_ends he he' (Prod.ext hsource (Option.some.inj hc'))

end TransitionSystem

/-! ## The main result -/

namespace Automaton

variable {d : Automaton}

/-- What a drawing shows of an edge. -/
def arrowOf (d : Automaton) (e : Edge) : Dot.Arrow :=
  ⟨d.name e.source, d.name e.target, some (label e.symbols)⟩

/-- The edges with labels are the edges between states. -/
theorem filter_isSome_arrows_graphOf (d : Automaton) :
    d.graphOf.arrows.filter (fun a => a.label.isSome) = d.edges.map d.arrowOf := by
  have hall : ∀ a ∈ d.edges.map d.arrowOf, a.label.isSome = true := by
    intro a ha
    obtain ⟨e, -, rfl⟩ := List.mem_map.1 ha
    rfl
  rw [arrows_graphOf, List.filter_append]
  show (d.edges.map d.arrowOf).filter _ ++ [] = _
  rw [List.append_nil, List.filter_eq_self.2 hall]

/-- **The edges of a drawing part the transitions.**  They are what the text of the drawing shows,
    and what comes of grouping the transitions by their ends and sorting the groups, in whatever
    order the groups are given. -/
theorem edges_partition (hd : d.IsBuilt) :
    ∃ g es, Dot.graph? (d.draw .spaced) = some g ∧
      g.arrows.filter (fun a => a.label.isSome) = es.map d.arrowOf ∧
        IsPartition d.toTransitionSystem es ∧
          ∀ groups : List Edge, groups.Perm (Edge.grouped d.transitions) →
            groups.mergeSort Edge.notBehind = es := by
  obtain ⟨hm, -⟩ := hd.wellFormed
  have hgrouping := TransitionSystem.isGrouping_edges hm
  refine ⟨d.graphOf, d.edges, graph?_draw Dot.isLayout_spaced d, filter_isSome_arrows_graphOf d,
    TransitionSystem.isPartition_edges hm, ?_⟩
  intro groups hgroups
  exact hgrouping.mergeSort_eq (TransitionSystem.pairwise_before_edges _)
    (hgroups.trans ((Edge.IsGrouping.grouped _).perm hgrouping))

/-- Edges that are come by in another order than they are drawn in, one of them for several symbols;
    some of these are marks of the drawing. -/
def braided : Automaton :=
  ⟨⟨["a\" -> \"b", "\n"], ['"', ',', 'x'], [1],
    [((1, 'x'), 0), ((0, 'x'), 1), ((0, ','), 0), ((0, '"'), 1), ((1, ','), 1)]⟩, 1⟩

theorem braided_isBuilt : braided.IsBuilt :=
  ⟨[.state "a\" -> \"b", .state "\n", .symbol "\"", .symbol ",", .symbol "x", .start "\n",
    .accept "\n", .transition "\n" ',' "\n", .transition "a\" -> \"b" '"' "\n",
    .transition "a\" -> \"b" ',' "a\" -> \"b", .transition "a\" -> \"b" 'x' "\n",
    .transition "\n" 'x' "a\" -> \"b"], by decide +kernel⟩

/-- Its five transitions stand on four edges. -/
theorem braided_partition :
    braided.IsBuilt ∧
      braided.edges = [⟨0, 0, [',']⟩, ⟨0, 1, ['"', 'x']⟩, ⟨1, 0, ['x']⟩, ⟨1, 1, [',']⟩] ∧
        ∃ g es, Dot.graph? (braided.draw .spaced) = some g ∧
          g.arrows.filter (fun a => a.label.isSome) = es.map braided.arrowOf ∧
            IsPartition braided.toTransitionSystem es := by
  obtain ⟨g, es, hg, harrows, hparts, -⟩ := edges_partition braided_isBuilt
  exact ⟨braided_isBuilt, by decide +kernel, g, es, hg, harrows, hparts⟩

end Automaton

end Acceptor
