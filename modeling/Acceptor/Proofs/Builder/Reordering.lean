/-
  Histories in another order, and with repetitions.

  What a history means is told by its readings.  Two declarations that never give the same reading
  something can change places, and a declaration that was just made can be made again.

  1. **The same reading** — `SameReading xs ys`: the first occurrences of names and of symbols are
     the same, and so are the accepting states, the last start and the last targets.  Then the two
     histories speak of the same automaton (`SameReading.same`).

  2. **Legality** — what is legal stays legal when more was declared before (`Legal.mono`), so only
     the declaration that moves up has to be looked at (`legal_exchange`), and none when one is
     repeated (`legal_again`).

  3. **Changes** — exchanging neighbours that are `Apart`, and repeating, keep the reading.
-/
import Acceptor.Proofs.Automaton.Alike
import Acceptor.Proofs.Builder.Account

namespace Acceptor

/-- The automata are alike, and their alphabets are the same. -/
structure Automaton.Same (d d' : Automaton) : Prop where
  alike : d.Alike d'
  alphabet : d.alphabet = d'.alphabet

namespace History

variable {xs ys as us vs zs : List Declaration} {d d' : Automaton}

/-! ## The same reading -/

/-- Two histories say the same in the same order, as far as the order counts. -/
structure SameReading (xs ys : List Declaration) : Prop where
  names : (xs.filterMap name?).eraseDups = (ys.filterMap name?).eraseDups
  symbols : (xs.filterMap symbol?).eraseDups = (ys.filterMap symbol?).eraseDups
  start : (xs.filterMap start?).getLast? = (ys.filterMap start?).getLast?
  accepting : ∀ n, n ∈ xs.filterMap accept? ↔ n ∈ ys.filterMap accept?
  targets : ∀ p c, (xs.filterMap (target? p c)).getLast? = (ys.filterMap (target? p c)).getLast?

/-- A number depends on the first occurrences only. -/
theorem number_congr (h : (xs.filterMap name?).eraseDups = (ys.filterMap name?).eraseDups)
    (n : String) : number xs n = number ys n := by
  have hmem : n ∈ xs.filterMap name? ↔ n ∈ ys.filterMap name? := by
    rw [← List.mem_eraseDups, h, List.mem_eraseDups]
  by_cases hn : n ∈ xs.filterMap name?
  · -- both numbers are the place of `n` among the first occurrences
    have hx := getElem?_number hn
    have hy := getElem?_number (hmem.1 hn)
    rw [← h] at hy
    obtain ⟨hlt, -⟩ := List.getElem?_eq_some_iff.1 hx
    exact (List.getElem?_inj hlt (nodup_eraseDups _)).1 (hx.trans hy.symm)
  · rw [number_of_not_mem hn, number_of_not_mem (mt hmem.2 hn), h]

/-- Histories with the same reading speak of the same automaton. -/
theorem SameReading.same (h : SameReading xs ys) (hd : IsAccountOf xs d)
    (hd' : IsAccountOf ys d') : d.Same d' := by
  have hnumber : number xs = number ys := funext fun n => number_congr h.names n
  have hnames : d.names = d'.names := by rw [hd.names, hd'.names, h.names]
  have hlast : ∀ p c, lastTarget xs p c = lastTarget ys p c := by
    intro p c
    rw [lastTarget, lastTarget, h.targets, hnumber]
  refine ⟨⟨hnames, ?_, ?_, ?_⟩, ?_⟩
  · have hstart : lastStart xs = lastStart ys := by rw [lastStart, lastStart, h.start, hnumber]
    rw [hd.start, hd'.start] at hstart
    exact Option.some.inj hstart
  · intro s
    rw [Bool.eq_iff_iff, hd.accepting, hd'.accepting, hnumber]
    simp only [h.accepting]
  · intro s c
    have hname : d.name? s = d'.name? s := congrArg (·[s]?) hnames
    rw [hd.next?, hd'.next?, hname]
    simp only [hlast]
  · rw [hd.alphabet, hd'.alphabet, h.symbols]

/-- A history gives every part that an automaton needs. -/
structure Complete (xs : List Declaration) : Prop where
  names : xs.filterMap name? ≠ []
  symbols : xs.filterMap symbol? ≠ []
  starts : xs.filterMap start? ≠ []

theorem SameReading.complete (h : SameReading xs ys) (hc : Complete ys) : Complete xs where
  names hnil := by
    have hnone := h.names
    rw [hnil] at hnone
    exact hc.names (eraseDups_eq_nil_iff.1 hnone.symm)
  symbols hnil := by
    have hnone := h.symbols
    rw [hnil] at hnone
    exact hc.symbols (eraseDups_eq_nil_iff.1 hnone.symm)
  starts hnil := by
    have hnone := h.start
    rw [hnil] at hnone
    exact hc.starts (List.getLast?_eq_none_iff.1 hnone.symm)

/-! ## Legality -/

theorem filterMap_subset {α : Type} (f : Declaration → Option α) (h : xs ⊆ ys) :
    xs.filterMap f ⊆ ys.filterMap f := by
  intro a ha
  obtain ⟨x, hx, hfx⟩ := List.mem_filterMap.1 ha
  exact List.mem_filterMap.2 ⟨x, h hx, hfx⟩

theorem Permits.mono {y : Declaration} (h : xs ⊆ ys) (hy : Permits xs y) : Permits ys y := by
  cases y with
  | state name => trivial
  | symbol token => exact hy
  | start name => exact filterMap_subset name? h hy
  | accept name => exact filterMap_subset name? h hy
  | transition p c q =>
    obtain ⟨hp, hc, hq⟩ := hy
    exact ⟨filterMap_subset name? h hp, filterMap_subset symbol? h hc, filterMap_subset name? h hq⟩

/-- What is legal stays legal when more was declared before. -/
theorem Legal.mono (h : xs ⊆ ys) (hzs : Legal xs zs) : Legal ys zs := by
  induction zs generalizing xs ys with
  | nil => trivial
  | cons z zs ih =>
    have hz : xs ++ [z] ⊆ ys ++ [z] := List.append_subset.2
      ⟨List.Subset.trans h (List.subset_append_left ys [z]), List.subset_append_right ys [z]⟩
    exact ⟨hzs.1.mono h, ih hz hzs.2⟩

/-- Declarations may be exchanged when the second need not wait for the first. -/
theorem legal_exchange (hvs : Legal as vs) (h : Legal [] (as ++ (us ++ (vs ++ zs)))) :
    Legal [] (as ++ (vs ++ (us ++ zs))) := by
  simp only [legal_append, List.nil_append] at h ⊢
  obtain ⟨has, hus, -, hzs⟩ := h
  have hboth : as ++ us ++ vs ⊆ as ++ vs ++ us := by
    intro x hx
    simp only [List.mem_append] at hx ⊢
    rcases hx with (hx | hx) | hx
    · exact .inl (.inl hx)
    · exact .inr hx
    · exact .inl (.inr hx)
  exact ⟨has, hvs, hus.mono (List.subset_append_left as vs), hzs.mono hboth⟩

/-- Declarations may be made again. -/
theorem legal_again (h : Legal [] (as ++ (us ++ zs))) : Legal [] (as ++ (us ++ (us ++ zs))) := by
  simp only [legal_append, List.nil_append] at h ⊢
  obtain ⟨has, hus, hzs⟩ := h
  exact ⟨has, hus, hus.mono (List.subset_append_left as us),
    hzs.mono (List.subset_append_left (as ++ us) us)⟩

/-! ## Changes -/

/-- There is nothing that two lists of declarations both say something of. -/
structure Apart (us vs : List Declaration) : Prop where
  names : us.filterMap name? = [] ∨ vs.filterMap name? = []
  symbols : us.filterMap symbol? = [] ∨ vs.filterMap symbol? = []
  starts : us.filterMap start? = [] ∨ vs.filterMap start? = []
  accepts : us.filterMap accept? = [] ∨ vs.filterMap accept? = []
  targets : ∀ p c, us.filterMap (target? p c) = [] ∨ vs.filterMap (target? p c) = []

section Readings

variable {α : Type} {f : Declaration → Option α}

theorem filterMap_exchange (h : us.filterMap f = [] ∨ vs.filterMap f = [])
    (as zs : List Declaration) :
    (as ++ (vs ++ (us ++ zs))).filterMap f = (as ++ (us ++ (vs ++ zs))).filterMap f := by
  simp only [List.filterMap_append]
  rcases h with hnil | hnil
  · rw [hnil, List.nil_append, List.nil_append]
  · rw [hnil, List.nil_append, List.nil_append]

theorem eraseDups_filterMap_again [BEq α] [LawfulBEq α] (as us zs : List Declaration) :
    ((as ++ (us ++ (us ++ zs))).filterMap f).eraseDups =
      ((as ++ (us ++ zs)).filterMap f).eraseDups := by
  simp only [List.filterMap_append]
  rw [← List.append_assoc, eraseDups_append_of_subset (List.subset_append_right _ _),
    List.append_assoc]

theorem getLast?_filterMap_again (as us zs : List Declaration) :
    ((as ++ (us ++ (us ++ zs))).filterMap f).getLast? =
      ((as ++ (us ++ zs)).filterMap f).getLast? := by
  simp only [List.filterMap_append, List.getLast?_append]
  -- what is said last is said behind the repetition, or in it
  cases (us.filterMap f).getLast? with
  | none => simp
  | some a => simp

theorem mem_filterMap_again {a : α} (as us zs : List Declaration) :
    a ∈ (as ++ (us ++ (us ++ zs))).filterMap f ↔ a ∈ (as ++ (us ++ zs)).filterMap f := by
  simp only [List.filterMap_append, List.mem_append]
  tauto

end Readings

/-- Neighbours that are apart may be exchanged. -/
theorem Apart.sameReading (h : Apart us vs) (as zs : List Declaration) :
    SameReading (as ++ (vs ++ (us ++ zs))) (as ++ (us ++ (vs ++ zs))) where
  names := by rw [filterMap_exchange h.names]
  symbols := by rw [filterMap_exchange h.symbols]
  start := by rw [filterMap_exchange h.starts]
  accepting n := by rw [filterMap_exchange h.accepts]
  targets p c := by rw [filterMap_exchange (h.targets p c)]

/-- What was just declared may be declared again. -/
theorem sameReading_again (as us zs : List Declaration) :
    SameReading (as ++ (us ++ (us ++ zs))) (as ++ (us ++ zs)) where
  names := eraseDups_filterMap_again as us zs
  symbols := eraseDups_filterMap_again as us zs
  start := getLast?_filterMap_again as us zs
  accepting _ := mem_filterMap_again as us zs
  targets _ _ := getLast?_filterMap_again as us zs

end History

end Acceptor
