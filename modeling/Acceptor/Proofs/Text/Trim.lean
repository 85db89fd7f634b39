/-
  Trimming, and lists with commas.

  1. **Trimmed texts** — `IsTrimmed s`: neither end of `s` is a blank.  Trimming makes a text such
     (`isTrimmed_trim`) and leaves such a text alone (`trim_eq_self`).

  2. **Items** — a list with commas is read piece by piece (`listItems_append_comma`), and blanks
     around a piece do not count.  So items that are put together with commas and blanks are the
     items that are read (`listItems_intercalate`).
-/
import Acceptor.Text.Split

namespace Acceptor.Text

variable {c : Char} {s : List Char}

/-! ## Trimmed texts -/

theorem trimEnd_cons_of_not_blank (hc : isBlank c = false) (s : List Char) :
    trimEnd (c :: s) = c :: trimEnd s := by
  unfold trimEnd
  rw [List.reverse_cons, List.dropWhile_append]
  split
  · rename_i hall
    rw [List.isEmpty_iff] at hall
    simp [hall, hc]
  · rw [List.reverse_append]
    rfl

theorem trimEnd_append_of_not_blank {lead : List Char} (h : ∀ c ∈ lead, isBlank c = false)
    (s : List Char) : trimEnd (lead ++ s) = lead ++ trimEnd s := by
  induction lead with
  | nil => rfl
  | cons c lead ih =>
    rw [List.forall_mem_cons] at h
    rw [List.cons_append, trimEnd_cons_of_not_blank h.1, ih h.2, List.cons_append]

theorem trimStart_cons_of_not_blank (hc : isBlank c = false) (s : List Char) :
    trimStart (c :: s) = c :: s := by
  rw [trimStart, List.dropWhile_cons, hc]
  rfl

/-- A trimmed text has no blanks in front. -/
@[simp] theorem trimStart_trim (s : List Char) : trimStart (trim s) = trim s := by
  rw [trim]
  cases h : trimStart s with
  | nil => rfl
  | cons c rest =>
    have hc : isBlank c = false := isBlank_head_trimStart (by rw [h]; rfl)
    rw [trimEnd_cons_of_not_blank hc, trimStart_cons_of_not_blank hc]

/-- A text neither begins nor ends with a blank. -/
structure IsTrimmed (s : List Char) : Prop where
  first : ∀ c, s.head? = some c → isBlank c = false
  last : ∀ c, s.getLast? = some c → isBlank c = false

theorem isTrimmed_singleton (hc : isBlank c = false) : IsTrimmed [c] where
  first a ha := by
    cases ha
    exact hc
  last a ha := by
    cases ha
    exact hc

theorem isTrimmed_trim (s : List Char) : IsTrimmed (trim s) where
  first c h := by
    rw [← trimStart_trim] at h
    exact isBlank_head_trimStart h
  last _ h := isBlank_getLast_trimEnd h

/-- Blanks in front of a text do not count. -/
theorem trim_append_of_blank {lead : List Char} (hlead : ∀ c ∈ lead, isBlank c = true)
    (s : List Char) : trim (lead ++ s) = trim s := by
  rw [trim, trim, trimStart, trimStart, List.dropWhile_append_of_pos hlead]

/-- Blanks at the end of a text do not count. -/
theorem trimEnd_append_of_blank {trail : List Char} (htrail : ∀ c ∈ trail, isBlank c = true)
    (s : List Char) : trimEnd (s ++ trail) = trimEnd s := by
  have hrev : ∀ c ∈ trail.reverse, isBlank c = true := fun c hc => htrail c (List.mem_reverse.1 hc)
  rw [trimEnd, trimEnd, List.reverse_append, List.dropWhile_append_of_pos hrev]

theorem trim_append_blank {trail : List Char} (htrail : ∀ c ∈ trail, isBlank c = true)
    (s : List Char) : trim (s ++ trail) = trim s := by
  rw [trim, trim, trimStart, trimStart, List.dropWhile_append]
  split
  · -- nothing but blanks: both sides are empty
    rename_i hnil
    rw [List.isEmpty_iff] at hnil
    rw [hnil, ← List.append_nil trail, List.dropWhile_append_of_pos htrail, List.dropWhile_nil]
  · exact trimEnd_append_of_blank htrail _

theorem trimStart_eq_self (h : ∀ c, s.head? = some c → isBlank c = false) : trimStart s = s := by
  cases s with
  | nil => rfl
  | cons c rest => exact trimStart_cons_of_not_blank (h c rfl) rest

theorem trimEnd_eq_self (h : ∀ c, s.getLast? = some c → isBlank c = false) : trimEnd s = s := by
  have hrev : trimStart s.reverse = s.reverse := trimStart_eq_self (by simpa using h)
  rw [trimStart] at hrev
  rw [trimEnd, hrev, List.reverse_reverse]

theorem trim_eq_self (h : IsTrimmed s) : trim s = s := by
  rw [trim, trimStart_eq_self h.first, trimEnd_eq_self h.last]

theorem isTrimmed_iff : IsTrimmed s ↔ trim s = s := by
  constructor
  · exact trim_eq_self
  · intro h
    rw [← h]
    exact isTrimmed_trim s

instance (s : List Char) : Decidable (IsTrimmed s) := decidable_of_iff _ isTrimmed_iff.symm

/-- Trimming takes characters away and does nothing else. -/
theorem trimEnd_sublist (s : List Char) : (trimEnd s).Sublist s := by
  have hrev : (s.reverse.dropWhile isBlank).reverse.Sublist s.reverse.reverse :=
    (List.dropWhile_sublist isBlank).reverse
  rwa [List.reverse_reverse] at hrev

theorem trim_sublist (s : List Char) : (trim s).Sublist s :=
  (trimEnd_sublist (trimStart s)).trans (List.dropWhile_sublist isBlank)

/-! ## Items -/

theorem mem_listItems_trimmed {item : List Char} (h : item ∈ listItems s) : IsTrimmed item := by
  obtain ⟨piece, -, rfl⟩ := List.mem_map.1 (List.mem_filter.1 h).1
  exact isTrimmed_trim piece

/-- The items on the two sides of a comma are read one after the other. -/
theorem listItems_append_comma (s t : List Char) :
    listItems (s ++ ',' :: t) = listItems s ++ listItems t := by
  rw [listItems, List.splitOn_append_cons_self, List.map_append, List.filter_append]
  rfl

/-- Where there is no comma, there is one item at most. -/
theorem listItems_of_not_mem (h : ',' ∉ s) :
    listItems s = if trim s = [] then [] else [trim s] := by
  have hsplit : s.splitOn ',' = [s] := by
    have hpieces : ([','].intercalate [s]).splitOn ',' = [s] :=
      List.splitOn_intercalate ',' (by simpa using h) (by simp)
    rwa [List.intercalate_singleton] at hpieces
  rw [listItems, hsplit, List.map_singleton]
  by_cases hnil : trim s = []
  · rw [if_pos hnil, List.filter_cons_of_neg (by simpa using hnil), List.filter_nil]
  · rw [if_neg hnil, List.filter_cons_of_pos (by simpa using hnil), List.filter_nil]

/-- A comma is no blank. -/
theorem comma_not_mem_of_blank {lead : List Char} (hlead : ∀ c ∈ lead, isBlank c = true) :
    ',' ∉ lead :=
  fun hmem => absurd (hlead ',' hmem) (by decide)

/-- What can stand as an item in a list with commas. -/
structure IsItem (item : List Char) : Prop where
  trimmed : IsTrimmed item
  ne_nil : item ≠ []
  no_comma : ',' ∉ item

/-- No piece of a list holds the comma at which the list is cut.  Induction on the list. -/
theorem comma_not_mem_of_mem_splitOn {piece : List Char} (h : piece ∈ s.splitOn ',') :
    ',' ∉ piece := by
  induction s generalizing piece with
  | nil =>
    rw [List.splitOn_nil, List.mem_singleton] at h
    exact h ▸ List.not_mem_nil
  | cons c s ih =>
    rw [List.splitOn_cons_eq_if_modifyHead] at h
    split at h
    · rcases List.mem_cons.1 h with rfl | h
      · exact List.not_mem_nil
      · exact ih h
    · rename_i hc
      cases hs : s.splitOn ',' with
      | nil => exact absurd hs (List.splitOn_ne_nil ',' s)
      | cons first others =>
        rw [hs] at h ih
        rcases List.mem_cons.1 h with rfl | h
        · -- `c` was put in front of the first piece
          rw [List.mem_cons, not_or]
          exact ⟨fun heq => hc (beq_iff_eq.2 heq.symm), ih List.mem_cons_self⟩
        · exact ih (List.mem_cons_of_mem first h)

/-- What is read from a list can stand in a list. -/
theorem isItem_of_mem_listItems {item : List Char} (h : item ∈ listItems s) : IsItem item where
  trimmed := mem_listItems_trimmed h
  ne_nil := of_decide_eq_true (List.mem_filter.1 h).2
  no_comma hmem := by
    obtain ⟨piece, hpiece, rfl⟩ := List.mem_map.1 (List.mem_filter.1 h).1
    exact comma_not_mem_of_mem_splitOn hpiece ((trim_sublist piece).subset hmem)

/-- Blanks in front of an item do not count. -/
theorem listItems_lead_item {lead item : List Char} (hlead : ∀ c ∈ lead, isBlank c = true)
    (h : IsItem item) : listItems (lead ++ item) = [item] := by
  have hcomma : ',' ∉ lead ++ item := by
    rw [List.mem_append, not_or]
    exact ⟨comma_not_mem_of_blank hlead, h.no_comma⟩
  rw [listItems_of_not_mem hcomma, trim_append_of_blank hlead, trim_eq_self h.trimmed,
    if_neg h.ne_nil]

/-- Items that are put together with commas and blanks are read back, behind blanks as well. -/
theorem listItems_lead_intercalate {items : List (List Char)} (hitems : ∀ item ∈ items, IsItem item)
    {lead : List Char} (hlead : ∀ c ∈ lead, isBlank c = true) :
    listItems (lead ++ [',', ' '].intercalate items) = items := by
  induction items generalizing lead with
  | nil =>
    show listItems (lead ++ []) = []
    rw [List.append_nil, listItems_of_not_mem (comma_not_mem_of_blank hlead),
      ← List.append_nil lead, trim_append_of_blank hlead]
    rfl
  | cons item items ih =>
    rw [List.forall_mem_cons] at hitems
    have hfirst := listItems_lead_item hlead hitems.1
    cases items with
    | nil =>
      rw [List.intercalate_singleton]
      exact hfirst
    | cons next items =>
      -- the blank behind the comma stands in front of the other items
      have hrest : listItems ([' '] ++ [',', ' '].intercalate (next :: items)) = next :: items :=
        ih hitems.2 (List.forall_mem_singleton.2 (by decide))
      calc listItems (lead ++ [',', ' '].intercalate (item :: next :: items))
        _ = listItems (lead ++ item ++
              ',' :: ([' '] ++ [',', ' '].intercalate (next :: items))) := by
            rw [List.intercalate_cons_cons]
            simp
        _ = [item] ++ next :: items := by rw [listItems_append_comma, hfirst, hrest]

theorem listItems_intercalate {items : List (List Char)} (hitems : ∀ item ∈ items, IsItem item) :
    listItems ([',', ' '].intercalate items) = items := by
  rw [← List.nil_append (List.intercalate _ items)]
  exact listItems_lead_intercalate hitems (by simp)

/-! Of a list that is put together, both ends are ends of items. -/

section Intercalate

variable {α : Type} {sep item : List α} {items : List (List α)}

theorem head?_intercalate (hne : item ≠ []) (items : List (List α)) :
    (sep.intercalate (item :: items)).head? = item.head? := by
  cases items with
  | nil => rw [List.intercalate_singleton]
  | cons next items =>
    obtain ⟨a, rest, rfl⟩ := List.exists_cons_of_ne_nil hne
    rw [List.intercalate_cons_cons]
    rfl

theorem getLast?_intercalate (hne : ∀ item ∈ items, item ≠ []) :
    (sep.intercalate items).getLast? = items.getLast?.bind List.getLast? := by
  induction items with
  | nil => rfl
  | cons item items ih =>
    rw [List.forall_mem_cons] at hne
    cases items with
    | nil => rw [List.intercalate_singleton]; rfl
    | cons next items =>
      -- the last of the other items has a last element, so the end is not in front of it
      have hlast : ∃ a, (sep.intercalate (next :: items)).getLast? = some a := by
        have hmem : (next :: items).getLast (by simp) ∈ next :: items := List.getLast_mem _
        rw [ih hne.2, List.getLast?_eq_some_getLast (by simp)]
        exact ⟨_, List.getLast?_eq_some_getLast (hne.2 _ hmem)⟩
      obtain ⟨a, ha⟩ := hlast
      rw [List.intercalate_cons_cons, List.getLast?_append, ha, Option.some_or,
        List.getLast?_cons_cons, ← ih hne.2, ha]

/-- What is put together is all there. -/
theorem mem_intercalate {a : α} (hitem : item ∈ items) (ha : a ∈ item) :
    a ∈ sep.intercalate items := by
  induction items with
  | nil => cases hitem
  | cons first items ih =>
    cases items with
    | nil =>
      rw [List.intercalate_singleton]
      exact List.mem_singleton.1 hitem ▸ ha
    | cons next items =>
      rw [List.intercalate_cons_cons, List.mem_append, List.mem_append]
      rcases List.mem_cons.1 hitem with rfl | hrest
      · exact .inl (.inl ha)
      · exact .inr (ih hrest)

theorem not_mem_intercalate {a : α} (hsep : a ∉ sep) (hitems : ∀ item ∈ items, a ∉ item) :
    a ∉ sep.intercalate items := by
  induction items with
  | nil => exact List.not_mem_nil
  | cons item items ih =>
    rw [List.forall_mem_cons] at hitems
    cases items with
    | nil =>
      rw [List.intercalate_singleton]
      exact hitems.1
    | cons next items =>
      rw [List.intercalate_cons_cons, List.mem_append, List.mem_append, not_or, not_or]
      exact ⟨⟨hitems.1, hsep⟩, ih hitems.2⟩

end Intercalate

/-- The characters of an item stand in the list. -/
theorem mem_of_mem_listItems {item : List Char} (hitem : item ∈ listItems s) (hc : c ∈ item) :
    c ∈ s := by
  obtain ⟨piece, hpiece, rfl⟩ := List.mem_map.1 (List.mem_filter.1 hitem).1
  have hpieces : [','].intercalate (s.splitOn ',') = s := List.intercalate_splitOn ','
  rw [← hpieces]
  exact mem_intercalate hpiece ((trim_sublist piece).subset hc)

theorem isTrimmed_intercalate {sep : List Char} {items : List (List Char)}
    (h : ∀ item ∈ items, IsItem item) : IsTrimmed (sep.intercalate items) where
  first c hc := by
    cases items with
    | nil => cases hc
    | cons item items =>
      rw [List.forall_mem_cons] at h
      rw [head?_intercalate h.1.ne_nil] at hc
      exact h.1.trimmed.first c hc
  last c hc := by
    rw [getLast?_intercalate fun item hitem => (h item hitem).ne_nil] at hc
    obtain ⟨item, hitem, hlast⟩ := Option.bind_eq_some_iff.1 hc
    exact (h item (List.mem_of_getLast? hitem)).trimmed.last c hlast

end Acceptor.Text
