/-
  What the lines of a definition declare.

  The declarations that a text stands for form a history.  Here its readings are computed from the
  lines, kind by kind, and legality becomes a condition on the lines:

  1. **Header lines** — the names that the headers declare are the items of their `states` lines,
     and so on for each kind (`filterMap_name?_headers` and the others).

  2. **Rule lines** — they declare targets only.  `declarationsOf` puts headers and rules together.

  3. **Legality** — `LinePermitted above line` says that a header line uses only what is declared on
     the lines above it; `legal_declarationsOf_iff` lifts this to all lines.
-/
import Acceptor.Proofs.Builder.History
import Acceptor.Proofs.Definition.Layout

namespace Acceptor.Definition

open History (Permits Legal)

variable {lines above : List (List Char)} {line : List Char} {rules : List Rule}

/-! ## Header lines -/

/-- A reading of what headers declare, when it picks from each line what its value gives under one
    keyword. -/
theorem filterMap_headers {α : Type} {f : Declaration → Option α} (k : Keyword)
    (g : List Char → List α)
    (hline : ∀ line, (headerDeclarations line).filterMap f =
      if keywordOf? line = some k then g (valueOf line) else [])
    (lines : List (List Char)) :
    (lines.flatMap headerDeclarations).filterMap f = (valuesOf k lines).flatMap g := by
  induction lines with
  | nil => rfl
  | cons line lines ih =>
    rw [List.flatMap_cons, List.filterMap_append, hline, ih]
    unfold valuesOf
    by_cases hk : keywordOf? line = some k
    · rw [if_pos hk, List.filter_cons_of_pos (by simpa using hk), List.map_cons, List.flatMap_cons]
    · rw [if_neg hk, List.filter_cons_of_neg (by simpa using hk), List.nil_append]

/-- The names that headers declare are the items of their `states` lines. -/
theorem filterMap_name?_headers (lines : List (List Char)) :
    (lines.flatMap headerDeclarations).filterMap History.name? =
      (itemsOf .states lines).map String.ofList := by
  have hline : ∀ line, (headerDeclarations line).filterMap History.name? =
      if keywordOf? line = some .states then (Text.listItems (valueOf line)).map String.ofList
      else [] := by
    intro line
    unfold headerDeclarations
    cases keywordOf? line with
    | none => rfl
    | some k => cases k <;> simp [Header.declarations, Function.comp_def, History.name?]
  rw [filterMap_headers .states (fun value => (Text.listItems value).map String.ofList) hline,
    itemsOf, List.map_flatMap]

/-- The symbols are the items of their `alphabet` lines, those of one character. -/
theorem filterMap_symbol?_headers (lines : List (List Char)) :
    (lines.flatMap headerDeclarations).filterMap History.symbol? =
      (itemsOf .alphabet lines).filterMap fun item => (symbolOf (String.ofList item)).toOption := by
  have hline : ∀ line, (headerDeclarations line).filterMap History.symbol? =
      if keywordOf? line = some .alphabet then
        (Text.listItems (valueOf line)).filterMap
          fun item => (symbolOf (String.ofList item)).toOption
      else [] := by
    intro line
    unfold headerDeclarations
    cases keywordOf? line with
    | none => rfl
    | some k => cases k <;> simp [Header.declarations, Function.comp_def, History.symbol?]
  rw [filterMap_headers .alphabet (fun value => (Text.listItems value).filterMap
    fun item => (symbolOf (String.ofList item)).toOption) hline, itemsOf, List.filterMap_flatMap]

/-- The starts are the values of their `start` lines. -/
theorem filterMap_start?_headers (lines : List (List Char)) :
    (lines.flatMap headerDeclarations).filterMap History.start? =
      (valuesOf .start lines).map String.ofList := by
  have hline : ∀ line, (headerDeclarations line).filterMap History.start? =
      if keywordOf? line = some .start then [String.ofList (valueOf line)] else [] := by
    intro line
    unfold headerDeclarations
    cases keywordOf? line with
    | none => rfl
    | some k => cases k <;> simp [Header.declarations, Function.comp_def, History.start?]
  rw [filterMap_headers .start (fun value => [String.ofList value]) hline, List.map_eq_flatMap]

/-- The accepting states are the items of their `accept` lines. -/
theorem filterMap_accept?_headers (lines : List (List Char)) :
    (lines.flatMap headerDeclarations).filterMap History.accept? =
      (itemsOf .accept lines).map String.ofList := by
  have hline : ∀ line, (headerDeclarations line).filterMap History.accept? =
      if keywordOf? line = some .accept then (Text.listItems (valueOf line)).map String.ofList
      else [] := by
    intro line
    unfold headerDeclarations
    cases keywordOf? line with
    | none => rfl
    | some k => cases k <;> simp [Header.declarations, Function.comp_def, History.accept?]
  rw [filterMap_headers .accept (fun value => (Text.listItems value).map String.ofList) hline,
    itemsOf, List.map_flatMap]

/-- No header declares a target. -/
theorem filterMap_target?_headers (p : String) (c : Char) (lines : List (List Char)) :
    (lines.flatMap headerDeclarations).filterMap (History.target? p c) = [] := by
  rw [List.filterMap_eq_nil_iff]
  intro x hx
  obtain ⟨line, -, hx⟩ := List.mem_flatMap.1 hx
  unfold headerDeclarations at hx
  cases hk : keywordOf? line with
  | none => simp [hk] at hx
  | some k =>
    rw [hk] at hx
    cases k with
    | states | alphabet | accept =>
      obtain ⟨item, -, rfl⟩ := List.mem_map.1 hx
      rfl
    | start =>
      rw [List.mem_singleton.1 hx]
      rfl
    | transitions => cases hx

/-! ## Rule lines -/

/-- Rules declare nothing but targets. -/
theorem filterMap_rules_eq_nil {α : Type} {f : Declaration → Option α}
    (h : ∀ p c q, f (.transition p c q) = none) (rules : List Rule) :
    (rules.map Rule.declaration).filterMap f = [] := by
  rw [List.filterMap_eq_nil_iff]
  intro x hx
  obtain ⟨r, -, rfl⟩ := List.mem_map.1 hx
  exact h r.source r.symbol r.target

/-! ## Headers and rules together -/

/-- The declarations of header lines, and then those of rules. -/
def declarationsOf (lines : List (List Char)) (rules : List Rule) : List Declaration :=
  lines.flatMap headerDeclarations ++ rules.map Rule.declaration

theorem declarationsOf_cons (line : List Char) (lines : List (List Char)) (rules : List Rule) :
    declarationsOf (line :: lines) rules =
      headerDeclarations line ++ declarationsOf lines rules := by
  rw [declarationsOf, List.flatMap_cons, List.append_assoc]
  rfl

theorem filterMap_name?_declarationsOf :
    (declarationsOf lines rules).filterMap History.name? =
      (itemsOf .states lines).map String.ofList := by
  rw [declarationsOf, List.filterMap_append, filterMap_name?_headers,
    filterMap_rules_eq_nil fun _ _ _ => rfl, List.append_nil]

theorem filterMap_symbol?_declarationsOf :
    (declarationsOf lines rules).filterMap History.symbol? =
      (itemsOf .alphabet lines).filterMap fun item => (symbolOf (String.ofList item)).toOption := by
  rw [declarationsOf, List.filterMap_append, filterMap_symbol?_headers,
    filterMap_rules_eq_nil fun _ _ _ => rfl, List.append_nil]

theorem filterMap_start?_declarationsOf :
    (declarationsOf lines rules).filterMap History.start? =
      (valuesOf .start lines).map String.ofList := by
  rw [declarationsOf, List.filterMap_append, filterMap_start?_headers,
    filterMap_rules_eq_nil fun _ _ _ => rfl, List.append_nil]

theorem filterMap_accept?_declarationsOf :
    (declarationsOf lines rules).filterMap History.accept? =
      (itemsOf .accept lines).map String.ofList := by
  rw [declarationsOf, List.filterMap_append, filterMap_accept?_headers,
    filterMap_rules_eq_nil fun _ _ _ => rfl, List.append_nil]

/-! ## Membership, by the characters -/

theorem ofList_mem_names_iff {name : List Char} :
    String.ofList name ∈ (lines.flatMap headerDeclarations).filterMap History.name? ↔
      name ∈ itemsOf .states lines := by
  rw [filterMap_name?_headers, List.mem_map]
  constructor
  · rintro ⟨item, hitem, heq⟩
    exact String.ofList_injective heq ▸ hitem
  · intro h
    exact ⟨name, h, rfl⟩

theorem mem_symbols_iff {c : Char} :
    c ∈ (lines.flatMap headerDeclarations).filterMap History.symbol? ↔
      [c] ∈ itemsOf .alphabet lines := by
  have hsymbol : ∀ item : List Char,
      (symbolOf (String.ofList item)).toOption = some c ↔ item = [c] := by
    intro item
    rw [← String.toList_ofList (l := item), ← symbolOf_eq_ok_iff, String.toList_ofList]
    cases symbolOf (String.ofList item) <;> simp [Except.toOption]
  rw [filterMap_symbol?_headers, List.mem_filterMap]
  constructor
  · rintro ⟨item, hitem, hc⟩
    exact (hsymbol item).1 hc ▸ hitem
  · intro h
    exact ⟨[c], h, (hsymbol [c]).2 rfl⟩

/-! ## Legality -/

/-- A header line uses only what is declared on the lines above it. -/
structure LinePermitted (above : List (List Char)) (line : List Char) : Prop where
  /-- Symbols are single characters. -/
  symbols : keywordOf? line = some .alphabet →
    ∀ token ∈ Text.listItems (valueOf line), token.length = 1
  /-- The start is declared above. -/
  start : keywordOf? line = some .start → valueOf line ∈ itemsOf .states above
  /-- The accepting states are declared above. -/
  accepts : keywordOf? line = some .accept →
    ∀ name ∈ Text.listItems (valueOf line), name ∈ itemsOf .states above

/-! Under one keyword, one condition is left. -/

theorem linePermitted_alphabet_iff (hk : keywordOf? line = some .alphabet) :
    LinePermitted above line ↔ ∀ token ∈ Text.listItems (valueOf line), token.length = 1 := by
  constructor
  · intro h
    exact h.symbols hk
  · intro h
    exact ⟨fun _ => h, by simp [hk], by simp [hk]⟩

theorem linePermitted_start_iff (hk : keywordOf? line = some .start) :
    LinePermitted above line ↔ valueOf line ∈ itemsOf .states above := by
  constructor
  · intro h
    exact h.start hk
  · intro h
    exact ⟨by simp [hk], fun _ => h, by simp [hk]⟩

theorem linePermitted_accept_iff (hk : keywordOf? line = some .accept) :
    LinePermitted above line ↔
      ∀ name ∈ Text.listItems (valueOf line), name ∈ itemsOf .states above := by
  constructor
  · intro h
    exact h.accepts hk
  · intro h
    exact ⟨by simp [hk], by simp [hk], fun _ => h⟩

theorem permits_symbol_iff {xs : List Declaration} {token : List Char} :
    Permits xs (.symbol (String.ofList token)) ↔ token.length = 1 := by
  show (∃ c, (String.ofList token).toList = [c]) ↔ _
  rw [String.toList_ofList, List.length_eq_one_iff]

/-- What one header line declares is legal exactly when the line is permitted. -/
theorem legal_headerDeclarations_iff :
    Legal (above.flatMap headerDeclarations) (headerDeclarations line) ↔
      LinePermitted above line := by
  unfold headerDeclarations
  cases hk : keywordOf? line with
  | none =>
    have hfree : LinePermitted above line := ⟨by simp [hk], by simp [hk], by simp [hk]⟩
    exact iff_of_true trivial hfree
  | some k =>
    cases k with
    | states =>
      -- a state may be declared at any time
      have hfree : LinePermitted above line := ⟨by simp [hk], by simp [hk], by simp [hk]⟩
      have hstates : ∀ xs, ∀ y ∈ Header.declarations ⟨.states, valueOf line⟩, Permits xs y := by
        intro xs y hy
        obtain ⟨item, -, rfl⟩ := List.mem_map.1 hy
        trivial
      refine iff_of_true ?_ hfree
      exact (History.legal_iff_forall fun _ _ y hy =>
        iff_of_true (hstates _ y hy) (hstates _ y hy)).2 (hstates _)
    | alphabet =>
      -- whether a token is one character does not depend on what was declared before
      have hindependent : ∀ xs ys, ∀ y ∈ Header.declarations ⟨.alphabet, valueOf line⟩,
          Permits xs y ↔ Permits ys y := by
        intro xs ys y hy
        obtain ⟨item, -, rfl⟩ := List.mem_map.1 hy
        exact Iff.rfl
      rw [linePermitted_alphabet_iff hk, History.legal_iff_forall fun zs _ => hindependent _ _]
      show (∀ y ∈ (Text.listItems (valueOf line)).map _, _) ↔ _
      rw [List.forall_mem_map]
      simp only [permits_symbol_iff]
    | start =>
      rw [linePermitted_start_iff hk]
      show Permits _ (.start (String.ofList (valueOf line))) ∧ True ↔ _
      rw [and_iff_left trivial]
      exact ofList_mem_names_iff
    | accept =>
      have hsilent : ∀ y ∈ Header.declarations ⟨.accept, valueOf line⟩,
          History.name? y = none ∧ History.symbol? y = none := by
        intro y hy
        obtain ⟨item, -, rfl⟩ := List.mem_map.1 hy
        exact ⟨rfl, rfl⟩
      rw [linePermitted_accept_iff hk, History.legal_iff_forall_of_silent hsilent]
      show (∀ y ∈ (Text.listItems (valueOf line)).map _, _) ↔ _
      rw [List.forall_mem_map]
      exact forall_congr' fun name => forall_congr' fun _ => ofList_mem_names_iff
    | transitions =>
      have hfree : LinePermitted above line := ⟨by simp [hk], by simp [hk], by simp [hk]⟩
      exact iff_of_true trivial hfree

/-- A condition on each line and the lines above it, for the first line and for the others. -/
theorem forall_split_cons {P : List (List Char) → List Char → Prop} :
    (∀ up l down, line :: lines = up ++ l :: down → P up l) ↔
      P [] line ∧ ∀ up l down, lines = up ++ l :: down → P (line :: up) l := by
  constructor
  · intro h
    refine ⟨h [] line lines rfl, fun up l down hsplit => ?_⟩
    exact h (line :: up) l down (by rw [hsplit, List.cons_append])
  · rintro ⟨hfirst, hothers⟩ up l down hsplit
    cases up with
    | nil =>
      obtain ⟨rfl, -⟩ := List.cons_eq_cons.1 hsplit
      exact hfirst
    | cons l' up =>
      rw [List.cons_append] at hsplit
      obtain ⟨rfl, hrest⟩ := List.cons_eq_cons.1 hsplit
      exact hothers up l down hrest

/-- What header lines declare is legal exactly when each of them is permitted by the lines above
    it. -/
theorem legal_headers_iff :
    Legal (above.flatMap headerDeclarations) (lines.flatMap headerDeclarations) ↔
      ∀ up line down, lines = up ++ line :: down → LinePermitted (above ++ up) line := by
  induction lines generalizing above with
  | nil => simp
  | cons line lines ih =>
    have happend : above.flatMap headerDeclarations ++ headerDeclarations line =
        (above ++ [line]).flatMap headerDeclarations := by simp
    rw [List.flatMap_cons, History.legal_append, legal_headerDeclarations_iff, happend, ih,
      forall_split_cons (P := fun up l => LinePermitted (above ++ up) l), List.append_nil]
    simp only [List.append_assoc, List.singleton_append]

/-- The headers permit a rule exactly when they declare its states and its symbol. -/
theorem permits_rule_iff {r : Rule} :
    Permits (lines.flatMap headerDeclarations) r.declaration ↔
      r.source.toList ∈ itemsOf .states lines ∧ [r.symbol] ∈ itemsOf .alphabet lines ∧
        r.target.toList ∈ itemsOf .states lines := by
  have hname : ∀ name : String,
      name ∈ (lines.flatMap headerDeclarations).filterMap History.name? ↔
        name.toList ∈ itemsOf .states lines := by
    intro name
    rw [← ofList_mem_names_iff, String.ofList_toList]
  show (_ ∈ _ ∧ _ ∈ _ ∧ _ ∈ _) ↔ _
  rw [hname, hname, mem_symbols_iff]

/-- Rules declare neither names nor symbols. -/
theorem silent_of_mem_rules {y : Declaration} (hy : y ∈ rules.map Rule.declaration) :
    History.name? y = none ∧ History.symbol? y = none := by
  obtain ⟨r, -, rfl⟩ := List.mem_map.1 hy
  exact ⟨rfl, rfl⟩

/-- What rules declare is legal exactly when each of them uses only what the headers declare. -/
theorem legal_rules_iff :
    Legal (lines.flatMap headerDeclarations) (rules.map Rule.declaration) ↔
      ∀ r ∈ rules, r.source.toList ∈ itemsOf .states lines ∧
        [r.symbol] ∈ itemsOf .alphabet lines ∧ r.target.toList ∈ itemsOf .states lines := by
  rw [History.legal_iff_forall_of_silent fun _ => silent_of_mem_rules, List.forall_mem_map]
  exact forall_congr' fun r => forall_congr' fun _ => permits_rule_iff

/-- What headers and rules declare is legal exactly when both use only what is declared above. -/
theorem legal_declarationsOf_iff :
    Legal [] (declarationsOf lines rules) ↔
      (∀ up line down, lines = up ++ line :: down → LinePermitted up line) ∧
        ∀ r ∈ rules, r.source.toList ∈ itemsOf .states lines ∧
          [r.symbol] ∈ itemsOf .alphabet lines ∧ r.target.toList ∈ itemsOf .states lines := by
  rw [declarationsOf, History.legal_append, List.nil_append, legal_rules_iff]
  refine and_congr_left fun _ => ?_
  show Legal (List.flatMap headerDeclarations []) _ ↔ _
  rw [legal_headers_iff]
  simp only [List.nil_append]

end Acceptor.Definition
