/-
  The texts that define an automaton.

  `IsDefinition` says of a text, in terms of its lines alone, that it is a definition: each header
  line is a header, each transition line writes a rule, every name and symbol is declared above its
  use, and no part is missing.

  Main result: `parse_isOk_iff`, reading succeeds for exactly these texts.  The invariant that ties
  the builder to the lines read so far is `Builder.Records`, at the declarations of those lines; it
  turns "the builder knows the name" into "some line above declares the name".
-/
import Acceptor.Proofs.Definition.Declared
import Acceptor.Proofs.Definition.Reading

namespace Acceptor.Definition

/-! ## The language -/

/-- A text is a definition. -/
structure IsDefinition (text : String) : Prop where
  /-- Every header line begins with a keyword and a colon. -/
  headers : ∀ line ∈ headerLines text, ∃ k, keywordOf? line = some k
  /-- Every token of an `alphabet` line is one character. -/
  symbols : ∀ token ∈ itemsOf .alphabet (headerLines text), token.length = 1
  /-- The value of a `start` line is named on a `states` line above it. -/
  starts : ∀ above line below, headerLines text = above ++ line :: below →
    keywordOf? line = some .start → valueOf line ∈ itemsOf .states above
  /-- Every name on an `accept` line is named on a `states` line above it. -/
  accepts : ∀ above line below, headerLines text = above ++ line :: below →
    keywordOf? line = some .accept →
      ∀ name ∈ Text.listItems (valueOf line), name ∈ itemsOf .states above
  /-- Every transition line writes a rule, and the header declares its three parts. -/
  rules : ∀ line ∈ ruleLines text, ∃ r : Rule, r.IsWritten line ∧
    r.source.toList ∈ itemsOf .states (headerLines text) ∧
      [r.symbol] ∈ itemsOf .alphabet (headerLines text) ∧
        r.target.toList ∈ itemsOf .states (headerLines text)
  /-- There is a state. -/
  has_state : itemsOf .states (headerLines text) ≠ []
  /-- There is a symbol. -/
  has_symbol : itemsOf .alphabet (headerLines text) ≠ []
  /-- There is a `start` line. -/
  has_start : valuesOf .start (headerLines text) ≠ []

/-! ## The conditions, line by line -/

variable {lines : List (List Char)} {rules : List Rule}

/-- Lines write rules with a property exactly when each of them writes a rule that has it. -/
theorem exists_forall₂_isWritten_iff {P : Rule → Prop} :
    (∃ rules, List.Forall₂ Rule.IsWritten rules lines ∧ ∀ r ∈ rules, P r) ↔
      ∀ line ∈ lines, ∃ r : Rule, r.IsWritten line ∧ P r := by
  induction lines with
  | nil =>
    refine ⟨fun _ => by simp, fun _ => ⟨[], .nil, by simp⟩⟩
  | cons line lines ih =>
    rw [List.forall_mem_cons, ← ih]
    constructor
    · rintro ⟨rules, hwritten, hP⟩
      cases hwritten with
      | cons hr hrules =>
        rw [List.forall_mem_cons] at hP
        exact ⟨⟨_, hr, hP.1⟩, _, hrules, hP.2⟩
    · rintro ⟨⟨r, hr, hPr⟩, rules, hrules, hP⟩
      exact ⟨r :: rules, .cons hr hrules, List.forall_mem_cons.2 ⟨hPr, hP⟩⟩

/-- When every token is one character, some symbol is declared exactly when some token is given. -/
theorem symbols_ne_nil_iff (h : ∀ token ∈ itemsOf .alphabet lines, token.length = 1) :
    (declarationsOf lines rules).filterMap History.symbol? ≠ [] ↔ itemsOf .alphabet lines ≠ [] := by
  rw [filterMap_symbol?_declarationsOf, ← filterMap_symbol?_headers]
  constructor
  · intro hne hnil
    rw [filterMap_symbol?_headers, hnil] at hne
    exact hne rfl
  · intro hne
    obtain ⟨token, htoken⟩ := List.exists_mem_of_ne_nil _ hne
    obtain ⟨c, rfl⟩ := List.length_eq_one_iff.1 (h token htoken)
    exact List.ne_nil_of_mem (mem_symbols_iff.2 htoken)

/-- Reading succeeds exactly when the header lines are headers, the transition lines write rules,
    and all that they declare is legal and complete. -/
theorem exists_parse_iff {text : String} :
    (∃ d, (parse text).value = .ok d) ↔
      (∀ line ∈ headerLines text, ∃ k, keywordOf? line = some k) ∧
        ∃ rules, List.Forall₂ Rule.IsWritten rules (ruleLines text) ∧
          History.Legal [] (declarationsOf (headerLines text) rules) ∧
            (declarationsOf (headerLines text) rules).filterMap History.name? ≠ [] ∧
              (declarationsOf (headerLines text) rules).filterMap History.symbol? ≠ [] ∧
                (declarationsOf (headerLines text) rules).filterMap History.start? ≠ [] := by
  simp only [parse_eq_ok_iff]
  constructor
  · rintro ⟨d, hheaders, rules, answers, b, hrules, hxs, hd⟩
    obtain ⟨hrecords, hb⟩ := Builder.records_of_declareAll hxs
    exact ⟨hheaders, rules, hrules, Builder.exists_declareAll_iff.1 ⟨answers, b, hxs⟩,
      (hrecords.exists_build_iff hb).1 ⟨d, hd⟩⟩
  · rintro ⟨hheaders, rules, hrules, hlegal, hcomplete⟩
    obtain ⟨answers, b, hxs⟩ := Builder.exists_declareAll_iff.2 hlegal
    obtain ⟨hrecords, hb⟩ := Builder.records_of_declareAll hxs
    obtain ⟨d, hd⟩ := (hrecords.exists_build_iff hb).2 hcomplete
    exact ⟨d, hheaders, rules, answers, b, hrules, hxs, hd⟩

/-- A text that is a definition can be read. -/
theorem exists_parse_of_isDefinition {text : String} (h : IsDefinition text) :
    ∃ d, (parse text).value = .ok d := by
  obtain ⟨rules, hrules, hrefs⟩ := exists_forall₂_isWritten_iff.2 h.rules
  have hlines : ∀ up line down, headerLines text = up ++ line :: down →
      LinePermitted up line := fun up line down hsplit =>
    { symbols := forall_mem_itemsOf_iff.1 h.symbols up line down hsplit
      start := h.starts up line down hsplit
      accepts := h.accepts up line down hsplit }
  refine exists_parse_iff.2
    ⟨h.headers, rules, hrules, legal_declarationsOf_iff.2 ⟨hlines, hrefs⟩, ?_, ?_, ?_⟩
  · rw [filterMap_name?_declarationsOf, ne_eq, List.map_eq_nil_iff]
    exact h.has_state
  · exact (symbols_ne_nil_iff h.symbols).2 h.has_symbol
  · rw [filterMap_start?_declarationsOf, ne_eq, List.map_eq_nil_iff]
    exact h.has_start

/-! ## The main result -/

/-- **Exactly the definitions can be read.** -/
theorem parse_isOk_iff (text : String) :
    (∃ d, (parse text).value = .ok d) ↔ IsDefinition text := by
  rw [exists_parse_iff]
  constructor
  · rintro ⟨hheaders, rules, hrules, hlegal, hnames, hsymbols, hstarts⟩
    obtain ⟨hlines, hrefs⟩ := legal_declarationsOf_iff.1 hlegal
    have htokens : ∀ token ∈ itemsOf .alphabet (headerLines text), token.length = 1 :=
      forall_mem_itemsOf_iff.2 fun up line down h => (hlines up line down h).symbols
    rw [filterMap_name?_declarationsOf, ne_eq, List.map_eq_nil_iff] at hnames
    rw [filterMap_start?_declarationsOf, ne_eq, List.map_eq_nil_iff] at hstarts
    exact
      { headers := hheaders
        symbols := htokens
        starts := fun up line down h => (hlines up line down h).start
        accepts := fun up line down h => (hlines up line down h).accepts
        rules := exists_forall₂_isWritten_iff.1 ⟨rules, hrules, hrefs⟩
        has_state := hnames
        has_symbol := (symbols_ne_nil_iff htokens).1 hsymbols
        has_start := hstarts }
  · intro h
    exact exists_parse_iff.1 (exists_parse_of_isDefinition h)

end Acceptor.Definition
