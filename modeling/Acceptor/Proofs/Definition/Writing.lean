/-
  Writing a definition.

  An automaton whose names and symbols the format can hold is written as a definition, and here the
  parts of what was written are found again.  What they define is the matter of the next file.

  1. **Clean automata** — `Clean d`: names and symbols that the format can hold.  A name has no
     blanks at its ends and holds no comma, newline or arrow; nor does it begin like a comment or
     with a colon, which is skipped in front of a value.

  2. **The text** — `d.written`: four headers, the line `transitions:`, and a line for each
     transition.

  3. **Layout** — a header is found again with its keyword and its value (`keywordOf?_headerText`,
     `valueOf_headerText`), and the line of a transition writes its rule (`isWritten_ruleLine`,
     which asks of the names no more than it needs).

  Main result: `parts_written`, the header lines and the rule lines of the text are those that were
  written.  Symbols may well be `-`, `>`, `#` or, unless they come first, `:`, and names may hold
  blanks and single marks: nothing is cut there.
-/
import Acceptor.Proofs.Automaton.Lookup
import Acceptor.Proofs.Definition.Layout
import Mathlib.Data.List.Infix
import Mathlib.Tactic.MkIffOfInductiveProp

namespace Acceptor

/-! ## Clean automata -/

namespace Definition

/-- A name that stands for itself wherever a definition names a state. -/
@[mk_iff]
structure CleanName (name : List Char) : Prop where
  trimmed : Text.IsTrimmed name
  ne_nil : name ≠ []
  no_comma : ',' ∉ name
  no_newline : '\n' ∉ name
  no_arrow : ¬ ['-', '>'] <:+: name
  begins : name.head? ≠ some '#' ∧ name.head? ≠ some ':'

/-- The names and symbols of an automaton can be written. -/
@[mk_iff]
structure Clean (d : Automaton) : Prop where
  names : ∀ name ∈ d.names, CleanName name.toList
  symbols : ∀ c ∈ d.alphabet, Text.isBlank c = false ∧ c ≠ ','
  first_symbol : d.alphabet.head? ≠ some ':'

instance (name : List Char) : Decidable (CleanName name) :=
  decidable_of_iff _ (cleanName_iff name).symm

instance (d : Automaton) : Decidable (Clean d) :=
  have : Decidable (∀ c ∈ d.alphabet, Text.isBlank c = false ∧ c ≠ ',') :=
    List.decidableBAll (p := fun c => Text.isBlank c = false ∧ c ≠ ',') d.alphabet
  decidable_of_iff _ (clean_iff d).symm

end Definition

open Definition

/-! ## The text -/

namespace Automaton

/-- The line of a transition. -/
def ruleLine (d : Automaton) (x : Transition) : String :=
  d.name x.source ++ "," ++ String.singleton x.symbol ++ "->" ++ d.name x.target

/-- The lines of the definition of an automaton. -/
def writtenLines (d : Automaton) : List String :=
  ["states: " ++ ", ".intercalate d.names,
    "alphabet: " ++ ", ".intercalate (d.alphabet.map String.singleton),
    "start: " ++ d.name d.start,
    "accept: " ++ ", ".intercalate (d.acceptingStates.map d.name),
    "transitions:"] ++
    d.transitions.map d.ruleLine

/-- The definition of an automaton. -/
def written (d : Automaton) : String := String.join (d.writtenLines.map fun line => line ++ "\n")

end Automaton

/-! ## Layout -/

namespace Definition

/-! Headers. -/

/-- A value that is not changed by reading it behind a keyword. -/
structure IsValue (value : List Char) : Prop where
  trimmed : Text.IsTrimmed value
  no_newline : '\n' ∉ value
  no_colon : value.head? ≠ some ':'

/-- A header, without blanks at its ends. -/
def headerText (k : Keyword) (value : List Char) : List Char :=
  Text.trim (k.word.toList ++ ':' :: ' ' :: value)

section Header

variable {k : Keyword} {value : List Char}

/-- The blanks at the end of a header are those of its value. -/
theorem headerText_eq (k : Keyword) (value : List Char) :
    headerText k value = k.word.toList ++ ':' :: Text.trimEnd (' ' :: value) := by
  have hall : (k.word.toList ++ [':']).all (fun c => !Text.isBlank c) = true := by
    cases k <;> decide
  have hword : ∀ c ∈ k.word.toList ++ [':'], Text.isBlank c = false := by
    simpa using List.all_eq_true.1 hall
  have hfirst : ∀ c, (k.word.toList ++ ':' :: ' ' :: value).head? = some c →
      Text.isBlank c = false := by
    intro c hc
    cases k <;> cases hc <;> decide
  rw [headerText, Text.trim, Text.trimStart_eq_self hfirst, List.append_cons,
    Text.trimEnd_append_of_not_blank hword, List.append_assoc, List.singleton_append]

theorem keywordOf?_headerText : keywordOf? (headerText k value) = some k := by
  rw [headerText_eq, keywordOf?_of_colon (colon_not_mem_word k)]
  cases k <;> decide

theorem valueOf_headerText (h : IsValue value) : valueOf (headerText k value) = value := by
  rw [headerText_eq, valueOf_of_colon (colon_not_mem_word k)]
  cases value with
  | nil => decide
  | cons c rest =>
    have hfiller : isFiller c = false := by
      have hblank : Text.isBlank c = false := h.trimmed.first c rfl
      have hcolon : (c == ':') = false := by
        rw [beq_eq_false_iff_ne]
        rintro rfl
        exact h.no_colon rfl
      rw [isFiller, hblank, hcolon]
      rfl
    have hend : Text.trimEnd (' ' :: c :: rest) = ' ' :: c :: rest :=
      Text.trimEnd_eq_self (by rw [List.getLast?_cons_cons]; exact h.trimmed.last)
    have hfill : (' ' :: c :: rest).dropWhile isFiller = c :: rest := by
      rw [List.dropWhile_cons_of_pos (by decide), List.dropWhile_cons_of_neg (by simp [hfiller])]
    rw [hend, hfill, Text.trimEnd_eq_self h.trimmed.last]

theorem headerText_significant :
    headerText k value ≠ [] ∧ (headerText k value).head? ≠ some '#' := by
  rw [headerText_eq]
  cases k <;> exact ⟨List.cons_ne_nil _ _, by simp [Keyword.word]⟩

end Header

/-! Rules. -/

/-- A comma and one character behind a text do not make an arrow with it. -/
theorem not_arrow_infix_append_comma {s : List Char} (h : ¬ ['-', '>'] <:+: s) (c : Char) :
    ¬ ['-', '>'] <:+: s ++ [',', c] := by
  rw [Text.arrow_infix_append_cons_iff (by decide), not_or]
  refine ⟨h, ?_⟩
  simp [List.infix_cons_iff, List.cons_prefix_cons]

section Rules

variable {d : Automaton} {x : Transition}

theorem toList_ruleLine (d : Automaton) (x : Transition) :
    (d.ruleLine x).toList =
      (d.name x.source).toList ++ ',' :: x.symbol :: '-' :: '>' :: (d.name x.target).toList := by
  simp [Automaton.ruleLine]

/-- What is written of a transition. -/
def ruleOf (d : Automaton) (x : Transition) : Rule :=
  ⟨d.name x.source, x.symbol, d.name x.target⟩

/-- The line of a transition writes its rule: no mark is found in the name of the source. -/
theorem isWritten_ruleLine (hsource : Text.IsItem (d.name x.source).toList)
    (harrow : ¬ ['-', '>'] <:+: (d.name x.source).toList) (hsymbol : Text.isBlank x.symbol = false)
    (htarget : Text.IsTrimmed (d.name x.target).toList) :
    (ruleOf d x).IsWritten (d.ruleLine x).toList := by
  refine ⟨(d.name x.source).toList, [x.symbol], (d.name x.target).toList, ?_, hsource.no_comma,
    not_arrow_infix_append_comma harrow x.symbol, Text.trim_eq_self hsource.trimmed,
    Text.trim_eq_self (Text.isTrimmed_singleton hsymbol), Text.trim_eq_self htarget⟩
  rw [toList_ruleLine]
  simp

/-- The line of a transition begins like the name of the source. -/
theorem head?_ruleLine (hsource : (d.name x.source).toList ≠ []) :
    (d.ruleLine x).toList.head? = (d.name x.source).toList.head? := by
  obtain ⟨a, rest, ha⟩ := List.exists_cons_of_ne_nil hsource
  rw [toList_ruleLine, ha]
  rfl

/-- It has no blanks at its ends, for these are ends of names. -/
theorem isTrimmed_ruleLine (hsource : Text.IsItem (d.name x.source).toList)
    (htarget : Text.IsItem (d.name x.target).toList) : Text.IsTrimmed (d.ruleLine x).toList where
  first := by
    rw [head?_ruleLine hsource.ne_nil]
    exact hsource.trimmed.first
  last := by
    have hlast : (d.ruleLine x).toList.getLast? = (d.name x.target).toList.getLast? := by
      obtain ⟨a, ha⟩ : ∃ a, (d.name x.target).toList.getLast? = some a :=
        ⟨_, List.getLast?_eq_some_getLast htarget.ne_nil⟩
      rw [toList_ruleLine, List.getLast?_append]
      simp [List.getLast?_cons, ha]
    rw [hlast]
    exact htarget.trimmed.last

end Rules

/-- A line that stays as it is when it is trimmed, and is no comment. -/
structure IsEntry (line : List Char) : Prop where
  trimmed : Text.IsTrimmed line
  no_comment : line.head? ≠ some '#'
  no_newline : '\n' ∉ line

/-! The whole text. -/

/-- What a written definition lists under a keyword. -/
def itemsFor (d : Automaton) : Keyword → List (List Char)
  | .states => d.names.map String.toList
  | .alphabet => d.alphabet.map fun c => [c]
  | .start => [(d.name d.start).toList]
  | .accept => (d.acceptingStates.map d.name).map String.toList
  | .transitions => []

/-- The headers of some keywords. -/
def headersFor (d : Automaton) (ks : List Keyword) : List (List Char) :=
  ks.map fun k => headerText k ([',', ' '].intercalate (itemsFor d k))

/-- The keywords of a written definition, in their order. -/
def writtenKeywords : List Keyword := [.states, .alphabet, .start, .accept]

/-- The rules of a written definition. -/
def writtenRules (d : Automaton) : List (List Char) :=
  d.transitions.map fun x => (d.ruleLine x).toList

section Written

variable {d : Automaton} {text : String}

theorem CleanName.isItem {name : List Char} (h : CleanName name) : Text.IsItem name :=
  ⟨h.trimmed, h.ne_nil, h.no_comma⟩

theorem Clean.name (hclean : Clean d) {s : Nat} (hs : s < d.stateCount) :
    CleanName (d.name s).toList := by
  apply hclean.names
  exact TransitionSystem.mem_names_iff.2 ⟨s, TransitionSystem.name?_eq_some_name hs⟩

section Clean

variable (hclean : Clean d)

include hclean

/-- Under every keyword but `alphabet`, the items are clean names. -/
theorem cleanName_of_mem_itemsFor (hstart : d.start < d.stateCount) {k : Keyword}
    (hk : k ≠ .alphabet) {item : List Char} (h : item ∈ itemsFor d k) : CleanName item := by
  cases k with
  | states =>
    obtain ⟨n, hn, rfl⟩ := List.mem_map.1 h
    exact hclean.names n hn
  | alphabet => exact absurd rfl hk
  | start =>
    rw [List.mem_singleton.1 h]
    exact hclean.name hstart
  | accept =>
    obtain ⟨n, hn, rfl⟩ := List.mem_map.1 h
    obtain ⟨s, hs, rfl⟩ := List.mem_map.1 hn
    exact hclean.name (TransitionSystem.mem_acceptingStates.1 hs).1
  | transitions => cases h

/-- Everything that is listed can stand as an item. -/
theorem isItem_of_mem_itemsFor (hstart : d.start < d.stateCount) {k : Keyword} {item : List Char}
    (h : item ∈ itemsFor d k) : Text.IsItem item ∧ '\n' ∉ item := by
  by_cases hk : k = .alphabet
  · subst hk
    obtain ⟨c, hc, rfl⟩ := List.mem_map.1 h
    obtain ⟨hblank, hcomma⟩ := hclean.symbols c hc
    have hnewline : '\n' ≠ c := by
      rintro rfl
      cases hblank
    exact ⟨⟨Text.isTrimmed_singleton hblank, by simp, by simpa [eq_comm] using hcomma⟩,
      by simpa using hnewline⟩
  · have hname := cleanName_of_mem_itemsFor hclean hstart hk h
    exact ⟨hname.isItem, hname.no_newline⟩

/-- What is listed first does not begin with a colon. -/
theorem head?_itemsFor_ne_colon (hstart : d.start < d.stateCount) {k : Keyword} {item : List Char}
    (h : (itemsFor d k).head? = some item) : item.head? ≠ some ':' := by
  by_cases hk : k = .alphabet
  · subst hk
    intro hcolon
    change (d.alphabet.map fun c => [c]).head? = some item at h
    rw [List.head?_map] at h
    obtain ⟨c, hc, rfl⟩ := Option.map_eq_some_iff.1 h
    cases hcolon
    exact hclean.first_symbol hc
  · exact (cleanName_of_mem_itemsFor hclean hstart hk (List.mem_of_head? h)).begins.2

/-- So what is written behind a keyword is a value. -/
theorem isValue_itemsFor (hstart : d.start < d.stateCount) (k : Keyword) :
    IsValue ([',', ' '].intercalate (itemsFor d k)) where
  trimmed := Text.isTrimmed_intercalate fun _ h => (isItem_of_mem_itemsFor hclean hstart h).1
  no_newline := Text.not_mem_intercalate (by decide) fun _ h =>
    (isItem_of_mem_itemsFor hclean hstart h).2
  no_colon := by
    cases hitems : itemsFor d k with
    | nil => simp
    | cons item items =>
      have hmem : item ∈ itemsFor d k := by
        rw [hitems]
        exact List.mem_cons_self
      rw [Text.head?_intercalate (isItem_of_mem_itemsFor hclean hstart hmem).1.ne_nil]
      exact head?_itemsFor_ne_colon hclean hstart (by rw [hitems]; rfl)

/-- The parts of a transition can be written. -/
theorem clean_of_mem_transitions {x : Transition} (hx : x ∈ d.transitions)
    (hm : d.toTransitionSystem.WellFormed) :
    CleanName (d.name x.source).toList ∧ Text.isBlank x.symbol = false ∧
      CleanName (d.name x.target).toList := by
  obtain ⟨hs, hc, hnext⟩ := TransitionSystem.mem_transitions.1 hx
  exact ⟨hclean.name hs, (hclean.symbols _ hc).1, hclean.name (hm.next?_declared hnext).2.2⟩

/-- So the line of a transition writes its rule. -/
theorem isWritten_of_mem_transitions {x : Transition} (hx : x ∈ d.transitions)
    (hm : d.toTransitionSystem.WellFormed) : (ruleOf d x).IsWritten (d.ruleLine x).toList := by
  obtain ⟨hsource, hblank, htarget⟩ := clean_of_mem_transitions hclean hx hm
  exact isWritten_ruleLine hsource.isItem hsource.no_arrow hblank htarget.trimmed

/-- The line of a transition stays as it is when it is trimmed, and is no remark. -/
theorem isEntry_ruleLine {x : Transition} (hx : x ∈ d.transitions)
    (hm : d.toTransitionSystem.WellFormed) : IsEntry (d.ruleLine x).toList := by
  obtain ⟨hsource, hblank, htarget⟩ := clean_of_mem_transitions hclean hx hm
  refine ⟨isTrimmed_ruleLine hsource.isItem htarget.isItem, ?_, ?_⟩
  · rw [head?_ruleLine hsource.ne_nil]
    exact hsource.begins.1
  · rw [toList_ruleLine]
    have hsymbol : '\n' ≠ x.symbol := by
      intro heq
      rw [← heq] at hblank
      cases hblank
    simp [hsource.no_newline, htarget.no_newline, hsymbol]

end Clean

theorem map_toList_writtenLines (d : Automaton) :
    d.writtenLines.map String.toList =
      (writtenKeywords.map fun k =>
        k.word.toList ++ ':' :: ' ' :: [',', ' '].intercalate (itemsFor d k)) ++
          "transitions:".toList :: writtenRules d := by
  simp [Automaton.writtenLines, writtenKeywords, writtenRules, itemsFor, Keyword.word,
    String.toList_append, String.toList_intercalate, Function.comp_def]

section Text

variable (hm : d.toTransitionSystem.WellFormed) (hclean : Clean d)

include hm hclean

theorem newline_not_mem_of_mem_written (hstart : d.start < d.stateCount) {line : List Char}
    (h : line ∈ d.writtenLines.map String.toList) : '\n' ∉ line := by
  rw [map_toList_writtenLines, List.mem_append, List.mem_cons] at h
  rcases h with hheader | rfl | hrule
  · obtain ⟨k, -, rfl⟩ := List.mem_map.1 hheader
    have hword : '\n' ∉ k.word.toList := by cases k <;> decide
    have hvalue := (isValue_itemsFor hclean hstart k).no_newline
    simp [hword, hvalue]
  · decide
  · obtain ⟨x, hx, rfl⟩ := List.mem_map.1 hrule
    exact (isEntry_ruleLine hclean hx hm).no_newline

/-- The lines of a written definition are all significant. -/
theorem contentLines_written (hlines : Text.lines text.toList = d.writtenLines.map String.toList) :
    contentLines text =
      headersFor d writtenKeywords ++ "transitions:".toList :: writtenRules d := by
  have htrim : (d.writtenLines.map String.toList).map Text.trim =
      headersFor d writtenKeywords ++ "transitions:".toList :: writtenRules d := by
    have hend : Text.trim "transitions:".toList = "transitions:".toList := by decide
    have hrules : (writtenRules d).map Text.trim = writtenRules d := by
      have hself : ∀ line ∈ writtenRules d, Text.trim line = line := by
        intro line hline
        obtain ⟨x, hx, rfl⟩ := List.mem_map.1 hline
        exact Text.trim_eq_self (isEntry_ruleLine hclean hx hm).trimmed
      rw [List.map_congr_left hself, List.map_id']
    rw [map_toList_writtenLines, List.map_append, List.map_map]
    show _ ++ Text.trim _ :: (writtenRules d).map Text.trim = _
    rw [hend, hrules]
    rfl
  rw [contentLines, hlines, htrim, List.filter_eq_self]
  intro line hline
  apply decide_eq_true
  rw [List.mem_append, List.mem_cons] at hline
  rcases hline with hheader | rfl | hrule
  · obtain ⟨k, -, rfl⟩ := List.mem_map.1 hheader
    exact headerText_significant
  · decide
  · obtain ⟨x, hx, rfl⟩ := List.mem_map.1 hrule
    refine ⟨?_, (isEntry_ruleLine hclean hx hm).no_comment⟩
    rw [toList_ruleLine]
    simp

/-- **No mark is found where none was written.**  The header lines are the headers, and the rule
    lines are the rules. -/
theorem parts_written (hlines : Text.lines text.toList = d.writtenLines.map String.toList) :
    headerLines text = headersFor d writtenKeywords ∧ ruleLines text = writtenRules d := by
  have hend : keywordOf? "transitions:".toList = some .transitions := by decide
  have hne : ∀ line ∈ headersFor d writtenKeywords, keywordOf? line ≠ some .transitions := by
    intro line hline
    obtain ⟨k, hk, rfl⟩ := List.mem_map.1 hline
    rw [keywordOf?_headerText]
    rintro ⟨⟩
    exact absurd hk (by decide)
  rw [headerLines, ruleLines, contentLines_written hm hclean hlines]
  constructor
  · rw [headerPart_append_of_ne hne, headerPart_cons_of_eq hend, List.append_nil]
  · rw [rulePart_append_of_ne hne, rulePart_cons_of_eq hend]

end Text

end Written

end Definition

end Acceptor
