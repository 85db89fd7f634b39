/-
  Reading back what was written.

  The definition of a clean automaton defines that automaton again.

  1. **The lines** — the lines of the text are those that were written, whether each has a newline
     behind it or the newlines stand between them.

  2. **A definition** — the header lists what the automaton has, each name above its use, so the
     text can be read (`isDefinition_written`).

  3. **The same automaton** — the text describes an automaton (`Describes`), and each part of the
     description is that part of the automaton that was written.  A source and a symbol have one
     transition line at most, so the last of them is the only one.

  Main result: `parse_written`.
-/
import Acceptor.Proofs.Automaton.Alike
import Acceptor.Proofs.Definition.Language
import Acceptor.Proofs.Definition.Meaning
import Acceptor.Proofs.Definition.Writing
import Acceptor.Proofs.Text.Lines

namespace Acceptor.Definition

variable {d d' : Automaton} {text : String}

/-! ## The lines -/

section Lines

variable (hm : d.toTransitionSystem.WellFormed) (hclean : Clean d)
  (hstart : d.start < d.stateCount)

include hm hclean hstart

/-- With a newline behind each line. -/
theorem lines_written : Text.lines d.written.toList = d.writtenLines.map String.toList := by
  rw [Automaton.written]
  exact Text.lines_join fun line hline =>
    newline_not_mem_of_mem_written hm hclean hstart (List.mem_map_of_mem hline)

/-- With newlines between the lines. -/
theorem lines_intercalate_written :
    Text.lines ("\n".intercalate d.writtenLines).toList = d.writtenLines.map String.toList := by
  have hlast : (d.writtenLines.map String.toList).getLast? ≠ some [] := by
    intro hnil
    have hmem := List.mem_of_getLast? hnil
    rw [map_toList_writtenLines, List.mem_append, List.mem_cons] at hmem
    rcases hmem with hheader | hend | hrule
    · obtain ⟨k, -, heq⟩ := List.mem_map.1 hheader
      simp at heq
    · revert hend
      decide
    · obtain ⟨x, -, heq⟩ := List.mem_map.1 hrule
      rw [toList_ruleLine] at heq
      simp at heq
  rw [String.toList_intercalate]
  exact Text.lines_intercalate
    (fun line hline => newline_not_mem_of_mem_written hm hclean hstart hline) hlast

end Lines

/-! ## A definition -/

section Headers

variable (hclean : Clean d) (hstart : d.start < d.stateCount)

include hclean hstart

theorem valuesOf_headersFor (k : Keyword) (ks : List Keyword) :
    valuesOf k (headersFor d ks) =
      (ks.filter (· = k)).map fun k => [',', ' '].intercalate (itemsFor d k) := by
  have hkeyword : (fun line => decide (keywordOf? line = some k)) ∘
      (fun k' => headerText k' ([',', ' '].intercalate (itemsFor d k'))) =
        fun k' => decide (k' = k) := by
    funext k'
    simp [keywordOf?_headerText]
  rw [valuesOf, headersFor, List.filter_map, hkeyword, List.map_map]
  refine List.map_congr_left fun k' _ => ?_
  exact valueOf_headerText (isValue_itemsFor hclean hstart k')

/-- The items of a header are those that were listed. -/
theorem listItems_itemsFor (k : Keyword) :
    Text.listItems ([',', ' '].intercalate (itemsFor d k)) = itemsFor d k :=
  Text.listItems_intercalate fun _ h => (isItem_of_mem_itemsFor hclean hstart h).1

theorem itemsOf_headersFor (k : Keyword) (ks : List Keyword) :
    itemsOf k (headersFor d ks) = (ks.filter (· = k)).flatMap (itemsFor d) := by
  rw [itemsOf, valuesOf_headersFor hclean hstart, List.flatMap_map]
  refine List.flatMap_congr fun k' _ => ?_
  exact listItems_itemsFor hclean hstart k'

theorem itemsOf_written (k : Keyword) :
    itemsOf k (headersFor d writtenKeywords) = itemsFor d k := by
  rw [itemsOf_headersFor hclean hstart]
  cases k <;> simp [writtenKeywords, itemsFor]

theorem mem_itemsOf_headersFor {k : Keyword} {ks : List Keyword} {item : List Char} (hk : k ∈ ks)
    (h : item ∈ itemsFor d k) : item ∈ itemsOf k (headersFor d ks) := by
  rw [itemsOf_headersFor hclean hstart, List.mem_flatMap]
  exact ⟨k, List.mem_filter.2 ⟨hk, decide_eq_true rfl⟩, h⟩

end Headers

/-- A line of the header with the lines above it: these have at least the header of the states. -/
theorem exists_of_headersFor_eq_append {above below : List (List Char)} {line : List Char}
    {k : Keyword} (hk : k ≠ .states) (hline : keywordOf? line = some k)
    (h : headersFor d writtenKeywords = above ++ line :: below) :
    line = headerText k ([',', ' '].intercalate (itemsFor d k)) ∧
      ∃ ks, Keyword.states ∈ ks ∧ above = headersFor d ks := by
  obtain ⟨ks, rest, hks, rfl, hrest⟩ := List.map_eq_append_iff.1 h
  obtain ⟨k', ks', rfl, rfl, -⟩ := List.map_eq_cons_iff.1 hrest
  rw [keywordOf?_headerText] at hline
  cases hline
  refine ⟨rfl, ks, ?_, rfl⟩
  cases ks with
  | nil =>
    cases hks
    exact absurd rfl hk
  | cons first ks =>
    rw [writtenKeywords, List.cons_append, List.cons_eq_cons] at hks
    rw [hks.1]
    exact List.mem_cons_self

section Written

variable (hm : d.toTransitionSystem.WellFormed) (hclean : Clean d)
  (hstart : d.start < d.stateCount)

include hm hclean hstart

variable (hheaders : headerLines text = headersFor d writtenKeywords)
  (hrules : ruleLines text = writtenRules d)

include hheaders hrules

theorem isDefinition_written (halphabet : d.alphabet ≠ []) : IsDefinition text where
  headers line hline := by
    rw [hheaders] at hline
    obtain ⟨k, -, rfl⟩ := List.mem_map.1 hline
    exact ⟨k, keywordOf?_headerText⟩
  symbols token htoken := by
    rw [hheaders, itemsOf_headersFor hclean hstart] at htoken
    obtain ⟨k, hk, hmem⟩ := List.mem_flatMap.1 htoken
    obtain rfl : k = .alphabet := of_decide_eq_true (List.mem_filter.1 hk).2
    obtain ⟨c, -, rfl⟩ := List.mem_map.1 hmem
    rfl
  starts above line below hsplit hline := by
    rw [hheaders] at hsplit
    obtain ⟨rfl, ks, hks, rfl⟩ := exists_of_headersFor_eq_append (by decide) hline hsplit
    rw [valueOf_headerText (isValue_itemsFor hclean hstart _)]
    refine mem_itemsOf_headersFor hclean hstart hks ?_
    show [',', ' '].intercalate [(d.name d.start).toList] ∈ d.names.map String.toList
    rw [List.intercalate_singleton]
    apply List.mem_map_of_mem
    exact TransitionSystem.mem_names_iff.2 ⟨_, TransitionSystem.name?_eq_some_name hstart⟩
  accepts above line below hsplit hline name hname := by
    rw [hheaders] at hsplit
    obtain ⟨rfl, ks, hks, rfl⟩ := exists_of_headersFor_eq_append (by decide) hline hsplit
    rw [valueOf_headerText (isValue_itemsFor hclean hstart _),
      listItems_itemsFor hclean hstart] at hname
    refine mem_itemsOf_headersFor hclean hstart hks ?_
    obtain ⟨n, hn, rfl⟩ := List.mem_map.1 hname
    obtain ⟨s, hs, rfl⟩ := List.mem_map.1 hn
    apply List.mem_map_of_mem
    have hlt := (TransitionSystem.mem_acceptingStates.1 hs).1
    exact TransitionSystem.mem_names_iff.2 ⟨_, TransitionSystem.name?_eq_some_name hlt⟩
  rules line hline := by
    rw [hrules] at hline
    obtain ⟨x, hx, rfl⟩ := List.mem_map.1 hline
    obtain ⟨hs, hc, hnext⟩ := TransitionSystem.mem_transitions.1 hx
    have hstates : ∀ {s}, s < d.stateCount →
        (d.name s).toList ∈ itemsOf .states (headerLines text) := by
      intro s hs
      rw [hheaders]
      refine mem_itemsOf_headersFor hclean hstart (by decide) ?_
      apply List.mem_map_of_mem
      exact TransitionSystem.mem_names_iff.2 ⟨_, TransitionSystem.name?_eq_some_name hs⟩
    refine ⟨ruleOf d x, isWritten_of_mem_transitions hclean hx hm, hstates hs, ?_,
      hstates (hm.next?_declared hnext).2.2⟩
    rw [hheaders]
    exact mem_itemsOf_headersFor hclean hstart (by decide) (List.mem_map_of_mem hc)
  has_state := by
    rw [hheaders]
    have hname := TransitionSystem.mem_names_iff.2
      ⟨_, TransitionSystem.name?_eq_some_name hstart⟩
    exact List.ne_nil_of_mem (mem_itemsOf_headersFor hclean hstart (k := .states) (by decide)
      (List.mem_map_of_mem hname))
  has_symbol := by
    rw [hheaders]
    obtain ⟨c, hc⟩ := List.exists_mem_of_ne_nil _ halphabet
    exact List.ne_nil_of_mem (mem_itemsOf_headersFor hclean hstart (k := .alphabet) (by decide)
      (List.mem_map_of_mem hc))
  has_start := by
    rw [hheaders, valuesOf_headersFor hclean hstart]
    exact List.cons_ne_nil _ _

end Written

/-! ## The same automaton -/

section Rules

variable (hm : d.toTransitionSystem.WellFormed) {s t : Nat} {c : Char}

include hm

/-- A transition has a line. -/
theorem exists_isWritten (hclean : Clean d) (h : d.next? s c = some t) :
    ∃ line ∈ writtenRules d, Rule.IsWritten ⟨d.name s, c, d.name t⟩ line := by
  obtain ⟨hs, hc, -⟩ := hm.next?_declared h
  have hx : ⟨s, c, t⟩ ∈ d.transitions := TransitionSystem.mem_transitions.2 ⟨hs, hc, h⟩
  exact ⟨_, List.mem_map_of_mem hx, isWritten_of_mem_transitions hclean hx hm⟩

/-- A line for a source and a symbol is the line of their transition. -/
theorem exists_next?_of_isWritten (hclean : Clean d) (hs : s < d.stateCount) {target : String}
    {line : List Char} (hline : line ∈ writtenRules d)
    (hwritten : Rule.IsWritten ⟨d.name s, c, target⟩ line) :
    ∃ t, d.next? s c = some t ∧ d.name t = target := by
  obtain ⟨x, hx, rfl⟩ := List.mem_map.1 hline
  have hrule := hwritten.unique (isWritten_of_mem_transitions hclean hx hm)
  rw [ruleOf, Rule.mk.injEq] at hrule
  obtain ⟨hname, rfl, rfl⟩ := hrule
  obtain ⟨hx, -, hnext⟩ := TransitionSystem.mem_transitions.1 hx
  obtain rfl : s = x.source := hm.name_inj hs hx hname
  exact ⟨x.target, hnext, rfl⟩

end Rules

section Alike

variable (hm : d.toTransitionSystem.WellFormed) (hclean : Clean d)
  (hstart : d.start < d.stateCount) (hd' : Describes text d')

include hm hclean hd'

theorem next?_of_describes (hnames : d'.names = d.names) (hrules : ruleLines text = writtenRules d)
    {s : Nat} (hs : s < d.stateCount) (c : Char) : d'.next? s c = d.next? s c := by
  have hname? : ∀ t, d'.name? t = d.name? t := fun t => congrArg (·[t]?) hnames
  have hname : d'.name? s = some (d.name s) := by
    rw [hname?]
    exact TransitionSystem.name?_eq_some_name hs
  cases hnext' : d'.next? s c with
  | none =>
    -- there is no line, so there was no transition
    have hnone := (hd'.next?_none s _ c hname).1 hnext'
    rw [hrules] at hnone
    cases hnext : d.next? s c with
    | none => rfl
    | some t =>
      obtain ⟨line, hline, hwritten⟩ := exists_isWritten hm hclean hnext
      exact absurd hwritten (hnone line hline _)
  | some t =>
    -- the last line for the two is the line of their transition
    obtain ⟨target, htarget, above, line, below, hsplit, hwritten, -⟩ :=
      (hd'.next?_some s _ c t hname).1 hnext'
    have hline : line ∈ writtenRules d := by
      rw [← hrules, hsplit]
      simp
    obtain ⟨u, hu, rfl⟩ := exists_next?_of_isWritten hm hclean hs hline hwritten
    rw [hname?] at htarget
    have hlt := (hm.next?_declared hu).2.2
    rw [hu, hm.name?_inj htarget (TransitionSystem.name?_eq_some_name hlt)]

include hstart

variable (hheaders : headerLines text = headersFor d writtenKeywords)

include hheaders

theorem names_of_describes : d'.names = d.names := by
  rw [hd'.names, hheaders, itemsOf_written hclean hstart]
  show ((d.names.map String.toList).map String.ofList).eraseDups = _
  have hself : (d.names.map String.toList).map String.ofList = d.names := by
    rw [List.map_map]
    simp [Function.comp_def]
  rw [hself, eraseDups_of_nodup hm.names_nodup]

theorem alphabet_of_describes : d'.alphabet = d.alphabet := by
  have hinjective : Function.Injective fun c : Char => [c] :=
    fun _ _ heq => List.singleton_inj.1 heq
  have hsymbols := hd'.alphabet
  rw [hheaders, itemsOf_written hclean hstart] at hsymbols
  change _ = (d.alphabet.map fun c => [c]).eraseDups at hsymbols
  rw [← map_eraseDups hinjective, eraseDups_of_nodup hm.alphabet_nodup] at hsymbols
  exact List.map_injective_iff.2 hinjective hsymbols

theorem start_of_describes : d'.start = d.start := by
  obtain ⟨name, hlast, hname⟩ := hd'.start
  rw [hheaders, valuesOf_headersFor hclean hstart] at hlast
  change some ([',', ' '].intercalate [(d.name d.start).toList]) = some name at hlast
  rw [List.intercalate_singleton] at hlast
  cases hlast
  have hname? : d'.name? d'.start = d.name? d'.start :=
    congrArg (·[d'.start]?) (names_of_describes hm hclean hstart hd' hheaders)
  rw [hname?, String.ofList_toList] at hname
  exact hm.name?_inj hname (TransitionSystem.name?_eq_some_name hstart)

theorem isAccepting_of_describes {s : Nat} (hs : s < d.stateCount) :
    d'.isAccepting s = d.isAccepting s := by
  have hname? : d'.name? s = d.name? s :=
    congrArg (·[s]?) (names_of_describes hm hclean hstart hd' hheaders)
  have hname := TransitionSystem.name?_eq_some_name hs
  rw [Bool.eq_iff_iff, hd'.accepting s _ (hname?.trans hname), hheaders,
    itemsOf_written hclean hstart]
  show _ ∈ (d.acceptingStates.map d.name).map String.toList ↔ _
  rw [List.mem_map_of_injective fun _ _ heq => String.toList_injective heq, List.mem_map]
  constructor
  · rintro ⟨t, ht, heq⟩
    obtain ⟨htlt, htacc⟩ := TransitionSystem.mem_acceptingStates.1 ht
    rw [← hm.name_inj htlt hs heq]
    exact TransitionSystem.isAccepting_iff.2 htacc
  · intro hacc
    exact ⟨s, TransitionSystem.mem_acceptingStates.2 ⟨hs, TransitionSystem.isAccepting_iff.1 hacc⟩,
      rfl⟩

end Alike

/-- What is read from a written definition is the automaton that was written. -/
theorem alike_of_parse (hd : d.IsBuilt) (hclean : Clean d)
    (hheaders : headerLines text = headersFor d writtenKeywords)
    (hrules : ruleLines text = writtenRules d) (hd' : (parse text).value = .ok d') :
    d'.Alike d ∧ d'.alphabet = d.alphabet := by
  obtain ⟨hm, hstart⟩ := hd.wellFormed
  obtain ⟨hm', -⟩ := wellFormed_of_parse hd'
  have hdescribes := describes_of_parse hd'
  have hnames := names_of_describes hm hclean hstart hdescribes hheaders
  have hcount : d'.stateCount = d.stateCount := congrArg List.length hnames
  refine ⟨.of_states hm' hm hnames (start_of_describes hm hclean hstart hdescribes hheaders) ?_ ?_,
    alphabet_of_describes hm hclean hstart hdescribes hheaders⟩
  · intro s hs
    rw [hcount] at hs
    exact isAccepting_of_describes hm hclean hstart hdescribes hheaders hs
  · intro s hs c
    rw [hcount] at hs
    exact next?_of_describes hm hclean hdescribes hnames hrules hs c

/-! ## The main result -/

/-- **Every clean automaton is read back from its definition**, with the last newline and without
    it: the names in their order, the symbols in theirs, the start, the accepting states, and the
    target of each state and symbol. -/
theorem parse_written (hd : d.IsBuilt) (hclean : Clean d) :
    ∃ d', (parse d.written).value = .ok d' ∧
      (parse ("\n".intercalate d.writtenLines)).value = .ok d' ∧
        d'.Alike d ∧ d'.alphabet = d.alphabet := by
  obtain ⟨hm, hstart⟩ := hd.wellFormed
  obtain ⟨hheaders, hrules⟩ := parts_written hm hclean (lines_written hm hclean hstart)
  obtain ⟨hheaders', hrules'⟩ :=
    parts_written hm hclean (lines_intercalate_written hm hclean hstart)
  obtain ⟨d', hd'⟩ := exists_parse_of_isDefinition
    (isDefinition_written hm hclean hstart hheaders hrules hd.alphabet_ne_nil)
  refine ⟨d', hd', ?_, alike_of_parse hd hclean hheaders hrules hd'⟩
  exact (parse_congr (hheaders'.trans hheaders.symm) (hrules'.trans hrules.symm)).2 hd'

/-- An automaton full of marks: arrows and comment signs are symbols, and the names hold blanks and
    halves of arrows. -/
def marked : Automaton :=
  ⟨⟨["go -", "> on:", "a\rb"], ['-', '>', '#', ':'], [1],
    [((1, '#'), 2), ((1, ':'), 0), ((1, '>'), 1), ((0, '-'), 1)]⟩, 0⟩

/-- Its marks are not taken for marks of the format. -/
theorem marked_roundtrip :
    marked.written =
      "states: go -, > on:, a\rb\nalphabet: -, >, #, :\nstart: go -\naccept: > on:\n" ++
        "transitions:\ngo -,-->> on:\n> on:,>->> on:\n> on:,#->a\rb\n> on:,:->go -\n" ∧
    ∃ d', (parse marked.written).value = .ok d' ∧
      (parse ("\n".intercalate marked.writtenLines)).value = .ok d' ∧
        d'.Alike marked ∧ d'.alphabet = marked.alphabet := by
  have hbuilt : marked.IsBuilt := by
    refine ⟨[.state "go -", .state "> on:", .state "a\rb", .symbol "-", .symbol ">", .symbol "#",
      .symbol ":", .start "go -", .accept "> on:", .transition "go -" '-' "> on:",
      .transition "> on:" '>' "> on:", .transition "> on:" ':' "go -",
      .transition "> on:" '#' "a\rb"], ?_⟩
    decide +kernel
  exact ⟨by decide +kernel, parse_written hbuilt (by decide +kernel)⟩

end Acceptor.Definition
