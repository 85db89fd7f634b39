/-
  The automaton that a text describes.

  `Describes text d` reads the automaton off the lines of the text, each part in its own way:

  * states and symbols come in the order in which they are first named, and naming one again adds
    nothing;
  * the start is named by the last `start` line;
  * the accepting states are all those that some `accept` line names;
  * a state goes on a symbol where the last transition line for the two leads, and nowhere if there
    is no such line.

  Main result: `parse_describes`, what is read from a text is what the text describes.  Remarks and
  the line that ends the header have no part in it: texts that differ in nothing else define the
  same automaton.

  The builder works with numbers and the lines with names.  `Builder.Records` speaks of names, and a
  well-formed builder has one number for each, so here the two meet.
-/
import Acceptor.Proofs.Definition.Reading

namespace Acceptor.Definition

/-! ## The description -/

/-- Of the lines that write a rule for a source and a symbol, the last one leads to the target. -/
def LastTarget (lines : List (List Char)) (source : String) (symbol : Char) (target : String) :
    Prop :=
  ∃ above line below, lines = above ++ line :: below ∧
    Rule.IsWritten ⟨source, symbol, target⟩ line ∧
      ∀ later ∈ below, ∀ other, ¬ Rule.IsWritten ⟨source, symbol, other⟩ later

/-- A text describes an automaton. -/
structure Describes (text : String) (d : Automaton) : Prop where
  /-- The states are the names on `states` lines, each where it first occurs. -/
  names : d.names = ((itemsOf .states (headerLines text)).map String.ofList).eraseDups
  /-- The symbols are the tokens on `alphabet` lines, each where it first occurs. -/
  alphabet : d.alphabet.map (fun c => [c]) = (itemsOf .alphabet (headerLines text)).eraseDups
  /-- The start is the state that the last `start` line names. -/
  start : ∃ name, (valuesOf .start (headerLines text)).getLast? = some name ∧
    d.name? d.start = some (String.ofList name)
  /-- A state is accepting exactly when an `accept` line names it. -/
  accepting : ∀ s name, d.name? s = some name →
    (d.isAccepting s = true ↔ name.toList ∈ itemsOf .accept (headerLines text))
  /-- A state goes on a symbol to the target of the last line for the two. -/
  next?_some : ∀ s name c t, d.name? s = some name →
    (d.next? s c = some t ↔
      ∃ target, d.name? t = some target ∧ LastTarget (ruleLines text) name c target)
  /-- A state does not go on a symbol when there is no line for the two. -/
  next?_none : ∀ s name c, d.name? s = some name →
    (d.next? s c = none ↔
      ∀ line ∈ ruleLines text, ∀ target, ¬ Rule.IsWritten ⟨name, c, target⟩ line)

/-! ## The last of several -/

section Last

variable {α β : Type} {f : α → Option β} {xs : List α} {b : β}

/-- What is picked last is picked from an element behind which nothing is picked. -/
theorem getLast?_filterMap_eq_some_iff :
    (xs.filterMap f).getLast? = some b ↔
      ∃ up a down, xs = up ++ a :: down ∧ f a = some b ∧ ∀ x ∈ down, f x = none := by
  -- the last pick is the first one from behind
  rw [List.getLast?_filterMap, List.findSome?_eq_some_iff]
  constructor
  · rintro ⟨down, a, up, hsplit, ha, hdown⟩
    refine ⟨up.reverse, a, down.reverse, ?_, ha, ?_⟩
    · rw [← List.reverse_reverse xs, hsplit]
      simp
    · intro x hx
      exact hdown x (List.mem_reverse.1 hx)
  · rintro ⟨up, a, down, rfl, ha, hdown⟩
    refine ⟨down.reverse, a, up.reverse, by simp, ha, ?_⟩
    intro x hx
    exact hdown x (List.mem_reverse.1 hx)

end Last

/-! ## Lines that write rules -/

variable {text : String} {d : Automaton} {lines : List (List Char)} {rules : List Rule}

variable {p q : String} {c : Char}

/-- The target of the rule that a line writes, if it is a rule for a source and a symbol. -/
def targetOf? (source : String) (symbol : Char) (line : List Char) : Option String :=
  match Rule.ofLine line with
  | .ok r => History.target? source symbol r.declaration
  | .error _ => none

theorem targetOf?_eq_some_iff {line : List Char} :
    targetOf? p c line = some q ↔ Rule.IsWritten ⟨p, c, q⟩ line := by
  rw [← Rule.ofLine_eq_ok_iff, targetOf?]
  cases Rule.ofLine line with
  | error cause => simp
  | ok r =>
    obtain ⟨source, symbol, target⟩ := r
    show (if source = p ∧ symbol = c then some target else none) = some q ↔ _
    simp [and_assoc]

theorem targetOf?_eq_none_iff {line : List Char} :
    targetOf? p c line = none ↔ ∀ q, ¬ Rule.IsWritten ⟨p, c, q⟩ line := by
  rw [Option.eq_none_iff_forall_not_mem]
  exact forall_congr' fun q => not_congr targetOf?_eq_some_iff

/-- The targets that rules declare can be picked from the lines that write them. -/
theorem filterMap_target?_of_isWritten (hrules : List.Forall₂ Rule.IsWritten rules lines)
    (p : String) (c : Char) :
    (rules.map Rule.declaration).filterMap (History.target? p c) =
      lines.filterMap (targetOf? p c) := by
  induction hrules with
  | nil => rfl
  | cons hr hrules ih =>
    have htarget : ∀ {r : Rule} {line : List Char}, r.IsWritten line →
        targetOf? p c line = History.target? p c r.declaration := by
      intro r line hr
      rw [targetOf?, Rule.ofLine_eq_ok_iff.2 hr]
    rw [List.map_cons, List.filterMap_cons, List.filterMap_cons, htarget hr, ih]

/-- The targets that headers and rules declare for a source and a symbol, picked from the lines of
    the rules. -/
theorem filterMap_target?_eq {headers : List (List Char)}
    (hrules : List.Forall₂ Rule.IsWritten rules lines) :
    (declarationsOf headers rules).filterMap (History.target? p c) =
      lines.filterMap (targetOf? p c) := by
  rw [declarationsOf, List.filterMap_append, filterMap_target?_headers, List.nil_append,
    filterMap_target?_of_isWritten hrules]

/-- The target that rules declare last is that of the last line for the source and the symbol. -/
theorem getLast?_target?_iff (hrules : List.Forall₂ Rule.IsWritten rules (ruleLines text)) :
    ((declarationsOf (headerLines text) rules).filterMap (History.target? p c)).getLast? = some q ↔
      LastTarget (ruleLines text) p c q := by
  rw [filterMap_target?_eq hrules, getLast?_filterMap_eq_some_iff]
  simp only [targetOf?_eq_some_iff, targetOf?_eq_none_iff]
  rfl

/-- Rules declare no target exactly when no line is for the source and the symbol. -/
theorem target?_eq_nil_iff (hrules : List.Forall₂ Rule.IsWritten rules (ruleLines text)) :
    (declarationsOf (headerLines text) rules).filterMap (History.target? p c) = [] ↔
      ∀ line ∈ ruleLines text, ∀ q, ¬ Rule.IsWritten ⟨p, c, q⟩ line := by
  rw [filterMap_target?_eq hrules, List.filterMap_eq_nil_iff]
  simp only [targetOf?_eq_none_iff]

/-! ## What was declared -/

/-- What is read from a text was built from what its lines declare: the builder holds that and
    nothing else, and every token was a symbol. -/
theorem records_of_parse (h : (parse text).value = .ok d) :
    ∃ (rules : List Rule) (b : Builder), List.Forall₂ Rule.IsWritten rules (ruleLines text) ∧
      b.Records (declarationsOf (headerLines text) rules) ∧ b.WellFormed ∧ b.build = .ok d ∧
        ∀ token ∈ itemsOf .alphabet (headerLines text), token.length = 1 := by
  obtain ⟨-, rules, answers, b, hrules, hxs, hd⟩ := parse_eq_ok_iff.1 h
  obtain ⟨hrecords, hb⟩ := Builder.records_of_declareAll hxs
  have hlegal := Builder.exists_declareAll_iff.1 ⟨answers, b, hxs⟩
  have hlines := (legal_declarationsOf_iff.1 hlegal).1
  have htokens : ∀ token ∈ itemsOf .alphabet (headerLines text), token.length = 1 :=
    forall_mem_itemsOf_iff.2 fun up line down hsplit => (hlines up line down hsplit).symbols
  exact ⟨rules, b, hrules, hrecords, hb, hd, htokens⟩

/-- What is read is well formed, and its start is one of its states. -/
theorem wellFormed_of_parse (h : (parse text).value = .ok d) :
    d.toTransitionSystem.WellFormed ∧ d.start < d.stateCount := by
  obtain ⟨rules, b, -, -, hb, hd, -⟩ := records_of_parse h
  exact hb.build hd

/-- When every token is one character, the symbols that lines declare are the tokens. -/
theorem map_symbols_eq (h : ∀ token ∈ itemsOf .alphabet lines, token.length = 1) :
    ((declarationsOf lines rules).filterMap History.symbol?).map (fun c => [c]) =
      itemsOf .alphabet lines := by
  rw [filterMap_symbol?_declarationsOf]
  generalize itemsOf .alphabet lines = tokens at h
  induction tokens with
  | nil => rfl
  | cons token tokens ih =>
    rw [List.forall_mem_cons] at h
    obtain ⟨c, rfl⟩ := List.length_eq_one_iff.1 h.1
    have hc : symbolOf (String.ofList [c]) = .ok c := symbolOf_eq_ok_iff.2 String.toList_ofList
    rw [List.filterMap_cons, hc]
    show [c] :: _ = _
    rw [ih h.2]

/-- What is read from a text is what the text describes. -/
theorem describes_of_parse (h : (parse text).value = .ok d) : Describes text d := by
  obtain ⟨rules, b, hrules, hrecords, hb, hd, htokens⟩ := records_of_parse h
  obtain ⟨-, -, hstart, hsystem⟩ := Builder.build_eq_ok_iff.1 hd
  obtain ⟨m, s₀⟩ := d
  obtain rfl : m = b.toTransitionSystem := hsystem
  refine ⟨?_, ?_, ?_, ?_, ?_, ?_⟩
  · show b.names = _
    rw [hrecords.names_eq, filterMap_name?_declarationsOf]
  · show b.alphabet.map _ = _
    have hinjective : Function.Injective fun c : Char => [c] :=
      fun _ _ heq => List.singleton_inj.1 heq
    rw [hrecords.alphabet_eq, map_eraseDups hinjective, map_symbols_eq htokens]
  · obtain ⟨name, hname, hlast⟩ := hrecords.exists_name_of_start hb hstart
    rw [filterMap_start?_declarationsOf, List.getLast?_map] at hlast
    obtain ⟨value, hvalue, rfl⟩ := Option.map_eq_some_iff.1 hlast
    exact ⟨value, hvalue, hname⟩
  · intro s name hs
    show b.isAccepting s = true ↔ _
    rw [hrecords.isAccepting_iff hb hs, filterMap_accept?_declarationsOf, List.mem_map]
    constructor
    · rintro ⟨item, hitem, rfl⟩
      rwa [String.toList_ofList]
    · intro hitem
      exact ⟨name.toList, hitem, String.ofList_toList⟩
  · intro s name c t hs
    show b.next? s c = some t ↔ ∃ target, b.name? t = some target ∧ _
    simp only [hrecords.next?_eq_some_iff hb hs, getLast?_target?_iff hrules]
  · intro s name c hs
    show b.next? s c = none ↔ _
    rw [hrecords.next?_eq_none_iff hb hs, target?_eq_nil_iff hrules]

/-! ## The main result -/

/-- Texts with the same header lines and the same transition lines define the same automaton. -/
theorem parse_congr {text' : String} (hheader : headerLines text' = headerLines text)
    (hrules : ruleLines text' = ruleLines text) :
    (parse text').value = .ok d ↔ (parse text).value = .ok d := by
  rw [parse_eq_ok_iff, parse_eq_ok_iff, hheader, hrules]

/-- **What is read from a text is what the text describes.**  Lines that are remarks contribute
    nothing, and since the line `transitions:` is neither a header line nor a transition line,
    nothing of it counts either. -/
theorem parse_describes (h : (parse text).value = .ok d) :
    Describes text d ∧
      (∀ text' : String,
        ((Text.lines text'.toList).filter fun line => !Text.isRemark line) =
          ((Text.lines text.toList).filter fun line => !Text.isRemark line) →
        (parse text').value = .ok d) ∧
      ∀ text', headerLines text' = headerLines text → ruleLines text' = ruleLines text →
        (parse text').value = .ok d := by
  refine ⟨describes_of_parse h, ?_, ?_⟩
  · intro text' hlines
    have hcontent : contentLines text' = contentLines text := by
      rw [contentLines_eq, contentLines_eq, hlines]
    have hheader : headerLines text' = headerLines text := congrArg headerPart hcontent
    have hrules : ruleLines text' = ruleLines text := congrArg rulePart hcontent
    exact (parse_congr hheader hrules).2 h
  · intro text' hheader hrules
    exact (parse_congr hheader hrules).2 h

/-- A text that names a state twice, has two `start` lines, and writes one transition anew. -/
def twice : String :=
  "# two states\nstates: A, B, A\nalphabet: 0\nstart: A\nstart: B\naccept: A\n" ++
    "transitions: below\nA,0->A\nA,0->B\n"

/-- The same text with a blank line instead of the comment. -/
def twiceBare : String :=
  "states: A, B, A\nalphabet: 0\nstart: A\nstart: B\naccept: A\n" ++
    "transitions: below\nA,0->A\n\nA,0->B\n"

/-- The first naming, the last `start` line and the last transition hold, with or without the
    comment. -/
theorem twice_describes :
    (parse twice).value = .ok ⟨⟨["A", "B"], ['0'], [0], [((0, '0'), 1), ((0, '0'), 0)]⟩, 1⟩ ∧
      Describes twice ⟨⟨["A", "B"], ['0'], [0], [((0, '0'), 1), ((0, '0'), 0)]⟩, 1⟩ ∧
        (parse twiceBare).value =
          .ok ⟨⟨["A", "B"], ['0'], [0], [((0, '0'), 1), ((0, '0'), 0)]⟩, 1⟩ := by
  have hread : (parse twice).value =
      .ok ⟨⟨["A", "B"], ['0'], [0], [((0, '0'), 1), ((0, '0'), 0)]⟩, 1⟩ := by decide +kernel
  have hmeant := parse_describes hread
  exact ⟨hread, hmeant.1, hmeant.2.1 twiceBare (by decide +kernel)⟩

end Acceptor.Definition
