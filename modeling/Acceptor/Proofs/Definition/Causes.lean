/-
  The cause of a bad line.

  The line that fails is known to be the first bad one.  What is wrong with it can be told from the
  line, once it is known what the lines above it declare, and a line with several faults is blamed
  for one of them only.

  1. **The first refusal** — of a list of items that are declared one after the other, the first one
     that is not permitted fails (`exists_find?_of_declareAll`).

  2. **Header lines** — `HeaderFault`: a line that is no header is blamed for that, and any other
     for its first bad item.  Lines of states, and the one that ends the header, cannot fail.

  3. **Transition lines** — `RuleFault`: the arrow is missed first, then the comma, then the symbol;
     only a line that writes a transition is blamed for what is not declared.

  4. **Bad lines** — `ExactCause text line cause`.  Main result: `exactCause_of_parse`.
-/
import Acceptor.Proofs.Definition.Fault
import Acceptor.Proofs.Definition.Order

namespace Acceptor.Definition

open History (Permits)

variable {cause : Cause} {b : Builder} {line : List Char} {above headers : List (List Char)}
  {rules : List Rule}

/-! ## The first refusal -/

/-- Of items that do not let each other in, the first one that is not permitted fails. -/
theorem exists_find?_of_declareAll {α : Type} {f : α → Declaration} {q : α → Prop}
    [DecidablePred q] {items : List α} {xs : List Declaration} (h : b.Records xs)
    (hb : b.WellFormed)
    (hq : ∀ zs ⊆ items.map f, ∀ item ∈ items, Permits (xs ++ zs) (f item) ↔ q item)
    (hfail : b.declareAll (items.map f) = .error cause) :
    ∃ item, items.find? (fun item => ¬ q item) = some item ∧ (f item).refusal? = some cause := by
  induction items generalizing b xs with
  | nil => cases hfail
  | cons item items ih =>
    have hfirst : Permits xs (f item) ↔ q item := by
      rw [← List.append_nil xs]
      exact hq [] (List.nil_subset _) item List.mem_cons_self
    rw [List.map_cons] at hfail
    rcases h.declare hb (f item) with ⟨answer, b', hok, h', hpermits⟩ | ⟨⟨cause', hrefused⟩, hnot⟩
    · -- the first item is taken, and the others are declared behind it
      rw [Builder.declareAll_cons_of_ok hok] at hfail
      have hrest : ∀ zs ⊆ items.map f, ∀ i ∈ items, Permits (xs ++ [f item] ++ zs) (f i) ↔ q i := by
        intro zs hzs i hi
        rw [List.append_assoc]
        exact hq _ (List.cons_subset_cons _ hzs) i (List.mem_cons_of_mem item hi)
      rw [List.find?_cons_of_neg (by simpa using hfirst.1 hpermits)]
      exact ih h' (hb.declare hok) hrest (eq_error_of_map hfail)
    · rw [Builder.declareAll_cons_of_error hrefused] at hfail
      cases hfail
      have hbad : ¬ q item := fun hgood => hnot (hfirst.2 hgood)
      exact ⟨item, List.find?_cons_of_pos (by simpa using hbad),
        Builder.refusal?_of_declare hrefused⟩

/-! ## Header lines -/

/-- The cause with which a line of the header fails, below lines of the header. -/
structure HeaderFault (above : List (List Char)) (line : List Char) (cause : Cause) : Prop where
  /-- It is no header. -/
  unrecognized : cause = .unrecognizedLine ↔ keywordOf? line = none
  /-- The first symbol on it that is not one character is to blame. -/
  alphabet : keywordOf? line = some .alphabet →
    ∃ token, (Text.listItems (valueOf line)).find? (fun token => ¬ token.length = 1) = some token ∧
      cause = .symbolLength (String.ofList token)
  /-- The start is all of the value, commas included; it may be empty. -/
  start : keywordOf? line = some .start →
    valueOf line ∉ itemsOf .states above ∧ cause = .unknownStart (String.ofList (valueOf line))
  /-- The first state on it that is not declared above is to blame. -/
  accept : keywordOf? line = some .accept →
    ∃ name, (Text.listItems (valueOf line)).find? (fun name => ¬ name ∈ itemsOf .states above) =
        some name ∧
      cause = .unknownAccept (String.ofList name)
  /-- It does not declare states, and it does not end the header. -/
  keyword : keywordOf? line ≠ some .states ∧ keywordOf? line ≠ some .transitions

/-- Of states that are used one after the other, the first that is not declared above fails. -/
theorem exists_find?_of_names {f : List Char → Declaration} {items : List (List Char)}
    (hsilent : ∀ name, History.name? (f name) = none ∧ History.symbol? (f name) = none)
    (hf : ∀ xs name, Permits xs (f name) ↔ String.ofList name ∈ xs.filterMap History.name?)
    (h : b.Records (above.flatMap headerDeclarations)) (hb : b.WellFormed)
    (hfail : b.declareAll (items.map f) = .error cause) :
    ∃ name, items.find? (fun name => ¬ name ∈ itemsOf .states above) = some name ∧
      (f name).refusal? = some cause := by
  apply exists_find?_of_declareAll h hb ?_ hfail
  intro zs hzs name _
  rw [History.permits_append_of_forall_silent, hf]
  · exact ofList_mem_names_iff
  · intro z hz
    obtain ⟨name, -, rfl⟩ := List.mem_map.1 (hzs hz)
    exact hsilent name

/-- A header fails for the first of its items that is refused. -/
theorem headerFault_of_declareAll {k : Keyword} (hk : keywordOf? line = some k)
    (hend : k ≠ .transitions) (h : b.Records (above.flatMap headerDeclarations))
    (hb : b.WellFormed) (hfail : b.declareAll (headerDeclarations line) = .error cause) :
    HeaderFault above line cause := by
  rw [headerDeclarations, hk] at hfail
  cases k with
  | transitions => exact absurd rfl hend
  | states =>
    -- any state is permitted, so that none is refused
    change b.declareAll ((Text.listItems (valueOf line)).map fun item =>
      .state (String.ofList item)) = _ at hfail
    have hpermits : ∀ zs, ∀ item : List Char,
        Permits (above.flatMap headerDeclarations ++ zs) (.state (String.ofList item)) ↔ True :=
      fun _ _ => Iff.rfl
    obtain ⟨item, -, hrefusal⟩ :=
      exists_find?_of_declareAll h hb (fun zs _ item _ => hpermits zs item) hfail
    cases hrefusal
  | alphabet =>
    change b.declareAll ((Text.listItems (valueOf line)).map fun item =>
      .symbol (String.ofList item)) = _ at hfail
    obtain ⟨token, hfind, hrefusal⟩ := exists_find?_of_declareAll h hb
      (fun _ _ _ _ => permits_symbol_iff) hfail
    cases hrefusal
    exact ⟨by simp [hk], fun _ => ⟨token, hfind, rfl⟩, by simp [hk], by simp [hk], by simp [hk]⟩
  | start =>
    change b.declareAll ([valueOf line].map fun item => .start (String.ofList item)) = _ at hfail
    obtain ⟨name, hfind, hrefusal⟩ := exists_find?_of_names (fun _ => ⟨rfl, rfl⟩)
      (fun _ _ => Iff.rfl) h hb hfail
    obtain rfl : name = valueOf line := List.mem_singleton.1 (List.mem_of_find?_eq_some hfind)
    cases hrefusal
    have hnot : valueOf line ∉ itemsOf .states above := by simpa using List.find?_some hfind
    exact ⟨by simp [hk], by simp [hk], fun _ => ⟨hnot, rfl⟩, by simp [hk], by simp [hk]⟩
  | accept =>
    change b.declareAll ((Text.listItems (valueOf line)).map fun item =>
      .accept (String.ofList item)) = _ at hfail
    obtain ⟨name, hfind, hrefusal⟩ := exists_find?_of_names (fun _ => ⟨rfl, rfl⟩)
      (fun _ _ => Iff.rfl) h hb hfail
    cases hrefusal
    exact ⟨by simp [hk], by simp [hk], by simp [hk], fun _ => ⟨name, hfind, rfl⟩, by simp [hk]⟩

theorem headerFault_of_none (hk : keywordOf? line = none) :
    HeaderFault above line .unrecognizedLine :=
  ⟨by simp [hk], by simp [hk], by simp [hk], by simp [hk], by simp [hk]⟩

/-! ## Transition lines -/

/-- The cause with which a line of transitions fails, when the headers are these. -/
structure RuleFault (headers : List (List Char)) (line : List Char) (cause : Cause) : Prop where
  /-- It has no arrow. -/
  arrow : cause = .missingArrow ↔ ¬ ['-', '>'] <:+: line
  /-- It has an arrow, but no comma in front of the first. -/
  comma : cause = .missingComma ↔
    ∃ left target, line = left ++ '-' :: '>' :: target ∧ ¬ ['-', '>'] <:+: left ∧ ',' ∉ left
  /-- What stands between the first comma and the first arrow is not one character. -/
  symbol : ∀ source token target, IsCutInto line source token target →
    (cause = .symbolLength (String.ofList (Text.trim token)) ↔ ¬ (Text.trim token).length = 1)
  /-- What it writes is not all declared. -/
  reference : ∀ source token target c, IsCutInto line source token target →
    Text.trim token = [c] →
      cause = .unknownReference (String.ofList (Text.trim source)) c
          (String.ofList (Text.trim target)) ∧
        ¬ (Text.trim source ∈ itemsOf .states headers ∧ [c] ∈ itemsOf .alphabet headers ∧
          Text.trim target ∈ itemsOf .states headers)

/-- What a line that fails is read as: nothing, or a rule that is refused. -/
def IsRefused (headers : List (List Char)) (line : List Char) (cause : Cause) : Prop :=
  Rule.ofLine line = .error cause ∨
    ∃ r, Rule.ofLine line = .ok r ∧ cause = .unknownReference r.source r.symbol r.target ∧
      ¬ (r.source.toList ∈ itemsOf .states headers ∧ [r.symbol] ∈ itemsOf .alphabet headers ∧
        r.target.toList ∈ itemsOf .states headers)

theorem isRefused_of_declareAll {r : Rule} (hr : Rule.ofLine line = .ok r)
    (h : b.Records (declarationsOf headers rules)) (hb : b.WellFormed)
    (hfail : b.declareAll [r.declaration] = .error cause) : IsRefused headers line cause := by
  rcases h.declare hb r.declaration with ⟨answer, b', hok, -⟩ | ⟨⟨cause', hrefused⟩, hnot⟩
  · rw [Builder.declareAll_cons_of_ok hok] at hfail
    cases hfail
  · rw [Builder.declareAll_cons_of_error hrefused] at hfail
    cases hfail
    have hcause := Builder.refusal?_of_declare hrefused
    rw [declarationsOf, History.permits_append_of_forall_silent fun _ => silent_of_mem_rules,
      permits_rule_iff] at hnot
    exact .inr ⟨r, hr, (Option.some.inj hcause).symm, hnot⟩

namespace IsRefused

variable {source token target : List Char}

/-- A line from which nothing can be read fails for that. -/
theorem eq_of_error {cause' : Cause} (h : IsRefused headers line cause)
    (hread : Rule.ofLine line = .error cause') : cause = cause' := by
  rw [IsRefused, hread] at h
  rcases h with h | ⟨r, hr, -⟩
  · cases h
    rfl
  · cases hr

/-- A line that can be cut fails for its symbol or for what it refers to. -/
theorem of_isCutInto (h : IsRefused headers line cause)
    (hcut : IsCutInto line source token target) :
    (¬ (Text.trim token).length = 1 ∧
        cause = .symbolLength (String.ofList (Text.trim token))) ∨
      ∃ c, Text.trim token = [c] ∧
        cause = .unknownReference (String.ofList (Text.trim source)) c
          (String.ofList (Text.trim target)) ∧
        ¬ (Text.trim source ∈ itemsOf .states headers ∧ [c] ∈ itemsOf .alphabet headers ∧
          Text.trim target ∈ itemsOf .states headers) := by
  rw [IsRefused, Rule.ofLine_of_isCutInto hcut] at h
  cases hsymbol : symbolOf (String.ofList (Text.trim token)) with
  | error cause' =>
    left
    rw [hsymbol] at h
    rcases h with h | ⟨r, hr, -⟩
    · cases h
      rwa [symbolOf_eq_error_iff, String.toList_ofList] at hsymbol
    · cases hr
  | ok c =>
    right
    rw [hsymbol] at h
    rcases h with h | ⟨r, hr, hcause, hnot⟩
    · cases h
    · cases hr
      simp only [String.toList_ofList] at hnot
      have hc := symbolOf_eq_ok_iff.1 hsymbol
      rw [String.toList_ofList] at hc
      exact ⟨c, hc, hcause, hnot⟩

theorem ne_of_isCutInto (h : IsRefused headers line cause)
    (hcut : IsCutInto line source token target) :
    cause ≠ .missingArrow ∧ cause ≠ .missingComma := by
  rcases h.of_isCutInto hcut with ⟨-, rfl⟩ | ⟨c, -, rfl, -⟩
  · exact ⟨Cause.noConfusion, Cause.noConfusion⟩
  · exact ⟨Cause.noConfusion, Cause.noConfusion⟩

/-- Each fault has a cause of its own, and the faults are looked for in this order. -/
theorem ruleFault (h : IsRefused headers line cause) : RuleFault headers line cause := by
  have harrowless : ¬ ['-', '>'] <:+: line → cause = .missingArrow := fun harrow =>
    h.eq_of_error (Rule.ofLine_of_no_arrow harrow)
  have hcommaless : (∃ left target, line = left ++ '-' :: '>' :: target ∧
      ¬ ['-', '>'] <:+: left ∧ ',' ∉ left) → cause = .missingComma := by
    rintro ⟨left, target, rfl, harrow, hcomma⟩
    exact h.eq_of_error (Rule.ofLine_of_no_comma harrow hcomma target)
  refine ⟨⟨?_, harrowless⟩, ⟨?_, hcommaless⟩, ?_, ?_⟩
  · rintro rfl harrow
    rcases cut_cases line with hnone | hcomma | ⟨source, token, target, hcut⟩
    · exact hnone harrow
    · cases hcommaless hcomma
    · exact (h.ne_of_isCutInto hcut).1 rfl
  · rintro rfl
    rcases cut_cases line with hnone | hcomma | ⟨source, token, target, hcut⟩
    · cases harrowless hnone
    · exact hcomma
    · exact absurd rfl (h.ne_of_isCutInto hcut).2
  · intro source token target hcut
    rcases h.of_isCutInto hcut with ⟨hlength, hcause⟩ | ⟨c, hc, hcause, -⟩
    · exact iff_of_true hcause hlength
    · exact iff_of_false (by rw [hcause]; exact Cause.noConfusion) (by simp [hc])
  · intro source token target c hcut hc
    rcases h.of_isCutInto hcut with ⟨hlength, -⟩ | ⟨c', hc', hcause, hnot⟩
    · exact absurd (by rw [hc]; rfl) hlength
    · rw [hc] at hc'
      cases hc'
      exact ⟨hcause, hnot⟩

end IsRefused

/-! ## Bad lines -/

/-- The significant lines above a numbered line of a text. -/
def linesAbove (text : String) (line : Line) : List (List Char) :=
  contentLines (firstLines (line.number - 1) text)

/-- The cause with which a line of a text fails is exact. -/
structure ExactCause (text : String) (line : Line) (cause : Cause) : Prop where
  /-- The line is the one with its number, counted from one. -/
  line_eq : ∃ k, line.number = k + 1 ∧ (trimmedLines text)[k]? = some line.text.toList
  header : InHeader (linesAbove text line) →
    HeaderFault (linesAbove text line) line.text.toList cause
  rule : ¬ InHeader (linesAbove text line) →
    RuleFault (headerPart (linesAbove text line)) line.text.toList cause

variable {text : String} {e : Error} {r : Reader} {l : Line} {xs : List Declaration}

/-- Where a definition fails, the builder holds what the lines above declare. -/
theorem exists_reader_of_parse_error (h : (parse text).value = .error e)
    (hplace : e.place = some l) :
    ∃ r : Reader, ∃ xs, (∃ k, l.number = k + 1 ∧ (trimmedLines text)[k]? = some l.text.toList) ∧
      Declares .header (linesAbove text l) r.part xs ∧ r.builder.Records xs ∧
        r.builder.WellFormed ∧ r.step l = .error e.cause := by
  obtain ⟨above, bad, below, r, hsplit, habove, hstep, hbad⟩ :=
    Reader.readLines_eq_error_iff.1 (readLines_of_parse_error h hplace)
  obtain rfl : bad = l := Option.some.inj (hbad.symm.trans hplace)
  obtain ⟨k, hnumber, hline, -, hfront, -⟩ := exists_place_of_significantLines hsplit
  obtain ⟨xs, answers, hlines, hxs⟩ := Reader.readLines_eq_ok_iff.1 habove
  obtain ⟨hrecords, hb⟩ := Builder.records_of_declareAll hxs
  have hcontent : above.map (fun line => line.text.toList) = linesAbove text bad := by
    rw [linesAbove, hnumber, Nat.add_sub_cancel, ← map_text_significantLines,
      significantLines_firstLines, hfront]
  rw [hcontent] at hlines
  exact ⟨r, xs, ⟨k, hnumber, hline⟩, hlines, hrecords, hb, hstep⟩

theorem headerFault_of_step (hpart : r.part = .header)
    (h : r.builder.Records (above.flatMap headerDeclarations)) (hb : r.builder.WellFormed)
    (hstep : r.step l = .error cause) : HeaderFault above l.text.toList cause := by
  have hfail := Reader.cases_of_step_eq_error hstep
  rw [hpart] at hfail
  rcases hfail with hd | ⟨part, ys, hd, hys⟩
  · obtain ⟨hk, rfl⟩ := declarations_header_eq_error hd
    exact headerFault_of_none hk
  · rcases declarations_header_cases hd with ⟨-, -, rfl⟩ | ⟨k, hk, hend, -, rfl⟩
    · cases hys
    · exact headerFault_of_declareAll hk hend h hb hys

theorem ruleFault_of_step (hpart : r.part = .transitions)
    (h : r.builder.Records (declarationsOf headers rules)) (hb : r.builder.WellFormed)
    (hstep : r.step l = .error cause) : RuleFault headers l.text.toList cause := by
  have hfail := Reader.cases_of_step_eq_error hstep
  rw [hpart] at hfail
  apply IsRefused.ruleFault
  rcases hfail with hd | ⟨part, ys, hd, hys⟩
  · exact .inl (declarations_transitions_eq_error_iff.1 hd)
  · obtain ⟨rule, hwritten, -, rfl⟩ := declarations_transitions_eq_ok_iff.1 hd
    exact isRefused_of_declareAll (Rule.ofLine_eq_ok_iff.2 hwritten) h hb hys

/-- **The cause of a bad line is exact**, whatever stands in the text. -/
theorem exactCause_of_parse (h : (parse text).value = .error e) (hplace : e.place = some l) :
    ExactCause text l e.cause := by
  obtain ⟨r, xs, hline, hlines, hrecords, hb, hstep⟩ := exists_reader_of_parse_error h hplace
  refine ⟨hline, ?_, ?_⟩
  · intro habove
    have hpart : r.part = .header := hlines.part_eq_header_iff.2 habove
    rw [hlines.eq_flatMap habove] at hrecords
    exact headerFault_of_step hpart hrecords hb hstep
  · intro habove
    have hpart : r.part = .transitions := by
      cases hp : r.part with
      | header => exact absurd (hlines.part_eq_header_iff.1 hp) habove
      | transitions => rfl
    obtain ⟨-, rules, -, hxs⟩ := declares_header_iff.1 ⟨r.part, hlines⟩
    rw [hxs] at hrecords
    exact ruleFault_of_step hpart hrecords hb hstep

/-- Definitions with a bad line at their end, and the cause that is told; most of the lines have
    several faults. -/
def badLines : List (String × Line × Cause) :=
  [("states: A\n", ⟨2, "state: A, B"⟩, .unrecognizedLine),
    ("states: A\n", ⟨2, "alphabet: 0, 12, , 345"⟩, .symbolLength "12"),
    ("states: A, B\n", ⟨2, "start: A, B"⟩, .unknownStart "A, B"),
    ("states: A\n", ⟨2, "accept: A, C, D"⟩, .unknownAccept "C"),
    ("states: A\nalphabet: 0\ntransitions:\n", ⟨4, "A, 00 B"⟩, .missingArrow),
    ("states: A\nalphabet: 0\ntransitions:\n", ⟨4, "A 00->A,0->B"⟩, .missingComma),
    ("states: A\nalphabet: 0\ntransitions:\n", ⟨4, "B,0,0->B"⟩, .symbolLength "0,0"),
    ("states: A\nalphabet: 0\ntransitions:\n", ⟨4, "A,0->A,0->A"⟩,
      .unknownReference "A" '0' "A,0->A")]

theorem exactCause_badLines :
    (∀ x ∈ badLines, (parse (x.1 ++ x.2.1.text)).value = .error ⟨x.2.2, some x.2.1⟩) ∧
      ∀ x ∈ badLines, ExactCause (x.1 ++ x.2.1.text) x.2.1 x.2.2 := by
  have hparse : ∀ x ∈ badLines,
      (parse (x.1 ++ x.2.1.text)).value = .error ⟨x.2.2, some x.2.1⟩ := by decide +kernel
  exact ⟨hparse, fun x hx => exactCause_of_parse (hparse x hx) rfl⟩

end Acceptor.Definition
