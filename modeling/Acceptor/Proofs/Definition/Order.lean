/-
  The order of the lines of a definition, and lines that are written twice.

  1. **Stretches** — the lines above a place stand for declarations and end in a part, and those
     below are read in that part (`declares_above_iff`).  The part is the header as long as no line
     above ends it (`Declares.part_eq_header_iff`).

  2. **The outcome** — a text whose lines stand for a legal and complete history defines the
     automaton of which the history speaks (`exists_parse_of_declares`, `exists_account_of_parse`).

  3. **Neighbours** — header lines with different keywords are apart, and so are the lines of rules
     for different states or symbols.

  4. **Robustness** — `Robust text d` says which changes of the text do not change the automaton.
     Main result: `parse_robust`.
-/
import Acceptor.Proofs.Builder.Reordering
import Acceptor.Proofs.Definition.Reading

namespace Acceptor.Definition

open History (Legal SameReading Apart Complete IsAccountOf)

/-! ## Stretches -/

section Stretches

variable {part part' part'' : Part} {line : List Char} {lines above below : List (List Char)}
  {xs ys as : List Declaration}

/-- Lines stand for one list of declarations only, and end in one part only. -/
theorem Declares.unique (h : Declares part lines part' xs) (h' : Declares part lines part'' ys) :
    part' = part'' ∧ xs = ys := by
  induction h generalizing ys with
  | nil part =>
    cases h'
    exact ⟨rfl, rfl⟩
  | cons hline _ ih =>
    obtain ⟨zs, hrest, rfl⟩ := (declares_cons_iff hline).1 h'
    obtain ⟨hpart, hxs⟩ := ih hrest
    exact ⟨hpart, by rw [hxs]⟩

theorem declares_append_iff :
    Declares part (above ++ below) part'' xs ↔
      ∃ part' as ys, Declares part above part' as ∧ Declares part' below part'' ys ∧
        xs = as ++ ys := by
  induction above generalizing part xs with
  | nil =>
    constructor
    · intro h
      exact ⟨part, [], xs, .nil part, h, rfl⟩
    · rintro ⟨part', as, ys, ⟨⟩, hys, rfl⟩
      exact hys
  | cons line above ih =>
    constructor
    · intro h
      cases h with
      | cons hline hrest =>
        obtain ⟨part', as, ys, has, hys, rfl⟩ := ih.1 hrest
        exact ⟨part', _, ys, .cons hline has, hys, (List.append_assoc ..).symm⟩
    · rintro ⟨part', as, ys, has, hys, rfl⟩
      cases has with
      | cons hline has =>
        rw [List.append_assoc]
        exact .cons hline (ih.2 ⟨part', _, ys, has, hys, rfl⟩)

/-- The lines below a place are read in the part in which the lines above it end. -/
theorem declares_above_iff (habove : Declares part above part' as) :
    Declares part (above ++ below) part'' xs ↔
      ∃ ys, Declares part' below part'' ys ∧ xs = as ++ ys := by
  rw [declares_append_iff]
  constructor
  · rintro ⟨q, bs, ys, hbs, hys, rfl⟩
    obtain ⟨rfl, rfl⟩ := habove.unique hbs
    exact ⟨ys, hys, rfl⟩
  · rintro ⟨ys, hys, rfl⟩
    exact ⟨part', as, ys, habove, hys, rfl⟩

/-- None of the lines ends the header. -/
def InHeader (above : List (List Char)) : Prop :=
  ∀ line ∈ above, keywordOf? line ≠ some .transitions

instance (above : List (List Char)) : Decidable (InHeader above) :=
  inferInstanceAs (Decidable (∀ line ∈ above, keywordOf? line ≠ some .transitions))

/-- The lines end in the header exactly when none of them ends it. -/
theorem Declares.part_eq_header_iff (h : Declares .header above part as) :
    part = .header ↔ InHeader above := by
  induction above generalizing as with
  | nil =>
    cases h
    exact iff_of_true rfl fun line hline => absurd hline List.not_mem_nil
  | cons line above ih =>
    rw [InHeader, List.forall_mem_cons]
    cases h with
    | cons hd hrest =>
      rcases declarations_header_cases hd with ⟨hk, rfl, rfl⟩ | ⟨k, hk, hend, rfl, rfl⟩
      · -- behind the end of the header there are transitions only
        obtain ⟨rfl, -⟩ := declares_transitions_iff.1 hrest
        exact iff_of_false Part.noConfusion fun hno => hno.1 hk
      · have hne : keywordOf? line ≠ some .transitions := fun heq =>
          hend (Option.some.inj (hk.symm.trans heq))
        rw [ih hrest]
        exact ⟨fun hrest => ⟨hne, hrest⟩, fun hall => hall.2⟩

end Stretches

/-! ## The outcome -/

section Outcome

variable {text : String} {d : Automaton} {part : Part} {xs : List Declaration}

/-- What was read is the automaton of which the declarations of the lines speak. -/
theorem exists_account_of_parse (h : (parse text).value = .ok d) :
    ∃ part xs, Declares .header (contentLines text) part xs ∧ Legal [] xs ∧ Complete xs ∧
      IsAccountOf xs d := by
  obtain ⟨hheaders, rules, answers, b, hrules, hxs, hd⟩ := parse_eq_ok_iff.1 h
  obtain ⟨part, hdeclares⟩ := declares_header_iff.2 ⟨hheaders, rules, hrules, rfl⟩
  obtain ⟨hrecords, hb⟩ := Builder.records_of_declareAll hxs
  obtain ⟨hnames, hsymbols, hstarts⟩ := (hrecords.exists_build_iff hb).1 ⟨d, hd⟩
  exact ⟨part, _, hdeclares, Builder.exists_declareAll_iff.1 ⟨answers, b, hxs⟩,
    ⟨hnames, hsymbols, hstarts⟩, hrecords.isAccountOf hb hd⟩

/-- Lines that stand for a legal and complete history can be read. -/
theorem exists_parse_of_declares (h : Declares .header (contentLines text) part xs)
    (hlegal : Legal [] xs) (hcomplete : Complete xs) :
    ∃ d, (parse text).value = .ok d ∧ IsAccountOf xs d := by
  obtain ⟨hheaders, rules, hrules, rfl⟩ := declares_header_iff.1 ⟨part, h⟩
  obtain ⟨answers, b, hxs⟩ := Builder.exists_declareAll_iff.2 hlegal
  obtain ⟨hrecords, hb⟩ := Builder.records_of_declareAll hxs
  obtain ⟨d, hd⟩ := (hrecords.exists_build_iff hb).2
    ⟨hcomplete.names, hcomplete.symbols, hcomplete.starts⟩
  exact ⟨d, parse_eq_ok_iff.2 ⟨hheaders, rules, answers, b, hrules, hxs, hd⟩,
    hrecords.isAccountOf hb hd⟩

end Outcome

/-! ## Neighbours -/

section Neighbours

variable {upper lower line : List Char} {above : List (List Char)} {k k' : Keyword} {r r' : Rule}
  {part part' : Part} {us vs as : List Declaration}

/-- A header line declares one kind of thing only. -/
theorem filterMap_header_of_ne (hk : keywordOf? line = some k) :
    (k ≠ .states → (headerDeclarations line).filterMap History.name? = []) ∧
      (k ≠ .alphabet → (headerDeclarations line).filterMap History.symbol? = []) ∧
        (k ≠ .start → (headerDeclarations line).filterMap History.start? = []) ∧
          (k ≠ .accept → (headerDeclarations line).filterMap History.accept? = []) := by
  unfold headerDeclarations
  rw [hk]
  cases k <;>
    simp [Header.declarations, Function.comp_def, History.name?, History.symbol?, History.start?,
      History.accept?]

theorem filterMap_target?_header (p : String) (c : Char) (line : List Char) :
    (headerDeclarations line).filterMap (History.target? p c) = [] := by
  rw [← filterMap_target?_headers p c [line], List.flatMap_singleton]

/-- Header lines with different keywords are apart. -/
theorem apart_headers (hk : keywordOf? upper = some k) (hk' : keywordOf? lower = some k')
    (hne : k ≠ k') : Apart (headerDeclarations upper) (headerDeclarations lower) := by
  have hupper := filterMap_header_of_ne hk
  have hlower := filterMap_header_of_ne hk'
  -- one of the two keywords is not the one in question
  have hother : ∀ kind, k ≠ kind ∨ k' ≠ kind := by
    intro kind
    by_cases h : k = kind
    · exact .inr fun h' => hne (h.trans h'.symm)
    · exact .inl h
  exact
    { names := (hother .states).imp hupper.1 hlower.1
      symbols := (hother .alphabet).imp hupper.2.1 hlower.2.1
      starts := (hother .start).imp hupper.2.2.1 hlower.2.2.1
      accepts := (hother .accept).imp hupper.2.2.2 hlower.2.2.2
      targets := fun p c => .inl (filterMap_target?_header p c upper) }

/-- Rules for different states or symbols are apart. -/
theorem apart_rules (hne : (r.source, r.symbol) ≠ (r'.source, r'.symbol)) :
    Apart [r.declaration] [r'.declaration] where
  names := .inl rfl
  symbols := .inl rfl
  starts := .inl rfl
  accepts := .inl rfl
  targets p c := by
    by_cases h : r.source = p ∧ r.symbol = c
    · right
      have h' : ¬ (r'.source = p ∧ r'.symbol = c) := by
        rintro ⟨hsource, hsymbol⟩
        exact hne (Prod.ext (h.1.trans hsource.symm) (h.2.trans hsymbol.symm))
      exact List.filterMap_cons_none (if_neg h')
    · left
      exact List.filterMap_cons_none (if_neg h)

/-- Up to a place in the header, the lines declare what they declare one by one. -/
theorem Declares.eq_flatMap (h : Declares .header above part as) (habove : InHeader above) :
    as = above.flatMap headerDeclarations := by
  obtain ⟨-, rules, hrules, rfl⟩ := declares_header_iff.1 ⟨part, h⟩
  have hheader : headerPart above = above := by
    rw [← List.append_nil above, headerPart_append_of_ne habove]
    rfl
  have hrest : rulePart above = [] := by
    rw [← List.append_nil above, rulePart_append_of_ne habove]
    rfl
  rw [hrest] at hrules
  cases hrules
  rw [declarationsOf, hheader, List.map_nil, List.append_nil]

/-- A header line need not wait for the one above it, unless that one declares states and this one
    uses them. -/
theorem LinePermitted.of_concat (h : LinePermitted (above ++ [upper]) lower)
    (hfree : keywordOf? upper = some .states →
      keywordOf? lower ≠ some .start ∧ keywordOf? lower ≠ some .accept) :
    LinePermitted above lower := by
  have hitems : keywordOf? upper ≠ some .states →
      itemsOf .states (above ++ [upper]) = itemsOf .states above := by
    intro hne
    rw [itemsOf, valuesOf, List.filter_append, List.filter_cons_of_neg (by simpa using hne),
      List.filter_nil, List.append_nil]
    rfl
  refine ⟨h.symbols, ?_, ?_⟩
  · intro hk
    have hne : keywordOf? upper ≠ some .states := fun hs => (hfree hs).1 hk
    rw [← hitems hne]
    exact h.start hk
  · intro hk
    have hne : keywordOf? upper ≠ some .states := fun hs => (hfree hs).2 hk
    rw [← hitems hne]
    exact h.accepts hk

/-- A line that does not end the header leaves the part as it is. -/
theorem part_eq_of_declarations (h : declarations part line = .ok (part', us))
    (hline : part = .header → keywordOf? line ≠ some .transitions) : part' = part := by
  cases part with
  | header =>
    rcases declarations_header_cases h with ⟨hk, -⟩ | ⟨k, -, -, rfl, -⟩
    · exact absurd hk (hline rfl)
    · rfl
  | transitions =>
    obtain ⟨r, -, rfl, -⟩ := declarations_transitions_eq_ok_iff.1 h
    rfl

theorem declarations_transitions_of_isWritten (h : r.IsWritten line) :
    declarations .transitions line = .ok (.transitions, [r.declaration]) :=
  declarations_transitions_eq_ok_iff.2 ⟨r, h, rfl, rfl⟩

end Neighbours

/-! ## Robustness -/

/-- The second text has two neighbouring significant lines of the first in the other order. -/
def Exchanged (above : List (List Char)) (upper lower : List Char) (text text' : String) : Prop :=
  ∃ below, contentLines text = above ++ upper :: lower :: below ∧
    contentLines text' = above ++ lower :: upper :: below

/-- The second text has a significant line of the first twice in a row. -/
def Doubled (above : List (List Char)) (line : List Char) (text text' : String) : Prop :=
  ∃ below, contentLines text = above ++ line :: below ∧
    contentLines text' = above ++ line :: line :: below

/-- A definition keeps its meaning when its lines are put in another order or written twice. -/
structure Robust (text : String) (d : Automaton) : Prop where
  /-- Neighbouring header lines with different keywords may be exchanged, if the text can still be
      read; and it can, unless the upper one declares states and the lower one uses them. -/
  headers : ∀ text' above upper lower k k', Exchanged above upper lower text text' →
    InHeader above → keywordOf? upper = some k → keywordOf? lower = some k' →
    k ≠ .transitions → k' ≠ .transitions → k ≠ k' →
      (∀ d', (parse text').value = .ok d' → d'.Same d) ∧
        ((k = .states → k' ≠ .start ∧ k' ≠ .accept) → ∃ d', (parse text').value = .ok d')
  /-- Neighbouring transition lines for different states or symbols may be exchanged. -/
  rules : ∀ text' above upper lower r r', Exchanged above upper lower text text' →
    ¬ InHeader above → Rule.IsWritten r upper → Rule.IsWritten r' lower →
    (r.source, r.symbol) ≠ (r'.source, r'.symbol) →
      ∃ d', (parse text').value = .ok d' ∧ d'.Same d
  /-- Any line may be written twice, but for the one that ends the header. -/
  doubled : ∀ text' above line, Doubled above line text text' →
    (InHeader above → keywordOf? line ≠ some .transitions) →
      ∃ d', (parse text').value = .ok d' ∧ d'.Same d

section Robust

variable {text text' : String} {d : Automaton} {above : List (List Char)}
  {upper lower line : List Char}

/-- Lines that are apart may be exchanged in either part. -/
theorem parse_exchanged {part : Part} {as us vs : List Declaration} (h : (parse text).value = .ok d)
    (hlines : Exchanged above upper lower text text') (habove : Declares .header above part as)
    (hupper : declarations part upper = .ok (part, us))
    (hlower : declarations part lower = .ok (part, vs)) (hapart : Apart us vs) :
    (∀ d', (parse text').value = .ok d' → d'.Same d) ∧
      ((Legal (as ++ us) vs → Legal as vs) → ∃ d', (parse text').value = .ok d') := by
  obtain ⟨below, htext, htext'⟩ := hlines
  obtain ⟨last, xs, hxs, hlegal, hcomplete, haccount⟩ := exists_account_of_parse h
  rw [htext, declares_above_iff habove] at hxs
  obtain ⟨ys, hys, rfl⟩ := hxs
  obtain ⟨ys, hrest, rfl⟩ := (declares_cons_iff hupper).1 hys
  obtain ⟨zs, hzs, rfl⟩ := (declares_cons_iff hlower).1 hrest
  have hxs' : Declares .header (contentLines text') last (as ++ (vs ++ (us ++ zs))) := by
    rw [htext', declares_above_iff habove]
    exact ⟨_, .cons hlower (.cons hupper hzs), rfl⟩
  have hsame := hapart.sameReading as zs
  constructor
  · intro d' hd'
    obtain ⟨last', xs', hdeclares, -, -, haccount'⟩ := exists_account_of_parse hd'
    obtain ⟨-, rfl⟩ := hxs'.unique hdeclares
    exact hsame.same haccount' haccount
  · intro hmoves
    have hboth : Legal (as ++ us) vs := by
      simp only [History.legal_append, List.nil_append] at hlegal
      exact hlegal.2.2.1
    obtain ⟨d', hd', -⟩ := exists_parse_of_declares hxs'
      (History.legal_exchange (hmoves hboth) hlegal) (hsame.complete hcomplete)
    exact ⟨d', hd'⟩

/-- The lines above a line that could be read stand for something. -/
theorem exists_declares_above {below : List (List Char)} (h : (parse text).value = .ok d)
    (htext : contentLines text = above ++ below) : ∃ part as, Declares .header above part as := by
  obtain ⟨last, xs, hxs, -, -, -⟩ := exists_account_of_parse h
  rw [htext] at hxs
  obtain ⟨part, as, -, has, -, -⟩ := declares_append_iff.1 hxs
  exact ⟨part, as, has⟩

theorem headers_exchanged {k k' : Keyword} (h : (parse text).value = .ok d)
    (hlines : Exchanged above upper lower text text') (habove : InHeader above)
    (hk : keywordOf? upper = some k) (hk' : keywordOf? lower = some k')
    (hend : k ≠ .transitions) (hend' : k' ≠ .transitions) (hne : k ≠ k') :
    (∀ d', (parse text').value = .ok d' → d'.Same d) ∧
      ((k = .states → k' ≠ .start ∧ k' ≠ .accept) → ∃ d', (parse text').value = .ok d') := by
  obtain ⟨below, htext, -⟩ := id hlines
  obtain ⟨part, as, has⟩ := exists_declares_above h htext
  obtain rfl := has.part_eq_header_iff.2 habove
  obtain ⟨hsame, hreads⟩ := parse_exchanged h hlines has (declarations_header_of_some hk hend)
    (declarations_header_of_some hk' hend') (apart_headers hk hk' hne)
  refine ⟨hsame, fun hfree => hreads fun hlower => ?_⟩
  have hconcat : as ++ headerDeclarations upper = (above ++ [upper]).flatMap headerDeclarations := by
    rw [has.eq_flatMap habove, List.flatMap_append, List.flatMap_singleton]
  rw [hconcat, legal_headerDeclarations_iff] at hlower
  rw [has.eq_flatMap habove, legal_headerDeclarations_iff]
  apply hlower.of_concat
  rw [hk, hk']
  intro hstates
  obtain ⟨hstart, haccept⟩ := hfree (Option.some.inj hstates)
  exact ⟨fun h => hstart (Option.some.inj h), fun h => haccept (Option.some.inj h)⟩

theorem rules_exchanged {r r' : Rule} (h : (parse text).value = .ok d)
    (hlines : Exchanged above upper lower text text') (habove : ¬ InHeader above)
    (hr : r.IsWritten upper) (hr' : r'.IsWritten lower)
    (hne : (r.source, r.symbol) ≠ (r'.source, r'.symbol)) :
    ∃ d', (parse text').value = .ok d' ∧ d'.Same d := by
  obtain ⟨below, htext, -⟩ := id hlines
  obtain ⟨part, as, has⟩ := exists_declares_above h htext
  cases part with
  | header => exact absurd (has.part_eq_header_iff.1 rfl) habove
  | transitions =>
    obtain ⟨hsame, hreads⟩ := parse_exchanged h hlines has
      (declarations_transitions_of_isWritten hr) (declarations_transitions_of_isWritten hr')
      (apart_rules hne)
    -- a rule declares no names and no symbols
    obtain ⟨d', hd'⟩ := hreads fun hlower =>
      ⟨(History.permits_append_of_silent rfl rfl _).1 hlower.1, trivial⟩
    exact ⟨d', hd', hsame d' hd'⟩

theorem parse_doubled (h : (parse text).value = .ok d) (hlines : Doubled above line text text')
    (hline : InHeader above → keywordOf? line ≠ some .transitions) :
    ∃ d', (parse text').value = .ok d' ∧ d'.Same d := by
  obtain ⟨below, htext, htext'⟩ := hlines
  obtain ⟨last, xs, hxs, hlegal, hcomplete, haccount⟩ := exists_account_of_parse h
  rw [htext] at hxs
  obtain ⟨part, as, ys, has, hys, rfl⟩ := declares_append_iff.1 hxs
  cases hys with
  | @cons _ part' _ _ _ us zs hus hzs =>
    obtain rfl : part' = part := part_eq_of_declarations hus fun hpart =>
      hline ((hpart ▸ has).part_eq_header_iff.1 rfl)
    have hxs' : Declares .header (contentLines text') last (as ++ (us ++ (us ++ zs))) := by
      rw [htext', declares_above_iff has]
      exact ⟨_, .cons hus (.cons hus hzs), rfl⟩
    have hsame := History.sameReading_again as us zs
    obtain ⟨d', hd', haccount'⟩ := exists_parse_of_declares hxs' (History.legal_again hlegal)
      (hsame.complete hcomplete)
    exact ⟨d', hd', hsame.same haccount' haccount⟩

/-- **The order of the lines does not count, and neither do repetitions**, as far as a definition
    can still be read and no start and no transition is given another target. -/
theorem parse_robust (h : (parse text).value = .ok d) : Robust text d where
  headers _ _ _ _ _ _ hlines habove hk hk' hend hend' hne :=
    headers_exchanged h hlines habove hk hk' hend hend' hne
  rules _ _ _ _ _ _ hlines habove hr hr' hne := rules_exchanged h hlines habove hr hr' hne
  doubled _ _ _ hlines hline := parse_doubled h hlines hline

/-- A definition of one state with a loop. -/
def startFirst : String :=
  "states: A\nalphabet: 0\nstart: A\n# the start accepts\naccept: A\ntransitions:\nA,0->A\n"

/-- The same definition with the start behind the accepting state. -/
def acceptFirst : String :=
  "states: A\nalphabet: 0\naccept: A\nstart: A\ntransitions:\nA,0->A\n"

/-- The same definition with its transition written twice. -/
def loopTwice : String :=
  "states: A\nalphabet: 0\nstart: A\naccept: A\ntransitions:\nA,0->A\nA,0->A\n"

/-- The comment between the two lines does not keep them apart. -/
theorem startFirst_robust :
    (parse startFirst).value = .ok ⟨⟨["A"], ['0'], [0], [((0, '0'), 0)]⟩, 0⟩ ∧
      Robust startFirst ⟨⟨["A"], ['0'], [0], [((0, '0'), 0)]⟩, 0⟩ ∧
        (∃ d', (parse acceptFirst).value = .ok d' ∧
          d'.Same ⟨⟨["A"], ['0'], [0], [((0, '0'), 0)]⟩, 0⟩) ∧
          ∃ d', (parse loopTwice).value = .ok d' ∧
            d'.Same ⟨⟨["A"], ['0'], [0], [((0, '0'), 0)]⟩, 0⟩ := by
  have hread : (parse startFirst).value = .ok ⟨⟨["A"], ['0'], [0], [((0, '0'), 0)]⟩, 0⟩ := by
    decide +kernel
  have hrobust := parse_robust hread
  have hexchanged : Exchanged ["states: A".toList, "alphabet: 0".toList] "start: A".toList
      "accept: A".toList startFirst acceptFirst :=
    ⟨["transitions:".toList, "A,0->A".toList], by decide +kernel, by decide +kernel⟩
  have hdoubled : Doubled ["states: A".toList, "alphabet: 0".toList, "start: A".toList,
      "accept: A".toList, "transitions:".toList] "A,0->A".toList startFirst loopTwice :=
    ⟨[], by decide +kernel, by decide +kernel⟩
  obtain ⟨hsame, hreads⟩ := hrobust.headers _ _ _ _ .start .accept hexchanged (by decide +kernel)
    (by decide +kernel) (by decide +kernel) (by decide) (by decide) (by decide)
  obtain ⟨d', hd'⟩ := hreads (by decide)
  exact ⟨hread, hrobust, ⟨d', hd', hsame d' hd'⟩,
    hrobust.doubled _ _ _ hdoubled (by decide +kernel)⟩

end Robust

end Acceptor.Definition
