/-
  Reading a definition is declaring what its lines stand for.

  The reader goes through the lines one by one, with the builder and the part in hand.  Here the two
  come apart: what the lines stand for is a matter of the lines alone, and the builder is told the
  declarations of all lines in one go.

  1. **What lines stand for** — `Declares part lines part' xs`: read in `part`, the lines stand for
     `xs` and end in `part'`.

  2. **The reader** — `readLines_eq_ok_iff`: reading succeeds exactly when the lines stand for some
     declarations and the builder takes them all.

  3. **The two parts** — what one line of either part stands for (`declarations_header_cases`,
     `declarations_transitions_eq_ok_iff`).  `declares_header_iff`: the lines of a definition stand
     for the declarations of its headers and then for one transition for each rule.

  4. **The definition** — `parse_eq_ok_iff` puts this together with the building at the end.
-/
import Acceptor.Definition.Reader
import Acceptor.Proofs.Builder.Records
import Acceptor.Proofs.Definition.Declared
import Mathlib.Data.List.Forall2

namespace Acceptor.Definition

/-! ## What lines stand for -/

/-- Read in a part, lines stand for declarations and end in a part. -/
inductive Declares : Part → List (List Char) → Part → List Declaration → Prop
  | nil (part : Part) : Declares part [] part []
  | cons {part part' part'' : Part} {line : List Char} {lines : List (List Char)}
      {xs ys : List Declaration} : declarations part line = .ok (part', xs) →
      Declares part' lines part'' ys → Declares part (line :: lines) part'' (xs ++ ys)

section Declares

variable {part part' part'' : Part} {line : List Char} {lines : List (List Char)}
  {xs zs : List Declaration}

/-- The lines behind a line that can be read stand for the rest. -/
theorem declares_cons_iff (hd : declarations part line = .ok (part', xs)) :
    Declares part (line :: lines) part'' zs ↔
      ∃ ys, Declares part' lines part'' ys ∧ zs = xs ++ ys := by
  constructor
  · intro h
    cases h with
    | cons hd' hrest =>
      rw [hd] at hd'
      cases hd'
      exact ⟨_, hrest, rfl⟩
  · rintro ⟨ys, hrest, rfl⟩
    exact .cons hd hrest

/-- A line that cannot be read stands for nothing, whatever follows. -/
theorem not_declares_cons {cause : Cause} (hd : declarations part line = .error cause) :
    ¬ Declares part (line :: lines) part'' zs := by
  intro h
  cases h with
  | cons hd' hrest =>
    rw [hd] at hd'
    cases hd'

end Declares

/-! ## The reader -/

namespace Reader

variable {r r' : Reader} {line : Line} {part : Part} {xs : List Declaration}
  {answers : List Answer} {b : Builder} {read : Logged Reader}

theorem step_of_ok (hd : declarations r.part line.text.toList = .ok (part, xs))
    (hx : r.builder.declareAll xs = .ok (answers, b)) :
    r.step line = .ok
      { log := (xs.zip answers).filterMap (noteOf b.toTransitionSystem line.number)
        value := { part, builder := b } } := by
  unfold step
  rw [hd]
  show (r.builder.declareAll xs >>= _) = _
  rw [hx]
  rfl

/-- A line that was read stands for declarations, and the builder took them. -/
theorem exists_of_step_eq_ok (h : r.step line = .ok read) :
    ∃ part xs answers b, declarations r.part line.text.toList = .ok (part, xs) ∧
      r.builder.declareAll xs = .ok (answers, b) ∧
        read =
          { log := (xs.zip answers).filterMap (noteOf b.toTransitionSystem line.number)
            value := { part, builder := b } } := by
  cases hd : declarations r.part line.text.toList with
  | error cause =>
    unfold step at h
    rw [hd] at h
    cases h
  | ok d =>
    obtain ⟨part, xs⟩ := d
    cases hx : r.builder.declareAll xs with
    | error cause =>
      unfold step at h
      rw [hd] at h
      change (r.builder.declareAll xs >>= _) = _ at h
      rw [hx] at h
      cases h
    | ok a =>
      obtain ⟨answers, b⟩ := a
      rw [step_of_ok hd hx] at h
      cases h
      exact ⟨part, xs, answers, b, rfl, hx, rfl⟩

theorem readLines_cons_of_ok (h : r.step line = .ok read) (rest : List Line) :
    (r.readLines (line :: rest)).value = (read.value.readLines rest).value := by
  rw [readLines, h]

theorem readLines_cons_of_error {cause : Cause} (h : r.step line = .error cause)
    (rest : List Line) :
    (r.readLines (line :: rest)).value = .error { cause, place := some line } := by
  rw [readLines, h]

/-- Reading succeeds exactly when the lines stand for declarations that the builder takes. -/
theorem readLines_eq_ok_iff {lines : List Line} :
    (r.readLines lines).value = .ok r' ↔
      ∃ xs answers, Declares r.part (lines.map fun line => line.text.toList) r'.part xs ∧
        r.builder.declareAll xs = .ok (answers, r'.builder) := by
  induction lines generalizing r with
  | nil =>
    constructor
    · rintro ⟨⟩
      exact ⟨[], [], .nil _, rfl⟩
    · rintro ⟨xs, answers, hlines, hxs⟩
      obtain ⟨part, builder⟩ := r
      obtain ⟨part', builder'⟩ := r'
      cases hlines
      cases hxs
      rfl
  | cons line rest ih =>
    rw [List.map_cons]
    constructor
    · intro h
      cases hstep : r.step line with
      | error cause =>
        rw [readLines_cons_of_error hstep] at h
        cases h
      | ok read =>
        rw [readLines_cons_of_ok hstep] at h
        obtain ⟨part, xs, answers, b, hd, hx, rfl⟩ := exists_of_step_eq_ok hstep
        obtain ⟨ys, more, hrest, hys⟩ := ih.1 h
        exact ⟨xs ++ ys, answers ++ more, .cons hd hrest,
          Builder.declareAll_append_eq_ok_iff.2 ⟨answers, b, more, hx, hys, rfl⟩⟩
    · rintro ⟨zs, answers, hlines, hzs⟩
      cases hlines with
      | cons hd hrest =>
        -- the declarations of the first line come first, and leave the builder to the rest
        obtain ⟨first, b, second, hx, hys, -⟩ := Builder.declareAll_append_eq_ok_iff.1 hzs
        rw [readLines_cons_of_ok (step_of_ok hd hx)]
        exact ih.2 ⟨_, second, hrest, hys⟩

end Reader

/-! ## The two parts -/

section Parts

variable {line : List Char} {lines : List (List Char)} {part : Part} {xs : List Declaration}

/-! A line of the transition part, by what is read from it. -/

theorem declarations_transitions_eq_error_iff {cause : Cause} :
    declarations .transitions line = .error cause ↔ Rule.ofLine line = .error cause := by
  rw [declarations]
  cases Rule.ofLine line <;> simp [Except.map]

theorem declarations_transitions_eq_ok_iff :
    declarations .transitions line = .ok (part, xs) ↔
      ∃ r : Rule, r.IsWritten line ∧ part = .transitions ∧ xs = [r.declaration] := by
  simp only [← Rule.ofLine_eq_ok_iff, declarations]
  cases Rule.ofLine line <;> simp [Except.map, eq_comm]

/-- Transition lines stand for one transition each. -/
theorem declares_transitions_iff :
    Declares .transitions lines part xs ↔
      part = .transitions ∧
        ∃ rules, List.Forall₂ Rule.IsWritten rules lines ∧ xs = rules.map Rule.declaration := by
  induction lines generalizing xs with
  | nil =>
    constructor
    · rintro ⟨⟩
      exact ⟨rfl, [], .nil, rfl⟩
    · rintro ⟨rfl, rules, hrules, rfl⟩
      cases hrules
      exact .nil _
  | cons line lines ih =>
    constructor
    · intro h
      cases h with
      | cons hd hrest =>
        obtain ⟨r, hwritten, rfl, rfl⟩ := declarations_transitions_eq_ok_iff.1 hd
        obtain ⟨hpart, rules, hrules, rfl⟩ := ih.1 hrest
        exact ⟨hpart, r :: rules, .cons hwritten hrules, rfl⟩
    · rintro ⟨hpart, rules, hrules, rfl⟩
      cases hrules with
      | cons hwritten hrules =>
        exact .cons (declarations_transitions_eq_ok_iff.2 ⟨_, hwritten, rfl, rfl⟩)
          (ih.2 ⟨hpart, _, hrules, rfl⟩)

/-! A line of the header part, by its keyword. -/

theorem declarations_header_of_none (hk : keywordOf? line = none) :
    declarations .header line = .error .unrecognizedLine := by
  rw [declarations, Header.ofLine?_eq, hk]
  rfl

/-- The line that ends the header declares nothing. -/
theorem declarations_header_of_transitions (hk : keywordOf? line = some .transitions) :
    declarations .header line = .ok (.transitions, []) := by
  rw [declarations, Header.ofLine?_eq, hk]
  rfl

theorem declarations_header_of_some {k : Keyword} (hk : keywordOf? line = some k)
    (hne : k ≠ .transitions) :
    declarations .header line = .ok (.header, headerDeclarations line) := by
  rw [declarations, Header.ofLine?_eq, hk, headerDeclarations, hk]
  show Except.ok (if k = .transitions then Part.transitions else .header, _) = _
  rw [if_neg hne]

/-- A line of the header that can be read ends the header or declares what its keyword says. -/
theorem declarations_header_cases (h : declarations .header line = .ok (part, xs)) :
    (keywordOf? line = some .transitions ∧ part = .transitions ∧ xs = []) ∨
      ∃ k, keywordOf? line = some k ∧ k ≠ .transitions ∧ part = .header ∧
        xs = headerDeclarations line := by
  cases hk : keywordOf? line with
  | none =>
    rw [declarations_header_of_none hk] at h
    cases h
  | some k =>
    by_cases hend : k = .transitions
    · subst hend
      rw [declarations_header_of_transitions hk] at h
      cases h
      exact .inl ⟨rfl, rfl, rfl⟩
    · rw [declarations_header_of_some hk hend] at h
      cases h
      exact .inr ⟨k, rfl, hend, rfl, rfl⟩

/-- A line of the header that cannot be read is no header. -/
theorem declarations_header_eq_error {cause : Cause}
    (h : declarations .header line = .error cause) :
    keywordOf? line = none ∧ cause = .unrecognizedLine := by
  rw [declarations, Header.ofLine?_eq] at h
  cases hk : keywordOf? line with
  | none =>
    rw [hk] at h
    cases h
    exact ⟨rfl, rfl⟩
  | some k =>
    rw [hk] at h
    cases h

/-- The lines of a definition stand for what its headers declare, followed by one transition for
    each rule.  Induction on the lines; the line that ends the header leaves the rest to
    `declares_transitions_iff`. -/
theorem declares_header_iff :
    (∃ part, Declares .header lines part xs) ↔
      (∀ line ∈ headerPart lines, ∃ k, keywordOf? line = some k) ∧
        ∃ rules, List.Forall₂ Rule.IsWritten rules (rulePart lines) ∧
          xs = declarationsOf (headerPart lines) rules := by
  induction lines generalizing xs with
  | nil =>
    constructor
    · rintro ⟨part, ⟨⟩⟩
      exact ⟨by simp [headerPart], [], .nil, rfl⟩
    · rintro ⟨-, rules, hrules, rfl⟩
      cases hrules
      exact ⟨.header, .nil _⟩
  | cons line lines ih =>
    cases hk : keywordOf? line with
    | none =>
      have hd := declarations_header_of_none hk
      rw [headerPart_cons_of_ne (by simp [hk])]
      constructor
      · rintro ⟨part, hdeclares⟩
        exact absurd hdeclares (not_declares_cons hd)
      · rintro ⟨hheaders, -⟩
        obtain ⟨k, hk'⟩ := hheaders line List.mem_cons_self
        rw [hk] at hk'
        cases hk'
    | some k =>
      by_cases hend : k = .transitions
      · subst hend
        have hd := declarations_header_of_transitions hk
        rw [headerPart_cons_of_eq hk, rulePart_cons_of_eq hk]
        simp only [declares_cons_iff hd, declares_transitions_iff]
        constructor
        · rintro ⟨part, ys, ⟨-, rules, hrules, rfl⟩, rfl⟩
          exact ⟨by simp, rules, hrules, rfl⟩
        · rintro ⟨-, rules, hrules, rfl⟩
          exact ⟨.transitions, _, ⟨rfl, rules, hrules, rfl⟩, rfl⟩
      · have hd := declarations_header_of_some hk hend
        have hne : keywordOf? line ≠ some .transitions := fun h =>
          hend (Option.some.inj (hk.symm.trans h))
        rw [headerPart_cons_of_ne hne, rulePart_cons_of_ne hne, List.forall_mem_cons]
        simp only [declares_cons_iff hd, declarationsOf_cons]
        constructor
        · rintro ⟨part, ys, hrest, rfl⟩
          obtain ⟨hheaders, rules, hrules, rfl⟩ := ih.1 ⟨part, hrest⟩
          exact ⟨⟨⟨k, hk⟩, hheaders⟩, rules, hrules, rfl⟩
        · rintro ⟨⟨-, hheaders⟩, rules, hrules, rfl⟩
          obtain ⟨part, hrest⟩ := ih.2 ⟨hheaders, rules, hrules, rfl⟩
          exact ⟨part, _, hrest, rfl⟩

end Parts

/-! ## The definition -/

variable {text : String} {d : Automaton}

/-- A text defines an automaton exactly when its lines can be read and the builder that they leave
    builds it. -/
theorem parse_eq_ok_iff_exists_reader :
    (parse text).value = .ok d ↔
      ∃ r, (Reader.readLines {} (significantLines text)).value = .ok r ∧
        r.builder.build = .ok d := by
  constructor
  · intro h
    unfold parse at h
    dsimp only at h
    split at h
    · cases h
    · rename_i r hr
      split at h
      · cases h
      · rename_i d' hd
        cases h
        exact ⟨r, hr, hd⟩
  · rintro ⟨r, hr, hd⟩
    unfold parse
    dsimp only
    rw [hr]
    dsimp only
    rw [hd]

/-- A text defines an automaton exactly when its header lines are headers, its transition lines
    write rules, and a builder that is told what they declare builds the automaton. -/
theorem parse_eq_ok_iff :
    (parse text).value = .ok d ↔
      (∀ line ∈ headerLines text, ∃ k, keywordOf? line = some k) ∧
        ∃ rules answers b, List.Forall₂ Rule.IsWritten rules (ruleLines text) ∧
          ({} : Builder).declareAll (declarationsOf (headerLines text) rules) = .ok (answers, b) ∧
            b.build = .ok d := by
  have hread : ∀ r, (Reader.readLines {} (significantLines text)).value = .ok r ↔ _ :=
    fun r => Reader.readLines_eq_ok_iff
  rw [map_text_significantLines] at hread
  rw [parse_eq_ok_iff_exists_reader]
  constructor
  · rintro ⟨r, hr, hd⟩
    obtain ⟨xs, answers, hlines, hxs⟩ := (hread r).1 hr
    obtain ⟨hheaders, rules, hrules, rfl⟩ := declares_header_iff.1 ⟨_, hlines⟩
    exact ⟨hheaders, rules, answers, r.builder, hrules, hxs, hd⟩
  · rintro ⟨hheaders, rules, answers, b, hrules, hxs, hd⟩
    obtain ⟨part, hlines⟩ := declares_header_iff.2 ⟨hheaders, rules, hrules, rfl⟩
    exact ⟨{ part, builder := b }, (hread _).2 ⟨_, answers, hlines, hxs⟩, hd⟩

end Acceptor.Definition
