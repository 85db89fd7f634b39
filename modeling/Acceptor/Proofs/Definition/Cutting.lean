/-
  How a transition line is cut.

  The arrow of a transition is the first one of its line, and the comma is the first one in front of
  that arrow.  A symbol may be a dash or a `>`, so an arrow may stand right beside it: `A,-->B` is a
  step on `-`, and `A,>->B` one on `>`.

  1. **Marks in a target** — trimming leaves a mark inside a text where it is
     (`trim_append_mark`), so commas and arrows behind the first arrow belong to the target.

  2. **One cut** — a line is cut into three parts in one way at most (`IsCutInto.unique`).

  3. **Faults** — `Rule.Lacks line cause`: what a line that writes no rule is without.  It lacks one
     thing only, and that is the cause of the failure (`ofLine_eq_error_iff`).

  Main result: `cutsFirst_ofLine`.
-/
import Acceptor.Proofs.Definition.Layout
import Mathlib.Data.List.Basic

namespace Acceptor

namespace Text

/-! ## Marks in a target -/

variable {c : Char}

/-- Blanks in front of a text end where a character stands that is no blank. -/
theorem trimStart_append_cons (hc : isBlank c = false) (s t : List Char) :
    trimStart (s ++ c :: t) = trimStart s ++ c :: t := by
  rw [trimStart, trimStart, List.dropWhile_append]
  split
  · rename_i hall
    rw [List.isEmpty_iff] at hall
    rw [hall, List.nil_append]
    exact trimStart_cons_of_not_blank hc t
  · rfl

/-- So do the blanks at its end. -/
theorem trimEnd_append_cons (hc : isBlank c = false) (s t : List Char) :
    trimEnd (s ++ c :: t) = s ++ c :: trimEnd t := by
  have hrev : trimStart (t.reverse ++ c :: s.reverse) = trimStart t.reverse ++ c :: s.reverse :=
    trimStart_append_cons hc t.reverse s.reverse
  have hshape : (s ++ c :: t).reverse = t.reverse ++ c :: s.reverse := by simp
  rw [trimEnd, hshape]
  show (trimStart _).reverse = _
  rw [hrev]
  simp [trimEnd, trimStart]

/-- Trimming leaves a mark inside a text where it is. -/
theorem trim_append_mark {mark : List Char} (hne : mark ≠ [])
    (hmark : ∀ c ∈ mark, isBlank c = false) (s t : List Char) :
    trim (s ++ mark ++ t) = trimStart s ++ mark ++ trimEnd t := by
  obtain ⟨c, rest, rfl⟩ := List.exists_cons_of_ne_nil hne
  rw [List.forall_mem_cons] at hmark
  rw [List.append_assoc, List.append_assoc, List.cons_append, List.cons_append, trim,
    trimStart_append_cons hmark.1, trimEnd_append_cons hmark.1,
    trimEnd_append_of_not_blank hmark.2]

end Text

namespace Definition

variable {line source token target source' token' target' : List Char} {cause : Cause} {r : Rule}

/-! ## One cut -/

theorem IsCutInto.unique (h : IsCutInto line source token target)
    (h' : IsCutInto line source' token' target') :
    source = source' ∧ token = token' ∧ target = target' := by
  obtain ⟨hline, hcomma, harrow⟩ := h
  obtain ⟨hline', hcomma', harrow'⟩ := h'
  -- there is one first arrow, and one first comma in front of it
  have hsplit := Text.splitAround_arrow_iff.2 ⟨hline, harrow⟩
  rw [Text.splitAround_arrow_iff.2 ⟨hline', harrow'⟩, Option.some.injEq, Prod.mk.injEq] at hsplit
  obtain ⟨hleft, htarget⟩ := hsplit
  obtain ⟨hsource, htoken⟩ := Text.append_cons_inj_of_not_mem hcomma hcomma' hleft.symm
  exact ⟨hsource, htoken, htarget.symm⟩

/-- What is written on a line has the target that the cut gives. -/
theorem Rule.IsWritten.target_eq (h : r.IsWritten line)
    (hcut : IsCutInto line source token target) : r.target.toList = Text.trim target := by
  obtain ⟨source', token', target', hline, hcomma, harrow, -, -, htarget⟩ := h
  obtain ⟨-, -, rfl⟩ := IsCutInto.unique ⟨hline, hcomma, harrow⟩ hcut
  exact htarget.symm

/-! ## Faults -/

/-- What a line lacks that writes no rule. -/
inductive Rule.Lacks (line : List Char) : Cause → Prop
  /-- There is no arrow. -/
  | arrow : ¬ ['-', '>'] <:+: line → Lacks line .missingArrow
  /-- There is no comma in front of the first arrow. -/
  | comma {left target : List Char} : line = left ++ '-' :: '>' :: target →
      ¬ ['-', '>'] <:+: left → ',' ∉ left → Lacks line .missingComma
  /-- Between the first comma and the first arrow there is not one character, up to blanks. -/
  | symbol {source token target : List Char} : IsCutInto line source token target →
      (Text.trim token).length ≠ 1 → Lacks line (.symbolLength (String.ofList (Text.trim token)))

theorem Rule.ofLine_eq_error_iff : Rule.ofLine line = .error cause ↔ Rule.Lacks line cause := by
  constructor
  · intro h
    rcases cut_cases line with hnone | ⟨left, target, rfl, harrow, hcomma⟩ |
      ⟨source, token, target, hcut⟩
    · rw [Rule.ofLine_of_no_arrow hnone] at h
      cases h
      exact .arrow hnone
    · rw [Rule.ofLine_of_no_comma harrow hcomma] at h
      cases h
      exact .comma rfl harrow hcomma
    · rw [Rule.ofLine_of_isCutInto hcut] at h
      cases hsymbol : symbolOf (String.ofList (Text.trim token)) with
      | ok c =>
        rw [hsymbol] at h
        cases h
      | error cause' =>
        rw [hsymbol] at h
        cases h
        obtain ⟨hlength, rfl⟩ := symbolOf_eq_error_iff.1 hsymbol
        rw [String.toList_ofList] at hlength
        exact .symbol hcut hlength
  · rintro (hnone | ⟨rfl, harrow, hcomma⟩ | ⟨hcut, hlength⟩)
    · exact Rule.ofLine_of_no_arrow hnone
    · exact Rule.ofLine_of_no_comma harrow hcomma _
    · rw [Rule.ofLine_of_isCutInto hcut,
        symbolOf_eq_error_iff.2 ⟨by rwa [String.toList_ofList], rfl⟩]
      rfl

/-- A line that writes no rule lacks one thing, and no other. -/
theorem Rule.existsUnique_lacks_iff :
    (∃! cause, Rule.Lacks line cause) ↔ ∀ r : Rule, ¬ r.IsWritten line := by
  constructor
  · rintro ⟨cause, hcause, -⟩ r hr
    have hread := Rule.ofLine_eq_ok_iff.2 hr
    rw [Rule.ofLine_eq_error_iff.2 hcause] at hread
    cases hread
  · intro hnone
    cases h : Rule.ofLine line with
    | ok r => exact absurd (Rule.ofLine_eq_ok_iff.1 h) (hnone r)
    | error cause =>
      refine ⟨cause, Rule.ofLine_eq_error_iff.1 h, ?_⟩
      intro cause' hcause'
      rw [← Rule.ofLine_eq_error_iff, h] at hcause'
      cases hcause'
      rfl

/-! ## The main result -/

/-- A line is read as a transition by its first arrow and the first comma in front of it. -/
structure Rule.CutsFirst (line : List Char) : Prop where
  /-- A rule is read exactly when the line writes it. -/
  ok_iff : ∀ r : Rule, Rule.ofLine line = .ok r ↔
    ∃ source token target, IsCutInto line source token target ∧
      Text.trim source = r.source.toList ∧ Text.trim token = [r.symbol] ∧
      Text.trim target = r.target.toList
  /-- There is one way only to cut it. -/
  unique : ∀ source token target source' token' target', IsCutInto line source token target →
    IsCutInto line source' token' target' →
      source = source' ∧ token = token' ∧ target = target'
  /-- Behind the first arrow a comma or an arrow is a part of the target like any other. -/
  target : ∀ (r : Rule) (source token before mark behind : List Char),
    mark = [','] ∨ mark = ['-', '>'] → IsCutInto line source token (before ++ mark ++ behind) →
      Rule.ofLine line = .ok r →
        r.target.toList = Text.trimStart before ++ mark ++ Text.trimEnd behind
  /-- A failure tells what the line lacks. -/
  error_iff : ∀ cause, Rule.ofLine line = .error cause ↔ Rule.Lacks line cause
  /-- When there is no rule on it, the line lacks exactly one thing. -/
  oneLack : (∃! cause, Rule.Lacks line cause) ↔ ∀ r : Rule, Rule.ofLine line ≠ .ok r

/-- **A transition line is cut at its first arrow and at the first comma in front of it**, whatever
    stands on it. -/
theorem cutsFirst_ofLine (line : List Char) : Rule.CutsFirst line where
  ok_iff r := by
    rw [Rule.ofLine_eq_ok_iff]
    constructor
    · rintro ⟨source, token, target, hline, hcomma, harrow, hparts⟩
      exact ⟨source, token, target, ⟨hline, hcomma, harrow⟩, hparts⟩
    · rintro ⟨source, token, target, ⟨hline, hcomma, harrow⟩, hparts⟩
      exact ⟨source, token, target, hline, hcomma, harrow, hparts⟩
  unique _ _ _ _ _ _ h h' := h.unique h'
  target r source token before mark behind hmark hcut hr := by
    rw [(Rule.ofLine_eq_ok_iff.1 hr).target_eq hcut]
    have hcomma : ∀ c ∈ [','], Text.isBlank c = false := List.forall_mem_singleton.2 (by decide)
    have harrow : ∀ c ∈ ['-', '>'], Text.isBlank c = false :=
      List.forall_mem_cons.2 ⟨by decide, List.forall_mem_singleton.2 (by decide)⟩
    rcases hmark with rfl | rfl
    · exact Text.trim_append_mark (by decide) hcomma before behind
    · exact Text.trim_append_mark (by decide) harrow before behind
  error_iff _ := Rule.ofLine_eq_error_iff
  oneLack := by
    rw [Rule.existsUnique_lacks_iff]
    exact forall_congr' fun r => not_congr Rule.ofLine_eq_ok_iff.symm

/-- Transition lines with dashes, arrows and commas in unusual places. -/
def dashedLines : List (String × Except Cause Rule) :=
  [("A,-->B", .ok ⟨"A", '-', "B"⟩), ("A,>->B", .ok ⟨"A", '>', "B"⟩),
    (" A\t, 0 ->\u3000B,1->-> C ", .ok ⟨"A", '0', "B,1->-> C"⟩), ("- >,-->", .ok ⟨"- >", '-', ""⟩),
    ("A,0- >B", .error .missingArrow), ("A->B,0->C", .error .missingComma),
    ("A,0,1 -> B", .error (.symbolLength "0,1")), ("A,->B", .error (.symbolLength ""))]

theorem dashedLines_cutFirst :
    (∀ x ∈ dashedLines, Rule.ofLine x.1.toList = x.2) ∧
      (∀ x ∈ dashedLines, Rule.CutsFirst x.1.toList) ∧
      IsCutInto " A\t, 0 ->\u3000B,1->-> C ".toList " A\t".toList " 0 ".toList
        "\u3000B,1->-> C ".toList ∧
      "B,1->-> C".toList =
        Text.trimStart "\u3000B,1".toList ++ ['-', '>'] ++ Text.trimEnd "-> C ".toList := by
  have hread : ∀ x ∈ dashedLines, Rule.ofLine x.1.toList = x.2 := by decide +kernel
  have hcut : IsCutInto " A\t, 0 ->\u3000B,1->-> C ".toList " A\t".toList " 0 ".toList
      ("\u3000B,1".toList ++ ['-', '>'] ++ "-> C ".toList) := by
    unfold IsCutInto
    decide +kernel
  refine ⟨hread, fun x _ => cutsFirst_ofLine x.1.toList, hcut, ?_⟩
  exact (cutsFirst_ofLine _).target ⟨"A", '0', "B,1->-> C"⟩ _ _ _ _ _ (.inr rfl) hcut
    (hread (_, _) (by simp [dashedLines]))

end Definition

end Acceptor
