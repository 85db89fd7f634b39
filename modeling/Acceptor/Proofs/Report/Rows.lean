/-
  The rows of a report.

  A text of inputs is cut into rows at newlines, and nowhere else.  A run ends at a newline or at a
  carriage return.  So there may be a carriage return between the ends of a row, and then the
  report shows all of the row, while the run sees only what stands in front.

  1. **Candidates by line** — whether a line is an input does not depend on the other lines
     (`candidates_eq_flatMap`).

  2. **Symbols** — behind characters that do not end the input, it goes on (`symbols_append`), and
     inputs with the same symbols have the same verdict (`verdict_run_congr`).

  3. **Rows** — `Row.IsJudgedBy`: a character outside the alphabet is fatal, unless there is a
     carriage return in front of it.  Main result: `isJudgedBy_of_mem_evaluate`.
-/
import Acceptor.Proofs.Definition.Reading
import Acceptor.Proofs.Run.Continuation
import Acceptor.Proofs.Run.Visit
import Acceptor.Proofs.Text.Trim
import Acceptor.Report

namespace Acceptor

/-! ## Candidates by line -/

/-- The inputs on a line: the line without the blanks at its ends, or none. -/
def candidatesOn (line : List Char) : List String :=
  if Text.isRemark (Text.trim line) then [] else [String.ofList (Text.trim line)]

theorem candidates_eq_flatMap (inputs : String) :
    candidates inputs = (Text.lines inputs.toList).flatMap candidatesOn := by
  rw [candidates]
  induction Text.lines inputs.toList with
  | nil => rfl
  | cons line ls ih =>
    rw [List.map_cons, List.flatMap_cons, ← ih, candidatesOn, List.filter_cons]
    cases Text.isRemark (Text.trim line) <;> rfl

/-- A text of one line has the inputs on this line. -/
theorem candidates_of_not_mem {line : List Char} (h : '\n' ∉ line) :
    candidates (String.ofList line) = candidatesOn line := by
  rw [candidates_eq_flatMap, String.toList_ofList]
  by_cases hnil : line = []
  · subst hnil
    rfl
  · rw [show Text.lines line = [line] from Text.cut_of_not_mem h hnil, List.flatMap_singleton]

/-- An input stands on one line. -/
theorem newline_not_mem_of_mem_candidates {inputs t : String} (h : t ∈ candidates inputs) :
    '\n' ∉ t.toList := by
  rw [candidates_eq_flatMap] at h
  obtain ⟨line, hline, ht⟩ := List.mem_flatMap.1 h
  rw [candidatesOn] at ht
  split at ht
  · cases ht
  · obtain rfl := List.mem_singleton.1 ht
    rw [String.toList_ofList]
    exact fun hmem => Text.not_mem_of_mem_cut hline ((Text.trim_sublist line).subset hmem)

/-! ## Symbols -/

/-- Behind characters that do not end the input, it goes on. -/
theorem symbols_append {before : List Char} (h : ∀ c ∈ before, endsInput c = false)
    (rest : List Char) : symbols (before ++ rest) = symbols before ++ symbols rest := by
  rw [← map_fst_symbolsFrom 0, symbolsFrom_append h, List.map_append, map_fst_symbolsFrom,
    map_fst_symbolsFrom]

namespace Automaton

variable {d : Automaton}

theorem verdict_run_congr {input input' : String}
    (h : symbols input.toList = symbols input'.toList) :
    (d.run input).verdict = (d.run input').verdict := by
  have hiff : (d.run input).verdict = .accepted ↔ (d.run input').verdict = .accepted := by
    rw [verdict_run_eq_accepted_iff, verdict_run_eq_accepted_iff, h]
  cases hv : (d.run input).verdict with
  | accepted => exact (hiff.1 hv).symm
  | rejected =>
    cases hv' : (d.run input').verdict with
    | accepted => rw [← hv, hiff.2 hv']
    | rejected => rfl

end Automaton

/-! ## Rows -/

/-- What the verdict of a row is taken from. -/
structure Row.IsJudgedBy (r : Row) (d : Automaton) : Prop where
  /-- A character that is neither blank nor in the alphabet is fatal if there is no carriage return
      in front of it. -/
  foreign : ∀ before c behind, r.text.toList = before ++ c :: behind → '\r' ∉ before →
    Text.isBlank c = false → c ∉ d.alphabet → r.verdict = .rejected
  /-- What stands behind the first carriage return does not matter. -/
  front : ∀ before behind, r.text.toList = before ++ '\r' :: behind → '\r' ∉ before →
    r.verdict = (d.run (String.ofList before)).verdict

theorem isJudgedBy_judge {text : String} (h : '\n' ∉ text.toList) (d : Automaton) :
    (d.judge text).IsJudgedBy d where
  foreign before c behind htext hreturn hblank hc := by
    change text.toList = _ at htext
    have hnewline : '\n' ∉ before := fun hmem => h (htext ▸ List.mem_append_left _ hmem)
    have hend : endsInput c ≠ true := fun hend => by
      rw [isBlank_of_endsInput hend] at hblank
      cases hblank
    have hmem : c ∈ symbols text.toList := by
      rw [htext, symbols_append (endsInput_eq_false hnewline hreturn), symbols_cons, if_neg hend,
        if_neg (by rw [hblank]; exact Bool.false_ne_true)]
      exact List.mem_append_right _ List.mem_cons_self
    show (d.run text).verdict = .rejected
    cases hv : (d.run text).verdict with
    | accepted => exact absurd ((Automaton.verdict_run_eq_accepted_iff.1 hv).1 c hmem) hc
    | rejected => rfl
  front before behind htext hreturn := by
    change text.toList = _ at htext
    have hnewline : '\n' ∉ before := fun hmem => h (htext ▸ List.mem_append_left _ hmem)
    apply Automaton.verdict_run_congr
    rw [htext, symbols_append (endsInput_eq_false hnewline hreturn), symbols_cons,
      if_pos (by decide), List.append_nil, String.toList_ofList]

/-- **A character outside the alphabet is fatal**, in every row and in every place in front of the
    first carriage return of the row. -/
theorem isJudgedBy_of_mem_evaluate {d : Automaton} {inputs : String} {r : Row}
    (h : r ∈ (d.evaluate inputs).value) : r.IsJudgedBy d := by
  obtain ⟨text, htext, rfl⟩ := List.mem_map.1 h
  exact isJudgedBy_judge (newline_not_mem_of_mem_candidates htext) d

/-- A definition with the symbols `0` and `1`; the words that are accepted are `1` alone. -/
def onlyOne : String := "states: A,B\nalphabet: 0,1\nstart: A\naccept: B\ntransitions:\nA,1->B\n"

/-- The row is rejected for the `z` in front of the carriage return. -/
theorem foreign_in_front :
    (⟨"1\u00a0z\r1", .rejected⟩ : Row) ∈
        ((⟨⟨["A", "B"], ['0', '1'], [1], [((0, '1'), 1)]⟩, 0⟩ : Automaton).evaluate
          "1\n 1\u00a0z\r1 \r\n").value ∧
      Row.IsJudgedBy ⟨"1\u00a0z\r1", .rejected⟩
        ⟨⟨["A", "B"], ['0', '1'], [1], [((0, '1'), 1)]⟩, 0⟩ := by
  have hmem : (⟨"1\u00a0z\r1", .rejected⟩ : Row) ∈
      ((⟨⟨["A", "B"], ['0', '1'], [1], [((0, '1'), 1)]⟩, 0⟩ : Automaton).evaluate
        "1\n 1\u00a0z\r1 \r\n").value := by decide +kernel
  exact ⟨hmem, isJudgedBy_of_mem_evaluate hmem⟩

/-- Behind a carriage return a character outside the alphabet is shown in the row and does no
    harm. -/
theorem foreign_behind_return :
    ∃ d, (Definition.parse onlyOne).value = .ok d ∧
      ∃ r ∈ (d.evaluate "1\rz\n").value,
        'z' ∈ r.text.toList ∧ Text.isBlank 'z' = false ∧ 'z' ∉ d.alphabet ∧
          r.verdict = .accepted := by
  refine ⟨⟨⟨["A", "B"], ['0', '1'], [1], [((0, '1'), 1)]⟩, 0⟩, by decide +kernel,
    ⟨"1\rz", .accepted⟩, by decide +kernel, by decide, by decide, by decide, rfl⟩

end Acceptor
