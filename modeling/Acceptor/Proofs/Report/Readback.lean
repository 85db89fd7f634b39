/-
  A report can be read back.

  Every line of a report ends with a colon, a blank and a word of eight letters.  An input may hold
  all of this itself, and carriage returns and other characters of control besides.  But it holds no
  newline, and the end of a line is always ten characters long: what is left when they are taken
  away is the input, and what was taken away is the verdict.

  1. **Rows** — from its line, a row is known (`Row.line_injective`).

  2. **Reports** — the lines of a report are those of the rows (`lines_report`).

  3. **Reading back** — `Automaton.IsReport`: what the lines of a report are and what can be told
     from them.  Main result: `isReport_report`.
-/
import Acceptor.Proofs.Report.Rows
import Acceptor.Proofs.Text.Lines
import Mathlib.Data.List.DropRight

namespace Acceptor

/-! ## Rows -/

namespace Verdict

/-- The verdict as it stands behind an input. -/
def ending (v : Verdict) : List Char := ':' :: ' ' :: v.text.toList

/-- Both verdicts are words of eight letters. -/
@[simp] theorem length_ending (v : Verdict) : v.ending.length = 10 := by
  cases v <;> decide

theorem ending_injective {v v' : Verdict} (h : v.ending = v'.ending) : v = v' := by
  revert h
  cases v <;> cases v' <;> decide

theorem getLast?_ending (v : Verdict) : v.ending.getLast? = some 'D' := by
  cases v <;> decide

theorem newline_not_mem_ending (v : Verdict) : '\n' ∉ v.ending := by
  cases v <;> decide

end Verdict

namespace Row

variable {r r' : Row}

theorem toList_line (r : Row) : r.line.toList = r.text.toList ++ r.verdict.ending := by
  rw [line, String.toList_append, String.toList_append, List.append_assoc]
  rfl

/-- Without the last ten characters, the input is left. -/
theorem rdrop_line (r : Row) : r.line.toList.rdrop 10 = r.text.toList := by
  rw [toList_line, List.rdrop, List.length_append, Verdict.length_ending, Nat.add_sub_cancel,
    List.take_left]

theorem line_injective (h : r.line.toList = r'.line.toList) : r = r' := by
  obtain ⟨text, verdict⟩ := r
  obtain ⟨text', verdict'⟩ := r'
  rw [toList_line, toList_line] at h
  obtain ⟨htext, hverdict⟩ := List.append_inj' h (by simp)
  exact congrArg₂ Row.mk (String.toList_inj.1 htext) (Verdict.ending_injective hverdict)

theorem newline_not_mem_line (h : '\n' ∉ r.text.toList) : '\n' ∉ r.line.toList := by
  rw [toList_line, List.mem_append, not_or]
  exact ⟨h, r.verdict.newline_not_mem_ending⟩

end Row

/-! ## Reports -/

variable {d d' : Automaton} {definition inputs inputs' : String}

/-- Each row has a line of its own. -/
theorem lines_report (d : Automaton) (inputs : String) :
    Text.lines (d.report inputs).toList =
      (d.evaluate inputs).value.map fun r => r.line.toList := by
  have hreport : d.report inputs =
      String.join (((d.evaluate inputs).value.map Row.line).map fun t => t ++ "\n") := by
    rw [List.map_map]
    rfl
  rw [hreport, Text.lines_join, List.map_map]
  · rfl
  · intro t ht
    obtain ⟨r, hr, rfl⟩ := List.mem_map.1 ht
    obtain ⟨text, htext, rfl⟩ := List.mem_map.1 hr
    exact Row.newline_not_mem_line (newline_not_mem_of_mem_candidates htext)

/-- The rows show the candidates. -/
theorem map_text_evaluate (d : Automaton) (inputs : String) :
    (d.evaluate inputs).value.map Row.text = candidates inputs := by
  show ((candidates inputs).map d.judge).map Row.text = _
  rw [List.map_map]
  exact List.map_id _

/-- Equal reports have equal rows, whatever they are made from. -/
theorem evaluate_eq_of_report_eq (h : d.report inputs = d'.report inputs') :
    (d.evaluate inputs).value = (d'.evaluate inputs').value := by
  have hlines := lines_report d inputs
  rw [h, lines_report] at hlines
  exact ((List.map_inj_right fun _ _ => Row.line_injective).1 hlines).symm

/-! ## Reading back -/

/-- The text is the report of an automaton on the inputs, and says what these were. -/
structure Automaton.IsReport (d : Automaton) (inputs text : String) : Prop where
  /-- Each candidate has its line, in which its verdict follows it. -/
  lines : Text.lines text.toList = (candidates inputs).map fun t =>
    t.toList ++ ": ".toList ++ (if d.accepts t then "ACCEPTED".toList else "REJECTED".toList)
  /-- No line ends with a carriage return, which could be taken for a part of the newline. -/
  ends : ∀ line ∈ Text.lines text.toList, line.getLast? ≠ some '\r'
  /-- Without the last ten characters of each line, the candidates are left. -/
  readBack : (Text.lines text.toList).map (fun line => String.ofList (line.rdrop 10)) =
    candidates inputs
  /-- A report with the same text has the same candidates and the same verdicts. -/
  unique : ∀ definition' inputs', Acceptor.report definition' inputs' = .ok text →
    candidates inputs' = candidates inputs ∧
      ∃ d', (Definition.parse definition').value = .ok d' ∧
        (d'.evaluate inputs').value = (d.evaluate inputs).value

theorem toList_line_judge (d : Automaton) (t : String) :
    (d.judge t).line.toList = t.toList ++ ": ".toList ++
      (if d.accepts t then "ACCEPTED".toList else "REJECTED".toList) := by
  rw [Row.toList_line, List.append_assoc, Automaton.accepts]
  show t.toList ++ (d.run t).verdict.ending = _
  cases (d.run t).verdict <;> rfl

/-- **A report can be read back**: its lines are the candidates with their verdicts, and no other
    candidates or verdicts give the same report. -/
theorem isReport_report (h : (Definition.parse definition).value = .ok d) (inputs : String) :
    ∃ text, report definition inputs = .ok text ∧ d.IsReport inputs text := by
  refine ⟨d.report inputs, by rw [report, h]; rfl, ?_, ?_, ?_, ?_⟩
  · rw [lines_report]
    show ((candidates inputs).map d.judge).map _ = _
    rw [List.map_map]
    exact List.map_congr_left fun t _ => toList_line_judge d t
  · intro line hline
    rw [lines_report] at hline
    obtain ⟨r, -, rfl⟩ := List.mem_map.1 hline
    rw [Row.toList_line, List.getLast?_append, Verdict.getLast?_ending, Option.some_or]
    decide
  · rw [lines_report, List.map_map, ← map_text_evaluate d inputs]
    apply List.map_congr_left
    intro r _
    show String.ofList (r.line.toList.rdrop 10) = _
    rw [Row.rdrop_line, String.ofList_toList]
  · intro definition' inputs' htext
    rw [report] at htext
    cases hparse : (Definition.parse definition').value with
    | error e =>
      rw [hparse] at htext
      cases htext
    | ok d' =>
      rw [hparse] at htext
      have hrows := evaluate_eq_of_report_eq (Except.ok.inj htext)
      refine ⟨?_, d', rfl, hrows⟩
      rw [← map_text_evaluate d', ← map_text_evaluate d, hrows]

/-- The inputs look like rows themselves, and one of them holds a carriage return. -/
theorem isReport_of_rows :
    (Definition.parse onlyOne).value = .ok ⟨⟨["A", "B"], ['0', '1'], [1], [((0, '1'), 1)]⟩, 0⟩ ∧
      ∃ text, report onlyOne "1: ACCEPTED\r\n1\r: REJECTED\n: \n" = .ok text ∧
        Automaton.IsReport ⟨⟨["A", "B"], ['0', '1'], [1], [((0, '1'), 1)]⟩, 0⟩
          "1: ACCEPTED\r\n1\r: REJECTED\n: \n" text := by
  have hparse : (Definition.parse onlyOne).value =
      .ok ⟨⟨["A", "B"], ['0', '1'], [1], [((0, '1'), 1)]⟩, 0⟩ := by decide +kernel
  exact ⟨hparse, isReport_report hparse _⟩

end Acceptor
