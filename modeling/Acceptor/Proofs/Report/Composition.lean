/-
  Batches that are put together.

  A text of inputs is judged line by line, and no line knows of another.  So texts can be put one
  below the other, and their rows are put one below the other as well.  The newline between them
  is not always the end of a line: behind a text that ends with a newline it makes an empty line.
  But an empty line is no input, and neither is a carriage return at the end of a line a part of
  one.

  1. **Texts one below the other** — two texts first (`candidates_append`), and then any number of
     them, by induction (`candidates_intercalate`).

  2. **Tidy texts** — `tidy t` has the inputs of `t` on its lines, and nothing else.  It has the same
     inputs, for an input is its own only input (`candidates_of_mem_candidates`).

  3. **Carriage returns** — one in front of each newline makes no difference
     (`candidates_withReturns`).

  Main result: `batches_compose`.
-/
import Acceptor.Proofs.Definition.Relaid
import Acceptor.Proofs.Report.Rows

namespace Acceptor

variable {inputs text : String}

/-! ## Texts one below the other -/

/-- There is no input on an empty line. -/
theorem candidatesOn_nil : candidatesOn [] = [] := rfl

theorem candidates_append (a b : String) :
    candidates (a ++ "\n" ++ b) = candidates a ++ candidates b := by
  have hjoined : (a ++ "\n" ++ b).toList = a.toList ++ '\n' :: b.toList := by
    rw [String.toList_append, String.toList_append, List.append_assoc]
    rfl
  rw [candidates_eq_flatMap, candidates_eq_flatMap, candidates_eq_flatMap, hjoined]
  exact Text.flatMap_lines_append candidatesOn_nil a.toList b.toList

/-- Any number of texts, by induction: each of them is put in front of those below it. -/
theorem candidates_intercalate (texts : List String) :
    candidates ("\n".intercalate texts) = texts.flatMap candidates := by
  induction texts with
  | nil => rfl
  | cons t texts ih =>
    cases texts with
    | nil => rw [String.intercalate_singleton, List.flatMap_singleton]
    | cons next texts =>
      rw [String.intercalate_cons_cons, candidates_append, ih]
      exact List.flatMap_cons.symm

/-! ## Tidy texts -/

/-- The inputs of a text, each on a line of its own. -/
def tidy (inputs : String) : String := "\n".intercalate (candidates inputs)

/-- An input is its own only input. -/
theorem candidates_of_mem_candidates (h : text ∈ candidates inputs) : candidates text = [text] := by
  have hnewline := newline_not_mem_of_mem_candidates h
  rw [candidates_eq_flatMap] at h
  obtain ⟨line, -, htext⟩ := List.mem_flatMap.1 h
  rw [candidatesOn] at htext
  split at htext
  · cases htext
  · rename_i hremark
    obtain rfl := List.mem_singleton.1 htext
    rw [String.toList_ofList] at hnewline
    -- what was trimmed stays as it is, and is no remark
    rw [candidates_of_not_mem hnewline, candidatesOn, Text.trim_eq_self (Text.isTrimmed_trim line),
      if_neg hremark]

/-- A tidy text has the same inputs. -/
theorem candidates_tidy (inputs : String) : candidates (tidy inputs) = candidates inputs := by
  have hself : ∀ t ∈ candidates inputs, candidates t = [t] := fun _ ht =>
    candidates_of_mem_candidates ht
  rw [tidy, candidates_intercalate, List.flatMap_congr hself, List.flatMap_singleton']

/-! ## Carriage returns -/

theorem candidatesOn_carriageReturn (line : List Char) :
    candidatesOn (line ++ ['\r']) = candidatesOn line := by
  rw [candidatesOn, candidatesOn, Definition.trim_append_carriageReturn]

/-- Induction on the lines of the text: each of them gets a carriage return at its end. -/
theorem flatMap_lines_withReturns (s : List Char) :
    (Text.lines (Definition.withReturns s)).flatMap candidatesOn =
      (Text.lines s).flatMap candidatesOn := by
  obtain ⟨ls, hls⟩ := Text.exists_areLines '\n' s
  induction hls with
  | none => rfl
  | last hne hline => rw [Definition.withReturns_of_not_mem hline]
  | cons hline hrest ih =>
    rw [Definition.withReturns_line hline,
      Text.lines_append_newline (Definition.newline_not_mem_return hline),
      Text.lines_append_newline hline, List.flatMap_cons, List.flatMap_cons, ih,
      candidatesOn_carriageReturn]

theorem candidates_withReturns (inputs : String) :
    candidates (String.ofList (Definition.withReturns inputs.toList)) = candidates inputs := by
  rw [candidates_eq_flatMap, candidates_eq_flatMap, String.toList_ofList,
    flatMap_lines_withReturns]

/-! ## The main result -/

namespace Automaton

/-- Texts with the same inputs have the same rows. -/
theorem evaluate_congr (d : Automaton) {inputs inputs' : String}
    (h : candidates inputs = candidates inputs') : d.evaluate inputs = d.evaluate inputs' := by
  rw [evaluate, evaluate, h]

/-- The rows of an automaton come from the lines of a text one by one. -/
structure Composes (d : Automaton) : Prop where
  /-- A text below another has its rows below those of the other, and they are noted in this
      order. -/
  joined : ∀ a b, d.evaluate (a ++ "\n" ++ b) =
    { log := (d.evaluate a).log ++ (d.evaluate b).log
      value := (d.evaluate a).value ++ (d.evaluate b).value }
  /-- So the reports can be put together instead of the texts. -/
  report : ∀ a b, d.report (a ++ "\n" ++ b) = d.report a ++ d.report b
  /-- Nothing but the inputs counts. -/
  tidied : ∀ t, d.evaluate (tidy t) = d.evaluate t
  /-- It does not matter whether a carriage return stands in front of each newline. -/
  returns : ∀ t, d.evaluate (String.ofList (Definition.withReturns t.toList)) = d.evaluate t

theorem evaluate_append (d : Automaton) (a b : String) :
    d.evaluate (a ++ "\n" ++ b) =
      { log := (d.evaluate a).log ++ (d.evaluate b).log
        value := (d.evaluate a).value ++ (d.evaluate b).value } := by
  simp only [evaluate, candidates_append, List.map_append]

theorem report_append (d : Automaton) (a b : String) :
    d.report (a ++ "\n" ++ b) = d.report a ++ d.report b := by
  rw [report, evaluate_append, List.map_append, String.join_append]
  rfl

end Automaton

/-- **Batches compose.**  A text of inputs may be cut at any newline and judged in parts, brought
    into a tidy form, or given other ends of lines; and a definition that cannot be read fails on
    the parts as it does on the whole. -/
theorem batches_compose :
    (∀ d : Automaton, d.Composes) ∧ (∀ t, candidates (tidy t) = candidates t) ∧
      ∀ definition a b, report definition (a ++ "\n" ++ b) = do
        let above ← report definition a
        let below ← report definition b
        return above ++ below := by
  refine ⟨?_, candidates_tidy, ?_⟩
  · intro d
    exact ⟨d.evaluate_append, d.report_append, fun t => d.evaluate_congr (candidates_tidy t),
      fun t => d.evaluate_congr (candidates_withReturns t)⟩
  · intro definition a b
    simp only [report]
    cases (Definition.parse definition).value with
    | error e => rfl
    | ok d => exact congrArg Except.ok (d.report_append a b)

/-- A newline at the end of the first text makes an empty line, a comment has no row, and a carriage
    return at the end of a line is not shown. -/
example : candidates ("1\r\n# none\n" ++ "\n" ++ " 0\n") = ["1", "0"] ∧
    tidy "1\r\n# none\n\n 0\n" = "1\n0" := by decide +kernel

end Acceptor
