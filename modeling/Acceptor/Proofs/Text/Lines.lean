/-
  Texts put together from lines, and cut down to some of them.

  1. **Ends of lines** — behind a text that ends a line, the lines go on (`lines_append`); in any
     other text a newline ends the last line (`lines_append_end`).  Where empty lines do not count,
     a newline between two texts keeps their lines apart (`flatMap_lines_append`).

  2. **Writing lines** — lines that are written one after the other, each with a newline behind it,
     are the lines of what was written (`lines_flatMap`, `lines_join`); the last newline may be left
     out unless the last line is empty (`lines_intercalate`).

  3. **The first lines** — `firstLines k s` is the front of `s` up to the end of its `k`-th line,
     and its lines are the first `k` lines of `s` (`lines_firstLines`).
-/
import Acceptor.Proofs.Text.Bytes
import Acceptor.Proofs.Text.Split

namespace Acceptor.Text

variable {ls : List (List Char)} {s : List Char}

@[simp] theorem lines_nil : lines [] = [] := rfl

/-- A line with its newline comes off the front. -/
theorem lines_append_newline {line : List Char} (h : '\n' ∉ line) (rest : List Char) :
    lines (line ++ '\n' :: rest) = line :: lines rest := cut_append_stop h rest

/-- A last line needs no newline, unless it is empty. -/
theorem lines_of_not_mem {line : List Char} (h : '\n' ∉ line) (hne : line ≠ []) :
    lines line = [line] := cut_of_not_mem h hne

/-! ## Ends of lines -/

/-- A new line begins behind the text: it is empty, or it ends with a newline. -/
def EndsLine (s : List Char) : Prop := s = [] ∨ s.getLast? = some '\n'

instance (s : List Char) : Decidable (EndsLine s) := inferInstanceAs (Decidable (_ ∨ _))

/-- The end of a line of a text begins what is behind the line: a newline, perhaps with a carriage
    return in front of it, or nothing. -/
inductive LineEnd : List Char → Prop
  | none : LineEnd []
  | newline (rest : List Char) : LineEnd ('\n' :: rest)
  | carriageReturn (rest : List Char) : LineEnd ('\r' :: '\n' :: rest)

theorem EndsLine.of_append {s t : List Char} (h : EndsLine (s ++ t)) : EndsLine t := by
  cases t with
  | nil => exact .inl rfl
  | cons c t =>
    rcases h with hnil | hlast
    · exact absurd hnil (by simp)
    · rw [List.getLast?_append, List.getLast?_cons, Option.some_or, ← List.getLast?_cons] at hlast
      exact .inr hlast

/-- Behind a text that ends a line, the lines go on.  Induction on the lines of the text. -/
theorem lines_append {front : List Char} (h : EndsLine front) (s : List Char) :
    lines (front ++ s) = lines front ++ lines s := by
  obtain ⟨ls, hls⟩ := exists_areLines '\n' front
  induction hls with
  | none => rfl
  | last hne hline =>
    rcases h with hnil | hlast
    · exact absurd hnil hne
    · exact absurd (List.mem_of_getLast? hlast) hline
  | cons hline hrest ih =>
    rw [← List.singleton_append, ← List.append_assoc] at h
    have hends := ih h.of_append
    rw [List.append_assoc, List.cons_append, lines_append_newline hline,
      lines_append_newline hline, hends, List.cons_append]

theorem EndsLine.append_newline (h : EndsLine s) (line : List Char) :
    EndsLine (line ++ '\n' :: s) := by
  refine .inr ?_
  rw [List.getLast?_append, List.getLast?_cons]
  rcases h with rfl | hlast
  · rfl
  · rw [hlast]
    rfl

/-- A newline ends the last line of a text, unless this line has its end. -/
theorem lines_append_end (h : ¬ EndsLine s) : lines (s ++ ['\n']) = lines s := by
  obtain ⟨ls, hls⟩ := exists_areLines '\n' s
  induction hls with
  | none => exact absurd (.inl rfl) h
  | last hne hline => rw [lines_append_newline hline, lines_nil, lines_of_not_mem hline hne]
  | @cons line _ _ hline hrest ih =>
    have hends := ih fun hrest' => h (hrest'.append_newline line)
    rw [List.append_assoc, List.cons_append, lines_append_newline hline,
      lines_append_newline hline, hends]

/-- Where empty lines do not count, a newline keeps the lines of two texts apart, whether or not the
    first text ends a line itself. -/
theorem flatMap_lines_append {α : Type} {f : List Char → List α} (hf : f [] = [])
    (s t : List Char) :
    (lines (s ++ '\n' :: t)).flatMap f = (lines s).flatMap f ++ (lines t).flatMap f := by
  obtain ⟨ls, hls⟩ := exists_areLines '\n' s
  induction hls with
  | none =>
    rw [lines_append_newline List.not_mem_nil, List.flatMap_cons, hf]
    rfl
  | last hne hline =>
    rw [lines_append_newline hline, lines_of_not_mem hline hne, List.flatMap_cons,
      List.flatMap_singleton]
  | cons hline hrest ih =>
    rw [List.append_assoc, List.cons_append, lines_append_newline hline,
      lines_append_newline hline, List.flatMap_cons, List.flatMap_cons, ih, List.append_assoc]

/-! ## Writing lines -/

theorem lines_flatMap (h : ∀ line ∈ ls, '\n' ∉ line) :
    lines (ls.flatMap fun line => line ++ ['\n']) = ls := by
  induction ls with
  | nil => rfl
  | cons line ls ih =>
    rw [List.forall_mem_cons] at h
    rw [List.flatMap_cons, List.append_assoc, List.singleton_append, lines_append_newline h.1,
      ih h.2]

/-- Texts that are joined with a newline behind each of them. -/
theorem lines_join {texts : List String} (h : ∀ t ∈ texts, '\n' ∉ t.toList) :
    lines (String.join (texts.map fun t => t ++ "\n")).toList = texts.map String.toList := by
  have hjoin : (String.join (texts.map fun t => t ++ "\n")).toList =
      (texts.map String.toList).flatMap fun line => line ++ ['\n'] := by
    rw [String.toList_join, List.flatMap_map, List.flatMap_map]
    simp
  rw [hjoin]
  exact lines_flatMap (List.forall_mem_map.2 h)

theorem lines_intercalate (h : ∀ line ∈ ls, '\n' ∉ line) (hlast : ls.getLast? ≠ some []) :
    lines (['\n'].intercalate ls) = ls := by
  induction ls with
  | nil => rfl
  | cons line ls ih =>
    rw [List.forall_mem_cons] at h
    cases ls with
    | nil =>
      have hne : line ≠ [] := fun hnil => hlast (by rw [hnil]; rfl)
      rw [List.intercalate_singleton]
      exact lines_of_not_mem h.1 hne
    | cons next ls =>
      rw [List.getLast?_cons_cons] at hlast
      rw [List.intercalate_cons_cons, List.append_assoc, List.singleton_append,
        lines_append_newline h.1, ih h.2 hlast]

/-! ## The first lines -/

/-- The front of a text up to the end of its `k`-th line, or all of it if there are fewer. -/
def firstLines : Nat → List Char → List Char
  | 0, _ => []
  | k + 1, s =>
    match splitAround ['\n'] s with
    | some (line, rest) => line ++ '\n' :: firstLines k rest
    | none => s

theorem lines_firstLines (k : Nat) (s : List Char) : lines (firstLines k s) = (lines s).take k := by
  induction k generalizing s with
  | zero => rfl
  | succ k ih =>
    rw [firstLines]
    cases hsplit : splitAround ['\n'] s with
    | none =>
      -- without a newline there is one line at most
      have hone : '\n' ∉ s := splitAround_char_eq_none_iff.1 hsplit
      by_cases hnil : s = []
      · rw [hnil]
        rfl
      · have hline : lines s = [s] := lines_of_not_mem hone hnil
        show lines s = _
        rw [hline, List.take_succ_cons, List.take_nil]
    | some parts =>
      obtain ⟨rfl, hline⟩ := splitAround_char_iff.1 hsplit
      show lines (parts.1 ++ '\n' :: firstLines k parts.2) = _
      rw [lines_append_newline hline, lines_append_newline hline, ih, List.take_succ_cons]

end Acceptor.Text
