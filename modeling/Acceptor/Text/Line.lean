/-
  Lines and remarks.

  A text is cut at one terminator, and what stands behind the last terminator is a line only if it
  is not empty: a text that ends with a terminator has no empty line behind it.  The same cut
  serves characters, where the terminator is the newline, and bytes, where it is 0x0A.

  A carriage return before the newline stays in its line.  Every reader of this library trims its
  lines, and a carriage return is blank, so it never shows.

  1. **Cutting** — `cut` for any terminator, `lines` for the newline.

  2. **Remarks** — `isRemark`: a line that is blank or whose first character that is not blank is
     `#`.  Definitions and inputs both pass over remarks.
-/
import Acceptor.Text.Blank

namespace Acceptor.Text

/-! ## Cutting at a terminator -/

/-- The pieces of a list that end at each `stop`, without it; a last piece that no `stop` ends
    counts unless it is empty. -/
def cut {α : Type} [DecidableEq α] (stop : α) : List α → List (List α)
  | [] => []
  | a :: rest =>
    if a = stop then [] :: cut stop rest
    else match cut stop rest with
      | [] => [[a]]
      | piece :: pieces => (a :: piece) :: pieces

/-- The lines of a text. -/
def lines (s : List Char) : List (List Char) := cut '\n' s

/-! `cut` is pinned by what it does at a terminator and at the end of the list. -/

section Cut

variable {α : Type} [DecidableEq α] {stop : α}

@[simp] theorem cut_nil : cut stop [] = [] := rfl

@[simp] theorem cut_stop (rest : List α) : cut stop (stop :: rest) = [] :: cut stop rest := by
  simp [cut]

/-- A piece that a terminator ends is cut off, and the rest is cut on its own. -/
theorem cut_append_stop {piece : List α} (h : stop ∉ piece) (rest : List α) :
    cut stop (piece ++ stop :: rest) = piece :: cut stop rest := by
  induction piece with
  | nil => simp
  | cons a piece ih =>
    have ha : a ≠ stop := fun e => h (e ▸ List.mem_cons_self)
    have hp : stop ∉ piece := fun m => h (List.mem_cons_of_mem a m)
    simp [cut, ha, ih hp]

/-- A list without the terminator is one piece, unless it is empty. -/
theorem cut_of_not_mem {piece : List α} (h : stop ∉ piece) (hne : piece ≠ []) :
    cut stop piece = [piece] := by
  induction piece with
  | nil => exact absurd rfl hne
  | cons a piece ih =>
    have ha : a ≠ stop := fun e => h (e ▸ List.mem_cons_self)
    have hp : stop ∉ piece := fun m => h (List.mem_cons_of_mem a m)
    cases piece with
    | nil => simp [cut, ha]
    | cons b piece => rw [cut, if_neg ha, ih hp (by simp)]

/-- No piece holds the terminator. -/
theorem not_mem_of_mem_cut {s piece : List α} (h : piece ∈ cut stop s) : stop ∉ piece := by
  induction s generalizing piece with
  | nil => simp at h
  | cons a rest ih =>
    by_cases ha : a = stop
    · subst ha
      rcases List.mem_cons.1 (by simpa using h) with rfl | h
      · simp
      · exact ih h
    · rw [cut, if_neg ha] at h
      split at h
      · simp only [List.mem_singleton] at h
        subst h
        simpa using fun e => ha e.symm
      · rename_i first others hcut
        rw [hcut] at ih
        rcases List.mem_cons.1 h with rfl | h
        · have := ih (List.mem_cons_self)
          simpa [Ne.symm ha] using this
        · exact ih (List.mem_cons_of_mem _ h)

end Cut

/-! ## Remarks -/

/-- A line that is blank, or a comment: its first character that is not blank is `#`. -/
def isRemark (line : List Char) : Bool :=
  match trimStart line with
  | [] => true
  | c :: _ => c == '#'

end Acceptor.Text
