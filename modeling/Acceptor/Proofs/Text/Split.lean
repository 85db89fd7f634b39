/-
  Splitting at a mark is splitting at its first occurrence.

  `splitAround mark s` walks along `s` until `mark` begins.  So the part before the mark is the one
  with no earlier beginning of the mark in it (`splitAround_eq_some_iff`), and there is no answer
  exactly when the mark does not occur (`splitAround_eq_none_iff`).

  For the two kinds of marks that lines use, no beginning can reach from the part before into the
  mark itself, and the condition speaks of that part alone: a character does not occur in it
  (`splitAround_char_iff`), and an arrow does not occur in it (`splitAround_arrow_iff`).
-/
import Acceptor.Text.Split

namespace Acceptor.Text

variable {mark s before behind : List Char} {c : Char}

/-! ## Any mark -/

theorem splitAround_eq_some_iff :
    splitAround mark s = some (before, behind) ↔
      s = before ++ mark ++ behind ∧ ∀ i < before.length, ¬ mark <+: s.drop i := by
  induction s generalizing before with
  | nil =>
    rw [splitAround]
    constructor
    · intro h
      split at h
      · rename_i hmark
        cases h
        exact ⟨by rw [hmark]; rfl, by simp⟩
      · cases h
    · rintro ⟨h, -⟩
      have hnil : before = [] ∧ mark = [] ∧ behind = [] := by simpa [eq_comm] using h
      obtain ⟨rfl, rfl, rfl⟩ := hnil
      rfl
  | cons d rest ih =>
    rw [splitAround]
    by_cases hhere : mark <+: d :: rest
    · -- the mark begins here, so nothing stands before it
      rw [if_pos (List.isPrefixOf_iff_prefix.2 hhere)]
      obtain ⟨tail, htail⟩ := hhere
      have hdrop : (d :: rest).drop mark.length = tail := by rw [← htail, List.drop_left]
      rw [hdrop]
      constructor
      · rintro ⟨⟩
        exact ⟨htail.symm, by simp⟩
      · rintro ⟨hsplit, hfirst⟩
        cases before with
        | nil =>
          have : mark ++ tail = mark ++ behind := htail.trans hsplit
          rw [List.append_cancel_left this]
        | cons e before => exact absurd ⟨tail, htail⟩ (hfirst 0 (by simp))
    · rw [if_neg (fun h => hhere (List.isPrefixOf_iff_prefix.1 h))]
      constructor
      · intro h
        obtain ⟨⟨before', behind'⟩, hrest, heq⟩ := Option.map_eq_some_iff.1 h
        cases heq
        obtain ⟨hsplit, hfirst⟩ := ih.1 hrest
        refine ⟨by rw [List.cons_append, List.cons_append, ← hsplit], ?_⟩
        intro i hi
        cases i with
        | zero => exact hhere
        | succ i => exact hfirst i (Nat.lt_of_succ_lt_succ hi)
      · rintro ⟨hsplit, hfirst⟩
        cases before with
        | nil => exact absurd ⟨behind, hsplit.symm⟩ hhere
        | cons e before =>
          rw [List.cons_append, List.cons_append, List.cons_eq_cons] at hsplit
          obtain ⟨rfl, hsplit⟩ := hsplit
          have hrest : splitAround mark rest = some (before, behind) :=
            ih.2 ⟨hsplit, fun i hi => hfirst (i + 1) (Nat.succ_lt_succ hi)⟩
          rw [hrest]
          rfl

theorem splitAround_eq_none_iff : splitAround mark s = none ↔ ¬ mark <:+: s := by
  induction s with
  | nil =>
    rw [splitAround, List.infix_nil]
    split <;> simp_all
  | cons d rest ih =>
    rw [splitAround, List.infix_cons_iff, not_or]
    by_cases hhere : mark <+: d :: rest
    · rw [if_pos (List.isPrefixOf_iff_prefix.2 hhere)]
      simp [hhere]
    · rw [if_neg (fun h => hhere (List.isPrefixOf_iff_prefix.1 h)), Option.map_eq_none_iff, ih]
      simp [hhere]

/-! ## A character -/

theorem splitAround_char_iff :
    splitAround [c] s = some (before, behind) ↔ s = before ++ c :: behind ∧ c ∉ before := by
  rw [splitAround_eq_some_iff, List.append_assoc, List.singleton_append]
  refine and_congr_right fun hs => ?_
  subst hs
  constructor
  · intro hfirst hmem
    obtain ⟨u, v, rfl⟩ := List.append_of_mem hmem
    refine hfirst u.length (by simp) ⟨v ++ c :: behind, ?_⟩
    rw [List.append_assoc, List.drop_left]
    rfl
  · intro hmem i hi hbegins
    rw [List.drop_append_of_le_length (Nat.le_of_lt hi), List.drop_eq_getElem_cons hi] at hbegins
    have hc : c = before[i] := (List.cons_prefix_cons.1 hbegins).1
    exact hmem (hc ▸ List.getElem_mem hi)

theorem splitAround_char_eq_none_iff : splitAround [c] s = none ↔ c ∉ s := by
  rw [splitAround_eq_none_iff]
  refine not_congr ⟨?_, ?_⟩
  · intro hinfix
    exact hinfix.subset (List.mem_singleton_self c)
  · intro hmem
    obtain ⟨u, v, rfl⟩ := List.append_of_mem hmem
    exact ⟨u, v, by simp⟩

/-- A text comes apart at the first occurrence of a character in one way. -/
theorem append_cons_inj_of_not_mem {before' behind' : List Char} (h : c ∉ before)
    (h' : c ∉ before') (heq : before ++ c :: behind = before' ++ c :: behind') :
    before = before' ∧ behind = behind' := by
  have hsplit := splitAround_char_iff.2 ⟨heq, h'⟩
  rw [splitAround_char_iff.2 ⟨rfl, h⟩, Option.some.injEq, Prod.mk.injEq] at hsplit
  exact hsplit

/-! ## An arrow -/

/-- An arrow does not stand across a place in front of which it could only end, so it stands on one
    side of it. -/
theorem arrow_infix_append_cons_iff {a : Char} (ha : a ≠ '>') {t : List Char} :
    ['-', '>'] <:+: s ++ a :: t ↔ ['-', '>'] <:+: s ∨ ['-', '>'] <:+: a :: t := by
  induction s with
  | nil => simp
  | cons d rest ih =>
    -- where the arrow begins with `d`, its other character is the next one of `rest`
    have hhere : ['-', '>'] <+: d :: (rest ++ a :: t) ↔ ['-', '>'] <+: d :: rest := by
      rw [List.cons_prefix_cons, List.cons_prefix_cons]
      refine and_congr_right fun _ => ?_
      cases rest with
      | nil => simp [List.cons_prefix_cons, Ne.symm ha]
      | cons e rest => simp [List.cons_prefix_cons]
    rw [List.cons_append, List.infix_cons_iff, List.infix_cons_iff, hhere, ih, or_assoc]

/-- An arrow that begins in front of another one ends in front of it, for it does not end with the
    character with which it begins. -/
theorem splitAround_arrow_iff :
    splitAround ['-', '>'] s = some (before, behind) ↔
      s = before ++ '-' :: '>' :: behind ∧ ¬ ['-', '>'] <:+: before := by
  rw [splitAround_eq_some_iff]
  have hshape : before ++ ['-', '>'] ++ behind = before ++ '-' :: '>' :: behind := by simp
  rw [hshape]
  refine and_congr_right fun hs => ?_
  subst hs
  constructor
  · rintro hfirst ⟨u, v, rfl⟩
    refine hfirst u.length (by simp) ⟨v ++ '-' :: '>' :: behind, ?_⟩
    rw [List.append_assoc, List.append_assoc, List.drop_left]
  · intro hnone i hi hbegins
    rw [List.drop_append_of_le_length (Nat.le_of_lt hi), List.drop_eq_getElem_cons hi,
      List.cons_append, List.cons_prefix_cons] at hbegins
    obtain ⟨hdash, hhead⟩ := hbegins
    by_cases hlast : i + 1 < before.length
    · -- both characters of the arrow stand in `before`
      rw [List.drop_eq_getElem_cons hlast, List.cons_append, List.cons_prefix_cons] at hhead
      apply hnone
      refine ⟨before.take i, before.drop (i + 1 + 1), ?_⟩
      rw [hdash, hhead.1, List.append_assoc, List.cons_append, List.singleton_append,
        ← List.drop_eq_getElem_cons hlast, ← List.drop_eq_getElem_cons hi, List.take_append_drop]
    · -- the arrow would begin with the last character of `before` and end with a dash
      have hend : before.drop (i + 1) = [] := List.drop_eq_nil_of_le (by omega)
      rw [hend, List.nil_append, List.cons_prefix_cons] at hhead
      exact absurd hhead.1 (by decide)

end Acceptor.Text
