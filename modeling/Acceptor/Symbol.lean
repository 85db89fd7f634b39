/-
  Symbols as they are written.

  A symbol is written as itself, so a text is a symbol when it holds exactly one character.
-/
import Acceptor.Cause

namespace Acceptor

/-- The symbol that a text writes. -/
def symbolOf (token : String) : Except Cause Char :=
  match token.toList with
  | [c] => .ok c
  | _ => .error (.symbolLength token)

/-- A text is refused exactly when it does not hold one character. -/
theorem symbolOf_eq_ok_iff {token : String} {c : Char} :
    symbolOf token = .ok c ↔ token.toList = [c] := by
  unfold symbolOf
  split
  · rename_i b h
    simp [h]
  · rename_i h
    simp only [reduceCtorEq, false_iff]
    exact h c

/-- A text fails to be a symbol for its length only. -/
theorem symbolOf_eq_error_iff {token : String} {cause : Cause} :
    symbolOf token = .error cause ↔
      token.toList.length ≠ 1 ∧ cause = .symbolLength token := by
  unfold symbolOf
  split
  · rename_i b h
    simp [h]
  · rename_i h
    have hlength : token.toList.length ≠ 1 := by
      intro hlength
      obtain ⟨c, hc⟩ := List.length_eq_one_iff.1 hlength
      exact h c hc
    rw [and_iff_right hlength]
    constructor
    · rintro ⟨⟩
      rfl
    · rintro rfl
      rfl

end Acceptor
