/-
  A run in words fits on one line.

  The trace and the halt are put together from names of states, characters of the input and text
  that is always the same.  So they hold no newline if the names and the input hold none.

  1. **Characters of the input** — a symbol that is followed, or named in a halt, stands in the
     input (`mem_of_follow`).

  2. **In words** — neither the trace nor the halt of a run on one line holds a newline
     (`newline_not_mem_description`).
-/
import Acceptor.Proofs.Text.Trim
import Acceptor.Run.Description

namespace Acceptor

/-! ## Characters of the input -/

/-- A halt names a character. -/
def Halt.Names : Halt → Char → Prop
  | .completed, _ => False
  | .unknownSymbol _ c, d => c = d
  | .noTransition _ _ c, d => c = d

namespace TransitionSystem

/-- Every symbol in the outcome of following an input stands in the input.  Induction on the
    input. -/
theorem mem_of_follow (m : TransitionSystem) (s position : Nat) (input : List Char) :
    (∀ step ∈ (m.follow s position input).1, step.1 ∈ input) ∧
      ∀ c, (m.follow s position input).2.Names c → c ∈ input := by
  induction input generalizing s position with
  | nil => exact ⟨fun _ h => absurd h List.not_mem_nil, fun _ h => h.elim⟩
  | cons a rest ih =>
    rw [follow]
    split
    · exact ⟨fun _ h => absurd h List.not_mem_nil, fun _ h => h.elim⟩
    split
    · obtain ⟨hsteps, hhalt⟩ := ih s (position + 1)
      exact ⟨fun step h => List.mem_cons_of_mem a (hsteps step h),
        fun c h => List.mem_cons_of_mem a (hhalt c h)⟩
    split
    · split
      · refine ⟨fun _ h => absurd h List.not_mem_nil, ?_⟩
        rintro c rfl
        exact List.mem_cons_self
      · rename_i t _
        obtain ⟨hsteps, hhalt⟩ := ih t (position + 1)
        refine ⟨?_, fun c h => List.mem_cons_of_mem a (hhalt c h)⟩
        intro step h
        rcases List.mem_cons.1 h with rfl | h
        · exact List.mem_cons_self
        · exact List.mem_cons_of_mem a (hsteps step h)
    · refine ⟨fun _ h => absurd h List.not_mem_nil, ?_⟩
      rintro c rfl
      exact List.mem_cons_self

end TransitionSystem

/-! ## In words -/

theorem newline_not_mem_toDigits (n : Nat) : '\n' ∉ Nat.toDigits 10 n := by
  intro hmem
  exact absurd (Nat.isDigit_of_mem_toDigits (by decide) (by decide) hmem) (by decide)

namespace Run

variable {m : TransitionSystem} {r : Run}

theorem newline_not_mem_describe (hm : ∀ s, '\n' ∉ (m.name s).toList)
    (hsteps : ∀ step ∈ r.steps, step.1 ≠ '\n') : '\n' ∉ (r.describe m).toList := by
  rw [describe, String.toList_intercalate]
  apply Text.not_mem_intercalate
  · decide
  · intro part hpart
    obtain ⟨name, hname, rfl⟩ := List.mem_map.1 hpart
    rcases List.mem_cons.1 hname with rfl | hstep
    · exact hm r.start
    · obtain ⟨⟨c, s⟩, hmem, rfl⟩ := List.mem_map.1 hstep
      have hc : '\n' ≠ c := Ne.symm (hsteps _ hmem)
      simp [describeStep, hc, hm s]

theorem newline_not_mem_describeHalt (hm : ∀ s, '\n' ∉ (m.name s).toList)
    (hhalt : ¬ r.halt.Names '\n') : '\n' ∉ (r.describeHalt m).toList := by
  rw [describeHalt]
  cases hkind : r.halt with
  | completed =>
    cases r.verdict with
    | accepted => simp [hm r.last]
    | rejected => simp [hm r.last]
  | unknownSymbol position c =>
    rw [hkind] at hhalt
    have hc : '\n' ≠ c := Ne.symm hhalt
    simp [hc, newline_not_mem_toDigits position]
  | noTransition position s c =>
    rw [hkind] at hhalt
    have hc : '\n' ≠ c := Ne.symm hhalt
    simp [hc, hm s, newline_not_mem_toDigits position]

end Run

namespace Automaton

variable {d : Automaton} {input : String}

/-- A run on an input of one line is described on one line, and so is its halt. -/
theorem newline_not_mem_description (hd : ∀ s, '\n' ∉ (d.name s).toList)
    (hinput : '\n' ∉ input.toList) :
    '\n' ∉ ((d.run input).describe d.toTransitionSystem).toList ∧
      '\n' ∉ ((d.run input).describeHalt d.toTransitionSystem).toList := by
  obtain ⟨hsteps, hhalt⟩ := d.mem_of_follow d.start 0 input.toList
  constructor
  · apply Run.newline_not_mem_describe hd
    intro step hstep hnewline
    exact hinput (hnewline ▸ hsteps step hstep)
  · apply Run.newline_not_mem_describeHalt hd
    exact fun hnewline => hinput (hhalt _ hnewline)

end Automaton

end Acceptor
