/-
  The rows of the batch program, and how it ends.

  The standard output works on the same value as the files do, and it may refuse what is printed.
  Nothing else is known of it, so what is said here holds of a standard output that is one of the
  files as well.

  1. **Taken and refused** — `Takes`: texts are taken and passed on.  `Refuses`: some are taken, and
     then there is a fault.  One of them is the case (`takes_or_refuses`).

  2. **The rows** — rows that are taken leave the others to be printed
     (`printRows_append_of_puts`); so all rows are printed, or those in front of the fault
     (`printRows_of_takes`, `printRows_of_refuses`).

  3. **The end of a call** — the course of the stages and the standard output decide how the program
     ends (`batchWith_of_takes`, `batchWith_of_refuses`, `batchWith_of_failsFirst`).
-/
import Acceptor.Proofs.Program.Stages

namespace Acceptor.Program

variable {σ : Type} {s s' : σ}

/-! ## Taken and refused -/

section Printing

variable (out : Outlet (StateM σ))

/-- Texts are taken one after the other. -/
inductive Puts : σ → List String → σ → Prop
  | nil {s : σ} : Puts s [] s
  | cons {s s₁ s' : σ} {text : String} {texts : List String}
      (hput : (out.put text).run s = (.ok (), s₁)) (hrest : Puts s₁ texts s') :
      Puts s (text :: texts) s'

/-- Texts are taken one after the other, and passed on. -/
def Takes (s : σ) (texts : List String) (s' : σ) : Prop :=
  ∃ s₁, Puts out s texts s₁ ∧ out.flush.run s₁ = (.ok (), s')

/-- The first texts are taken and the next one is not, or all are taken and not passed on. -/
inductive Refuses (s : σ) (texts : List String) : List String → SystemFault → σ → Prop
  | put {taken rest : List String} {text : String} {fault : SystemFault} {s₁ s' : σ}
      (htexts : texts = taken ++ text :: rest) (htaken : Puts out s taken s₁)
      (hput : (out.put text).run s₁ = (.error fault, s')) : Refuses s texts taken fault s'
  | flush {fault : SystemFault} {s₁ s' : σ} (htaken : Puts out s texts s₁)
      (hflush : out.flush.run s₁ = (.error fault, s')) : Refuses s texts texts fault s'

end Printing

section Printing

variable {out : Outlet (StateM σ)} {fault : SystemFault} {text : String}
  {texts taken : List String} {s₁ : σ}

theorem Refuses.isPrefix (h : Refuses out s texts taken fault s') : taken <+: texts := by
  cases h with
  | @put _ rest text _ _ _ htexts => exact ⟨text :: rest, htexts.symm⟩
  | flush => exact List.prefix_refl texts

theorem Refuses.cons (hput : (out.put text).run s = (.ok (), s₁))
    (h : Refuses out s₁ texts taken fault s') :
    Refuses out s (text :: texts) (text :: taken) fault s' := by
  cases h with
  | put htexts htaken hnext => exact .put (congrArg (text :: ·) htexts) (.cons hput htaken) hnext
  | flush htaken hflush => exact .flush (.cons hput htaken) hflush

/-- There is a fault, unless everything is printed.  Induction on the texts. -/
theorem takes_or_refuses (out : Outlet (StateM σ)) (s : σ) (texts : List String) :
    (∃ s', Takes out s texts s') ∨ ∃ taken fault s', Refuses out s texts taken fault s' := by
  induction texts generalizing s with
  | nil =>
    rcases hflush : out.flush.run s with ⟨fault | ⟨⟩, s'⟩
    · exact .inr ⟨[], fault, s', .flush .nil hflush⟩
    · exact .inl ⟨s', s, .nil, hflush⟩
  | cons text texts ih =>
    rcases hput : (out.put text).run s with ⟨fault | ⟨⟩, s₁⟩
    · exact .inr ⟨[], fault, s₁, .put rfl .nil hput⟩
    · rcases ih s₁ with ⟨s', s₂, htaken, hflush⟩ | ⟨taken, fault, s', hrefuses⟩
      · exact .inl ⟨s', s₂, .cons hput htaken, hflush⟩
      · exact .inr ⟨text :: taken, fault, s', hrefuses.cons hput⟩

theorem takes_unfailing (s : σ) (texts : List String) : Takes .unfailing s texts s := by
  suffices h : Puts .unfailing s texts s from ⟨s, h, rfl⟩
  induction texts with
  | nil => exact .nil
  | cons text texts ih => exact .cons rfl ih

end Printing

/-! ## The rows -/

/-- The rows of a text of inputs as they are printed. -/
def rowTexts (d : Automaton) (inputs : String) : List String :=
  (candidates inputs).map fun t => t ++ ": " ++ (d.run t).verdict.text ++ "\n"

section Rows

variable {out : Outlet (StateM σ)} {fault : SystemFault} {taken : List String}

/-- Induction on the rows that are taken. -/
theorem printRows_append_of_puts {rows : List Row}
    (h : Puts out s (rows.map fun r => r.line ++ "\n") s') (printed : String) (rest : List Row) :
    (printRows out printed (rows ++ rest)).run s =
      (printRows out (printed ++ String.join (rows.map fun r => r.line ++ "\n")) rest).run s' := by
  induction rows generalizing s printed with
  | nil =>
    cases h
    rw [List.map_nil, String.join_nil, String.append_empty, List.nil_append]
  | cons row rows ih =>
    cases h with
    | cons hput hrest =>
      rw [List.cons_append, printRows, Host.run_bind_of_run hput]
      show (printRows out (printed ++ (row.line ++ "\n")) (rows ++ rest)).run _ = _
      rw [ih hrest, List.map_cons, String.join_cons, String.append_assoc]

theorem printRows_of_puts {rows : List Row}
    (h : Puts out s (rows.map fun r => r.line ++ "\n") s') :
    (printRows out "" rows).run s =
      (printRows out (String.join (rows.map fun r => r.line ++ "\n")) []).run s' := by
  have hrows := printRows_append_of_puts h "" []
  rwa [List.append_nil, String.empty_append] at hrows

theorem printRows_of_takes {rows : List Row}
    (h : Takes out s (rows.map fun r => r.line ++ "\n") s') :
    (printRows out "" rows).run s =
      ({ output := String.join (rows.map fun r => r.line ++ "\n") }, s') := by
  obtain ⟨s₁, htaken, hflush⟩ := h
  rw [printRows_of_puts htaken, printRows, Host.run_bind_of_run hflush]
  rfl

theorem printRows_of_refuses {rows : List Row}
    (h : Refuses out s (rows.map fun r => r.line ++ "\n") taken fault s') :
    (printRows out "" rows).run s =
      ({ output := String.join taken, failure := some (.interrupted fault) }, s') := by
  cases h with
  | put htexts htaken hput =>
    obtain ⟨before, behind, rfl, rfl, hbehind⟩ := List.map_eq_append_iff.1 htexts
    obtain ⟨row, rest, rfl, rfl, -⟩ := List.map_eq_cons_iff.1 hbehind
    rw [printRows_append_of_puts htaken, printRows, Host.run_bind_of_run hput,
      String.empty_append]
    rfl
  | flush htaken hflush =>
    rw [printRows_of_puts htaken, printRows, Host.run_bind_of_run hflush]
    rfl

-- a standard output with room for one row
example :
    (printRows (⟨fun _ room => if room = 0 then (.error .noSpace, 0) else (.ok (), room - 1),
      fun room => (.ok (), room)⟩ : Outlet (StateM Nat)) ""
        [⟨"1", .accepted⟩, ⟨"0", .rejected⟩]).run 1 =
      ({ output := "1: ACCEPTED\n", failure := some (.interrupted .noSpace) }, 0) := by
  rfl

/-- What the program prints for its rows. -/
theorem map_line_evaluate (d : Automaton) (inputs : String) :
    ((d.evaluate inputs).value.map fun r => r.line ++ "\n") = rowTexts d inputs := by
  show ((candidates inputs).map d.judge).map _ = _
  rw [List.map_map]
  rfl

end Rows

/-! ## The end of a call -/

section Batch

variable {read : σ → String → Except SystemFault (ByteArray × σ)}
  {write : σ → String → String → Except SystemFault σ} {printer : Dot.Printer}
  {settings : Settings} {arguments : List String} {drawing : Option String}
  {out : Outlet (StateM σ)} {definition inputs : String} {d : Automaton}
  {fault : SystemFault} {taken : List String} {e : Failure} {s'' : σ}

/-- After the stages the rows are printed. -/
theorem batchWith_of_succeeds (hs : settings.IsOf arguments drawing)
    (h : Succeeds read write printer settings s definition inputs d s') :
    (batchWith printer out (Host.ofStore read write) arguments drawing).run s =
      (printRows out "" (d.evaluate inputs).value).run s' := by
  rw [batchWith, (Settings.ofArguments_isOf arguments drawing).unique hs, StateT.run_bind,
    stages_of_succeeds h]
  rfl

theorem batchWith_of_takes (hs : settings.IsOf arguments drawing)
    (h : Succeeds read write printer settings s definition inputs d s')
    (htakes : Takes out s' (rowTexts d inputs) s'') :
    (batchWith printer out (Host.ofStore read write) arguments drawing).run s =
      ({ output := String.join (rowTexts d inputs) }, s'') := by
  rw [← map_line_evaluate] at htakes ⊢
  rw [batchWith_of_succeeds hs h, printRows_of_takes htakes]

theorem batchWith_of_refuses (hs : settings.IsOf arguments drawing)
    (h : Succeeds read write printer settings s definition inputs d s')
    (hrefuses : Refuses out s' (rowTexts d inputs) taken fault s'') :
    (batchWith printer out (Host.ofStore read write) arguments drawing).run s =
      ({ output := String.join taken, failure := some (.interrupted fault) }, s'') := by
  rw [← map_line_evaluate] at hrefuses
  rw [batchWith_of_succeeds hs h, printRows_of_refuses hrefuses]

theorem batchWith_of_failsFirst (hs : settings.IsOf arguments drawing)
    (h : FailsFirst read write printer settings s e s') :
    (batchWith printer out (Host.ofStore read write) arguments drawing).run s =
      ({ output := "", failure := some e }, s') := by
  rw [batchWith, (Settings.ofArguments_isOf arguments drawing).unique hs, StateT.run_bind,
    stages_of_failsFirst h]
  rfl

end Batch

end Acceptor.Program
