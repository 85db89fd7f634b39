/-
  The batch program is all or nothing.

  1. **On any files** — `AllOrNothing`: when every stage is passed, the program prints the report
     and has written the drawing and nothing else; otherwise it has written nothing, prints nothing,
     and fails with the failure of the first stage that was not passed.  A standard output that
     refuses a row breaks this off: then the rows in front of it are printed.

  2. **The drawing** — a file that keeps what is written to it holds the drawing afterwards
     (`IsKept`).  A device need not, and the standard output has the report behind it.

  3. **In a folder** — `Shows`: what is seen from outside.  The drawing stands in its file
     afterwards, and every other file is as it was.  The standard output has a path as well, so it
     can be the file for the drawing; then the drawing stands there in front of the report.

  4. `batch_allOrNothing` puts this together, for every call.
-/
import Acceptor.Program.Session
import Acceptor.Proofs.Drawing.Respacing
import Acceptor.Proofs.Files.Folder
import Acceptor.Proofs.Program.Printing

namespace Acceptor

namespace Program

/-! ## On any files -/

section Store

variable {σ : Type} (read : σ → String → Except SystemFault (ByteArray × σ))
  (write : σ → String → String → Except SystemFault σ) (printer : Dot.Printer)
  (out : Outlet (StateM σ)) (settings : Settings) (s : σ)

/-- A text is read at a path. -/
def Holds (path text : String) : Prop := ∃ s', ReadsText read s path text s'

/-- A path holds what is written to it, and printing leaves it alone: it names no device, and not
    the standard output. -/
structure IsKept (path : String) : Prop where
  write : ∀ {s₂ s' text}, AfterReads read s s₂ → write s₂ path text = .ok s' →
    Holds read s' path text
  put : ∀ {s₁ s' text result drawn}, (out.put text).run s₁ = (result, s') →
    Holds read s₁ path drawn → Holds read s' path drawn
  flush : ∀ {s₁ s' result drawn}, out.flush.run s₁ = (result, s') →
    Holds read s₁ path drawn → Holds read s' path drawn

/-- A program that did everything, or that read files and did nothing else. -/
structure AllOrNothing (result : Outcome × σ) : Prop where
  /-- It reports on the inputs that were there before the drawing was.  The drawing was written
      after the files were read and before the report was printed, and its file keeps it. -/
  all : ∀ definition inputs d s' s'',
    Succeeds read write printer settings s definition inputs d s' →
    Takes out s' (rowTexts d inputs) s'' →
      result.1.exitCode = 0 ∧ report definition inputs = .ok result.1.output ∧
        result.1.failure = none ∧ result.2 = s'' ∧
        (∃ s₂, AfterReads read s s₂ ∧ Draws write printer settings s₂ d s') ∧
        ∀ path, settings.drawing = some path → IsKept read write out s path →
          ∃ drawn, d.render printer = .ok drawn ∧ Holds read result.2 path drawn
  /-- A standard output that does not take everything has refused something. -/
  decided : ∀ definition inputs d s',
    Succeeds read write printer settings s definition inputs d s' →
    (∃ s'', Takes out s' (rowTexts d inputs) s'') ∨
      ∃ taken fault s'', Refuses out s' (rowTexts d inputs) taken fault s''
  /-- Then the rows were printed up to the one that was refused. -/
  broken : ∀ definition inputs d s' taken fault s'',
    Succeeds read write printer settings s definition inputs d s' →
    Refuses out s' (rowTexts d inputs) taken fault s'' →
      result.1.exitCode = 1 ∧ result.1.output = String.join taken ∧ taken <+: rowTexts d inputs ∧
        result.1.failure = some (.interrupted fault) ∧ result.2 = s''
  /-- With a printer that respaces drawings, no drawing is refused. -/
  nothing : (¬ ∃ definition inputs d s',
      Succeeds read write printer settings s definition inputs d s') →
    result.1.exitCode = 1 ∧ result.1.output = "" ∧ AfterReads read s result.2 ∧
      ∃ e, result.1.failure = some e ∧ FailsFirst read write printer settings s e result.2 ∧
        (printer.Respaces → ∀ reason, e ≠ .undrawable reason)

end Store

section Store

variable {σ : Type} {read : σ → String → Except SystemFault (ByteArray × σ)}
  {write : σ → String → String → Except SystemFault σ} {printer : Dot.Printer}
  {out : Outlet (StateM σ)} {settings : Settings} {arguments : List String}
  {drawing : Option String} {path drawn : String} {s s₁ s' : σ}

/-- The report is what is printed for the rows. -/
theorem report_of_parse {definition : String} {d : Automaton}
    (h : (Definition.parse definition).value = .ok d) (inputs : String) :
    report definition inputs = .ok (String.join (rowTexts d inputs)) := by
  rw [report, h, ← map_line_evaluate]
  rfl

theorem FailsFirst.ne_undrawable {e : Failure} (hprinter : printer.Respaces)
    (h : FailsFirst read write printer settings s e s') (reason : String) :
    e ≠ .undrawable reason := by
  cases h with
  | renderDrawing _ _ _ _ hrender =>
    rw [Automaton.render_eq_ok hprinter] at hrender
    cases hrender
  | _ => simp

/-- Printing leaves a drawing where it is.  Induction on the texts. -/
theorem IsKept.holds_of_puts (hkept : IsKept read write out s path) {texts : List String}
    (h : Puts out s₁ texts s') (hholds : Holds read s₁ path drawn) : Holds read s' path drawn := by
  induction h with
  | nil => exact hholds
  | cons hput _ ih => exact ih (hkept.put hput hholds)

theorem IsKept.holds_of_takes (hkept : IsKept read write out s path) {texts : List String}
    (h : Takes out s₁ texts s') (hholds : Holds read s₁ path drawn) : Holds read s' path drawn := by
  obtain ⟨s₂, hputs, hflush⟩ := h
  exact hkept.flush hflush (hkept.holds_of_puts hputs hholds)

theorem allOrNothing_batchWith (hs : settings.IsOf arguments drawing) :
    AllOrNothing read write printer out settings s
      ((batchWith printer out (Host.ofStore read write) arguments drawing).run s) where
  all definition inputs d s' s'' h htakes := by
    rw [batchWith_of_takes hs h htakes]
    obtain ⟨s₁, s₂, hdefinition, hparse, hinputs, hdraws⟩ := h
    have hreads : AfterReads read s s₂ :=
      (readsText_afterReads hdefinition).trans (readsText_afterReads hinputs)
    refine ⟨rfl, report_of_parse hparse inputs, rfl, rfl, ⟨s₂, hreads, hdraws⟩, ?_⟩
    intro path hpath hkept
    rw [Draws, hpath] at hdraws
    obtain ⟨drawn, hrender, hwrite⟩ := hdraws
    exact ⟨drawn, hrender, hkept.holds_of_takes htakes (hkept.write hreads hwrite)⟩
  decided _ inputs d s' _ := takes_or_refuses out s' (rowTexts d inputs)
  broken definition inputs d s' taken fault s'' h hrefuses := by
    rw [batchWith_of_refuses hs h hrefuses]
    exact ⟨rfl, rfl, hrefuses.isPrefix, rfl, rfl⟩
  nothing hnone := by
    rcases succeeds_or_failsFirst read write printer settings s with hsome | ⟨e, s', hfails⟩
    · exact absurd hsome hnone
    · rw [batchWith_of_failsFirst hs hfails]
      exact ⟨rfl, rfl, hfails.afterReads, e, rfl, hfails, fun hp => hfails.ne_undrawable hp⟩

end Store

/-! ## In a folder -/

/-- Nothing was written to the standard streams yet. -/
structure IsSilent (f : Folder) : Prop where
  output : f.file? .output = some ⟨.empty, .pipe⟩
  errorOutput : f.file? .errorOutput = some ⟨.empty, .pipe⟩

instance (f : Folder) : Decidable (IsSilent f) :=
  decidable_of_iff (f.file? .output = some ⟨.empty, .pipe⟩ ∧
    f.file? .errorOutput = some ⟨.empty, .pipe⟩) ⟨fun h => ⟨h.1, h.2⟩, fun h => ⟨h.1, h.2⟩⟩

/-- Files that stand elsewhere leave the streams alone.  Induction on the files. -/
theorem isSilent_ofFiles {files : List (String × ByteArray)} (input : ByteArray)
    (h : ∀ file ∈ files, Folder.destination file.1 ≠ .output ∧
      Folder.destination file.1 ≠ .errorOutput) : IsSilent (Folder.ofFiles files input) := by
  suffices hfold : ∀ f, IsSilent f →
      IsSilent (files.foldl (fun f file => f.addFile file.1 file.2) f) from
    hfold _ ⟨rfl, rfl⟩
  induction files with
  | nil => exact fun f hf => hf
  | cons file files ih =>
    intro f hf
    rw [List.forall_mem_cons] at h
    refine ih h.2 _ ⟨?_, ?_⟩
    · rw [Folder.file?_addFile, if_neg (Ne.symm h.1.1), hf.output]
    · rw [Folder.file?_addFile, if_neg (Ne.symm h.1.2), hf.errorOutput]

/-- What is seen of a program that is all or nothing: the standard streams, and the folder that it
    leaves behind. -/
structure Shows (printer : Dot.Printer) (settings : Settings) (f : Folder) (session : Session)
    (f' : Folder) : Prop where
  /-- Without a drawing, the report is all there is.  With one, its file is the only one that was
      written: an ordinary file holds it then, and the standard output has it before the report. -/
  all : ∀ definition inputs d g,
    Succeeds Folder.read Folder.write printer settings f definition inputs d g →
      session.exitCode = 0 ∧ ∃ text, report definition inputs = .ok text ∧
        (settings.drawing = none → session.output = text.toUTF8 ∧ f.OnlyRead f') ∧
        ∀ path, settings.drawing = some path → ∃ drawn p, d.render printer = .ok drawn ∧
          f.find path = .ok p ∧
          session.output = (if p = .output then drawn.toUTF8 else .empty) ++ text.toUTF8 ∧
          (∀ q, q ≠ p → f.Keeps f' q) ∧ (f.IsOrdinary p → Holds Folder.read f' path drawn)
  nothing : (¬ ∃ definition inputs d g,
      Succeeds Folder.read Folder.write printer settings f definition inputs d g) →
    session.exitCode = 1 ∧ session.output = .empty ∧ f.OnlyRead f' ∧
      ∃ e, FailsFirst Folder.read Folder.write printer settings f e f' ∧
        (printer.Respaces → ∀ reason, e ≠ .undrawable reason) ∧
          session.errorOutput = ("error: " ++ e.chain ++ "\n").toUTF8

variable {f f' : Folder}

theorem onlyRead_of_afterReads (h : AfterReads Folder.read f f') : f.OnlyRead f' := by
  induction h with
  | refl => exact .refl f
  | tail _ hread ih =>
    obtain ⟨path, bytes, hread⟩ := hread
    exact ih.trans (Folder.onlyRead_of_read hread)

theorem IsSilent.of_onlyRead (hf : IsSilent f) (h : f.OnlyRead f') : IsSilent f' where
  output := h.file?_empty hf.output
  errorOutput := h.file?_empty hf.errorOutput

theorem IsSilent.bytesAt_output_put (hf : IsSilent f) {p : Place} {old new : File}
    {bytes : ByteArray} (htarget : f.target p = .ok old) (hwriting : old.writing bytes = .ok new) :
    (f.put p new).bytesAt .output = if p = .output then bytes else .empty := by
  by_cases hp : p = .output
  · subst hp
    rw [Folder.target, Folder.contentAt_eq_file_iff.2 hf.output] at htarget
    cases htarget
    cases hwriting
    rw [if_pos rfl, Folder.bytesAt, Folder.file?_put, if_pos rfl]
    exact ByteArray.empty_append
  · rw [if_neg hp]
    apply Folder.bytesAt_of_empty
    rw [Folder.file?_put, if_neg (Ne.symm hp), hf.output]

/-- What is left by a text that was written after files were read. -/
theorem IsSilent.of_write (hf : IsSilent f) {g : Folder} (hreads : f.OnlyRead g)
    {path text : String} (hwrite : g.write path text = .ok f') :
    ∃ p, f.find path = .ok p ∧
      f'.bytesAt .output = (if p = .output then text.toUTF8 else .empty) ∧
      ∀ q, q ≠ p → f.Keeps f' q := by
  obtain ⟨p, old, new, hfind, htarget, hwriting, hput⟩ := Folder.exists_of_write hwrite
  refine ⟨p, hreads.find_iff.1 hfind, ?_, ?_⟩
  · rw [hput, (hf.of_onlyRead hreads).bytesAt_output_put htarget hwriting]
  · intro q hq
    rw [Folder.Keeps, hput, Folder.file?_put, if_neg hq]
    exact hreads.keeps q

/-- An ordinary file keeps what is written to it. -/
theorem isKept_of_isOrdinary {path : String} {p : Place} (hfind : f.find path = .ok p)
    (h : f.IsOrdinary p) : IsKept Folder.read Folder.write .unfailing f path where
  write hreads hwrite :=
    Folder.read_of_write hwrite ((onlyRead_of_afterReads hreads).find_iff.2 hfind)
      ((onlyRead_of_afterReads hreads).isOrdinary h)
  put hput hholds := by
    cases hput
    exact hholds
  flush hflush hholds := by
    cases hflush
    exact hholds

theorem observe_eq {program : StateM Folder Outcome} {o : Outcome} (h : program.run f = (o, f')) :
    observe program f =
      { exitCode := o.exitCode
        output := f'.bytesAt .output ++ o.output.toUTF8
        errorOutput := f'.bytesAt .errorOutput ++ o.errorOutput.toUTF8
        changes := f'.changesSince f } := by
  rw [observe, h]

section Batch

variable {printer : Dot.Printer} {settings : Settings} {arguments : List String}
  {drawing : Option String}

theorem shows_batchWith (hs : settings.IsOf arguments drawing) (hf : IsSilent f) :
    Shows printer settings f
      (observe (batchWith printer .unfailing Folder.host arguments drawing) f)
      ((batchWith printer .unfailing Folder.host arguments drawing).run f).2 where
  all definition inputs d g h := by
    have htakes : Takes .unfailing g (rowTexts d inputs) g := takes_unfailing g (rowTexts d inputs)
    have hrun : (batchWith printer .unfailing Folder.host arguments drawing).run f =
        ({ output := String.join (rowTexts d inputs) }, g) := batchWith_of_takes hs h htakes
    have hbatch : AllOrNothing Folder.read Folder.write printer .unfailing settings f
        ((batchWith printer .unfailing Folder.host arguments drawing).run f) :=
      allOrNothing_batchWith hs
    rw [hrun] at hbatch
    obtain ⟨hcode, hreport, -, -, ⟨g', hreads, hdraws⟩, hkeeps⟩ :=
      hbatch.all definition inputs d g g h htakes
    have hread : f.OnlyRead g' := onlyRead_of_afterReads hreads
    rw [observe_eq hrun, hrun]
    refine ⟨hcode, _, hreport, ?_, ?_⟩
    · intro hnone
      rw [Draws, hnone] at hdraws
      obtain rfl : g = g' := hdraws
      show g.bytesAt .output ++ _ = _ ∧ _
      rw [Folder.bytesAt_of_empty (hf.of_onlyRead hread).output, ByteArray.empty_append]
      exact ⟨rfl, hread⟩
    · intro path hpath
      rw [Draws, hpath] at hdraws
      obtain ⟨drawn, hrender, hwrite⟩ := hdraws
      obtain ⟨p, hfind, houtput, hrest⟩ := hf.of_write hread hwrite
      refine ⟨drawn, p, hrender, hfind, ?_, hrest, ?_⟩
      · show g.bytesAt .output ++ _ = _
        rw [houtput]
      · intro hordinary
        obtain ⟨drawn', hrender', hholds⟩ :=
          hkeeps path hpath (isKept_of_isOrdinary hfind hordinary)
        cases hrender.symm.trans hrender'
        exact hholds
  nothing hnone := by
    rcases succeeds_or_failsFirst Folder.read Folder.write printer settings f with
      hsome | ⟨e, g, hfails⟩
    · exact absurd hsome hnone
    have hrun : (batchWith printer .unfailing Folder.host arguments drawing).run f =
        ({ output := "", failure := some e }, g) := batchWith_of_failsFirst hs hfails
    have hreads : f.OnlyRead g := onlyRead_of_afterReads hfails.afterReads
    have hsilent : IsSilent g := hf.of_onlyRead hreads
    rw [observe_eq hrun, hrun]
    refine ⟨rfl, ?_, hreads, e, hfails, fun hp => hfails.ne_undrawable hp, ?_⟩
    · show g.bytesAt .output ++ _ = _
      rw [Folder.bytesAt_of_empty hsilent.output, ByteArray.empty_append]
      rfl
    · show g.bytesAt .errorOutput ++ _ = _
      rw [Folder.bytesAt_of_empty hsilent.errorOutput, ByteArray.empty_append]
      rfl

end Batch

/-! A drawing that goes to the file of the inputs. -/

/-- From `A` to `B` on `1`, and nowhere else. -/
def oneStep : String := "states: A,B\nalphabet: 0,1\nstart: A\naccept: B\ntransitions:\nA,1->B\n"

/-- What it defines. -/
def oneStepAutomaton : Automaton := ⟨⟨["A", "B"], ['0', '1'], [1], [((0, '1'), 1)]⟩, 0⟩

/-- A folder with this definition and two inputs. -/
def desk : Folder := .ofFiles [("c", oneStep.toUTF8), ("i", "1\n0\n".toUTF8)] .empty

/-- The call for this definition and these inputs, with a drawing. -/
def deskSettings (path : String) : Settings := ⟨"c", "i", some path⟩

theorem deskSettings_isOf {path : String} (h : path ≠ "") :
    (deskSettings path).IsOf ["c", "i"] (some path) := by
  have hs := Settings.ofArguments_isOf ["c", "i"] (some path)
  have hsettings : (Settings.ofArguments ["c", "i"]).value.withEnvironment (some path) =
      deskSettings path := by
    simp [Settings.ofArguments, Settings.withEnvironment, Settings.withDrawing, deskSettings, h]
  rwa [hsettings] at hs

theorem parse_oneStep : (Definition.parse oneStep).value = .ok oneStepAutomaton := by
  decide +kernel

theorem report_oneStep : report oneStep "1\n0\n" = .ok "1: ACCEPTED\n0: REJECTED\n" := by
  rw [report_of_parse parse_oneStep]
  decide +kernel

theorem isSilent_desk : IsSilent desk := isSilent_ofFiles .empty (by decide +kernel)

/-- Every stage is passed when the drawing can be written. -/
theorem succeeds_desk (path : String) {g : Folder}
    (h : desk.write path (oneStepAutomaton.draw .compact) = .ok g) :
    Succeeds Folder.read Folder.write Dot.respacer (deskSettings path) desk oneStep "1\n0\n"
      oneStepAutomaton g := by
  have hdefinition : ReadsText Folder.read desk "c" oneStep desk := rfl
  have hinputs : ReadsText Folder.read desk "i" "1\n0\n" desk := rfl
  exact ⟨desk, desk, hdefinition, parse_oneStep, hinputs, oneStepAutomaton.draw .compact,
    Automaton.render_eq_ok Dot.respaces_respacer oneStepAutomaton, h⟩

/-- The drawing is written to the standard output, and the report behind it. -/
theorem output_drawing_to_stream :
    (observe (batch Folder.host ["c", "i"] (some "/dev/stdout")) desk).output =
      (oneStepAutomaton.draw .compact).toUTF8 ++ "1: ACCEPTED\n0: REJECTED\n".toUTF8 := by
  have hs : (deskSettings "/dev/stdout").IsOf ["c", "i"] (some "/dev/stdout") :=
    deskSettings_isOf (by decide)
  obtain ⟨-, text, htext, -, hdrawn⟩ :=
    (shows_batchWith hs isSilent_desk).all _ _ _ _ (succeeds_desk "/dev/stdout" rfl)
  obtain ⟨drawn, p, hrender, hfind, houtput, -⟩ := hdrawn "/dev/stdout" rfl
  cases report_oneStep.symm.trans htext
  cases (Automaton.render_eq_ok Dot.respaces_respacer oneStepAutomaton).symm.trans hrender
  obtain rfl : Place.output = p := Except.ok.inj hfind
  rw [if_pos rfl] at houtput
  exact houtput

/-- Nothing is read where a drawing was written to a file that keeps nothing. -/
theorem read_drawing_to_sink :
    ∃ g, ((batch Folder.host ["c", "i"] (some "/dev/null")).run desk).2.read "/dev/null" =
      .ok (.empty, g) := by
  have hs : (deskSettings "/dev/null").IsOf ["c", "i"] (some "/dev/null") :=
    deskSettings_isOf (by decide)
  have hrun : (batch Folder.host ["c", "i"] (some "/dev/null")).run desk =
      (_, desk.put .null ⟨.empty, .sink⟩) :=
    batchWith_of_takes hs (succeeds_desk "/dev/null" rfl) (takes_unfailing _ _)
  rw [hrun]
  exact ⟨_, rfl⟩

end Program
end Acceptor
