/-
  The batch program, stage by stage.

  The files are a value of any type: a path can be read from it and a text written to it, and
  either may fail (`Host.ofStore`).  Nothing is known of such a store, so what is said here holds
  of every order of faults, and of files that go by two paths.

  1. **A text from a file** — `ReadsText` and `CannotRead` are the two ways in which reading can
     end; the faults of the system and bytes that are no UTF-8 count alike.

  2. **The call** — `Settings.IsOf` says which files a call is about.

  3. **The course of a call** — `Succeeds`: every stage is passed.  `FailsFirst`: the stages up to
     one are passed, and that one is not.  One of them is the case (`succeeds_or_failsFirst`).

  4. **The stages** — the program takes this course (`stages_of_succeeds`, `stages_of_failsFirst`).
-/
import Mathlib.Data.List.Basic
import Mathlib.Logic.Relation
import Acceptor.Program.Batch
import Acceptor.Proofs.Text.Bytes

namespace Acceptor

variable {σ : Type} {read : σ → String → Except SystemFault (ByteArray × σ)}
  {write : σ → String → String → Except SystemFault σ}

/-! ## A text from a file -/

/-- A path is read, and its bytes are the UTF-8 of a text. -/
def ReadsText (read : σ → String → Except SystemFault (ByteArray × σ)) (s : σ)
    (path text : String) (s' : σ) : Prop :=
  read s path = .ok (text.toUTF8, s')

/-- A path cannot be read as text: the system fails, or the bytes are the UTF-8 of no text. -/
inductive CannotRead (read : σ → String → Except SystemFault (ByteArray × σ)) (s : σ)
    (path : String) : SystemFault → σ → Prop
  | fault {fault : SystemFault} (h : read s path = .error fault) : CannotRead read s path fault s
  | noText {bytes : ByteArray} {s' : σ} (h : read s path = .ok (bytes, s'))
      (hbytes : ∀ text : String, text.toUTF8 ≠ bytes) : CannotRead read s path .invalidText s'

theorem readsText_or_cannotRead (read : σ → String → Except SystemFault (ByteArray × σ)) (s : σ)
    (path : String) :
    (∃ text s', ReadsText read s path text s') ∨ ∃ fault s', CannotRead read s path fault s' := by
  cases hread : read s path with
  | error fault => exact .inr ⟨fault, s, .fault hread⟩
  | ok result =>
    obtain ⟨bytes, s'⟩ := result
    by_cases htext : ∃ text : String, text.toUTF8 = bytes
    · obtain ⟨text, rfl⟩ := htext
      exact .inl ⟨text, s', hread⟩
    · exact .inr ⟨.invalidText, s', .noText hread fun text h => htext ⟨text, h⟩⟩

namespace Host

variable {s s' : σ} {path text : String} {fault : SystemFault}

/-- What comes next is done with the files that the first step leaves. -/
theorem run_bind_of_run {α β : Type} {x : StateM σ α} {a : α} (h : x.run s = (a, s'))
    (f : α → StateM σ β) : (x >>= f).run s = (f a).run s' := by
  rw [StateT.run_bind, h]
  rfl

theorem ofStore_read_ok {bytes : ByteArray} (h : read s path = .ok (bytes, s')) :
    ((Host.ofStore read write).read path).run s = (.ok bytes, s') := by
  simp only [ofStore, StateT.run, h]

theorem ofStore_read_error (h : read s path = .error fault) :
    ((Host.ofStore read write).read path).run s = (.error fault, s) := by
  simp only [ofStore, StateT.run, h]

theorem ofStore_write_ok (h : write s path text = .ok s') :
    ((Host.ofStore read write).write path text).run s = (.ok (), s') := by
  simp only [ofStore, StateT.run, h]

theorem ofStore_write_error (h : write s path text = .error fault) :
    ((Host.ofStore read write).write path text).run s = (.error fault, s) := by
  simp only [ofStore, StateT.run, h]

theorem readText_of_readsText (h : ReadsText read s path text s') :
    ((Host.ofStore read write).readText path).run s = (.ok text, s') := by
  have htext : String.fromUTF8? text.toUTF8 = some text := Text.fromUTF8?_eq_some_iff.2 rfl
  rw [readText, run_bind_of_run (ofStore_read_ok h)]
  simp only [htext]
  rfl

theorem readText_of_cannotRead (h : CannotRead read s path fault s') :
    ((Host.ofStore read write).readText path).run s = (.error (.unreadable path fault), s') := by
  cases h with
  | fault h =>
    rw [readText, run_bind_of_run (ofStore_read_error h)]
    rfl
  | noText h hbytes =>
    rw [readText, run_bind_of_run (ofStore_read_ok h)]
    simp only [Text.fromUTF8?_eq_none_iff.2 hbytes]
    rfl

/-- The text of a file that is read is parsed. -/
theorem load_of_readsText (h : ReadsText read s path text s') :
    ((Host.ofStore read write).load path).run s =
      ({ log := .loading path :: (Definition.parse text).log
         value := (Definition.parse text).value.mapError (.invalid path) }, s') := by
  rw [load, run_bind_of_run (readText_of_readsText h)]
  rfl

theorem load_of_cannotRead (h : CannotRead read s path fault s') :
    ((Host.ofStore read write).load path).run s =
      ({ value := .error (.unreadable path fault) }, s') := by
  rw [load, run_bind_of_run (readText_of_cannotRead h)]
  rfl

end Host

/-! ## The call -/

/-- The files that a call is about: those that two arguments name, or else `Conf.txt` and
    `Cadenas.txt`; and the file for the drawing, if the environment names one that is not empty. -/
structure Settings.IsOf (settings : Settings) (arguments : List String)
    (drawing : Option String) : Prop where
  named : ∀ definition input, arguments = [definition, input] →
    settings.definition = definition ∧ settings.input = input
  default : arguments.length ≠ 2 → settings.definition = "Conf.txt" ∧ settings.input = "Cadenas.txt"
  drawing : ∀ path, settings.drawing = some path ↔ drawing = some path ∧ path ≠ ""

theorem Settings.ofArguments_isOf (arguments : List String) (drawing : Option String) :
    ((Settings.ofArguments arguments).value.withEnvironment drawing).IsOf arguments drawing where
  named definition input h := by
    subst h
    exact ⟨rfl, rfl⟩
  default h := by
    match arguments with
    | [] => exact ⟨rfl, rfl⟩
    | [_] => exact ⟨rfl, rfl⟩
    | [_, _] => exact absurd rfl h
    | _ :: _ :: _ :: _ => exact ⟨rfl, rfl⟩
  drawing path := by
    show drawing.filter (· ≠ "") = some path ↔ _
    rw [Option.filter_eq_some_iff, decide_eq_true_iff]

/-- A call is about one set of files. -/
theorem Settings.IsOf.unique {settings other : Settings} {arguments : List String}
    {drawing : Option String} (h : settings.IsOf arguments drawing)
    (h' : other.IsOf arguments drawing) : settings = other := by
  have hdrawing : settings.drawing = other.drawing :=
    Option.ext fun path => (h.drawing path).trans (h'.drawing path).symm
  have hfiles : settings.definition = other.definition ∧ settings.input = other.input := by
    by_cases htwo : arguments.length = 2
    · obtain ⟨definition, input, rfl⟩ := List.length_eq_two.1 htwo
      obtain ⟨hdefinition, hinput⟩ := h.named definition input rfl
      obtain ⟨hdefinition', hinput'⟩ := h'.named definition input rfl
      exact ⟨hdefinition.trans hdefinition'.symm, hinput.trans hinput'.symm⟩
    · obtain ⟨hdefinition, hinput⟩ := h.default htwo
      obtain ⟨hdefinition', hinput'⟩ := h'.default htwo
      exact ⟨hdefinition.trans hdefinition'.symm, hinput.trans hinput'.symm⟩
  cases settings
  cases other
  cases hfiles.1
  cases hfiles.2
  cases hdrawing
  rfl

namespace Program

/-! ## The course of a call -/

section Course

variable (read : σ → String → Except SystemFault (ByteArray × σ))
  (write : σ → String → String → Except SystemFault σ) (printer : Dot.Printer)
  (settings : Settings)

/-- The drawing of an automaton is printed again and written, if one is wanted. -/
def Draws (s : σ) (d : Automaton) (s' : σ) : Prop :=
  match settings.drawing with
  | none => s' = s
  | some path => ∃ text, d.render printer = .ok text ∧ write s path text = .ok s'

/-- Every stage is passed: the two files are read one after the other, the first of them defines
    an automaton, and its drawing is written if one is wanted. -/
def Succeeds (s : σ) (definition inputs : String) (d : Automaton) (s' : σ) : Prop :=
  ∃ s₁ s₂, ReadsText read s settings.definition definition s₁ ∧
    (Definition.parse definition).value = .ok d ∧
    ReadsText read s₁ settings.input inputs s₂ ∧ Draws write printer settings s₂ d s'

/-- The first stage that is not passed, with its failure and the files as it leaves them. -/
inductive FailsFirst (s : σ) : Failure → σ → Prop
  | readDefinition {fault : SystemFault} {s₁ : σ}
      (hdefinition : CannotRead read s settings.definition fault s₁) :
      FailsFirst s (.unreadable settings.definition fault) s₁
  | parseDefinition {definition : String} {s₁ : σ} {e : Definition.Error}
      (hdefinition : ReadsText read s settings.definition definition s₁)
      (hparse : (Definition.parse definition).value = .error e) :
      FailsFirst s (.invalid settings.definition e) s₁
  | readInputs {definition : String} {d : Automaton} {fault : SystemFault} {s₁ s₂ : σ}
      (hdefinition : ReadsText read s settings.definition definition s₁)
      (hparse : (Definition.parse definition).value = .ok d)
      (hinputs : CannotRead read s₁ settings.input fault s₂) :
      FailsFirst s (.unreadable settings.input fault) s₂
  | renderDrawing {definition inputs path reason : String} {d : Automaton} {s₁ s₂ : σ}
      (hdefinition : ReadsText read s settings.definition definition s₁)
      (hparse : (Definition.parse definition).value = .ok d)
      (hinputs : ReadsText read s₁ settings.input inputs s₂)
      (hpath : settings.drawing = some path)
      (hrender : d.render printer = .error (.undrawable reason)) :
      FailsFirst s (.undrawable reason) s₂
  | writeDrawing {definition inputs path text : String} {d : Automaton} {fault : SystemFault}
      {s₁ s₂ : σ} (hdefinition : ReadsText read s settings.definition definition s₁)
      (hparse : (Definition.parse definition).value = .ok d)
      (hinputs : ReadsText read s₁ settings.input inputs s₂)
      (hpath : settings.drawing = some path) (hrender : d.render printer = .ok text)
      (hwrite : write s₂ path text = .error fault) :
      FailsFirst s (.unwritable path fault) s₂

/-- The files after some of them were read, and none was written. -/
def AfterReads : σ → σ → Prop :=
  Relation.ReflTransGen fun s s' => ∃ path bytes, read s path = .ok (bytes, s')

end Course

variable {printer : Dot.Printer} {settings : Settings} {arguments : List String}
  {drawing : Option String} {s s' : σ}

/-- A drawing is printed again, or it was not understood. -/
theorem render_ok_or_undrawable (printer : Dot.Printer) (d : Automaton) :
    (∃ text, d.render printer = .ok text) ∨
      ∃ reason, d.render printer = .error (.undrawable reason) := by
  rw [Automaton.render]
  cases printer.parse (d.draw .spaced) with
  | ok g => exact .inl ⟨printer.print g, rfl⟩
  | error reason => exact .inr ⟨reason, rfl⟩

/-- A stage fails, unless every stage is passed.  One case for each stage, in their order. -/
theorem succeeds_or_failsFirst (read : σ → String → Except SystemFault (ByteArray × σ))
    (write : σ → String → String → Except SystemFault σ) (printer : Dot.Printer)
    (settings : Settings) (s : σ) :
    (∃ definition inputs d s', Succeeds read write printer settings s definition inputs d s') ∨
      ∃ e s', FailsFirst read write printer settings s e s' := by
  rcases readsText_or_cannotRead read s settings.definition with
    ⟨definition, s₁, hdefinition⟩ | ⟨fault, s₁, hdefinition⟩
  case inr => exact .inr ⟨_, s₁, .readDefinition hdefinition⟩
  cases hparse : (Definition.parse definition).value with
  | error e => exact .inr ⟨_, s₁, .parseDefinition hdefinition hparse⟩
  | ok d =>
    rcases readsText_or_cannotRead read s₁ settings.input with
      ⟨inputs, s₂, hinputs⟩ | ⟨fault, s₂, hinputs⟩
    case inr => exact .inr ⟨_, s₂, .readInputs hdefinition hparse hinputs⟩
    cases hpath : settings.drawing with
    | none =>
      have hdraws : Draws write printer settings s₂ d s₂ := by
        rw [Draws, hpath]
      exact .inl ⟨definition, inputs, d, s₂, s₁, s₂, hdefinition, hparse, hinputs, hdraws⟩
    | some path =>
      rcases render_ok_or_undrawable printer d with ⟨text, hrender⟩ | ⟨reason, hrender⟩
      case inr => exact .inr ⟨_, s₂, .renderDrawing hdefinition hparse hinputs hpath hrender⟩
      cases hwrite : write s₂ path text with
      | error fault =>
        exact .inr ⟨_, s₂, .writeDrawing hdefinition hparse hinputs hpath hrender hwrite⟩
      | ok s₃ =>
        have hdraws : Draws write printer settings s₂ d s₃ := by
          rw [Draws, hpath]
          exact ⟨text, hrender, hwrite⟩
        exact .inl ⟨definition, inputs, d, s₃, s₁, s₂, hdefinition, hparse, hinputs, hdraws⟩

/-! Up to the stage that fails, files are read only. -/

theorem readsText_afterReads {path text : String} (h : ReadsText read s path text s') :
    AfterReads read s s' :=
  .single ⟨path, text.toUTF8, h⟩

theorem cannotRead_afterReads {path : String} {fault : SystemFault}
    (h : CannotRead read s path fault s') : AfterReads read s s' := by
  cases h with
  | fault h => exact .refl
  | @noText bytes _ h hbytes => exact .single ⟨path, bytes, h⟩

theorem FailsFirst.afterReads {e : Failure}
    (h : FailsFirst read write printer settings s e s') : AfterReads read s s' := by
  cases h with
  | readDefinition hdefinition => exact cannotRead_afterReads hdefinition
  | parseDefinition hdefinition => exact readsText_afterReads hdefinition
  | readInputs hdefinition _ hinputs =>
    exact (readsText_afterReads hdefinition).trans (cannotRead_afterReads hinputs)
  | renderDrawing hdefinition _ hinputs | writeDrawing hdefinition _ hinputs =>
    exact (readsText_afterReads hdefinition).trans (readsText_afterReads hinputs)

/-! ## The stages -/

/-! The stages are run one after the other: a stage that is passed leaves the files to the next,
    and one that is not is the last. -/

section Run

variable {α β : Type} {x : StateM σ (Except Failure α)} {f : α → ExceptT Failure (StateM σ) β}

theorem run_bind_of_ok {a : α} (h : x.run s = (.ok a, s')) :
    (ExceptT.mk x >>= f).run.run s = (f a).run.run s' := by
  rw [ExceptT.run_bind, StateT.run_bind, ExceptT.run_mk, h]
  rfl

theorem run_bind_of_error {e : Failure} (h : x.run s = (.error e, s')) :
    (ExceptT.mk x >>= f).run.run s = (.error e, s') := by
  rw [ExceptT.run_bind, StateT.run_bind, ExceptT.run_mk, h]
  rfl

end Run

section Stages

variable {definition inputs path text reason : String} {d : Automaton} {fault : SystemFault}
  {e : Failure}

theorem run_load (h : ReadsText read s path definition s')
    (hparse : (Definition.parse definition).value = .ok d) :
    (Logged.value <$> (Host.ofStore read write).load path).run s = (.ok d, s') := by
  rw [StateT.run_map, Host.load_of_readsText h, hparse]
  rfl

theorem run_load_of_error {e : Definition.Error} (h : ReadsText read s path definition s')
    (hparse : (Definition.parse definition).value = .error e) :
    (Logged.value <$> (Host.ofStore read write).load path).run s =
      (.error (.invalid path e), s') := by
  rw [StateT.run_map, Host.load_of_readsText h, hparse]
  rfl

theorem run_load_of_cannotRead (h : CannotRead read s path fault s') :
    (Logged.value <$> (Host.ofStore read write).load path).run s =
      (.error (.unreadable path fault), s') := by
  rw [StateT.run_map, Host.load_of_cannotRead h]
  rfl

theorem run_saveDrawing (h : Draws write printer settings s d s') :
    (saveDrawing printer (Host.ofStore read write) d settings.drawing).run s = (.ok (), s') := by
  rw [Draws] at h
  cases hpath : settings.drawing with
  | none =>
    rw [hpath] at h
    rw [h]
    rfl
  | some path =>
    rw [hpath] at h
    obtain ⟨text, hrender, hwrite⟩ := h
    simp only [saveDrawing, hrender]
    rw [Host.run_bind_of_run (Host.ofStore_write_ok hwrite)]
    rfl

theorem run_saveDrawing_of_undrawable (hpath : settings.drawing = some path)
    (hrender : d.render printer = .error e) :
    (saveDrawing printer (Host.ofStore read write) d settings.drawing).run s = (.error e, s) := by
  simp only [hpath, saveDrawing, hrender]
  rfl

theorem run_saveDrawing_of_error (hpath : settings.drawing = some path)
    (hrender : d.render printer = .ok text) (h : write s path text = .error fault) :
    (saveDrawing printer (Host.ofStore read write) d settings.drawing).run s =
      (.error (.unwritable path fault), s) := by
  simp only [hpath, saveDrawing, hrender]
  rw [Host.run_bind_of_run (Host.ofStore_write_error h)]
  rfl

/-- When every stage is passed, every input is judged. -/
theorem stages_of_succeeds (h : Succeeds read write printer settings s definition inputs d s') :
    (stages printer (Host.ofStore read write) settings).run.run s =
      (.ok (d.evaluate inputs).value, s') := by
  obtain ⟨s₁, s₂, hdefinition, hparse, hinputs, hdraws⟩ := h
  rw [stages, run_bind_of_ok (run_load hdefinition hparse),
    run_bind_of_ok (Host.readText_of_readsText hinputs), run_bind_of_ok (run_saveDrawing hdraws)]
  rfl

/-- The failure of the first stage that is not passed is the failure of the stages. -/
theorem stages_of_failsFirst (h : FailsFirst read write printer settings s e s') :
    (stages printer (Host.ofStore read write) settings).run.run s = (.error e, s') := by
  rw [stages]
  cases h with
  | readDefinition hdefinition => exact run_bind_of_error (run_load_of_cannotRead hdefinition)
  | parseDefinition hdefinition hparse =>
    exact run_bind_of_error (run_load_of_error hdefinition hparse)
  | readInputs hdefinition hparse hinputs =>
    rw [run_bind_of_ok (run_load hdefinition hparse)]
    exact run_bind_of_error (Host.readText_of_cannotRead hinputs)
  | renderDrawing hdefinition hparse hinputs hpath hrender =>
    rw [run_bind_of_ok (run_load hdefinition hparse),
      run_bind_of_ok (Host.readText_of_readsText hinputs)]
    exact run_bind_of_error (run_saveDrawing_of_undrawable hpath hrender)
  | writeDrawing hdefinition hparse hinputs hpath hrender hwrite =>
    rw [run_bind_of_ok (run_load hdefinition hparse),
      run_bind_of_ok (Host.readText_of_readsText hinputs)]
    exact run_bind_of_error (run_saveDrawing_of_error hpath hrender hwrite)

end Stages

end Program
end Acceptor
