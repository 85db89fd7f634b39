/-
  The interactive program against the batch program.

  The interactive program hears its input byte by byte and decodes it line by line, and what it
  printed before a line that is no text stays printed.  The batch program decodes all of a file and
  cuts it then.  On every sequence of bytes the two see the same inputs, up to the first line that
  is no text.

  1. **One line** — the answer to a line that is a text is the answer to the inputs that the batch
     program finds on it (`answerLine_encode`).

  2. **Answers by line** — hearing bytes one by one is answering their lines (`converse_eq`).
     Lines that are texts are answered one after the other (`answerLines_append`), and the first
     that is none is the end (`answerLines_cons_of_not_isText`).

  3. **The conversation** — `Converses`: which lines are printed for a sequence of bytes
     (`IsPrinted`), and when it fails.

  4. **The two programs** — `interactive_agrees`: the interactive program converses if its
     definition loads, and the batch program prints the first of every three lines
     (`everyThird`).
-/
import Acceptor.Program.Interactive
import Acceptor.Proofs.Definition.Names
import Acceptor.Proofs.Program.Printing
import Acceptor.Proofs.Report.Rows
import Acceptor.Proofs.Run.OneLine
import Acceptor.Proofs.Text.Lines

namespace Acceptor

open Text (IsText AreLines encode)

namespace Program

variable {d : Automaton}

/-! ## One line -/

/-- Lines as they are printed. -/
def printed (lines : List String) : String := String.join (lines.map (· ++ "\n"))

/-- The three lines that answer an input: its row, the trace and the halt. -/
def replies (d : Automaton) (t : String) : List String :=
  [t ++ ": " ++ (d.run t).verdict.text, "  " ++ (d.run t).describe d.toTransitionSystem,
    "  " ++ (d.run t).describeHalt d.toTransitionSystem]

theorem printed_append (ls ms : List String) : printed (ls ++ ms) = printed ls ++ printed ms := by
  rw [printed, List.map_append, String.join_append]
  rfl

/-- The answer to an input of one line is three lines. -/
theorem newline_not_mem_of_mem_replies {t l : String} (hd : ∀ s, '\n' ∉ (d.name s).toList)
    (ht : '\n' ∉ t.toList) (h : l ∈ replies d t) : '\n' ∉ l.toList := by
  obtain ⟨htrace, hhalt⟩ := Automaton.newline_not_mem_description hd ht
  rw [replies, List.mem_cons, List.mem_cons, List.mem_singleton] at h
  rcases h with rfl | rfl | rfl
  · cases (d.run t).verdict <;> simp [Verdict.text, ht]
  · simp [htrace]
  · simp [hhalt]

theorem answer_eq_printed (d : Automaton) (t : String) : answer d t = printed (replies d t) := by
  rw [printed, replies, List.map_cons, List.map_cons, List.map_singleton, String.join_cons,
    String.join_cons, String.join_cons, String.join_nil, answer]
  simp only [String.append_assoc, String.append_empty]
  rfl

/-- What is skipped and what is answered on a line is what the batch program finds on it. -/
theorem answerLine_encode (d : Automaton) (line : List Char) :
    answerLine d (encode line) = .ok (printed ((candidatesOn line).flatMap (replies d))) := by
  have hbytes : (String.ofList line).toUTF8 = (encode line).toByteArray := by
    rw [String.toUTF8_eq_toByteArray, String.toByteArray_ofList]
    rfl
  rw [answerLine, Text.fromUTF8?_eq_some_iff.2 hbytes, candidatesOn]
  show Except.ok (if Text.isRemark (Text.trim (String.ofList line).toList) then "" else _) = _
  rw [String.toList_ofList]
  cases Text.isRemark (Text.trim line) with
  | true => rfl
  | false =>
    show Except.ok (answer d _) = Except.ok (printed (List.flatMap _ [_]))
    rw [answer_eq_printed, List.flatMap_singleton]

theorem answerLine_of_not_isText (d : Automaton) {line : List UInt8} (h : ¬ IsText line) :
    answerLine d line = .error .invalidText := by
  have hnone : String.fromUTF8? line.toByteArray = none := by
    rw [Text.isText_iff_isSome_fromUTF8?, Option.not_isSome_iff_eq_none] at h
    exact h
  rw [answerLine, hnone]

/-! ## Answers by line -/

/-- The answers to lines up to the first that fails, and its fault. -/
def answerLines (d : Automaton) : List (List UInt8) → String × Option SystemFault
  | [] => ("", none)
  | line :: rest =>
    match answerLine d line with
    | .error fault => ("", some fault)
    | .ok text => (text ++ (answerLines d rest).1, (answerLines d rest).2)

/-- On a line nothing is said.  Induction on its bytes. -/
theorem foldl_listen_of_not_mem (d : Automaton) (said : String) {line : List UInt8}
    (h : lineEnd ∉ line) (heard : List UInt8) :
    line.foldl (listen d) (said, .onLine heard) = (said, .onLine (line.reverse ++ heard)) := by
  induction line generalizing heard with
  | nil => rfl
  | cons byte line ih =>
    rw [List.mem_cons, not_or] at h
    have hlisten : listen d (said, .onLine heard) byte = (said, .onLine (byte :: heard)) := by
      rw [listen, Hearing.hear, if_neg (Ne.symm h.1)]
      exact congrArg (·, _) String.append_empty
    rw [List.foldl_cons, hlisten, ih h.2, List.reverse_cons, List.append_assoc]
    rfl

/-- After a fault nothing is said. -/
theorem foldl_listen_broken (d : Automaton) (said : String) (fault : SystemFault)
    (bytes : List UInt8) :
    bytes.foldl (listen d) (said, .broken fault) = (said, .broken fault) := by
  induction bytes with
  | nil => rfl
  | cons byte bytes ih =>
    have hlisten : listen d (said, .broken fault) byte = (said, .broken fault) :=
      congrArg (·, _) String.append_empty
    rw [List.foldl_cons, hlisten, ih]

/-- The end of a line answers it. -/
theorem foldl_listen_line (d : Automaton) (said : String) {line : List UInt8}
    (h : lineEnd ∉ line) :
    (line ++ [lineEnd]).foldl (listen d) (said, .onLine []) =
      (said ++ (Hearing.endLine d line.reverse).1, (Hearing.endLine d line.reverse).2) := by
  rw [List.foldl_append, foldl_listen_of_not_mem d said h, List.append_nil]
  rfl

theorem leave_broken (d : Automaton) (said : String) (fault : SystemFault) :
    leave d (said, .broken fault) = { output := said, failure := some (.interrupted fault) } := by
  show Hearing.outcome (said ++ "") (.broken fault) = _
  rw [String.append_empty]
  rfl

/-- Hearing bytes one by one is answering their lines.  Induction on the lines. -/
theorem leave_foldl_listen (d : Automaton) {input : List UInt8} {lines : List (List UInt8)}
    (h : AreLines lineEnd input lines) (said : String) :
    leave d (input.foldl (listen d) (said, .onLine [])) =
      { output := said ++ (answerLines d lines).1
        failure := (answerLines d lines).2.map .interrupted } := by
  induction h generalizing said with
  | none => rfl
  | @last line _ h =>
    rw [foldl_listen_of_not_mem d said h, List.append_nil, leave, Hearing.close, Hearing.endLine,
      List.reverse_reverse, answerLines]
    cases answerLine d line with
    | error fault => rfl
    | ok text =>
      show Outcome.mk _ _ = Outcome.mk (said ++ (text ++ "")) _
      rw [String.append_empty]
      rfl
  | @cons line rest lines h _ ih =>
    rw [List.append_cons, List.foldl_append, foldl_listen_line d said h, Hearing.endLine,
      List.reverse_reverse, answerLines]
    cases answerLine d line with
    | error fault =>
      show leave d (rest.foldl (listen d) (said ++ "", .broken fault)) = _
      rw [foldl_listen_broken, leave_broken]
      rfl
    | ok text =>
      show leave d (rest.foldl (listen d) (said ++ text, .onLine [])) = _
      rw [ih, String.append_assoc]

/-- A conversation answers the lines of its input. -/
theorem converse_eq (d : Automaton) {input : ByteArray} {lines : List (List UInt8)}
    (h : AreLines lineEnd input.data.toList lines) :
    converse d input =
      { output := (answerLines d lines).1
        failure := (answerLines d lines).2.map .interrupted } := by
  rw [converse, leave_foldl_listen d h, String.empty_append]

/-- Texts at the front are answered, whatever comes behind.  Induction on these texts. -/
theorem answerLines_append (d : Automaton) (texts : List (List Char))
    (rest : List (List UInt8)) :
    answerLines d (texts.map encode ++ rest) =
      (printed ((texts.flatMap candidatesOn).flatMap (replies d)) ++ (answerLines d rest).1,
        (answerLines d rest).2) := by
  induction texts with
  | nil =>
    show _ = (printed [] ++ _, _)
    rw [show printed [] = "" from rfl, String.empty_append]
    rfl
  | cons line texts ih =>
    rw [List.map_cons, List.cons_append, answerLines, answerLine_encode d line, ih,
      List.flatMap_cons, List.flatMap_append, printed_append, String.append_assoc]

/-- The first line that is no text ends the answers. -/
theorem answerLines_cons_of_not_isText (d : Automaton) {line : List UInt8} (h : ¬ IsText line)
    (rest : List (List UInt8)) : answerLines d (line :: rest) = ("", some .invalidText) := by
  rw [answerLines, answerLine_of_not_isText d h]

/-! ## The conversation -/

/-- `k` counts the lines in front of the first that is no text. -/
structure IsFirstBad (lines : List (List UInt8)) (k : Nat) : Prop where
  bad : ∃ line, lines[k]? = some line ∧ ¬ IsText line
  before : ∀ line ∈ lines.take k, IsText line

/-- The output is these lines, and none of them is cut by a newline. -/
structure IsPrinted (output : String) (lines : List String) : Prop where
  eq_printed : output = printed lines
  one_line : ∀ line ∈ lines, '\n' ∉ line.toList

/-- What is printed for bytes that are cut into lines: an answer to each input in front of the
    first line that is no text, or to every input if there is no such line. -/
structure Converses (d : Automaton) (input : List UInt8) (lines : List (List UInt8))
    (o : Outcome) : Prop where
  stops : ∀ k, IsFirstBad lines k → o.exitCode = 1 ∧
    ∃ text : String, text.toUTF8.data.toList = (lines.take k).flatMap (· ++ [0x0A]) ∧
      IsPrinted o.output ((candidates text).flatMap (replies d))
  ends : (¬ ∃ k, IsFirstBad lines k) → o.exitCode = 0 ∧
    ∃ text : String, text.toUTF8.data.toList = input ∧
      IsPrinted o.output ((candidates text).flatMap (replies d))
  whole : (¬ ∃ k, IsFirstBad lines k) ↔ IsText input

theorem not_exists_isFirstBad_iff {lines : List (List UInt8)} :
    (¬ ∃ k, IsFirstBad lines k) ↔ ∀ line ∈ lines, IsText line := by
  constructor
  · intro hnone
    induction lines with
    | nil => exact fun line h => absurd h List.not_mem_nil
    | cons line lines ih =>
      have hline : IsText line := by
        by_contra hbad
        exact hnone ⟨0, ⟨line, rfl, hbad⟩, fun l h => absurd h List.not_mem_nil⟩
      refine List.forall_mem_cons.2 ⟨hline, ih ?_⟩
      rintro ⟨k, hbad, hbefore⟩
      exact hnone ⟨k + 1, hbad, List.forall_mem_cons.2 ⟨hline, hbefore⟩⟩
  · rintro hall ⟨k, ⟨line, hline, hbad⟩, -⟩
    exact hbad (hall line (List.mem_of_getElem? hline))

/-- Lines of bytes that are texts are lines of characters. -/
theorem exists_texts {lines : List (List UInt8)} (hend : ∀ line ∈ lines, 0x0A ∉ line)
    (h : ∀ line ∈ lines, IsText line) :
    ∃ texts : List (List Char), lines = texts.map encode ∧ ∀ line ∈ texts, '\n' ∉ line := by
  induction lines with
  | nil => exact ⟨[], rfl, fun line h => absurd h List.not_mem_nil⟩
  | cons line lines ih =>
    rw [List.forall_mem_cons] at hend h
    obtain ⟨texts, rfl, htexts⟩ := ih hend.2 h.2
    obtain ⟨text, rfl⟩ := Text.isText_iff_exists_encode.1 h.1
    have htext : '\n' ∉ text := fun hmem => hend.1 (Text.newline_mem_encode_iff.2 hmem)
    exact ⟨text :: texts, rfl, List.forall_mem_cons.2 ⟨htext, htexts⟩⟩

theorem IsFirstBad.eq_append {lines : List (List UInt8)} {k : Nat} (h : IsFirstBad lines k) :
    ∃ bad, ¬ IsText bad ∧ lines = lines.take k ++ bad :: lines.drop (k + 1) := by
  obtain ⟨bad, hbad, hnone⟩ := h.bad
  obtain ⟨hlt, rfl⟩ := List.getElem?_eq_some_iff.1 hbad
  refine ⟨lines[k], hnone, ?_⟩
  rw [← List.drop_eq_getElem_cons hlt, List.take_append_drop]

theorem isPrinted_replies (hd : ∀ s, '\n' ∉ (d.name s).toList) (text : String) :
    IsPrinted (printed ((candidates text).flatMap (replies d)))
      ((candidates text).flatMap (replies d)) where
  eq_printed := rfl
  one_line l h := by
    obtain ⟨t, ht, hl⟩ := List.mem_flatMap.1 h
    exact newline_not_mem_of_mem_replies hd (newline_not_mem_of_mem_candidates ht) hl

/-- Up to the first line that is no text, the answers are those to a text. -/
theorem answerLines_of_isFirstBad (d : Automaton) {input : List UInt8} {lines : List (List UInt8)}
    {k : Nat} (h : AreLines lineEnd input lines) (hk : IsFirstBad lines k) :
    ∃ text : String, text.toUTF8.data.toList = (lines.take k).flatMap (· ++ [0x0A]) ∧
      answerLines d lines =
        (printed ((candidates text).flatMap (replies d)), some .invalidText) := by
  have hend : ∀ line ∈ lines.take k, 0x0A ∉ line := fun line hline =>
    h.not_mem line (List.mem_of_mem_take hline)
  obtain ⟨texts, htexts, hnewline⟩ := exists_texts hend hk.before
  obtain ⟨bad, hbad, hsplit⟩ := hk.eq_append
  refine ⟨String.ofList (texts.flatMap (· ++ ['\n'])), ?_, ?_⟩
  · rw [Text.data_toUTF8, String.toList_ofList, Text.encode_flatMap_newline, htexts]
  · rw [hsplit, htexts, answerLines_append, answerLines_cons_of_not_isText d hbad,
      String.append_empty, candidates_eq_flatMap, String.toList_ofList,
      Text.lines_flatMap hnewline]

/-- If the bytes are a text, its inputs are answered. -/
theorem answerLines_of_text (d : Automaton) {text : String} {lines : List (List UInt8)}
    (h : AreLines lineEnd text.toUTF8.data.toList lines) :
    answerLines d lines = (printed ((candidates text).flatMap (replies d)), none) := by
  -- the lines of the text are the lines of the bytes
  have hlines : AreLines '\n' text.toList (Text.lines text.toList) := Text.areLines_iff.2 rfl
  have hbytes : lines = (Text.lines text.toList).map encode := by
    rw [Text.data_toUTF8] at h
    exact h.cut_eq.symm.trans hlines.encode.cut_eq
  rw [hbytes, ← List.append_nil (List.map _ _), answerLines_append,
    ← candidates_eq_flatMap]
  show (_ ++ "", none) = _
  rw [String.append_empty]

theorem converses_converse (hd : ∀ s, '\n' ∉ (d.name s).toList) (input : ByteArray)
    {lines : List (List UInt8)} (h : AreLines lineEnd input.data.toList lines) :
    Converses d input.data.toList lines (converse d input) := by
  rw [converse_eq d h]
  refine ⟨?_, ?_, ?_⟩
  · intro k hk
    obtain ⟨text, htext, hanswers⟩ := answerLines_of_isFirstBad d h hk
    rw [hanswers]
    exact ⟨rfl, text, htext, isPrinted_replies hd text⟩
  · intro hnone
    obtain ⟨text, htext⟩ := h.isText_iff.2 (not_exists_isFirstBad_iff.1 hnone)
    rw [answerLines_of_text d (htext ▸ h)]
    exact ⟨rfl, text, htext, isPrinted_replies hd text⟩
  · rw [not_exists_isFirstBad_iff]
    exact h.isText_iff.symm

/-! ## The two programs -/

/-- Of every three elements the first. -/
def everyThird {α : Type} : List α → List α
  | first :: _ :: _ :: rest => first :: everyThird rest
  | _ => []

theorem everyThird_replies (d : Automaton) (ts : List String) :
    everyThird (ts.flatMap (replies d)) = ts.map fun t => (d.judge t).line := by
  induction ts with
  | nil => rfl
  | cons t ts ih =>
    rw [List.flatMap_cons, List.map_cons, ← ih]
    rfl

/-- The rows are the first lines of the answers. -/
theorem join_rowTexts (d : Automaton) (inputs : String) :
    String.join (rowTexts d inputs) =
      printed (everyThird ((candidates inputs).flatMap (replies d))) := by
  rw [everyThird_replies, printed, List.map_map, rowTexts]
  rfl

section Interactive

variable {σ : Type} {read : σ → String → Except SystemFault (ByteArray × σ)}
  {write : σ → String → String → Except SystemFault σ} {s s₁ : σ} {arguments : List String}
  {input : StateM σ ByteArray} {definition : String} {d : Automaton}

theorem interactive_of_loads (hdefinition : ReadsText read s (definitionOf arguments) definition s₁)
    (hparse : (Definition.parse definition).value = .ok d) :
    (interactive (Host.ofStore read write) arguments input).run s =
      (converse d (input.run s₁).1, (input.run s₁).2) := by
  rw [interactive, interactiveWith, StateT.run_bind, Host.load_of_readsText hdefinition, hparse]
  rfl

/-- A definition does not load: its file cannot be read, or what is in it is no definition. -/
theorem interactive_of_not_loads
    (h : ¬ ∃ definition d s₁, ReadsText read s (definitionOf arguments) definition s₁ ∧
      (Definition.parse definition).value = .ok d) :
    ∃ e s', (interactive (Host.ofStore read write) arguments input).run s =
      ({ output := "", failure := some e }, s') := by
  rcases readsText_or_cannotRead read s (definitionOf arguments) with
    ⟨definition, s₁, hdefinition⟩ | ⟨fault, s₁, hdefinition⟩
  · cases hparse : (Definition.parse definition).value with
    | ok d => exact absurd ⟨definition, d, s₁, hdefinition, hparse⟩ h
    | error e =>
      refine ⟨.invalid (definitionOf arguments) e, s₁, ?_⟩
      rw [interactive, interactiveWith, StateT.run_bind, Host.load_of_readsText hdefinition, hparse]
      rfl
  · refine ⟨.unreadable (definitionOf arguments) fault, s₁, ?_⟩
    rw [interactive, interactiveWith, StateT.run_bind, Host.load_of_cannotRead hdefinition]
    rfl

end Interactive

/-- Without a drawing, the batch program prints these rows whenever it works on files that hold
    this definition and these bytes. -/
def BatchPrints (definition : String) (input : ByteArray) (rows : List String) : Prop :=
  ∀ {σ : Type} (read : σ → String → Except SystemFault (ByteArray × σ))
    (write : σ → String → String → Except SystemFault σ) (arguments : List String)
    (settings : Settings) (s s₁ s₂ : σ), settings.IsOf arguments none →
    ReadsText read s settings.definition definition s₁ →
    read s₁ settings.input = .ok (input, s₂) →
      ((batch (Host.ofStore read write) arguments none).run s).1 = { output := printed rows }

theorem batchPrints_report {definition text : String} {d : Automaton} {input : ByteArray}
    (hparse : (Definition.parse definition).value = .ok d)
    (htext : text.toUTF8.data.toList = input.data.toList) :
    BatchPrints definition input (everyThird ((candidates text).flatMap (replies d))) := by
  intro σ read write arguments settings s s₁ s₂ hs hdefinition hinput
  have hbytes : text.toUTF8 = input := ByteArray.ext (Array.toList_inj.1 htext)
  have hnone : settings.drawing = none := by
    rw [Option.eq_none_iff_forall_ne_some]
    exact fun path hpath => absurd ((hs.drawing path).1 hpath).1 (by simp)
  have hdraws : Draws write Dot.respacer settings s₂ d s₂ := by
    rw [Draws, hnone]
  have hsucceeds : Succeeds read write Dot.respacer settings s definition text d s₂ :=
    ⟨s₁, s₂, hdefinition, hparse, by rw [ReadsText, hbytes, hinput], hdraws⟩
  rw [batch, batchWith_of_takes hs hsucceeds (takes_unfailing _ _), join_rowTexts]

/-- **The interactive program sees what the batch program sees**, up to the first line that is no
    text, on every sequence of bytes; without a definition it prints nothing. -/
theorem interactive_agrees {σ : Type} (read : σ → String → Except SystemFault (ByteArray × σ))
    (write : σ → String → String → Except SystemFault σ) (s : σ) (arguments : List String)
    (input : StateM σ ByteArray) :
    (∀ definition d s₁ bytes s₂, ReadsText read s (definitionOf arguments) definition s₁ →
      (Definition.parse definition).value = .ok d → input.run s₁ = (bytes, s₂) →
        ∃ o lines, (interactive (Host.ofStore read write) arguments input).run s = (o, s₂) ∧
          AreLines 0x0A bytes.data.toList lines ∧ Converses d bytes.data.toList lines o ∧
          ∀ text : String, text.toUTF8.data.toList = bytes.data.toList →
            BatchPrints definition bytes
              (everyThird ((candidates text).flatMap (replies d)))) ∧
      ((¬ ∃ definition d s₁, ReadsText read s (definitionOf arguments) definition s₁ ∧
          (Definition.parse definition).value = .ok d) →
        ((interactive (Host.ofStore read write) arguments input).run s).1.output = "" ∧
          ((interactive (Host.ofStore read write) arguments input).run s).1.exitCode = 1) := by
  constructor
  · intro definition d s₁ bytes s₂ hdefinition hparse hinput
    obtain ⟨lines, hlines⟩ := Text.exists_areLines (0x0A : UInt8) bytes.data.toList
    have hrun : (interactive (Host.ofStore read write) arguments input).run s =
        (converse d bytes, s₂) := by
      rw [interactive_of_loads hdefinition hparse, hinput]
    have hconverses : Converses d bytes.data.toList lines (converse d bytes) :=
      converses_converse (Definition.newline_not_mem_name hparse) bytes hlines
    exact ⟨converse d bytes, lines, hrun, hlines, hconverses,
      fun text htext => batchPrints_report hparse htext⟩
  · intro hnone
    have hfails : ∃ e s', (interactive (Host.ofStore read write) arguments input).run s =
        ({ output := "", failure := some e }, s') := interactive_of_not_loads hnone
    obtain ⟨e, s', hrun⟩ := hfails
    rw [hrun]
    exact ⟨rfl, rfl⟩

/-- The words with an odd number of ones. -/
def odd : String := "states: E,O\nalphabet: 1\nstart: E\naccept: O\ntransitions:\nE,1->O\nO,1->E\n"

/-- What it defines. -/
def oddAutomaton : Automaton := ⟨⟨["E", "O"], ['1'], [1], [((1, '1'), 0), ((0, '1'), 1)]⟩, 0⟩

/-- Two inputs with a comment between them, a byte that is in no text, and one input more. -/
def garbled : ByteArray := "1\n# ones\r\n 1 1 \n".toUTF8 ++ [0xFF, 0x0A, 0x31].toByteArray

/-- The inputs in front of the byte are answered, and the one behind it is not. -/
theorem garbled_converses :
    (Definition.parse odd).value = .ok oddAutomaton ∧
      IsFirstBad (Text.cut lineEnd garbled.data.toList) 3 ∧
        ∃ o, (interactive (Host.ofStore (fun _ _ => .ok (odd.toUTF8, ())) fun _ _ _ => .ok ()) []
            (pure garbled)).run () = (o, ()) ∧ o.exitCode = 1 ∧
          o.output = "1: ACCEPTED\n  E -1-> O\n  ended in accepting state O\n" ++
            "1 1: REJECTED\n  E -1-> O -1-> E\n  ended in non-accepting state E\n" := by
  have hparse : (Definition.parse odd).value = .ok oddAutomaton := by decide +kernel
  have hbad : IsFirstBad (Text.cut lineEnd garbled.data.toList) 3 :=
    ⟨⟨[0xFF], by decide +kernel, by decide +kernel⟩, by decide +kernel⟩
  obtain ⟨o, lines, hrun, hlines, hconverses, -⟩ :=
    (interactive_agrees (fun _ _ => .ok (odd.toUTF8, ())) (fun _ _ _ => .ok ()) () []
      (pure garbled)).1 odd oddAutomaton () garbled () rfl hparse rfl
  rw [← hlines.cut_eq] at hconverses
  obtain ⟨hcode, text, htext, houtput⟩ := hconverses.stops 3 hbad
  obtain rfl : text = "1\n# ones\r\n 1 1 \n" :=
    Text.eq_of_data_toUTF8 (htext.trans (by decide +kernel))
  refine ⟨hparse, hbad, o, hrun, hcode, houtput.eq_printed.trans ?_⟩
  decide +kernel

end Program
end Acceptor
