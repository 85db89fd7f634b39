/-
  The layout of a definition does not change what it means.

  A definition may be laid out anew: remarks are put in between its lines, blanks at the ends of a
  line, a carriage return in front of every newline, a newline at the end.  None of this touches
  the text of a line that counts, so the same automaton is read, or the same failure at the same
  line.  Only the numbers of the lines below a new remark change, and with them the numbers that
  failures and records name.

  1. **Lines from a number on** — `linesFrom n s`: the significant lines of `s` when its first line
     has the number `n`.  They are found line by line, and blanks at the ends of a line do not
     count.

  2. **Edits** — `Edit s s' move`: the layout of `s` is changed in one way and gives `s'`, and the
     line with the number `n` has the number `move n` afterwards.  An edit renumbers the
     significant lines and does nothing else to them (`linesFrom_edit`).

  3. **Reading renumbered lines** — what a reader makes of a line does not depend on its number, so
     the numbers can be changed before or after (`readLines_renumber`).

  4. **Relaid texts** — `Relaid`: one edit after the other.  Main result: `parse_relaid`.
-/
import Acceptor.Proofs.Definition.Fault

namespace Acceptor.Definition

/-! ## Lines from a number on -/

/-- The line with the number `n`, if it is significant. -/
def lineAt (n : Nat) (line : List Char) : List Line :=
  significant [⟨n, String.ofList (Text.trim line)⟩]

/-- The significant lines of a text whose first line has the number `n`. -/
def linesFrom (n : Nat) (s : List Char) : List Line :=
  significant (((Text.lines s).zipIdx n).map fun (line, n) => ⟨n, String.ofList (Text.trim line)⟩)

theorem significantLines_eq_linesFrom (text : String) :
    significantLines text = linesFrom 1 text.toList := rfl

section LinesFrom

variable {n k : Nat} {line line' front s : List Char}

theorem lineAt_of_isRemark (h : Text.isRemark line = true) (n : Nat) : lineAt n line = [] := by
  have hremark : Text.isRemark (Text.trim line) = true := by rw [isRemark_trim_eq, h]
  rw [lineAt, significant, List.filter_cons_of_neg (by simpa using hremark), List.filter_nil]

theorem lineAt_congr (h : Text.trim line' = Text.trim line) (n : Nat) :
    lineAt n line' = lineAt n line := by
  rw [lineAt, lineAt, h]

@[simp] theorem linesFrom_nil (n : Nat) : linesFrom n [] = [] := rfl

theorem linesFrom_line (h : '\n' ∉ line) (n : Nat) (rest : List Char) :
    linesFrom n (line ++ '\n' :: rest) = lineAt n line ++ linesFrom (n + 1) rest := by
  rw [linesFrom, Text.lines_append_newline h, List.zipIdx_cons, List.map_cons,
    ← List.singleton_append, significant_append]
  rfl

/-- A last line without a newline is read as if there were one.  If it is empty it is no line, and
    the empty line would not be significant. -/
theorem linesFrom_lastLine (h : '\n' ∉ line) (n : Nat) : linesFrom n line = lineAt n line := by
  by_cases hnil : line = []
  · subst hnil
    exact (lineAt_of_isRemark rfl n).symm
  · rw [linesFrom, Text.lines_of_not_mem h hnil]
    rfl

theorem linesFrom_append (h : Text.EndsLine front) (n : Nat) (s : List Char) :
    linesFrom n (front ++ s) = linesFrom n front ++ linesFrom (n + (Text.lines front).length) s := by
  rw [linesFrom, Text.lines_append h, List.zipIdx_append, List.map_append, significant_append]
  rfl

/-- The lines of a text have the numbers from the first on. -/
theorem number_of_mem_linesFrom {l : Line} (h : l ∈ linesFrom n s) :
    n ≤ l.number ∧ l.number < n + (Text.lines s).length := by
  obtain ⟨⟨line, i⟩, hmem, rfl⟩ := List.mem_map.1 (List.mem_filter.1 h).1
  exact ⟨List.le_snd_of_mem_zipIdx hmem, List.snd_lt_add_of_mem_zipIdx hmem⟩

end LinesFrom

/-! ## Edits -/

/-- Where the lines of a text go when a line is put in behind the first `k` of them: those at or
    below its place move down by one. -/
def movedBelow (k n : Nat) : Nat := if n ≤ k then n else n + 1

/-- A text with a carriage return in front of each newline. -/
def withReturns (s : List Char) : List Char :=
  s.flatMap fun c => if c = '\n' then ['\r', '\n'] else [c]

/-- The layout of a text is changed in one way, and each line goes where `move` says. -/
inductive Edit : List Char → List Char → (Nat → Nat) → Prop
  /-- A remark is put in as a line of its own. -/
  | insert {front behind remark : List Char} (hfront : Text.EndsLine front)
      (hline : '\n' ∉ remark) (hremark : Text.isRemark remark = true) :
      Edit (front ++ behind) (front ++ remark ++ '\n' :: behind)
        (movedBelow (Text.lines front).length)
  /-- A remark is put in as the last line, without a newline. -/
  | insertLast {front remark : List Char} (hfront : Text.EndsLine front) (hline : '\n' ∉ remark)
      (hremark : Text.isRemark remark = true) : Edit front (front ++ remark) id
  /-- Blanks are put at the two ends of a line. -/
  | pad {front lead line trail behind : List Char} (hfront : Text.EndsLine front)
      (hline : '\n' ∉ line) (hlead : ∀ c ∈ lead, Text.isBlank c = true ∧ c ≠ '\n')
      (htrail : ∀ c ∈ trail, Text.isBlank c = true ∧ c ≠ '\n') (hbehind : Text.LineEnd behind) :
      Edit (front ++ line ++ behind) (front ++ (lead ++ line ++ trail) ++ behind) id
  /-- A carriage return is put in front of every newline. -/
  | carriageReturns (s : List Char) : Edit s (withReturns s) id
  /-- A newline is put at the end. -/
  | finalNewline (s : List Char) : Edit s (s ++ ['\n']) id

/-- The same line with another number. -/
def Line.renumber (move : Nat → Nat) (line : Line) : Line :=
  { line with number := move line.number }

section Edits

variable {n k : Nat} {s s' front remark line lead trail behind : List Char} {move : Nat → Nat}

theorem renumber_id (lines : List Line) : lines.map (Line.renumber id) = lines :=
  List.map_id lines

theorem renumber_eq_self {lines : List Line} (h : ∀ l ∈ lines, move l.number = l.number) :
    lines.map (Line.renumber move) = lines := by
  have hsame : ∀ l ∈ lines, l.renumber move = l := by
    intro l hl
    rw [Line.renumber, h l hl]
  rw [List.map_congr_left hsame, List.map_id']

/-- Whether a line is significant does not depend on its number. -/
theorem renumber_significant (lines : List Line) :
    (significant lines).map (Line.renumber move) = significant (lines.map (Line.renumber move)) := by
  rw [significant, significant, List.filter_map]
  rfl

theorem linesFrom_add (n k : Nat) (s : List Char) :
    linesFrom (n + k) s = (linesFrom n s).map (Line.renumber (· + k)) := by
  rw [linesFrom, linesFrom, renumber_significant, List.map_map, Nat.add_comm,
    ← List.map_snd_add_zipIdx_eq_zipIdx, List.map_map]
  rfl

/-! Every edit renumbers the significant lines. -/

theorem linesFrom_insert (hfront : Text.EndsLine front) (hline : '\n' ∉ remark)
    (hremark : Text.isRemark remark = true) (behind : List Char) :
    linesFrom 1 (front ++ remark ++ '\n' :: behind) =
      (linesFrom 1 (front ++ behind)).map
        (Line.renumber (movedBelow (Text.lines front).length)) := by
  have habove : (linesFrom 1 front).map (Line.renumber (movedBelow (Text.lines front).length)) =
      linesFrom 1 front := by
    apply renumber_eq_self
    intro l hl
    have hlt := (number_of_mem_linesFrom hl).2
    rw [movedBelow, if_pos (by omega)]
  have hbelow : (linesFrom (1 + (Text.lines front).length) behind).map
      (Line.renumber (movedBelow (Text.lines front).length)) =
        (linesFrom (1 + (Text.lines front).length) behind).map (Line.renumber (· + 1)) := by
    apply List.map_congr_left
    intro l hl
    have hle := (number_of_mem_linesFrom hl).1
    rw [Line.renumber, Line.renumber, movedBelow, if_neg (by omega)]
  rw [List.append_assoc, linesFrom_append hfront, linesFrom_line hline, lineAt_of_isRemark hremark,
    List.nil_append, linesFrom_append hfront, List.map_append, habove, hbelow, linesFrom_add]

theorem linesFrom_insertLast (hfront : Text.EndsLine front) (hline : '\n' ∉ remark)
    (hremark : Text.isRemark remark = true) (n : Nat) :
    linesFrom n (front ++ remark) = linesFrom n front := by
  rw [linesFrom_append hfront, linesFrom_lastLine hline, lineAt_of_isRemark hremark,
    List.append_nil]

/-- A carriage return is a blank. -/
theorem trim_append_carriageReturn (line : List Char) :
    Text.trim (line ++ ['\r']) = Text.trim line :=
  Text.trim_append_blank (List.forall_mem_singleton.2 (by decide)) line

theorem newline_not_mem_return (h : '\n' ∉ line) : '\n' ∉ line ++ ['\r'] := by
  rw [List.mem_append, List.mem_singleton, not_or]
  exact ⟨h, by decide⟩

/-- Only the trimmed text of a line counts, whatever ends the line. -/
theorem linesFrom_lineEnd (htrim : Text.trim line' = Text.trim line) (hline : '\n' ∉ line)
    (hline' : '\n' ∉ line') (hbehind : Text.LineEnd behind) (n : Nat) :
    linesFrom n (line' ++ behind) = linesFrom n (line ++ behind) := by
  cases hbehind with
  | none =>
    rw [List.append_nil, List.append_nil, linesFrom_lastLine hline, linesFrom_lastLine hline',
      lineAt_congr htrim]
  | newline rest => rw [linesFrom_line hline, linesFrom_line hline', lineAt_congr htrim]
  | carriageReturn rest =>
    -- the carriage return belongs to the line
    have hends : Text.trim (line' ++ ['\r']) = Text.trim (line ++ ['\r']) := by
      rw [trim_append_carriageReturn, trim_append_carriageReturn, htrim]
    rw [List.append_cons, List.append_cons line, linesFrom_line (newline_not_mem_return hline),
      linesFrom_line (newline_not_mem_return hline'), lineAt_congr hends]

theorem linesFrom_pad (hfront : Text.EndsLine front) (hline : '\n' ∉ line)
    (hlead : ∀ c ∈ lead, Text.isBlank c = true ∧ c ≠ '\n')
    (htrail : ∀ c ∈ trail, Text.isBlank c = true ∧ c ≠ '\n') (hbehind : Text.LineEnd behind)
    (n : Nat) :
    linesFrom n (front ++ (lead ++ line ++ trail) ++ behind) =
      linesFrom n (front ++ line ++ behind) := by
  have htrim : Text.trim (lead ++ line ++ trail) = Text.trim line := by
    rw [Text.trim_append_blank fun c hc => (htrail c hc).1,
      Text.trim_append_of_blank fun c hc => (hlead c hc).1]
  have hpadded : '\n' ∉ lead ++ line ++ trail := by
    intro hmem
    rcases List.mem_append.1 hmem with hin | hin
    · rcases List.mem_append.1 hin with hin | hin
      · exact (hlead _ hin).2 rfl
      · exact hline hin
    · exact (htrail _ hin).2 rfl
  rw [List.append_assoc front, List.append_assoc front, linesFrom_append hfront,
    linesFrom_append hfront, linesFrom_lineEnd htrim hline hpadded hbehind]

theorem withReturns_of_not_mem (h : '\n' ∉ line) : withReturns line = line := by
  induction line with
  | nil => rfl
  | cons c line ih =>
    rw [List.mem_cons, not_or] at h
    rw [withReturns, List.flatMap_cons, if_neg (Ne.symm h.1)]
    show [c] ++ withReturns line = _
    rw [ih h.2, List.singleton_append]

theorem withReturns_line (h : '\n' ∉ line) (rest : List Char) :
    withReturns (line ++ '\n' :: rest) = line ++ ['\r'] ++ '\n' :: withReturns rest := by
  rw [withReturns, List.flatMap_append, List.append_assoc]
  show withReturns line ++ _ = _
  rw [withReturns_of_not_mem h]
  rfl

/-- Induction on the lines of the text: each of them gets a blank at its end. -/
theorem linesFrom_withReturns (n : Nat) (s : List Char) :
    linesFrom n (withReturns s) = linesFrom n s := by
  obtain ⟨ls, hls⟩ := Text.exists_areLines '\n' s
  induction hls generalizing n with
  | none => rfl
  | last hne hline => rw [withReturns_of_not_mem hline]
  | @cons line rest ls hline hrest ih =>
    rw [withReturns_line hline, linesFrom_line (newline_not_mem_return hline),
      linesFrom_line hline, ih, lineAt_congr (trim_append_carriageReturn line)]

/-- Induction on the lines of the text: only at its end is there something new, which is the end of
    the last line, or an empty line behind it. -/
theorem linesFrom_finalNewline (n : Nat) (s : List Char) :
    linesFrom n (s ++ ['\n']) = linesFrom n s := by
  obtain ⟨ls, hls⟩ := Text.exists_areLines '\n' s
  induction hls generalizing n with
  | none =>
    show linesFrom n ([] ++ ['\n']) = []
    rw [linesFrom_line List.not_mem_nil, lineAt_of_isRemark rfl, linesFrom_nil, List.append_nil]
  | last hne hline =>
    rw [linesFrom_line hline, linesFrom_lastLine hline, linesFrom_nil, List.append_nil]
  | cons hline hrest ih =>
    rw [List.append_assoc, List.cons_append, linesFrom_line hline, linesFrom_line hline, ih]

/-- An edit renumbers the significant lines and does nothing else to them. -/
theorem linesFrom_edit (h : Edit s s' move) :
    linesFrom 1 s' = (linesFrom 1 s).map (Line.renumber move) := by
  cases h with
  | insert hfront hline hremark => exact linesFrom_insert hfront hline hremark _
  | insertLast hfront hline hremark =>
    rw [renumber_id, linesFrom_insertLast hfront hline hremark]
  | pad hfront hline hlead htrail hbehind =>
    rw [renumber_id, linesFrom_pad hfront hline hlead htrail hbehind]
  | carriageReturns s => rw [renumber_id, linesFrom_withReturns]
  | finalNewline s => rw [renumber_id, linesFrom_finalNewline]

end Edits

/-! ## Reading renumbered lines -/

/-- The same failure, at the line with another number. -/
def Error.renumber (move : Nat → Nat) (e : Error) : Error :=
  { e with place := e.place.map (Line.renumber move) }

/-- The same record, of the line with another number. -/
def renumberRecord (move : Nat → Nat) : Record → Record
  | .rebound line source symbol target old => .rebound (move line) source symbol target old
  | x => x

section Reading

variable {text text' : String}

theorem noteOf_renumber (move : Nat → Nat) (m : TransitionSystem) (n : Nat) :
    noteOf m (move n) = fun y => (noteOf m n y).map (renumberRecord move) := by
  funext y
  unfold noteOf
  split <;> rfl

/-- What a line does to the reader does not depend on its number. -/
theorem Reader.step_renumber (move : Nat → Nat) (r : Reader) (line : Line) :
    r.step (line.renumber move) =
      (r.step line).map fun read => { read with log := read.log.map (renumberRecord move) } := by
  cases hd : declarations r.part line.text.toList with
  | error cause =>
    unfold step
    show (declarations r.part line.text.toList >>= _) = _
    rw [hd]
    rfl
  | ok d =>
    obtain ⟨part, xs⟩ := d
    cases hx : r.builder.declareAll xs with
    | error cause =>
      unfold step
      show (declarations r.part line.text.toList >>= _) = _
      rw [hd]
      show (r.builder.declareAll xs >>= _) = Except.map _ (r.builder.declareAll xs >>= _)
      rw [hx]
      rfl
    | ok a =>
      obtain ⟨answers, b⟩ := a
      have hd' : declarations r.part (line.renumber move).text.toList = .ok (part, xs) := hd
      rw [step_of_ok hd' hx, step_of_ok hd hx]
      have hlog : (xs.zip answers).filterMap (noteOf b.toTransitionSystem (move line.number)) =
          ((xs.zip answers).filterMap (noteOf b.toTransitionSystem line.number)).map
            (renumberRecord move) := by
        rw [noteOf_renumber, List.map_filterMap]
      show Except.ok (Logged.mk (List.filterMap (noteOf _ (move line.number)) _) _) = _
      rw [hlog]
      rfl

/-- So the numbers may be changed before or after the reading.  Induction on the lines. -/
theorem Reader.readLines_renumber (move : Nat → Nat) (r : Reader) (lines : List Line) :
    (r.readLines (lines.map (Line.renumber move))).value =
        (r.readLines lines).value.mapError (Error.renumber move) ∧
      (r.readLines (lines.map (Line.renumber move))).log =
        (r.readLines lines).log.map (renumberRecord move) := by
  induction lines generalizing r with
  | nil => exact ⟨rfl, rfl⟩
  | cons line lines ih =>
    have hstep := step_renumber move r line
    rw [List.map_cons, readLines, readLines, hstep]
    cases r.step line with
    | error cause => exact ⟨rfl, rfl⟩
    | ok read =>
      obtain ⟨hvalue, hlog⟩ := ih read.value
      refine ⟨hvalue, ?_⟩
      show read.log.map _ ++ _ = (read.log ++ _).map _
      rw [List.map_append, hlog]

/-- A summary names no line. -/
theorem renumber_summary (move : Nat → Nat) (d : Automaton) :
    (summary d).map (renumberRecord move) = summary d := by
  unfold summary
  by_cases hnone : d.unreachable = []
  · by_cases hacc : d.acceptingStates = [] <;> simp [hnone, hacc, renumberRecord]
  · by_cases hacc : d.acceptingStates = [] <;> simp [hnone, hacc, renumberRecord]

/-- Where the significant lines are only renumbered, the outcome is only renumbered. -/
theorem parse_of_renumber {move : Nat → Nat}
    (h : significantLines text' = (significantLines text).map (Line.renumber move)) :
    (parse text').value = (parse text).value.mapError (Error.renumber move) ∧
      (parse text').log = (parse text).log.map (renumberRecord move) := by
  obtain ⟨hvalue, hlog⟩ := Reader.readLines_renumber move {} (significantLines text)
  rw [← h] at hvalue hlog
  unfold parse
  dsimp only
  rw [hvalue, hlog]
  cases (Reader.readLines {} (significantLines text)).value with
  | error e => exact ⟨rfl, rfl⟩
  | ok r =>
    dsimp only [Except.mapError]
    cases r.builder.build with
    | error cause => exact ⟨rfl, rfl⟩
    | ok d =>
      refine ⟨rfl, ?_⟩
      show _ = List.map _ (_ ++ summary d)
      rw [List.map_append, renumber_summary]

end Reading

/-! ## Relaid texts -/

/-- The layout of a text is changed by one edit after the other. -/
inductive Relaid : List Char → List Char → (Nat → Nat) → Prop
  | refl (s : List Char) : Relaid s s id
  | step {s s' s'' : List Char} {move moves : Nat → Nat} (hfirst : Edit s s' move)
      (hrest : Relaid s' s'' moves) : Relaid s s'' (moves ∘ move)

theorem linesFrom_relaid {s s' : List Char} {move : Nat → Nat} (h : Relaid s s' move) :
    linesFrom 1 s' = (linesFrom 1 s).map (Line.renumber move) := by
  induction h with
  | refl s => rw [renumber_id]
  | step hfirst _ ih =>
    rw [ih, linesFrom_edit hfirst, List.map_map]
    rfl

/-- **The layout of a definition does not change what it means.**  A text that is relaid defines the
    same automaton, or fails for the same cause at a line with the same text; only the numbers of
    lines are those of the lines where they went. -/
theorem parse_relaid {text text' : String} {move : Nat → Nat}
    (h : Relaid text.toList text'.toList move) :
    (parse text').value = (parse text).value.mapError (Error.renumber move) ∧
      (parse text').log = (parse text).log.map (renumberRecord move) := by
  apply parse_of_renumber
  rw [significantLines_eq_linesFrom, significantLines_eq_linesFrom, linesFrom_relaid h]

/-- A definition whose start is not declared. -/
def tight : String := "states: A\nstart: B"

/-- The same definition with a comment, blanks, carriage returns and a newline at its end. -/
def loose : String := "states: A\r\n # one state\r\n\tstart: B \r\n"

/-- The changes are made one after the other; the second line becomes the third. -/
theorem relaid_tight : Relaid tight.toList loose.toList (movedBelow 1) := by
  have hcomment := @Edit.insert "states: A\n".toList "start: B".toList " # one state".toList
    (by decide +kernel) (by decide +kernel) (by decide +kernel)
  have hpad := @Edit.pad "states: A\n # one state\n".toList ['\t'] "start: B".toList [' '] []
    (by decide +kernel) (by decide +kernel) (List.forall_mem_singleton.2 (by decide))
    (List.forall_mem_singleton.2 (by decide)) .none
  have hends := Relaid.step (.finalNewline "states: A\n # one state\n\tstart: B ".toList)
    (.step (.carriageReturns _) (.refl _))
  have htight : "states: A\n".toList ++ "start: B".toList = tight.toList := by decide +kernel
  have hcommented : "states: A\n".toList ++ " # one state".toList ++ '\n' :: "start: B".toList =
      "states: A\n # one state\n".toList ++ "start: B".toList ++ [] := by decide +kernel
  have hpadded : "states: A\n # one state\n".toList ++ (['\t'] ++ "start: B".toList ++ [' ']) ++ [] =
      "states: A\n # one state\n\tstart: B ".toList := by decide +kernel
  have hloose : withReturns ("states: A\n # one state\n\tstart: B ".toList ++ ['\n']) =
      loose.toList := by decide +kernel
  have hplace : (Text.lines "states: A\n".toList).length = 1 := by decide +kernel
  rw [htight, hcommented, hplace] at hcomment
  rw [hpadded] at hpad
  rw [hloose] at hends
  exact .step hcomment (.step hpad hends)

/-- Both fail, for the same cause at the same line, which has another number. -/
theorem loose_means_tight :
    Relaid tight.toList loose.toList (movedBelow 1) ∧
      (parse tight).value = .error ⟨.unknownStart "B", some ⟨2, "start: B"⟩⟩ ∧
        (parse loose).value = .error ⟨.unknownStart "B", some ⟨3, "start: B"⟩⟩ := by
  have htight : (parse tight).value = .error ⟨.unknownStart "B", some ⟨2, "start: B"⟩⟩ := by
    decide +kernel
  have hloose := (parse_relaid relaid_tight).1
  rw [htight] at hloose
  exact ⟨relaid_tight, htight, hloose⟩

end Acceptor.Definition
