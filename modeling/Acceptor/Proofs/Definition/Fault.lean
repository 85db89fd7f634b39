/-
  The first bad line.

  Reading stops at the first line that fails.  So the failure depends on the lines up to that one,
  and a definition without a bad line fails only for want of a part.

  1. **Reading in two stretches** — `readLines_append`; a failure comes from one line, and the lines
     in front of it could be read (`readLines_eq_error_iff`).

  2. **Causes** — a declaration has one cause to fail (`refusal?_of_declare`).  A line never fails
     because the definition is incomplete, and building fails for no other reason.

  3. **Places** — the significant lines in front of a numbered line are those of the text cut off
     there (`exists_place_of_significantLines`).

  4. **Faults** — `FirstFault` says all that a failure at a line tells, `Unfinished` all that a
     failure at no line tells.  Main result: `parse_reports_first_fault`.
-/
import Acceptor.Proofs.Definition.Reading
import Acceptor.Proofs.Text.Lines
import Acceptor.Proofs.Text.Trim

namespace Acceptor

/-! ## Reading in two stretches -/

namespace Definition

namespace Reader

variable {r r' : Reader} {line : Line} {lines xs ys : List Line} {e : Error}

/-- What the first lines leave is what the others are read with; a failure ends it. -/
theorem readLines_append (r : Reader) (xs ys : List Line) :
    (r.readLines (xs ++ ys)).value =
      (r.readLines xs).value.bind fun r' => (r'.readLines ys).value := by
  induction xs generalizing r with
  | nil => rfl
  | cons line xs ih =>
    rw [List.cons_append]
    cases hstep : r.step line with
    | error cause =>
      rw [readLines_cons_of_error hstep, readLines_cons_of_error hstep]
      rfl
    | ok read => rw [readLines_cons_of_ok hstep, readLines_cons_of_ok hstep, ih]

/-- Lines can be read as far as all of them can. -/
theorem exists_of_readLines_append_eq_ok (h : (r.readLines (xs ++ ys)).value = .ok r') :
    ∃ r₁, (r.readLines xs).value = .ok r₁ := by
  rw [readLines_append] at h
  cases hxs : (r.readLines xs).value with
  | error e =>
    rw [hxs] at h
    cases h
  | ok r₁ => exact ⟨r₁, rfl⟩

/-- Reading fails exactly when some line fails behind lines that could be read. -/
theorem readLines_eq_error_iff :
    (r.readLines lines).value = .error e ↔
      ∃ above line below r', lines = above ++ line :: below ∧ (r.readLines above).value = .ok r' ∧
        r'.step line = .error e.cause ∧ e.place = some line := by
  constructor
  · intro h
    induction lines generalizing r with
    | nil => cases h
    | cons line lines ih =>
      cases hstep : r.step line with
      | error cause =>
        rw [readLines_cons_of_error hstep] at h
        cases h
        exact ⟨[], line, lines, r, rfl, rfl, hstep, rfl⟩
      | ok read =>
        rw [readLines_cons_of_ok hstep] at h
        obtain ⟨above, bad, below, r', rfl, habove, hbad⟩ := ih h
        refine ⟨line :: above, bad, below, r', rfl, ?_, hbad⟩
        rw [readLines_cons_of_ok hstep]
        exact habove
  · rintro ⟨above, line, below, r', rfl, habove, hstep, hplace⟩
    obtain ⟨cause, place⟩ := e
    cases hplace
    rw [readLines_append, habove]
    exact readLines_cons_of_error hstep below

end Reader

end Definition

/-! ## Causes -/

section Failing

variable {ε α β : Type} {x : Except ε α} {e : ε}

theorem eq_error_of_map {f : α → β} (h : x.map f = .error e) : x = .error e := by
  cases x with
  | error e' =>
    cases h
    rfl
  | ok a => cases h

theorem bind_eq_error_cases {f : α → Except ε β} (h : x >>= f = .error e) :
    x = .error e ∨ ∃ a, x = .ok a ∧ f a = .error e := by
  cases x with
  | error e' =>
    cases h
    exact .inl rfl
  | ok a => exact .inr ⟨a, rfl, h⟩

end Failing

variable {cause : Cause}

/-- The cause with which a declaration fails, if it can fail. -/
def Declaration.refusal? : Declaration → Option Cause
  | .state _ => none
  | .symbol token => some (.symbolLength token)
  | .start name => some (.unknownStart name)
  | .accept name => some (.unknownAccept name)
  | .transition p c q => some (.unknownReference p c q)

namespace Builder

variable {b : Builder}

/-- A declaration has one cause to fail. -/
theorem refusal?_of_declare {x : Declaration} (h : b.declare x = .error cause) :
    x.refusal? = some cause := by
  cases x with
  | state name => cases h
  | symbol token =>
    rw [(symbolOf_eq_error_iff.1 (eq_error_of_map (eq_error_of_map h))).2]
    rfl
  | start name =>
    have hfail := eq_error_of_map h
    unfold setStart at hfail
    split at hfail
    · cases hfail
    · cases hfail
      rfl
  | accept name =>
    have hfail := eq_error_of_map h
    unfold addAccept at hfail
    split at hfail
    · cases hfail
    · cases hfail
      rfl
  | transition source symbol target =>
    have hfail := eq_error_of_map h
    unfold addTransition at hfail
    split at hfail
    · cases hfail
    · cases hfail
      rfl

theorem declare_ne_incomplete {x : Declaration} (h : b.declare x = .error cause)
    (parts : List String) : cause ≠ .incomplete parts := by
  have hrefusal := refusal?_of_declare h
  rintro rfl
  cases x <;> cases hrefusal

theorem declareAll_ne_incomplete {xs : List Declaration} (h : b.declareAll xs = .error cause)
    (parts : List String) : cause ≠ .incomplete parts := by
  induction xs generalizing b with
  | nil => cases h
  | cons x xs ih =>
    rcases bind_eq_error_cases h with hx | ⟨⟨answer, b'⟩, -, hrest⟩
    · exact declare_ne_incomplete hx parts
    · rcases bind_eq_error_cases hrest with hxs | ⟨⟨answers, b''⟩, -, hreturn⟩
      · exact ih hxs
      · cases hreturn

/-- Building fails only for want of a part. -/
theorem exists_incomplete_of_build (h : b.build = .error cause) :
    ∃ parts, cause = .incomplete parts := by
  unfold build at h
  split at h
  · cases h
  · cases h
    exact ⟨_, rfl⟩

end Builder

namespace Definition

theorem declarations_ne_incomplete {part : Part} {line : List Char}
    (h : declarations part line = .error cause) (parts : List String) :
    cause ≠ .incomplete parts := by
  cases part with
  | header =>
    obtain ⟨-, rfl⟩ := declarations_header_eq_error h
    exact Cause.noConfusion
  | transitions =>
    have hrule := declarations_transitions_eq_error_iff.1 h
    rw [Rule.ofLine] at hrule
    split at hrule
    · cases hrule
      exact Cause.noConfusion
    · split at hrule
      · cases hrule
        exact Cause.noConfusion
      · rw [(symbolOf_eq_error_iff.1 (eq_error_of_map hrule)).2]
        exact Cause.noConfusion

/-- A line fails because it cannot be read, or because the builder refuses what it stands for. -/
theorem Reader.cases_of_step_eq_error {r : Reader} {line : Line}
    (h : r.step line = .error cause) :
    declarations r.part line.text.toList = .error cause ∨
      ∃ part xs, declarations r.part line.text.toList = .ok (part, xs) ∧
        r.builder.declareAll xs = .error cause := by
  rcases bind_eq_error_cases h with hd | ⟨⟨part, xs⟩, hd, hrest⟩
  · exact .inl hd
  · rcases bind_eq_error_cases hrest with hx | ⟨⟨answers, b⟩, -, hreturn⟩
    · exact .inr ⟨part, xs, hd, hx⟩
    · cases hreturn

/-- A line never fails for want of a part. -/
theorem Reader.step_ne_incomplete {r : Reader} {line : Line} (h : r.step line = .error cause)
    (parts : List String) : cause ≠ .incomplete parts := by
  rcases cases_of_step_eq_error h with hd | ⟨part, xs, -, hx⟩
  · exact declarations_ne_incomplete hd parts
  · exact Builder.declareAll_ne_incomplete hx parts

variable {text : String} {e : Error}

/-- A definition whose lines fail, fails so. -/
theorem parse_of_readLines_error
    (h : (Reader.readLines {} (significantLines text)).value = .error e) :
    (parse text).value = .error e := by
  unfold parse
  dsimp only
  rw [h]

/-- A definition whose lines can be read fails, if at all, at no line and for want of a part. -/
theorem incomplete_of_readLines_ok {r : Reader}
    (h : (Reader.readLines {} (significantLines text)).value = .ok r)
    (he : (parse text).value = .error e) :
    e.place = none ∧ ∃ parts, e.cause = .incomplete parts := by
  unfold parse at he
  dsimp only at he
  rw [h] at he
  dsimp only at he
  split at he
  · rename_i hbuild
    cases he
    exact ⟨rfl, Builder.exists_incomplete_of_build hbuild⟩
  · cases he

/-! ## Places -/

/-- The lines of a text without the blanks at their ends. -/
def trimmedLines (text : String) : List (List Char) := (Text.lines text.toList).map Text.trim

/-- The lines in the given places, from one. -/
theorem getElem?_numberedLines (text : String) (i : Nat) :
    (numberedLines text)[i]? =
      (trimmedLines text)[i]?.map fun line => ⟨i + 1, String.ofList line⟩ := by
  unfold numberedLines trimmedLines
  rw [List.getElem?_map, List.getElem?_zipIdx, List.getElem?_map, Option.map_map, Option.map_map,
    Nat.add_comm 1 i]
  rfl

/-- Texts with the same first lines have the same first numbered lines. -/
theorem take_numberedLines_congr {text' : String} {k : Nat}
    (h : (trimmedLines text').take k = (trimmedLines text).take k) :
    (numberedLines text').take k = (numberedLines text).take k := by
  apply List.ext_getElem?
  intro i
  have hi := congrArg (fun lines => lines[i]?) h
  simp only [List.getElem?_take] at hi
  rw [List.getElem?_take, List.getElem?_take, getElem?_numberedLines, getElem?_numberedLines]
  split
  · rename_i hlt
    rw [if_pos hlt, if_pos hlt] at hi
    rw [hi]
  · rfl

/-- The text up to the end of its `k`-th line. -/
def firstLines (k : Nat) (text : String) : String := String.ofList (Text.firstLines k text.toList)

theorem trimmedLines_firstLines (k : Nat) (text : String) :
    trimmedLines (firstLines k text) = (trimmedLines text).take k := by
  unfold trimmedLines firstLines
  rw [String.toList_ofList, Text.lines_firstLines, List.map_take]

/-- The significant ones of some lines. -/
def significant (lines : List Line) : List Line :=
  lines.filter fun line => !Text.isRemark line.text.toList

theorem significant_append (xs ys : List Line) :
    significant (xs ++ ys) = significant xs ++ significant ys := List.filter_append ..

/-- A trimmed line that is no remark begins with a character other than a blank or `#`. -/
theorem exists_head_of_not_isRemark {s : List Char} (hs : Text.IsTrimmed s)
    (h : Text.isRemark s = false) : ∃ c, s.head? = some c ∧ Text.isBlank c = false ∧ c ≠ '#' := by
  rw [Text.isRemark, Text.trimStart_eq_self hs.first] at h
  cases s with
  | nil => cases h
  | cons c rest => exact ⟨c, rfl, hs.first c rfl, by simpa using h⟩

theorem significantLines_eq_append (text : String) (k : Nat) :
    significantLines text =
      significant ((numberedLines text).take k) ++ significant ((numberedLines text).drop k) := by
  rw [← significant_append, List.take_append_drop]
  rfl

theorem significantLines_firstLines (k : Nat) (text : String) :
    significantLines (firstLines k text) = significant ((numberedLines text).take k) := by
  have hall : (numberedLines (firstLines k text)).take k = numberedLines (firstLines k text) := by
    apply List.take_of_length_le
    unfold numberedLines firstLines
    rw [List.length_map, List.length_zipIdx, String.toList_ofList, Text.lines_firstLines]
    exact List.length_take_le k _
  have hsame : (numberedLines (firstLines k text)).take k = (numberedLines text).take k := by
    apply take_numberedLines_congr
    rw [trimmedLines_firstLines, List.take_take, Nat.min_self]
  rw [← hsame, hall]
  rfl

/-- A significant line stands in the place that its number says, and the significant lines in front
    of it are those among the lines in front of that place. -/
theorem exists_place_of_significantLines {above below : List Line} {line : Line}
    (h : significantLines text = above ++ line :: below) :
    ∃ k, line.number = k + 1 ∧ (trimmedLines text)[k]? = some line.text.toList ∧
      (numberedLines text).take (k + 1) = (numberedLines text).take k ++ [line] ∧
        significant ((numberedLines text).take k) = above ∧
          Text.isRemark line.text.toList = false := by
  obtain ⟨front, back, hsplit, hfront, hback⟩ := List.filter_eq_append_iff.1 h
  obtain ⟨remarks, others, rfl, hremarks, hline, -⟩ := List.filter_eq_cons_iff.1 hback
  rw [← List.append_assoc] at hsplit
  have hat : (numberedLines text)[(front ++ remarks).length]? = some line := by
    rw [hsplit, List.getElem?_append_right (Nat.le_refl _), Nat.sub_self, List.getElem?_cons_zero]
  have htake : (numberedLines text).take (front ++ remarks).length = front ++ remarks := by
    rw [hsplit, List.take_left]
  refine ⟨(front ++ remarks).length, ?_, ?_, ?_, ?_, ?_⟩
  · rw [getElem?_numberedLines] at hat
    obtain ⟨raw, -, rfl⟩ := Option.map_eq_some_iff.1 hat
    rfl
  · rw [getElem?_numberedLines] at hat
    obtain ⟨raw, hraw, rfl⟩ := Option.map_eq_some_iff.1 hat
    rw [String.toList_ofList]
    exact hraw
  · rw [List.take_add_one, hat]
    rfl
  · -- between the significant lines above and this one stand remarks only
    rw [htake, significant, List.filter_append, hfront, List.filter_eq_nil_iff.2 hremarks,
      List.append_nil]
  · simpa using hline

/-! ## Faults -/

/-- A text fails, if at all, at no line and for want of a part. -/
def NoLineFails (text : String) : Prop :=
  ∀ e, (parse text).value = .error e → e.place = none ∧ ∃ parts, e.cause = .incomplete parts

/-- What a failure at a line tells. -/
structure FirstFault (text : String) (line : Line) (cause : Cause) : Prop where
  /-- The number is that of a line of the text, counted from one. -/
  number_pos : 1 ≤ line.number
  number_le : line.number ≤ (Text.lines text.toList).length
  /-- The text is that of the line, trimmed, and the line is no remark. -/
  text_eq : (Text.lines text.toList)[line.number - 1]?.map Text.trim = some line.text.toList
  begins : ∃ c, line.text.toList.head? = some c ∧ Text.isBlank c = false ∧ c ≠ '#'
  /-- A line does not fail for want of a part. -/
  cause_ne : ∀ parts, cause ≠ .incomplete parts
  /-- Nothing is wrong with the lines in front of it: cut off there, the text has no bad line. -/
  above : ∀ k < line.number, NoLineFails (firstLines k text)
  /-- What follows does not matter. -/
  below : ∀ text', (trimmedLines text').take line.number = (trimmedLines text).take line.number →
    (parse text').value = .error { cause, place := some line }

/-- What a failure at no line tells. -/
structure Unfinished (text : String) (cause : Cause) : Prop where
  /-- A part is missing. -/
  incomplete : ∃ parts, cause = .incomplete parts
  /-- Nothing is wrong with any line: wherever it is cut off, the text has no bad line. -/
  lines : ∀ k, NoLineFails (firstLines k text)

/-- Where more lines than those of a text can be read, no line of it fails. -/
theorem noLineFails_of_readLines_append {xs ys : List Line} {r : Reader}
    (h : (Reader.readLines {} (xs ++ ys)).value = .ok r) (hxs : significantLines text = xs) :
    NoLineFails text := by
  intro e he
  obtain ⟨r₁, hr₁⟩ := Reader.exists_of_readLines_append_eq_ok h
  rw [← hxs] at hr₁
  exact incomplete_of_readLines_ok hr₁ he

/-- A failure at a line is one of reading the lines. -/
theorem readLines_of_parse_error {line : Line} (h : (parse text).value = .error e)
    (hplace : e.place = some line) :
    (Reader.readLines {} (significantLines text)).value = .error e := by
  cases hread : (Reader.readLines {} (significantLines text)).value with
  | ok r =>
    have hnone := (incomplete_of_readLines_ok hread h).1
    rw [hplace] at hnone
    cases hnone
  | error e' =>
    have he := parse_of_readLines_error hread
    rw [h] at he
    cases he
    rfl

/-- A failure at no line is not one of reading the lines. -/
theorem exists_readLines_of_parse_error (h : (parse text).value = .error e)
    (hplace : e.place = none) :
    ∃ r, (Reader.readLines {} (significantLines text)).value = .ok r := by
  cases hread : (Reader.readLines {} (significantLines text)).value with
  | ok r => exact ⟨r, rfl⟩
  | error e' =>
    have he := parse_of_readLines_error hread
    rw [h] at he
    cases he
    obtain ⟨-, line, -, -, -, -, -, hline⟩ := Reader.readLines_eq_error_iff.1 hread
    rw [hplace] at hline
    cases hline

/-- The lines up to the bad one decide the failure. -/
theorem parse_of_take_eq {text' : String} {k : Nat} {above : List Line} {line : Line} {r : Reader}
    (habove : (Reader.readLines {} above).value = .ok r) (hstep : r.step line = .error e.cause)
    (hplace : e.place = some line)
    (htake : significant ((numberedLines text').take k) = above ++ [line]) :
    (parse text').value = .error e := by
  apply parse_of_readLines_error
  rw [significantLines_eq_append text' k, htake, List.append_assoc]
  exact Reader.readLines_eq_error_iff.2 ⟨above, line, _, r, rfl, habove, hstep, hplace⟩

theorem firstFault_of_parse {line : Line} (h : (parse text).value = .error e)
    (hplace : e.place = some line) : FirstFault text line e.cause := by
  obtain ⟨above, bad, below, r, hsplit, habove, hstep, hbad⟩ :=
    Reader.readLines_eq_error_iff.1 (readLines_of_parse_error h hplace)
  obtain rfl : bad = line := Option.some.inj (hbad.symm.trans hplace)
  obtain ⟨k, hnumber, hline, htake, hfront, hremark⟩ := exists_place_of_significantLines hsplit
  have hlt : k < (trimmedLines text).length := (List.getElem?_eq_some_iff.1 hline).1
  rw [trimmedLines, List.length_map] at hlt
  have htrimmed : Text.IsTrimmed bad.text.toList := by
    obtain ⟨raw, -, heq⟩ := List.mem_map.1 (List.mem_of_getElem? hline)
    exact heq ▸ Text.isTrimmed_trim raw
  refine ⟨by omega, by omega, ?_, exists_head_of_not_isRemark htrimmed hremark,
    Reader.step_ne_incomplete hstep, ?_, ?_⟩
  · rw [hnumber, ← List.getElem?_map]
    exact hline
  · intro j hj
    -- the lines of the shorter text are among those in front of the bad one
    have hmin : min j k = j := by omega
    have hshort : above = significant ((numberedLines text).take j) ++
        significant (((numberedLines text).take k).drop j) := by
      rw [← significant_append, ← hfront]
      congr 1
      rw [← hmin, ← List.take_take, hmin, List.take_append_drop]
    rw [hshort] at habove
    exact noLineFails_of_readLines_append habove (significantLines_firstLines j text)
  · intro text' hsame
    have hlines : significant ((numberedLines text').take bad.number) = above ++ [bad] := by
      rw [take_numberedLines_congr hsame, hnumber, htake, significant_append, hfront, significant,
        List.filter_cons_of_pos (by rw [hremark]; rfl), List.filter_nil]
    exact parse_of_take_eq habove hstep rfl hlines

theorem unfinished_of_parse (h : (parse text).value = .error e) (hplace : e.place = none) :
    Unfinished text e.cause := by
  obtain ⟨r, hread⟩ := exists_readLines_of_parse_error h hplace
  refine ⟨(incomplete_of_readLines_ok hread h).2, ?_⟩
  intro k
  rw [significantLines_eq_append text k] at hread
  exact noLineFails_of_readLines_append hread (significantLines_firstLines k text)

/-- **A failure is at the first bad line**, and when it is at no line, there is none. -/
theorem parse_reports_first_fault (h : (parse text).value = .error e) :
    (∀ line, e.place = some line → FirstFault text line e.cause) ∧
      (e.place = none → Unfinished text e.cause) :=
  ⟨fun _ hplace => firstFault_of_parse h hplace, fun hplace => unfinished_of_parse h hplace⟩

/-- A definition with a comment, whose start is not declared, and with more behind that. -/
def strayStart : String := "# one state\nstates: A\n\n  start: B\nno header\n"

/-- A definition that ends before its alphabet and its start. -/
def halfway : String := "states: A\n"

/-- The first fails at its fourth line, the second at no line. -/
theorem strayStart_firstFault :
    (parse strayStart).value = .error ⟨.unknownStart "B", some ⟨4, "start: B"⟩⟩ ∧
      FirstFault strayStart ⟨4, "start: B"⟩ (.unknownStart "B") ∧
        (parse halfway).value = .error ⟨.incomplete ["alphabet", "start"], none⟩ ∧
          Unfinished halfway (.incomplete ["alphabet", "start"]) := by
  have hstray : (parse strayStart).value =
      .error ⟨.unknownStart "B", some ⟨4, "start: B"⟩⟩ := by decide +kernel
  have hhalfway : (parse halfway).value =
      .error ⟨.incomplete ["alphabet", "start"], none⟩ := by decide +kernel
  exact ⟨hstray, (parse_reports_first_fault hstray).1 _ rfl, hhalfway,
    (parse_reports_first_fault hhalfway).2 rfl⟩

end Definition

end Acceptor
