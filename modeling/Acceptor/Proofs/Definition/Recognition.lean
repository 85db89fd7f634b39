/-
  Which lines are headers.

  A header line can also be described by a pattern: a keyword, whatever the case of its letters, a
  colon, any number of further colons and blanks, and the value, up to the end of the line.  The
  keyword that the pattern finds is then looked up, and the value is trimmed.  The two steps do not
  mean the same by the case of a letter: the pattern takes `ſ` (U+017F) for an `s`, the lookup knows
  the cases of ASCII letters only.

  1. **Case** — `Keyword.IsWrittenAs k word`: each letter of the keyword stands in `word`, in lower
     or in upper case.  This is what the lookup knows (`Keyword.ofWord?_eq_some_iff`).

  2. **What a line writes** — `Header.IsWritten h line`, which is what is read
     (`Header.ofLine?_eq_some_iff`).

  3. **The pattern** — `headerPattern`, and what it keeps of a line (`captures?_headerPattern_iff`).
     What is read by the pattern is what the line writes, too (`Header.byPattern?_eq_some_iff`).

  4. **In front of a header** — no keyword ends with another one, so what stands in front of a
     header is in the way (`Header.ofLine?_append_eq_none`).

  Main result: `Header.recognized_of_newline_not_mem`.
-/
import Acceptor.Proofs.Definition.Layout
import Acceptor.Proofs.Text.Pattern
import Mathlib

namespace Acceptor

namespace Definition

open Text (Pattern)

variable {c letter : Char} {line word rest lead : List Char} {k k' : Keyword} {h h' : Header}

/-! ## Lists side by side -/

section SideBySide

variable {α β : Type} {R S : α → β → Prop} {as : List α} {bs : List β}

theorem forall₂_congr_of_mem (h : ∀ a ∈ as, ∀ b, R a b ↔ S a b) :
    List.Forall₂ R as bs ↔ List.Forall₂ S as bs := by
  induction as generalizing bs with
  | nil => simp
  | cons a as ih =>
    rw [List.forall_mem_cons] at h
    cases bs with
    | nil => simp
    | cons b bs => rw [List.forall₂_cons, List.forall₂_cons, h.1, ih h.2]

theorem forall₂_and_right {P : β → Prop} :
    List.Forall₂ (fun a b => R a b ∧ P b) as bs ↔ List.Forall₂ R as bs ∧ ∀ b ∈ bs, P b := by
  induction as generalizing bs with
  | nil => cases bs <;> simp
  | cons a as ih =>
    cases bs with
    | nil => simp
    | cons b bs =>
      rw [List.forall₂_cons, List.forall₂_cons, List.forall_mem_cons, ih]
      exact and_and_and_comm

theorem exists_mem_of_forall₂ {b : β} (h : List.Forall₂ R as bs) (hb : b ∈ bs) :
    ∃ a ∈ as, R a b := by
  induction h with
  | nil => cases hb
  | cons hhere _ ih =>
    rcases List.mem_cons.1 hb with rfl | hb
    · exact ⟨_, List.mem_cons_self, hhere⟩
    · obtain ⟨a, ha, hab⟩ := ih hb
      exact ⟨a, List.mem_cons_of_mem _ ha, hab⟩

end SideBySide

/-! ## Case -/

/-- A word is the keyword up to the case of ASCII letters. -/
def Keyword.IsWrittenAs (k : Keyword) (word : List Char) : Prop :=
  List.Forall₂ (fun letter c => c = letter ∨ c = letter.toUpper) k.word.toList word

/-- A letter in lower case is what itself and its upper case become in lower case, and nothing
    else. -/
theorem toLower_eq_iff (h : letter.isLower = true) :
    c.toLower = letter ↔ c = letter ∨ c = letter.toUpper := by
  have hself : letter.toLower = letter :=
    Char.toLower_eq_of_not_isUpper (Char.not_isUpper_of_isLower h)
  constructor
  · rintro rfl
    by_cases hc : c.isUpper = true
    · have hupper : c.toUpper = c :=
        Char.toUpper_eq_of_not_isLower (Char.not_isLower_of_isUpper hc)
      exact .inr (by rw [Char.toUpper_toLower_eq_toUpper, hupper])
    · exact .inl (Char.toLower_eq_of_not_isUpper hc).symm
  · rintro (rfl | rfl)
    · exact hself
    · rw [Char.toLower_toUpper_eq_toLower, hself]

theorem isLower_of_mem_word (k : Keyword) : ∀ letter ∈ k.word.toList, letter.isLower = true := by
  have hall : k.word.toList.all Char.isLower = true := by cases k <;> rfl
  exact List.all_eq_true.1 hall

theorem Keyword.isWrittenAs_iff : k.IsWrittenAs word ↔ word.map Char.toLower = k.word.toList := by
  calc k.IsWrittenAs word
    _ ↔ List.Forall₂ (fun letter c => letter = c.toLower) k.word.toList word :=
        forall₂_congr_of_mem fun letter hletter c =>
          (toLower_eq_iff (isLower_of_mem_word k letter hletter)).symm.trans eq_comm
    _ ↔ word.map Char.toLower = k.word.toList := by
        rw [← List.forall₂_map_right_iff, List.forall₂_eq_eq_eq, eq_comm]

/-- The lookup knows a keyword up to the case of ASCII letters. -/
theorem Keyword.ofWord?_eq_some_iff : Keyword.ofWord? word = some k ↔ k.IsWrittenAs word := by
  rw [Keyword.isWrittenAs_iff, Keyword.ofWord?]
  constructor
  · intro h
    have hk := List.find?_some h
    exact (eq_of_beq hk).symm
  · intro h
    rw [h]
    cases k <;> decide

theorem colon_not_mem_of_isWrittenAs (h : k.IsWrittenAs word) : ':' ∉ word := by
  intro hmem
  apply colon_not_mem_word k
  rw [← Keyword.isWrittenAs_iff.1 h]
  exact List.mem_map.2 ⟨':', hmem, rfl⟩

/-! ## What a line writes -/

/-- A line writes a header: the keyword, a colon, and the value behind further colons and blanks
    and in front of the blanks at the end. -/
def Header.IsWritten (h : Header) (line : List Char) : Prop :=
  ∃ word rest, line = word ++ ':' :: rest ∧ h.keyword.IsWrittenAs word ∧
    h.value = Text.trimEnd (rest.dropWhile isFiller)

theorem Header.ofLine?_eq_some_iff : Header.ofLine? line = some h ↔ h.IsWritten line := by
  constructor
  · intro hread
    obtain ⟨⟨word, rest⟩, hsplit, hread⟩ := Option.bind_eq_some_iff.1 hread
    obtain ⟨k, hk, hread⟩ := Option.bind_eq_some_iff.1 hread
    cases hread
    have hline := (Text.splitAround_char_iff.1 hsplit).1
    exact ⟨word, rest, hline, Keyword.ofWord?_eq_some_iff.1 hk, rfl⟩
  · rintro ⟨word, rest, rfl, hword, hvalue⟩
    have hcolon := colon_not_mem_of_isWrittenAs hword
    rw [Header.ofLine?_eq, keywordOf?_of_colon hcolon, valueOf_of_colon hcolon,
      Keyword.ofWord?_eq_some_iff.2 hword, ← hvalue]
    rfl

/-- What is left behind colons and blanks begins with neither. -/
theorem isFiller_head_dropWhile (hc : (rest.dropWhile isFiller).head? = some c) :
    isFiller c = false := by
  have hnot := List.head?_dropWhile_not isFiller rest
  simpa [hc] using hnot

theorem isBlank_of_isFiller_eq_false (hc : isFiller c = false) : Text.isBlank c = false :=
  (Bool.or_eq_false_iff.1 hc).2

/-- So trimming takes nothing away in front of it. -/
theorem trim_dropWhile_isFiller (rest : List Char) :
    Text.trim (rest.dropWhile isFiller) = Text.trimEnd (rest.dropWhile isFiller) := by
  rw [Text.trim, Text.trimStart_eq_self]
  intro c hc
  exact isBlank_of_isFiller_eq_false (isFiller_head_dropWhile hc)

/-- A value begins with what stands behind the colons and blanks in front of it. -/
theorem isFiller_head_value (hc : (Text.trimEnd (rest.dropWhile isFiller)).head? = some c) :
    isFiller c = false := by
  cases hrest : rest.dropWhile isFiller with
  | nil =>
    rw [hrest] at hc
    cases hc
  | cons d tail =>
    have hd : isFiller d = false := isFiller_head_dropWhile (by rw [hrest]; rfl)
    rw [hrest, Text.trimEnd_cons_of_not_blank (isBlank_of_isFiller_eq_false hd)] at hc
    cases hc
    exact hd

/-! ## The pattern -/

/-- The characters that are one letter to a pattern for which the case does not count: the letter
    in its two cases, the long s, and the sign for kelvin. -/
def folds (letter c : Char) : Bool :=
  c == letter || c == letter.toUpper || (letter == 's' && c == '\u017F') ||
    (letter == 'k' && c == '\u212A')

/-- A keyword, whatever the case of its letters. -/
def keywordPattern : Pattern :=
  let spelled (k : Keyword) : Pattern := .spelling folds k.word.toList
  .either (spelled .states) (.either (spelled .alphabet) (.either (spelled .start)
    (.either (spelled .accept) (spelled .transitions))))

/-- Colons and blanks, and then the value up to the end of the line. -/
def valuePattern : Pattern := .seq (.many isFiller) (.seq (.group (.many (· ≠ '\n'))) .ending)

/-- A header line. -/
def headerPattern : Pattern := .seq (.group keywordPattern) (.seq (.one (· == ':')) valuePattern)

/-- The header that a line writes, read by the pattern. -/
def Header.byPattern? (line : List Char) : Option Header :=
  match headerPattern.captures? line with
  | some [word, value] => (Keyword.ofWord? word).map fun keyword => ⟨keyword, Text.trim value⟩
  | _ => none

/-- A word that the pattern takes for the keyword. -/
def Keyword.Folds (k : Keyword) (word : List Char) : Prop :=
  List.Forall₂ (fun letter c => folds letter c = true) k.word.toList word

theorem toNat_lt_of_isAlpha (h : c.isAlpha = true) : c.toNat < 128 := by
  simp only [Char.isAlpha, Char.isUpper, Char.isLower, Char.isValue, Char.reduceVal,
    ge_iff_le, UInt32.le_iff_toNat_le, UInt32.reduceToNat, Char.toNat_val, Bool.decide_and,
    Bool.or_eq_true, Bool.and_eq_true, decide_eq_true_eq] at h
  omega

theorem folds_iff (h : letter.isLower = true) :
    folds letter c = true ∧ c.toNat < 128 ↔ c = letter ∨ c = letter.toUpper := by
  have hself : letter.isAlpha = true := by rw [Char.isAlpha, h, Bool.or_true]
  have hupper : letter.toUpper.isAlpha = true := by rw [Char.isAlpha_toUpper_eq_isAlpha, hself]
  constructor
  · rintro ⟨hfolds, hascii⟩
    simp only [folds, Bool.or_eq_true, Bool.and_eq_true, beq_iff_eq] at hfolds
    obtain ((hc | hc) | ⟨-, rfl⟩) | ⟨-, rfl⟩ := hfolds
    · exact .inl hc
    · exact .inr hc
    · exact absurd hascii (by decide)
    · exact absurd hascii (by decide)
  · rintro (rfl | rfl)
    · exact ⟨by simp [folds], toNat_lt_of_isAlpha hself⟩
    · exact ⟨by simp [folds], toNat_lt_of_isAlpha hupper⟩

/-- Beyond what the lookup knows, the pattern takes characters that are not ASCII, and no others. -/
theorem Keyword.isWrittenAs_iff_folds :
    k.IsWrittenAs word ↔ k.Folds word ∧ ∀ c ∈ word, c.toNat < 128 := by
  unfold Keyword.Folds
  rw [← forall₂_and_right]
  exact forall₂_congr_of_mem fun letter hletter c =>
    (folds_iff (isLower_of_mem_word k letter hletter)).symm

theorem colon_not_mem_of_folds (h : k.Folds word) : ':' ∉ word := by
  have hall : k.word.toList.all (fun letter => !folds letter ':') = true := by cases k <;> rfl
  intro hmem
  obtain ⟨letter, hletter, hcolon⟩ := exists_mem_of_forall₂ h hmem
  have hnot := List.all_eq_true.1 hall letter hletter
  rw [hcolon] at hnot
  cases hnot

theorem mem_ways_keywordPattern {w : Pattern.Way} :
    w ∈ keywordPattern.ways line ↔
      line = w.taken ++ w.rest ∧ w.kept = [] ∧ ∃ k : Keyword, k.Folds w.taken := by
  have hspelled : w ∈ keywordPattern.ways line ↔
      ∃ k : Keyword, w ∈ (Pattern.spelling folds k.word.toList).ways line := by
    simp only [keywordPattern, Pattern.mem_ways_either]
    constructor
    · rintro (h | h | h | h | h)
      exacts [⟨_, h⟩, ⟨_, h⟩, ⟨_, h⟩, ⟨_, h⟩, ⟨_, h⟩]
    · rintro ⟨k, h⟩
      cases k <;> simp [h]
  rw [hspelled]
  simp only [Pattern.mem_ways_spelling]
  constructor
  · rintro ⟨k, hline, hkept, hword⟩
    exact ⟨hline, hkept, k, hword⟩
  · rintro ⟨hline, hkept, k, hword⟩
    exact ⟨k, hline, hkept, hword⟩

theorem head?_ways_valuePattern (hrest : '\n' ∉ rest) :
    (valuePattern.ways rest).head? = some ⟨rest, [rest.dropWhile isFiller], []⟩ := by
  have hvalue : '\n' ∉ rest.dropWhile isFiller := fun h =>
    hrest ((List.dropWhile_sublist isFiller).subset h)
  have hall : ∀ c ∈ rest.dropWhile isFiller, decide (c ≠ '\n') = true := fun c hc =>
    decide_eq_true fun h => hvalue (h ▸ hc)
  have hgroup := Pattern.head?_ways_group (.many (· ≠ '\n')) (rest.dropWhile isFiller)
  rw [Pattern.ways, Pattern.head?_runs, List.takeWhile_eq_self_iff.2 hall,
    List.dropWhile_eq_nil_iff.2 hall] at hgroup
  have htail := Pattern.head?_ways_seq_of_head? (q := .ending) hgroup rfl
  have hway := Pattern.head?_ways_seq_of_head? (p := .many isFiller) (Pattern.head?_runs _ rest)
    htail
  rw [valuePattern, hway]
  simp [Pattern.Way.andThen]

theorem head?_ways_colon (hrest : '\n' ∉ rest) :
    ((Pattern.seq (.one (· == ':')) valuePattern).ways (':' :: rest)).head? =
      some ⟨':' :: rest, [rest.dropWhile isFiller], []⟩ :=
  Pattern.head?_ways_seq_of_head? (p := .one (· == ':')) (s := ':' :: rest) rfl
    (head?_ways_valuePattern hrest)

/-- Behind the keyword nothing but a colon lets the pattern go on. -/
theorem exists_eq_colon_cons {w : Pattern.Way}
    (hw : ((Pattern.seq (.one (· == ':')) valuePattern).ways rest).head? = some w) :
    ∃ tail, rest = ':' :: tail := by
  obtain ⟨a, ha, -⟩ := Pattern.mem_ways_seq.1 (List.mem_of_head? hw)
  obtain ⟨c, tail, hc, rfl, -⟩ := Pattern.mem_ways_one.1 ha
  exact ⟨tail, by rw [eq_of_beq hc]⟩

/-- What the first way keeps of a line: the word in front of the first colon, and the value, still
    with the blanks at its end. -/
theorem kept_of_head?_headerPattern {w : Pattern.Way} (hline : '\n' ∉ line)
    (hw : (headerPattern.ways line).head? = some w) :
    ∃ word rest, line = word ++ ':' :: rest ∧ (∃ k : Keyword, k.Folds word) ∧
      w.kept = [word, rest.dropWhile isFiller] := by
  rw [headerPattern, Pattern.head?_ways_seq] at hw
  obtain ⟨a, ha, hnext⟩ := List.exists_of_findSome?_eq_some hw
  obtain ⟨⟨word, kept, rest⟩, hb, rfl⟩ := Pattern.mem_ways_group.1 ha
  obtain ⟨rfl, rfl, hword⟩ := mem_ways_keywordPattern.1 hb
  obtain ⟨v, hv, rfl⟩ := Option.map_eq_some_iff.1 hnext
  obtain ⟨tail, rfl⟩ := exists_eq_colon_cons hv
  have htail : '\n' ∉ tail := fun h => hline (by simp [h])
  rw [head?_ways_colon htail] at hv
  cases hv
  exact ⟨word, tail, rfl, hword, rfl⟩

/-- There is a way over a word that the pattern takes for a keyword, and the colon behind it. -/
theorem exists_head?_headerPattern (hrest : '\n' ∉ rest) (hword : k.Folds word) :
    ∃ w, (headerPattern.ways (word ++ ':' :: rest)).head? = some w := by
  rw [← Option.ne_none_iff_exists', headerPattern, Pattern.head?_ways_seq, ne_eq,
    List.findSome?_eq_none_iff]
  intro hfail
  have hway : (⟨word, [], ':' :: rest⟩ : Pattern.Way) ∈
      keywordPattern.ways (word ++ ':' :: rest) := mem_ways_keywordPattern.2 ⟨rfl, rfl, k, hword⟩
  have hnone := hfail _ (Pattern.mem_ways_group.2 ⟨_, hway, rfl⟩)
  rw [head?_ways_colon hrest] at hnone
  cases hnone

theorem captures?_headerPattern_iff (hline : '\n' ∉ line) {kept : List (List Char)} :
    headerPattern.captures? line = some kept ↔
      ∃ word rest, line = word ++ ':' :: rest ∧ (∃ k : Keyword, k.Folds word) ∧
        kept = [word, rest.dropWhile isFiller] := by
  constructor
  · intro hkept
    obtain ⟨w, hw, rfl⟩ := Option.map_eq_some_iff.1 hkept
    exact kept_of_head?_headerPattern hline hw
  · rintro ⟨word, rest, rfl, ⟨k, hk⟩, rfl⟩
    have hrest : '\n' ∉ rest := fun h => hline (by simp [h])
    obtain ⟨w, hw⟩ := exists_head?_headerPattern hrest hk
    -- whichever way is the first, it ends the word at the first colon
    obtain ⟨word', rest', hline', ⟨k', hk'⟩, hkept⟩ := kept_of_head?_headerPattern hline hw
    obtain ⟨rfl, rfl⟩ := Text.append_cons_inj_of_not_mem (colon_not_mem_of_folds hk)
      (colon_not_mem_of_folds hk') hline'
    rw [Pattern.captures?, hw, ← hkept]
    rfl

/-- What is read by the pattern is what the line writes. -/
theorem Header.byPattern?_eq_some_iff (hline : '\n' ∉ line) :
    Header.byPattern? line = some h ↔ h.IsWritten line := by
  constructor
  · intro hread
    unfold Header.byPattern? at hread
    split at hread
    · rename_i word value hkept
      obtain ⟨k, hk, rfl⟩ := Option.map_eq_some_iff.1 hread
      obtain ⟨word', rest, rfl, -, hparts⟩ := (captures?_headerPattern_iff hline).1 hkept
      cases hparts
      exact ⟨word, rest, rfl, Keyword.ofWord?_eq_some_iff.1 hk, trim_dropWhile_isFiller rest⟩
    · cases hread
  · rintro ⟨word, rest, rfl, hword, hvalue⟩
    have hfolds := (Keyword.isWrittenAs_iff_folds.1 hword).1
    unfold Header.byPattern?
    rw [(captures?_headerPattern_iff hline).2 ⟨word, rest, rfl, ⟨_, hfolds⟩, rfl⟩]
    show (Keyword.ofWord? word).map _ = _
    rw [Keyword.ofWord?_eq_some_iff.2 hword, trim_dropWhile_isFiller, ← hvalue]
    rfl

/-! ## In front of a header -/

/-- No keyword ends with another one. -/
theorem eq_of_word_suffix (hsuffix : k.word.toList <:+ k'.word.toList) : k = k' := by
  revert hsuffix
  cases k <;> cases k' <;> decide

/-- What stands in front of a header and is no header itself is in the way. -/
theorem Header.ofLine?_append_eq_none (hlead : lead ≠ []) (hnone : Header.ofLine? lead = none)
    (hline : Header.ofLine? line = some h) : Header.ofLine? (lead ++ line) = none := by
  obtain ⟨word, rest, rfl, hword, -⟩ := Header.ofLine?_eq_some_iff.1 hline
  rw [Option.eq_none_iff_forall_ne_some]
  intro h' hread
  obtain ⟨word', rest', heq, hword', -⟩ := Header.ofLine?_eq_some_iff.1 hread
  have hcolon' := colon_not_mem_of_isWrittenAs hword'
  by_cases hcolon : ':' ∈ lead
  · -- the first colon stands in front, so the keyword does, too
    obtain ⟨u, v, rfl, hu⟩ := List.eq_append_cons_of_mem hcolon
    rw [List.append_assoc, List.cons_append] at heq
    obtain ⟨rfl, -⟩ := Text.append_cons_inj_of_not_mem hu hcolon' heq
    have hwritten : Header.IsWritten ⟨h'.keyword, Text.trimEnd (v.dropWhile isFiller)⟩
        (u ++ ':' :: v) := ⟨u, v, rfl, hword', rfl⟩
    rw [Header.ofLine?_eq_some_iff.2 hwritten] at hnone
    cases hnone
  · rw [← List.append_assoc] at heq
    have hfront : ':' ∉ lead ++ word := by
      rw [List.mem_append, not_or]
      exact ⟨hcolon, colon_not_mem_of_isWrittenAs hword⟩
    obtain ⟨rfl, -⟩ := Text.append_cons_inj_of_not_mem hfront hcolon' heq
    have hlower := Keyword.isWrittenAs_iff.1 hword'
    rw [List.map_append, Keyword.isWrittenAs_iff.1 hword] at hlower
    rw [eq_of_word_suffix ⟨_, hlower⟩, List.append_left_eq_self] at hlower
    exact hlead (List.map_eq_nil_iff.1 hlower)

/-! ## The main result -/

/-- What is read from a line as a header. -/
structure Header.Recognized (line : List Char) : Prop where
  /-- The line is a header exactly when it begins with a keyword in ASCII letters of any case and a
      colon; the value is what follows, without the colons and blanks in front of it and the blanks
      at its end. -/
  some_iff : ∀ h : Header, Header.ofLine? line = some h ↔
    ∃ word rest, line = word ++ ':' :: rest ∧ h.keyword.IsWrittenAs word ∧
      h.value = Text.trimEnd (rest.dropWhile isFiller)
  /-- The pattern with the lookup behind it comes to the same. -/
  byPattern : Header.byPattern? line = Header.ofLine? line
  /-- A value begins neither with a colon nor with a blank, and does not end with a blank. -/
  value : ∀ h : Header, Header.ofLine? line = some h →
    (∀ c, h.value.head? = some c → c ≠ ':' ∧ Text.isBlank c = false) ∧
      ∀ c, h.value.getLast? = some c → Text.isBlank c = false
  /-- What stands in front of a header and is no header itself is in the way. -/
  front : ∀ lead : List Char, lead ≠ [] → (Header.ofLine? line).isSome →
    Header.ofLine? lead = none → Header.ofLine? (lead ++ line) = none
  /-- A word that the pattern takes for a keyword is none where a character is not ASCII. -/
  ascii : ∀ (k : Keyword) (word rest : List Char), line = word ++ ':' :: rest → k.Folds word →
    headerPattern.captures? line = some [word, rest.dropWhile isFiller] ∧
      ((Header.ofLine? line).isSome ↔ ∀ c ∈ word, c.toNat < 128)

/-- **A header is a keyword and a colon at the beginning of a line, with the value behind them**,
    for the pattern and for the reader alike. -/
theorem Header.recognized_of_newline_not_mem (hline : '\n' ∉ line) : Header.Recognized line where
  some_iff _ := Header.ofLine?_eq_some_iff
  byPattern := by
    apply Option.ext
    intro h
    rw [Header.byPattern?_eq_some_iff hline, Header.ofLine?_eq_some_iff]
  value h hread := by
    obtain ⟨word, rest, -, -, hvalue⟩ := Header.ofLine?_eq_some_iff.1 hread
    rw [hvalue]
    refine ⟨fun c hc => ?_, fun c hc => Text.isBlank_getLast_trimEnd hc⟩
    have hfiller := isFiller_head_value hc
    exact ⟨beq_eq_false_iff_ne.1 (Bool.or_eq_false_iff.1 hfiller).1,
      isBlank_of_isFiller_eq_false hfiller⟩
  front lead hlead hread hnone := by
    obtain ⟨h, hread⟩ := Option.isSome_iff_exists.1 hread
    exact Header.ofLine?_append_eq_none hlead hnone hread
  ascii k word rest hsplit hword := by
    refine ⟨(captures?_headerPattern_iff hline).2 ⟨word, rest, hsplit, ⟨k, hword⟩, rfl⟩, ?_⟩
    have hcolon := colon_not_mem_of_folds hword
    rw [Option.isSome_iff_exists]
    constructor
    · rintro ⟨h, hread⟩
      obtain ⟨word', rest', hsplit', hword', -⟩ := Header.ofLine?_eq_some_iff.1 hread
      obtain ⟨rfl, -⟩ := Text.append_cons_inj_of_not_mem hcolon
        (colon_not_mem_of_isWrittenAs hword') (hsplit.symm.trans hsplit')
      exact (Keyword.isWrittenAs_iff_folds.1 hword').2
    · intro hascii
      exact ⟨⟨k, Text.trimEnd (rest.dropWhile isFiller)⟩, Header.ofLine?_eq_some_iff.2
        ⟨word, rest, hsplit, Keyword.isWrittenAs_iff_folds.2 ⟨hword, hascii⟩, rfl⟩⟩

/-- Lines with headers in unusual letters, with values of colons and blanks, and with something in
    front of the keyword or behind it. -/
def Header.oddLines : List (String × Option Header) :=
  [("StArT::\u3000: A:b \t", some ⟨.start, "A:b".toList⟩),
    ("ACCEPT: \u00A0::\u2003", some ⟨.accept, []⟩), ("\u017Ftart::A", none), (" states:A", none),
    (":states:A", none), ("xstates:A", none), ("states :A", none)]

theorem Header.oddLines_recognized :
    (∀ x ∈ Header.oddLines, '\n' ∉ x.1.toList) ∧
      (∀ x ∈ Header.oddLines, Header.ofLine? x.1.toList = x.2) ∧
      (∀ x ∈ Header.oddLines, Header.Recognized x.1.toList) ∧
      Keyword.Folds .start "\u017Ftart".toList ∧
      headerPattern.captures? "\u017Ftart::A".toList = some ["\u017Ftart".toList, "A".toList] := by
  have hone : ∀ x ∈ Header.oddLines, '\n' ∉ x.1.toList := by decide +kernel
  have hlong : Keyword.Folds .start "\u017Ftart".toList := by
    simp [Keyword.Folds, Keyword.word, folds]
  have hmem : ("\u017Ftart::A", none) ∈ Header.oddLines := by simp [Header.oddLines]
  refine ⟨hone, by decide +kernel, ?_, hlong, ?_⟩
  · exact fun x hx => Header.recognized_of_newline_not_mem (hone x hx)
  · exact ((Header.recognized_of_newline_not_mem (hone _ hmem)).ascii .start _ ":A".toList rfl
      hlong).1

end Definition

end Acceptor
