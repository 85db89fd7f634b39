/-
  The layout of a definition, read off the text.

  What a definition means depends on its lines in a simple way, which this file writes down without
  any reader.

  1. **Significant lines** — `contentLines`: the trimmed lines that are neither empty nor begun with
     a `#`.

  2. **Headers** — `keywordOf?` is the keyword that a line begins with, if a colon follows it
     directly, and `valueOf` is what stands behind the first colon.

  3. **Parts** — `headerLines` stand in front of the first line whose keyword is `transitions`, and
     `ruleLines` behind it.

  4. **Rules** — `Rule.IsWritten`: a line writes a rule when the first arrow and the first comma in
     front of it cut the line into the three parts of the rule.

  The functions that read lines agree with all this: `map_text_significantLines`,
  `Header.ofLine?_eq` and `Rule.ofLine_eq_ok_iff`.
-/
import Acceptor.Definition.Header
import Acceptor.Definition.Line
import Acceptor.Definition.Rule
import Acceptor.Proofs.Text.Split
import Acceptor.Proofs.Text.Trim

namespace Acceptor

namespace Definition

/-! ## Significant lines -/

/-- The significant lines of a text, trimmed: those that are neither empty nor begin with `#`. -/
def contentLines (text : String) : List (List Char) :=
  ((Text.lines text.toList).map Text.trim).filter fun line => line ≠ [] ∧ line.head? ≠ some '#'

/-- For a trimmed line, to be a remark is to be empty or to begin with `#`. -/
theorem isRemark_trim (s : List Char) :
    (!Text.isRemark (Text.trim s)) =
      decide (Text.trim s ≠ [] ∧ (Text.trim s).head? ≠ some '#') := by
  rw [Text.isRemark, Text.trimStart_trim]
  cases Text.trim s with
  | nil => rfl
  | cons c rest => by_cases hc : c = '#' <;> simp [hc]

/-- Trimming a line does not decide whether it is a remark. -/
theorem isRemark_trim_eq (s : List Char) : Text.isRemark (Text.trim s) = Text.isRemark s := by
  rw [Text.isRemark, Text.isRemark, Text.trimStart_trim, Text.trim]
  cases h : Text.trimStart s with
  | nil => rfl
  | cons c rest =>
    have hc : Text.isBlank c = false := Text.isBlank_head_trimStart (by rw [h]; rfl)
    rw [Text.trimEnd_cons_of_not_blank hc]

/-- The significant lines are those that are no remarks, trimmed. -/
theorem contentLines_eq (text : String) :
    contentLines text =
      ((Text.lines text.toList).filter fun line => !Text.isRemark line).map Text.trim := by
  unfold contentLines
  rw [List.filter_map]
  congr 1
  apply List.filter_congr
  intro line _
  show decide _ = _
  rw [← isRemark_trim, isRemark_trim_eq]

/-- The significant lines without their numbers are the content lines. -/
theorem map_text_significantLines (text : String) :
    (significantLines text).map (fun line => line.text.toList) = contentLines text := by
  unfold significantLines numberedLines contentLines
  have hlines : ∀ (ls : List (List Char)) (n : Nat),
      (((ls.zipIdx n).map fun x => (⟨x.2, String.ofList (Text.trim x.1)⟩ : Line)).filter
        fun line => !Text.isRemark line.text.toList).map (fun line => line.text.toList) =
      (ls.map Text.trim).filter fun line => line ≠ [] ∧ line.head? ≠ some '#' := by
    intro ls
    induction ls with
    | nil => intro n; rfl
    | cons l ls ih =>
      intro n
      rw [List.zipIdx_cons, List.map_cons, List.map_cons, List.filter_cons, List.filter_cons]
      simp only [String.toList_ofList, isRemark_trim]
      split
      · rw [List.map_cons, ih (n + 1), String.toList_ofList]
      · exact ih (n + 1)
  exact hlines _ 1

/-! ## Headers -/

/-- The keyword that a line begins with, whatever the case of its ASCII letters, if a colon follows
    it directly. -/
def keywordOf? (line : List Char) : Option Keyword :=
  Keyword.all.find? fun k => (k.word.toList ++ [':']).isPrefixOf (line.map Char.toLower)

/-- What stands behind the first colon of a line, without the colons and blanks in front of it and
    the blanks at its end. -/
def valueOf (line : List Char) : List Char :=
  Text.trimEnd ((line.dropWhile (· ≠ ':')).dropWhile isFiller)

/-- No other character becomes a colon in lower case. -/
theorem toLower_eq_colon_iff {c : Char} : c.toLower = ':' ↔ c = ':' := by
  constructor
  · intro h
    -- only the letters A to Z are changed, and what they become is far above the colon
    unfold Char.toLower at h
    split at h
    · rename_i hupper
      have hlow : 65 ≤ c.val.toNat := UInt32.le_iff_toNat_le.1 hupper.1
      have hhigh : c.val.toNat ≤ 90 := UInt32.le_iff_toNat_le.1 hupper.2
      have hval : (c.val + 32).toNat = 58 := congrArg (fun x => x.val.toNat) h
      rw [UInt32.toNat_add] at hval
      have h32 : (32 : UInt32).toNat = 32 := rfl
      omega
    · exact h
  · rintro rfl
    rfl

theorem colon_not_mem_word (k : Keyword) : ':' ∉ k.word.toList := by
  cases k <;> decide

/-- A keyword and a colon begin a line in which the first colon is visible exactly when the keyword
    is all that stands in front of it. -/
theorem word_colon_prefix_iff {word w rest : List Char} (hword : ':' ∉ word) (hw : ':' ∉ w) :
    word ++ [':'] <+: w ++ ':' :: rest ↔ word = w := by
  constructor
  · rintro ⟨tail, htail⟩
    -- both words stand in front of the first colon of the line
    rw [List.append_assoc, List.singleton_append] at htail
    exact (Text.append_cons_inj_of_not_mem hword hw htail).1
  · rintro rfl
    exact ⟨rest, by simp⟩

theorem keywordOf?_of_colon {word rest : List Char} (hword : ':' ∉ word) :
    keywordOf? (word ++ ':' :: rest) = Keyword.ofWord? word := by
  have hlower : ':' ∉ word.map Char.toLower := by
    intro h
    obtain ⟨c, hc, hcolon⟩ := List.mem_map.1 h
    exact hword (toLower_eq_colon_iff.1 hcolon ▸ hc)
  unfold keywordOf? Keyword.ofWord?
  congr 1
  funext k
  rw [Bool.eq_iff_iff, List.isPrefixOf_iff_prefix, List.map_append, List.map_cons, beq_iff_eq]
  exact word_colon_prefix_iff (colon_not_mem_word k) hlower

theorem keywordOf?_of_not_mem {line : List Char} (h : ':' ∉ line) : keywordOf? line = none := by
  unfold keywordOf?
  rw [List.find?_eq_none]
  intro k _ hprefix
  obtain ⟨tail, htail⟩ := List.isPrefixOf_iff_prefix.1 hprefix
  have hmem : ':' ∈ line.map Char.toLower := by
    rw [← htail]
    simp
  obtain ⟨c, hc, hcolon⟩ := List.mem_map.1 hmem
  exact h (toLower_eq_colon_iff.1 hcolon ▸ hc)

theorem valueOf_of_colon {word rest : List Char} (hword : ':' ∉ word) :
    valueOf (word ++ ':' :: rest) = Text.trimEnd (rest.dropWhile isFiller) := by
  have hskip : (word ++ ':' :: rest).dropWhile (· ≠ ':') = ':' :: rest := by
    rw [List.dropWhile_append_of_pos]
    · rfl
    · intro c hc
      exact decide_eq_true fun h => hword (h ▸ hc)
  rw [valueOf, hskip]
  rfl

/-- The header that a line writes is its keyword with its value. -/
theorem Header.ofLine?_eq (line : List Char) :
    Header.ofLine? line = (keywordOf? line).map fun k => ⟨k, valueOf line⟩ := by
  unfold Header.ofLine?
  cases hsplit : Text.splitAround [':'] line with
  | none =>
    rw [keywordOf?_of_not_mem (Text.splitAround_char_eq_none_iff.1 hsplit)]
    rfl
  | some parts =>
    obtain ⟨word, rest⟩ := parts
    obtain ⟨rfl, hword⟩ := Text.splitAround_char_iff.1 hsplit
    rw [keywordOf?_of_colon hword, valueOf_of_colon hword]
    show (Keyword.ofWord? word).bind _ = _
    cases Keyword.ofWord? word <;> rfl

/-- What a line declares if it is a header. -/
def headerDeclarations (line : List Char) : List Declaration :=
  match keywordOf? line with
  | some k => Header.declarations ⟨k, valueOf line⟩
  | none => []

/-- The values of the lines with a keyword. -/
def valuesOf (k : Keyword) (lines : List (List Char)) : List (List Char) :=
  (lines.filter fun line => keywordOf? line = some k).map valueOf

/-- The items on the lines with a keyword: the trimmed pieces between commas that are not empty. -/
def itemsOf (k : Keyword) (lines : List (List Char)) : List (List Char) :=
  (valuesOf k lines).flatMap Text.listItems

/-- The items under a keyword are those of its lines, one by one. -/
theorem forall_mem_itemsOf_iff {k : Keyword} {lines : List (List Char)} {P : List Char → Prop} :
    (∀ item ∈ itemsOf k lines, P item) ↔
      ∀ up line down, lines = up ++ line :: down → keywordOf? line = some k →
        ∀ item ∈ Text.listItems (valueOf line), P item := by
  unfold itemsOf valuesOf
  constructor
  · rintro h up line down rfl hk item hitem
    apply h
    rw [List.mem_flatMap]
    refine ⟨valueOf line, List.mem_map.2 ⟨line, ?_, rfl⟩, hitem⟩
    simp [hk]
  · intro h item hitem
    obtain ⟨value, hvalue, hmem⟩ := List.mem_flatMap.1 hitem
    obtain ⟨line, hline, rfl⟩ := List.mem_map.1 hvalue
    obtain ⟨hin, hk⟩ := List.mem_filter.1 hline
    obtain ⟨up, down, hsplit⟩ := List.append_of_mem hin
    exact h up line down hsplit (of_decide_eq_true hk) item hmem

/-! ## Parts -/

/-- The lines in front of the first one whose keyword is `transitions`. -/
def headerPart (lines : List (List Char)) : List (List Char) :=
  lines.takeWhile fun line => keywordOf? line ≠ some .transitions

/-- The lines behind the first one whose keyword is `transitions`. -/
def rulePart (lines : List (List Char)) : List (List Char) :=
  (lines.dropWhile fun line => keywordOf? line ≠ some .transitions).tail

section Parts

variable {line : List Char} {lines : List (List Char)}

theorem headerPart_cons_of_ne (h : keywordOf? line ≠ some .transitions) :
    headerPart (line :: lines) = line :: headerPart lines := by
  rw [headerPart, List.takeWhile_cons, if_pos (decide_eq_true h)]
  rfl

theorem rulePart_cons_of_ne (h : keywordOf? line ≠ some .transitions) :
    rulePart (line :: lines) = rulePart lines := by
  rw [rulePart, List.dropWhile_cons, if_pos (decide_eq_true h)]
  rfl

theorem headerPart_cons_of_eq (h : keywordOf? line = some .transitions) :
    headerPart (line :: lines) = [] := by
  rw [headerPart, List.takeWhile_cons, if_neg (by simp [h])]

theorem rulePart_cons_of_eq (h : keywordOf? line = some .transitions) :
    rulePart (line :: lines) = lines := by
  rw [rulePart, List.dropWhile_cons, if_neg (by simp [h])]
  rfl

variable {above : List (List Char)}

theorem headerPart_append_of_ne (h : ∀ line ∈ above, keywordOf? line ≠ some .transitions) :
    headerPart (above ++ lines) = above ++ headerPart lines := by
  rw [headerPart, List.takeWhile_append_of_pos fun line hline => decide_eq_true (h line hline)]
  rfl

theorem rulePart_append_of_ne (h : ∀ line ∈ above, keywordOf? line ≠ some .transitions) :
    rulePart (above ++ lines) = rulePart lines := by
  rw [rulePart, List.dropWhile_append_of_pos fun line hline => decide_eq_true (h line hline)]
  rfl

end Parts

/-- The header lines of a text. -/
def headerLines (text : String) : List (List Char) := headerPart (contentLines text)

/-- The transition lines of a text. -/
def ruleLines (text : String) : List (List Char) := rulePart (contentLines text)

/-! ## Rules -/

/-- The first arrow of a line and the first comma in front of it cut the line into three parts. -/
def IsCutInto (line source token target : List Char) : Prop :=
  line = source ++ ',' :: token ++ '-' :: '>' :: target ∧
    ',' ∉ source ∧ ¬ ['-', '>'] <:+: source ++ ',' :: token

/-- How far a line can be cut: not at all, at an arrow only, or into three parts. -/
theorem cut_cases (line : List Char) :
    ¬ ['-', '>'] <:+: line ∨
      (∃ left target, line = left ++ '-' :: '>' :: target ∧ ¬ ['-', '>'] <:+: left ∧ ',' ∉ left) ∨
        ∃ source token target, IsCutInto line source token target := by
  cases hsplit : Text.splitAround ['-', '>'] line with
  | none => exact .inl (Text.splitAround_eq_none_iff.1 hsplit)
  | some parts =>
    obtain ⟨left, target⟩ := parts
    obtain ⟨hline, harrow⟩ := Text.splitAround_arrow_iff.1 hsplit
    by_cases hcomma : ',' ∈ left
    · obtain ⟨source, token, rfl, hsource⟩ := List.eq_append_cons_of_mem hcomma
      exact .inr (.inr ⟨source, token, target, hline, hsource, harrow⟩)
    · exact .inr (.inl ⟨left, target, hline, harrow, hcomma⟩)

/-- A line writes a rule: the first arrow and the first comma in front of it cut the line into the
    source, the symbol and the target, up to blanks around each. -/
def Rule.IsWritten (r : Rule) (line : List Char) : Prop :=
  ∃ source token target,
    line = source ++ ',' :: token ++ '-' :: '>' :: target ∧
      ',' ∉ source ∧ ¬ ['-', '>'] <:+: source ++ ',' :: token ∧
      Text.trim source = r.source.toList ∧ Text.trim token = [r.symbol] ∧
      Text.trim target = r.target.toList

/-! What is read from a line, by how far it can be cut. -/

theorem Rule.ofLine_of_no_arrow {line : List Char} (h : ¬ ['-', '>'] <:+: line) :
    Rule.ofLine line = .error .missingArrow := by
  rw [Rule.ofLine, Text.splitAround_eq_none_iff.2 h]

theorem Rule.ofLine_of_no_comma {left : List Char} (harrow : ¬ ['-', '>'] <:+: left)
    (hcomma : ',' ∉ left) (target : List Char) :
    Rule.ofLine (left ++ '-' :: '>' :: target) = .error .missingComma := by
  rw [Rule.ofLine, Text.splitAround_arrow_iff.2 ⟨rfl, harrow⟩]
  dsimp only
  rw [Text.splitAround_char_eq_none_iff.2 hcomma]

theorem Rule.ofLine_of_isCutInto {line source token target : List Char}
    (h : IsCutInto line source token target) :
    Rule.ofLine line =
      (symbolOf (String.ofList (Text.trim token))).map fun symbol =>
        ⟨String.ofList (Text.trim source), symbol, String.ofList (Text.trim target)⟩ := by
  obtain ⟨rfl, hcomma, harrow⟩ := h
  rw [Rule.ofLine, Text.splitAround_arrow_iff.2 ⟨rfl, harrow⟩]
  dsimp only
  rw [Text.splitAround_char_iff.2 ⟨rfl, hcomma⟩]

theorem Rule.ofLine_eq_ok_iff {line : List Char} {r : Rule} :
    Rule.ofLine line = .ok r ↔ r.IsWritten line := by
  constructor
  · intro h
    unfold Rule.ofLine at h
    split at h
    · cases h
    · rename_i left target harrow
      split at h
      · cases h
      · rename_i source token hcomma
        obtain ⟨rfl, hfirst⟩ := Text.splitAround_arrow_iff.1 harrow
        obtain ⟨rfl, hsource⟩ := Text.splitAround_char_iff.1 hcomma
        cases hsymbol : symbolOf (String.ofList (Text.trim token)) with
        | error cause =>
          rw [hsymbol] at h
          cases h
        | ok c =>
          rw [hsymbol] at h
          cases h
          have htoken := symbolOf_eq_ok_iff.1 hsymbol
          rw [String.toList_ofList] at htoken
          exact ⟨source, token, target, rfl, hsource, hfirst, String.toList_ofList.symm, htoken,
            String.toList_ofList.symm⟩
  · rintro ⟨source, token, target, rfl, hsource, hfirst, hs, hc, ht⟩
    have hsymbol : symbolOf (String.ofList (Text.trim token)) = .ok r.symbol :=
      symbolOf_eq_ok_iff.2 (by rw [String.toList_ofList, hc])
    rw [Rule.ofLine_of_isCutInto ⟨rfl, hsource, hfirst⟩, hsymbol, hs, ht]
    show Except.ok _ = _
    rw [String.ofList_toList, String.ofList_toList]

/-- A line writes one rule only. -/
theorem Rule.IsWritten.unique {r r' : Rule} {line : List Char} (h : r.IsWritten line)
    (h' : r'.IsWritten line) : r = r' := by
  have heq := (Rule.ofLine_eq_ok_iff.2 h).symm.trans (Rule.ofLine_eq_ok_iff.2 h')
  exact Except.ok.inj heq

end Definition

end Acceptor
