/-
  Lines of bytes and lines of text.

  1. **Lines** — `AreLines stop s ls`: `s` is cut into `ls` after each `stop`, and a last piece
     that no `stop` ends is a line unless it is empty.  `cut` finds these lines and no others
     (`areLines_iff`), so a proof about lines is an induction on `AreLines`.

  2. **Bytes of a text** — `encode` writes characters in UTF-8.  The byte 0x0A stands for the
     newline and for nothing else (`newline_mem_utf8EncodeChar_iff`).

  3. **Lines of both** — cutting and decoding can be done in either order: the lines of encoded
     characters are the encoded lines (`AreLines.encode`), and bytes are a text exactly when every
     line of them is one (`AreLines.isText_iff`).
-/
import Acceptor.Text.Line

namespace Acceptor.Text

/-! ## Lines -/

/-- The pieces into which a list is cut after each `stop`. -/
inductive AreLines {α : Type} (stop : α) : List α → List (List α) → Prop
  | none : AreLines stop [] []
  | last {line : List α} (hne : line ≠ []) (h : stop ∉ line) : AreLines stop line [line]
  | cons {line rest : List α} {lines : List (List α)} (h : stop ∉ line)
      (hrest : AreLines stop rest lines) : AreLines stop (line ++ stop :: rest) (line :: lines)

section Lines

variable {α : Type} [DecidableEq α] {stop : α} {s : List α} {ls : List (List α)}

theorem AreLines.cut_eq (h : AreLines stop s ls) : cut stop s = ls := by
  induction h with
  | none => rfl
  | last hne h => exact cut_of_not_mem h hne
  | cons h _ ih => rw [cut_append_stop h, ih]

/-- No line holds the end of a line. -/
theorem AreLines.not_mem (h : AreLines stop s ls) : ∀ line ∈ ls, stop ∉ line := by
  rw [← h.cut_eq]
  exact fun line => not_mem_of_mem_cut

/-- One element more in front makes the first line longer, unless it ends a line that is empty. -/
theorem exists_areLines (stop : α) (s : List α) : ∃ ls, AreLines stop s ls := by
  induction s with
  | nil => exact ⟨[], .none⟩
  | cons a rest ih =>
    obtain ⟨ls, hls⟩ := ih
    by_cases ha : a = stop
    · subst ha
      exact ⟨[] :: ls, .cons List.not_mem_nil hls⟩
    · have hline : ∀ line : List α, stop ∉ line → stop ∉ a :: line := fun line hline hmem =>
        (List.mem_cons.1 hmem).elim (fun heq => ha heq.symm) hline
      cases hls with
      | none => exact ⟨[[a]], .last (List.cons_ne_nil a []) (hline [] List.not_mem_nil)⟩
      | last hne h => exact ⟨[a :: rest], .last (List.cons_ne_nil a rest) (hline rest h)⟩
      | @cons line rest lines h hrest => exact ⟨(a :: line) :: lines, .cons (hline line h) hrest⟩

theorem areLines_iff : AreLines stop s ls ↔ cut stop s = ls :=
  ⟨AreLines.cut_eq, fun h => by
    obtain ⟨ls', hls'⟩ := exists_areLines stop s
    rw [← h, hls'.cut_eq]
    exact hls'⟩

end Lines

/-! ## Bytes of a text -/

/-- The bytes of characters. -/
def encode (s : List Char) : List UInt8 := s.flatMap String.utf8EncodeChar

theorem encode_append (s t : List Char) : encode (s ++ t) = encode s ++ encode t :=
  List.flatMap_append

theorem encode_cons (c : Char) (s : List Char) :
    encode (c :: s) = String.utf8EncodeChar c ++ encode s :=
  List.flatMap_cons

theorem data_toUTF8 (text : String) : text.toUTF8.data.toList = encode text.toList := by
  rw [String.toUTF8_eq_toByteArray, ← String.utf8Encode_toList]
  exact List.toList_data_toByteArray

/-- The bytes of a text are read as that text, and no other bytes are. -/
theorem fromUTF8?_eq_some_iff {bytes : ByteArray} {text : String} :
    String.fromUTF8? bytes = some text ↔ text.toUTF8 = bytes := by
  rw [String.fromUTF8?]
  constructor
  · intro h
    split at h
    · cases h
      rfl
    · cases h
  · rintro rfl
    exact dif_pos text.isValidUTF8

theorem fromUTF8?_eq_none_iff {bytes : ByteArray} :
    String.fromUTF8? bytes = none ↔ ∀ text : String, text.toUTF8 ≠ bytes := by
  rw [Option.eq_none_iff_forall_ne_some]
  exact forall_congr' fun text => not_congr fromUTF8?_eq_some_iff

/-- A text is its bytes. -/
theorem eq_of_data_toUTF8 {text text' : String}
    (h : text.toUTF8.data.toList = text'.toUTF8.data.toList) : text = text' := by
  rw [← String.toByteArray_inj, ← String.toUTF8_eq_toByteArray, ← String.toUTF8_eq_toByteArray]
  exact ByteArray.ext (Array.toList_inj.1 h)

theorem eq_ten_of_newline {n : Nat} (h : (0x0A : UInt8) = UInt8.ofNat n) : n % 256 = 10 := by
  have hnat := congrArg UInt8.toNat h
  rw [UInt8.toNat_ofNat'] at hnat
  exact hnat.symm

/-- The byte 0x0A stands for the newline, and for no other character. -/
theorem newline_mem_utf8EncodeChar_iff {c : Char} : 0x0A ∈ String.utf8EncodeChar c ↔ c = '\n' := by
  constructor
  · fun_cases String.utf8EncodeChar c with
    | case1 v h =>
      intro hmem
      have hten := eq_ten_of_newline (List.mem_singleton.1 hmem)
      have hval : c.val.toNat = 10 := by omega
      exact Char.ext (UInt32.toNat_inj.1 hval)
    | case2 v h1 h2 =>
      -- every byte of a longer character has its highest bit set
      intro hmem
      simp only [List.mem_cons, List.not_mem_nil, or_false] at hmem
      rcases hmem with h | h <;> have hten := eq_ten_of_newline h <;> omega
    | case3 v h1 h2 h3 =>
      intro hmem
      simp only [List.mem_cons, List.not_mem_nil, or_false] at hmem
      rcases hmem with h | h | h <;> have hten := eq_ten_of_newline h <;> omega
    | case4 v h1 h2 h3 =>
      intro hmem
      simp only [List.mem_cons, List.not_mem_nil, or_false] at hmem
      rcases hmem with h | h | h | h <;> have hten := eq_ten_of_newline h <;> omega
  · rintro rfl
    decide

theorem newline_mem_encode_iff {s : List Char} : 0x0A ∈ encode s ↔ '\n' ∈ s := by
  rw [encode, List.mem_flatMap]
  constructor
  · rintro ⟨c, hc, hbyte⟩
    exact newline_mem_utf8EncodeChar_iff.1 hbyte ▸ hc
  · exact fun h => ⟨'\n', h, newline_mem_utf8EncodeChar_iff.2 rfl⟩

theorem encode_ne_nil {s : List Char} (h : s ≠ []) : encode s ≠ [] := by
  cases s with
  | nil => exact absurd rfl h
  | cons c s =>
    rw [encode_cons]
    exact fun hnil => String.utf8EncodeChar_ne_nil (List.append_eq_nil_iff.1 hnil).1

theorem encode_append_newline (line rest : List Char) :
    encode (line ++ '\n' :: rest) = encode line ++ 0x0A :: encode rest := by
  rw [encode_append, encode_cons]
  rfl

/-- Lines that are written one after the other have the bytes of each, and their ends. -/
theorem encode_flatMap_newline (ls : List (List Char)) :
    encode (ls.flatMap (· ++ ['\n'])) = (ls.map encode).flatMap (· ++ [0x0A]) := by
  induction ls with
  | nil => rfl
  | cons line ls ih =>
    rw [List.flatMap_cons, encode_append, encode_append, ih]
    rfl

/-! ## Lines of both -/

/-- Bytes that are the UTF-8 of a text. -/
def IsText (bytes : List UInt8) : Prop := ∃ text : String, text.toUTF8.data.toList = bytes

theorem isText_iff_exists_encode {bytes : List UInt8} : IsText bytes ↔ ∃ s, encode s = bytes := by
  constructor
  · rintro ⟨text, rfl⟩
    exact ⟨text.toList, (data_toUTF8 text).symm⟩
  · rintro ⟨s, rfl⟩
    refine ⟨String.ofList s, ?_⟩
    rw [data_toUTF8, String.toList_ofList]

theorem isText_iff_isSome_fromUTF8? {bytes : List UInt8} :
    IsText bytes ↔ (String.fromUTF8? bytes.toByteArray).isSome := by
  rw [Option.isSome_iff_exists]
  refine exists_congr fun text => ?_
  rw [fromUTF8?_eq_some_iff]
  constructor
  · rintro rfl
    exact ByteArray.ext (Array.toList_inj.1 List.toList_data_toByteArray.symm)
  · intro h
    rw [h, List.toList_data_toByteArray]

instance (bytes : List UInt8) : Decidable (IsText bytes) :=
  decidable_of_iff _ isText_iff_isSome_fromUTF8?.symm

theorem AreLines.encode {s : List Char} {ls : List (List Char)} (h : AreLines '\n' s ls) :
    AreLines 0x0A (encode s) (ls.map Text.encode) := by
  induction h with
  | none => exact .none
  | last hne h => exact .last (encode_ne_nil hne) (mt newline_mem_encode_iff.1 h)
  | cons h _ ih =>
    rw [encode_append_newline]
    exact .cons (mt newline_mem_encode_iff.1 h) ih

/-- Lines are texts one by one or as a whole. -/
theorem AreLines.isText_iff {bytes : List UInt8} {ls : List (List UInt8)}
    (h : AreLines 0x0A bytes ls) : IsText bytes ↔ ∀ line ∈ ls, IsText line := by
  constructor
  · rw [isText_iff_exists_encode]
    rintro ⟨s, rfl⟩ line hline
    obtain ⟨texts, htexts⟩ := exists_areLines '\n' s
    rw [← h.cut_eq, htexts.encode.cut_eq] at hline
    obtain ⟨text, -, rfl⟩ := List.mem_map.1 hline
    exact isText_iff_exists_encode.2 ⟨text, rfl⟩
  · intro hall
    induction h with
    | none => exact isText_iff_exists_encode.2 ⟨[], rfl⟩
    | last => exact hall _ (List.mem_singleton_self _)
    | cons _ _ ih =>
      rw [List.forall_mem_cons] at hall
      obtain ⟨line, rfl⟩ := isText_iff_exists_encode.1 hall.1
      obtain ⟨rest, rfl⟩ := isText_iff_exists_encode.1 (ih hall.2)
      exact isText_iff_exists_encode.2 ⟨line ++ '\n' :: rest, encode_append_newline line rest⟩

end Acceptor.Text
