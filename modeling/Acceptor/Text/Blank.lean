/-
  Blank characters and trimming.

  Every format of this library skips or trims the same characters: those with the Unicode property
  White_Space.  The property is wider than the space, tab and line ends that `Char.isWhitespace`
  knows, and it leaves out some characters that look empty, such as U+200B.

  1. **The property** — `isBlank`, a table of ten ranges.

  2. **Trimming** — `trimStart`, `trimEnd` and `trim` on lists of characters.  What stays neither
     begins nor ends with a blank.
-/

namespace Acceptor.Text

/-! ## The property White_Space -/

/-- The characters with the Unicode property White_Space. -/
def isBlank (c : Char) : Bool :=
  let n := c.toNat
  (0x9 ≤ n && n ≤ 0xD) || n == 0x20 || n == 0x85 || n == 0xA0 || n == 0x1680 ||
    (0x2000 ≤ n && n ≤ 0x200A) || n == 0x2028 || n == 0x2029 || n == 0x202F ||
    n == 0x205F || n == 0x3000

/-! ## Trimming -/

/-- The text from its first character that is not blank. -/
def trimStart (s : List Char) : List Char := s.dropWhile isBlank

/-- The text up to its last character that is not blank. -/
def trimEnd (s : List Char) : List Char := (s.reverse.dropWhile isBlank).reverse

/-- The text without the blanks at its two ends. -/
def trim (s : List Char) : List Char := trimEnd (trimStart s)

/-- The text that `trimStart` leaves does not begin with a blank. -/
theorem isBlank_head_trimStart {s : List Char} {c : Char} (h : (trimStart s).head? = some c) :
    isBlank c = false := by
  have := List.head?_dropWhile_not isBlank s
  rw [trimStart] at h
  simpa [h] using this

/-- The text that `trimEnd` leaves does not end with a blank. -/
theorem isBlank_getLast_trimEnd {s : List Char} {c : Char} (h : (trimEnd s).getLast? = some c) :
    isBlank c = false := by
  have := List.head?_dropWhile_not isBlank s.reverse
  rw [trimEnd, List.getLast?_reverse] at h
  simpa [h] using this

end Acceptor.Text
