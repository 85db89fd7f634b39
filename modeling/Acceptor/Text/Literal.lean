/-
  A text written as a literal, so that a log line shows every character of it.

  The literal stands in double quotes.  Five characters have a short escape, the double quote and
  the backslash are escaped by a backslash, and a character that cannot be seen by itself is
  written by its number in hexadecimal.  A single quote stands as it is.

  1. **What cannot be seen by itself** — `isUnseen`.  A character has no form of its own if it is a
     control or format character, a separator other than the space, a filler, for private use, or
     not assigned at all; and if it extends the character before it, its form hangs on that one.
     The tables are those of Unicode 17.0.

  2. **The literal** — `escape` for one character, `literal` for a text.
-/
import Acceptor.Text.Extender
import Acceptor.Text.Unassigned

namespace Acceptor.Text

/-! ## Characters that cannot be seen by themselves -/

/-- The control characters: general category Cc. -/
def controlRanges : Ranges := [(0x0, 0x1F), (0x7F, 0x9F)]

/-- The format characters: general category Cf. -/
def formatRanges : Ranges :=
  [(0xAD, 0xAD), (0x600, 0x605), (0x61C, 0x61C), (0x6DD, 0x6DD), (0x70F, 0x70F), (0x890, 0x891),
   (0x8E2, 0x8E2), (0x180E, 0x180E), (0x200B, 0x200F), (0x202A, 0x202E), (0x2060, 0x2064),
   (0x2066, 0x206F), (0xFEFF, 0xFEFF), (0xFFF9, 0xFFFB), (0x110BD, 0x110BD), (0x110CD, 0x110CD),
   (0x13430, 0x1343F), (0x1BCA0, 0x1BCA3), (0x1D173, 0x1D17A), (0xE0001, 0xE0001),
   (0xE0020, 0xE007F)]

/-- The separators other than the space: general categories Zs, Zl and Zp. -/
def separatorRanges : Ranges :=
  [(0xA0, 0xA0), (0x1680, 0x1680), (0x2000, 0x200A), (0x2028, 0x2029), (0x202F, 0x202F),
   (0x205F, 0x205F), (0x3000, 0x3000)]

/-- The fillers: letters with the property Default_Ignorable_Code_Point, which are shown as
    nothing. -/
def fillerRanges : Ranges := [(0x115F, 0x1160), (0x3164, 0x3164), (0xFFA0, 0xFFA0)]

/-- The private use areas: general category Co. -/
def privateRanges : Ranges := [(0xE000, 0xF8FF), (0xF0000, 0xFFFFD), (0x100000, 0x10FFFD)]

/-- Every table of characters that cannot be seen by themselves. -/
def unseenTables : List Ranges :=
  [controlRanges, separatorRanges, formatRanges, fillerRanges, privateRanges, extenderRanges,
   unassignedRanges]

/-- A character that cannot be seen by itself. -/
def isUnseen (c : Char) : Bool := unseenTables.any (·.holds c)

/-! ## The literal -/

/-- The number of a character in lower-case hexadecimal digits. -/
def hexadecimal (c : Char) : List Char := Nat.toDigits 16 c.toNat

/-- One character as it stands in a literal. -/
def escape (c : Char) : List Char :=
  match c with
  | '\x00' => ['\\', '0']
  | '\t' => ['\\', 't']
  | '\r' => ['\\', 'r']
  | '\n' => ['\\', 'n']
  | '"' => ['\\', '"']
  | '\\' => ['\\', '\\']
  | c => if isUnseen c then ['\\', 'u', '{'] ++ hexadecimal c ++ ['}'] else [c]

/-- The text as a literal in double quotes. -/
def literal (s : String) : String :=
  String.ofList (['"'] ++ s.toList.flatMap escape ++ ['"'])

end Acceptor.Text
