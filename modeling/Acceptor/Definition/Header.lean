/-
  Header lines.

  A header is a keyword, a colon directly behind it, and a value.  The case of ASCII letters in the
  keyword does not count; every other character of the keyword does.  Further colons and blanks in
  front of the value are passed over.

  1. **Keywords** — the five of them.

  2. **Reading** — `Header.ofLine?`; a line that is no header has no answer.

  3. **Meaning** — the declarations that a header stands for.
-/
import Acceptor.Builder.Declaration
import Acceptor.Text.Split

namespace Acceptor.Definition

/-! ## Keywords -/

/-- What a header line speaks of. -/
inductive Keyword
  | states
  | alphabet
  | start
  | accept
  | transitions
deriving DecidableEq

namespace Keyword

/-- The word that introduces the header. -/
def word : Keyword → String
  | states => "states"
  | alphabet => "alphabet"
  | start => "start"
  | accept => "accept"
  | transitions => "transitions"

/-- Every keyword. -/
def all : List Keyword := [states, alphabet, start, accept, transitions]

/-- The keyword that a word is, whatever the case of its ASCII letters. -/
def ofWord? (word : List Char) : Option Keyword :=
  all.find? fun k => k.word.toList == word.map Char.toLower

end Keyword

/-! ## Reading a header -/

/-- A keyword with its value. -/
structure Header where
  keyword : Keyword
  value : List Char
deriving DecidableEq

/-- A colon or a blank: what may stand between the first colon and the value. -/
def isFiller (c : Char) : Bool := c == ':' || Text.isBlank c

/-- The header that a line writes. -/
def Header.ofLine? (line : List Char) : Option Header := do
  let (word, rest) ← Text.splitAround [':'] line
  let keyword ← Keyword.ofWord? word
  return { keyword, value := Text.trimEnd (rest.dropWhile isFiller) }

/-! ## What a header declares -/

/-- The declarations of a header.  The value of `transitions` says nothing. -/
def Header.declarations (h : Header) : List Declaration :=
  match h.keyword with
  | .states => (Text.listItems h.value).map fun item => .state (String.ofList item)
  | .alphabet => (Text.listItems h.value).map fun item => .symbol (String.ofList item)
  | .start => [.start (String.ofList h.value)]
  | .accept => (Text.listItems h.value).map fun item => .accept (String.ofList item)
  | .transitions => []

end Acceptor.Definition
