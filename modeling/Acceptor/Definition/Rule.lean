/-
  Transition lines.

  A transition is written `source,symbol->target`.  The arrow is the first one of the line and the
  comma is the first one before it, so a target may hold commas and arrows, and a source may hold
  neither.  Blanks around the three parts do not count.
-/
import Acceptor.Builder.Declaration
import Acceptor.Text.Split

namespace Acceptor.Definition

/-- A transition as a line writes it. -/
structure Rule where
  source : String
  symbol : Char
  target : String
deriving DecidableEq

/-- The transition that a line writes, or what it lacks: the arrow is looked for first, then the
    comma, then the symbol. -/
def Rule.ofLine (line : List Char) : Except Cause Rule :=
  match Text.splitAround ['-', '>'] line with
  | none => .error .missingArrow
  | some (left, target) =>
    match Text.splitAround [','] left with
    | none => .error .missingComma
    | some (source, token) =>
      (symbolOf (String.ofList (Text.trim token))).map fun symbol =>
        { source := String.ofList (Text.trim source)
          symbol
          target := String.ofList (Text.trim target) }

/-- The declaration that a transition line stands for. -/
def Rule.declaration (r : Rule) : Declaration := .transition r.source r.symbol r.target

end Acceptor.Definition
