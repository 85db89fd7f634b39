/-
  Why a definition cannot become an automaton.

  A cause is a value, and its wording stands in one place, `Cause.message`.  A cause says nothing
  of where in a text it arose; that is added by whoever reads the text.
-/

namespace Acceptor

/-- What is wrong with a declaration, a line or a set of declarations. -/
inductive Cause
  /-- A symbol is written with no character or with several. -/
  | symbolLength (token : String)
  /-- The start is not a declared state. -/
  | unknownStart (name : String)
  /-- An accepting state is not declared. -/
  | unknownAccept (name : String)
  /-- A line of the header is no header. -/
  | unrecognizedLine
  /-- A transition has no arrow. -/
  | missingArrow
  /-- A transition has no comma before its arrow. -/
  | missingComma
  /-- A transition uses a state or a symbol that is not declared. -/
  | unknownReference (source : String) (symbol : Char) (target : String)
  /-- Parts that every automaton has were never declared. -/
  | incomplete (missing : List String)
deriving DecidableEq

/-- The wording of a cause. -/
def Cause.message : Cause → String
  | symbolLength token => "symbol '" ++ token ++ "' must be one character"
  | unknownStart name => "unknown start state '" ++ name ++ "'"
  | unknownAccept name => "unknown accept state '" ++ name ++ "'"
  | unrecognizedLine => "unrecognized line"
  | missingArrow => "invalid transition: missing arrow"
  | missingComma => "invalid transition: missing comma"
  | unknownReference source symbol target =>
    "transition references unknown state or symbol: " ++
      source ++ "," ++ String.singleton symbol ++ "->" ++ target
  | incomplete missing => "incomplete configuration: missing " ++ ", ".intercalate missing

end Acceptor
