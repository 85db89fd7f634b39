/-
  Building an automaton, one declaration after the other.

  A declaration may use only what was declared before it.  One that fails leaves the builder as it
  was; one that succeeds has an answer, which tells what it met: the state or symbol it named, or
  what it replaced.

  1. **The five declarations** — states and symbols keep the order in which they were first
     declared, and declaring one again changes nothing; the latest start and the latest binding of
     a pair hold; accepting states add up.

  2. **Building** — an automaton needs a state, a symbol and a start.
-/
import Acceptor.Automaton
import Acceptor.Symbol

namespace Acceptor

/-- The declarations so far. -/
structure Builder extends TransitionSystem where
  start : Option Nat := none
deriving DecidableEq

namespace Builder

/-! ## The five declarations -/

/-- Declares a state; the answer is its number, the old one if it has one. -/
def addState (b : Builder) (name : String) : Nat × Builder :=
  match b.state? name with
  | some s => (s, b)
  | none => (b.stateCount, { b with names := b.names ++ [name] })

/-- Declares a symbol; the answer is the symbol. -/
def addSymbol (b : Builder) (token : String) : Except Cause (Char × Builder) :=
  (symbolOf token).map fun c =>
    (c, if b.hasSymbol c then b else { b with alphabet := b.alphabet ++ [c] })

/-- Makes a state the start; the answer is the start before. -/
def setStart (b : Builder) (name : String) : Except Cause (Option Nat × Builder) :=
  match b.state? name with
  | some s => .ok (b.start, { b with start := some s })
  | none => .error (.unknownStart name)

/-- Makes a state accepting; the answer is the state. -/
def addAccept (b : Builder) (name : String) : Except Cause (Nat × Builder) :=
  match b.state? name with
  | some s => .ok (s, { b with accepting := b.accepting.insert s })
  | none => .error (.unknownAccept name)

/-- Binds a state and a symbol to a target; the answer is the target before. -/
def addTransition (b : Builder) (source : String) (symbol : Char) (target : String) :
    Except Cause (Option Nat × Builder) :=
  match b.state? source, b.hasSymbol symbol, b.state? target with
  | some s, true, some t =>
    .ok (b.next? s symbol, { b with bindings := ((s, symbol), t) :: b.bindings })
  | _, _, _ => .error (.unknownReference source symbol target)

/-! ## Building -/

/-- The parts that are still to be declared. -/
def missing (b : Builder) : List String :=
  (if b.names = [] then ["states"] else []) ++
    (if b.alphabet = [] then ["alphabet"] else []) ++
    (if b.start = none then ["start"] else [])

/-- The automaton that was declared, if no part is missing. -/
def build (b : Builder) : Except Cause Automaton :=
  match b.missing, b.start with
  | [], some s => .ok { toTransitionSystem := b.toTransitionSystem, start := s }
  | parts, _ => .error (.incomplete parts)

@[simp] theorem missing_eq_nil_iff {b : Builder} :
    b.missing = [] ↔ b.names ≠ [] ∧ b.alphabet ≠ [] ∧ b.start ≠ none := by
  unfold missing
  split <;> split <;> split <;> simp_all

/-- Building succeeds exactly when a state, a symbol and a start were declared. -/
theorem build_eq_ok_iff {b : Builder} {d : Automaton} :
    b.build = .ok d ↔
      b.names ≠ [] ∧ b.alphabet ≠ [] ∧ b.start = some d.start ∧
        d.toTransitionSystem = b.toTransitionSystem := by
  obtain ⟨m, start⟩ := b
  obtain ⟨m', start'⟩ := d
  unfold build
  cases start with
  | none => cases hm : missing ⟨m, none⟩ <;> simp
  | some s =>
    by_cases hm : missing ⟨m, some s⟩ = []
    · have := missing_eq_nil_iff.1 hm
      simp only [hm, Except.ok.injEq, Automaton.mk.injEq, Option.some.injEq]
      simp_all only [ne_eq, not_false_eq_true, true_and]
      exact ⟨fun ⟨h1, h2⟩ => ⟨h2, h1.symm⟩, fun ⟨h1, h2⟩ => ⟨h2.symm, h1⟩⟩
    · have := fun h1 h2 => hm (missing_eq_nil_iff.2 ⟨h1, h2, by simp⟩)
      split
      · simp_all
      · simp only [reduceCtorEq, false_iff]
        exact fun ⟨h1, h2, _⟩ => this h1 h2

end Builder

end Acceptor
