/-
  Declarations that change a builder in place.

  A `Builder` hands out a new builder when a declaration succeeds, so in it a failure cannot leave
  anything behind.  Here there is one builder, whose tables are changed one after the other while a
  declaration is carried out.  A failure ends the declaration where it arises, and what was changed
  by then stays changed.  That nothing was changed by then is a theorem.

  1. **Programs** — a `Work` acts on the tables of an `IndexedBuilder`; the five declarations are
     programs of look-ups, changes of single tables and failures.

  2. **All or nothing** — `run_perform`: what a program leaves is what the declaration answers, and
     after a failure that is the builder from before.

  3. **Leaving out** — `strike struck xs` leaves out the elements in some places.  When each of them
     failed, the history goes on without them as it did with them (`replay_strike`).

  Main result: `failures_leave_no_trace`.
-/
import Acceptor.Proofs.Builder.Indexed

namespace Acceptor

/-! ## Programs -/

/-- What acts on the tables of a builder, and may fail on the way. -/
abbrev Work := ExceptT Cause (StateM IndexedBuilder)

namespace InPlace

/-- The state of a name, or a failure. -/
def find (name : String) (cause : Cause) : Work Nat := do
  match (← get).index name with
  | some s => return s
  | none => throw cause

/-- Declares a state: a new name goes to the end of the list, and then into the index. -/
def addState (name : String) : Work Nat := do
  match (← get).index name with
  | some s => return s
  | none =>
    let s := (← get).names.length
    modify fun t => { t with names := t.names ++ [name] }
    modify fun t => { t with index := Function.update t.index name (some s) }
    return s

/-- Declares a symbol: a new one goes into the set, and then to the end of the list. -/
def addSymbol (token : String) : Work Char := do
  let c ← liftExcept (symbolOf token)
  if (← get).symbols c then return c
  modify fun t => { t with symbols := Function.update t.symbols c true }
  modify fun t => { t with alphabet := t.alphabet ++ [c] }
  return c

/-- Makes a state the start; the answer is the start before. -/
def setStart (name : String) : Work (Option Nat) := do
  let s ← find name (.unknownStart name)
  let old := (← get).start
  modify fun t => { t with start := some s }
  return old

/-- Makes a state accepting; the answer is the state. -/
def addAccept (name : String) : Work Nat := do
  let s ← find name (.unknownAccept name)
  modify fun t => { t with accepting := Function.update t.accepting s true }
  return s

/-- Binds a state and a symbol to a target; the answer is the target before. -/
def addTransition (source : String) (symbol : Char) (target : String) : Work (Option Nat) := do
  let t ← get
  match t.index source, t.symbols symbol, t.index target with
  | some s, true, some u =>
    let old := (← get).targets (s, symbol)
    modify fun t => { t with targets := Function.update t.targets (s, symbol) (some u) }
    return old
  | _, _, _ => throw (.unknownReference source symbol target)

/-- Carries out a declaration. -/
def perform : Declaration → Work Answer
  | .state name => return .state (← addState name)
  | .symbol token => return .symbol (← addSymbol token)
  | .start name => return .replaced (← setStart name)
  | .accept name => return .state (← addAccept name)
  | .transition source symbol target => return .replaced (← addTransition source symbol target)

/-- Carries out one declaration after the other, and takes down the outcomes. -/
def performAll (xs : List Declaration) : StateM IndexedBuilder (List (Except Cause Answer)) :=
  xs.mapM fun x => (perform x).run

end InPlace

/-! ## All or nothing -/

namespace IndexedBuilder

/-- What is left of a builder by an operation that gives a new one: that one, or the old one after a
    failure. -/
def settle {α : Type} (t : IndexedBuilder) :
    Except Cause (α × IndexedBuilder) → Except Cause α × IndexedBuilder
  | .ok (a, t') => (.ok a, t')
  | .error cause => (.error cause, t)

theorem attempt_eq_settle (t : IndexedBuilder) (x : Declaration) :
    t.attempt x = t.settle (t.declare x) := by
  rw [attempt]
  cases t.declare x <;> rfl

end IndexedBuilder

namespace InPlace

open IndexedBuilder (settle)

section Perform

variable {α β : Type}

/-- A program goes on with the tables that its first part leaves; a failure ends it there. -/
theorem run_bind (m : Work α) (k : α → Work β) (t : IndexedBuilder) :
    (m >>= k).run.run t = match m.run.run t with
      | (.ok a, t') => (k a).run.run t'
      | (.error cause, t') => (.error cause, t') := by
  show (ExceptT.bindCont k (m.run.run t).1).run (m.run.run t).2 = _
  rcases m.run.run t with ⟨_ | a, t'⟩ <;> rfl

/-- What wraps an answer changes nothing else. -/
theorem run_wrap {m : Work α} {t : IndexedBuilder} {r : Except Cause (α × IndexedBuilder)}
    (h : m.run.run t = settle t r) (f : α → β) :
    (do return f (← m) : Work β).run.run t = settle t (r.map fun (a, t') => (f a, t')) := by
  rw [run_bind, h]
  cases r <;> rfl

theorem run_find (n : String) (cause : Cause) (t : IndexedBuilder) :
    (find n cause).run.run t = match t.index n with
      | some s => (.ok s, t)
      | none => (.error cause, t) := by
  show (match t.index n with
    | some s => (pure s : Work Nat)
    | none => throw cause).run.run t = _
  cases t.index n <;> rfl

theorem run_addState (n : String) (t : IndexedBuilder) :
    (addState n).run.run t = settle t (.ok (t.addState n)) := by
  unfold addState IndexedBuilder.addState
  show (match t.index n with
    | some s => (pure s : Work Nat)
    | none => _).run.run t = _
  cases t.index n <;> rfl

theorem run_addSymbol (token : String) (t : IndexedBuilder) :
    (addSymbol token).run.run t = settle t (t.addSymbol token) := by
  unfold addSymbol IndexedBuilder.addSymbol
  cases symbolOf token with
  | error cause => rfl
  | ok c =>
    show (if t.symbols c then (pure c : Work Char) else _).run.run t = _
    cases hc : t.symbols c <;> simp only [Except.map, hc] <;> rfl

theorem run_setStart (n : String) (t : IndexedBuilder) :
    (setStart n).run.run t = settle t (t.setStart n) := by
  rw [setStart, run_bind, run_find, IndexedBuilder.setStart]
  cases t.index n <;> rfl

theorem run_addAccept (n : String) (t : IndexedBuilder) :
    (addAccept n).run.run t = settle t (t.addAccept n) := by
  rw [addAccept, run_bind, run_find, IndexedBuilder.addAccept]
  cases t.index n <;> rfl

theorem run_addTransition (p : String) (c : Char) (q : String) (t : IndexedBuilder) :
    (addTransition p c q).run.run t = settle t (t.addTransition p c q) := by
  unfold addTransition IndexedBuilder.addTransition
  show (match t.index p, t.symbols c, t.index q with
    | some s, true, some u => (_ : Work (Option Nat))
    | _, _, _ => _).run.run t = _
  cases t.index p with
  | none => rfl
  | some s =>
    cases t.symbols c with
    | false => rfl
    | true => cases t.index q <;> rfl

/-- Carrying out a declaration leaves what its answer comes with, and after a failure the builder
    from before. -/
theorem run_perform (x : Declaration) (t : IndexedBuilder) :
    (perform x).run.run t = t.attempt x := by
  rw [IndexedBuilder.attempt_eq_settle]
  cases x with
  | state name => exact run_wrap (run_addState name t) Answer.state
  | symbol token => exact run_wrap (run_addSymbol token t) Answer.symbol
  | start name => exact run_wrap (run_setStart name t) Answer.replaced
  | accept name => exact run_wrap (run_addAccept name t) Answer.state
  | transition p c q => exact run_wrap (run_addTransition p c q t) Answer.replaced

theorem run_performAll (xs : List Declaration) (t : IndexedBuilder) :
    (performAll xs).run t = t.replay xs := by
  induction xs generalizing t with
  | nil => rfl
  | cons x xs ih =>
    rw [performAll, List.mapM_cons]
    show (((perform x).run.run t).1 :: ((performAll xs).run ((perform x).run.run t).2).1,
      ((performAll xs).run ((perform x).run.run t).2).2) = _
    rw [run_perform, ih]
    rfl

end Perform

end InPlace

/-! ## Leaving out -/

/-- What stays of a list when the elements in some places are struck out. -/
def strike {α : Type} (struck : Nat → Bool) : List α → List α
  | [] => []
  | a :: as =>
    let rest := strike (fun i => struck (i + 1)) as
    if struck 0 then rest else a :: rest

theorem strike_cons_of_struck {α : Type} {struck : Nat → Bool} (h : struck 0 = true) (a : α)
    (as : List α) : strike struck (a :: as) = strike (fun i => struck (i + 1)) as := by
  rw [strike, h]
  rfl

theorem strike_cons_of_kept {α : Type} {struck : Nat → Bool} (h : struck 0 = false) (a : α)
    (as : List α) : strike struck (a :: as) = a :: strike (fun i => struck (i + 1)) as := by
  rw [strike, h]
  rfl

namespace Builder

variable {b : Builder} {x : Declaration} {xs : List Declaration} {struck : Nat → Bool}

/-- In the given places the outcomes are failures. -/
def Failed (outcomes : List (Except Cause Answer)) (struck : Nat → Bool) : Prop :=
  ∀ i, struck i = true → ∃ cause, outcomes[i]? = some (.error cause)

theorem replay_cons (b : Builder) (x : Declaration) (xs : List Declaration) :
    b.replay (x :: xs) =
      ((b.attempt x).1 :: ((b.attempt x).2.replay xs).1, ((b.attempt x).2.replay xs).2) := rfl

/-- A failure leaves the builder as it was. -/
theorem attempt_snd_of_error {cause : Cause} (h : (b.attempt x).1 = .error cause) :
    (b.attempt x).2 = b := by
  unfold attempt at h ⊢
  split at h
  · cases h
  · rfl

/-- Declarations that failed can be left out of a history: the others are answered as before, and
    the builder at the end is the same.  Induction on the history. -/
theorem replay_strike (h : Failed (b.replay xs).1 struck) :
    b.replay (strike struck xs) = (strike struck (b.replay xs).1, (b.replay xs).2) := by
  induction xs generalizing b struck with
  | nil => rfl
  | cons x xs ih =>
    have hrest : Failed ((b.attempt x).2.replay xs).1 fun i => struck (i + 1) :=
      fun i hi => h (i + 1) hi
    rw [replay_cons]
    cases hx : struck 0 with
    | true =>
      -- the builder that the others meet is the one from before the failure
      obtain ⟨cause, hcause⟩ := h 0 hx
      have hsame : (b.attempt x).2 = b := attempt_snd_of_error (Option.some.inj hcause)
      rw [strike_cons_of_struck hx, strike_cons_of_struck hx]
      rw [hsame] at hrest ⊢
      exact ih hrest
    | false =>
      rw [strike_cons_of_kept hx, strike_cons_of_kept hx, replay_cons, ih hrest]

end Builder

/-! ## The main result -/

namespace IndexedBuilder

/-- The lists of a builder leave no choice for the tables that follow it. -/
theorem Follows.unique {t t' : IndexedBuilder} {b : Builder} (h : t.Follows b) (h' : t'.Follows b) :
    t = t' := by
  obtain ⟨names, index, alphabet, symbols, start, accepting, targets⟩ := t
  obtain ⟨names', index', alphabet', symbols', start', accepting', targets'⟩ := t'
  have hindex : index = index' :=
    funext fun n => (h.inStep.index_eq n).trans (h'.inStep.index_eq n).symm
  have hsymbols : symbols = symbols' :=
    funext fun c => (h.inStep.symbols_eq c).trans (h'.inStep.symbols_eq c).symm
  have haccepting : accepting = accepting' :=
    funext fun s => (h.inStep.accepting_eq s).trans (h'.inStep.accepting_eq s).symm
  have htargets : targets = targets' := funext fun (s, c) =>
    (h.inStep.targets_eq s c).trans (h'.inStep.targets_eq s c).symm
  rw [mk.injEq]
  exact ⟨h.inStep.names_eq.trans h'.inStep.names_eq.symm, hindex,
    h.inStep.alphabet_eq.trans h'.inStep.alphabet_eq.symm, hsymbols,
    h.start_eq.trans h'.start_eq.symm, haccepting, htargets⟩

end IndexedBuilder

/-- Carried out in place, a history has the outcomes that it has for a `Builder`, and leaves tables
    that follow what the other is in the end. -/
theorem InPlace.follows_performAll (xs : List Declaration) :
    ((performAll xs).run {}).1 = (({} : Builder).replay xs).1 ∧
      ((performAll xs).run {}).2.Follows (({} : Builder).replay xs).2 := by
  rw [run_performAll]
  exact IndexedBuilder.follows_empty.replay xs

/-- It makes no difference to the rest of a history that the declarations in some places were
    made. -/
structure NoTrace (xs : List Declaration) (struck : Nat → Bool) : Prop where
  /-- The others are answered in the same way. -/
  answers : (({} : Builder).replay (strike struck xs)).1 =
    strike struck (({} : Builder).replay xs).1
  /-- The same automaton is built, or the same parts are missing. -/
  built : (({} : Builder).replay (strike struck xs)).2.build =
    (({} : Builder).replay xs).2.build
  /-- A builder that is changed in place gives the same outcomes and ends with the same tables. -/
  inPlace : (InPlace.performAll (strike struck xs)).run {} =
    (strike struck ((InPlace.performAll xs).run {}).1, ((InPlace.performAll xs).run {}).2)
  /-- That is the same builder, told in another way. -/
  follows : ((InPlace.performAll xs).run {}).1 = (({} : Builder).replay xs).1 ∧
    ((InPlace.performAll xs).run {}).2.Follows (({} : Builder).replay xs).2

/-- **Failures leave no trace.**  Whichever of the failed declarations of a history are left out,
    every other declaration is answered as before, and the same is built. -/
theorem failures_leave_no_trace {xs : List Declaration} {struck : Nat → Bool}
    (h : Builder.Failed (({} : Builder).replay xs).1 struck) : NoTrace xs struck := by
  have hstrike := Builder.replay_strike h
  obtain ⟨houtcomes, hfollows⟩ := InPlace.follows_performAll xs
  obtain ⟨houtcomes', hfollows'⟩ := InPlace.follows_performAll (strike struck xs)
  refine ⟨by rw [hstrike], by rw [hstrike], ?_, houtcomes, hfollows⟩
  rw [hstrike] at houtcomes' hfollows'
  exact Prod.ext (by rw [houtcomes', houtcomes]) (hfollows'.unique hfollows)

/-- A history in which every second declaration fails. -/
def stumbling : List Declaration :=
  [.accept "A", .state "A", .symbol "01", .symbol "0", .start "B", .start "A",
    .transition "A" '1' "A", .transition "A" '0' "A"]

/-- Three of its four failures are left out. -/
theorem stumbling_noTrace :
    Builder.Failed (({} : Builder).replay stumbling).1 (fun i => i == 0 || i == 2 || i == 6) ∧
      strike (fun i => i == 0 || i == 2 || i == 6) stumbling =
        [.state "A", .symbol "0", .start "B", .start "A", .transition "A" '0' "A"] ∧
      NoTrace stumbling (fun i => i == 0 || i == 2 || i == 6) := by
  have hfailed :
      Builder.Failed (({} : Builder).replay stumbling).1 (fun i => i == 0 || i == 2 || i == 6) := by
    intro i hi
    simp only [Bool.or_eq_true, beq_iff_eq] at hi
    rcases hi with (rfl | rfl) | rfl
    · exact ⟨.unknownAccept "A", rfl⟩
    · exact ⟨.symbolLength "01", rfl⟩
    · exact ⟨.unknownReference "A" '1' "A", rfl⟩
  exact ⟨hfailed, rfl, failures_leave_no_trace hfailed⟩

end Acceptor
