/-
  The names of states only tell them apart.

  A builder compares names with each other and does nothing else with them.  So when every name in a
  history is replaced, different names by different ones, the states keep their numbers, and nothing
  that is said of states by their numbers changes.

  1. **New names** — `rename f` puts `f n` in place of the name `n`: in a declaration, in the cause
     of a failure, and in what has been built.  Symbols are written as texts too; they stay.

  2. **Builders** — a search for a new name among the new names finds what the old search found
     (`state?_rename`).  So every declaration has the outcome that it had (`declare_rename`), and by
     induction every history (`replay_rename`).

  3. **Automata** — the search for unreachable states and the runs do not look at names.

  Main result: `names_only_tell_apart`.
-/
import Acceptor.Automaton.Reachability
import Acceptor.Proofs.Run.Locality

namespace Acceptor

/-! ## New names -/

/-- A declaration with new names. -/
def Declaration.rename (f : String → String) : Declaration → Declaration
  | .state name => .state (f name)
  | .symbol token => .symbol token
  | .start name => .start (f name)
  | .accept name => .accept (f name)
  | .transition source c target => .transition (f source) c (f target)

/-- The same kind of cause, with new names where it speaks of states. -/
def Cause.rename (f : String → String) : Cause → Cause
  | .unknownStart name => .unknownStart (f name)
  | .unknownAccept name => .unknownAccept (f name)
  | .unknownReference source symbol target => .unknownReference (f source) symbol (f target)
  | .symbolLength token => .symbolLength token
  | .unrecognizedLine => .unrecognizedLine
  | .missingArrow => .missingArrow
  | .missingComma => .missingComma
  | .incomplete parts => .incomplete parts

/-- A system with new names. -/
def TransitionSystem.rename (f : String → String) (m : TransitionSystem) : TransitionSystem :=
  { m with names := m.names.map f }

/-- A builder to which everything was declared under new names. -/
def Builder.rename (f : String → String) (b : Builder) : Builder :=
  { b with toTransitionSystem := b.toTransitionSystem.rename f }

/-- An automaton with new names. -/
def Automaton.rename (f : String → String) (d : Automaton) : Automaton :=
  { d with toTransitionSystem := d.toTransitionSystem.rename f }

variable {f : String → String}

/-! ## Builders -/

section Search

variable {m : TransitionSystem} {n : String}

@[simp] theorem TransitionSystem.stateCount_rename (f : String → String) (m : TransitionSystem) :
    (m.rename f).stateCount = m.stateCount := List.length_map f

theorem TransitionSystem.name?_rename (f : String → String) (m : TransitionSystem) (s : Nat) :
    (m.rename f).name? s = (m.name? s).map f := List.getElem?_map

/-- A new name is found where the old one was, for no other name has become the same. -/
theorem TransitionSystem.state?_rename (hf : Function.Injective f) (m : TransitionSystem)
    (n : String) : (m.rename f).state? (f n) = m.state? n := by
  show (m.names.map f).findIdx? (· == f n) = m.names.findIdx? (· == n)
  rw [List.findIdx?_map]
  congr 1
  funext k
  exact Bool.eq_iff_iff.2 (by simp [hf.eq_iff])

end Search

namespace Builder

/-- What a declaration gives, with new names: the same answer, or the same kind of failure. -/
def renameOutcome {α : Type} (f : String → String) :
    Except Cause (α × Builder) → Except Cause (α × Builder)
  | .ok (a, b) => .ok (a, b.rename f)
  | .error cause => .error (cause.rename f)

theorem renameOutcome_map {α β : Type} (g : α → β) (x : Except Cause (α × Builder)) :
    renameOutcome f (x.map fun (a, b) => (g a, b)) =
      (renameOutcome f x).map fun (a, b) => (g a, b) := by
  cases x <;> rfl

variable {b : Builder}

section Declarations

variable (hf : Function.Injective f) (b : Builder)

include hf

theorem addState_rename (n : String) :
    (b.rename f).addState (f n) = ((b.addState n).1, (b.addState n).2.rename f) := by
  have hstate : (b.rename f).state? (f n) = b.state? n := TransitionSystem.state?_rename hf _ n
  unfold addState
  rw [hstate]
  cases b.state? n with
  | some s => rfl
  | none =>
    -- the new name goes to the end of the new names
    have hnames : b.names.map f ++ [f n] = (b.names ++ [n]).map f := by
      rw [List.map_append, List.map_singleton]
    exact Prod.ext (TransitionSystem.stateCount_rename f _)
      (congrArg (fun names => ({ b with names } : Builder)) hnames)

theorem setStart_rename (n : String) :
    (b.rename f).setStart (f n) = renameOutcome f (b.setStart n) := by
  have hstate : (b.rename f).state? (f n) = b.state? n := TransitionSystem.state?_rename hf _ n
  unfold setStart
  rw [hstate]
  cases b.state? n <;> rfl

theorem addAccept_rename (n : String) :
    (b.rename f).addAccept (f n) = renameOutcome f (b.addAccept n) := by
  have hstate : (b.rename f).state? (f n) = b.state? n := TransitionSystem.state?_rename hf _ n
  unfold addAccept
  rw [hstate]
  cases b.state? n <;> rfl

theorem addTransition_rename (p : String) (c : Char) (q : String) :
    (b.rename f).addTransition (f p) c (f q) = renameOutcome f (b.addTransition p c q) := by
  have hsource : (b.rename f).state? (f p) = b.state? p := TransitionSystem.state?_rename hf _ p
  have htarget : (b.rename f).state? (f q) = b.state? q := TransitionSystem.state?_rename hf _ q
  have hsymbol : (b.rename f).hasSymbol c = b.hasSymbol c := rfl
  unfold addTransition
  rw [hsource, htarget, hsymbol]
  cases b.state? p with
  | none => rfl
  | some s => cases b.hasSymbol c <;> cases b.state? q <;> rfl

omit hf in
/-- A symbol is no name, so it is declared as before. -/
theorem addSymbol_rename (f : String → String) (token : String) :
    (b.rename f).addSymbol token = renameOutcome f (b.addSymbol token) := by
  have hsymbol : ∀ c, (b.rename f).hasSymbol c = b.hasSymbol c := fun _ => rfl
  unfold addSymbol symbolOf
  split
  · rename_i c _
    simp only [Except.map, hsymbol]
    cases b.hasSymbol c <;> rfl
  · rfl

/-- A declaration under new names has the outcome that it had. -/
theorem declare_rename (x : Declaration) :
    (b.rename f).declare (x.rename f) = renameOutcome f (b.declare x) := by
  cases x with
  | state n =>
    show Except.ok (Answer.state ((b.rename f).addState (f n)).1,
      ((b.rename f).addState (f n)).2) = _
    rw [addState_rename hf]
    rfl
  | symbol token =>
    show Except.map _ ((b.rename f).addSymbol token) = renameOutcome f (Except.map _ _)
    rw [addSymbol_rename, renameOutcome_map]
  | start n =>
    show Except.map _ ((b.rename f).setStart (f n)) = renameOutcome f (Except.map _ _)
    rw [setStart_rename hf, renameOutcome_map]
  | accept n =>
    show Except.map _ ((b.rename f).addAccept (f n)) = renameOutcome f (Except.map _ _)
    rw [addAccept_rename hf, renameOutcome_map]
  | transition p c q =>
    show Except.map _ ((b.rename f).addTransition (f p) c (f q)) = renameOutcome f (Except.map _ _)
    rw [addTransition_rename hf, renameOutcome_map]

theorem attempt_rename (x : Declaration) :
    (b.rename f).attempt (x.rename f) =
      ((b.attempt x).1.mapError (Cause.rename f), (b.attempt x).2.rename f) := by
  unfold attempt
  rw [declare_rename hf]
  cases b.declare x <;> rfl

/-- So has every declaration of a history.  Induction on the history. -/
theorem replay_rename (xs : List Declaration) :
    (b.rename f).replay (xs.map (Declaration.rename f)) =
      ((b.replay xs).1.map (Except.mapError (Cause.rename f)), (b.replay xs).2.rename f) := by
  induction xs generalizing b with
  | nil => rfl
  | cons x xs ih =>
    rw [List.map_cons, replay, attempt_rename hf]
    show (_ :: ((b.attempt x).2.rename f |>.replay _).1, _) = _
    rw [ih]
    rfl

end Declarations

/-- What is missing is no matter of names. -/
theorem build_rename (f : String → String) (b : Builder) :
    (b.rename f).build = (b.build).map (Automaton.rename f) := by
  have hmissing : (b.rename f).missing = b.missing := by
    have hnames : (b.rename f).names = [] ↔ b.names = [] := List.map_eq_nil_iff
    simp only [missing, hnames]
    rfl
  have hstart : (b.rename f).start = b.start := rfl
  unfold build
  rw [hmissing, hstart]
  cases b.missing <;> cases b.start <;> rfl

end Builder

/-! ## Automata -/

/-- The search looks at the transitions only. -/
theorem TransitionSystem.unreached_rename (f : String → String) (m : TransitionSystem)
    (frontier unseen : List Nat) :
    (m.rename f).unreached frontier unseen = m.unreached frontier unseen := by
  have hsuccessors : ∀ frontier, (m.rename f).successors frontier = m.successors frontier :=
    fun _ => rfl
  fun_induction m.unreached frontier unseen with
  | case1 frontier unseen targets hmore ih =>
    rw [unreached, hsuccessors]
    rw [if_pos hmore]
    simp only [List.unattach_filter, List.unattach_attach] at ih
    exact ih
  | case2 frontier unseen targets hdone =>
    rw [unreached, hsuccessors]
    rw [if_neg hdone]

namespace Automaton

/-- Two automata differ in the names of their states only, which the second has from `f`. -/
structure SameButNames (f : String → String) (d d' : Automaton) : Prop where
  name? : ∀ s, d'.name? s = (d.name? s).map f
  state? : ∀ n, d'.state? (f n) = d.state? n
  states : d'.states = d.states
  alphabet : d'.alphabet = d.alphabet
  start : d'.start = d.start
  isAccepting : ∀ s, d'.isAccepting s = d.isAccepting s
  acceptingStates : d'.acceptingStates = d.acceptingStates
  next? : ∀ s c, d'.next? s c = d.next? s c
  transitions : d'.transitions = d.transitions
  reachable : d'.reachable = d.reachable
  unreachable : d'.unreachable = d.unreachable
  run : ∀ input, d'.run input = d.run input

theorem states_rename (f : String → String) (d : Automaton) : (d.rename f).states = d.states :=
  congrArg List.range (TransitionSystem.stateCount_rename f _)

theorem unreachable_rename (f : String → String) (d : Automaton) :
    (d.rename f).unreachable = d.unreachable := by
  unfold unreachable
  rw [states_rename]
  exact TransitionSystem.unreached_rename f _ _ _

theorem run_rename (f : String → String) (d : Automaton) (input : String) :
    (d.rename f).run input = d.run input := by
  have hagree : d.AgreeOn (d.rename f) (d.run input) := by
    apply agreeOn_of_eq <;> rfl
  exact hagree.run_eq

theorem sameButNames_rename (hf : Function.Injective f) (d : Automaton) :
    d.SameButNames f (d.rename f) := by
  have hstates := states_rename f d
  have hunreachable := unreachable_rename f d
  constructor
  · exact TransitionSystem.name?_rename f _
  · exact TransitionSystem.state?_rename hf _
  · exact hstates
  · rfl
  · rfl
  · exact fun _ => rfl
  · exact congrArg (List.filter d.isAccepting) hstates
  · exact fun _ _ => rfl
  · show (d.rename f).states.flatMap _ = _
    rw [hstates]
    rfl
  · unfold reachable
    rw [hstates, hunreachable]
  · exact hunreachable
  · exact run_rename f d

end Automaton

/-! ## The main result -/

/-- **The names of states only tell them apart.**  A history under new names, different ones for
    different states, has the same outcomes, where a failure speaks of the new names, and a new name
    is found where the old one was.  It can be built exactly when the old one can, and fails for the
    same parts; and the two automata differ in the names of their states only. -/
theorem names_only_tell_apart (f : String → String) (hf : Function.Injective f)
    (history : List Declaration) :
    (({} : Builder).replay (history.map (Declaration.rename f))).1 =
        (({} : Builder).replay history).1.map (Except.mapError (Cause.rename f)) ∧
      (∀ n, (({} : Builder).replay (history.map (Declaration.rename f))).2.state? (f n) =
        (({} : Builder).replay history).2.state? n) ∧
      (∀ cause, (({} : Builder).replay history).2.build = .error cause →
        (({} : Builder).replay (history.map (Declaration.rename f))).2.build = .error cause) ∧
      ∀ d, (({} : Builder).replay history).2.build = .ok d → ∃ d',
        (({} : Builder).replay (history.map (Declaration.rename f))).2.build = .ok d' ∧
          d.SameButNames f d' := by
  have hreplay := Builder.replay_rename hf {} history
  have hempty : ({} : Builder).rename f = {} := rfl
  rw [hempty] at hreplay
  rw [hreplay]
  refine ⟨rfl, TransitionSystem.state?_rename hf _, ?_, ?_⟩
  · intro cause hcause
    rw [Builder.build_rename, hcause]
    rfl
  · intro d hd
    refine ⟨d.rename f, ?_, d.sameButNames_rename hf⟩
    rw [Builder.build_rename, hd]
    rfl

/-- Every name with an arrow in front of it. -/
def arrowed (name : String) : String := "->" ++ name

theorem arrowed_injective : Function.Injective arrowed := by
  intro a b h
  have hchars : "->".toList ++ a.toList = "->".toList ++ b.toList := by
    rw [← String.toList_append, ← String.toList_append]
    exact congrArg String.toList h
  exact String.toList_injective (List.append_cancel_left hchars)

/-- A history with a name that is declared twice, names and a symbol that are not declared, and a
    target that is replaced. -/
def clumsyHistory : List Declaration :=
  [.state "A", .start "B", .state "B", .state "A", .symbol "ab", .symbol "0", .start "B",
    .accept "C", .accept "A", .transition "B" '0' "B", .transition "B" '1' "C",
    .transition "B" '0' "A", .start "A"]

theorem clumsyHistory_arrowed :
    Function.Injective arrowed ∧
      (({} : Builder).replay (clumsyHistory.map (Declaration.rename arrowed))).1 =
        [.ok (.state 0), .error (.unknownStart "->B"), .ok (.state 1), .ok (.state 0),
          .error (.symbolLength "ab"), .ok (.symbol '0'), .ok (.replaced none),
          .error (.unknownAccept "->C"), .ok (.state 0), .ok (.replaced none),
          .error (.unknownReference "->B" '1' "->C"), .ok (.replaced (some 1)),
          .ok (.replaced (some 1))] ∧
      ∃ d d', (({} : Builder).replay clumsyHistory).2.build = .ok d ∧
        (({} : Builder).replay (clumsyHistory.map (Declaration.rename arrowed))).2.build = .ok d' ∧
          d.SameButNames arrowed d' := by
  obtain ⟨houtcomes, -, -, hbuilt⟩ :=
    names_only_tell_apart arrowed arrowed_injective clumsyHistory
  refine ⟨arrowed_injective, ?_, ?_⟩
  · rw [houtcomes]
    decide +kernel
  · have hd : (({} : Builder).replay clumsyHistory).2.build =
        .ok ⟨⟨["A", "B"], ['0'], [0], [((1, '0'), 0), ((1, '0'), 1)]⟩, 0⟩ := by decide +kernel
    obtain ⟨d', hd', hsame⟩ := hbuilt _ hd
    exact ⟨_, d', hd, hd', hsame⟩

end Acceptor
