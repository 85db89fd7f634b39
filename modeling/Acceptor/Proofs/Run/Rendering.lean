/-
  A run in words, without gaps.

  `describe` and `describeHalt` put the empty text where a number is no state.  The renderings of
  this file fail there instead: `describe?` asks for the name of every state on the path, and
  `describeHalt?` also for the last entry of the path, which an empty path lacks.

  1. **The renderings** — where every state of a run has a name, they give what the others give
     (`describe?_eq`, `describeHalt?_eq`).

  2. **Runs** — `Automaton.Rendered` says of an automaton that all of this holds of each of its
     runs, and well-formed automata are such (`rendered`).
-/
import Acceptor.Proofs.Automaton.Lookup
import Acceptor.Proofs.Run.Walk
import Acceptor.Run.Description

namespace Acceptor

namespace Run

/-! ## The renderings -/

/-- One entry of a path: the name of the state, behind an arrow with the symbol if one led there. -/
def describeVisit? (m : TransitionSystem) : Nat × Option Char → Option String
  | (s, none) => m.name? s
  | (s, some c) => (m.name? s).map fun name => "-" ++ String.singleton c ++ "-> " ++ name

/-- The states visited and the symbols between them, if each state has a name. -/
def describe? (m : TransitionSystem) (r : Run) : Option String :=
  (r.path.mapM (describeVisit? m)).map " ".intercalate

/-- Why the run stopped, if the path has a last state and the state that is spoken of has a name. -/
def describeHalt? (m : TransitionSystem) (r : Run) : Option String :=
  match r.halt with
  | .completed => do
    let entry ← r.path.getLast?
    let name ← m.name? entry.1
    return match r.verdict with
      | .accepted => "ended in accepting state " ++ name
      | .rejected => "ended in non-accepting state " ++ name
  | .unknownSymbol position c =>
    some ("symbol '" ++ String.singleton c ++ "' at " ++ toString position ++
      " is not in the alphabet")
  | .noTransition position s c =>
    (m.name? s).map fun name =>
      "no transition from " ++ name ++ " on '" ++ String.singleton c ++ "' at " ++ toString position

/-! ## No gaps

  The total rendering goes over the same path, entry by entry. -/

/-- One entry of a path, with the empty text for a number that is no state. -/
def describeVisit (m : TransitionSystem) : Nat × Option Char → String
  | (s, none) => m.name s
  | (s, some c) => describeStep m (c, s)

theorem describe_eq (m : TransitionSystem) (r : Run) :
    r.describe m = " ".intercalate (r.path.map (describeVisit m)) := by
  rw [describe, path, List.map_cons, List.map_map]
  rfl

/-- A map that succeeds on every element succeeds on the list. -/
theorem mapM_eq_some_map {α β : Type} {f : α → Option β} {g : α → β} {xs : List α}
    (h : ∀ x ∈ xs, f x = some (g x)) : xs.mapM f = some (xs.map g) := by
  induction xs with
  | nil => rfl
  | cons x xs ih =>
    rw [List.forall_mem_cons] at h
    rw [List.mapM_cons, h.1, ih h.2]
    rfl

variable {m : TransitionSystem} {r : Run}

theorem describeVisit?_eq {entry : Nat × Option Char} (h : entry.1 < m.stateCount) :
    describeVisit? m entry = some (describeVisit m entry) := by
  obtain ⟨s, symbol⟩ := entry
  have hname : m.name? s = some (m.name s) := TransitionSystem.name?_eq_some_name h
  cases symbol with
  | none => exact hname
  | some c =>
    rw [describeVisit?, hname]
    rfl

/-- Where every state on the path has a name, nothing is missing from the trace. -/
theorem describe?_eq (h : ∀ entry ∈ r.path, entry.1 < m.stateCount) :
    r.describe? m = some (r.describe m) := by
  have hentries := mapM_eq_some_map fun entry hentry => describeVisit?_eq (h entry hentry)
  rw [describe?, hentries, describe_eq]
  rfl

theorem path_ne_nil (r : Run) : r.path ≠ [] := List.cons_ne_nil _ _

/-- The last state of a run is on its path. -/
theorem last_lt (h : ∀ entry ∈ r.path, entry.1 < m.stateCount) : r.last < m.stateCount := by
  obtain ⟨entry, hentry, hlast⟩ := Option.map_eq_some_iff.1 r.getLast?_path
  rw [← hlast]
  exact h entry (List.mem_of_getLast? hentry)

/-- Where the last state and the state of the halt have names, nothing is missing from the
    reason. -/
theorem describeHalt?_eq (hpath : ∀ entry ∈ r.path, entry.1 < m.stateCount)
    (hhalt : ∀ position s c, r.halt = .noTransition position s c → s < m.stateCount) :
    r.describeHalt? m = some (r.describeHalt m) := by
  unfold describeHalt? describeHalt
  cases hr : r.halt with
  | completed =>
    obtain ⟨entry, hentry, hlast⟩ := Option.map_eq_some_iff.1 r.getLast?_path
    have hname : m.name? r.last = some (m.name r.last) :=
      TransitionSystem.name?_eq_some_name (last_lt hpath)
    rw [hentry]
    show (do let name ← m.name? entry.1; _) = _
    rw [hlast, hname]
    cases r.verdict <;> rfl
  | unknownSymbol position c => rfl
  | noTransition position s c =>
    dsimp only
    rw [TransitionSystem.name?_eq_some_name (hhalt position s c hr)]
    rfl

end Run

/-! ## Runs -/

namespace Automaton

variable {d : Automaton}

/-- The states of every run have names, and every run can be put into words. -/
structure Rendered (d : Automaton) : Prop where
  path_ne_nil : ∀ input, (d.run input).path ≠ []
  path : ∀ input, ∀ entry ∈ (d.run input).path, entry.1 < d.stateCount
  halt : ∀ input position s c, (d.run input).halt = .noTransition position s c → s < d.stateCount
  describe : ∀ input,
    (d.run input).describe? d.toTransitionSystem =
      some ((d.run input).describe d.toTransitionSystem)
  describeHalt : ∀ input,
    (d.run input).describeHalt? d.toTransitionSystem =
      some ((d.run input).describeHalt d.toTransitionSystem)

/-- The states on the path of a run are the start and targets of transitions. -/
theorem lt_of_mem_path (hm : d.toTransitionSystem.WellFormed) (hstart : d.start < d.stateCount)
    {input : String} {entry : Nat × Option Char} (h : entry ∈ (d.run input).path) :
    entry.1 < d.stateCount := by
  rcases List.mem_cons.1 h with rfl | h
  · exact hstart
  · obtain ⟨⟨c, s⟩, hstep, rfl⟩ := List.mem_map.1 h
    rw [d.steps_run] at hstep
    obtain ⟨u, hu⟩ := TransitionSystem.exists_next?_of_mem_walk hstep
    exact (hm.next?_declared hu).2.2

/-- A run that ends without a transition ends in the last state of its path. -/
theorem state_of_halt {input : String} {position s : Nat} {c : Char}
    (h : (d.run input).halt = .noTransition position s c) : s = (d.run input).last := by
  rw [d.halt_run] at h
  rw [d.last_run, d.steps_run]
  exact TransitionSystem.state_of_walk h

theorem rendered (hm : d.toTransitionSystem.WellFormed) (hstart : d.start < d.stateCount) :
    d.Rendered := by
  have hpath : ∀ input, ∀ entry ∈ (d.run input).path, entry.1 < d.stateCount :=
    fun input entry hentry => lt_of_mem_path hm hstart hentry
  have hhalt : ∀ input position s c,
      (d.run input).halt = .noTransition position s c → s < d.stateCount := by
    intro input position s c h
    rw [state_of_halt h]
    exact Run.last_lt (hpath input)
  exact
    { path_ne_nil := fun input => Run.path_ne_nil _
      path := hpath
      halt := hhalt
      describe := fun input => Run.describe?_eq (hpath input)
      describeHalt := fun input => Run.describeHalt?_eq (hpath input) (hhalt input) }

end Automaton

end Acceptor
