/-
  A trace shows which way was taken.

  A trace is put together from names, arrows and symbols, and all of these may share characters: a
  step on `>` is printed as `->->`, a step on `-` as `--->`, and a name may be empty, or begin with
  `>`, or look like half a step.  Still no two ways are printed alike, as long as no name holds an
  arrow.

  1. **The text** — `traceFrom`: the name of a state, and behind it, step by step, the symbol in its
     arrow and the rest of the trace (`toList_describe`).

  2. **The first arrow** — it stands in the first step, at its front when the symbol is `>` and at
     its end otherwise (`splitAround_traceFrom_cons`).  The character behind it tells the two apart:
     a dash in the one case, a blank in the other.

  3. **Reading on** — what stands in front of the first arrow gives the name and the symbol, and
     what stands behind it is the rest of the trace.  Induction on the steps: `traceFrom_inj`.

  4. **One automaton** — its transitions say where a symbol leads (`Bound`), so its traces need no
     names to be read (`Bound.eq_of_traceFrom_eq`).

  Main result: `traces_unambiguous`.
-/
import Acceptor.Proofs.Automaton.Alike
import Acceptor.Proofs.Run.Rendering
import Acceptor.Proofs.Text.Split
import Mathlib.Data.List.Basic

namespace Acceptor

namespace Run

variable {m : TransitionSystem} {s s' t : Nat} {c c' : Char} {steps steps' : List (Char × Nat)}

/-- A path is known from its start and its steps. -/
theorem path_congr {r r' : Run} (hstart : r.start = r'.start) (hsteps : r.steps = r'.steps) :
    r.path = r'.path := by
  rw [path, path, hstart, hsteps]

/-! ## The text -/

/-- The trace of steps from a state. -/
def traceFrom (m : TransitionSystem) (s : Nat) : List (Char × Nat) → List Char
  | [] => (m.name s).toList
  | (c, t) :: steps =>
    (m.name s).toList ++ ' ' :: '-' :: c :: '-' :: '>' :: ' ' :: traceFrom m t steps

/-- What stands in front of the first part stands in front of the whole. -/
theorem intercalate_append_cons (sep front first : List Char) (parts : List (List Char)) :
    sep.intercalate ((front ++ first) :: parts) = front ++ sep.intercalate (first :: parts) := by
  cases parts with
  | nil => rw [List.intercalate_singleton, List.intercalate_singleton]
  | cons part parts =>
    rw [List.intercalate_cons_cons, List.intercalate_cons_cons, List.append_assoc,
      List.append_assoc, List.append_assoc]

theorem toList_describe (m : TransitionSystem) (r : Run) :
    (r.describe m).toList = traceFrom m r.start r.steps := by
  rw [describe, String.toList_intercalate, List.map_cons, List.map_map]
  generalize r.start = s
  induction r.steps generalizing s with
  | nil => exact List.intercalate_singleton
  | cons step steps ih =>
    obtain ⟨c, t⟩ := step
    have hstep : (describeStep m (c, t)).toList = ['-', c, '-', '>', ' '] ++ (m.name t).toList := by
      simp [describeStep]
    rw [List.map_cons, List.intercalate_cons_cons, Function.comp_apply, hstep,
      intercalate_append_cons, ih t, traceFrom, List.append_assoc]
    rfl

theorem traceFrom_congr {m' : TransitionSystem} (h : m'.names = m.names) (s : Nat)
    (steps : List (Char × Nat)) : traceFrom m' s steps = traceFrom m s steps := by
  have hname : m'.name = m.name := by
    funext s
    rw [TransitionSystem.name, TransitionSystem.name, TransitionSystem.name?,
      TransitionSystem.name?, h]
  induction steps generalizing s with
  | nil => rw [traceFrom, traceFrom, hname]
  | cons step steps ih => rw [traceFrom, traceFrom, hname, ih]

/-! ## The first arrow -/

/-- The first arrow of a trace cuts its first step. -/
theorem splitAround_traceFrom_cons (hname : ¬ ['-', '>'] <:+: (m.name s).toList) :
    Text.splitAround ['-', '>'] (traceFrom m s ((c, t) :: steps)) =
      some (if c = '>' then
          ((m.name s).toList ++ [' '], '-' :: '>' :: ' ' :: traceFrom m t steps)
        else ((m.name s).toList ++ [' ', '-', c], ' ' :: traceFrom m t steps)) := by
  have hblank : ' ' ≠ '>' := by decide
  split
  · rename_i hc
    refine Text.splitAround_arrow_iff.2 ⟨by simp [traceFrom, hc], ?_⟩
    rw [Text.arrow_infix_append_cons_iff hblank, not_or]
    exact ⟨hname, by decide⟩
  · rename_i hc
    refine Text.splitAround_arrow_iff.2 ⟨by simp [traceFrom], ?_⟩
    rw [Text.arrow_infix_append_cons_iff hblank, not_or]
    refine ⟨hname, ?_⟩
    simp [List.infix_cons_iff, List.cons_prefix_cons, Ne.symm hc]

theorem splitAround_traceFrom_nil (hname : ¬ ['-', '>'] <:+: (m.name s).toList) :
    Text.splitAround ['-', '>'] (traceFrom m s []) = none :=
  Text.splitAround_eq_none_iff.2 hname

/-- Traces with a first step are told apart by their first names, their first symbols and what
    follows. -/
theorem traceFrom_cons_inj (hname : ¬ ['-', '>'] <:+: (m.name s).toList)
    (hname' : ¬ ['-', '>'] <:+: (m.name s').toList)
    (h : traceFrom m s ((c, t) :: steps) = traceFrom m s' ((c', t') :: steps')) :
    m.name s = m.name s' ∧ c = c' ∧ traceFrom m t steps = traceFrom m t' steps' := by
  have hcut := congrArg (Text.splitAround ['-', '>']) h
  rw [splitAround_traceFrom_cons hname, splitAround_traceFrom_cons hname',
    Option.some.injEq] at hcut
  by_cases hc : c = '>'
  · by_cases hc' : c' = '>'
    · rw [if_pos hc, if_pos hc', Prod.mk.injEq] at hcut
      obtain ⟨hfront, hbehind⟩ := hcut
      refine ⟨String.toList_injective (List.append_cancel_right hfront), hc.trans hc'.symm, ?_⟩
      simpa using hbehind
    · -- behind the arrow stands a dash in the one, and a blank in the other
      rw [if_pos hc, if_neg hc', Prod.mk.injEq] at hcut
      exact absurd (List.head_eq_of_cons_eq hcut.2) (by decide)
  · by_cases hc' : c' = '>'
    · rw [if_neg hc, if_pos hc', Prod.mk.injEq] at hcut
      exact absurd (List.head_eq_of_cons_eq hcut.2) (by decide)
    · rw [if_neg hc, if_neg hc', Prod.mk.injEq] at hcut
      obtain ⟨hfront, hbehind⟩ := hcut
      -- a blank, a dash and the symbol stand at the end of both
      obtain ⟨hnames, hends⟩ := List.append_inj' hfront rfl
      refine ⟨String.toList_injective hnames, ?_, (List.cons_eq_cons.1 hbehind).2⟩
      simpa using hends

/-! ## Reading on -/

/-- Steps from states whose names hold no arrow are known from their trace.  Induction on the steps;
    the first of them comes off by the first arrow. -/
theorem traceFrom_inj (hm : m.WellFormed) (hnames : ∀ n ∈ m.names, ¬ ['-', '>'] <:+: n.toList)
    (hs : s < m.stateCount) (hs' : s' < m.stateCount)
    (hsteps : ∀ step ∈ steps, step.2 < m.stateCount)
    (hsteps' : ∀ step ∈ steps', step.2 < m.stateCount)
    (h : traceFrom m s steps = traceFrom m s' steps') : s = s' ∧ steps = steps' := by
  have hplain : ∀ {p}, p < m.stateCount → ¬ ['-', '>'] <:+: (m.name p).toList := fun hp =>
    hnames _ (TransitionSystem.mem_names_iff.2 ⟨_, TransitionSystem.name?_eq_some_name hp⟩)
  induction steps generalizing s s' steps' with
  | nil =>
    cases steps' with
    | nil => exact ⟨hm.name_inj hs hs' (String.toList_injective h), rfl⟩
    | cons step' steps' =>
      -- only one of the two holds an arrow
      have hcut := congrArg (Text.splitAround ['-', '>']) h
      rw [splitAround_traceFrom_nil (hplain hs), splitAround_traceFrom_cons (hplain hs')] at hcut
      cases hcut
  | cons step steps ih =>
    obtain ⟨c, t⟩ := step
    cases steps' with
    | nil =>
      have hcut := congrArg (Text.splitAround ['-', '>']) h
      rw [splitAround_traceFrom_nil (hplain hs'), splitAround_traceFrom_cons (hplain hs)] at hcut
      cases hcut
    | cons step' steps' =>
      obtain ⟨c', t'⟩ := step'
      rw [List.forall_mem_cons] at hsteps hsteps'
      obtain ⟨hname, rfl, hrest⟩ := traceFrom_cons_inj (hplain hs) (hplain hs') h
      obtain ⟨rfl, rfl⟩ := ih hsteps.1 hsteps'.1 hsteps.2 hsteps'.2 hrest
      exact ⟨hm.name_inj hs hs' hname, rfl⟩

/-! ## One automaton -/

/-- Every step goes where the transitions say. -/
def Bound (m : TransitionSystem) (s : Nat) : List (Char × Nat) → Prop
  | [] => True
  | (c, t) :: steps => m.next? s c = some t ∧ Bound m t steps

theorem bound_walk (m : TransitionSystem) (s : Nat) (xs : List (Char × Nat)) :
    Bound m s (m.walk s xs).1 := by
  induction s, xs using m.walk_induction with
  | nil s => trivial
  | unknown s c position rest hc =>
    rw [TransitionSystem.walk_unknown hc]
    trivial
  | unbound s c position rest hc hu =>
    rw [TransitionSystem.walk_unbound hc hu]
    trivial
  | bound s c position rest t hc ht ih =>
    rw [TransitionSystem.walk_bound hc ht]
    exact ⟨ht, ih⟩

/-- Steps from one state along transitions are known from their trace, whatever the names hold.
    Induction on the steps. -/
theorem Bound.eq_of_traceFrom_eq (hsteps : Bound m s steps) (hsteps' : Bound m s steps')
    (h : traceFrom m s steps = traceFrom m s steps') : steps = steps' := by
  induction steps generalizing s steps' with
  | nil =>
    cases steps' with
    | nil => rfl
    | cons step' steps' =>
      have hlength := congrArg List.length h
      simp [traceFrom] at hlength
  | cons step steps ih =>
    obtain ⟨c, t⟩ := step
    cases steps' with
    | nil =>
      have hlength := congrArg List.length h
      simp [traceFrom] at hlength
    | cons step' steps' =>
      obtain ⟨c', t'⟩ := step'
      obtain ⟨ht, hrest⟩ := hsteps
      obtain ⟨ht', hrest'⟩ := hsteps'
      -- behind the one name stands the one symbol, which leads to one state only
      have hbehind := List.append_cancel_left h
      simp only [List.cons.injEq, true_and] at hbehind
      obtain ⟨rfl, htrace⟩ := hbehind
      obtain rfl : t = t' := Option.some.inj (ht.symm.trans ht')
      rw [ih hrest hrest' htrace]

end Run

namespace Automaton

variable {d d' : Automaton} {input input' : String}

/-! ## The main result -/

theorem path_eq_of_describe_eq (hd : d.IsBuilt) (hd' : d'.IsBuilt) (hsame : d'.names = d.names)
    (hnames : ∀ n ∈ d.names, ¬ ['-', '>'] <:+: n.toList)
    (h : (d.run input).describe d.toTransitionSystem =
      (d'.run input').describe d'.toTransitionSystem) :
    (d.run input).path = (d'.run input').path := by
  obtain ⟨hm, hstart⟩ := hd.wellFormed
  obtain ⟨hm', hstart'⟩ := hd'.wellFormed
  have hcount : d'.stateCount = d.stateCount := congrArg List.length hsame
  have hsteps : ∀ step ∈ (d.run input).steps, step.2 < d.stateCount := fun step hstep =>
    lt_of_mem_path hm hstart (List.mem_cons_of_mem _ (List.mem_map_of_mem hstep))
  have hsteps' : ∀ step ∈ (d'.run input').steps, step.2 < d.stateCount := fun step hstep =>
    hcount ▸ lt_of_mem_path hm' hstart' (List.mem_cons_of_mem _ (List.mem_map_of_mem hstep))
  have htrace := congrArg String.toList h
  rw [Run.toList_describe, Run.toList_describe, Run.traceFrom_congr hsame] at htrace
  obtain ⟨hstarts, hways⟩ :=
    Run.traceFrom_inj hm hnames hstart (hcount ▸ hstart') hsteps hsteps' htrace
  exact Run.path_congr hstarts hways

/-- **A trace shows which way was taken.**  Runs that are described alike visit the same states on
    the same symbols: runs of one automaton, and runs of two that have the same names, when no name
    holds an arrow.  For one automaton the names need not even be such, since its transitions say
    where a symbol leads. -/
theorem traces_unambiguous :
    (∀ d d' : Automaton, d.IsBuilt → d'.IsBuilt → d'.names = d.names →
      (∀ n ∈ d.names, ¬ ['-', '>'] <:+: n.toList) →
        ∀ input input', (d.run input).describe d.toTransitionSystem =
            (d'.run input').describe d'.toTransitionSystem →
          (d.run input).path = (d'.run input').path) ∧
      ∀ (d : Automaton) (input input' : String),
        (d.run input).describe d.toTransitionSystem =
            (d.run input').describe d.toTransitionSystem →
          (d.run input).path = (d.run input').path := by
  constructor
  · intro d d' hd hd' hsame hnames input input' h
    exact path_eq_of_describe_eq hd hd' hsame hnames h
  · intro d input input' h
    have htrace := congrArg String.toList h
    rw [Run.toList_describe, Run.toList_describe] at htrace
    have hbound : ∀ input, Run.Bound d.toTransitionSystem d.start (d.run input).steps := by
      intro input
      rw [d.steps_run]
      exact Run.bound_walk _ _ _
    exact Run.path_congr rfl ((hbound input).eq_of_traceFrom_eq (hbound input') htrace)

/-- An automaton that steps on the characters of arrows, with an empty name and names that hold
    halves of arrows. -/
def dashes : Automaton :=
  ⟨⟨["", "-", "> -"], ['-', '>'], [],
    [((2, '-'), 2), ((2, '>'), 0), ((1, '-'), 2), ((1, '>'), 1), ((0, '>'), 1)]⟩, 0⟩

/-- An automaton with the same names and fewer transitions, in which the last state accepts. -/
def fewerDashes : Automaton :=
  ⟨⟨["", "-", "> -"], ['>', '-'], [2],
    [((2, '-'), 2), ((1, '-'), 2), ((1, '>'), 1), ((0, '>'), 1)]⟩, 0⟩

theorem dashes_isBuilt : dashes.IsBuilt :=
  ⟨[.state "", .state "-", .state "> -", .symbol "-", .symbol ">", .start "",
    .transition "" '>' "-", .transition "-" '>' "-", .transition "-" '-' "> -",
    .transition "> -" '>' "", .transition "> -" '-' "> -"], by decide +kernel⟩

theorem fewerDashes_isBuilt : fewerDashes.IsBuilt :=
  ⟨[.state "", .state "-", .state "> -", .symbol ">", .symbol "-", .start "", .accept "> -",
    .transition "" '>' "-", .transition "-" '>' "-", .transition "-" '-' "> -",
    .transition "> -" '-' "> -"], by decide +kernel⟩

theorem dashes_trace :
    (dashes.run ">>--").describe dashes.toTransitionSystem = " ->-> - ->-> - ---> > - ---> > -" ∧
      (dashes.run ">>--").path = (dashes.run " > >-\t-\n>>").path ∧
      (dashes.run ">>--").path = (fewerDashes.run ">>-->").path := by
  have hagain : (dashes.run ">>--").describe dashes.toTransitionSystem =
      (dashes.run " > >-\t-\n>>").describe dashes.toTransitionSystem := by decide +kernel
  have hother : (dashes.run ">>--").describe dashes.toTransitionSystem =
      (fewerDashes.run ">>-->").describe fewerDashes.toTransitionSystem := by decide +kernel
  have hnames : ∀ n ∈ dashes.names, ¬ ['-', '>'] <:+: n.toList := by decide +kernel
  obtain ⟨hnamed, hone⟩ := traces_unambiguous
  refine ⟨by decide +kernel, hone dashes _ _ hagain, ?_⟩
  exact hnamed dashes fewerDashes dashes_isBuilt fewerDashes_isBuilt rfl hnames _ _ hother

/-- Of two automata with a name that holds an arrow, one may say of a start what the other says of a
    step. -/
example :
    let names := ["A", "B", "A -0-> B"]
    let steps : Automaton := ⟨⟨names, ['0'], [], [((0, '0'), 1)]⟩, 0⟩
    let stays : Automaton := ⟨⟨names, ['0'], [], [((0, '0'), 1)]⟩, 2⟩
    (steps.run "0").describe steps.toTransitionSystem =
        (stays.run "").describe stays.toTransitionSystem ∧
      (steps.run "0").path ≠ (stays.run "").path := by decide +kernel

end Automaton

end Acceptor
