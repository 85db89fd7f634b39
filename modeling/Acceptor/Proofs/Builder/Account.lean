/-
  What a builder answers, told from its history.

  A builder keeps lists and numbers.  Its history is only the declarations that were made, of which
  some failed; the account of this file speaks of nothing else.

  1. **The account** — `number xs n` counts the names that were given before `n`, and `outcome xs x`
     is the answer to `x`, or the reason why it fails, after the successful declarations `xs`.
     `accepted xs` picks from any declarations the successful ones, and `missing xs` names the parts
     that were never given.

  2. **Numbers** — what a builder finds under a name is the number of the name, and a number never
     changes (`number_append`).

  3. **One declaration** — a builder that holds a history answers what the account says
     (`Records.attempt_fst`), and then holds the longer history (`Records.attempt_snd`).

  4. **All of them** — induction on the history, from the right: what comes later has no part in
     an answer (`records_replay`, `getElem?_replay`).

  5. **Building** — `IsAccountOf xs d`: the automaton that the history speaks of.

  Main result: `replay_follows_account`.
-/
import Acceptor.Proofs.Builder.Records
import Mathlib.Data.List.TakeWhile

namespace Acceptor

/-! ## The account -/

namespace History

/-- How many distinct names were given before a name was first given. -/
def number (xs : List Declaration) (n : String) : Nat :=
  ((xs.filterMap name?).takeWhile (· ≠ n)).eraseDups.length

/-- The state that was made the start last. -/
def lastStart (xs : List Declaration) : Option Nat :=
  (xs.filterMap start?).getLast?.map (number xs)

/-- The target that was given last to a state and a symbol. -/
def lastTarget (xs : List Declaration) (p : String) (c : Char) : Option Nat :=
  (xs.filterMap (target? p c)).getLast?.map (number xs)

/-- The answer to a declaration after successful ones, or the cause of its failure. -/
def outcome (xs : List Declaration) : Declaration → Except Cause Answer
  | .state n => .ok (.state (number xs n))
  | .symbol token =>
    match token.toList with
    | [c] => .ok (.symbol c)
    | _ => .error (.symbolLength token)
  | .start n =>
    if n ∈ xs.filterMap name? then .ok (.replaced (lastStart xs)) else .error (.unknownStart n)
  | .accept n =>
    if n ∈ xs.filterMap name? then .ok (.state (number xs n)) else .error (.unknownAccept n)
  | .transition p c q =>
    if p ∈ xs.filterMap name? ∧ c ∈ xs.filterMap symbol? ∧ q ∈ xs.filterMap name? then
      .ok (.replaced (lastTarget xs p c))
    else .error (.unknownReference p c q)

/-- The history after one more declaration: longer if that succeeds, and else the same. -/
def extend (xs : List Declaration) (x : Declaration) : List Declaration :=
  match outcome xs x with
  | .ok _ => xs ++ [x]
  | .error _ => xs

/-- Of any declarations, those that succeed. -/
def accepted (xs : List Declaration) : List Declaration := xs.foldl extend []

/-- The parts that were never given. -/
def missing (xs : List Declaration) : List String :=
  (if xs.filterMap name? = [] then ["states"] else []) ++
    (if xs.filterMap symbol? = [] then ["alphabet"] else []) ++
    (if xs.filterMap start? = [] then ["start"] else [])

/-- An automaton is the one of which a history speaks. -/
structure IsAccountOf (xs : List Declaration) (d : Automaton) : Prop where
  /-- The states are the names, each where it was first given. -/
  names : d.names = (xs.filterMap name?).eraseDups
  /-- The symbols come in the same way. -/
  alphabet : d.alphabet = (xs.filterMap symbol?).eraseDups
  start : lastStart xs = some d.start
  accepting : ∀ s, d.isAccepting s = true ↔ ∃ n ∈ xs.filterMap accept?, number xs n = s
  next? : ∀ s c, d.next? s c = (d.name? s).bind fun p => lastTarget xs p c

theorem accepted_concat (xs : List Declaration) (x : Declaration) :
    accepted (xs ++ [x]) = extend (accepted xs) x := List.foldl_concat ..

/-- What was successful stays so, whatever follows. -/
theorem accepted_append (xs ys : List Declaration) :
    ∃ more, accepted (xs ++ ys) = accepted xs ++ more := by
  induction ys using List.reverseRecOn with
  | nil => exact ⟨[], by rw [List.append_nil, List.append_nil]⟩
  | append_singleton ys y ih =>
    obtain ⟨more, hmore⟩ := ih
    rw [← List.append_assoc, accepted_concat, hmore, extend]
    split
    · exact ⟨more ++ [y], List.append_assoc ..⟩
    · exact ⟨more, rfl⟩

/-! ## Numbers -/

section Before

variable {α : Type} [DecidableEq α] {a : α} {before after : List α}

/-- What stands in front of the first occurrence of an element. -/
theorem takeWhile_ne_append_cons (h : a ∉ before) (after : List α) :
    (before ++ a :: after).takeWhile (· ≠ a) = before := by
  have hbefore : ∀ b ∈ before, decide (b ≠ a) = true := by
    intro b hb
    have hne : b ≠ a := fun hba => h (hba ▸ hb)
    exact decide_eq_true hne
  rw [List.takeWhile_append_of_pos hbefore, List.takeWhile_cons_of_neg (by simp), List.append_nil]

/-- Among the first occurrences an element comes behind those that stand in front of it. -/
theorem getElem?_eraseDups_append_cons (h : a ∉ before) (after : List α) :
    (before ++ a :: after).eraseDups[before.eraseDups.length]? = some a := by
  have hkeep : (a :: after).removeAll before = a :: after.removeAll before :=
    List.filter_cons_of_pos (by simpa using h)
  rw [List.eraseDups_append, hkeep, List.eraseDups_cons, List.getElem?_append_right (Nat.le_refl _),
    Nat.sub_self]
  rfl

end Before

variable {xs : List Declaration} {x : Declaration} {n p q : String} {c : Char}

/-- A name that was given is the first occurrence with its number. -/
theorem getElem?_number (h : n ∈ xs.filterMap name?) :
    (xs.filterMap name?).eraseDups[number xs n]? = some n := by
  obtain ⟨before, after, hsplit, hfirst⟩ := List.eq_append_cons_of_mem h
  rw [number, hsplit, takeWhile_ne_append_cons hfirst]
  exact getElem?_eraseDups_append_cons hfirst after

/-- A name that was not given would get the next number. -/
theorem number_of_not_mem (h : n ∉ xs.filterMap name?) :
    number xs n = (xs.filterMap name?).eraseDups.length := by
  have hall : (xs.filterMap name?).takeWhile (· ≠ n) = xs.filterMap name? := by
    rw [List.takeWhile_eq_self_iff]
    intro b hb
    have hne : b ≠ n := fun hbn => h (hbn ▸ hb)
    exact decide_eq_true hne
  rw [number, hall]

/-- The number of a name does not change, whatever is given later. -/
theorem number_append (h : n ∈ xs.filterMap name?) (ys : List Declaration) :
    number (xs ++ ys) n = number xs n := by
  obtain ⟨before, after, hsplit, hfirst⟩ := List.eq_append_cons_of_mem h
  rw [number, number, List.filterMap_append, hsplit, List.append_assoc, List.cons_append,
    takeWhile_ne_append_cons hfirst, takeWhile_ne_append_cons hfirst]

theorem exists_ite_eq_ok_iff {P : Prop} [Decidable P] {answer : Answer} {cause : Cause} :
    (∃ a, (if P then .ok answer else .error cause : Except Cause Answer) = .ok a) ↔ P := by
  split <;> simp [*]

/-- A declaration succeeds exactly when the history permits it. -/
theorem exists_outcome_iff : (∃ answer, outcome xs x = .ok answer) ↔ Permits xs x := by
  cases x with
  | state n => exact ⟨fun _ => trivial, fun _ => ⟨_, rfl⟩⟩
  | symbol token =>
    show _ ↔ ∃ c, token.toList = [c]
    constructor
    · rintro ⟨answer, h⟩
      rw [outcome] at h
      split at h
      · rename_i c hc
        exact ⟨c, hc⟩
      · cases h
    · rintro ⟨c, hc⟩
      exact ⟨.symbol c, by rw [outcome, hc]⟩
  | start n => exact exists_ite_eq_ok_iff
  | accept n => exact exists_ite_eq_ok_iff
  | transition p c q => exact exists_ite_eq_ok_iff

theorem extend_of_permits (h : Permits xs x) : extend xs x = xs ++ [x] := by
  obtain ⟨answer, hanswer⟩ := exists_outcome_iff.2 h
  rw [extend, hanswer]

theorem extend_of_not_permits (h : ¬ Permits xs x) : extend xs x = xs := by
  rw [extend]
  split
  · rename_i answer hanswer
    exact absurd (exists_outcome_iff.1 ⟨answer, hanswer⟩) h
  · rfl

end History

namespace Builder

open History (number outcome extend accepted lastStart lastTarget)

section Attempt

variable {b b' : Builder} {x : Declaration} {answer : Answer} {cause : Cause} {p q : String}
  {c : Char}

theorem attempt_of_ok (h : b.declare x = .ok (answer, b')) : b.attempt x = (.ok answer, b') := by
  rw [attempt, h]

theorem attempt_of_error (h : b.declare x = .error cause) : b.attempt x = (.error cause, b) := by
  rw [attempt, h]

theorem declare_symbol_eq_error {token : String} (h : ∀ c, token.toList ≠ [c]) :
    b.declare (.symbol token) = .error (.symbolLength token) := by
  have htoken : symbolOf token = .error (.symbolLength token) := by
    rw [symbolOf]
    split
    · rename_i c hc
      exact absurd hc (h c)
    · rfl
  rw [declare, addSymbol, htoken]
  rfl

theorem declare_start_eq_error (h : b.state? p = none) :
    b.declare (.start p) = .error (.unknownStart p) := by
  rw [declare, setStart, h]
  rfl

theorem declare_accept_eq_error (h : b.state? p = none) :
    b.declare (.accept p) = .error (.unknownAccept p) := by
  rw [declare, addAccept, h]
  rfl

/-- A transition fails for one reason only. -/
theorem declare_transition_eq_error (h : b.declare (.transition p c q) = .error cause) :
    b.declare (.transition p c q) = .error (.unknownReference p c q) := by
  rw [declare, addTransition] at h ⊢
  split at h
  · cases h
  · rfl

end Attempt

namespace Records

variable {b : Builder} {xs : List Declaration} {s : Nat} {n p q : String} {c : Char}

/-! ## What a builder finds -/

/-- Under a name that was given, a builder finds its number. -/
theorem state?_eq_number (h : b.Records xs) (hb : b.WellFormed)
    (hn : n ∈ xs.filterMap History.name?) : b.state? n = some (number xs n) := by
  rw [hb.system.state?_eq_some_iff]
  show b.names[number xs n]? = some n
  rw [h.names_eq]
  exact History.getElem?_number hn

/-- Under any other name it finds nothing. -/
theorem state?_eq_none (h : b.Records xs) (hn : n ∉ xs.filterMap History.name?) :
    b.state? n = none := by
  rw [Option.eq_none_iff_forall_ne_some]
  intro s hs
  exact hn (h.mem_names_of_state? hs)

/-- The state with a name is the number of the name. -/
theorem eq_number_of_name? (h : b.Records xs) (hb : b.WellFormed) (hs : b.name? s = some n) :
    s = number xs n := by
  have hstate : b.state? n = some s := hb.system.state?_eq_some_iff.2 hs
  rw [h.state?_eq_number hb (h.mem_names_of_state? hstate)] at hstate
  exact (Option.some.inj hstate).symm

/-- The start is the one that was given last. -/
theorem start_eq (h : b.Records xs) (hb : b.WellFormed) : b.start = lastStart xs := by
  cases hs : b.start with
  | none =>
    have hnil : xs.filterMap History.start? = [] := by
      by_contra hne
      exact (h.start_ne_none_iff hb).2 hne hs
    rw [lastStart, hnil]
    rfl
  | some s =>
    obtain ⟨n, hn, hlast⟩ := h.exists_name_of_start hb hs
    rw [lastStart, hlast, h.eq_number_of_name? hb hn]
    rfl

/-- From the state with a name one goes on a symbol to the target that was given last. -/
theorem next?_eq (h : b.Records xs) (hb : b.WellFormed) (hs : b.name? s = some p) :
    b.next? s c = lastTarget xs p c := by
  cases ht : b.next? s c with
  | none =>
    rw [lastTarget, (h.next?_eq_none_iff hb hs).1 ht]
    rfl
  | some t =>
    obtain ⟨q, hq, hlast⟩ := (h.next?_eq_some_iff hb hs).1 ht
    rw [lastTarget, hlast, h.eq_number_of_name? hb hq]
    rfl

/-! ## One declaration -/

/-- A builder answers what the account of its history says. -/
theorem attempt_fst (h : b.Records xs) (hb : b.WellFormed) (x : Declaration) :
    (b.attempt x).1 = outcome xs x := by
  cases x with
  | state n =>
    by_cases hn : n ∈ xs.filterMap History.name?
    · rw [attempt_of_ok (declare_state_of_mem (h.state?_eq_number hb hn))]
      rfl
    · -- a new name gets the number of names so far
      have hcount : b.stateCount = number xs n := by
        rw [History.number_of_not_mem hn, ← h.names_eq]
        rfl
      rw [attempt_of_ok (declare_state_of_not_mem (mt h.mem_names_iff.1 hn)), hcount]
      rfl
  | symbol token =>
    rw [outcome]
    split
    · rename_i c hc
      rw [attempt_of_ok (declare_symbol_iff.2 ⟨c, symbolOf_eq_ok_iff.2 hc, rfl, rfl⟩)]
    · rename_i hlength
      rw [attempt_of_error (declare_symbol_eq_error hlength)]
  | start n =>
    rw [outcome]
    split
    · rename_i hn
      rw [attempt_of_ok (declare_start_iff.2 ⟨_, h.state?_eq_number hb hn, rfl, rfl⟩),
        h.start_eq hb]
    · rename_i hn
      rw [attempt_of_error (declare_start_eq_error (h.state?_eq_none hn))]
  | accept n =>
    rw [outcome]
    split
    · rename_i hn
      rw [attempt_of_ok (declare_accept_iff.2 ⟨_, h.state?_eq_number hb hn, rfl, rfl⟩)]
    · rename_i hn
      rw [attempt_of_error (declare_accept_eq_error (h.state?_eq_none hn))]
  | transition p c q =>
    rw [outcome]
    split
    · rename_i hknown
      obtain ⟨hp, hc, hq⟩ := hknown
      have hs := h.state?_eq_number hb hp
      have hold : b.next? (number xs p) c = lastTarget xs p c :=
        h.next?_eq hb (hb.system.state?_eq_some_iff.1 hs)
      rw [attempt_of_ok (declare_transition_iff.2
        ⟨_, _, hs, h.mem_alphabet_iff.2 hc, h.state?_eq_number hb hq, rfl, rfl⟩), hold]
    · rename_i hunknown
      have hfails : b.declare (.transition p c q) = .error (.unknownReference p c q) := by
        rcases h.declare hb (.transition p c q) with ⟨_, _, -, -, hpermits⟩ | ⟨⟨cause, hcause⟩, -⟩
        · exact absurd hpermits hunknown
        · exact declare_transition_eq_error hcause
      rw [attempt_of_error hfails]

/-- After a declaration the builder holds the history after it. -/
theorem attempt_snd (h : b.Records xs) (hb : b.WellFormed) (x : Declaration) :
    (b.attempt x).2.Records (extend xs x) := by
  rcases h.declare hb x with ⟨answer, b', hx, h', hpermits⟩ | ⟨⟨cause, hx⟩, hrefused⟩
  · rw [attempt_of_ok hx, History.extend_of_permits hpermits]
    exact h'
  · rw [attempt_of_error hx, History.extend_of_not_permits hrefused]
    exact h

end Records

/-! ## All of them -/

section Replay

variable {xs : List Declaration} {x : Declaration}

/-- The last of several declarations is made to the builder that the others leave. -/
theorem replay_concat (b : Builder) (xs : List Declaration) (x : Declaration) :
    b.replay (xs ++ [x]) =
      ((b.replay xs).1 ++ [((b.replay xs).2.attempt x).1], ((b.replay xs).2.attempt x).2) := by
  induction xs generalizing b with
  | nil => rfl
  | cons y ys ih =>
    show (_ :: ((b.attempt y).2.replay (ys ++ [x])).1, ((b.attempt y).2.replay (ys ++ [x])).2) = _
    rw [ih]
    rfl

theorem length_replay (b : Builder) (xs : List Declaration) :
    (b.replay xs).1.length = xs.length := by
  induction xs generalizing b with
  | nil => rfl
  | cons x xs ih => exact congrArg Nat.succ (ih _)

/-- Whatever was declared to an empty builder, it holds what was successful. -/
theorem records_replay (xs : List Declaration) :
    (({} : Builder).replay xs).2.Records (accepted xs) := by
  induction xs using List.reverseRecOn with
  | nil => exact records_empty
  | append_singleton xs x ih =>
    rw [replay_concat, History.accepted_concat]
    exact ih.attempt_snd (wellFormed_empty.replay xs) x

/-- The answer to each declaration is what the account of those before it says. -/
theorem getElem?_replay (xs : List Declaration) (i : Nat) :
    (({} : Builder).replay xs).1[i]? = xs[i]?.map (outcome (accepted (xs.take i))) := by
  induction xs using List.reverseRecOn with
  | nil => rfl
  | append_singleton xs x ih =>
    have hlength := length_replay {} xs
    rw [replay_concat]
    rcases Nat.lt_trichotomy i xs.length with hi | hi | hi
    · -- an answer is not changed by what follows
      rw [List.getElem?_append_left (by omega), List.getElem?_append_left hi, ih,
        List.take_append_of_le_length (by omega)]
    · subst hi
      rw [List.getElem?_append_right (by omega), List.getElem?_append_right (by omega), hlength,
        Nat.sub_self, List.take_left]
      show some _ = some _
      rw [(records_replay xs).attempt_fst (wellFormed_empty.replay xs)]
    · rw [List.getElem?_eq_none (by rw [List.length_append, hlength]; exact hi),
        List.getElem?_eq_none (by rw [List.length_append]; exact hi)]
      rfl

end Replay

/-! ## Building -/

section Build

variable {b : Builder} {xs : List Declaration} {d : Automaton}

/-- The same parts are missing from a builder and from its history. -/
theorem Records.missing_eq (h : b.Records xs) (hb : b.WellFormed) :
    b.missing = History.missing xs := by
  have hnames : b.names = [] ↔ xs.filterMap History.name? = [] := not_iff_not.1 h.names_ne_nil_iff
  have halphabet : b.alphabet = [] ↔ xs.filterMap History.symbol? = [] :=
    not_iff_not.1 h.alphabet_ne_nil_iff
  have hstart : b.start = none ↔ xs.filterMap History.start? = [] :=
    not_iff_not.1 (h.start_ne_none_iff hb)
  simp only [Builder.missing, History.missing, hnames, halphabet, hstart]

/-- A builder that cannot build says what is missing. -/
theorem eq_incomplete_of_build {cause : Cause} (h : b.build = .error cause) :
    cause = .incomplete b.missing := by
  unfold build at h
  split at h
  · cases h
  · cases h
    rfl

/-- What is built is what the history speaks of. -/
theorem Records.isAccountOf (h : b.Records xs) (hb : b.WellFormed) (hd : b.build = .ok d) :
    History.IsAccountOf xs d := by
  obtain ⟨-, -, hstart, hsystem⟩ := build_eq_ok_iff.1 hd
  constructor
  · rw [hsystem, h.names_eq]
  · rw [hsystem, h.alphabet_eq]
  · rw [← h.start_eq hb, hstart]
  · intro s
    rw [hsystem]
    constructor
    · intro hs
      have hlt : s < b.stateCount :=
        hb.system.accepting_lt s (TransitionSystem.isAccepting_iff.1 hs)
      obtain ⟨n, hn⟩ := TransitionSystem.exists_name?_of_lt hlt
      exact ⟨n, (h.isAccepting_iff hb hn).1 hs, (h.eq_number_of_name? hb hn).symm⟩
    · rintro ⟨n, hn, rfl⟩
      obtain ⟨s, hs, hname⟩ := (h.accepting_iff n).1 hn
      rw [← h.eq_number_of_name? hb hname]
      exact TransitionSystem.isAccepting_iff.2 hs
  · intro s c
    rw [hsystem]
    cases hname : b.name? s with
    | none =>
      have hs : ¬ s < b.stateCount := by
        rw [← TransitionSystem.isSome_name?_iff, hname]
        exact Bool.false_ne_true
      exact hb.system.next?_eq_none hs
    | some p => exact h.next?_eq hb hname

end Build

/-! ## The main result -/

/-- Everything that is to be learned of an empty builder by a history of declarations, told from the
    history. -/
structure FollowsAccount (xs : List Declaration) : Prop where
  /-- Each declaration is answered as the successful ones before it say. -/
  answers : ∀ i, (({} : Builder).replay xs).1[i]? = xs[i]?.map (outcome (accepted (xs.take i)))
  /-- A name that was given keeps its number, whatever is declared later, and in what is built. -/
  numbers : ∀ n ∈ (accepted xs).filterMap History.name?, ∀ ys,
    (({} : Builder).replay (xs ++ ys)).2.state? n = some (number (accepted xs) n) ∧
      ∀ d, (({} : Builder).replay (xs ++ ys)).2.build = .ok d →
        d.state? n = some (number (accepted xs) n)
  /-- Any other name has none. -/
  unknown : ∀ n, n ∉ (accepted xs).filterMap History.name? →
    (({} : Builder).replay xs).2.state? n = none
  /-- There is something to build exactly when a state, a symbol and a start were given. -/
  complete : (∃ d, (({} : Builder).replay xs).2.build = .ok d) ↔
    (accepted xs).filterMap History.name? ≠ [] ∧ (accepted xs).filterMap History.symbol? ≠ [] ∧
      (accepted xs).filterMap History.start? ≠ []
  built : ∀ d, (({} : Builder).replay xs).2.build = .ok d → History.IsAccountOf (accepted xs) d
  incomplete : ∀ cause, (({} : Builder).replay xs).2.build = .error cause →
    cause = .incomplete (History.missing (accepted xs))

/-- **A builder follows the account of its history**, whatever is declared to it. -/
theorem replay_follows_account (xs : List Declaration) : FollowsAccount xs := by
  have hrecords := records_replay xs
  have hwell : (({} : Builder).replay xs).2.WellFormed := wellFormed_empty.replay xs
  refine ⟨getElem?_replay xs, ?_, ?_, hrecords.exists_build_iff hwell, ?_, ?_⟩
  · intro n hn ys
    -- what is declared later makes the history longer and leaves the number as it is
    obtain ⟨more, hmore⟩ := History.accepted_append xs ys
    have hn' : n ∈ (accepted (xs ++ ys)).filterMap History.name? := by
      rw [hmore, List.filterMap_append]
      exact List.mem_append_left _ hn
    have hstate := (records_replay (xs ++ ys)).state?_eq_number (wellFormed_empty.replay _) hn'
    rw [hmore, History.number_append hn] at hstate
    refine ⟨hstate, ?_⟩
    intro d hd
    obtain ⟨-, -, -, hsystem⟩ := build_eq_ok_iff.1 hd
    rw [hsystem]
    exact hstate
  · intro n hn
    exact hrecords.state?_eq_none hn
  · intro d hd
    exact hrecords.isAccountOf hwell hd
  · intro cause hcause
    rw [eq_incomplete_of_build hcause, hrecords.missing_eq hwell]

/-- What failed has no part in the account: the first start is not replaced, and the token is no
    symbol. -/
example : accepted [.start "B", .state "B", .symbol "01", .start "B"] = [.state "B", .start "B"] ∧
    outcome [.state "B"] (.start "B") = .ok (.replaced none) := by decide

end Builder

end Acceptor
