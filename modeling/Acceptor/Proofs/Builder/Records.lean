/-
  What a builder knows is what it was told.

  1. **The invariant** — `b.Records xs`: `b` holds exactly what the history `xs` says.  States and
     symbols are the first occurrences, in order; accepting states are those that were ever named;
     the start, and the target of a state and a symbol, are what was named last.  The last three are
     stated through names, since they have to survive the declaration of further states.

  2. **One declaration** — under the invariant a declaration succeeds exactly when the history
     permits it, and then the invariant holds of the longer history.

  3. **Many declarations** — by induction, the same for lists of them.

  4. **One state** — what the history says of a state with a known name.

  5. **Building** — a builder can build exactly when its history gives a state, a symbol and a
     start.
-/
import Acceptor.Builder.WellFormed
import Acceptor.Proofs.Automaton.Lookup
import Acceptor.Proofs.Builder.History

namespace Acceptor

/-! ## The invariant -/

/-- A builder holds exactly what a history says. -/
structure Builder.Records (b : Builder) (xs : List Declaration) : Prop where
  names_eq : b.names = (xs.filterMap History.name?).eraseDups
  alphabet_eq : b.alphabet = (xs.filterMap History.symbol?).eraseDups
  /-- The start is the state that was named last. -/
  start_iff : ∀ n, (xs.filterMap History.start?).getLast? = some n ↔
    ∃ s, b.start = some s ∧ b.name? s = some n
  /-- The accepting states are those that were named. -/
  accepting_iff : ∀ n, n ∈ xs.filterMap History.accept? ↔ ∃ s ∈ b.accepting, b.name? s = some n
  /-- A state and a symbol are bound to the target that was named last. -/
  next?_iff : ∀ p c q, (xs.filterMap (History.target? p c)).getLast? = some q ↔
    ∃ s t, b.name? s = some p ∧ b.next? s c = some t ∧ b.name? t = some q

namespace Builder

/-- Nothing was told to an empty builder. -/
theorem records_empty : ({} : Builder).Records [] where
  names_eq := rfl
  alphabet_eq := rfl
  start_iff n := by simp
  accepting_iff n := by simp
  next?_iff p c q := by simp [TransitionSystem.next?]

namespace Records

variable {b b' : Builder} {xs : List Declaration} {n p q : String} {c : Char}

theorem mem_names_iff (h : b.Records xs) : n ∈ b.names ↔ n ∈ xs.filterMap History.name? := by
  rw [h.names_eq, List.mem_eraseDups]

theorem mem_alphabet_iff (h : b.Records xs) :
    c ∈ b.alphabet ↔ c ∈ xs.filterMap History.symbol? := by
  rw [h.alphabet_eq, List.mem_eraseDups]

theorem exists_state? (h : b.Records xs) (hn : n ∈ xs.filterMap History.name?) :
    ∃ s, b.state? n = some s := by
  have hmem : n ∈ b.names := h.mem_names_iff.2 hn
  exact Option.isSome_iff_exists.1 (TransitionSystem.isSome_state?_iff.2 hmem)

theorem mem_names_of_state? (h : b.Records xs) {s : Nat} (hs : b.state? n = some s) :
    n ∈ xs.filterMap History.name? := by
  rw [← h.mem_names_iff, ← TransitionSystem.isSome_state?_iff, hs]
  rfl

end Records

/-! ## One declaration

  What `declare` does, constructor by constructor: when it succeeds, what it answers, and the
  builder after it. -/

section Declare

variable {b b' : Builder} {answer : Answer} {n p q token : String} {c : Char}

theorem declare_state_of_mem {s : Nat} (h : b.state? n = some s) :
    b.declare (.state n) = .ok (.state s, b) := by
  simp only [declare, addState, h]

theorem declare_state_of_not_mem (h : n ∉ b.names) :
    b.declare (.state n) = .ok (.state b.stateCount, { b with names := b.names ++ [n] }) := by
  have hnone : b.state? n = none := List.idxOf?_eq_none_iff.2 h
  simp only [declare, addState, hnone]

/-- A declared state was known, or it is new and comes last. -/
theorem declare_state_cases (h : b.declare (.state n) = .ok (answer, b')) :
    (∃ s, b.state? n = some s ∧ answer = .state s ∧ b' = b) ∨
      (answer = .state b.stateCount ∧ b' = { b with names := b.names ++ [n] }) := by
  cases hn : b.state? n with
  | some s =>
    rw [declare_state_of_mem hn] at h
    cases h
    exact .inl ⟨s, rfl, rfl, rfl⟩
  | none =>
    rw [declare_state_of_not_mem (TransitionSystem.not_mem_of_state?_eq_none hn)] at h
    cases h
    exact .inr ⟨rfl, rfl⟩

theorem declare_symbol_iff :
    b.declare (.symbol token) = .ok (answer, b') ↔
      ∃ c, symbolOf token = .ok c ∧ answer = .symbol c ∧
        b' = if c ∈ b.alphabet then b else { b with alphabet := b.alphabet ++ [c] } := by
  simp only [declare, addSymbol]
  cases symbolOf token with
  | error cause => simp [Except.map]
  | ok c =>
    simp only [Except.map, TransitionSystem.hasSymbol_iff, Except.ok.injEq, Prod.mk.injEq]
    constructor
    · rintro ⟨ha, hb⟩
      exact ⟨c, rfl, ha.symm, hb.symm⟩
    · rintro ⟨d, rfl, ha, hb⟩
      exact ⟨ha.symm, hb.symm⟩

theorem declare_start_iff :
    b.declare (.start n) = .ok (answer, b') ↔
      ∃ s, b.state? n = some s ∧ answer = .replaced b.start ∧ b' = { b with start := some s } := by
  simp only [declare, setStart]
  cases b.state? n with
  | none => simp [Except.map]
  | some s => simp [Except.map, eq_comm]

theorem declare_accept_iff :
    b.declare (.accept n) = .ok (answer, b') ↔
      ∃ s, b.state? n = some s ∧ answer = .state s ∧
        b' = { b with accepting := b.accepting.insert s } := by
  simp only [declare, addAccept]
  cases b.state? n with
  | none => simp [Except.map]
  | some s => simp [Except.map, eq_comm]

theorem declare_transition_iff :
    b.declare (.transition p c q) = .ok (answer, b') ↔
      ∃ s t, b.state? p = some s ∧ c ∈ b.alphabet ∧ b.state? q = some t ∧
        answer = .replaced (b.next? s c) ∧
        b' = { b with bindings := ((s, c), t) :: b.bindings } := by
  simp only [declare, addTransition]
  by_cases hc : c ∈ b.alphabet
  · have hsymbol : b.hasSymbol c = true := TransitionSystem.hasSymbol_iff.2 hc
    cases b.state? p <;> cases b.state? q <;> simp [hsymbol, hc, Except.map, eq_comm]
  · have hsymbol : b.hasSymbol c = false := by
      rw [← Bool.not_eq_true, TransitionSystem.hasSymbol_iff]
      exact hc
    cases b.state? p <;> cases b.state? q <;> simp [hsymbol, hc, Except.map]

end Declare

/-! ## The invariant is kept -/

namespace Records

open History (filterMap_concat_of_none filterMap_concat_of_some)

variable {b b' : Builder} {xs : List Declaration} {x : Declaration} {n p q token : String}
  {c : Char} {s t : Nat}

/-! The parts of the invariant of which a declaration says nothing stay as they are. -/

theorem names_frame (h : b.Records xs) (hx : History.name? x = none) :
    b.names = ((xs ++ [x]).filterMap History.name?).eraseDups := by
  rw [filterMap_concat_of_none hx]
  exact h.names_eq

theorem alphabet_frame (h : b.Records xs) (hx : History.symbol? x = none) :
    b.alphabet = ((xs ++ [x]).filterMap History.symbol?).eraseDups := by
  rw [filterMap_concat_of_none hx]
  exact h.alphabet_eq

theorem start_frame (h : b.Records xs) (hx : History.start? x = none) (n : String) :
    ((xs ++ [x]).filterMap History.start?).getLast? = some n ↔
      ∃ s, b.start = some s ∧ b.name? s = some n := by
  rw [filterMap_concat_of_none hx]
  exact h.start_iff n

theorem accepting_frame (h : b.Records xs) (hx : History.accept? x = none) (n : String) :
    n ∈ (xs ++ [x]).filterMap History.accept? ↔ ∃ s ∈ b.accepting, b.name? s = some n := by
  rw [filterMap_concat_of_none hx]
  exact h.accepting_iff n

theorem next?_frame (h : b.Records xs) (hx : ∀ p c, History.target? p c x = none) (p : String)
    (c : Char) (q : String) :
    ((xs ++ [x]).filterMap (History.target? p c)).getLast? = some q ↔
      ∃ s t, b.name? s = some p ∧ b.next? s c = some t ∧ b.name? t = some q := by
  rw [filterMap_concat_of_none (hx p c)]
  exact h.next?_iff p c q

/-! What each declaration changes. -/

/-- Declaring a known state again adds nothing. -/
theorem stateAgain (h : b.Records xs) (hn : n ∈ b.names) : b.Records (xs ++ [.state n]) where
  names_eq := by
    have hsays : History.name? (.state n) = some n := rfl
    have hmem : n ∈ xs.filterMap History.name? := h.mem_names_iff.1 hn
    rw [filterMap_concat_of_some hsays, eraseDups_concat_of_mem hmem]
    exact h.names_eq
  alphabet_eq := h.alphabet_frame rfl
  start_iff := h.start_frame rfl
  accepting_iff := h.accepting_frame rfl
  next?_iff := h.next?_frame fun _ _ => rfl

/-- A new state comes last.  Nothing that was said of other states changes, for no other part of
    the builder can speak of the new one. -/
theorem newState (h : b.Records xs) (hb : b.WellFormed) (hn : n ∉ b.names) :
    Records { b with names := b.names ++ [n] } (xs ++ [.state n]) := by
  -- every number in `b` is one of its states, and those keep their names
  have hkeep : ∀ {s}, s < b.stateCount →
      ({ b with names := b.names ++ [n] } : Builder).name? s = b.name? s :=
    fun hs => TransitionSystem.name?_append rfl hs
  constructor
  · have hsays : History.name? (.state n) = some n := rfl
    have hmem : n ∉ xs.filterMap History.name? := fun hn' => hn (h.mem_names_iff.2 hn')
    rw [filterMap_concat_of_some hsays, eraseDups_concat_of_not_mem hmem, h.names_eq]
  · exact h.alphabet_frame rfl
  · intro v
    rw [h.start_frame rfl]
    refine exists_congr fun s => and_congr_right fun hs => ?_
    rw [hkeep (hb.start_lt s hs)]
  · intro v
    rw [h.accepting_frame rfl]
    refine exists_congr fun s => and_congr_right fun hs => ?_
    rw [hkeep (hb.system.accepting_lt s hs)]
  · intro p c q
    rw [h.next?_frame fun _ _ => rfl]
    refine exists_congr fun s => exists_congr fun t => ?_
    show _ ↔ _ ∧ b.next? s c = some t ∧ _
    constructor
    · rintro ⟨hs, ht, hq⟩
      obtain ⟨hslt, -, htlt⟩ := hb.system.next?_declared ht
      exact ⟨(hkeep hslt).trans hs, ht, (hkeep htlt).trans hq⟩
    · rintro ⟨hs, ht, hq⟩
      obtain ⟨hslt, -, htlt⟩ := hb.system.next?_declared ht
      exact ⟨(hkeep hslt).symm.trans hs, ht, (hkeep htlt).symm.trans hq⟩

/-- Declaring a known symbol again adds nothing. -/
theorem symbolAgain (h : b.Records xs) (htoken : symbolOf token = .ok c) (hc : c ∈ b.alphabet) :
    b.Records (xs ++ [.symbol token]) where
  names_eq := h.names_frame rfl
  alphabet_eq := by
    have hsays : History.symbol? (.symbol token) = some c := by
      rw [History.symbol?, htoken]
      rfl
    have hmem : c ∈ xs.filterMap History.symbol? := h.mem_alphabet_iff.1 hc
    rw [filterMap_concat_of_some hsays, eraseDups_concat_of_mem hmem]
    exact h.alphabet_eq
  start_iff := h.start_frame rfl
  accepting_iff := h.accepting_frame rfl
  next?_iff := h.next?_frame fun _ _ => rfl

/-- A new symbol comes last. -/
theorem newSymbol (h : b.Records xs) (htoken : symbolOf token = .ok c) (hc : c ∉ b.alphabet) :
    Records { b with alphabet := b.alphabet ++ [c] } (xs ++ [.symbol token]) where
  names_eq := h.names_frame rfl
  alphabet_eq := by
    have hsays : History.symbol? (.symbol token) = some c := by
      rw [History.symbol?, htoken]
      rfl
    have hmem : c ∉ xs.filterMap History.symbol? := fun hc' => hc (h.mem_alphabet_iff.2 hc')
    rw [filterMap_concat_of_some hsays, eraseDups_concat_of_not_mem hmem, h.alphabet_eq]
  start_iff := h.start_frame rfl
  accepting_iff := h.accepting_frame rfl
  next?_iff := h.next?_frame fun _ _ => rfl

/-- The state that is named becomes the start. -/
theorem start (h : b.Records xs) (hb : b.WellFormed) (hs : b.state? n = some s) :
    Records { b with start := some s } (xs ++ [.start n]) where
  names_eq := h.names_frame rfl
  alphabet_eq := h.alphabet_frame rfl
  start_iff v := by
    have hsays : History.start? (.start n) = some n := rfl
    have hname : b.name? s = some n := hb.system.state?_eq_some_iff.1 hs
    rw [filterMap_concat_of_some hsays, List.getLast?_concat]
    show _ ↔ ∃ t, some s = some t ∧ b.name? t = some v
    simp [hname]
  accepting_iff := h.accepting_frame rfl
  next?_iff := h.next?_frame fun _ _ => rfl

/-- The state that is named becomes accepting. -/
theorem accept (h : b.Records xs) (hb : b.WellFormed) (hs : b.state? n = some s) :
    Records { b with accepting := b.accepting.insert s } (xs ++ [.accept n]) where
  names_eq := h.names_frame rfl
  alphabet_eq := h.alphabet_frame rfl
  start_iff := h.start_frame rfl
  accepting_iff v := by
    have hsays : History.accept? (.accept n) = some n := rfl
    have hname : b.name? s = some n := hb.system.state?_eq_some_iff.1 hs
    rw [filterMap_concat_of_some hsays, List.mem_append, List.mem_singleton, h.accepting_iff]
    show _ ↔ ∃ t ∈ b.accepting.insert s, b.name? t = some v
    constructor
    · rintro (⟨t, ht, hv⟩ | rfl)
      · exact ⟨t, List.mem_insert_of_mem ht, hv⟩
      · exact ⟨s, List.mem_insert_self, hname⟩
    · rintro ⟨t, ht, hv⟩
      rcases List.mem_insert_iff.1 ht with rfl | ht
      · exact .inr (Option.some.inj (hv.symm.trans hname))
      · exact .inl ⟨t, ht, hv⟩
  next?_iff := h.next?_frame fun _ _ => rfl

/-- The state and the symbol that are named are bound to the new target, and all others to the
    target that they had. -/
theorem transition (h : b.Records xs) (hb : b.WellFormed) (hs : b.state? p = some s)
    (ht : b.state? q = some t) :
    Records { b with bindings := ((s, c), t) :: b.bindings } (xs ++ [.transition p c q]) where
  names_eq := h.names_frame rfl
  alphabet_eq := h.alphabet_frame rfl
  start_iff := h.start_frame rfl
  accepting_iff := h.accepting_frame rfl
  next?_iff p' c' q' := by
    have hp : b.name? s = some p := hb.system.state?_eq_some_iff.1 hs
    have hq : b.name? t = some q := hb.system.state?_eq_some_iff.1 ht
    show _ ↔ ∃ s' t', b.name? s' = some p' ∧
      (((s, c), t) :: b.bindings).lookup (s', c') = some t' ∧ b.name? t' = some q'
    by_cases hpc : p = p' ∧ c = c'
    · -- the pair that is bound: the new target is the last one, and the first that is found
      obtain ⟨rfl, rfl⟩ := hpc
      have htarget : History.target? p c (.transition p c q) = some q := if_pos ⟨rfl, rfl⟩
      rw [filterMap_concat_of_some htarget, List.getLast?_concat]
      constructor
      · rintro ⟨⟩
        exact ⟨s, t, hp, List.lookup_cons_self, hq⟩
      · rintro ⟨s', t', hp', hbound, hq'⟩
        obtain rfl : s = s' := hb.system.name?_inj hp hp'
        rw [List.lookup_cons_self] at hbound
        obtain rfl : t = t' := Option.some.inj hbound
        exact hq.symm.trans hq'
    · -- any other pair is another state or another symbol, and is searched for as before
      have htarget : History.target? p' c' (.transition p c q) = none := if_neg hpc
      rw [filterMap_concat_of_none htarget, h.next?_iff]
      refine exists_congr fun s' => exists_congr fun t' => and_congr_right fun hp' => ?_
      have hne : ((s', c') == (s, c)) = false := by
        rw [beq_eq_false_iff_ne, ne_eq, Prod.mk.injEq]
        rintro ⟨rfl, rfl⟩
        exact hpc ⟨Option.some.inj (hp.symm.trans hp'), rfl⟩
      rw [List.lookup_cons, hne]
      rfl

/-- What one declaration does under the invariant: if the history permits it, it succeeds and the
    invariant holds of the longer history; otherwise it fails. -/
theorem declare (h : b.Records xs) (hb : b.WellFormed) (x : Declaration) :
    (∃ answer b', b.declare x = .ok (answer, b') ∧ b'.Records (xs ++ [x]) ∧ History.Permits xs x) ∨
      ((∃ cause, b.declare x = .error cause) ∧ ¬ History.Permits xs x) := by
  cases x with
  | state n =>
    left
    cases hn : b.state? n with
    | some s =>
      have hmem : n ∈ b.names := TransitionSystem.isSome_state?_iff.1 (by rw [hn]; rfl)
      exact ⟨_, _, declare_state_of_mem hn, h.stateAgain hmem, trivial⟩
    | none =>
      have hnew : n ∉ b.names := TransitionSystem.not_mem_of_state?_eq_none hn
      exact ⟨_, _, declare_state_of_not_mem hnew, h.newState hb hnew, trivial⟩
  | symbol token =>
    cases htoken : symbolOf token with
    | error cause =>
      right
      refine ⟨⟨cause, by simp [Builder.declare, addSymbol, htoken, Except.map]⟩, ?_⟩
      rintro ⟨c, hc⟩
      rw [symbolOf_eq_ok_iff.2 hc] at htoken
      cases htoken
    | ok c =>
      left
      have hpermits : History.Permits xs (.symbol token) := ⟨c, symbolOf_eq_ok_iff.1 htoken⟩
      refine ⟨_, _, declare_symbol_iff.2 ⟨c, htoken, rfl, rfl⟩, ?_, hpermits⟩
      split
      · rename_i hc
        exact h.symbolAgain htoken hc
      · rename_i hc
        exact h.newSymbol htoken hc
  | start n =>
    cases hn : b.state? n with
    | some s =>
      left
      exact ⟨_, _, declare_start_iff.2 ⟨s, hn, rfl, rfl⟩, h.start hb hn, h.mem_names_of_state? hn⟩
    | none =>
      right
      refine ⟨⟨.unknownStart n, by simp [Builder.declare, setStart, hn, Except.map]⟩, ?_⟩
      intro hpermits
      obtain ⟨s, hs⟩ := h.exists_state? hpermits
      rw [hn] at hs
      cases hs
  | accept n =>
    cases hn : b.state? n with
    | some s =>
      left
      exact ⟨_, _, declare_accept_iff.2 ⟨s, hn, rfl, rfl⟩, h.accept hb hn,
        h.mem_names_of_state? hn⟩
    | none =>
      right
      refine ⟨⟨.unknownAccept n, by simp [Builder.declare, addAccept, hn, Except.map]⟩, ?_⟩
      intro hpermits
      obtain ⟨s, hs⟩ := h.exists_state? hpermits
      rw [hn] at hs
      cases hs
  | transition p c q =>
    by_cases hpermits : History.Permits xs (.transition p c q)
    · left
      obtain ⟨hp, hc, hq⟩ := hpermits
      obtain ⟨s, hs⟩ := h.exists_state? hp
      obtain ⟨t, ht⟩ := h.exists_state? hq
      exact ⟨_, _, declare_transition_iff.2 ⟨s, t, hs, h.mem_alphabet_iff.2 hc, ht, rfl, rfl⟩,
        h.transition hb hs ht, hp, hc, hq⟩
    · right
      refine ⟨?_, hpermits⟩
      cases hx : b.declare (.transition p c q) with
      | error cause => exact ⟨cause, rfl⟩
      | ok r =>
        obtain ⟨s, t, hs, hc, ht, -, -⟩ := declare_transition_iff.1 hx
        exact absurd ⟨h.mem_names_of_state? hs, h.mem_alphabet_iff.1 hc, h.mem_names_of_state? ht⟩
          hpermits

end Records

/-! ## Many declarations -/

section DeclareAll

variable {b b' : Builder} {xs ys : List Declaration} {y : Declaration} {answer : Answer}
  {answers : List Answer} {cause : Cause}

theorem declareAll_cons_of_ok (hy : b.declare y = .ok (answer, b')) (ys : List Declaration) :
    b.declareAll (y :: ys) = (b'.declareAll ys).map fun (answers, b) => (answer :: answers, b) := by
  rw [declareAll, hy]
  show (do let (answers, b) ← b'.declareAll ys; return (answer :: answers, b)) = _
  cases b'.declareAll ys <;> rfl

theorem declareAll_cons_of_error (hy : b.declare y = .error cause) (ys : List Declaration) :
    b.declareAll (y :: ys) = .error cause := by
  rw [declareAll, hy]
  rfl

/-- One list after another: the second is told to the builder that the first leaves. -/
theorem declareAll_append (b : Builder) (xs ys : List Declaration) :
    b.declareAll (xs ++ ys) = do
      let (answers, b) ← b.declareAll xs
      let (more, b) ← b.declareAll ys
      return (answers ++ more, b) := by
  induction xs generalizing b with
  | nil =>
    show b.declareAll ys = do
      let (more, b) ← b.declareAll ys
      return ([] ++ more, b)
    cases b.declareAll ys <;> rfl
  | cons x xs ih =>
    rw [List.cons_append]
    cases hx : b.declare x with
    | error cause =>
      rw [declareAll_cons_of_error hx, declareAll_cons_of_error hx]
      rfl
    | ok r =>
      obtain ⟨answer, b'⟩ := r
      rw [declareAll_cons_of_ok hx, declareAll_cons_of_ok hx, ih]
      cases b'.declareAll xs with
      | error cause => rfl
      | ok r' =>
        obtain ⟨answers, b''⟩ := r'
        show Except.map _ (do let (more, b) ← b''.declareAll ys; return (answers ++ more, b)) =
          do let (more, b) ← b''.declareAll ys; return (answer :: answers ++ more, b)
        cases b''.declareAll ys <;> rfl

theorem declareAll_append_eq_ok_iff :
    b.declareAll (xs ++ ys) = .ok (answers, b') ↔
      ∃ first b₁ second, b.declareAll xs = .ok (first, b₁) ∧ b₁.declareAll ys = .ok (second, b') ∧
        answers = first ++ second := by
  rw [declareAll_append]
  cases b.declareAll xs with
  | error cause =>
    constructor
    · intro h
      cases h
    · rintro ⟨_, _, _, h, -⟩
      cases h
  | ok r =>
    obtain ⟨first, b₁⟩ := r
    show (do let (second, b) ← b₁.declareAll ys; return (first ++ second, b)) = _ ↔ _
    cases hys : b₁.declareAll ys with
    | error cause =>
      constructor
      · intro h
        cases h
      · rintro ⟨_, _, _, ⟨⟩, h, -⟩
        rw [hys] at h
        cases h
    | ok r =>
      obtain ⟨second, b₂⟩ := r
      constructor
      · rintro ⟨⟩
        exact ⟨first, b₁, second, rfl, hys, rfl⟩
      · rintro ⟨_, _, _, ⟨⟩, h, rfl⟩
        rw [hys] at h
        cases h
        rfl

theorem declareAll_cons_eq_ok_iff :
    b.declareAll (y :: ys) = .ok (answers, b') ↔
      ∃ answer b₁ later, b.declare y = .ok (answer, b₁) ∧ b₁.declareAll ys = .ok (later, b') ∧
        answers = answer :: later := by
  cases hy : b.declare y with
  | error cause =>
    rw [declareAll_cons_of_error hy]
    simp
  | ok r =>
    obtain ⟨answer, b₁⟩ := r
    rw [declareAll_cons_of_ok hy]
    constructor
    · intro h
      cases hys : b₁.declareAll ys with
      | error cause =>
        rw [hys] at h
        cases h
      | ok r =>
        rw [hys] at h
        cases h
        exact ⟨answer, b₁, r.1, rfl, hys, rfl⟩
    · rintro ⟨_, _, later, ⟨⟩, hys, rfl⟩
      rw [hys]
      rfl

/-- Going through declarations that all succeed, one meets no failure. -/
theorem replay_of_declareAll (h : b.declareAll xs = .ok (answers, b')) : (b.replay xs).2 = b' := by
  induction xs generalizing b answers with
  | nil =>
    cases h
    rfl
  | cons x xs ih =>
    obtain ⟨answer, b₁, later, hx, hrest, -⟩ := declareAll_cons_eq_ok_iff.1 h
    have hattempt : (b.attempt x).2 = b₁ := by
      rw [attempt, hx]
    show ((b.attempt x).2.replay xs).2 = _
    rw [hattempt]
    exact ih hrest

/-- What a list of declarations does under the invariant: if it is legal, all of it succeeds and
    the invariant holds of the longer history; otherwise it fails.  Induction on the list; each
    declaration hands the invariant on to the next. -/
theorem Records.declareAll (h : b.Records xs) (hb : b.WellFormed) (ys : List Declaration) :
    (∃ answers b', b.declareAll ys = .ok (answers, b') ∧ b'.Records (xs ++ ys) ∧ b'.WellFormed ∧
        History.Legal xs ys) ∨
      ((∃ cause, b.declareAll ys = .error cause) ∧ ¬ History.Legal xs ys) := by
  induction ys generalizing b xs with
  | nil =>
    left
    exact ⟨[], b, rfl, by rwa [List.append_nil], hb, trivial⟩
  | cons y ys ih =>
    rcases h.declare hb y with ⟨answer, b', hy, h', hpermits⟩ | ⟨⟨cause, hy⟩, hrefused⟩
    · rcases ih h' (hb.declare hy) with
        ⟨answers, b'', hys, h'', hb'', hlegal⟩ | ⟨⟨cause, hys⟩, hill⟩
      · left
        refine ⟨answer :: answers, b'', ?_, ?_, hb'', hpermits, hlegal⟩
        · rw [declareAll_cons_of_ok hy, hys]
          rfl
        · rwa [List.append_assoc, List.singleton_append] at h''
      · right
        refine ⟨⟨cause, ?_⟩, fun hlegal => hill hlegal.2⟩
        rw [declareAll_cons_of_ok hy, hys]
        rfl
    · right
      exact ⟨⟨cause, declareAll_cons_of_error hy ys⟩, fun hlegal => hrefused hlegal.1⟩

/-- An empty builder takes a list of declarations exactly when the list is legal. -/
theorem exists_declareAll_iff :
    (∃ answers b, ({} : Builder).declareAll xs = .ok (answers, b)) ↔ History.Legal [] xs := by
  rcases records_empty.declareAll wellFormed_empty xs with
    ⟨answers, b, hxs, -, -, hlegal⟩ | ⟨⟨cause, hxs⟩, hill⟩
  · exact ⟨fun _ => hlegal, fun _ => ⟨answers, b, hxs⟩⟩
  · refine ⟨?_, fun hlegal => absurd hlegal hill⟩
    rintro ⟨answers, b, h⟩
    rw [hxs] at h
    cases h

/-- An empty builder that took a list of declarations holds what the list says. -/
theorem records_of_declareAll (h : ({} : Builder).declareAll xs = .ok (answers, b)) :
    b.Records xs ∧ b.WellFormed := by
  rcases records_empty.declareAll wellFormed_empty xs with
    ⟨answers', b', hxs, hrecords, hb, -⟩ | ⟨⟨cause, hxs⟩, -⟩
  · rw [h] at hxs
    cases hxs
    exact ⟨hrecords, hb⟩
  · rw [h] at hxs
    cases hxs

end DeclareAll

/-! ## One state

  The last three parts of the invariant, seen from a state with a known name. -/

namespace Records

variable {b : Builder} {xs : List Declaration} {s t : Nat} {n : String} {c : Char}

/-- The start has the name that was given last. -/
theorem exists_name_of_start (h : b.Records xs) (hb : b.WellFormed) (hs : b.start = some s) :
    ∃ n, b.name? s = some n ∧ (xs.filterMap History.start?).getLast? = some n := by
  obtain ⟨n, hn⟩ := TransitionSystem.exists_name?_of_lt (hb.start_lt s hs)
  exact ⟨n, hn, (h.start_iff n).2 ⟨s, hs, hn⟩⟩

/-- A state is accepting exactly when its name was given. -/
theorem isAccepting_iff (h : b.Records xs) (hb : b.WellFormed) (hs : b.name? s = some n) :
    b.isAccepting s = true ↔ n ∈ xs.filterMap History.accept? := by
  rw [TransitionSystem.isAccepting_iff, h.accepting_iff]
  constructor
  · intro hacc
    exact ⟨s, hacc, hs⟩
  · rintro ⟨s', hacc, hs'⟩
    obtain rfl : s = s' := hb.system.name?_inj hs hs'
    exact hacc

/-- A state goes on a symbol to the target that was given last. -/
theorem next?_eq_some_iff (h : b.Records xs) (hb : b.WellFormed) (hs : b.name? s = some n) :
    b.next? s c = some t ↔
      ∃ q, b.name? t = some q ∧ (xs.filterMap (History.target? n c)).getLast? = some q := by
  constructor
  · intro ht
    obtain ⟨-, -, hlt⟩ := hb.system.next?_declared ht
    obtain ⟨q, hq⟩ := TransitionSystem.exists_name?_of_lt hlt
    exact ⟨q, hq, (h.next?_iff n c q).2 ⟨s, t, hs, ht, hq⟩⟩
  · rintro ⟨q, hq, hlast⟩
    obtain ⟨s', t', hs', ht', hq'⟩ := (h.next?_iff n c q).1 hlast
    obtain rfl : s = s' := hb.system.name?_inj hs hs'
    obtain rfl : t = t' := hb.system.name?_inj hq hq'
    exact ht'

/-- A state does not go on a symbol exactly when no target was given. -/
theorem next?_eq_none_iff (h : b.Records xs) (hb : b.WellFormed) (hs : b.name? s = some n) :
    b.next? s c = none ↔ xs.filterMap (History.target? n c) = [] := by
  constructor
  · intro hnone
    by_contra hne
    obtain ⟨s', t, hs', ht, -⟩ := (h.next?_iff n c _).1 (List.getLast?_eq_some_getLast hne)
    obtain rfl : s = s' := hb.system.name?_inj hs hs'
    rw [hnone] at ht
    cases ht
  · intro hnil
    cases ht : b.next? s c with
    | none => rfl
    | some t =>
      obtain ⟨q, -, hlast⟩ := (h.next?_eq_some_iff hb hs).1 ht
      rw [hnil] at hlast
      cases hlast

end Records

/-! ## Building -/

section Build

variable {b : Builder} {xs : List Declaration}

theorem Records.names_ne_nil_iff (h : b.Records xs) :
    b.names ≠ [] ↔ xs.filterMap History.name? ≠ [] := by
  rw [h.names_eq, ne_eq, eraseDups_eq_nil_iff]

theorem Records.alphabet_ne_nil_iff (h : b.Records xs) :
    b.alphabet ≠ [] ↔ xs.filterMap History.symbol? ≠ [] := by
  rw [h.alphabet_eq, ne_eq, eraseDups_eq_nil_iff]

theorem Records.start_ne_none_iff (h : b.Records xs) (hb : b.WellFormed) :
    b.start ≠ none ↔ xs.filterMap History.start? ≠ [] := by
  constructor
  · intro hstart hnil
    obtain ⟨s, hs⟩ := Option.ne_none_iff_exists'.1 hstart
    obtain ⟨n, -, hlast⟩ := h.exists_name_of_start hb hs
    rw [hnil] at hlast
    cases hlast
  · intro hne hstart
    obtain ⟨s, hs, -⟩ := (h.start_iff _).1 (List.getLast?_eq_some_getLast hne)
    rw [hstart] at hs
    cases hs

/-- A builder can build exactly when a state, a symbol and a start were declared. -/
theorem Records.exists_build_iff (h : b.Records xs) (hb : b.WellFormed) :
    (∃ d, b.build = .ok d) ↔ xs.filterMap History.name? ≠ [] ∧
      xs.filterMap History.symbol? ≠ [] ∧ xs.filterMap History.start? ≠ [] := by
  rw [← h.names_ne_nil_iff, ← h.alphabet_ne_nil_iff, ← h.start_ne_none_iff hb]
  constructor
  · rintro ⟨d, hd⟩
    obtain ⟨hnames, halphabet, hstart, -⟩ := build_eq_ok_iff.1 hd
    exact ⟨hnames, halphabet, by rw [hstart]; exact Option.some_ne_none d.start⟩
  · rintro ⟨hnames, halphabet, hstart⟩
    obtain ⟨s, hs⟩ := Option.ne_none_iff_exists'.1 hstart
    exact ⟨⟨b.toTransitionSystem, s⟩, build_eq_ok_iff.2 ⟨hnames, halphabet, hs, rfl⟩⟩

end Build

end Builder

end Acceptor
