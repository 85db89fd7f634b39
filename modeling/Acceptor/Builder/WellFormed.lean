/-
  No declaration leads a builder astray.

  1. **The invariant** — `Builder.WellFormed`: the system is well formed, and the start is one of
     its states.

  2. **Every declaration keeps it** — `WellFormed.declare`, with one lemma for each way in which a
     system grows: by a state, a symbol, an accepting state or a binding.

  3. **Every history keeps it** — `WellFormed.replay`, and what is built from it is well formed and
     has a start among its states (`WellFormed.build`).
-/
import Acceptor.Builder.Declaration

namespace Acceptor

/-! ## How a system grows -/

namespace TransitionSystem

variable {m : TransitionSystem}

/-- The state of a name is one of the states. -/
theorem lt_of_state?_eq_some {name : String} {s : Nat} (h : m.state? name = some s) :
    s < m.stateCount := by
  obtain ⟨hlt, -⟩ := List.idxOf?_eq_some_iff.1 h
  exact hlt

/-- A name without a state is not among the names. -/
theorem not_mem_of_state?_eq_none {name : String} (h : m.state? name = none) : name ∉ m.names :=
  List.idxOf?_eq_none_iff.1 h

namespace WellFormed

/-- A system stays well formed when a new name is added. -/
theorem addName (hm : m.WellFormed) {name : String} (hname : name ∉ m.names) :
    WellFormed { m with names := m.names ++ [name] } where
  names_nodup := by
    refine List.nodup_append.2 ⟨hm.names_nodup, by simp, ?_⟩
    intro a ha b hb
    rw [List.mem_singleton] at hb
    exact fun hab => hname (hb ▸ hab ▸ ha)
  alphabet_nodup := hm.alphabet_nodup
  accepting_lt s hs := by
    have := hm.accepting_lt s hs
    simp only [stateCount, List.length_append] at this ⊢
    omega
  binding_declared s c t hb := by
    obtain ⟨hs, hc, ht⟩ := hm.binding_declared s c t hb
    simp only [stateCount, List.length_append] at hs ht ⊢
    exact ⟨by omega, hc, by omega⟩

/-- A system stays well formed when a new symbol is added. -/
theorem addSymbol (hm : m.WellFormed) {c : Char} (hc : c ∉ m.alphabet) :
    WellFormed { m with alphabet := m.alphabet ++ [c] } where
  names_nodup := hm.names_nodup
  alphabet_nodup := by
    refine List.nodup_append.2 ⟨hm.alphabet_nodup, by simp, ?_⟩
    intro a ha b hb
    rw [List.mem_singleton] at hb
    exact fun hab => hc (hb ▸ hab ▸ ha)
  accepting_lt := hm.accepting_lt
  binding_declared s x t hb := by
    obtain ⟨hs, hx, ht⟩ := hm.binding_declared s x t hb
    exact ⟨hs, List.mem_append_left [c] hx, ht⟩

/-- A system stays well formed when a state becomes accepting. -/
theorem addAccepting (hm : m.WellFormed) {s : Nat} (hs : s < m.stateCount) :
    WellFormed { m with accepting := m.accepting.insert s } where
  names_nodup := hm.names_nodup
  alphabet_nodup := hm.alphabet_nodup
  accepting_lt t ht := by
    rcases List.mem_insert_iff.1 ht with rfl | ht
    · exact hs
    · exact hm.accepting_lt t ht
  binding_declared := hm.binding_declared

/-- A system stays well formed when a state and a symbol are bound to a state. -/
theorem addBinding (hm : m.WellFormed) {s t : Nat} {c : Char} (hs : s < m.stateCount)
    (hc : c ∈ m.alphabet) (ht : t < m.stateCount) :
    WellFormed { m with bindings := ((s, c), t) :: m.bindings } where
  names_nodup := hm.names_nodup
  alphabet_nodup := hm.alphabet_nodup
  accepting_lt := hm.accepting_lt
  binding_declared s' c' t' hb := by
    rcases List.mem_cons.1 hb with heq | hb
    · simp only [Prod.mk.injEq] at heq
      obtain ⟨⟨rfl, rfl⟩, rfl⟩ := heq
      exact ⟨hs, hc, ht⟩
    · exact hm.binding_declared s' c' t' hb

end WellFormed

end TransitionSystem

namespace Builder

/-! ## The invariant -/

/-- The system is well formed and the start is one of its states. -/
structure WellFormed (b : Builder) : Prop where
  system : b.toTransitionSystem.WellFormed
  start_lt : ∀ s, b.start = some s → s < b.stateCount

/-- A builder to which nothing was declared is well formed. -/
theorem wellFormed_empty : ({} : Builder).WellFormed where
  system :=
    { names_nodup := List.nodup_nil
      alphabet_nodup := List.nodup_nil
      accepting_lt := by simp
      binding_declared := by simp }
  start_lt := by simp

namespace WellFormed

/-! ## Every declaration keeps it -/

variable {b b' : Builder}

theorem addState (hb : b.WellFormed) (name : String) : (b.addState name).2.WellFormed := by
  unfold Builder.addState
  split
  · exact hb
  · rename_i hname
    refine ⟨hb.system.addName (TransitionSystem.not_mem_of_state?_eq_none hname), ?_⟩
    intro s hs
    have := hb.start_lt s hs
    simp only [TransitionSystem.stateCount, List.length_append] at this ⊢
    omega

theorem addSymbol (hb : b.WellFormed) {token : String} {c : Char}
    (h : b.addSymbol token = .ok (c, b')) : b'.WellFormed := by
  unfold Builder.addSymbol at h
  cases hc : symbolOf token with
  | error cause => simp [hc, Except.map] at h
  | ok x =>
    simp only [hc, Except.map, Except.ok.injEq, Prod.mk.injEq] at h
    obtain ⟨-, rfl⟩ := h
    split
    · exact hb
    · rename_i hnew
      have hx : x ∉ b.alphabet := fun hx => hnew (TransitionSystem.hasSymbol_iff.2 hx)
      exact ⟨hb.system.addSymbol hx, hb.start_lt⟩

theorem setStart (hb : b.WellFormed) {name : String} {old : Option Nat}
    (h : b.setStart name = .ok (old, b')) : b'.WellFormed := by
  unfold Builder.setStart at h
  split at h
  · rename_i s hs
    simp only [Except.ok.injEq, Prod.mk.injEq] at h
    obtain ⟨-, rfl⟩ := h
    refine ⟨hb.system, ?_⟩
    rintro t ht
    rw [← Option.some.inj ht]
    exact TransitionSystem.lt_of_state?_eq_some hs
  · simp at h

theorem addAccept (hb : b.WellFormed) {name : String} {s : Nat}
    (h : b.addAccept name = .ok (s, b')) : b'.WellFormed := by
  unfold Builder.addAccept at h
  split at h
  · rename_i t ht
    simp only [Except.ok.injEq, Prod.mk.injEq] at h
    obtain ⟨-, rfl⟩ := h
    exact ⟨hb.system.addAccepting (TransitionSystem.lt_of_state?_eq_some ht), hb.start_lt⟩
  · simp at h

theorem addTransition (hb : b.WellFormed) {source target : String} {c : Char} {old : Option Nat}
    (h : b.addTransition source c target = .ok (old, b')) : b'.WellFormed := by
  unfold Builder.addTransition at h
  split at h
  · rename_i s t hs hc ht
    simp only [Except.ok.injEq, Prod.mk.injEq] at h
    obtain ⟨-, rfl⟩ := h
    exact ⟨hb.system.addBinding (TransitionSystem.lt_of_state?_eq_some hs)
      (TransitionSystem.hasSymbol_iff.1 hc) (TransitionSystem.lt_of_state?_eq_some ht),
      hb.start_lt⟩
  · simp at h

/-- A declaration that succeeds keeps the invariant. -/
theorem declare (hb : b.WellFormed) {x : Declaration} {answer : Answer}
    (h : b.declare x = .ok (answer, b')) : b'.WellFormed := by
  cases x with
  | state name =>
    simp only [Builder.declare, Except.ok.injEq, Prod.mk.injEq] at h
    exact h.2 ▸ hb.addState name
  | symbol token =>
    cases hx : b.addSymbol token with
    | error cause => simp [Builder.declare, hx, Except.map] at h
    | ok r =>
      simp only [Builder.declare, hx, Except.map, Except.ok.injEq, Prod.mk.injEq] at h
      exact h.2 ▸ hb.addSymbol hx
  | start name =>
    cases hx : b.setStart name with
    | error cause => simp [Builder.declare, hx, Except.map] at h
    | ok r =>
      simp only [Builder.declare, hx, Except.map, Except.ok.injEq, Prod.mk.injEq] at h
      exact h.2 ▸ hb.setStart hx
  | accept name =>
    cases hx : b.addAccept name with
    | error cause => simp [Builder.declare, hx, Except.map] at h
    | ok r =>
      simp only [Builder.declare, hx, Except.map, Except.ok.injEq, Prod.mk.injEq] at h
      exact h.2 ▸ hb.addAccept hx
  | transition source c target =>
    cases hx : b.addTransition source c target with
    | error cause => simp [Builder.declare, hx, Except.map] at h
    | ok r =>
      simp only [Builder.declare, hx, Except.map, Except.ok.injEq, Prod.mk.injEq] at h
      exact h.2 ▸ hb.addTransition hx

/-! ## Every history keeps it -/

/-- A declaration keeps the invariant, whether it succeeds or fails. -/
theorem attempt (hb : b.WellFormed) (x : Declaration) : (b.attempt x).2.WellFormed := by
  unfold Builder.attempt
  split
  · rename_i h
    exact hb.declare h
  · exact hb

/-- So does a list of them. -/
theorem replay (hb : b.WellFormed) (xs : List Declaration) : (b.replay xs).2.WellFormed := by
  induction xs generalizing b with
  | nil => exact hb
  | cons x xs ih => exact ih (hb.attempt x)

/-- What a well-formed builder builds is well formed, and its start is one of its states. -/
theorem build (hb : b.WellFormed) {d : Automaton} (h : b.build = .ok d) :
    d.toTransitionSystem.WellFormed ∧ d.start < d.stateCount := by
  obtain ⟨-, -, hstart, hsystem⟩ := build_eq_ok_iff.1 h
  rw [hsystem]
  exact ⟨hb.system, hb.start_lt d.start hstart⟩

end WellFormed

end Builder

end Acceptor
