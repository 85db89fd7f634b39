/-
  Histories of a builder, read without the builder.

  A history is the list of declarations that were made, all of them successful.  Read on its own, a
  history says which names, symbols, starts, accepting states and targets were given, and in which
  order; no state number occurs in it.

  1. **First occurrences** — lists without the repetitions of what came before.

  2. **Reading** — `name?`, `symbol?`, `start?`, `accept?` and `target?` pick out what one
     declaration says of each kind; a history is read by `filterMap`.

  3. **Legality** — `Permits xs x` says when `x` may be declared after `xs`, and `Legal xs ys` when
     all of `ys` may be, one after the other.
-/
import Acceptor.Builder.Declaration
import Mathlib.Data.List.Basic
import Mathlib.Data.List.Induction

namespace Acceptor

/-! ## First occurrences -/

section FirstOccurrences

variable {α : Type} [BEq α] {a : α} {xs : List α}

theorem eraseDups_eq_nil_iff : xs.eraseDups = [] ↔ xs = [] := by
  cases xs with
  | nil => rfl
  | cons a xs => simp [List.eraseDups_cons]

variable [LawfulBEq α]

/-- An element that occurred before is no first occurrence. -/
theorem eraseDups_concat_of_mem (h : a ∈ xs) : (xs ++ [a]).eraseDups = xs.eraseDups := by
  rw [List.eraseDups_append]
  simp [List.removeAll, h]

/-- An element that did not occur before is the last first occurrence. -/
theorem eraseDups_concat_of_not_mem (h : a ∉ xs) :
    (xs ++ [a]).eraseDups = xs.eraseDups ++ [a] := by
  rw [List.eraseDups_append]
  simp [List.removeAll, List.eraseDups_cons, h]

/-- Where nothing is repeated, every occurrence is the first. -/
theorem eraseDups_of_nodup (h : xs.Nodup) : xs.eraseDups = xs := by
  induction xs with
  | nil => rfl
  | cons a xs ih =>
    obtain ⟨ha, hxs⟩ := List.nodup_cons.1 h
    have hkeep : xs.filter (fun b => !b == a) = xs := by
      rw [List.filter_eq_self]
      intro b hb
      have hne : b ≠ a := by
        rintro rfl
        exact ha hb
      simpa using hne
    rw [List.eraseDups_cons, hkeep, ih hxs]

/-- No first occurrence is one again. -/
theorem nodup_eraseDups (xs : List α) : xs.eraseDups.Nodup := by
  induction xs using List.reverseRecOn with
  | nil => exact List.nodup_nil
  | append_singleton xs a ih =>
    by_cases ha : a ∈ xs
    · rw [eraseDups_concat_of_mem ha]
      exact ih
    · rw [eraseDups_concat_of_not_mem ha, List.nodup_append]
      refine ⟨ih, by simp, ?_⟩
      intro b hb c hc hbc
      rw [List.mem_singleton.1 hc] at hbc
      exact ha (hbc ▸ List.mem_eraseDups.1 hb)

/-- What occurred before adds no first occurrence, whatever follows. -/
theorem eraseDups_append_of_subset {ys : List α} (h : ys ⊆ xs) (zs : List α) :
    (xs ++ (ys ++ zs)).eraseDups = (xs ++ zs).eraseDups := by
  have hnone : ys.removeAll xs = [] := by
    rw [List.removeAll, List.filter_eq_nil_iff]
    intro a ha
    simpa using h ha
  have hrest : (ys ++ zs).removeAll xs = zs.removeAll xs := by
    rw [List.removeAll, List.filter_append]
    show ys.removeAll xs ++ _ = _
    rw [hnone, List.nil_append]
    rfl
  rw [List.eraseDups_append, List.eraseDups_append, hrest]

/-- Distinct elements stay distinct, so first occurrences go to first occurrences. -/
theorem map_eraseDups {β : Type} [BEq β] [LawfulBEq β] {g : α → β}
    (hg : Function.Injective g) (xs : List α) :
    xs.eraseDups.map g = (xs.map g).eraseDups := by
  -- induction from the right: the last element is a first occurrence or it is dropped
  induction xs using List.reverseRecOn with
  | nil => rfl
  | append_singleton xs a ih =>
    have hmem : g a ∈ xs.map g ↔ a ∈ xs := List.mem_map_of_injective hg
    rw [List.map_append, List.map_singleton]
    by_cases ha : a ∈ xs
    · rw [eraseDups_concat_of_mem ha, eraseDups_concat_of_mem (hmem.2 ha), ih]
    · rw [eraseDups_concat_of_not_mem ha, eraseDups_concat_of_not_mem (mt hmem.1 ha),
        List.map_append, List.map_singleton, ih]

end FirstOccurrences

/-! ## Reading a history -/

namespace History

/-- The name that a declaration gives to a state. -/
def name? : Declaration → Option String
  | .state name => some name
  | _ => none

/-- The symbol that a declaration adds to the alphabet. -/
def symbol? : Declaration → Option Char
  | .symbol token => (symbolOf token).toOption
  | _ => none

/-- The state that a declaration makes the start. -/
def start? : Declaration → Option String
  | .start name => some name
  | _ => none

/-- The state that a declaration makes accepting. -/
def accept? : Declaration → Option String
  | .accept name => some name
  | _ => none

/-- The target that a declaration gives to a state and a symbol. -/
def target? (source : String) (symbol : Char) : Declaration → Option String
  | .transition p c target => if p = source ∧ c = symbol then some target else none
  | _ => none

/-! What a declaration adds to a reading of the history before it. -/

section Concat

variable {α : Type} {f : Declaration → Option α} {xs : List Declaration} {x : Declaration} {a : α}

theorem filterMap_concat_of_none (h : f x = none) : (xs ++ [x]).filterMap f = xs.filterMap f := by
  rw [List.filterMap_append, List.filterMap_cons_none h, List.filterMap_nil, List.append_nil]

theorem filterMap_concat_of_some (h : f x = some a) :
    (xs ++ [x]).filterMap f = xs.filterMap f ++ [a] := by
  rw [List.filterMap_append, List.filterMap_cons_some h, List.filterMap_nil]

end Concat

/-! ## Legality -/

/-- A declaration uses only what a history declares. -/
def Permits (xs : List Declaration) : Declaration → Prop
  | .state _ => True
  | .symbol token => ∃ c, token.toList = [c]
  | .start name | .accept name => name ∈ xs.filterMap name?
  | .transition source symbol target =>
    source ∈ xs.filterMap name? ∧ symbol ∈ xs.filterMap symbol? ∧ target ∈ xs.filterMap name?

/-- Every declaration of the second list uses only what was declared before it. -/
def Legal : List Declaration → List Declaration → Prop
  | _, [] => True
  | xs, y :: ys => Permits xs y ∧ Legal (xs ++ [y]) ys

@[simp] theorem legal_nil (xs : List Declaration) : Legal xs [] := trivial

theorem legal_cons {xs ys : List Declaration} {y : Declaration} :
    Legal xs (y :: ys) ↔ Permits xs y ∧ Legal (xs ++ [y]) ys := Iff.rfl

theorem legal_append {xs ys zs : List Declaration} :
    Legal xs (ys ++ zs) ↔ Legal xs ys ∧ Legal (xs ++ ys) zs := by
  induction ys generalizing xs with
  | nil => simp
  | cons y ys ih =>
    rw [List.cons_append, legal_cons, legal_cons, ih, and_assoc, List.append_assoc,
      List.singleton_append]

/-- Declarations of which none lets another in are legal when the history permits each of them. -/
theorem legal_iff_forall {xs ys : List Declaration}
    (h : ∀ zs, (∀ z ∈ zs, z ∈ ys) → ∀ y ∈ ys, Permits (xs ++ zs) y ↔ Permits xs y) :
    Legal xs ys ↔ ∀ y ∈ ys, Permits xs y := by
  induction ys generalizing xs with
  | nil => simp
  | cons y ys ih =>
    have hy : ∀ z ∈ [y], z ∈ y :: ys := by
      intro z hz
      rw [List.mem_singleton.1 hz]
      exact List.mem_cons_self
    have hys : ∀ zs, (∀ z ∈ zs, z ∈ ys) → ∀ w ∈ ys,
        Permits (xs ++ [y] ++ zs) w ↔ Permits (xs ++ [y]) w := by
      intro zs hzs w hw
      have hw' : w ∈ y :: ys := List.mem_cons_of_mem y hw
      have hsub : ∀ z ∈ [y] ++ zs, z ∈ y :: ys := by
        intro z hz
        rcases List.mem_append.1 hz with hz | hz
        · exact hy z hz
        · exact List.mem_cons_of_mem y (hzs z hz)
      rw [List.append_assoc, h _ hsub w hw', h [y] hy w hw']
    rw [legal_cons, ih hys, List.forall_mem_cons]
    -- to have declared `y` first makes no difference to the others
    refine and_congr_right fun _ => forall_congr' fun w => forall_congr' fun hw => ?_
    exact h [y] hy w (List.mem_cons_of_mem y hw)

/-- What a history permits depends on its names and symbols only. -/
theorem permits_append_of_silent {xs zs : List Declaration}
    (hnames : zs.filterMap name? = []) (hsymbols : zs.filterMap symbol? = []) (y : Declaration) :
    Permits (xs ++ zs) y ↔ Permits xs y := by
  unfold Permits
  rw [List.filterMap_append, List.filterMap_append, hnames, hsymbols, List.append_nil,
    List.append_nil]

/-- Declarations that give neither names nor symbols let nothing in. -/
theorem permits_append_of_forall_silent {xs zs : List Declaration}
    (h : ∀ z ∈ zs, name? z = none ∧ symbol? z = none) (y : Declaration) :
    Permits (xs ++ zs) y ↔ Permits xs y :=
  permits_append_of_silent (List.filterMap_eq_nil_iff.2 fun z hz => (h z hz).1)
    (List.filterMap_eq_nil_iff.2 fun z hz => (h z hz).2) y

/-- Declarations that give neither names nor symbols are legal when the history permits each of
    them. -/
theorem legal_iff_forall_of_silent {xs ys : List Declaration}
    (h : ∀ y ∈ ys, name? y = none ∧ symbol? y = none) :
    Legal xs ys ↔ ∀ y ∈ ys, Permits xs y :=
  legal_iff_forall fun _ hzs y _ => permits_append_of_forall_silent (fun z hz => h z (hzs z hz)) y

end History

end Acceptor
