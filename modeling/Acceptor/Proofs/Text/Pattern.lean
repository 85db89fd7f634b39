/-
  Patterns, and the ways in which they match.

  A pattern is matched at the front of a text, and there may be several ways to do it.  `ways` lists
  them in the order of preference: a repetition prefers to take more, and of two patterns the left
  one is preferred.  What counts is the first way, and of it only the groups (`captures?`).

  1. **Patterns** — `Pattern`, with `Way` for one way to match and `ways` for all of them.

  2. **Which ways there are** — `mem_ways_seq` and its like, one for each kind of pattern, and
     `mem_ways_spelling` for words.

  3. **Which way is the first** — a repetition takes all it can (`head?_runs`), and a sequence
     begins with the first way of its first part unless the second part fails there
     (`head?_ways_seq`).
-/
import Mathlib.Data.List.Forall2

namespace Acceptor.Text

/-! ## Patterns -/

/-- A pattern for the front of a text. -/
inductive Pattern
  /-- Nothing. -/
  | empty
  /-- One character of a class. -/
  | one (f : Char → Bool)
  /-- Any number of characters of a class, as many as can be. -/
  | many (f : Char → Bool)
  /-- One pattern behind another. -/
  | seq (p q : Pattern)
  /-- One of two patterns, the left one if it can be. -/
  | either (p q : Pattern)
  /-- A pattern whose text is kept. -/
  | group (p : Pattern)
  /-- The end of the text. -/
  | ending

namespace Pattern

/-- One way to match: what is taken, what the groups keep of it, and what is left. -/
structure Way where
  taken : List Char
  kept : List (List Char)
  rest : List Char

/-- One way, and another one from where it ends. -/
def Way.andThen (a b : Way) : Way := ⟨a.taken ++ b.taken, a.kept ++ b.kept, b.rest⟩

/-- The ways to take characters of a class, the longest first. -/
def runs (f : Char → Bool) : List Char → List Way
  | [] => [⟨[], [], []⟩]
  | c :: s =>
    (if f c then (runs f s).map fun w => ⟨c :: w.taken, w.kept, w.rest⟩ else []) ++
      [⟨[], [], c :: s⟩]

/-- The ways to match the front of a text, the preferred ones first. -/
def ways : Pattern → List Char → List Way
  | empty, s => [⟨[], [], s⟩]
  | one _, [] => []
  | one f, c :: s => if f c then [⟨[c], [], s⟩] else []
  | many f, s => runs f s
  | seq p q, s => (p.ways s).flatMap fun a => (q.ways a.rest).map a.andThen
  | either p q, s => p.ways s ++ q.ways s
  | group p, s => (p.ways s).map fun w => ⟨w.taken, w.taken :: w.kept, w.rest⟩
  | ending, [] => [⟨[], [], []⟩]
  | ending, _ :: _ => []

/-- What the groups keep when the pattern is matched in the preferred way. -/
def captures? (p : Pattern) (s : List Char) : Option (List (List Char)) :=
  (p.ways s).head?.map Way.kept

/-- A word, each letter of which may be any character that is `like` it. -/
def spelling (like : Char → Char → Bool) : List Char → Pattern
  | [] => empty
  | letter :: word => seq (one (like letter)) (spelling like word)

variable {f : Char → Bool} {like : Char → Char → Bool} {p q : Pattern} {a b w : Way}
  {s word : List Char}

/-! ## Which ways there are -/

theorem mem_ways_seq :
    w ∈ (seq p q).ways s ↔ ∃ a ∈ p.ways s, ∃ b ∈ q.ways a.rest, a.andThen b = w := by
  simp [ways]

theorem mem_ways_either : w ∈ (either p q).ways s ↔ w ∈ p.ways s ∨ w ∈ q.ways s := by
  simp [ways]

theorem mem_ways_group :
    w ∈ (group p).ways s ↔ ∃ a ∈ p.ways s, ⟨a.taken, a.taken :: a.kept, a.rest⟩ = w := by
  simp [ways]

theorem mem_ways_one :
    w ∈ (one f).ways s ↔ ∃ c rest, f c ∧ s = c :: rest ∧ w = ⟨[c], [], rest⟩ := by
  cases s with
  | nil => simp [ways]
  | cons c rest =>
    by_cases hc : f c = true
    · simp [ways, hc]
    · simp only [ways, hc, Bool.false_eq_true, if_false, List.not_mem_nil, false_iff]
      rintro ⟨d, rest', hd, heq, -⟩
      cases heq
      exact hc hd

/-- A word is spelled letter by letter. -/
theorem mem_ways_spelling :
    w ∈ (spelling like word).ways s ↔
      s = w.taken ++ w.rest ∧ w.kept = [] ∧
        List.Forall₂ (fun letter c => like letter c = true) word w.taken := by
  induction word generalizing s w with
  | nil =>
    obtain ⟨taken, kept, rest⟩ := w
    simp only [spelling, ways, List.mem_singleton, Way.mk.injEq, List.forall₂_nil_left_iff]
    constructor
    · rintro ⟨rfl, rfl, rfl⟩
      exact ⟨rfl, rfl, rfl⟩
    · rintro ⟨rfl, rfl, rfl⟩
      exact ⟨rfl, rfl, rfl⟩
  | cons letter word ih =>
    rw [spelling, mem_ways_seq]
    constructor
    · rintro ⟨a, ha, b, hb, rfl⟩
      obtain ⟨c, rest, hc, rfl, rfl⟩ := mem_ways_one.1 ha
      obtain ⟨hrest, hkept, hword⟩ := ih.1 hb
      exact ⟨congrArg (c :: ·) hrest, hkept, .cons hc hword⟩
    · obtain ⟨taken, kept, rest⟩ := w
      rintro ⟨rfl, rfl, hword⟩
      cases hword with
      | cons hc hword =>
        rename_i c taken
        exact ⟨⟨[c], [], taken ++ rest⟩, mem_ways_one.2 ⟨c, taken ++ rest, hc, rfl, rfl⟩,
          ⟨taken, [], rest⟩, ih.2 ⟨rfl, rfl, hword⟩, rfl⟩

/-! ## Which way is the first -/

/-- A repetition takes all it can. -/
theorem head?_runs (f : Char → Bool) (s : List Char) :
    (runs f s).head? = some ⟨s.takeWhile f, [], s.dropWhile f⟩ := by
  induction s with
  | nil => rfl
  | cons c s ih =>
    rw [runs, List.takeWhile_cons, List.dropWhile_cons]
    split
    · rw [List.head?_append, List.head?_map, ih]
      rfl
    · rfl

theorem head?_ways_seq (p q : Pattern) (s : List Char) :
    ((seq p q).ways s).head? =
      (p.ways s).findSome? fun a => (q.ways a.rest).head?.map a.andThen := by
  rw [ways, List.head?_flatMap]
  congr 1
  funext a
  exact List.head?_map

/-- Where the second part does not fail, a sequence takes the first way of both. -/
theorem head?_ways_seq_of_head? (ha : (p.ways s).head? = some a)
    (hb : (q.ways a.rest).head? = some b) : ((seq p q).ways s).head? = some (a.andThen b) := by
  obtain ⟨others, hways⟩ := List.head?_eq_some_iff.1 ha
  rw [head?_ways_seq, hways, List.findSome?_cons, hb]
  rfl

theorem head?_ways_group (p : Pattern) (s : List Char) :
    ((group p).ways s).head? =
      (p.ways s).head?.map fun w => ⟨w.taken, w.taken :: w.kept, w.rest⟩ := by
  rw [ways, List.head?_map]

end Pattern

end Acceptor.Text
