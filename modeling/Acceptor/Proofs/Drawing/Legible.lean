/-
  A drawing can be told from its text.

  Whatever is written in a drawing shows by itself where it ends, so two texts that begin with it
  and are equal were written from the same thing and go on in the same way.  Each part has a lemma
  that says so, named `_append_inj`, and the lemma of the whole chains those of its parts.

  1. **Codes** — `IsCode`: words for letters that can be told apart at the front of a text, and from
     its end.  Texts of words have the same letters when they are equal
     (`IsCode.flatMap_append_inj`).

  2. **Quotes** — a quote ends at the first double quote without a backslash in front of it that
     counts, whatever was quoted (`quote_append_inj`).

  3. **Labels** — the symbols of a label are its characters at even places, so it does not matter
     that a comma can be a symbol (`label_inj`).

  4. **Statements** — the lines are words, and the line that closes the graph ends them.

  Main result: `write_inj`, legible statements that are written alike are the same.
-/
import Acceptor.Drawing

namespace Acceptor.Drawing

/-! ## Codes -/

section Codes

variable {α β : Type} {word : α → List β} {legible : α → Prop} {isEnd : List β → Prop}

/-- The words of legible letters can be told apart, and no end begins like one of them. -/
structure IsCode (word : α → List β) (legible : α → Prop) (isEnd : List β → Prop) : Prop where
  append_inj : ∀ {a b u v}, legible a → legible b → word a ++ u = word b ++ v → a = b ∧ u = v
  not_isEnd : ∀ {a u}, legible a → ¬ isEnd (word a ++ u)

/-- Texts of words that are equal have the same letters and the same end.  Induction on the letters
    of the one; those of the other must keep up. -/
theorem IsCode.flatMap_append_inj (hword : IsCode word legible isEnd) {as bs : List α}
    {u v : List β} (has : ∀ a ∈ as, legible a) (hbs : ∀ b ∈ bs, legible b) (hu : isEnd u)
    (hv : isEnd v) (h : as.flatMap word ++ u = bs.flatMap word ++ v) : as = bs ∧ u = v := by
  induction as generalizing bs with
  | nil =>
    cases bs with
    | nil => exact ⟨rfl, h⟩
    | cons b bs =>
      rw [List.flatMap_nil, List.nil_append, List.flatMap_cons, List.append_assoc] at h
      rw [h] at hu
      exact absurd hu (hword.not_isEnd (hbs b List.mem_cons_self))
  | cons a as ih =>
    rw [List.forall_mem_cons] at has
    cases bs with
    | nil =>
      rw [List.flatMap_nil, List.nil_append, List.flatMap_cons, List.append_assoc] at h
      rw [← h] at hv
      exact absurd hv (hword.not_isEnd has.1)
    | cons b bs =>
      rw [List.forall_mem_cons] at hbs
      rw [List.flatMap_cons, List.flatMap_cons, List.append_assoc, List.append_assoc] at h
      obtain ⟨rfl, hrest⟩ := hword.append_inj has.1 hbs.1 h
      obtain ⟨rfl, rfl⟩ := ih has.2 hbs.2 hrest
      exact ⟨rfl, rfl⟩

end Codes

variable {u v : List Char}

/-! ## Quotes -/

/-- A character in quotes is itself, or stands behind a backslash; the second is so for double
    quotes and backslashes. -/
theorem quoteChar_cases (c : Char) :
    (quote.quoteChar c = ['\\', c]) ∨ (quote.quoteChar c = [c] ∧ c ≠ '\\' ∧ c ≠ '"') := by
  unfold quote.quoteChar
  by_cases h : (c = '\\' || c = '"') = true
  · exact .inl (if_pos h)
  · right
    rw [if_neg h]
    simpa using h

/-- The characters in quotes are a code, and a double quote ends it. -/
theorem isCode_quoteChar : IsCode quote.quoteChar (fun _ => True) (·.head? = some '"') where
  append_inj := by
    intro a b u v _ _ h
    rcases quoteChar_cases a with ha | ⟨ha, hane, -⟩ <;>
      rcases quoteChar_cases b with hb | ⟨hb, hbne, -⟩ <;> rw [ha, hb] at h
    · simpa using h
    · -- only a backslash begins with a backslash
      exact absurd (List.cons_eq_cons.1 h).1.symm hbne
    · exact absurd (List.cons_eq_cons.1 h).1 hane
    · simpa using h
  not_isEnd := by
    intro a u _ hend
    rcases quoteChar_cases a with ha | ⟨ha, -, hne⟩ <;> rw [ha] at hend
    · simp at hend
    · exact hne (Option.some.inj hend)

theorem toList_quote (s : String) :
    (quote s).toList = '"' :: (s.toList.flatMap quote.quoteChar ++ ['"']) := by
  rw [quote, String.toList_ofList]
  rfl

/-- A quote shows where it ends. -/
theorem quote_append_inj {s t : String} (h : (quote s).toList ++ u = (quote t).toList ++ v) :
    s = t ∧ u = v := by
  rw [toList_quote, toList_quote, List.cons_append, List.cons_append, List.append_assoc,
    List.append_assoc] at h
  obtain ⟨hs, hrest⟩ := isCode_quoteChar.flatMap_append_inj (by simp) (by simp) rfl rfl
    (List.cons_eq_cons.1 h).2
  exact ⟨String.toList_injective hs, (List.cons_eq_cons.1 hrest).2⟩

/-! ## Labels -/

/-- The label of an edge. -/
def label (symbols : List Char) : String := ",".intercalate (symbols.map String.singleton)

theorem toList_label_cons (c : Char) (symbols : List Char) :
    (label (c :: symbols)).toList = c :: symbols.flatMap fun x => [',', x] := by
  rw [label, String.toList_intercalate]
  induction symbols generalizing c with
  | nil => simp
  | cons x symbols ih =>
    rw [List.map_cons, List.map_cons, List.map_cons, List.map_cons, List.intercalate_cons_cons,
      ← List.map_cons, ← List.map_cons, ih]
    simp

/-- The symbols behind the first are a code. -/
theorem isCode_symbol : IsCode (fun c : Char => [',', c]) (fun _ => True) (· = []) where
  append_inj := by
    intro a b u v _ _ h
    simpa using h
  not_isEnd := by simp

/-- A label shows its symbols, if there are any. -/
theorem label_inj {xs ys : List Char} (hxs : xs ≠ []) (hys : ys ≠ []) (h : label xs = label ys) :
    xs = ys := by
  obtain ⟨x, xs, rfl⟩ := List.exists_cons_of_ne_nil hxs
  obtain ⟨y, ys, rfl⟩ := List.exists_cons_of_ne_nil hys
  have hchars := congrArg String.toList h
  rw [toList_label_cons, toList_label_cons] at hchars
  obtain ⟨rfl, hrest⟩ := List.cons_eq_cons.1 hchars
  rw [← List.append_nil (List.flatMap _ xs), ← List.append_nil (List.flatMap _ ys)] at hrest
  obtain ⟨rfl, -⟩ := isCode_symbol.flatMap_append_inj (by simp) (by simp) rfl rfl hrest
  rfl

/-! ## Statements -/

theorem Shape.text_append_inj {x y : Shape} (h : x.text.toList ++ u = y.text.toList ++ v) :
    x = y ∧ u = v := by
  cases x <;> cases y <;> simp [Shape.text] at h ⊢ <;> exact h

/-- A name of a node that occurs in drawings: a quote, or the mark of the start. -/
def NodeName.Legible : NodeName → Prop
  | .bare word => .bare word = startMark
  | .quoted _ => True

theorem NodeName.text_append_inj {x y : NodeName} (hx : x.Legible) (hy : y.Legible)
    (h : x.text.toList ++ u = y.text.toList ++ v) : x = y ∧ u = v := by
  cases x with
  | bare word =>
    cases hx
    cases y with
    | bare word =>
      cases hy
      exact ⟨rfl, List.append_cancel_left h⟩
    | quoted name =>
      simp [NodeName.text, toList_quote] at h
  | quoted name =>
    cases y with
    | bare word =>
      cases hy
      simp [NodeName.text, toList_quote] at h
    | quoted name' =>
      obtain ⟨rfl, rfl⟩ := quote_append_inj h
      exact ⟨rfl, rfl⟩

/-- A statement that can be told from its line: its names can. -/
def Statement.Legible : Statement → Prop
  | .node name _ => name.Legible
  | .edge source target _ => source.Legible ∧ target.Legible

/-- What stands behind the target of an edge. -/
def edgeEnd : List Char → List Char
  | [] => ['\n']
  | c :: symbols => " [label=".toList ++ ((quote (label (c :: symbols))).toList ++ "]\n".toList)

theorem edgeEnd_nil : edgeEnd [] = ['\n'] := rfl

theorem edgeEnd_cons (c : Char) (symbols : List Char) :
    edgeEnd (c :: symbols) =
      " [label=".toList ++ ((quote (label (c :: symbols))).toList ++ "]\n".toList) := rfl

theorem edgeEnd_append_inj {xs ys : List Char} (h : edgeEnd xs ++ u = edgeEnd ys ++ v) :
    xs = ys ∧ u = v := by
  cases xs with
  | nil =>
    cases ys with
    | nil =>
      rw [List.append_cancel_left_eq] at h
      exact ⟨rfl, h⟩
    | cons y ys =>
      rw [edgeEnd_nil, edgeEnd_cons] at h
      simp at h
  | cons x xs =>
    cases ys with
    | nil =>
      rw [edgeEnd_nil, edgeEnd_cons] at h
      simp at h
    | cons y ys =>
      rw [edgeEnd_cons, edgeEnd_cons, List.append_assoc, List.append_assoc, List.append_assoc,
        List.append_assoc, List.append_cancel_left_eq] at h
      obtain ⟨hlabel, hrest⟩ := quote_append_inj h
      rw [List.append_cancel_left_eq] at hrest
      exact ⟨label_inj (List.cons_ne_nil x xs) (List.cons_ne_nil y ys) hlabel, hrest⟩

/-- A layout in which nodes cannot be taken for edges, nor the last line for a statement. -/
structure Layout.IsPlain (layout : Layout) : Prop where
  gap : ∀ c ∈ layout.gap.toList, c = ' '
  closing : layout.closing.toList.head? ≠ some ' '

theorem Layout.isPlain_spaced : Layout.spaced.IsPlain where
  gap := by simp [Layout.spaced]
  closing := by simp [Layout.spaced]

theorem Layout.isPlain_compact : Layout.compact.IsPlain where
  gap := by simp [Layout.compact]
  closing := by simp [Layout.compact]

section Layout

variable {layout : Layout}

theorem toList_line_node (layout : Layout) (name : NodeName) (shape : Shape) :
    (Statement.line layout (.node name shape)).toList =
      "  ".toList ++ (name.text.toList ++
        (layout.gap.toList ++ ("[shape=".toList ++ (shape.text.toList ++ "]\n".toList)))) := by
  simp only [Statement.line, String.toList_append, List.append_assoc]

theorem toList_line_edge (layout : Layout) (source target : NodeName) (symbols : List Char) :
    (Statement.line layout (.edge source target symbols)).toList =
      "  ".toList ++ (source.text.toList ++
        (" -> ".toList ++ (target.text.toList ++ edgeEnd symbols))) := by
  cases symbols with
  | nil =>
    have hend : "\n".toList = ['\n'] := by decide
    simp only [Statement.line, String.toList_append, List.append_assoc, edgeEnd_nil, hend]
  | cons c symbols =>
    simp only [Statement.line, String.toList_append, List.append_assoc, edgeEnd_cons, label]

/-- Behind a gap stands a bracket, and no arrow. -/
theorem gap_ne_arrow (hgap : ∀ c ∈ layout.gap.toList, c = ' ') :
    layout.gap.toList ++ ("[shape=".toList ++ u) ≠ " -> ".toList ++ v := by
  have hshape : "[shape=".toList = '[' :: "shape=".toList := by decide
  have harrow : " -> ".toList = [' ', '-', '>', ' '] := by decide
  rw [hshape, harrow]
  generalize layout.gap.toList = gap at hgap
  intro h
  match gap with
  | [] => cases h
  | [a] => cases h
  | a :: b :: gap =>
    obtain rfl : b = ' ' := hgap b (by simp)
    cases h

/-- The lines of legible statements are a code, and the last line of the drawing ends it. -/
theorem isCode_line (hlayout : layout.IsPlain) :
    IsCode (fun s => (Statement.line layout s).toList) Statement.Legible
      (· = layout.closing.toList) where
  append_inj := by
    intro x y u v hx hy h
    cases x with
    | node name shape =>
      cases y with
      | node name' shape' =>
        simp only [toList_line_node, List.append_assoc, List.append_cancel_left_eq] at h
        obtain ⟨rfl, hshape⟩ := NodeName.text_append_inj hx hy h
        rw [List.append_cancel_left_eq, List.append_cancel_left_eq] at hshape
        obtain ⟨rfl, hend⟩ := Shape.text_append_inj hshape
        rw [List.append_cancel_left_eq] at hend
        exact ⟨rfl, hend⟩
      | edge source target symbols =>
        simp only [toList_line_node, toList_line_edge, List.append_assoc,
          List.append_cancel_left_eq] at h
        obtain ⟨-, hmark⟩ := NodeName.text_append_inj hx hy.1 h
        exact absurd hmark (gap_ne_arrow hlayout.gap)
    | edge source target symbols =>
      cases y with
      | node name' shape' =>
        simp only [toList_line_node, toList_line_edge, List.append_assoc,
          List.append_cancel_left_eq] at h
        obtain ⟨-, hmark⟩ := NodeName.text_append_inj hx.1 hy h
        exact absurd hmark.symm (gap_ne_arrow hlayout.gap)
      | edge source' target' symbols' =>
        simp only [toList_line_edge, List.append_assoc, List.append_cancel_left_eq] at h
        obtain ⟨rfl, htarget⟩ := NodeName.text_append_inj hx.1 hy.1 h
        rw [List.append_cancel_left_eq] at htarget
        obtain ⟨rfl, hsymbols⟩ := NodeName.text_append_inj hx.2 hy.2 htarget
        obtain ⟨rfl, hend⟩ := edgeEnd_append_inj hsymbols
        exact ⟨rfl, hend⟩
  not_isEnd := by
    intro x u _ hend
    have hlead : "  ".toList = [' ', ' '] := by decide
    apply hlayout.closing
    rw [← hend]
    cases x with
    | node name shape =>
      rw [toList_line_node, hlead]
      rfl
    | edge source target symbols =>
      rw [toList_line_edge, hlead]
      rfl

/-! ## The main result -/

/-- The lines of a drawing, one after the other. -/
theorem toList_write (layout : Layout) (xs : List Statement) :
    (write layout xs).toList = layout.opening.toList ++
      (xs.flatMap (fun x => (Statement.line layout x).toList) ++ layout.closing.toList) := by
  rw [write, String.toList_append, String.toList_append, String.toList_join, List.flatMap_map,
    List.append_assoc]

/-- **Legible statements can be told from what is written.** -/
theorem write_inj (hlayout : layout.IsPlain) {xs ys : List Statement} (hxs : ∀ x ∈ xs, x.Legible)
    (hys : ∀ y ∈ ys, y.Legible) (h : write layout xs = write layout ys) : xs = ys := by
  have htexts := congrArg String.toList h
  rw [toList_write, toList_write] at htexts
  exact ((isCode_line hlayout).flatMap_append_inj hxs hys rfl rfl
    (List.append_cancel_left htexts)).1

end Layout

end Acceptor.Drawing
