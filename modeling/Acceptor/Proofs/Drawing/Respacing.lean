/-
  A drawing that is printed again says the same.

  A drawing is not saved as it was written: a library for the DOT language reads it and prints it
  again.  The library keeps every identifier as it stands and changes nothing but the spacing.  It
  does so for statements, and not for their text: the marks of a statement may occur in a name, and
  are not touched there.

  1. **Pages** — `page layout lines`: one graph, line by line.  The identifiers in it are any that
     the language has, so no line depends on how a name was put into quotes.

  2. **Printers** — `Printer.Respaces` is what is expected of such a library: it reads every page in
     the one layout, and prints it in the other.

  3. **Drawings** — in quotes, every name is an identifier, so every drawing is a page
     (`exists_page_eq_write`).

  4. **A printer** — `respacer`, which passes over the text once, keeps to it
     (`respaces_respacer`).

  Main result: `render_faithful`.
-/
import Acceptor.Drawing.Printer
import Acceptor.Proofs.Drawing.Graph

namespace Acceptor

open Drawing

namespace Dot

/-! ## Pages -/

/-- The words that have a meaning in the language, in small or capital letters. -/
def keywords : List (List Char) :=
  ["node".toList, "edge".toList, "graph".toList, "digraph".toList, "subgraph".toList,
    "strict".toList]

/-- The inside of a quoted text.  There is a backslash in front of each double quote, and each
    backslash stands in front of a double quote or a second backslash. -/
inductive IsInside : List Char → Prop
  | nil : IsInside []
  | plain {c : Char} {w : List Char} (hdouble : c ≠ '"') (hslash : c ≠ '\\') (hw : IsInside w) :
      IsInside (c :: w)
  | escaped {c : Char} {w : List Char} (hc : c = '"' ∨ c = '\\') (hw : IsInside w) :
      IsInside ('\\' :: c :: w)

/-- An identifier: a word without a meaning, or a quoted text. -/
inductive IsIdentifier : List Char → Prop
  | word {w : List Char} (hword : isWord w = true) (hw : w.map Char.toLower ∉ keywords) :
      IsIdentifier w
  | quoted {w : List Char} (hw : IsInside w) : IsIdentifier ('"' :: (w ++ ['"']))

/-- An identifier as it is written. -/
structure Identifier where
  chars : List Char
  isIdentifier : IsIdentifier chars

/-- A line of a page: a node with an attribute, or an edge that may have one. -/
inductive Line
  | node (name key value : Identifier)
  | edge (source target : Identifier)
  | edgeWith (source target key value : Identifier)

/-- An attribute in its brackets. -/
def bracketed (key value : Identifier) : List Char :=
  '[' :: (key.chars ++ '=' :: (value.chars ++ [']']))

/-- A line as it is written. -/
def Line.chars (layout : Layout) : Line → List Char
  | node name key value =>
    [' ', ' '] ++ (name.chars ++ (layout.gap.toList ++ (bracketed key value ++ ['\n'])))
  | edge source target =>
    [' ', ' '] ++ (source.chars ++ ([' ', '-', '>', ' '] ++ (target.chars ++ ['\n'])))
  | edgeWith source target key value =>
    [' ', ' '] ++ (source.chars ++ ([' ', '-', '>', ' '] ++
      (target.chars ++ (' ' :: (bracketed key value ++ ['\n'])))))

/-- A graph as it is written. -/
def page (layout : Layout) (lines : List Line) : String :=
  String.ofList
    (layout.opening.toList ++ (lines.flatMap (Line.chars layout) ++ layout.closing.toList))

/-! ## Printers -/

/-- A printer understands every page that has a line, and changes its spacing: a second blank in
    front of the brace, none between a node and its attribute, and no newline at the end. -/
def Printer.Respaces (p : Printer) : Prop :=
  ∀ lines, lines ≠ [] →
    ∃ g, p.parse (page .spaced lines) = .ok g ∧ p.print g = page .compact lines

/-! ## Drawings -/

theorem isInside_flatMap_quoteChar (w : List Char) : IsInside (w.flatMap quote.quoteChar) := by
  induction w with
  | nil => exact .nil
  | cons c w ih =>
    rw [List.flatMap_cons, quote.quoteChar]
    split
    · rename_i hc
      have hspecial : c = '\\' ∨ c = '"' := by simpa using hc
      exact .escaped hspecial.symm ih
    · rename_i hc
      have hplain : c ≠ '\\' ∧ c ≠ '"' := by simpa using hc
      exact .plain hplain.2 hplain.1 ih

/-- Whatever is put into quotes, an identifier comes of it. -/
theorem isIdentifier_quote (s : String) : IsIdentifier (quote s).toList := by
  rw [toList_quote]
  exact .quoted (isInside_flatMap_quoteChar s.toList)

theorem isIdentifier_name {name : NodeName} (hname : name.Legible) :
    IsIdentifier name.text.toList := by
  cases name with
  | bare word =>
    cases hname
    exact .word (by decide) (by decide)
  | quoted name => exact isIdentifier_quote name

theorem isIdentifier_shape (shape : Shape) : IsIdentifier shape.text.toList := by
  cases shape <;> exact .word (by decide) (by decide)

/-- A statement is written as a line of a page. -/
theorem exists_line_eq {x : Drawing.Statement} (hx : x.Legible) :
    ∃ line : Line, ∀ layout, line.chars layout = (x.line layout).toList := by
  have hindent : "  ".toList = [' ', ' '] := by decide
  have harrow : " -> ".toList = [' ', '-', '>', ' '] := by decide
  have hclose : "]\n".toList = [']', '\n'] := by decide
  cases x with
  | node name shape =>
    have hkey : "[shape=".toList = '[' :: ("shape".toList ++ ['=']) := by decide
    refine ⟨.node ⟨_, isIdentifier_name hx⟩ ⟨"shape".toList, .word (by decide) (by decide)⟩
      ⟨_, isIdentifier_shape shape⟩, ?_⟩
    intro layout
    rw [toList_line_node, hindent, hkey, hclose]
    simp only [Line.chars, bracketed, List.append_assoc, List.cons_append, List.nil_append]
  | edge source target symbols =>
    cases symbols with
    | nil =>
      refine ⟨.edge ⟨_, isIdentifier_name hx.1⟩ ⟨_, isIdentifier_name hx.2⟩, ?_⟩
      intro layout
      rw [toList_line_edge, hindent, harrow, edgeEnd_nil]
      rfl
    | cons c symbols =>
      have hkey : " [label=".toList = ' ' :: '[' :: ("label".toList ++ ['=']) := by decide
      refine ⟨.edgeWith ⟨_, isIdentifier_name hx.1⟩ ⟨_, isIdentifier_name hx.2⟩
        ⟨"label".toList, .word (by decide) (by decide)⟩
          ⟨_, isIdentifier_quote (label (c :: symbols))⟩, ?_⟩
      intro layout
      rw [toList_line_edge, hindent, harrow, edgeEnd_cons, hkey, hclose]
      simp only [Line.chars, bracketed, List.append_assoc, List.cons_append, List.nil_append]

/-- Legible statements are written as a page, and it is the same page in all layouts. -/
theorem exists_page_eq_write {xs : List Drawing.Statement} (hxs : ∀ x ∈ xs, x.Legible) :
    ∃ lines, lines.length = xs.length ∧ ∀ layout, page layout lines = write layout xs := by
  -- the lines are found before the layout is chosen
  have hlines : ∃ lines : List Line, lines.length = xs.length ∧ ∀ layout,
      lines.flatMap (Line.chars layout) = xs.flatMap fun x => (x.line layout).toList := by
    induction xs with
    | nil => exact ⟨[], rfl, fun _ => rfl⟩
    | cons x xs ih =>
      rw [List.forall_mem_cons] at hxs
      obtain ⟨line, hline⟩ := exists_line_eq hxs.1
      obtain ⟨lines, hlength, hlines⟩ := ih hxs.2
      refine ⟨line :: lines, congrArg (· + 1) hlength, ?_⟩
      intro layout
      rw [List.flatMap_cons, List.flatMap_cons, hline, hlines]
  obtain ⟨lines, hlength, hlines⟩ := hlines
  refine ⟨lines, hlength, ?_⟩
  intro layout
  rw [page, hlines, ← toList_write, String.ofList_toList]

end Dot

/-! ## The main result -/

namespace Automaton

variable {d d' : Automaton} {p : Dot.Printer}

/-- A drawing has a line at least, for the start is marked in it. -/
theorem drawing_ne_nil (d : Automaton) : d.drawing ≠ [] := by
  rw [drawing]
  exact List.append_ne_nil_of_right_ne_nil _ (List.cons_ne_nil _ _)

/-- A drawing is understood, and printed in the other layout. -/
theorem render_eq_ok (hp : p.Respaces) (d : Automaton) : d.render p = .ok (d.draw .compact) := by
  obtain ⟨lines, hlength, hpage⟩ :=
    Dot.exists_page_eq_write fun x (hx : x ∈ d.drawing) => legible_of_mem_drawing hx
  have hne : lines ≠ [] := by
    rintro rfl
    exact drawing_ne_nil d (List.eq_nil_of_length_eq_zero hlength.symm)
  obtain ⟨g, hg, hprint⟩ := hp lines hne
  have hparse : p.parse (d.draw .spaced) = .ok g := (congrArg p.parse (hpage .spaced)).symm.trans hg
  rw [render, hparse]
  exact congrArg Except.ok (hprint.trans (hpage .compact))

/-- What a drawing says does not depend on its layout. -/
theorem read_draw {layout : Layout} (hlayout : Dot.IsLayout layout) (d : Automaton) :
    Dot.read (d.draw layout) = some (d.states.map d.stateStatement ++
      d.edges.map d.edgeStatement ++ d.markStatements) := by
  rw [draw, Dot.read_write hlayout fun _ => canBeRead_of_mem_drawing, map_ofDrawing_drawing]

/-- Drawings that are the same in one layout are the same in every other one. -/
theorem draw_eq_of_draw_eq {layout : Layout} (hlayout : layout.IsPlain)
    (h : d.draw layout = d'.draw layout) (layout' : Layout) : d.draw layout' = d'.draw layout' :=
  congrArg (write layout') (drawing_eq_of_draw_eq hlayout h)

/-- **A drawing that is printed again says the same.**  It is always understood, what is read in it
    before and after are the same statements, and it tells apart the automata that it told apart
    before. -/
theorem render_faithful (hp : p.Respaces) :
    (∀ d : Automaton, ∃ text, d.render p = .ok text ∧ text = d.draw .compact ∧
      Dot.read text = Dot.read (d.draw .spaced) ∧
        Dot.read text = some (d.states.map d.stateStatement ++ d.edges.map d.edgeStatement ++
          d.markStatements)) ∧
      ∀ d d' : Automaton, d.render p = d'.render p ↔ d.draw .spaced = d'.draw .spaced := by
  constructor
  · intro d
    refine ⟨d.draw .compact, render_eq_ok hp d, rfl, ?_, read_draw Dot.isLayout_compact d⟩
    rw [read_draw Dot.isLayout_compact, read_draw Dot.isLayout_spaced]
  · intro d d'
    constructor
    · intro h
      rw [render_eq_ok hp, render_eq_ok hp] at h
      exact draw_eq_of_draw_eq Layout.isPlain_compact (Except.ok.inj h) .spaced
    · intro h
      rw [render, render, h]

end Automaton

/-! ## A printer -/

namespace Dot

namespace Spot

/-- What is printed on the way through a text, and where the way ends. -/
def run : Spot → List Char → Option (List Char × Spot)
  | s, [] => some ([], s)
  | s, c :: w =>
    (s.step c).bind fun (v, s') => (s'.run w).map fun (v', s'') => (v ++ v', s'')

variable {s s' s'' : Spot} {c : Char} {w v w' v' : List Char}

/-- The printer goes the way, and what was printed before stands in front. -/
theorem runOnto_of_run (h : s.run w = some (v, s')) (printed : List Char) :
    s.runOnto printed w = some (v.reverse ++ printed, s') := by
  induction w generalizing s v printed with
  | nil =>
    cases h
    rfl
  | cons c w ih =>
    obtain ⟨⟨u, t⟩, hstep, hrest⟩ := Option.bind_eq_some_iff.1 h
    obtain ⟨⟨u', t'⟩, hrun, heq⟩ := Option.map_eq_some_iff.1 hrest
    cases heq
    rw [runOnto, hstep]
    show t.runOnto (u.reverse ++ printed) w = _
    rw [ih hrun, List.reverse_append, List.append_assoc]

theorem run_cons (h : s.step c = some (v, s')) (h' : s'.run w = some (v', s'')) :
    s.run (c :: w) = some (v ++ v', s'') := by
  rw [run, h]
  show (s'.run w).map _ = _
  rw [h']
  rfl

/-- Ways are put together. -/
theorem run_append (h : s.run w = some (v, s')) (h' : s'.run w' = some (v', s'')) :
    s.run (w ++ w') = some (v ++ v', s'') := by
  induction w generalizing s v with
  | nil =>
    cases h
    exact h'
  | cons c w ih =>
    obtain ⟨⟨u, t⟩, hstep, hrest⟩ := Option.bind_eq_some_iff.1 h
    obtain ⟨⟨u', t'⟩, hrun, heq⟩ := Option.map_eq_some_iff.1 hrest
    cases heq
    rw [List.cons_append, run_cons hstep (ih hrun), List.append_assoc]

/-- Characters that are printed as they stand, without leaving the spot. -/
theorem run_copy (h : ∀ c ∈ w, s.step c = some ([c], s)) : s.run w = some (w, s) := by
  induction w with
  | nil => rfl
  | cons c w ih =>
    rw [List.forall_mem_cons] at h
    exact run_cons h.1 (ih h.2)

/-- The inside of a quoted text is printed as it stands: no quote in it ends it. -/
theorem run_inside (hw : IsInside w) (behind : Spot) :
    (quote behind).run w = some (w, quote behind) := by
  induction hw with
  | nil => rfl
  | @plain c w hdouble hslash _ ih =>
    have hstep : (quote behind).step c = some ([c], quote behind) := by
      rw [step, if_neg hdouble, if_neg hslash]
    exact run_cons hstep ih
  | @escaped c w _ _ ih =>
    have hslash : (quote behind).step '\\' = some (['\\'], escape behind) := by rfl
    have hc : (escape behind).step c = some ([c], quote behind) := rfl
    exact run_cons hslash (run_cons hc ih)

/-- An identifier is printed as it stands, where both ways to begin it lead behind it. -/
theorem run_identifier (hw : IsIdentifier w) (hquote : s.step '"' = some (['"'], quote s'))
    (hbegin : ∀ c, beginsWord c = true → s.step c = some ([c], s'))
    (hcontinue : ∀ c, continuesWord c = true → s'.step c = some ([c], s')) :
    s.run w = some (w, s') := by
  cases hw with
  | word hword _ =>
    cases w with
    | nil => cases hword
    | cons c w =>
      rw [isWord, Bool.and_eq_true, List.all_eq_true] at hword
      exact run_cons (hbegin c hword.1) (run_copy fun x hx => hcontinue x (hword.2 x hx))
  | quoted hw =>
    have hclose : (quote s').run ['"'] = some (['"'], s') := by rfl
    exact run_cons hquote (run_append (run_inside hw s') hclose)

/-! The parts of a line. -/

/-- Characters that a test tells apart. -/
theorem ne_of_test {test : Char → Bool} {x : Char} (hc : test c = true) (hx : test x = false) :
    c ≠ x := by
  rintro rfl
  rw [hc] at hx
  cases hx

theorem run_front (i : Identifier) : front.run i.chars = some (i.chars, first) := by
  refine run_identifier i.isIdentifier (by rfl) ?_ ?_
  · intro c hc
    rw [step, if_neg (ne_of_test hc (by decide)), if_neg (ne_of_test hc (by decide)),
      if_neg (ne_of_test hc (by decide))]
  · intro c hc
    rw [step, if_neg (ne_of_test hc (by decide))]

theorem run_rest (i : Identifier) : rest.run i.chars = some (i.chars, rest) := by
  refine run_identifier i.isIdentifier (by rfl) ?_ ?_
  · intro c hc
    rw [step, if_neg (ne_of_test hc (by decide)), if_neg (ne_of_test hc (by decide))]
  · intro c hc
    rw [step, if_neg (ne_of_test hc (by decide)), if_neg (ne_of_test hc (by decide))]

theorem run_indent : front.run [' ', ' '] = some ([' ', ' '], front) := by rfl

theorem run_arrow : first.run [' ', '-', '>', ' '] = some ([' ', '-', '>', ' '], rest) := by rfl

/-- An attribute behind its opening bracket, and the end of the line. -/
theorem run_attribute (key value : Identifier) :
    rest.run (key.chars ++ ('=' :: (value.chars ++ [']', '\n']))) =
      some (key.chars ++ ('=' :: (value.chars ++ [']', '\n'])), front) := by
  have hequals : rest.step '=' = some (['='], rest) := by rfl
  have hend : rest.run [']', '\n'] = some ([']', '\n'], front) := by rfl
  exact run_append (run_rest key) (run_cons hequals (run_append (run_rest value) hend))

/-- A line is printed without the blank in front of the attribute of a node. -/
theorem run_line (line : Line) :
    front.run (line.chars .spaced) = some (line.chars .compact, front) := by
  cases line with
  | node name key value =>
    -- the one blank that is not printed
    have hgap : first.run [' ', '['] = some (['['], rest) := by rfl
    have hline := run_append run_indent
      (run_append (run_front name) (run_append hgap (run_attribute key value)))
    simpa [Line.chars, bracketed, Layout.spaced, Layout.compact] using hline
  | edge source target =>
    have hend : rest.run ['\n'] = some (['\n'], front) := by rfl
    exact run_append run_indent
      (run_append (run_front source) (run_append run_arrow (run_append (run_rest target) hend)))
  | edgeWith source target key value =>
    have hgap : rest.run [' ', '['] = some ([' ', '['], rest) := by rfl
    have hline := run_append run_indent
      (run_append (run_front source) (run_append run_arrow
        (run_append (run_rest target) (run_append hgap (run_attribute key value)))))
    simpa [Line.chars, bracketed] using hline

theorem run_lines (lines : List Line) :
    front.run (lines.flatMap (Line.chars .spaced)) =
      some (lines.flatMap (Line.chars .compact), front) := by
  induction lines with
  | nil => rfl
  | cons line lines ih =>
    rw [List.flatMap_cons, List.flatMap_cons]
    exact run_append (run_line line) ih

/-- A page is printed in the other layout. -/
theorem run_page (lines : List Line) :
    opening.run (page .spaced lines).toList = some ((page .compact lines).toList, closed) := by
  have hopening : opening.run Layout.spaced.opening.toList =
      some (Layout.compact.opening.toList, front) := by rfl
  have hclosing : front.run Layout.spaced.closing.toList =
      some (Layout.compact.closing.toList, closed) := by rfl
  rw [page, page, String.toList_ofList, String.toList_ofList]
  exact run_append hopening (run_append (run_lines lines) hclosing)

end Spot

theorem respaces_respacer : respacer.Respaces := by
  intro lines _
  refine ⟨page .compact lines, ?_, rfl⟩
  have hrun := Spot.runOnto_of_run (Spot.run_page lines) []
  simp only [respacer, hrun, List.append_nil, List.reverse_reverse, String.ofList_toList]

end Dot

namespace Automaton

/-- An automaton whose names and symbols are marks of a page. -/
def garbled : Automaton :=
  ⟨⟨["\" [shape=point]\n\x7d\n", " -> \\", "__start"], ['"', '[', '\\'], [1],
    [((2, '\\'), 0), ((1, '['), 2), ((0, '['), 1), ((0, '"'), 1)]⟩, 0⟩

theorem garbled_isBuilt : garbled.IsBuilt :=
  ⟨[.state "\" [shape=point]\n\x7d\n", .state " -> \\", .state "__start", .symbol "\"",
    .symbol "[", .symbol "\\", .start "\" [shape=point]\n\x7d\n", .accept " -> \\",
    .transition "\" [shape=point]\n\x7d\n" '"' " -> \\",
    .transition "\" [shape=point]\n\x7d\n" '[' " -> \\", .transition " -> \\" '[' "__start",
    .transition "__start" '\\' "\" [shape=point]\n\x7d\n"], by decide +kernel⟩

/-- It is printed again, says the same as before, and shares its text with no automaton that had
    another drawing. -/
theorem garbled_rendered :
    Dot.respacer.Respaces ∧ garbled.IsBuilt ∧
      garbled.render Dot.respacer = .ok (garbled.draw .compact) ∧
        Dot.read (garbled.draw .compact) = Dot.read (garbled.draw .spaced) ∧
          ∀ d : Automaton, d.render Dot.respacer = garbled.render Dot.respacer →
            d.draw .spaced = garbled.draw .spaced := by
  obtain ⟨hprinted, hapart⟩ := render_faithful Dot.respaces_respacer
  obtain ⟨text, hrender, rfl, hread, -⟩ := hprinted garbled
  exact ⟨Dot.respaces_respacer, garbled_isBuilt, hrender, hread, fun d => (hapart d garbled).1⟩

end Automaton

end Acceptor
