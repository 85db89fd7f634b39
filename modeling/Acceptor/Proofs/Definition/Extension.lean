/-
  A definition with the line of one more transition.

  Behind the last line of a definition stands the line of a transition, between two states of the
  automaton and on a symbol of its alphabet.  Any name may stand on a `states` line, as long as it
  holds no comma, but a transition line can say less: what becomes of it depends on the name of the
  source.

  * A name without an arrow that does not begin with `#` is found again, and the automaton has this
    one transition set anew.
  * A name that begins with `#` makes the line a comment, and it is passed over.
  * In any other name the arrow is taken for that of the line, and no comma stands in front of it.

  The target, the symbol and the other lines have no part in this.

  1. **One more line** — `Extends text line text'`, as with `withLine text line`, and what it does
     to the significant lines.

  2. **The line** — it is trimmed, so it counts unless it is a comment; which cause it has if it is
     cut in the name of the source (`ofLine_ruleLine_of_arrow`).

  3. **Reading it** — the reader that all other lines leave is in the transition part
     (`exists_reader_of_parse`), and its builder knows the parts of the line.

  4. **The outcome** — `ReadsRule`.  Main result: `parse_extended`.
-/
import Acceptor.Proofs.Definition.Foresight
import Acceptor.Proofs.Definition.Names
import Acceptor.Proofs.Definition.Order
import Acceptor.Proofs.Definition.Relaid
import Acceptor.Proofs.Definition.Writing

namespace Acceptor

/-- The second automaton is the first with one transition set anew. -/
structure Automaton.Rebound (d : Automaton) (x : Transition) (d' : Automaton) : Prop where
  names : d'.names = d.names
  alphabet : d'.alphabet = d.alphabet
  start : d'.start = d.start
  isAccepting : ∀ s, d'.isAccepting s = d.isAccepting s
  next?_self : d'.next? x.source x.symbol = some x.target
  next?_other : ∀ s c, (s, c) ≠ (x.source, x.symbol) → d'.next? s c = d.next? s c

/-- To bind a state and a symbol is to set one transition anew. -/
theorem Automaton.rebound_cons (d : Automaton) (x : Transition) :
    d.Rebound x { d with bindings := ((x.source, x.symbol), x.target) :: d.bindings } where
  names := rfl
  alphabet := rfl
  start := rfl
  isAccepting _ := rfl
  next?_self := List.lookup_cons_self
  next?_other _ _ hne := TransitionSystem.next?_cons_of_ne hne

namespace Definition

variable {text text' : String} {d : Automaton} {x : Transition}

/-! ## One more line -/

/-- The second text has the lines of the first, and one more behind them. -/
def Extends (text line text' : String) : Prop :=
  Text.lines text'.toList = Text.lines text.toList ++ [line.toList]

instance (text line text' : String) : Decidable (Extends text line text') :=
  inferInstanceAs (Decidable (_ = _))

/-- The text with a line put behind it, and behind the last line of the text a newline if there is
    none. -/
def withLine (text line : String) : String :=
  (if Text.EndsLine text.toList then text else text ++ "\n") ++ line ++ "\n"

section Extends

variable {line : String}

theorem extends_withLine (text : String) (hline : '\n' ∉ line.toList) :
    Extends text line (withLine text line) := by
  have hends : Text.lines (line.toList ++ ['\n']) = [line.toList] :=
    Text.lines_append_newline hline []
  rw [Extends, withLine, String.toList_append, String.toList_append, List.append_assoc]
  split
  case isTrue h =>
    rw [Text.lines_append h]
    exact congrArg _ hends
  case isFalse h =>
    have hclosed : Text.EndsLine (text.toList ++ ['\n']) :=
      Text.EndsLine.append_newline (.inl rfl) text.toList
    rw [String.toList_append]
    show Text.lines ((text.toList ++ ['\n']) ++ (line.toList ++ ['\n'])) = _
    rw [Text.lines_append hclosed, Text.lines_append_end h, hends]

/-- The new line has the next number. -/
theorem significantLines_of_extends (h : Extends text line text') :
    significantLines text' =
      significantLines text ++ lineAt ((Text.lines text.toList).length + 1) line.toList := by
  rw [significantLines_eq_linesFrom, linesFrom, h, List.zipIdx_append, List.map_append,
    significant_append, Nat.add_comm 1]
  rfl

end Extends

/-! ## The line -/

section Line

/-- A line that is no comment counts, and stands as it is. -/
theorem lineAt_ruleLine (hsource : Text.IsItem (d.name x.source).toList)
    (htarget : Text.IsItem (d.name x.target).toList)
    (hbegins : (d.name x.source).toList.head? ≠ some '#') (n : Nat) :
    lineAt n (d.ruleLine x).toList = [⟨n, d.ruleLine x⟩] := by
  have htrim : Text.trim (d.ruleLine x).toList = (d.ruleLine x).toList :=
    Text.trim_eq_self (isTrimmed_ruleLine hsource htarget)
  have hcounts : (!Text.isRemark (d.ruleLine x).toList) = true := by
    rw [← htrim, isRemark_trim, htrim, head?_ruleLine hsource.ne_nil]
    exact decide_eq_true ⟨by simp [toList_ruleLine], hbegins⟩
  rw [lineAt, htrim, String.ofList_toList]
  exact List.filter_eq_self.2 (List.forall_mem_singleton.2 hcounts)

/-- A line that is a comment does not count. -/
theorem lineAt_ruleLine_of_comment (hsource : Text.IsItem (d.name x.source).toList)
    (hbegins : (d.name x.source).toList.head? = some '#') (n : Nat) :
    lineAt n (d.ruleLine x).toList = [] := by
  apply lineAt_of_isRemark
  rw [← head?_ruleLine hsource.ne_nil] at hbegins
  obtain ⟨rest, hrest⟩ := List.head?_eq_some_iff.1 hbegins
  rw [hrest]
  rfl

/-- An arrow in the name of the source comes before that of the line, and no comma comes before
    it. -/
theorem ofLine_ruleLine_of_arrow (hsource : Text.IsItem (d.name x.source).toList)
    (harrow : ['-', '>'] <:+: (d.name x.source).toList) :
    Rule.ofLine (d.ruleLine x).toList = .error .missingComma := by
  cases hsplit : Text.splitAround ['-', '>'] (d.name x.source).toList with
  | none => exact absurd harrow (Text.splitAround_eq_none_iff.1 hsplit)
  | some parts =>
    obtain ⟨before, behind⟩ := parts
    obtain ⟨hname, hfirst⟩ := Text.splitAround_arrow_iff.1 hsplit
    have hcomma : ',' ∉ before := by
      intro hmem
      apply hsource.no_comma
      rw [hname]
      exact List.mem_append_left _ hmem
    have hline : (d.ruleLine x).toList = before ++ '-' :: '>' ::
        (behind ++ ',' :: x.symbol :: '-' :: '>' :: (d.name x.target).toList) := by
      rw [toList_ruleLine, hname]
      simp
    rw [hline]
    exact Rule.ofLine_of_no_comma hfirst hcomma _

end Line

/-! ## Reading it -/

/-- The lines of a definition with a transition part leave a reader in this part, whose builder
    builds the automaton. -/
theorem exists_reader_of_parse (h : (parse text).value = .ok d)
    (hpart : ∃ line ∈ contentLines text, keywordOf? line = some .transitions) :
    ∃ b, (Reader.readLines {} (significantLines text)).value = .ok ⟨.transitions, b⟩ ∧
      b.build = .ok d ∧ b.WellFormed := by
  obtain ⟨⟨part, b⟩, hread, hbuild⟩ := parse_eq_ok_iff_exists_reader.1 h
  obtain ⟨xs, answers, hlines, hxs⟩ := Reader.readLines_eq_ok_iff.1 hread
  rw [map_text_significantLines] at hlines
  cases part with
  | transitions => exact ⟨b, hread, hbuild, (Builder.records_of_declareAll hxs).2⟩
  | header =>
    obtain ⟨line, hline, hk⟩ := hpart
    exact absurd hk (hlines.part_eq_header_iff.1 rfl line hline)

section Step

variable {b : Builder} {n : Nat}

/-- A transition between known states on a known symbol is taken. -/
theorem step_ruleLine (hb : b.WellFormed) (hbuild : b.build = .ok d)
    (hwritten : (ruleOf d x).IsWritten (d.ruleLine x).toList) (hsource : x.source < d.stateCount)
    (hsymbol : x.symbol ∈ d.alphabet) (htarget : x.target < d.stateCount) :
    ∃ read, Reader.step ⟨.transitions, b⟩ ⟨n, d.ruleLine x⟩ = .ok read ∧ read.value =
      ⟨.transitions, { b with bindings := ((x.source, x.symbol), x.target) :: b.bindings }⟩ := by
  obtain ⟨-, -, -, hsystem⟩ := Builder.build_eq_ok_iff.1 hbuild
  rw [hsystem] at hsymbol
  have hstate : ∀ {s}, s < d.stateCount → b.state? (d.name s) = some s := by
    intro s hs
    rw [hb.system.state?_eq_some_iff, ← hsystem]
    exact TransitionSystem.name?_eq_some_name hs
  have hdeclare := Builder.declare_transition_iff.2
    ⟨x.source, x.target, hstate hsource, hsymbol, hstate htarget, rfl, rfl⟩
  have hall : b.declareAll [(ruleOf d x).declaration] = .ok _ :=
    Builder.declareAll_cons_of_ok hdeclare []
  exact ⟨_, Reader.step_of_ok (declarations_transitions_of_isWritten hwritten) hall, rfl⟩

/-- A line that is cut in the name of the source fails. -/
theorem step_ruleLine_of_arrow (hsource : Text.IsItem (d.name x.source).toList)
    (harrow : ['-', '>'] <:+: (d.name x.source).toList) :
    Reader.step ⟨.transitions, b⟩ ⟨n, d.ruleLine x⟩ = .error .missingComma := by
  unfold Reader.step
  rw [declarations, ofLine_ruleLine_of_arrow hsource harrow]
  rfl

end Step

/-! ## The outcome -/

/-- What becomes of the line of a transition behind a definition. -/
structure ReadsRule (text : String) (d : Automaton) (x : Transition) (text' : String) : Prop where
  /-- A source that can be told from comments and arrows goes to the target. -/
  taken : (d.name x.source).toList.head? ≠ some '#' →
    ¬ ['-', '>'] <:+: (d.name x.source).toList →
      ∃ d', (parse text').value = .ok d' ∧ d.Rebound x d'
  /-- A source that begins like a comment stays as it is. -/
  skipped : (d.name x.source).toList.head? = some '#' → (parse text').value = .ok d
  /-- A source with an arrow makes the line fail. -/
  refused : (d.name x.source).toList.head? ≠ some '#' →
    ['-', '>'] <:+: (d.name x.source).toList →
      (parse text').value =
        .error ⟨.missingComma, some ⟨(Text.lines text.toList).length + 1, d.ruleLine x⟩⟩

/-- **A declared state can be given every transition, if its name can stand on a transition line.**
    The name must not begin with `#` and must hold no arrow; nothing is asked of the target and the
    symbol. -/
theorem parse_extended (h : (parse text).value = .ok d)
    (hpart : ∃ line ∈ contentLines text, keywordOf? line = some .transitions)
    (hsource : x.source < d.stateCount) (hsymbol : x.symbol ∈ d.alphabet)
    (htarget : x.target < d.stateCount) (hline : Extends text (d.ruleLine x) text') :
    ReadsRule text d x text' := by
  have hsourceItem := isItem_name h hsource
  have htargetItem := isItem_name h htarget
  have hlines := significantLines_of_extends hline
  obtain ⟨b, hread, hbuild, hb⟩ := exists_reader_of_parse h hpart
  refine ⟨?_, ?_, ?_⟩
  · intro hbegins harrow
    have hwritten := isWritten_ruleLine hsourceItem harrow (not_isBlank_of_parse h hsymbol)
      htargetItem.trimmed
    obtain ⟨read, hstep, hvalue⟩ := step_ruleLine hb hbuild hwritten hsource hsymbol htarget
    rw [lineAt_ruleLine hsourceItem htargetItem hbegins] at hlines
    obtain ⟨hnames, halphabet, hstart, hsystem⟩ := Builder.build_eq_ok_iff.1 hbuild
    refine ⟨_, parse_eq_ok_iff_exists_reader.2 ⟨read.value, ?_, ?_⟩, d.rebound_cons x⟩
    · rw [hlines, Reader.readLines_append, hread]
      exact Reader.readLines_cons_of_ok hstep []
    · rw [hvalue, Builder.build_eq_ok_iff]
      exact ⟨hnames, halphabet, hstart, by rw [hsystem]⟩
  · intro hbegins
    rw [lineAt_ruleLine_of_comment hsourceItem hbegins, List.append_nil] at hlines
    exact parse_eq_ok_iff_exists_reader.2 ⟨_, by rw [hlines]; exact hread, hbuild⟩
  · intro hbegins harrow
    rw [lineAt_ruleLine hsourceItem htargetItem hbegins] at hlines
    apply parse_of_readLines_error
    rw [hlines, Reader.readLines_append, hread]
    exact Reader.readLines_cons_of_error (step_ruleLine_of_arrow hsourceItem harrow) []

/-- The symbol begins an arrow, and the name of the target begins with one and ends like a
    comment. -/
theorem readsRule_arrows :
    ReadsRule "states: A, -> #\nalphabet: 0, -\nstart: A\ntransitions:"
        ⟨⟨["A", "-> #"], ['0', '-'], [], []⟩, 0⟩ ⟨0, '-', 1⟩
        "states: A, -> #\nalphabet: 0, -\nstart: A\ntransitions:\nA,-->-> #\n" := by
  have hparse : (parse "states: A, -> #\nalphabet: 0, -\nstart: A\ntransitions:").value =
      .ok ⟨⟨["A", "-> #"], ['0', '-'], [], []⟩, 0⟩ := by decide +kernel
  have hpart : ∃ line ∈ contentLines "states: A, -> #\nalphabet: 0, -\nstart: A\ntransitions:",
      keywordOf? line = some .transitions := by decide +kernel
  exact parse_extended hparse hpart (by decide) (by decide) (by decide)
    (extends_withLine _ (by decide +kernel))

/-- Its only state has a name that begins like a comment. -/
def hashNamed : String := "states: #A\nalphabet: 0\nstart: #A\ntransitions:\n"

/-- Its only state has a name with an arrow. -/
def arrowNamed : String := "states: A->B\nalphabet: 0\nstart: A->B\ntransitions:\n"

/-- Not every line of a transition is read: one is passed over, and one fails. -/
theorem not_every_rule_read :
    (∃ d, (parse hashNamed).value = .ok d ∧ 0 < d.stateCount ∧ '0' ∈ d.alphabet ∧
      ¬ ∃ d', (parse (withLine hashNamed (d.ruleLine ⟨0, '0', 0⟩))).value = .ok d' ∧
        d.Rebound ⟨0, '0', 0⟩ d') ∧
    (∃ d, (parse arrowNamed).value = .ok d ∧ 0 < d.stateCount ∧ '0' ∈ d.alphabet ∧
      (parse (withLine arrowNamed (d.ruleLine ⟨0, '0', 0⟩))).value =
        .error ⟨.missingComma, some ⟨5, "A->B,0->A->B"⟩⟩) := by
  constructor
  · refine ⟨⟨⟨["#A"], ['0'], [], []⟩, 0⟩, by decide +kernel, by decide, by decide, ?_⟩
    rintro ⟨d', hparse, hrebound⟩
    have hsame : (parse (withLine hashNamed "#A,0->#A")).value =
        .ok ⟨⟨["#A"], ['0'], [], []⟩, 0⟩ := by decide +kernel
    obtain rfl := Except.ok.inj (hsame.symm.trans hparse)
    exact absurd hrebound.next?_self (by decide)
  · exact ⟨⟨⟨["A->B"], ['0'], [], []⟩, 0⟩, by decide +kernel, by decide, by decide,
      by decide +kernel⟩

end Definition

end Acceptor
