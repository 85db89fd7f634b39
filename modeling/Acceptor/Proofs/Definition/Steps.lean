/-
  What one line of a definition does.

  A line that can be read is one of four: a `start` line, another header line, the line that ends
  the header, or the line of a rule.  Only the first and the last of these replace anything, and
  only what they replace is noted.

  1. **Kinds** — which declarations replace nothing (`Declaration.IsQuiet`), and which records are
     of a start or of a transition that was replaced.

  2. **Declarations** — the quiet ones leave the start and the bindings as they are, and nothing is
     noted of them; of any other there is one record, if it replaced something.

  3. **One line** — `Reader.Takes`, the four kinds with all that they do (`takes_of_step`).

  4. **Many lines** — `Reader.ReadsTo`, the lines that a reader takes one after the other, with the
     records of each.  Facts about whole definitions are inductions on this.

  5. **Conservation** — every `start` line and every rule either is the first of its kind or is
     noted (`ReadsTo.count_starts`, `ReadsTo.count_rules`).
-/
import Acceptor.Proofs.Automaton.Table
import Acceptor.Proofs.Definition.Fault

namespace Acceptor

/-! ## Kinds -/

/-- It replaces nothing, whatever was declared before. -/
def Declaration.IsQuiet : Declaration → Prop
  | .state _ | .symbol _ | .accept _ => True
  | .start _ | .transition .. => False

/-- A record of a start that took the place of another. -/
def Record.isStartRedefined : Record → Bool
  | .startRedefined .. => true
  | _ => false

/-- A record of a transition that took the place of another. -/
def Record.isRebound : Record → Bool
  | .rebound .. => true
  | _ => false

/-! ## Declarations -/

namespace Builder

variable {b b' : Builder} {x : Declaration} {xs : List Declaration} {answer : Answer}
  {answers : List Answer}

theorem declare_quiet (hx : x.IsQuiet) (h : b.declare x = .ok (answer, b')) :
    b'.start = b.start ∧ b'.bindings = b.bindings := by
  cases x with
  | state name =>
    rcases declare_state_cases h with ⟨s, -, -, rfl⟩ | ⟨-, rfl⟩
    · exact ⟨rfl, rfl⟩
    · exact ⟨rfl, rfl⟩
  | symbol token =>
    obtain ⟨c, -, -, rfl⟩ := declare_symbol_iff.1 h
    split
    · exact ⟨rfl, rfl⟩
    · exact ⟨rfl, rfl⟩
  | accept name =>
    obtain ⟨s, -, -, rfl⟩ := declare_accept_iff.1 h
    exact ⟨rfl, rfl⟩
  | start name => exact hx.elim
  | transition p c q => exact hx.elim

theorem declareAll_quiet (hxs : ∀ x ∈ xs, x.IsQuiet) (h : b.declareAll xs = .ok (answers, b')) :
    b'.start = b.start ∧ b'.bindings = b.bindings := by
  induction xs generalizing b answers with
  | nil =>
    cases h
    exact ⟨rfl, rfl⟩
  | cons x xs ih =>
    rw [List.forall_mem_cons] at hxs
    obtain ⟨answer, b₁, later, hx, hrest, -⟩ := declareAll_cons_eq_ok_iff.1 h
    obtain ⟨hstart, hbindings⟩ := declare_quiet hxs.1 hx
    obtain ⟨hstart', hbindings'⟩ := ih hxs.2 hrest
    exact ⟨hstart'.trans hstart, hbindings'.trans hbindings⟩

end Builder

namespace Definition

variable {line : Line} {read : Logged Reader} {r r' : Reader} {lines : List Line}
  {log : List Record}

theorem noteOf_quiet {x : Declaration} (hx : x.IsQuiet) (m : TransitionSystem) (number : Nat)
    (answer : Answer) : noteOf m number (x, answer) = none := by
  cases x with
  | state name | symbol token | accept name => rfl
  | start name => exact hx.elim
  | transition p c q => exact hx.elim

theorem filterMap_noteOf_quiet {xs : List Declaration} (hxs : ∀ x ∈ xs, x.IsQuiet)
    (m : TransitionSystem) (number : Nat) (answers : List Answer) :
    (xs.zip answers).filterMap (noteOf m number) = [] := by
  rw [List.filterMap_eq_nil_iff]
  rintro ⟨x, answer⟩ hmem
  exact noteOf_quiet (hxs x (List.of_mem_zip hmem).1) m number answer

/-- A declaration with one answer has one record, if the answer names something old. -/
theorem filterMap_noteOf_replaced {m : TransitionSystem} {number : Nat} {x : Declaration}
    {note : Nat → Record} (hnone : noteOf m number (x, .replaced none) = none)
    (hsome : ∀ old, noteOf m number (x, .replaced (some old)) = some (note old))
    (old? : Option Nat) :
    ([x].zip [Answer.replaced old?]).filterMap (noteOf m number) = (old?.map note).toList := by
  cases old? with
  | none => exact List.filterMap_cons_none hnone
  | some old => exact List.filterMap_cons_some (hsome old)

/-- Headers other than `start` are quiet. -/
theorem isQuiet_of_mem_headerDeclarations {line : List Char} (hk : keywordOf? line ≠ some .start) :
    ∀ x ∈ headerDeclarations line, x.IsQuiet := by
  intro x hx
  unfold headerDeclarations at hx
  cases hkey : keywordOf? line with
  | none =>
    rw [hkey] at hx
    cases hx
  | some k =>
    rw [hkey] at hx
    cases k with
    | states | alphabet | accept =>
      obtain ⟨item, -, rfl⟩ := List.mem_map.1 hx
      trivial
    | start => exact absurd hkey hk
    | transitions => cases hx

/-! ## One line -/

/-- What is noted of a `start` line. -/
def startNote (b : Builder) (line : Line) : Option Record :=
  b.start.map fun old => .startRedefined (String.ofList (valueOf line.text.toList)) (b.name old)

/-- What is noted of the line of a rule, whose source is a state. -/
def ruleNote (b : Builder) (line : Line) (x : Rule) (s : Nat) : Option Record :=
  (b.next? s x.symbol).map fun old =>
    .rebound line.number x.source x.symbol x.target (b.name old)

/-- What a line does that can be read. -/
inductive Reader.Takes (r : Reader) (line : Line) : Logged Reader → Prop
  /-- A header line of another kind leaves the start and the bindings as they are. -/
  | quiet {b : Builder} (hpart : r.part = .header)
      (hstart : keywordOf? line.text.toList ≠ some .start)
      (hend : keywordOf? line.text.toList ≠ some .transitions)
      (hb : b.start = r.builder.start ∧ b.bindings = r.builder.bindings) :
      Takes r line { value := ⟨.header, b⟩ }
  /-- A `start` line sets the start, and the one before it is noted. -/
  | start {s : Nat} (hpart : r.part = .header)
      (hk : keywordOf? line.text.toList = some .start)
      (hs : r.builder.state? (String.ofList (valueOf line.text.toList)) = some s) :
      Takes r line
        { log := (startNote r.builder line).toList
          value := ⟨.header, { r.builder with start := some s }⟩ }
  /-- A line ends the header and does nothing else. -/
  | ends (hpart : r.part = .header) (hk : keywordOf? line.text.toList = some .transitions) :
      Takes r line { value := ⟨.transitions, r.builder⟩ }
  /-- A rule binds a state and a symbol, and the target before it is noted. -/
  | rule {x : Rule} {s t : Nat} (hpart : r.part = .transitions)
      (hx : x.IsWritten line.text.toList) (hs : r.builder.state? x.source = some s)
      (hc : x.symbol ∈ r.builder.alphabet) (ht : r.builder.state? x.target = some t) :
      Takes r line
        { log := (ruleNote r.builder line x s).toList
          value := ⟨.transitions,
            { r.builder with bindings := ((s, x.symbol), t) :: r.builder.bindings }⟩ }

theorem takes_rule {b : Builder} {x : Rule} {answers : List Answer} {b' : Builder}
    (hx : x.IsWritten line.text.toList)
    (hdeclare : b.declareAll [x.declaration] = .ok (answers, b')) :
    Reader.Takes ⟨.transitions, b⟩ line
      { log := ([x.declaration].zip answers).filterMap (noteOf b'.toTransitionSystem line.number)
        value := ⟨.transitions, b'⟩ } := by
  obtain ⟨answer, b₁, later, hone, hnil, rfl⟩ := Builder.declareAll_cons_eq_ok_iff.1 hdeclare
  cases hnil
  obtain ⟨s, t, hs, hc, ht, rfl, rfl⟩ := Builder.declare_transition_iff.1 hone
  rw [filterMap_noteOf_replaced rfl fun _ => rfl]
  exact .rule rfl hx hs hc ht

theorem takes_start {b : Builder} {answers : List Answer} {b' : Builder}
    (hk : keywordOf? line.text.toList = some .start)
    (hdeclare : b.declareAll (headerDeclarations line.text.toList) = .ok (answers, b')) :
    Reader.Takes ⟨.header, b⟩ line
      { log := ((headerDeclarations line.text.toList).zip answers).filterMap
          (noteOf b'.toTransitionSystem line.number)
        value := ⟨.header, b'⟩ } := by
  have hdeclared : headerDeclarations line.text.toList =
      [.start (String.ofList (valueOf line.text.toList))] := by
    rw [headerDeclarations, hk]
    rfl
  rw [hdeclared] at hdeclare ⊢
  obtain ⟨answer, b₁, later, hone, hnil, rfl⟩ := Builder.declareAll_cons_eq_ok_iff.1 hdeclare
  cases hnil
  obtain ⟨s, hs, rfl, rfl⟩ := Builder.declare_start_iff.1 hone
  rw [filterMap_noteOf_replaced rfl fun _ => rfl]
  exact .start rfl hk hs

/-- A line that can be read is of one of the four kinds. -/
theorem takes_of_step (h : r.step line = .ok read) : r.Takes line read := by
  obtain ⟨part, xs, answers, b, hd, hx, rfl⟩ := Reader.exists_of_step_eq_ok h
  obtain ⟨before, builder⟩ := r
  cases before with
  | transitions =>
    obtain ⟨x, hwritten, rfl, rfl⟩ := declarations_transitions_eq_ok_iff.1 hd
    exact takes_rule hwritten hx
  | header =>
    rcases declarations_header_cases hd with ⟨hk, rfl, rfl⟩ | ⟨k, hk, hend, rfl, rfl⟩
    · cases hx
      exact .ends rfl hk
    · by_cases hstart : k = .start
      · subst hstart
        exact takes_start hk hx
      · have hne : keywordOf? line.text.toList ≠ some .start := by simpa [hk] using hstart
        have hquiet := isQuiet_of_mem_headerDeclarations hne
        rw [filterMap_noteOf_quiet hquiet]
        exact .quiet rfl hne (by simpa [hk] using hend) (Builder.declareAll_quiet hquiet hx)

/-! ## Many lines -/

/-- A reader takes lines one after the other, with the records of each. -/
inductive Reader.ReadsTo : Reader → List Line → List Record → Reader → Prop
  | nil (r : Reader) : ReadsTo r [] [] r
  | cons {r r' : Reader} {line : Line} {lines : List Line} {read : Logged Reader}
      {log : List Record} (hstep : r.step line = .ok read)
      (hrest : ReadsTo read.value lines log r') : ReadsTo r (line :: lines) (read.log ++ log) r'

theorem readsTo_of_readLines_eq_ok (h : (r.readLines lines).value = .ok r') :
    r.ReadsTo lines (r.readLines lines).log r' := by
  induction lines generalizing r with
  | nil =>
    cases h
    exact .nil _
  | cons line lines ih =>
    cases hstep : r.step line with
    | error cause =>
      rw [Reader.readLines_cons_of_error hstep] at h
      cases h
    | ok read =>
      rw [Reader.readLines_cons_of_ok hstep] at h
      have hlog : (r.readLines (line :: lines)).log =
          read.log ++ (read.value.readLines lines).log := by
        rw [Reader.readLines, hstep]
      rw [hlog]
      exact .cons hstep (ih h)

/-- When a line fails, the lines above it were taken, and their records are all there is. -/
theorem readsTo_of_readLines_eq_error {e : Error} (h : (r.readLines lines).value = .error e) :
    ∃ above line below r', lines = above ++ line :: below ∧ e.place = some line ∧
      r.ReadsTo above (r.readLines lines).log r' := by
  induction lines generalizing r with
  | nil => cases h
  | cons line lines ih =>
    cases hstep : r.step line with
    | error cause =>
      have hlog : (r.readLines (line :: lines)).log = [] := by
        rw [Reader.readLines, hstep]
      rw [Reader.readLines_cons_of_error hstep] at h
      cases h
      exact ⟨[], line, lines, r, rfl, rfl, hlog ▸ .nil r⟩
    | ok read =>
      rw [Reader.readLines_cons_of_ok hstep] at h
      obtain ⟨above, bad, below, r', rfl, hplace, hreads⟩ := ih h
      have hlog : (r.readLines (line :: (above ++ bad :: below))).log =
          read.log ++ (read.value.readLines (above ++ bad :: below)).log := by
        rw [Reader.readLines, hstep]
      exact ⟨line :: above, bad, below, r', rfl, hplace, hlog ▸ .cons hstep hreads⟩

/-! ## Conservation -/

/-- The header lines among lines that are read in a part. -/
def headersIn : Part → List (List Char) → List (List Char)
  | .header, lines => headerPart lines
  | .transitions, _ => []

/-- The rules among lines that are read in a part. -/
def rulesIn : Part → List (List Char) → List (List Char)
  | .header, lines => rulePart lines
  | .transitions, lines => lines

theorem countP_startNote (b : Builder) (line : Line) :
    (startNote b line).toList.countP Record.isStartRedefined = b.start.toList.length ∧
      (startNote b line).toList.countP Record.isRebound = 0 := by
  rw [startNote]
  cases b.start with
  | none => exact ⟨rfl, rfl⟩
  | some old => exact ⟨rfl, rfl⟩

theorem countP_ruleNote (b : Builder) (line : Line) (x : Rule) (s : Nat) :
    (ruleNote b line x s).toList.countP Record.isRebound =
        (if (b.next? s x.symbol).isSome then 1 else 0) ∧
      (ruleNote b line x s).toList.countP Record.isStartRedefined = 0 := by
  rw [ruleNote]
  cases b.next? s x.symbol with
  | none => exact ⟨rfl, rfl⟩
  | some old => exact ⟨rfl, rfl⟩

/-- A `start` line sets the first start or is noted, and no other line does either. -/
theorem Reader.Takes.count_starts (h : r.Takes line read) (rest : List (List Char)) :
    (valuesOf .start (headersIn r.part (line.text.toList :: rest))).length +
        r.builder.start.toList.length =
      (valuesOf .start (headersIn read.value.part rest)).length +
        read.log.countP Record.isStartRedefined + read.value.builder.start.toList.length := by
  cases h with
  | quiet hpart hstart hend hb =>
    rw [hpart, hb.1, headersIn, headerPart_cons_of_ne hend, valuesOf,
      List.filter_cons_of_neg (by simpa using hstart)]
    rfl
  | start hpart hk hs =>
    have hend : keywordOf? line.text.toList ≠ some .transitions := by simp [hk]
    rw [hpart, (countP_startNote _ _).1, headersIn, headerPart_cons_of_ne hend, valuesOf,
      List.filter_cons_of_pos (by simpa using hk), List.map_cons, List.length_cons]
    show _ = (valuesOf .start (headerPart rest)).length + _ + 1
    rw [valuesOf]
    omega
  | ends hpart hk =>
    rw [hpart, headersIn, headerPart_cons_of_eq hk]
    rfl
  | rule hpart hx hs hc ht =>
    rw [hpart, (countP_ruleNote _ _ _ _).2]
    rfl

/-- A rule binds a pair that was not bound or is noted, and no other line does either. -/
theorem Reader.Takes.count_rules (h : r.Takes line read) (rest : List (List Char)) :
    (rulesIn r.part (line.text.toList :: rest)).length + r.builder.boundPairs.card =
      (rulesIn read.value.part rest).length + read.log.countP Record.isRebound +
        read.value.builder.boundPairs.card := by
  cases h with
  | quiet hpart hstart hend hb =>
    rw [hpart, rulesIn, rulePart_cons_of_ne hend, TransitionSystem.boundPairs,
      TransitionSystem.boundPairs, hb.2]
    rfl
  | start hpart hk hs =>
    have hend : keywordOf? line.text.toList ≠ some .transitions := by simp [hk]
    rw [hpart, (countP_startNote _ _).2, rulesIn, rulePart_cons_of_ne hend]
    rfl
  | ends hpart hk =>
    rw [hpart, rulesIn, rulePart_cons_of_eq hk]
    rfl
  | @rule x s t hpart hx hs hc ht =>
    have hcard := r.builder.card_boundPairs_bind s t x.symbol
    rw [hpart, (countP_ruleNote _ _ _ _).1]
    show rest.length + 1 + _ = rest.length + _ + _
    rw [hcard]
    split <;> omega

/-- Of the `start` lines, all are noted but the one that set the first start. -/
theorem Reader.ReadsTo.count_starts (h : r.ReadsTo lines log r') :
    (valuesOf .start (headersIn r.part (lines.map fun line => line.text.toList))).length +
        r.builder.start.toList.length =
      log.countP Record.isStartRedefined + r'.builder.start.toList.length := by
  induction h with
  | nil r =>
    have hnone : headersIn r.part [] = [] := by cases r.part <;> rfl
    rw [List.map_nil, hnone]
    rfl
  | @cons r r' line lines read log hstep hrest ih =>
    have hline := (takes_of_step hstep).count_starts (lines.map fun line => line.text.toList)
    rw [List.map_cons, List.countP_append]
    omega

/-- Of the rules, all are noted but those that bound a pair for the first time. -/
theorem Reader.ReadsTo.count_rules (h : r.ReadsTo lines log r') :
    (rulesIn r.part (lines.map fun line => line.text.toList)).length +
        r.builder.boundPairs.card =
      log.countP Record.isRebound + r'.builder.boundPairs.card := by
  induction h with
  | nil r =>
    have hnone : rulesIn r.part [] = [] := by cases r.part <;> rfl
    rw [List.map_nil, hnone]
    rfl
  | @cons r r' line lines read log hstep hrest ih =>
    have hline := (takes_of_step hstep).count_rules (lines.map fun line => line.text.toList)
    rw [List.map_cons, List.countP_append]
    omega

end Definition

end Acceptor
