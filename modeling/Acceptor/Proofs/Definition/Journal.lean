/-
  The log of a definition is a true account.

  While the lines of a definition are read, a record is written when a `start` line or a rule takes
  the place of an earlier one.  Whether it does, and of which, can be seen from the lines above it
  alone, without any reader.

  1. **The account** — `note?` says what is to be noted of a line below others, and `account` puts
     together the notes of many lines, in their order.

  2. **Notes and lines** — for what line a note stands, and what it says of the lines above
     (`note?_eq_startRedefined`, `note?_eq_rebound`).

  3. **The reader** — what a reader notes of a line is the note of this line (`log_of_takes`), so
     the log of many lines is their account (`Reader.ReadsTo.log_eq`).

  4. **The log** — `TrueAccount`: the account of the lines above the first that fails, or of all
     lines with the summary behind it; and how many records there are.  Main result:
     `parse_trueAccount`.
-/
import Acceptor.Proofs.Definition.Foresight
import Acceptor.Proofs.Definition.Order
import Acceptor.Proofs.Definition.Steps

namespace Acceptor.Definition

variable {above : List (List Char)} {line : Line} {lines : List Line} {x : Record}

/-! ## The account -/

/-- What is to be noted of a line below others: the `start` line, or the rule for the same source
    and symbol, of which it takes the place. -/
def note? (above : List (List Char)) (line : Line) : Option Record :=
  if InHeader above then
    if keywordOf? line.text.toList = some .start then
      (valuesOf .start above).getLast?.map fun old =>
        .startRedefined (String.ofList (valueOf line.text.toList)) (String.ofList old)
    else none
  else
    match Rule.ofLine line.text.toList with
    | .error _ => none
    | .ok r =>
      ((rulePart above).filterMap (targetOf? r.source r.symbol)).getLast?.map fun old =>
        .rebound line.number r.source r.symbol r.target old

/-- The notes of lines below others, line by line. -/
def account (above : List (List Char)) : List Line → List Record
  | [] => []
  | line :: rest => (note? above line).toList ++ account (above ++ [line.text.toList]) rest

/-- A record of the account is the note of one of the lines. -/
theorem exists_of_mem_account (h : x ∈ account above lines) :
    ∃ up line down, lines = up ++ line :: down ∧
      note? (above ++ up.map fun line => line.text.toList) line = some x := by
  induction lines generalizing above with
  | nil => cases h
  | cons line lines ih =>
    rcases List.mem_append.1 h with hline | hlater
    · refine ⟨[], line, lines, rfl, ?_⟩
      rw [List.map_nil, List.append_nil]
      exact Option.mem_toList.1 hline
    · obtain ⟨up, later, down, rfl, hnote⟩ := ih hlater
      rw [List.append_assoc, List.singleton_append] at hnote
      exact ⟨line :: up, later, down, rfl, hnote⟩

/-! ## Notes and lines -/

/-- A new start is noted of a `start` line, and the old one is the value of the last `start` line
    above. -/
theorem note?_eq_startRedefined {new old : String}
    (h : note? above line = some (.startRedefined new old)) :
    InHeader above ∧ keywordOf? line.text.toList = some .start ∧
      valueOf line.text.toList = new.toList ∧
        (valuesOf .start above).getLast? = some old.toList := by
  unfold note? at h
  split at h
  case isTrue habove =>
    split at h
    case isTrue hk =>
      obtain ⟨value, hlast, heq⟩ := Option.map_eq_some_iff.1 h
      cases heq
      exact ⟨habove, hk, String.toList_ofList.symm, by rw [hlast, String.toList_ofList]⟩
    case isFalse => cases h
  case isFalse =>
    split at h
    · cases h
    · obtain ⟨target, -, heq⟩ := Option.map_eq_some_iff.1 h
      cases heq

/-- A new target is noted of a rule, and the old one is that of the last rule above for the same
    source and symbol. -/
theorem note?_eq_rebound {number : Nat} {p q old : String} {c : Char}
    (h : note? above line = some (.rebound number p c q old)) :
    ¬ InHeader above ∧ line.number = number ∧ Rule.IsWritten ⟨p, c, q⟩ line.text.toList ∧
      LastTarget (rulePart above) p c old := by
  unfold note? at h
  split at h
  case isTrue =>
    split at h
    · obtain ⟨value, -, heq⟩ := Option.map_eq_some_iff.1 h
      cases heq
    · cases h
  case isFalse habove =>
    split at h
    case h_1 => cases h
    case h_2 r hr =>
      obtain ⟨target, hlast, heq⟩ := Option.map_eq_some_iff.1 h
      cases heq
      rw [getLast?_filterMap_eq_some_iff] at hlast
      simp only [targetOf?_eq_some_iff, targetOf?_eq_none_iff] at hlast
      exact ⟨habove, rfl, Rule.ofLine_eq_ok_iff.1 hr, hlast⟩

/-! ## The reader -/

section Reader

variable {read : Logged Reader} {r r' : Reader} {taken : List Line} {log : List Record}

/-- What a builder knows of the start is what the `start` lines say. -/
theorem startNote_eq {b : Builder} (hb : b.WellFormed)
    (hrecords : b.Records (above.flatMap headerDeclarations)) (line : Line) :
    startNote b line = (valuesOf .start above).getLast?.map fun old =>
      .startRedefined (String.ofList (valueOf line.text.toList)) (String.ofList old) := by
  have hstarts := filterMap_start?_headers above
  rw [startNote]
  cases hs : b.start with
  | none =>
    have hnone : (above.flatMap headerDeclarations).filterMap History.start? = [] := by
      by_contra hne
      exact (hrecords.start_ne_none_iff hb).2 hne hs
    rw [hnone, eq_comm, List.map_eq_nil_iff] at hstarts
    rw [hstarts]
    rfl
  | some s =>
    obtain ⟨n, hn, hlast⟩ := hrecords.exists_name_of_start hb hs
    rw [hstarts, List.getLast?_map] at hlast
    obtain ⟨value, hvalue, rfl⟩ := Option.map_eq_some_iff.1 hlast
    rw [hvalue, Option.map_some, Option.map_some, TransitionSystem.name_of_name?_eq_some hn]

/-- What a builder knows of a state and a symbol is what the rules say. -/
theorem ruleNote_eq {b : Builder} {headers ruleLines : List (List Char)} {rules : List Rule}
    (hb : b.WellFormed) (hrules : List.Forall₂ Rule.IsWritten rules ruleLines)
    (hrecords : b.Records (declarationsOf headers rules)) {x : Rule} {s : Nat}
    (hs : b.state? x.source = some s) (line : Line) :
    ruleNote b line x s =
      (ruleLines.filterMap (targetOf? x.source x.symbol)).getLast?.map fun old =>
        .rebound line.number x.source x.symbol x.target old := by
  have hname : b.name? s = some x.source := hb.system.state?_eq_some_iff.1 hs
  have htargets : (declarationsOf headers rules).filterMap (History.target? x.source x.symbol) =
      ruleLines.filterMap (targetOf? x.source x.symbol) := filterMap_target?_eq hrules
  rw [ruleNote, ← htargets]
  cases ht : b.next? s x.symbol with
  | none =>
    rw [(hrecords.next?_eq_none_iff hb hname).1 ht]
    rfl
  | some t =>
    obtain ⟨q, hq, hlast⟩ := (hrecords.next?_eq_some_iff hb hname).1 ht
    rw [hlast, Option.map_some, Option.map_some, TransitionSystem.name_of_name?_eq_some hq]

/-- A reader notes of a line what is to be noted of it. -/
theorem log_of_takes (habove : (Reader.readLines {} taken).value = .ok r)
    (h : r.Takes line read) :
    read.log = (note? (taken.map fun line => line.text.toList) line).toList := by
  obtain ⟨xs, answers, hlines, hxs⟩ := Reader.readLines_eq_ok_iff.1 habove
  obtain ⟨hrecords, hb⟩ := Builder.records_of_declareAll hxs
  generalize (taken.map fun line => line.text.toList) = above at hlines ⊢
  have hpart := hlines.part_eq_header_iff
  unfold note?
  cases h with
  | quiet hheader hstart hend hquiet => rw [if_pos (hpart.1 hheader), if_neg hstart]; rfl
  | start hheader hk hs =>
    rw [hlines.eq_flatMap (hpart.1 hheader)] at hrecords
    rw [if_pos (hpart.1 hheader), if_pos hk, startNote_eq hb hrecords]
  | ends hheader hk =>
    have hstart : keywordOf? line.text.toList ≠ some .start := by simp [hk]
    rw [if_pos (hpart.1 hheader), if_neg hstart]
    rfl
  | @rule x s t hrule hx hs hc ht =>
    have hbelow : ¬ InHeader above := fun hin => by
      rw [hpart.2 hin] at hrule
      cases hrule
    obtain ⟨-, rules, hrules, rfl⟩ := declares_header_iff.1 ⟨_, hlines⟩
    rw [if_neg hbelow, Rule.ofLine_eq_ok_iff.2 hx, ruleNote_eq hb hrules hrecords hs]

/-- The log of lines that are taken is their account.  Induction on the lines; those above are
    carried along. -/
theorem Reader.ReadsTo.log_eq (h : r.ReadsTo lines log r')
    (habove : (Reader.readLines {} taken).value = .ok r) :
    log = account (taken.map fun line => line.text.toList) lines := by
  induction h generalizing taken with
  | nil r => rfl
  | @cons r r' line lines read log hstep hrest ih =>
    have hnote := log_of_takes habove (takes_of_step hstep)
    have hnext : (Reader.readLines {} (taken ++ [line])).value = .ok read.value := by
      rw [Reader.readLines_append, habove]
      exact Reader.readLines_cons_of_ok hstep []
    rw [hnote, ih hnext, List.map_append]
    rfl

/-- A reader that begins with the first line has the account of all its lines. -/
theorem Reader.ReadsTo.log_eq_account (h : Reader.ReadsTo {} lines log r') :
    log = account [] lines := by
  have hnothing : (Reader.readLines {} []).value = .ok {} := rfl
  exact h.log_eq hnothing

end Reader

/-! ## The log -/

variable {text : String} {d : Automaton}

/-- The log of a definition is a true account of its lines. -/
structure TrueAccount (text : String) : Prop where
  /-- When the definition fails, the log is the account of the lines above the one that fails, or
      of all lines if none does. -/
  failed : ∀ e, (parse text).value = .error e →
    ∃ taken below, significantLines text = taken ++ below ∧ e.place = below.head? ∧
      (parse text).log = account [] taken
  /-- When it is complete, the log is the account of all lines and the summary. -/
  complete : ∀ d, (parse text).value = .ok d →
    (parse text).log = account [] (significantLines text) ++ summary d
  /-- An automaton is recorded as built when it is built, and with the number of its transitions. -/
  built : ∀ count symbols m, .built count symbols m ∈ (parse text).log →
    ∃ d, (parse text).value = .ok d ∧ count = d.stateCount ∧ symbols = d.alphabet ∧
      m = d.transitions.length
  /-- A new target is recorded of a rule below another for the same source and symbol, and the
      last of these has the old target. -/
  rebound : ∀ number p c q old, .rebound number p c q old ∈ (parse text).log →
    ∃ above line below, significantLines text = above ++ line :: below ∧ line.number = number ∧
      ¬ InHeader (above.map fun line => line.text.toList) ∧
        Rule.IsWritten ⟨p, c, q⟩ line.text.toList ∧
          LastTarget (rulePart (above.map fun line => line.text.toList)) p c old
  /-- A new start is recorded of a `start` line below another, and the last of these names the old
      start. -/
  startRedefined : ∀ new old, .startRedefined new old ∈ (parse text).log →
    ∃ above line below, significantLines text = above ++ line :: below ∧
      InHeader (above.map fun line => line.text.toList) ∧
        keywordOf? line.text.toList = some .start ∧ valueOf line.text.toList = new.toList ∧
          (valuesOf .start (above.map fun line => line.text.toList)).getLast? = some old.toList
  /-- Every rule gives the automaton a transition, or the change of a target is recorded. -/
  rules : ∀ d, (parse text).value = .ok d →
    ∃ m, .built d.stateCount d.alphabet m ∈ (parse text).log ∧
      (ruleLines text).length = m + (parse text).log.countP Record.isRebound
  /-- Every `start` line but one is recorded. -/
  starts : ∀ d, (parse text).value = .ok d →
    (valuesOf .start (headerLines text)).length =
      1 + (parse text).log.countP Record.isStartRedefined

/-- A failure at a line leaves the log of the lines above; one at no line leaves that of all. -/
theorem log_of_parse_error {e : Error} (h : (parse text).value = .error e) :
    (parse text).log = (Reader.readLines {} (significantLines text)).log := by
  unfold parse at h ⊢
  dsimp only at h ⊢
  split at h
  · rfl
  · split at h
    · rfl
    · cases h

theorem exists_account_of_parse_error {e : Error} (h : (parse text).value = .error e) :
    ∃ taken below, significantLines text = taken ++ below ∧ e.place = below.head? ∧
      (parse text).log = account [] taken := by
  rw [log_of_parse_error h]
  cases hplace : e.place with
  | some line =>
    have hread := readLines_of_parse_error h hplace
    obtain ⟨above, bad, below, r', hsplit, hbad, hreads⟩ := readsTo_of_readLines_eq_error hread
    exact ⟨above, bad :: below, hsplit, hplace.symm.trans hbad, hreads.log_eq_account⟩
  | none =>
    obtain ⟨r, hread⟩ := exists_readLines_of_parse_error h hplace
    have hreads := readsTo_of_readLines_eq_ok hread
    exact ⟨significantLines text, [], (List.append_nil _).symm, rfl, hreads.log_eq_account⟩

/-- A complete definition was read to its end, and the reader left a builder that builds it. -/
theorem readsTo_of_parse (h : (parse text).value = .ok d) :
    ∃ r, Reader.ReadsTo {} (significantLines text)
        (Reader.readLines {} (significantLines text)).log r ∧
      r.builder.build = .ok d := by
  obtain ⟨r, hread, hbuild⟩ := parse_eq_ok_iff_exists_reader.1 h
  exact ⟨r, readsTo_of_readLines_eq_ok hread, hbuild⟩

theorem log_eq_account_of_parse (h : (parse text).value = .ok d) :
    (parse text).log = account [] (significantLines text) ++ summary d := by
  obtain ⟨r, hreads, -⟩ := readsTo_of_parse h
  rw [log_of_parse h, hreads.log_eq_account]

/-- Whatever became of the definition, a record of a replacement is in the account of lines that
    stand at the beginning. -/
theorem exists_of_mem_log (h : x ∈ (parse text).log) (hx : x.IsReplacement) :
    ∃ above line below, significantLines text = above ++ line :: below ∧
      note? (above.map fun line => line.text.toList) line = some x := by
  cases hvalue : (parse text).value with
  | error e =>
    obtain ⟨taken, rest, hsplit, -, hlog⟩ := exists_account_of_parse_error hvalue
    rw [hlog] at h
    obtain ⟨above, line, below, rfl, hnote⟩ := exists_of_mem_account h
    exact ⟨above, line, below ++ rest, by simp [hsplit], hnote⟩
  | ok d =>
    rw [log_eq_account_of_parse hvalue, List.mem_append] at h
    rcases h with hlines | hsummary
    · exact exists_of_mem_account hlines
    · exact absurd hx (not_isReplacement_of_mem_summary hsummary)

/-! How many records there are of each kind. -/

theorem countP_summary {p : Record → Bool} (hp : ∀ x, p x = true → x.IsReplacement)
    (d : Automaton) : (summary d).countP p = 0 := by
  rw [List.countP_eq_zero]
  exact fun x hx hpx => not_isReplacement_of_mem_summary hx (hp x hpx)

theorem isReplacement_of_isRebound (x : Record) (h : x.isRebound = true) : x.IsReplacement := by
  cases x with
  | rebound => trivial
  | _ => cases h

theorem isReplacement_of_isStartRedefined (x : Record) (h : x.isStartRedefined = true) :
    x.IsReplacement := by
  cases x with
  | startRedefined => trivial
  | _ => cases h

/-- The rules of a definition are those that bound a pair first and those that are recorded. -/
theorem length_ruleLines_of_parse (h : (parse text).value = .ok d) :
    (ruleLines text).length =
      d.transitions.length + (parse text).log.countP Record.isRebound := by
  obtain ⟨r, hreads, hbuild⟩ := readsTo_of_parse h
  obtain ⟨-, -, -, hsystem⟩ := Builder.build_eq_ok_iff.1 hbuild
  have hcount := hreads.count_rules
  rw [map_text_significantLines, ← hsystem, ← TransitionSystem.length_transitions
    (wellFormed_of_parse h).1] at hcount
  change (ruleLines text).length + 0 = _ at hcount
  rw [log_of_parse h, List.countP_append, countP_summary isReplacement_of_isRebound]
  omega

/-- The `start` lines are the first of them and those that are recorded. -/
theorem length_starts_of_parse (h : (parse text).value = .ok d) :
    (valuesOf .start (headerLines text)).length =
      1 + (parse text).log.countP Record.isStartRedefined := by
  obtain ⟨r, hreads, hbuild⟩ := readsTo_of_parse h
  obtain ⟨-, -, hstart, -⟩ := Builder.build_eq_ok_iff.1 hbuild
  have hcount := hreads.count_starts
  rw [map_text_significantLines, hstart] at hcount
  change (valuesOf .start (headerLines text)).length + 0 = _ + 1 at hcount
  rw [log_of_parse h, List.countP_append, countP_summary isReplacement_of_isStartRedefined]
  omega

/-- **The log of a definition is a true account**, whether it can be read or not. -/
theorem parse_trueAccount (text : String) : TrueAccount text where
  failed _ := exists_account_of_parse_error
  complete _ := log_eq_account_of_parse
  built count symbols m h := by
    cases hvalue : (parse text).value with
    | error e =>
      rw [log_of_parse_error hvalue] at h
      exact (isReplacement_of_mem_readLines h).elim
    | ok d =>
      rw [mem_log_iff_of_parse hvalue id, built_mem_summary_iff] at h
      exact ⟨d, rfl, h⟩
  rebound number p c q old h := by
    obtain ⟨above, line, below, hsplit, hnote⟩ := exists_of_mem_log h trivial
    obtain ⟨hbelow, hnumber, hwritten, hlast⟩ := note?_eq_rebound hnote
    exact ⟨above, line, below, hsplit, hnumber, hbelow, hwritten, hlast⟩
  startRedefined new old h := by
    obtain ⟨above, line, below, hsplit, hnote⟩ := exists_of_mem_log h trivial
    exact ⟨above, line, below, hsplit, note?_eq_startRedefined hnote⟩
  rules d h := by
    refine ⟨d.transitions.length, ?_, length_ruleLines_of_parse h⟩
    rw [mem_log_iff_of_parse h id, built_mem_summary_iff]
    exact ⟨rfl, rfl, rfl⟩
  starts _ := length_starts_of_parse

/-- The second `start` line and the last two rules are noted, the last of them although the target
    is the same. -/
example :
    (parse ("states: A, B\nalphabet: 0\nstart: A\nstart: B\ntransitions:\n" ++
      "A,0->A\nB,0->A\nA,0->B\nA,0->B\n")).log =
      [.startRedefined "B" "A", .rebound 8 "A" '0' "B" "A", .rebound 9 "A" '0' "B" "B",
        .built 2 ['0'] 2, .noAccepting] := by decide +kernel

end Acceptor.Definition
