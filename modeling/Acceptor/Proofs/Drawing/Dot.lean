/-
  Reading the DOT language.

  This is a reader for the part of the language in which drawings are written: one directed graph
  without a name, nodes and edges with lists of attributes, words and quoted texts as names.  It is
  written from the language and not from the drawings, so what it reads in them is what they say.

  1. **Machines** — `transduce`: reading goes from state to state, one letter at a time, and writes
     on the way.

  2. **Tokens** — from characters to tokens.  In a quoted text a backslash stands for the character
     behind it.

  3. **Statements** — from tokens to statements.  An attribute list may hold any number of
     attributes, and a statement ends where the next one begins.

  4. **Drawings** — each part of a drawing comes off the front of the text, and the statements that
     are read are those that were written.  Main result: `read_write`.
-/
import Acceptor.Proofs.Drawing.Legible

namespace Acceptor.Dot

open Drawing

/-! ## Machines -/

section Machines

variable {σ α β : Type} {step : σ → α → Option (List β × σ)} {finish : σ → Option (List β)}

/-- What a machine writes while it reads from a state on.  It has no answer when it finds no step to
    take, or when the text ends in a state in which it must not end. -/
def transduce (step : σ → α → Option (List β × σ)) (finish : σ → Option (List β)) :
    σ → List α → Option (List β)
  | s, [] => finish s
  | s, a :: rest =>
    (step s a).bind fun (written, s') => (transduce step finish s' rest).map (written ++ ·)

theorem transduce_cons {s s' : σ} {a : α} {written : List β} (h : step s a = some (written, s'))
    (rest : List α) :
    transduce step finish s (a :: rest) =
      (transduce step finish s' rest).map (written ++ ·) := by
  rw [transduce, h]
  rfl

/-- A step at which nothing is written. -/
theorem transduce_cons_silent {s s' : σ} {a : α} (h : step s a = some ([], s')) (rest : List α) :
    transduce step finish s (a :: rest) = transduce step finish s' rest := by
  rw [transduce_cons h]
  cases transduce step finish s' rest <;> rfl

end Machines

/-! ## Tokens -/

/-- What a text is made of. -/
inductive Token
  | name (name : NodeName)
  | arrow
  | openBrace
  | closeBrace
  | openBracket
  | closeBracket
  | equals
deriving DecidableEq

/-- A word begins with a letter or an underscore. -/
def beginsWord (c : Char) : Bool := c.isAlpha || c == '_'

/-- A word goes on with letters, underscores and digits. -/
def continuesWord (c : Char) : Bool := c.isAlphanum || c == '_'

/-- The characters of a word. -/
def isWord : List Char → Bool
  | [] => false
  | c :: rest => beginsWord c && rest.all continuesWord

/-- The token that a single character is. -/
def mark? : Char → Option Token
  | '\x7b' => some .openBrace
  | '\x7d' => some .closeBrace
  | '[' => some .openBracket
  | ']' => some .closeBracket
  | '=' => some .equals
  | _ => none

/-- Where the reader of characters is. -/
inductive Mode
  | between
  | word (seen : List Char)
  | quote (seen : List Char)
  /-- Behind a backslash in a quoted text. -/
  | escape (seen : List Char)
  /-- Behind the first character of an arrow. -/
  | dash

/-- What the first character of a token does, or a blank. -/
def Mode.begin (c : Char) : Option (List Token × Mode) :=
  if beginsWord c then some ([], .word [c])
  else if c = '"' then some ([], .quote [])
  else if c = '-' then some ([], .dash)
  else if c.isWhitespace then some ([], .between)
  else (mark? c).map fun t => ([t], .between)

/-- What a character does. -/
def Mode.step : Mode → Char → Option (List Token × Mode)
  | .between, c => begin c
  | .word seen, c =>
    if continuesWord c then some ([], .word (seen ++ [c]))
    else (begin c).map fun (written, mode) =>
      (.name (.bare (String.ofList seen)) :: written, mode)
  | .quote seen, c =>
    if c = '"' then some ([.name (.quoted (String.ofList seen))], .between)
    else if c = '\\' then some ([], .escape seen)
    else some ([], .quote (seen ++ [c]))
  | .escape seen, c => some ([], .quote (seen ++ [c]))
  | .dash, c => if c = '>' then some ([.arrow], .between) else none

/-- What the end of the text does. -/
def Mode.finish : Mode → Option (List Token)
  | .between => some []
  | .word seen => some [.name (.bare (String.ofList seen))]
  | _ => none

/-- The tokens that are read from a mode on. -/
def scan : Mode → List Char → Option (List Token) := transduce Mode.step Mode.finish

/-- The tokens of a text. -/
def tokens (s : List Char) : Option (List Token) := scan .between s

/-! ## Statements -/

/-- What a statement speaks of. -/
inductive Subject
  | node (name : NodeName)
  | edge (source target : NodeName)
deriving DecidableEq

/-- A statement gives attributes to its subject: keys with values, as they are written. -/
structure Statement where
  subject : Subject
  attributes : List (NodeName × NodeName)
deriving DecidableEq

/-- Where the reader of tokens is. -/
inductive Place
  /-- In front of the word that opens a graph, and behind it. -/
  | opening
  | opened
  /-- In front of a statement, or of the end. -/
  | between
  /-- Behind what may be all of a subject. -/
  | told (x : Subject)
  /-- Behind an arrow. -/
  | arrow (source : NodeName)
  /-- In a list of attributes. -/
  | list (x : Subject) (given : List (NodeName × NodeName))
  | key (x : Subject) (given : List (NodeName × NodeName)) (k : NodeName)
  | equals (x : Subject) (given : List (NodeName × NodeName)) (k : NodeName)
  | closed

/-- What a token does. -/
def Place.step : Place → Token → Option (List Statement × Place)
  | .opening, .name (.bare word) => if word = "digraph" then some ([], .opened) else none
  | .opened, .openBrace => some ([], .between)
  | .between, .name n => some ([], .told (.node n))
  | .between, .closeBrace => some ([], .closed)
  | .told (.node n), .arrow => some ([], .arrow n)
  | .told x, .openBracket => some ([], .list x [])
  | .told x, .name n => some ([⟨x, []⟩], .told (.node n))
  | .told x, .closeBrace => some ([⟨x, []⟩], .closed)
  | .arrow n, .name target => some ([], .told (.edge n target))
  | .list x given, .name k => some ([], .key x given k)
  | .list x given, .closeBracket => some ([⟨x, given⟩], .between)
  | .key x given k, .equals => some ([], .equals x given k)
  | .equals x given k, .name value => some ([], .list x (given ++ [(k, value)]))
  | _, _ => none

/-- A graph ends with its closing brace. -/
def Place.finish : Place → Option (List Statement)
  | .closed => some []
  | _ => none

/-- The statements that are read from a place on. -/
def parse : Place → List Token → Option (List Statement) := transduce Place.step Place.finish

/-- The statements of a text in the language. -/
def read (text : String) : Option (List Statement) :=
  (tokens text.toList).bind fun ts => parse .opening ts

/-! ## Drawings -/

section Tokens

variable {c : Char} {w rest : List Char} {out : List Token} {mode mode' : Mode}

/-! A token comes off the front of a text. -/

theorem scan_cons (h : mode.step c = some (out, mode')) (rest : List Char) :
    scan mode (c :: rest) = (scan mode' rest).map (out ++ ·) := transduce_cons h rest

theorem scan_cons_silent (h : mode.step c = some ([], mode')) (rest : List Char) :
    scan mode (c :: rest) = scan mode' rest := transduce_cons_silent h rest

theorem tokens_cons (h : Mode.begin c = some (out, .between)) (rest : List Char) :
    tokens (c :: rest) = (tokens rest).map (out ++ ·) := by
  have hstep : Mode.step .between c = some (out, .between) := h
  rw [tokens, scan_cons hstep]
  rfl

theorem tokens_space (rest : List Char) : tokens (' ' :: rest) = tokens rest :=
  scan_cons_silent (by rfl) rest

theorem tokens_newline (rest : List Char) : tokens ('\n' :: rest) = tokens rest :=
  scan_cons_silent (by rfl) rest

theorem tokens_spaces (h : ∀ c ∈ w, c = ' ') (rest : List Char) :
    tokens (w ++ rest) = tokens rest := by
  induction w with
  | nil => rfl
  | cons c w ih =>
    rw [List.forall_mem_cons] at h
    obtain ⟨rfl, hw⟩ := h
    rw [List.cons_append, tokens_space, ih hw]

theorem tokens_arrow (rest : List Char) :
    tokens ('-' :: '>' :: rest) = (tokens rest).map (.arrow :: ·) := by
  have hdash : Mode.step .between '-' = some ([], .dash) := by rfl
  have harrow : Mode.step .dash '>' = some ([.arrow], .between) := by rfl
  rw [tokens, scan_cons_silent hdash, scan_cons harrow]
  rfl

/-- A word goes on until a character that cannot be in it. -/
theorem scan_word (hw : ∀ x ∈ w, continuesWord x = true) (hc : continuesWord c = false)
    (seen rest : List Char) :
    scan (.word seen) (w ++ c :: rest) =
      (tokens (c :: rest)).map (.name (.bare (String.ofList (seen ++ w))) :: ·) := by
  induction w generalizing seen with
  | nil =>
    -- the character that ends the word begins what is behind it
    show (Mode.step (.word seen) c).bind _ = ((Mode.begin c).bind _).map _
    rw [Mode.step, if_neg (by simp [hc]), List.append_nil]
    cases Mode.begin c with
    | none => rfl
    | some next =>
      show Option.map _ _ = Option.map _ (Option.map _ _)
      rw [Option.map_map]
      rfl
  | cons x w ih =>
    rw [List.forall_mem_cons] at hw
    have hx : Mode.step (.word seen) x = some ([], .word (seen ++ [x])) := by
      rw [Mode.step, if_pos hw.1]
    rw [List.cons_append, scan_cons_silent hx, ih hw.2, List.append_assoc, List.singleton_append]

theorem tokens_word (hw : isWord w = true) (hc : continuesWord c = false) (rest : List Char) :
    tokens (w ++ c :: rest) =
      (tokens (c :: rest)).map (.name (.bare (String.ofList w)) :: ·) := by
  cases w with
  | nil => cases hw
  | cons x w =>
    rw [isWord, Bool.and_eq_true, List.all_eq_true] at hw
    have hx : Mode.step .between x = some ([], .word [x]) := by
      show Mode.begin x = _
      rw [Mode.begin, if_pos hw.1]
    rw [List.cons_append, tokens, scan_cons_silent hx]
    exact scan_word hw.2 hc [x] rest

/-- A quoted text ends with its quote, and means what was quoted. -/
theorem scan_quote (s seen rest : List Char) :
    scan (.quote seen) (s.flatMap quote.quoteChar ++ '"' :: rest) =
      (tokens rest).map (.name (.quoted (String.ofList (seen ++ s))) :: ·) := by
  induction s generalizing seen with
  | nil =>
    have hend : Mode.step (.quote seen) '"' =
        some ([.name (.quoted (String.ofList seen))], .between) := by rfl
    rw [List.flatMap_nil, List.nil_append, List.append_nil, scan_cons hend]
    rfl
  | cons c s ih =>
    rw [List.flatMap_cons, List.append_assoc, List.append_cons seen]
    rcases quoteChar_cases c with hquote | ⟨hquote, hslash, hdouble⟩
    · -- a backslash, and the character that it stands for
      have hescape : Mode.step (.quote seen) '\\' = some ([], .escape seen) := by rfl
      have hc : Mode.step (.escape seen) c = some ([], .quote (seen ++ [c])) := by rfl
      rw [hquote, List.cons_append, List.singleton_append, scan_cons_silent hescape,
        scan_cons_silent hc]
      exact ih (seen ++ [c])
    · have hc : Mode.step (.quote seen) c = some ([], .quote (seen ++ [c])) := by
        rw [Mode.step, if_neg hdouble, if_neg hslash]
      rw [hquote, List.singleton_append, scan_cons_silent hc]
      exact ih (seen ++ [c])

theorem tokens_quote (s : String) (rest : List Char) :
    tokens ((quote s).toList ++ rest) = (tokens rest).map (.name (.quoted s) :: ·) := by
  have hopen : Mode.step .between '"' = some ([], .quote []) := by rfl
  rw [toList_quote, List.cons_append, List.append_assoc, List.singleton_append, tokens,
    scan_cons_silent hopen, scan_quote, List.nil_append, String.ofList_toList]

/-- A name that can be read: a word, or anything in quotes. -/
def IsReadable : NodeName → Prop
  | .bare word => isWord word.toList = true
  | .quoted _ => True

theorem tokens_name {name : NodeName} (hname : IsReadable name) (hc : continuesWord c = false)
    (rest : List Char) :
    tokens (name.text.toList ++ c :: rest) = (tokens (c :: rest)).map (.name name :: ·) := by
  cases name with
  | bare word =>
    show tokens (word.toList ++ _) = _
    rw [tokens_word hname hc, String.ofList_toList]
  | quoted name => exact tokens_quote name _

end Tokens

section Lines

variable {layout : Layout} {rest : List Char}

/-! The tokens of a statement come off the front of a text. -/

theorem isWord_shape (shape : Shape) : isWord shape.text.toList = true := by
  cases shape <;> decide

/-- The tokens of a statement. -/
def tokensOf : Drawing.Statement → List Token
  | .node name shape =>
    [.name name, .openBracket, .name (.bare "shape"), .equals, .name (.bare shape.text),
      .closeBracket]
  | .edge source target [] => [.name source, .arrow, .name target]
  | .edge source target (c :: symbols) =>
    [.name source, .arrow, .name target, .openBracket, .name (.bare "label"), .equals,
      .name (.quoted (label (c :: symbols))), .closeBracket]

/-- The names of the nodes in a statement can be read. -/
def CanBeRead : Drawing.Statement → Prop
  | .node name _ => IsReadable name
  | .edge source target _ => IsReadable source ∧ IsReadable target

theorem tokens_key {key : String} (hkey : isWord key.toList = true) (rest : List Char) :
    tokens ('[' :: (key.toList ++ '=' :: rest)) =
      (tokens rest).map ([.openBracket, .name (.bare key), .equals] ++ ·) := by
  have hopen : Mode.begin '[' = some ([.openBracket], .between) := by rfl
  have hequals : Mode.begin '=' = some ([.equals], .between) := by rfl
  rw [tokens_cons hopen, tokens_word hkey (by decide), tokens_cons hequals, Option.map_map,
    Option.map_map, String.ofList_toList]
  rfl

theorem tokens_close (rest : List Char) :
    tokens (']' :: '\n' :: rest) = (tokens rest).map (.closeBracket :: ·) := by
  have hclose : Mode.begin ']' = some ([.closeBracket], .between) := by rfl
  rw [tokens_cons hclose, tokens_newline]
  rfl

/-- Behind the name of a node there is a blank or a bracket. -/
theorem tokens_name_gap {name : NodeName} (hname : IsReadable name)
    (hgap : ∀ c ∈ layout.gap.toList, c = ' ') (rest : List Char) :
    tokens (name.text.toList ++ (layout.gap.toList ++ '[' :: rest)) =
      (tokens ('[' :: rest)).map (.name name :: ·) := by
  cases hchars : layout.gap.toList with
  | nil => exact tokens_name hname (by decide) rest
  | cons c gap =>
    rw [hchars, List.forall_mem_cons] at hgap
    obtain ⟨rfl, hgap⟩ := hgap
    rw [List.cons_append, tokens_name hname (by decide), tokens_space, tokens_spaces hgap]

theorem tokens_node {name : NodeName} (hname : IsReadable name)
    (hgap : ∀ c ∈ layout.gap.toList, c = ' ') (shape : Shape) (rest : List Char) :
    tokens ((Drawing.Statement.line layout (.node name shape)).toList ++ rest) =
      (tokens rest).map (tokensOf (.node name shape) ++ ·) := by
  have hindent : "  ".toList = [' ', ' '] := by decide
  have hkey : "[shape=".toList = '[' :: ("shape".toList ++ ['=']) := by decide
  have hend : "]\n".toList = [']', '\n'] := by decide
  rw [toList_line_node, hindent, hkey, hend]
  simp only [List.append_assoc, List.cons_append, List.nil_append]
  rw [tokens_space, tokens_space, tokens_name_gap hname hgap, tokens_key (by decide),
    tokens_word (isWord_shape shape) (by decide), tokens_close, Option.map_map, Option.map_map,
    Option.map_map, String.ofList_toList]
  rfl

theorem tokens_edge {source target : NodeName} (hsource : IsReadable source)
    (htarget : IsReadable target) (symbols rest : List Char) :
    tokens ((Drawing.Statement.line layout (.edge source target symbols)).toList ++ rest) =
      (tokens rest).map (tokensOf (.edge source target symbols) ++ ·) := by
  have hindent : "  ".toList = [' ', ' '] := by decide
  have harrow : " -> ".toList = [' ', '-', '>', ' '] := by decide
  rw [toList_line_edge, hindent, harrow]
  cases symbols with
  | nil =>
    rw [edgeEnd_nil]
    simp only [List.append_assoc, List.cons_append, List.nil_append]
    rw [tokens_space, tokens_space, tokens_name hsource (by decide), tokens_space, tokens_arrow,
      tokens_space, tokens_name htarget (by decide), tokens_newline, Option.map_map,
      Option.map_map]
    rfl
  | cons c symbols =>
    have hkey : " [label=".toList = ' ' :: '[' :: ("label".toList ++ ['=']) := by decide
    have hend : "]\n".toList = [']', '\n'] := by decide
    rw [edgeEnd_cons, hkey, hend]
    simp only [List.append_assoc, List.cons_append, List.nil_append]
    rw [tokens_space, tokens_space, tokens_name hsource (by decide), tokens_space, tokens_arrow,
      tokens_space, tokens_name htarget (by decide), tokens_space, tokens_key (by decide),
      tokens_quote, tokens_close, Option.map_map, Option.map_map, Option.map_map,
      Option.map_map, Option.map_map]
    rfl

theorem tokens_line (hgap : ∀ c ∈ layout.gap.toList, c = ' ') {x : Drawing.Statement}
    (hx : CanBeRead x) (rest : List Char) :
    tokens ((x.line layout).toList ++ rest) = (tokens rest).map (tokensOf x ++ ·) := by
  cases x with
  | node name shape => exact tokens_node hx hgap shape rest
  | edge source target symbols => exact tokens_edge hx.1 hx.2 symbols rest

end Lines

/-- A layout that the language allows. -/
structure IsLayout (layout : Layout) : Prop where
  opening : ∀ rest, tokens (layout.opening.toList ++ rest) =
    (tokens rest).map ([.name (.bare "digraph"), .openBrace] ++ ·)
  gap : ∀ c ∈ layout.gap.toList, c = ' '
  closing : tokens layout.closing.toList = some [.closeBrace]

/-- There may be any number of blanks in front of the brace. -/
theorem tokens_opening {blanks : List Char} (hblanks : ∀ c ∈ blanks, c = ' ') (rest : List Char) :
    tokens ("digraph".toList ++ ' ' :: (blanks ++ (['\x7b', '\n'] ++ rest))) =
      (tokens rest).map ([.name (.bare "digraph"), .openBrace] ++ ·) := by
  have hbrace : Mode.begin '\x7b' = some ([.openBrace], .between) := by rfl
  rw [tokens_word (by decide) (by decide), String.ofList_toList, tokens_space,
    tokens_spaces hblanks, List.cons_append, tokens_cons hbrace, List.singleton_append,
    tokens_newline, Option.map_map]
  rfl

theorem isLayout_spaced : IsLayout .spaced where
  opening rest := by
    have hopening : Layout.spaced.opening.toList =
        "digraph".toList ++ ' ' :: ([] ++ ['\x7b', '\n']) := by decide
    rw [hopening, List.append_assoc, List.cons_append, List.append_assoc]
    exact tokens_opening (by simp) rest
  gap := Layout.isPlain_spaced.gap
  closing := by rfl

theorem isLayout_compact : IsLayout .compact where
  opening rest := by
    have hopening : Layout.compact.opening.toList =
        "digraph".toList ++ ' ' :: ([' '] ++ ['\x7b', '\n']) := by decide
    rw [hopening, List.append_assoc, List.cons_append, List.append_assoc]
    exact tokens_opening (by simp) rest
  gap := Layout.isPlain_compact.gap
  closing := by rfl

section Statements

variable {layout : Layout} {xs : List Drawing.Statement} {rest : List Token} {t : Token}
  {place place' : Place} {written : List Statement}

/-- The tokens of a drawing are those of its statements. -/
theorem tokens_write (hlayout : IsLayout layout) (hxs : ∀ x ∈ xs, CanBeRead x) :
    tokens (write layout xs).toList =
      some ([.name (.bare "digraph"), .openBrace] ++ (xs.flatMap tokensOf ++ [.closeBrace])) := by
  have hlines : tokens (xs.flatMap (fun x => (Drawing.Statement.line layout x).toList) ++
      layout.closing.toList) = some (xs.flatMap tokensOf ++ [.closeBrace]) := by
    induction xs with
    | nil => exact hlayout.closing
    | cons x xs ih =>
      rw [List.forall_mem_cons] at hxs
      rw [List.flatMap_cons, List.append_assoc, tokens_line hlayout.gap hxs.1, ih hxs.2,
        List.flatMap_cons, List.append_assoc]
      rfl
  rw [toList_write, hlayout.opening, hlines]
  rfl

/-- What a statement of a drawing says. -/
def ofDrawing : Drawing.Statement → Statement
  | .node name shape => ⟨.node name, [(.bare "shape", .bare shape.text)]⟩
  | .edge source target [] => ⟨.edge source target, []⟩
  | .edge source target (c :: symbols) =>
    ⟨.edge source target, [(.bare "label", .quoted (label (c :: symbols)))]⟩

theorem parse_cons (h : place.step t = some (written, place')) (rest : List Token) :
    parse place (t :: rest) = (parse place' rest).map (written ++ ·) := transduce_cons h rest

theorem parse_cons_silent (h : place.step t = some ([], place')) (rest : List Token) :
    parse place (t :: rest) = parse place' rest := transduce_cons_silent h rest

/-- Statements come off the front of the tokens.  A subject with a list of one attribute ends with
    the list. -/
theorem parse_list (x : Subject) (k v : NodeName) (rest : List Token) :
    parse (.told x)
        (.openBracket :: .name k :: .equals :: .name v :: .closeBracket :: rest) =
      (parse .between rest).map (⟨x, [(k, v)]⟩ :: ·) := by
  have hopen : Place.step (.told x) .openBracket = some ([], .list x []) := by cases x <;> rfl
  have hkey : Place.step (.list x []) (.name k) = some ([], .key x [] k) := rfl
  have hequals : Place.step (.key x [] k) .equals = some ([], .equals x [] k) := rfl
  have hvalue : Place.step (.equals x [] k) (.name v) = some ([], .list x [(k, v)]) := rfl
  have hclose : Place.step (.list x [(k, v)]) .closeBracket =
      some ([⟨x, [(k, v)]⟩], .between) := rfl
  rw [parse_cons_silent hopen, parse_cons_silent hkey, parse_cons_silent hequals,
    parse_cons_silent hvalue, parse_cons hclose]
  rfl

/-- What follows begins another statement, or ends the graph. -/
def FollowsStatement (rest : List Token) : Prop :=
  ∃ t more, rest = t :: more ∧ (t = .closeBrace ∨ ∃ n, t = .name n)

/-- A subject without attributes ends where something else begins. -/
theorem parse_bare (x : Subject) (hrest : FollowsStatement rest) :
    parse (.told x) rest = (parse .between rest).map (⟨x, []⟩ :: ·) := by
  obtain ⟨t, more, rfl, rfl | ⟨n, rfl⟩⟩ := hrest
  · have hthere : Place.step (.told x) .closeBrace = some ([⟨x, []⟩], .closed) := by
      cases x <;> rfl
    have hhere : Place.step .between .closeBrace = some ([], .closed) := rfl
    rw [parse_cons hthere, parse_cons_silent hhere]
    rfl
  · have hthere : Place.step (.told x) (.name n) = some ([⟨x, []⟩], .told (.node n)) := by
      cases x <;> rfl
    have hhere : Place.step .between (.name n) = some ([], .told (.node n)) := rfl
    rw [parse_cons hthere, parse_cons_silent hhere]
    rfl

theorem parse_tokensOf (x : Drawing.Statement) (hrest : FollowsStatement rest) :
    parse .between (tokensOf x ++ rest) = (parse .between rest).map (ofDrawing x :: ·) := by
  have hname : ∀ n, Place.step .between (.name n) = some ([], .told (.node n)) := fun _ => rfl
  have harrow : ∀ n, Place.step (.told (.node n)) .arrow = some ([], .arrow n) := fun _ => rfl
  have htarget : ∀ n n', Place.step (.arrow n) (.name n') = some ([], .told (.edge n n')) :=
    fun _ _ => rfl
  cases x with
  | node name shape =>
    show parse .between (.name name :: _) = _
    rw [parse_cons_silent (hname name)]
    exact parse_list (.node name) _ _ rest
  | edge source target symbols =>
    cases symbols with
    | nil =>
      show parse .between (.name source :: .arrow :: .name target :: rest) = _
      rw [parse_cons_silent (hname source), parse_cons_silent (harrow source),
        parse_cons_silent (htarget source target)]
      exact parse_bare (.edge source target) hrest
    | cons c symbols =>
      show parse .between (.name source :: .arrow :: .name target :: _) = _
      rw [parse_cons_silent (hname source), parse_cons_silent (harrow source),
        parse_cons_silent (htarget source target)]
      exact parse_list (.edge source target) _ _ rest

theorem followsStatement_tokensOf (x : Drawing.Statement) (rest : List Token) :
    FollowsStatement (tokensOf x ++ rest) := by
  cases x with
  | node name shape => exact ⟨_, _, rfl, .inr ⟨name, rfl⟩⟩
  | edge source target symbols =>
    cases symbols with
    | nil => exact ⟨_, _, rfl, .inr ⟨source, rfl⟩⟩
    | cons c symbols => exact ⟨_, _, rfl, .inr ⟨source, rfl⟩⟩

theorem parse_flatMap_tokensOf (xs : List Drawing.Statement) :
    parse .between (xs.flatMap tokensOf ++ [.closeBrace]) = some (xs.map ofDrawing) := by
  induction xs with
  | nil => rfl
  | cons x xs ih =>
    have hrest : FollowsStatement (xs.flatMap tokensOf ++ [.closeBrace]) := by
      cases xs with
      | nil => exact ⟨_, _, rfl, .inl rfl⟩
      | cons y ys =>
        rw [List.flatMap_cons, List.append_assoc]
        exact followsStatement_tokensOf y _
    rw [List.flatMap_cons, List.append_assoc, parse_tokensOf x hrest, ih]
    rfl

/-- **What is read in a drawing is what was written.** -/
theorem read_write (hlayout : IsLayout layout) (hxs : ∀ x ∈ xs, CanBeRead x) :
    read (write layout xs) = some (xs.map ofDrawing) := by
  have hopening : Place.step .opening (.name (.bare "digraph")) = some ([], .opened) := by rfl
  have hbrace : Place.step .opened .openBrace = some ([], .between) := rfl
  rw [read, tokens_write hlayout hxs]
  show parse .opening (.name (.bare "digraph") :: .openBrace ::
    (xs.flatMap tokensOf ++ [.closeBrace])) = _
  rw [parse_cons_silent hopening, parse_cons_silent hbrace, parse_flatMap_tokensOf]

end Statements

end Acceptor.Dot
