import Mathlib.Data.List.Basic

/-!
# Token recognition of the POSIX shell

A script is split into operators, IO numbers and words, one character after the
other. A word keeps how each of its characters was read: plain, quoted, as a
character with a meaning of its own, or as part of an expansion.

A template is a script with holes for values. Where the tokens of a template can
be recognised with its holes open, filling the holes with values that fit them
fills the words and changes nothing else.
-/

namespace PosixShell

/-- A part of a word. A hole stands for the characters of a value. -/
inductive Piece (κ : Type) where
  | plain (c : Char)
  | quoted (c : Char)
  /-- A quote character, removed after the expansions. -/
  | quote
  /-- An unquoted character of a pattern, a tilde, a brace or an exclamation mark. -/
  | special (c : Char)
  /-- An expansion with its whole text, and whether it is in double quotes. -/
  | expansion (quoted : Bool) (text : List Char)
  | hole (quoted : Bool) (key : κ)
  deriving DecidableEq

inductive Token (κ : Type) where
  | word (pieces : List (Piece κ))
  | ioNumber (digits : List Char)
  | operator (text : List Char)
  deriving DecidableEq

/-- What is open inside an expansion. -/
inductive Frame where
  | paren | brace | backquote | single | double | escape
  deriving DecidableEq

/-- What the next character is part of. -/
inductive Mode where
  | between
  | operator (text : List Char)
  | word
  /-- After a backslash outside of quotes; whether a word was open before it. -/
  | escape (inWord : Bool)
  | single
  | double
  | doubleEscape
  /-- After a dollar sign; whether it is in double quotes. -/
  | dollar (quoted : Bool)
  | name (quoted : Bool) (text : List Char)
  | nested (quoted : Bool) (text : List Char) (frames : List Frame)
  | comment
  deriving DecidableEq

/-! ## Characters -/

def isBlank (c : Char) : Bool := c == ' ' || c == '\t'

def operators : List (List Char) :=
  [['\n'], ['&'], ['|'], [';'], ['<'], ['>'], ['('], [')'], ['&', '&'], ['|', '|'], [';', ';'],
    ['<', '<'], ['>', '>'], ['<', '&'], ['>', '&'], ['<', '>'], ['<', '<', '-'], ['>', '|']]

def startsOperator (c : Char) : Bool := operators.contains [c]

def isRedirection (c : Char) : Bool := c == '<' || c == '>'

def isSpecial (c : Char) : Bool := ['*', '?', '[', ']', '~', '\x7b', '\x7d', '!'].contains c

def isQuoting (c : Char) : Bool := ['\x27', '"', '\\', '$', '\x60'].contains c

def startsName (c : Char) : Bool := c.isAlpha || c == '_'

def isNameChar (c : Char) : Bool := c.isAlphanum || c == '_'

/-- The parameters that are one character long. -/
def isSpecialParameter (c : Char) : Bool :=
  c.isDigit || ['@', '*', '#', '?', '-', '$', '!'].contains c

/-- A character that stands for itself everywhere outside of quotes. -/
def isInert (c : Char) : Bool :=
  !isBlank c && !startsOperator c && !isSpecial c && !isQuoting c && c != '#'

/-! ## Recognition -/

/-- The tokens so far, the word that is open, and what comes next. -/
structure Scan (κ : Type) where
  tokens : List (Token κ)
  pieces : List (Piece κ)
  mode : Mode

/-- The digits of a word that has nothing else. -/
def digitsOf {κ : Type} : List (Piece κ) → Option (List Char)
  | [] => some []
  | .plain c :: rest => if c.isDigit then (digitsOf rest).map (c :: ·) else none
  | _ :: _ => none

/-- The word as a token; digits in front of a redirection are an IO number. -/
def wordToken {κ : Type} (pieces : List (Piece κ)) (redirected : Bool) : Token κ :=
  match digitsOf pieces with
  | some (d :: ds) => if redirected then .ioNumber (d :: ds) else .word pieces
  | _ => .word pieces

/-- The frames after a character inside of an expansion; `dollar` says whether the
character before it was a dollar sign. -/
def nextFrames (dollar : Bool) (c : Char) : List Frame → List Frame
  | [] => []
  | .escape :: rest => rest
  | .single :: rest => if c = '\x27' then rest else .single :: rest
  | top :: rest =>
    if c = '\\' then .escape :: top :: rest
    else if c = '\x60' then
      if top = .backquote then rest else .backquote :: top :: rest
    else if c = '"' then
      if top = .double then rest else .double :: top :: rest
    else if c = '\x27' then
      if top = .double then top :: rest else .single :: top :: rest
    else if c = '(' then
      if top = .paren ∨ dollar then .paren :: top :: rest else top :: rest
    else if c = ')' then
      if top = .paren then rest else top :: rest
    else if c = '\x7b' then
      if dollar then .brace :: top :: rest else top :: rest
    else if c = '\x7d' then
      if top = .brace then rest else top :: rest
    else top :: rest

namespace Scan
variable {κ : Type}

def start : Scan κ := ⟨[], [], .between⟩

/-- The word is continued with `ps`, and then `mode` follows. -/
def add (s : Scan κ) (ps : List (Piece κ)) (mode : Mode) : Scan κ :=
  ⟨s.tokens, s.pieces ++ ps, mode⟩

def enter (s : Scan κ) (mode : Mode) : Scan κ := ⟨s.tokens, s.pieces, mode⟩

/-- A token ends the open word. -/
def emit (s : Scan κ) (token : Token κ) (mode : Mode) : Scan κ :=
  ⟨s.tokens ++ [token], [], mode⟩

/-- A character outside of quotes, in a word or at the start of one. -/
def stepWord (s : Scan κ) (inWord : Bool) (c : Char) : Scan κ :=
  if c = '\x27' then s.add [.quote] .single
  else if c = '"' then s.add [.quote] .double
  else if c = '\\' then s.enter (.escape inWord)
  else if c = '$' then s.enter (.dollar false)
  else if c = '\x60' then s.enter (.nested false [c] [.backquote])
  else if isSpecial c then s.add [.special c] .word
  else s.add [.plain c] .word

def stepBetween (s : Scan κ) (c : Char) : Scan κ :=
  if isBlank c then s.enter .between
  else if startsOperator c then s.enter (.operator [c])
  else if c = '#' then s.enter .comment
  else s.stepWord false c

/-- A character in a word or right behind it. -/
def stepInWord (s : Scan κ) (c : Char) : Scan κ :=
  if isBlank c then s.emit (wordToken s.pieces false) .between
  else if startsOperator c then s.emit (wordToken s.pieces (isRedirection c)) (.operator [c])
  else s.stepWord true c

def stepDouble (s : Scan κ) (c : Char) : Scan κ :=
  if c = '"' then s.add [.quote] .word
  else if c = '\\' then s.enter .doubleEscape
  else if c = '$' then s.enter (.dollar true)
  else if c = '\x60' then s.enter (.nested true [c] [.backquote])
  else s.add [.quoted c] .double

/-- The mode that an expansion goes back to. -/
def resume (quoted : Bool) : Mode := if quoted then .double else .word

/-- A character behind an expansion or a lone dollar sign, in front of which the
word is continued with `p`. -/
def stepAfter (s : Scan κ) (quoted : Bool) (p : Piece κ) (c : Char) : Scan κ :=
  if quoted then (s.add [p] .double).stepDouble c else (s.add [p] .word).stepInWord c

def stepDollar (s : Scan κ) (quoted : Bool) (c : Char) : Scan κ :=
  if c = '(' then s.enter (.nested quoted ['$', c] [.paren])
  else if c = '\x7b' then s.enter (.nested quoted ['$', c] [.brace])
  else if startsName c then s.enter (.name quoted ['$', c])
  else if isSpecialParameter c then s.add [.expansion quoted ['$', c]] (resume quoted)
  else s.stepAfter quoted (if quoted then .quoted '$' else .plain '$') c

def stepNested (s : Scan κ) (quoted : Bool) (text : List Char) (frames : List Frame) (c : Char) :
    Scan κ :=
  match nextFrames (text.getLast? == some '$') c frames with
  | [] => s.add [.expansion quoted (text ++ [c])] (resume quoted)
  | rest => s.enter (.nested quoted (text ++ [c]) rest)

def step (s : Scan κ) (c : Char) : Scan κ :=
  match s.mode with
  | .between => s.stepBetween c
  | .operator text =>
    if operators.contains (text ++ [c]) then s.enter (.operator (text ++ [c]))
    else (s.emit (.operator text) .between).stepBetween c
  | .word => s.stepInWord c
  | .escape inWord =>
    -- a backslash and a newline are removed
    if c = '\n' then s.enter (if inWord then .word else .between) else s.add [.quoted c] .word
  | .single => if c = '\x27' then s.add [.quote] .word else s.add [.quoted c] .single
  | .double => s.stepDouble c
  | .doubleEscape =>
    if c = '\n' then s.enter .double
    else if c = '$' ∨ c = '\x60' ∨ c = '"' ∨ c = '\\' then s.add [.quoted c] .double
    else s.add [.quoted '\\', .quoted c] .double
  | .dollar quoted => s.stepDollar quoted c
  | .name quoted text =>
    if isNameChar c then s.enter (.name quoted (text ++ [c]))
    else s.stepAfter quoted (.expansion quoted text) c
  | .nested quoted text frames => s.stepNested quoted text frames c
  | .comment => if c = '\n' then s.enter (.operator [c]) else s

/-- The tokens at the end of the script; none if a quote or an expansion is open. -/
def finish (s : Scan κ) : Option (List (Token κ)) :=
  match s.mode with
  | .between | .comment => some s.tokens
  | .operator text => some (s.tokens ++ [.operator text])
  | .word => some (s.tokens ++ [wordToken s.pieces false])
  | .dollar false => some (s.tokens ++ [.word (s.pieces ++ [.plain '$'])])
  | .name false text => some (s.tokens ++ [.word (s.pieces ++ [.expansion false text])])
  | _ => none

end Scan

/-- The tokens of a script. -/
def tokenize (script : List Char) : Option (List (Token Empty)) :=
  (script.foldl Scan.step Scan.start).finish

/-! ## Templates -/

inductive Symbol (κ : Type) where
  | char (c : Char)
  | hole (quoted : Bool) (key : κ)
  deriving DecidableEq

section Templates
variable {κ : Type}

/-- Fixed text of a template. -/
def fixed (text : List Char) : List (Symbol κ) := text.map .char

def Piece.isHole : Piece κ → Bool
  | .hole .. => true
  | _ => false

/-- A hole is read as one piece; it has to be in single quotes or outside of all
quotes as it says. A word with a hole may not be in front of a redirection. -/
def Scan.stepSymbol (s : Scan κ) : Symbol κ → Option (Scan κ)
  | .char c => if isRedirection c && s.pieces.any Piece.isHole then none else some (s.step c)
  | .hole true key =>
    match s.mode with
    | .single => some (s.add [.hole true key] .single)
    | _ => none
  | .hole false key =>
    match s.mode with
    | .between | .word => some (s.add [.hole false key] .word)
    | _ => none

/-- The tokens of a template. -/
def recognize (template : List (Symbol κ)) : Option (List (Token κ)) :=
  (template.foldlM Scan.stepSymbol Scan.start).bind Scan.finish

variable (v : κ → List Char)

def Symbol.render : Symbol κ → List Char
  | .char c => [c]
  | .hole _ key => v key

/-- The script of a template. -/
def render (template : List (Symbol κ)) : List Char := template.flatMap (Symbol.render v)

@[simp] theorem render_append (a b : List (Symbol κ)) :
    render v (a ++ b) = render v a ++ render v b := List.flatMap_append ..

@[simp] theorem render_fixed (text : List Char) : render v (fixed text) = text := by
  induction text with
  | nil => rfl
  | cons c rest ih => exact congrArg (c :: ·) ih

@[simp] theorem render_nil : render v [] = [] := rfl

@[simp] theorem render_hole (quoted : Bool) (key : κ) (rest : List (Symbol κ)) :
    render v (.hole quoted key :: rest) = v key ++ render v rest := List.flatMap_cons ..

@[simp] theorem hole_not_mem_fixed (quoted : Bool) (key : κ) (text : List Char) :
    ¬ .hole quoted key ∈ fixed text := by
  simp [fixed]

def Piece.fill : Piece κ → List (Piece Empty)
  | .plain c => [.plain c]
  | .quoted c => [.quoted c]
  | .quote => [.quote]
  | .special c => [.special c]
  | .expansion inDouble text => [.expansion inDouble text]
  | .hole true key => (v key).map .quoted
  | .hole false key => (v key).map .plain

def Token.fill : Token κ → Token Empty
  | .word pieces => .word (pieces.flatMap (Piece.fill v))
  | .ioNumber digits => .ioNumber digits
  | .operator text => .operator text

def Scan.fill (s : Scan κ) : Scan Empty :=
  ⟨s.tokens.map (Token.fill v), s.pieces.flatMap (Piece.fill v), s.mode⟩

/-- The value can be put between single quotes, or stand outside of all quotes. -/
def Fits (quoted : Bool) (value : List Char) : Prop :=
  if quoted then ∀ c ∈ value, c ≠ '\x27' else value ≠ [] ∧ ∀ c ∈ value, isInert c = true

/-! ## Filling a template -/

@[simp] theorem Scan.fill_add (s : Scan κ) (ps : List (Piece κ)) (mode : Mode) :
    (s.add ps mode).fill v = (s.fill v).add (ps.flatMap (Piece.fill v)) mode := by
  simp [Scan.fill, Scan.add]

@[simp] theorem Scan.fill_enter (s : Scan κ) (mode : Mode) :
    (s.enter mode).fill v = (s.fill v).enter mode := rfl

@[simp] theorem Scan.fill_emit (s : Scan κ) (token : Token κ) (mode : Mode) :
    (s.emit token mode).fill v = (s.fill v).emit (token.fill v) mode := by
  simp [Scan.fill, Scan.emit]

@[simp] theorem Scan.fill_mode (s : Scan κ) : (s.fill v).mode = s.mode := rfl

@[simp] theorem Scan.fill_pieces (s : Scan κ) :
    (s.fill v).pieces = s.pieces.flatMap (Piece.fill v) := rfl

variable {v} {s : Scan κ} {c : Char}

theorem digitsOf_fill {pieces : List (Piece κ)} (h : pieces.any Piece.isHole = false) :
    digitsOf (pieces.flatMap (Piece.fill v)) = digitsOf pieces := by
  induction pieces with
  | nil => rfl
  | cons p rest ih =>
    rw [List.any_cons, Bool.or_eq_false_iff] at h
    have ih := ih h.2
    cases p with
    | plain c =>
      show digitsOf (.plain c :: rest.flatMap (Piece.fill v)) = digitsOf (.plain c :: rest)
      simp only [digitsOf, ih]
    | hole quoted key => cases h.1
    | _ => rfl

/-- A word behind which no redirection follows stays a word. -/
theorem wordToken_fill {pieces : List (Piece κ)} {redirected : Bool}
    (h : redirected = false ∨ pieces.any Piece.isHole = false) :
    (wordToken pieces redirected).fill v =
      wordToken (pieces.flatMap (Piece.fill v)) redirected := by
  have hword : ∀ {κ' : Type} (ps : List (Piece κ')), wordToken ps false = .word ps := by
    intro κ' ps
    unfold wordToken
    split <;> rfl
  rcases h with rfl | h
  · rw [hword, hword]
    rfl
  · unfold wordToken
    rw [digitsOf_fill h]
    split
    · split <;> rfl
    · rfl

theorem stepWord_fill (inWord : Bool) :
    (s.stepWord inWord c).fill v = (s.fill v).stepWord inWord c := by
  unfold Scan.stepWord
  split_ifs <;> simp [Piece.fill]

theorem stepBetween_fill : (s.stepBetween c).fill v = (s.fill v).stepBetween c := by
  unfold Scan.stepBetween
  split_ifs <;> simp [stepWord_fill]

/-- No redirection follows on a word with a hole. -/
def HoleFree (s : Scan κ) (c : Char) : Prop :=
  isRedirection c = false ∨ s.pieces.any Piece.isHole = false

theorem stepInWord_fill (h : HoleFree s c) : (s.stepInWord c).fill v = (s.fill v).stepInWord c := by
  unfold Scan.stepInWord
  split_ifs
  · simp [wordToken_fill]
  · rw [Scan.fill_emit, wordToken_fill h]
    rfl
  · exact stepWord_fill true

theorem stepDouble_fill : (s.stepDouble c).fill v = (s.fill v).stepDouble c := by
  unfold Scan.stepDouble
  split_ifs <;> simp [Piece.fill]

theorem stepAfter_fill (h : HoleFree s c) (quoted : Bool) {p : Piece κ} {q : Piece Empty}
    (hp : p.isHole = false) (hq : p.fill v = [q]) :
    (s.stepAfter quoted p c).fill v = (s.fill v).stepAfter quoted q c := by
  unfold Scan.stepAfter
  have hadd : ∀ mode, (s.add [p] mode).fill v = (s.fill v).add [q] mode := by
    intro mode
    simp [hq]
  split_ifs
  · rw [stepDouble_fill, hadd]
  · rw [stepInWord_fill, hadd]
    rcases h with h | h
    · exact Or.inl h
    · refine Or.inr ?_
      show (s.pieces ++ [p]).any Piece.isHole = false
      simp [h, hp]

theorem stepDollar_fill (h : HoleFree s c) (quoted : Bool) :
    (s.stepDollar quoted c).fill v = (s.fill v).stepDollar quoted c := by
  unfold Scan.stepDollar
  split_ifs
  · rfl
  · rfl
  · rfl
  · simp [Piece.fill]
  · exact stepAfter_fill h _ rfl rfl
  · exact stepAfter_fill h _ rfl rfl

theorem stepNested_fill (quoted : Bool) (text : List Char) (frames : List Frame) :
    (s.stepNested quoted text frames c).fill v = (s.fill v).stepNested quoted text frames c := by
  unfold Scan.stepNested
  split
  · simp [Piece.fill]
  · rfl

/-- A fixed character does the same before and after the holes are filled. -/
theorem step_fill (h : HoleFree s c) : (s.step c).fill v = (s.fill v).step c := by
  unfold Scan.step
  rw [Scan.fill_mode]
  cases s.mode with
  | between => exact stepBetween_fill
  | operator text =>
    dsimp only
    split_ifs
    · rfl
    · rw [stepBetween_fill, Scan.fill_emit]
      rfl
  | word => exact stepInWord_fill h
  | escape inWord =>
    dsimp only
    split_ifs <;> simp [Piece.fill]
  | single =>
    dsimp only
    split_ifs <;> simp [Piece.fill]
  | double => exact stepDouble_fill
  | doubleEscape =>
    dsimp only
    split_ifs <;> simp [Piece.fill]
  | dollar quoted => exact stepDollar_fill h quoted
  | name quoted text =>
    dsimp only
    split_ifs
    · rfl
    · exact stepAfter_fill h _ rfl rfl
  | nested quoted text frames => exact stepNested_fill quoted text frames
  | comment =>
    dsimp only
    split_ifs <;> rfl

/-! ## Scanning a value -/

/-- Between single quotes everything but the quote is literal. -/
theorem scan_single {value : List Char} {t : Scan Empty} (hmode : t.mode = .single)
    (h : ∀ c ∈ value, c ≠ '\x27') :
    value.foldl Scan.step t = t.add (value.map .quoted) .single := by
  induction value generalizing t with
  | nil =>
    obtain ⟨tokens, pieces, mode⟩ := t
    cases hmode
    simp [Scan.add]
  | cons c rest ih =>
    have hstep : t.step c = t.add [.quoted c] .single := by
      unfold Scan.step
      rw [hmode]
      exact if_neg (h c (List.mem_cons_self ..))
    rw [List.foldl_cons, hstep, ih rfl fun d hd => h d (List.mem_cons_of_mem _ hd)]
    simp [Scan.add]

theorem isInert_iff : isInert c = true ↔ isBlank c = false ∧ startsOperator c = false ∧
    isSpecial c = false ∧ isQuoting c = false ∧ c ≠ '#' := by
  simp [isInert, and_assoc]

theorem stepWord_inert {t : Scan Empty} (inWord : Bool) (h : isInert c = true) :
    t.stepWord inWord c = t.add [.plain c] .word := by
  obtain ⟨-, -, hspecial, hquoting, -⟩ := isInert_iff.mp h
  simp only [isQuoting, List.contains_eq_mem, List.mem_cons, List.not_mem_nil, or_false,
    decide_eq_false_iff_not, not_or] at hquoting
  obtain ⟨h1, h2, h3, h4, h5⟩ := hquoting
  unfold Scan.stepWord
  rw [if_neg h1, if_neg h2, if_neg h3, if_neg h4, if_neg h5, hspecial]
  rfl

/-- An inert character is a plain part of a word, and opens one if none is open. -/
theorem step_inert {t : Scan Empty} (hmode : t.mode = .between ∨ t.mode = .word)
    (h : isInert c = true) : t.step c = t.add [.plain c] .word := by
  obtain ⟨hblank, hoperator, -, -, hcomment⟩ := isInert_iff.mp h
  unfold Scan.step
  rcases hmode with hmode | hmode
  · rw [hmode]
    show t.stepBetween c = _
    rw [Scan.stepBetween, hblank, hoperator]
    simp only [Bool.false_eq_true, if_false]
    rw [if_neg hcomment]
    exact stepWord_inert false h
  · rw [hmode]
    show t.stepInWord c = _
    rw [Scan.stepInWord, hblank, hoperator]
    simp only [Bool.false_eq_true, if_false]
    exact stepWord_inert true h

theorem scan_bare {value : List Char} {t : Scan Empty}
    (hmode : t.mode = .word ∨ t.mode = .between ∧ value ≠ [])
    (h : ∀ c ∈ value, isInert c = true) :
    value.foldl Scan.step t = t.add (value.map .plain) .word := by
  induction value generalizing t with
  | nil =>
    obtain ⟨tokens, pieces, mode⟩ := t
    rcases hmode with hmode | ⟨-, hne⟩
    · cases hmode
      simp [Scan.add]
    · exact absurd rfl hne
  | cons c rest ih =>
    have hstep : t.step c = t.add [.plain c] .word := by
      apply step_inert
      · rcases hmode with hmode | ⟨hmode, -⟩
        · exact Or.inr hmode
        · exact Or.inl hmode
      · exact h c (List.mem_cons_self ..)
    rw [List.foldl_cons, hstep, ih (Or.inl rfl) fun d hd => h d (List.mem_cons_of_mem _ hd)]
    simp [Scan.add]

/-! ## The tokens of a filled template -/

/-- What a template's symbol does to the scan, its value does to the filled scan. -/
theorem stepSymbol_fill {s' : Scan κ} {x : Symbol κ} (hs : s.stepSymbol x = some s')
    (hfits : ∀ quoted key, x = .hole quoted key → Fits quoted (v key)) :
    (x.render v).foldl Scan.step (s.fill v) = s'.fill v := by
  cases x with
  | char c =>
    dsimp only [Scan.stepSymbol] at hs
    by_cases hguard : (isRedirection c && s.pieces.any Piece.isHole) = true
    · rw [if_pos hguard] at hs
      cases hs
    · rw [if_neg hguard] at hs
      cases hs
      have hfree : HoleFree s c := by
        rw [HoleFree, ← Bool.and_eq_false_iff]
        exact Bool.not_eq_true _ |>.mp hguard
      exact (step_fill hfree).symm
  | hole quoted key =>
    have hfits := hfits quoted key rfl
    show (v key).foldl Scan.step (s.fill v) = s'.fill v
    cases quoted with
    | true =>
      have hvalue : ∀ c ∈ v key, c ≠ '\x27' := hfits
      dsimp only [Scan.stepSymbol] at hs
      split at hs
      · next hmode =>
        cases hs
        rw [scan_single hmode hvalue, Scan.fill_add]
        simp [Piece.fill]
      · cases hs
    | false =>
      have hvalue : v key ≠ [] ∧ ∀ c ∈ v key, isInert c = true := hfits
      dsimp only [Scan.stepSymbol] at hs
      split at hs
      · next hmode =>
        cases hs
        rw [scan_bare (Or.inr ⟨hmode, hvalue.1⟩) hvalue.2, Scan.fill_add]
        simp [Piece.fill]
      · next hmode =>
        cases hs
        rw [scan_bare (Or.inl hmode) hvalue.2, Scan.fill_add]
        simp [Piece.fill]
      · cases hs

theorem scan_fill {template : List (Symbol κ)} {s' : Scan κ}
    (hs : template.foldlM Scan.stepSymbol s = some s')
    (hfits : ∀ quoted key, .hole quoted key ∈ template → Fits quoted (v key)) :
    (render v template).foldl Scan.step (s.fill v) = s'.fill v := by
  induction template generalizing s with
  | nil =>
    cases hs
    rfl
  | cons x rest ih =>
    rw [List.foldlM_cons] at hs
    obtain ⟨t, ht, hrest⟩ := Option.bind_eq_some_iff.mp hs
    rw [render, List.flatMap_cons, List.foldl_append]
    rw [stepSymbol_fill ht fun quoted key hx => hfits quoted key (by simp [hx])]
    exact ih hrest fun quoted key hx => hfits quoted key (List.mem_cons_of_mem _ hx)

theorem finish_fill {tokens : List (Token κ)} (h : s.finish = some tokens) :
    (s.fill v).finish = some (tokens.map (Token.fill v)) := by
  unfold Scan.finish at h ⊢
  rw [Scan.fill_mode]
  split at h
  · cases h
    rfl
  · cases h
    rfl
  · cases h
    simp [Scan.fill, Token.fill]
  · cases h
    simp [Scan.fill, wordToken_fill]
  · cases h
    simp [Scan.fill, Token.fill, Piece.fill]
  · cases h
    simp [Scan.fill, Token.fill, Piece.fill]
  · cases h

/-- Values that fit their holes leave the tokens of a template as they are. -/
theorem tokenize_render {template : List (Symbol κ)} {tokens : List (Token κ)}
    (h : recognize template = some tokens)
    (hfits : ∀ quoted key, .hole quoted key ∈ template → Fits quoted (v key)) :
    tokenize (render v template) = some (tokens.map (Token.fill v)) := by
  obtain ⟨s, hs, hfinish⟩ := Option.bind_eq_some_iff.mp h
  have hscan := scan_fill (v := v) hs hfits
  unfold tokenize
  rw [show (Scan.start : Scan Empty) = (Scan.start : Scan κ).fill v from rfl, hscan]
  exact finish_fill hfinish

end Templates

end PosixShell
