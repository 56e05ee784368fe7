import Mathlib.Data.List.Infix
import Sysknife.Lib.PosixShell
import Sysknife.Lib.Words

/-!
# Assignment lines of the shell

A line that assigns one word to a variable, the word in double quotes, in single quotes
or bare, and what may stand behind it. A word with an expansion in it is not read, its
value is not in the text.
-/

namespace ShellAssignment

open PosixShell TextLines TextWords

/-! ## Double quotes -/

/-- A character that a backslash in double quotes makes an ordinary one. -/
def isEscapable (c : Char) : Bool := ['"', '\\', '$', '\x60'].contains c

/-- The value of a text in double quotes; `escaped` is a backslash in front. -/
def unescape : Bool → List Char → List Char
  | escaped, [] => if escaped then ['\\'] else []
  | false, c :: s => if c = '\\' then unescape true s else c :: unescape false s
  | true, c :: s =>
    if isEscapable c then c :: unescape false s else '\\' :: c :: unescape false s

/-- No quote ends the text and no expansion begins in it. -/
def isInertQuoted : Bool → List Char → Bool
  | _, [] => true
  | false, c :: s => c != '"' && c != '$' && c != '\x60' && isInertQuoted (c == '\\') s
  | true, _ :: s => isInertQuoted false s

/-- The backslash at the end is not used up. -/
def leavesOpen : Bool → List Char → Bool
  | escaped, [] => escaped
  | false, c :: s => leavesOpen (c == '\\') s
  | true, _ :: s => leavesOpen false s

/-- The value up to the closing quote, and what is behind it. -/
def readDouble : Bool → List Char → Option (List Char × List Char)
  | _, [] => none
  | false, c :: s =>
    if c = '"' then some ([], s)
    else if c = '$' ∨ c = '\x60' then none
    else if c = '\\' then readDouble true s
    else (readDouble false s).map fun r => (c :: r.1, r.2)
  | true, c :: s =>
    (readDouble false s).map fun r => (if isEscapable c then c :: r.1 else '\\' :: c :: r.1, r.2)

theorem readDouble_append {escaped : Bool} {body : List Char}
    (hinert : isInertQuoted escaped body = true) (hclosed : leavesOpen escaped body = false)
    (rest : List Char) :
    readDouble escaped (body ++ '"' :: rest) = some (unescape escaped body, rest) := by
  induction body generalizing escaped with
  | nil =>
    obtain rfl : escaped = false := hclosed
    rfl
  | cons c body ih =>
    cases escaped with
    | true =>
      rw [List.cons_append, readDouble, ih hinert hclosed, unescape]
      split <;> rfl
    | false =>
      simp only [isInertQuoted, Bool.and_eq_true, bne_iff_ne, ne_eq] at hinert
      obtain ⟨⟨⟨hquote, hdollar⟩, hback⟩, hinert⟩ := hinert
      rw [List.cons_append, readDouble, if_neg hquote, if_neg (by simp [hdollar, hback]), unescape]
      by_cases hc : c = '\\'
      · subst hc
        rw [if_pos rfl, if_pos rfl]
        exact ih hinert hclosed
      · have hne : (c == '\\') = false := by simpa using hc
        rw [hne] at hinert
        rw [leavesOpen, hne] at hclosed
        rw [if_neg hc, if_neg hc, ih hinert hclosed]
        rfl

theorem exists_of_readDouble {escaped : Bool} {s value rest : List Char}
    (h : readDouble escaped s = some (value, rest)) :
    ∃ body, s = body ++ '"' :: rest ∧ isInertQuoted escaped body = true ∧
      leavesOpen escaped body = false ∧ value = unescape escaped body := by
  induction s generalizing escaped value with
  | nil => cases escaped <;> cases h
  | cons c s ih =>
    cases escaped with
    | true =>
      rw [readDouble, Option.map_eq_some_iff] at h
      obtain ⟨⟨v, t⟩, hread, heq⟩ := h
      obtain ⟨rfl, rfl⟩ := Prod.mk.inj heq
      obtain ⟨body, rfl, hinert, hclosed, rfl⟩ := ih hread
      refine ⟨c :: body, rfl, hinert, hclosed, ?_⟩
      rw [unescape]
    | false =>
      rw [readDouble] at h
      split at h
      · next hc =>
        obtain ⟨rfl, rfl⟩ := Prod.mk.inj (Option.some.inj h)
        exact ⟨[], by rw [hc]; rfl, rfl, rfl, rfl⟩
      · next hquote =>
        split at h
        · cases h
        · next hexpansion =>
          obtain ⟨hdollar, hback⟩ := not_or.mp hexpansion
          split at h
          · next hc =>
            obtain ⟨body, rfl, hinert, hclosed, rfl⟩ := ih h
            subst hc
            exact ⟨'\\' :: body, rfl, hinert, hclosed, rfl⟩
          · next hc =>
            rw [Option.map_eq_some_iff] at h
            obtain ⟨⟨v, t⟩, hread, heq⟩ := h
            obtain ⟨rfl, rfl⟩ := Prod.mk.inj heq
            obtain ⟨body, rfl, hinert, hclosed, rfl⟩ := ih hread
            have hne : (c == '\\') = false := by simpa using hc
            refine ⟨c :: body, rfl, ?_, ?_, ?_⟩
            · simp only [isInertQuoted, hne, hinert, Bool.and_true, Bool.and_eq_true, bne_iff_ne]
              exact ⟨⟨hquote, hdollar⟩, hback⟩
            · rw [leavesOpen, hne]
              exact hclosed
            · rw [unescape, if_neg hc]

/-! ## Parts of a text in double quotes -/

theorem unescape_append {c : Char} (hc : isEscapable c = false) (escaped : Bool)
    (a b : List Char) :
    unescape escaped (a ++ c :: b) = unescape escaped a ++ c :: unescape false b := by
  have hback : c ≠ '\\' := by
    rintro rfl
    exact absurd hc (by decide)
  induction a generalizing escaped with
  | nil =>
    cases escaped with
    | true => simp [unescape, hc]
    | false => simp [unescape, hback]
  | cons d a ih =>
    cases escaped with
    | true =>
      rw [List.cons_append, unescape, unescape, ih]
      split <;> rfl
    | false =>
      rw [List.cons_append, unescape, unescape, ih, ih]
      split <;> rfl

theorem isInertQuoted_append {c : Char} (hc : isEscapable c = false) (escaped : Bool)
    (a b : List Char) :
    isInertQuoted escaped (a ++ c :: b) = (isInertQuoted escaped a && isInertQuoted false b) := by
  have hplain : c ≠ '"' ∧ c ≠ '\\' ∧ c ≠ '$' ∧ c ≠ '\x60' := by
    refine ⟨?_, ?_, ?_, ?_⟩ <;>
    · rintro rfl
      exact absurd hc (by decide)
  induction a generalizing escaped with
  | nil =>
    cases escaped with
    | true => simp [isInertQuoted]
    | false =>
      have hne : (c == '\\') = false := by simpa using hplain.2.1
      simp [isInertQuoted, hplain.1, hplain.2.2.1, hplain.2.2.2, hne]
  | cons d a ih =>
    cases escaped with
    | true => exact ih false
    | false =>
      rw [List.cons_append, isInertQuoted, isInertQuoted, ih]
      simp only [Bool.and_assoc]

theorem leavesOpen_append {c : Char} (hc : c ≠ '\\') (escaped : Bool) (a b : List Char) :
    leavesOpen escaped (a ++ c :: b) = leavesOpen false b := by
  have hne : (c == '\\') = false := by simpa using hc
  induction a generalizing escaped with
  | nil =>
    cases escaped with
    | true => rfl
    | false => rw [List.nil_append, leavesOpen, hne]
  | cons d a ih =>
    cases escaped with
    | true => exact ih false
    | false => exact ih _

theorem mem_unescape {escaped : Bool} {s : List Char} {c : Char} (h : c ∈ unescape escaped s) :
    c = '\\' ∨ c ∈ s := by
  induction s generalizing escaped with
  | nil =>
    cases escaped with
    | true => exact Or.inl (List.mem_singleton.mp h)
    | false => cases h
  | cons d s ih =>
    cases escaped with
    | true =>
      rw [unescape] at h
      split at h
      · rcases List.mem_cons.mp h with rfl | h
        · exact Or.inr (List.mem_cons_self ..)
        · exact (ih h).imp_right (List.mem_cons_of_mem d)
      · rcases List.mem_cons.mp h with rfl | h
        · exact Or.inl rfl
        · rcases List.mem_cons.mp h with rfl | h
          · exact Or.inr (List.mem_cons_self ..)
          · exact (ih h).imp_right (List.mem_cons_of_mem d)
    | false =>
      rw [unescape] at h
      split at h
      · exact (ih h).imp_right (List.mem_cons_of_mem d)
      · rcases List.mem_cons.mp h with rfl | h
        · exact Or.inr (List.mem_cons_self ..)
        · exact (ih h).imp_right (List.mem_cons_of_mem d)

/-- A quote in the text is one in the value. -/
theorem quote_mem_unescape {escaped : Bool} {s : List Char}
    (hinert : isInertQuoted escaped s = true) (h : '"' ∈ s) : '"' ∈ unescape escaped s := by
  induction s generalizing escaped with
  | nil => cases h
  | cons d s ih =>
    cases escaped with
    | true =>
      rw [unescape]
      rcases List.mem_cons.mp h with rfl | h
      · exact List.mem_cons_self ..
      · have hrest := ih hinert h
        split
        · exact List.mem_cons_of_mem _ hrest
        · exact List.mem_cons_of_mem _ (List.mem_cons_of_mem _ hrest)
    | false =>
      simp only [isInertQuoted, Bool.and_eq_true, bne_iff_ne, ne_eq] at hinert
      obtain ⟨⟨⟨hquote, -⟩, -⟩, hinert⟩ := hinert
      have hrest := ih hinert ((List.mem_cons.mp h).resolve_left fun heq => hquote heq.symm)
      rw [unescape]
      by_cases hd : d = '\\'
      · subst hd
        rw [if_pos rfl]
        exact hrest
      · have hne : (d == '\\') = false := by simpa using hd
        rw [hne] at hrest
        rw [if_neg hd]
        exact List.mem_cons_of_mem d hrest

theorem unescape_eq_nil {s : List Char} : unescape false s = [] ↔ s = [] := by
  refine ⟨fun h => ?_, fun h => by rw [h]; rfl⟩
  cases s with
  | nil => rfl
  | cons c s =>
    rw [unescape] at h
    split at h
    · cases s with
      | nil => cases h
      | cons d s =>
        rw [unescape] at h
        split at h <;> cases h
    · cases h

theorem unescape_eq_self {s : List Char} (h : '\\' ∉ s) : unescape false s = s := by
  induction s with
  | nil => rfl
  | cons c s ih =>
    have hc : c ≠ '\\' := fun heq => h (List.mem_cons.mpr (Or.inl heq.symm))
    rw [unescape, if_neg hc, ih fun hs => h (List.mem_cons_of_mem c hs)]

/-- A backslash leaves an escapable character in the value. -/
theorem exists_escapable {escaped : Bool} {s : List Char} (h : escaped = true ∨ '\\' ∈ s) :
    ∃ c ∈ unescape escaped s, isEscapable c = true := by
  induction s generalizing escaped with
  | nil =>
    obtain rfl := h.resolve_right List.not_mem_nil
    exact ⟨'\\', List.mem_singleton_self _, by decide⟩
  | cons d s ih =>
    cases escaped with
    | true =>
      rw [unescape]
      by_cases hd : isEscapable d = true
      · exact ⟨d, by rw [if_pos hd]; exact List.mem_cons_self .., hd⟩
      · exact ⟨'\\', by rw [if_neg hd]; exact List.mem_cons_self .., by decide⟩
    | false =>
      have hmem := h.resolve_left nofun
      rw [unescape]
      by_cases hd : d = '\\'
      · rw [if_pos hd]
        exact ih (Or.inl rfl)
      · obtain ⟨c, hc, hescapable⟩ := @ih false
          (Or.inr ((List.mem_cons.mp hmem).resolve_left fun heq => hd heq.symm))
        exact ⟨c, by rw [if_neg hd]; exact List.mem_cons_of_mem d hc, hescapable⟩

/-- A plain value is written as it is only. -/
theorem unescape_eq_plain {s t : List Char} (ht : ∀ c ∈ t, isEscapable c = false) :
    unescape false s = t ↔ s = t := by
  have hback : '\\' ∉ t := fun h => absurd (ht _ h) (by decide)
  refine ⟨fun h => ?_, fun h => by rw [h]; exact unescape_eq_self hback⟩
  have hs : '\\' ∉ s := by
    intro hmem
    obtain ⟨c, hc, hescapable⟩ := @exists_escapable false s (Or.inr hmem)
    rw [h] at hc
    rw [ht c hc] at hescapable
    cases hescapable
  rwa [unescape_eq_self hs] at h

theorem inert_plain {s : List Char} (hs : ∀ c ∈ s, isEscapable c = false) :
    isInertQuoted false s = true ∧ leavesOpen false s = false := by
  induction s with
  | nil => exact ⟨rfl, rfl⟩
  | cons c s ih =>
    obtain ⟨hinert, hclosed⟩ := ih fun d hd => hs d (List.mem_cons_of_mem c hd)
    have hc := hs c (List.mem_cons_self ..)
    simp only [isEscapable, List.contains_eq_mem, List.mem_cons, List.not_mem_nil, or_false,
      decide_eq_false_iff_not, not_or] at hc
    have hback : (c == '\\') = false := by simpa using hc.2.1
    simp [isInertQuoted, leavesOpen, hc, hback, hinert, hclosed]

/-! ## Words of a text in double quotes -/

section Words
variable {space : Char → Bool} (hspace : ∀ c, space c = true → isEscapable c = false)
include hspace

theorem words_unescape (s : List Char) :
    words space (unescape false s) = (words space s).map (unescape false) := by
  have hback : space '\\' = false := by
    rw [← Bool.not_eq_true]
    exact fun h => absurd (hspace _ h) (by decide)
  induction hn : s.length using Nat.strongRecOn generalizing s with
  | ind n ih =>
    rcases unbroken_or_split space s with hs | ⟨head, c, rest, rfl, -, hc⟩
    · have hvalue : Unbroken space (unescape false s) := by
        intro c hc
        rcases mem_unescape hc with rfl | hc
        · exact hback
        · exact hs c hc
      by_cases hnil : s = []
      · rw [hnil]
        rfl
      · rw [words_word hnil hs, words_word (mt unescape_eq_nil.mp hnil) hvalue]
        rfl
    · rw [List.length_append, List.length_cons] at hn
      rw [unescape_append (hspace c hc), words_append hc, words_append hc, List.map_append,
        ih head.length (by omega) head rfl, ih rest.length (by omega) rest rfl]

theorem isInertQuoted_words (s : List Char) :
    isInertQuoted false s = true ↔ ∀ w ∈ words space s, isInertQuoted false w = true := by
  induction hn : s.length using Nat.strongRecOn generalizing s with
  | ind n ih =>
    rcases unbroken_or_split space s with hs | ⟨head, c, rest, rfl, -, hc⟩
    · by_cases hnil : s = []
      · rw [hnil]
        exact iff_of_true rfl nofun
      · rw [words_word hnil hs, List.forall_mem_singleton]
    · rw [List.length_append, List.length_cons] at hn
      rw [isInertQuoted_append (hspace c hc), words_append hc, List.forall_mem_append,
        Bool.and_eq_true, ih head.length (by omega) head rfl, ih rest.length (by omega) rest rfl]

/-- What does not end in a separator leaves open what its last word does. -/
theorem leavesOpen_words {s : List Char} (hlast : ∀ c ∈ s.getLast?, space c = false) :
    leavesOpen false s = (words space s).getLast?.any (leavesOpen false) := by
  by_cases hne : s = []
  · rw [hne]
    rfl
  · obtain ⟨front, word, rfl, hword, hfront⟩ := exists_last_word hne hlast
    rw [hword, Option.any_some]
    rcases hfront with rfl | ⟨init, c, rfl, hc⟩
    · rfl
    · have hback : c ≠ '\\' := by
        rintro rfl
        exact absurd (hspace _ hc) (by decide)
      rw [List.append_assoc, List.singleton_append, leavesOpen_append hback]

end Words

/-! ## Assignments -/

/-- A character of a bare word. -/
def isBare (c : Char) : Bool := isInert c && 0x20 < c.toNat && c.toNat != 0x7f

/-- The word at the front: its value, and what is behind it. -/
def readWord : List Char → Option (List Char × List Char)
  | '"' :: s => readDouble false s
  | '\x27' :: s =>
    if s.contains '\x27' then
      some (s.takeWhile (· != '\x27'), (s.dropWhile (· != '\x27')).tail)
    else none
  | s => some (s.takeWhile isBare, s.dropWhile isBare)

/-- Nothing but blanks, or a comment behind blanks. -/
def isTail (s : List Char) : Bool :=
  s.isEmpty || (s.head?.any isBlank && (s.dropWhile isBlank).head?.all (· == '#'))

/-- The text behind a word and blanks, where it begins with them. -/
def skipWord (word s : List Char) : List Char :=
  if word.isPrefixOf s && (s.drop word.length).head?.any isBlank then
    (s.drop word.length).dropWhile isBlank
  else s

/-- The line from its assignment on, which a word for its kind may stand in front of. -/
def declaration (line : List Char) : List Char :=
  skipWord "readonly".toList (skipWord "export".toList (line.dropWhile isBlank))

def assigns (name line : List Char) : Bool := (name ++ ['=']).isPrefixOf (declaration line)

/-- The value that the line gives to the variable, and what is behind the assignment. -/
def readAssignment (name line : List Char) : Option (List Char × List Char) :=
  if assigns name line then
    (readWord ((declaration line).drop (name.length + 1))).filter fun r => isTail r.2
  else none

/-- The line has the name as a word of its own and is no comment. Whatever can set the variable
names it so: an assignment anywhere in the line, `unset`, `read` and others. -/
def mentions (name line : List Char) : Bool :=
  (line.dropWhile isBlank).head? != some '#' && (words (fun c => !isNameChar c) line).contains name

theorem mentions_assignment {name s : List Char} (hne : name ≠ [])
    (hname : ∀ c ∈ name, isNameChar c = true)
    (hcomment : ((name ++ '=' :: s).dropWhile isBlank).head? ≠ some '#') :
    mentions name (name ++ '=' :: s) = true := by
  have hunbroken : Unbroken (fun c => !isNameChar c) name := by
    intro c hc
    simp [hname c hc]
  rw [mentions, Bool.and_eq_true, bne_iff_ne, words_append (by decide), words_word hne hunbroken,
    List.contains_iff_mem]
  exact ⟨hcomment, List.mem_append_left _ (List.mem_singleton_self name)⟩

example : mentions ['A'] "x=1; A=2".toList = true ∧ mentions ['A'] "A_B=2".toList = false := by
  decide

theorem skipWord_suffix (word s : List Char) : skipWord word s <:+ s := by
  rw [skipWord]
  split
  · exact (List.dropWhile_suffix _).trans (List.drop_suffix _ _)
  · exact List.suffix_rfl

theorem declaration_suffix (line : List Char) : declaration line <:+ line :=
  (skipWord_suffix _ _).trans ((skipWord_suffix _ _).trans (List.dropWhile_suffix _))

/-- Where a word ends, its last character is a quote or an ordinary one. -/
theorem exists_of_readWord {s value tail : List Char} (h : readWord s = some (value, tail)) :
    ∃ word, s = word ++ tail ∧
      ∀ c ∈ word.getLast?, c = '"' ∨ c = '\x27' ∨ isBare c = true := by
  unfold readWord at h
  split at h
  · next s =>
    obtain ⟨body, rfl, -, -, -⟩ := exists_of_readDouble h
    refine ⟨'"' :: (body ++ ['"']), by simp, ?_⟩
    intro c hc
    have hlast : ('"' :: (body ++ ['"'])).getLast? = some '"' :=
      List.getLast?_concat (l := '"' :: body)
    rw [hlast, Option.mem_some_iff] at hc
    exact Or.inl hc.symm
  · next s =>
    split at h
    · next hquote =>
      obtain ⟨front, back, rfl, hfront⟩ :=
        List.eq_append_cons_of_mem (List.contains_iff_mem.mp hquote)
      have hall : ∀ c ∈ front, (c != '\x27') = true := by
        intro c hc
        rw [bne_iff_ne]
        rintro rfl
        exact hfront hc
      rw [List.dropWhile_append_of_pos hall] at h
      obtain ⟨-, rfl⟩ := Prod.mk.inj (Option.some.inj h)
      refine ⟨'\x27' :: (front ++ ['\x27']), by simp, ?_⟩
      intro c hc
      have hlast : ('\x27' :: (front ++ ['\x27'])).getLast? = some '\x27' :=
        List.getLast?_concat (l := '\x27' :: front)
      rw [hlast, Option.mem_some_iff] at hc
      exact Or.inr (Or.inl hc.symm)
    · cases h
  · obtain ⟨-, rfl⟩ := Prod.mk.inj (Option.some.inj h)
    refine ⟨s.takeWhile isBare, List.takeWhile_append_dropWhile.symm, ?_⟩
    intro c hc
    exact Or.inr (Or.inr (List.mem_takeWhile_imp (List.mem_of_getLast? hc)))

/-- The assignment ends in a quote, an ordinary character or the equals sign. -/
theorem exists_of_readAssignment {name line value tail : List Char}
    (h : readAssignment name line = some (value, tail)) :
    ∃ head, line = head ++ tail ∧
      ∀ c ∈ head.getLast?, c = '=' ∨ c = '"' ∨ c = '\x27' ∨ isBare c = true := by
  unfold readAssignment at h
  split at h
  · next hassigns =>
    obtain ⟨s, hs⟩ := List.isPrefixOf_iff_prefix.mp hassigns
    have hdrop : (declaration line).drop (name.length + 1) = s := by
      rw [← hs]
      exact List.drop_left' (by simp)
    rw [hdrop, Option.filter_eq_some_iff] at h
    obtain ⟨word, hword, hlast⟩ := exists_of_readWord h.1
    obtain ⟨front, hfront⟩ := declaration_suffix line
    refine ⟨front ++ (name ++ ['=']) ++ word, ?_, ?_⟩
    · rw [List.append_assoc, List.append_assoc, ← hword, hs, hfront]
    · intro c hc
      by_cases hnil : word = []
      · rw [hnil, List.append_nil, ← List.append_assoc, List.getLast?_concat,
          Option.mem_some_iff] at hc
        exact Or.inl hc.symm
      · rw [List.getLast?_append_of_ne_nil _ hnil] at hc
        exact Or.inr (hlast c hc)
  · cases h

/-- The last line of a text that names the variable assigns to it, comments aside: a shell
that takes each line as a command of its own, and carries out all of them, has its value in
the end. -/
structure LastAssignment (name text : List Char) (before : List (List Char)) (line : List Char)
    (after : List (List Char)) (value tail : List Char) : Prop where
  lines : TextLines.lines (· == '\n') text = before ++ line :: after
  read : readAssignment name line = some (value, tail)
  last : ∀ l ∈ after, mentions name l = false

end ShellAssignment
