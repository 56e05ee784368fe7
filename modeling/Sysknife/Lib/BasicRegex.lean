import Mathlib.Computability.Language

/-!
# Basic regular expressions without a backslash

A pattern is read one character after the other: a circumflex in front and a dollar
sign at the end are anchors, a period is any character, a star repeats the item in
front of it, and square brackets hold a list of characters. How a list is read
depends on the locale and is a parameter. Every other character is itself.

A line matches if it has a part in the language of the items, the whole line where
the pattern is anchored on both sides.
-/

namespace BasicRegex

open Computability

/-- One character that `accepts` holds of, or any number of them. -/
structure Item where
  accepts : Char → Bool
  starred : Bool

/-- Inside of brackets: the list so far, and the delimiter and the name of a
character class or collating symbol that is open in it. -/
inductive Mode where
  | outside
  | list (text : List Char)
  | symbol (text : List Char) (delimiter : Char) (name : List Char)

structure Scan where
  items : List Item
  mode : Mode

/-- The characters that are not themselves. -/
def isSpecial (c : Char) : Bool := ['.', '[', '*'].contains c

def literal (c : Char) : Item := ⟨(· == c), false⟩

/-- A star at the start is itself; a second one adds nothing to the first. -/
def star : List Item → List Item
  | [] => [literal '*']
  | [item] => [⟨item.accepts, true⟩]
  | item :: items => item :: star items

/-- A bracket that follows at once, or behind a circumflex, is in the list. -/
def isOpening (text : List Char) : Bool := text == [] || text == ['^']

section Parsing
-- the characters that a list in brackets stands for; none if it is invalid
variable (brackets : List Char → Option (Char → Bool))

def step (s : Scan) (c : Char) : Option Scan :=
  match s.mode with
  | .outside =>
    if c = '.' then some ⟨s.items ++ [⟨fun _ => true, false⟩], .outside⟩
    else if c = '[' then some ⟨s.items, .list []⟩
    else if c = '*' then some ⟨star s.items, .outside⟩
    else some ⟨s.items ++ [literal c], .outside⟩
  | .list text =>
    if c = ']' ∧ isOpening text = false then
      (brackets text).map fun accepts => ⟨s.items ++ [⟨accepts, false⟩], .outside⟩
    else if text.getLast? = some '[' ∧ c ∈ [':', '=', '.'] then
      some ⟨s.items, .symbol (text ++ [c]) c []⟩
    else some ⟨s.items, .list (text ++ [c])⟩
  | .symbol text delimiter name =>
    if c = ']' ∧ name.getLast? = some delimiter then some ⟨s.items, .list (text ++ [c])⟩
    else some ⟨s.items, .symbol (text ++ [c]) delimiter (name ++ [c])⟩

/-- The items of a pattern without its anchors; none if a bracket is open at its end. -/
def parseItems (pattern : List Char) : Option (List Item) :=
  match pattern.foldlM (step brackets) ⟨[], .outside⟩ with
  | some ⟨items, .outside⟩ => some items
  | _ => none

end Parsing

/-! ## Matching -/

/-- What is left of the text behind some of its first characters, all of them
accepted. -/
def starTails (accepts : Char → Bool) : List Char → List (List Char)
  | [] => [[]]
  | c :: text => (c :: text) :: if accepts c then starTails accepts text else []

/-- What is left of the text behind a part in front that matches. -/
def tails : List Item → List Char → List (List Char)
  | [], text => [text]
  | ⟨accepts, true⟩ :: items, text => (starTails accepts text).flatMap (tails items)
  | ⟨_, false⟩ :: _, [] => []
  | ⟨accepts, false⟩ :: items, c :: text => if accepts c then tails items text else []

structure Regex where
  fromStart : Bool
  toEnd : Bool
  items : List Item

def parse (brackets : List Char → Option (Char → Bool)) (pattern : List Char) : Option Regex :=
  let fromStart := pattern.head? == some '^'
  let body := if fromStart then pattern.tail else pattern
  let toEnd := body.getLast? == some '$'
  (parseItems brackets (if toEnd then body.dropLast else body)).map (⟨fromStart, toEnd, ·⟩)

/-- The line has a part that matches. -/
def Regex.matchesLine (r : Regex) (line : List Char) : Bool :=
  (if r.fromStart then [line] else line.tails).any fun text =>
    (tails r.items text).any fun rest => !r.toEnd || rest.isEmpty

/-! ## The language of the items -/

/-- The texts of one accepted character. -/
def single (accepts : Char → Bool) : Language Char :=
  {w | ∃ c, accepts c = true ∧ w = [c]}

def Item.language (item : Item) : Language Char :=
  if item.starred then (single item.accepts)∗ else single item.accepts

def language (items : List Item) : Language Char := (items.map Item.language).prod

theorem language_nil : language [] = 1 := rfl

theorem language_cons (item : Item) (items : List Item) :
    language (item :: items) = item.language * language items := List.prod_cons

theorem mem_kstar_single {accepts : Char → Bool} {w : List Char} :
    w ∈ (single accepts)∗ ↔ ∀ c ∈ w, accepts c = true := by
  rw [Language.mem_kstar]
  constructor
  · rintro ⟨parts, rfl, hparts⟩ c hc
    obtain ⟨part, hpart, hc⟩ := List.mem_flatten.mp hc
    obtain ⟨d, hd, rfl⟩ := hparts part hpart
    obtain rfl := List.mem_singleton.mp hc
    exact hd
  · intro h
    refine ⟨w.map fun c => [c], by simp [← List.flatMap_def], ?_⟩
    intro part hpart
    obtain ⟨c, hc, rfl⟩ := List.mem_map.mp hpart
    exact ⟨c, h c hc, rfl⟩

theorem mem_starTails {accepts : Char → Bool} {text rest : List Char} :
    rest ∈ starTails accepts text ↔ ∃ w ∈ (single accepts)∗, w ++ rest = text := by
  simp only [mem_kstar_single]
  induction text with
  | nil =>
    constructor
    · intro h
      obtain rfl := List.mem_singleton.mp h
      exact ⟨[], nofun, rfl⟩
    · rintro ⟨w, -, h⟩
      obtain ⟨-, rfl⟩ := List.append_eq_nil_iff.mp h
      exact List.mem_singleton.mpr rfl
  | cons c text ih =>
    rw [starTails, List.mem_cons]
    constructor
    · rintro (rfl | h)
      · exact ⟨[], nofun, rfl⟩
      · split_ifs at h with hc
        · obtain ⟨w, hw, rfl⟩ := ih.mp h
          refine ⟨c :: w, ?_, rfl⟩
          intro d hd
          rcases List.mem_cons.mp hd with rfl | hd
          · exact hc
          · exact hw d hd
        · cases h
    · rintro ⟨w, hw, h⟩
      cases w with
      | nil => exact Or.inl h
      | cons d w =>
        obtain ⟨rfl, rfl⟩ := List.cons.inj h
        have hd : accepts d = true := hw d (List.mem_cons_self ..)
        rw [if_pos hd]
        exact Or.inr (ih.mpr ⟨w, fun e he => hw e (List.mem_cons_of_mem _ he), rfl⟩)

/-- The tails are what is left behind a part in the language of the items. -/
theorem mem_tails {items : List Item} {text rest : List Char} :
    rest ∈ tails items text ↔ ∃ w ∈ language items, w ++ rest = text := by
  induction items generalizing text with
  | nil =>
    rw [tails, List.mem_singleton, language_nil]
    simp only [Language.mem_one, exists_eq_left, List.nil_append]
  | cons item items ih =>
    obtain ⟨accepts, starred⟩ := item
    rw [language_cons]
    cases starred with
    | true =>
      rw [tails, List.mem_flatMap]
      constructor
      · rintro ⟨mid, hmid, hrest⟩
        obtain ⟨w, hw, rfl⟩ := mem_starTails.mp hmid
        obtain ⟨w', hw', rfl⟩ := ih.mp hrest
        exact ⟨w ++ w', Language.append_mem_mul hw hw', List.append_assoc ..⟩
      · rintro ⟨w, hw, rfl⟩
        obtain ⟨a, ha, b, hb, rfl⟩ := Language.mem_mul.mp hw
        exact ⟨b ++ rest, mem_starTails.mpr ⟨a, ha, (List.append_assoc ..).symm⟩,
          ih.mpr ⟨b, hb, rfl⟩⟩
    | false =>
      constructor
      · intro h
        cases text with
        | nil => cases h
        | cons c text =>
          rw [tails] at h
          split_ifs at h with hc
          · obtain ⟨w, hw, rfl⟩ := ih.mp h
            exact ⟨[c] ++ w, Language.append_mem_mul ⟨c, hc, rfl⟩ hw, rfl⟩
          · cases h
      · rintro ⟨w, hw, rfl⟩
        obtain ⟨a, ⟨c, hc, rfl⟩, b, hb, rfl⟩ := Language.mem_mul.mp hw
        have hc : accepts c = true := hc
        show rest ∈ tails (⟨accepts, false⟩ :: items) (c :: (b ++ rest))
        rw [tails, if_pos hc]
        exact ih.mpr ⟨b, hb, rfl⟩

theorem Regex.matchesLine_iff {r : Regex} {line : List Char} :
    r.matchesLine line = true ↔ ∃ pre post, ∃ w ∈ language r.items, line = pre ++ (w ++ post) ∧
      (r.fromStart = true → pre = []) ∧ (r.toEnd = true → post = []) := by
  have hrest : ∀ text, (tails r.items text).any (fun rest => !r.toEnd || rest.isEmpty) = true ↔
      ∃ post, ∃ w ∈ language r.items, w ++ post = text ∧ (r.toEnd = true → post = []) := by
    intro text
    simp only [List.any_eq_true, mem_tails, Bool.or_eq_true, Bool.not_eq_true',
      List.isEmpty_iff, ← Bool.not_eq_true, ← imp_iff_not_or]
    grind
  unfold Regex.matchesLine
  rw [List.any_eq_true]
  simp only [hrest]
  cases hstart : r.fromStart with
  | true =>
    simp only [if_true, List.mem_singleton, exists_eq_left, forall_const]
    constructor
    · rintro ⟨post, w, hw, rfl, hpost⟩
      exact ⟨[], post, w, hw, rfl, rfl, hpost⟩
    · rintro ⟨pre, post, w, hw, rfl, rfl, hpost⟩
      exact ⟨post, w, hw, rfl, hpost⟩
  | false =>
    simp only [Bool.false_eq_true, if_false, List.mem_tails, false_implies, true_and]
    constructor
    · rintro ⟨text, ⟨pre, rfl⟩, post, w, hw, rfl, hpost⟩
      exact ⟨pre, post, w, hw, rfl, hpost⟩
    · rintro ⟨pre, post, w, hw, rfl, hpost⟩
      exact ⟨w ++ post, ⟨pre, rfl⟩, post, w, hw, rfl, hpost⟩

/-! ## Patterns for whole lines -/

section WholeLines
variable (brackets : List Char → Option (Char → Bool))

theorem parse_anchored (body : List Char) :
    parse brackets ('^' :: (body ++ ['$'])) =
      (parseItems brackets body).map (⟨true, true, ·⟩) := by
  simp [parse]

theorem matchesLine_anchored {items : List Item} {line : List Char} :
    (Regex.mk true true items).matchesLine line = true ↔ line ∈ language items := by
  rw [Regex.matchesLine_iff]
  constructor
  · rintro ⟨pre, post, w, hw, rfl, hpre, hpost⟩
    obtain rfl := hpre rfl
    obtain rfl := hpost rfl
    simpa using hw
  · intro h
    exact ⟨[], [], line, h, by simp, fun _ => rfl, fun _ => rfl⟩

theorem foldlM_plain {text : List Char} (h : ∀ c ∈ text, isSpecial c = false) (items : List Item) :
    text.foldlM (step brackets) ⟨items, .outside⟩ = some ⟨items ++ text.map literal, .outside⟩ := by
  induction text generalizing items with
  | nil => simp
  | cons c text ih =>
    have hc : isSpecial c = false := h c (List.mem_cons_self ..)
    simp only [isSpecial, List.contains_eq_mem, List.mem_cons, List.not_mem_nil, or_false,
      decide_eq_false_iff_not, not_or] at hc
    obtain ⟨h1, h2, h3⟩ := hc
    have hstep : step brackets ⟨items, .outside⟩ c = some ⟨items ++ [literal c], .outside⟩ := by
      unfold step
      dsimp only
      rw [if_neg h1, if_neg h2, if_neg h3]
    rw [List.foldlM_cons, hstep]
    show text.foldlM (step brackets) ⟨items ++ [literal c], .outside⟩ = _
    rw [ih (fun d hd => h d (List.mem_cons_of_mem _ hd)), List.map_cons, List.append_assoc,
      List.singleton_append]

theorem parseItems_plain {text : List Char} (h : ∀ c ∈ text, isSpecial c = false) :
    parseItems brackets text = some (text.map literal) := by
  unfold parseItems
  rw [foldlM_plain brackets h]
  rfl

theorem mem_language_literals {text line : List Char} :
    line ∈ language (text.map literal) ↔ line = text := by
  induction text generalizing line with
  | nil => exact Language.mem_one line
  | cons c text ih =>
    rw [List.map_cons, language_cons, Language.mem_mul]
    constructor
    · rintro ⟨a, ⟨d, hd, rfl⟩, b, hb, rfl⟩
      obtain rfl := ih.mp hb
      have hd : (d == c) = true := hd
      rw [beq_iff_eq] at hd
      rw [hd]
      rfl
    · rintro rfl
      exact ⟨[c], ⟨c, beq_self_eq_true c, rfl⟩, text, ih.mpr rfl, rfl⟩

end WholeLines

end BasicRegex
