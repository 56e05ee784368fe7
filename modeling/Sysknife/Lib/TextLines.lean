import Mathlib.Data.List.Basic

/-!
# The lines of a text file

A file is the complete lines, each with its end, and the rest behind the last end.
What is left in the rest is a line of its own, an incomplete one. What the characters
are that end a line is a parameter.
-/

namespace TextLines

variable {α : Type}

/-- The complete lines without their ends, and the rest. -/
def split (ends : α → Bool) : List α → List (List α) × List α
  | [] => ([], [])
  | c :: text =>
    if ends c then ([] :: (split ends text).1, (split ends text).2)
    else match split ends text with
      | ([], rest) => ([], c :: rest)
      | (line :: lines, rest) => ((c :: line) :: lines, rest)

def joined (lines : List (List α)) (rest : List α) : List (List α) :=
  if rest.isEmpty then lines else lines ++ [rest]

/-- The lines, the incomplete one at the end included. -/
def lines (ends : α → Bool) (text : List α) : List (List α) :=
  joined (split ends text).1 (split ends text).2

/-- The text of complete lines, ended by `e`, and a rest. -/
def join (e : α) (lines : List (List α)) (rest : List α) : List α :=
  lines.flatMap (· ++ [e]) ++ rest

/-- The text without the lines that `p` holds of. A line that stays keeps its end, an
incomplete one stays incomplete. -/
def deleteLines (e : α) (ends : α → Bool) (p : List α → Bool) (text : List α) : List α :=
  join e ((split ends text).1.filter fun line => !p line)
    (if p (split ends text).2 then [] else (split ends text).2)

variable {ends : α → Bool}

/-! ## Splitting and joining -/

/-- No character of the line ends it. -/
def Unbroken (ends : α → Bool) (line : List α) : Prop := ∀ c ∈ line, ends c = false

theorem unbroken_nil : Unbroken ends [] := nofun

theorem split_unbroken {line : List α} (h : Unbroken ends line) : split ends line = ([], line) := by
  induction line with
  | nil => rfl
  | cons c line ih =>
    have hc : ends c = false := h c (List.mem_cons_self ..)
    have ih := ih fun d hd => h d (List.mem_cons_of_mem _ hd)
    simp [split, hc, ih]

theorem split_line {e : α} {line text : List α} (he : ends e = true) (h : Unbroken ends line) :
    split ends (line ++ e :: text) =
      (line :: (split ends text).1, (split ends text).2) := by
  induction line with
  | nil => simp [split, he]
  | cons c line ih =>
    have hc : ends c = false := h c (List.mem_cons_self ..)
    have ih := ih fun d hd => h d (List.mem_cons_of_mem _ hd)
    simp [split, hc, ih]

theorem split_join {e : α} {ls : List (List α)} {rest : List α} (he : ends e = true)
    (hls : ∀ line ∈ ls, Unbroken ends line) (hrest : Unbroken ends rest) :
    split ends (join e ls rest) = (ls, rest) := by
  induction ls with
  | nil => exact split_unbroken hrest
  | cons line ls ih =>
    have ih := ih fun l hl => hls l (List.mem_cons_of_mem _ hl)
    have htext : join e (line :: ls) rest = line ++ e :: join e ls rest := by
      simp [join]
    rw [htext, split_line he (hls line (List.mem_cons_self ..)), ih]

theorem lines_join {e : α} {ls : List (List α)} {rest : List α} (he : ends e = true)
    (hls : ∀ line ∈ ls, Unbroken ends line) (hrest : Unbroken ends rest) :
    lines ends (join e ls rest) = joined ls rest := by
  rw [lines, split_join he hls hrest]

/-- Every text is its complete lines and its rest. -/
theorem exists_join {e : α} (hends : ∀ c, ends c = true ↔ c = e) (text : List α) :
    ∃ ls rest, (∀ line ∈ ls, Unbroken ends line) ∧ Unbroken ends rest ∧
      text = join e ls rest := by
  induction text with
  | nil => exact ⟨[], [], nofun, unbroken_nil, rfl⟩
  | cons c text ih =>
    obtain ⟨ls, rest, hls, hrest, rfl⟩ := ih
    by_cases hc : c = e
    · subst hc
      refine ⟨[] :: ls, rest, ?_, hrest, rfl⟩
      intro line hline
      rcases List.mem_cons.mp hline with rfl | hline
      · exact unbroken_nil
      · exact hls line hline
    · have hc : ends c = false := by
        rw [← Bool.not_eq_true, hends]
        exact hc
      have hcons : ∀ {line}, Unbroken ends line → Unbroken ends (c :: line) := by
        intro line h d hd
        rcases List.mem_cons.mp hd with rfl | hd
        · exact hc
        · exact h d hd
      cases ls with
      | nil => exact ⟨[], c :: rest, nofun, hcons hrest, rfl⟩
      | cons line ls =>
        refine ⟨(c :: line) :: ls, rest, ?_, hrest, rfl⟩
        intro l hl
        rcases List.mem_cons.mp hl with rfl | hl
        · exact hcons (hls line (List.mem_cons_self ..))
        · exact hls l (List.mem_cons_of_mem _ hl)

/-- There is no rest in an empty text and in one with an end behind it. -/
theorem join_complete_iff {e : α} {ls : List (List α)} {rest : List α} (he : ends e = true)
    (hrest : Unbroken ends rest) :
    join e ls rest = [] ∨ (join e ls rest).getLast? = some e ↔ rest = [] := by
  constructor
  · intro h
    by_contra hne
    rcases h with h | h
    · exact hne (List.append_eq_nil_iff.mp h).2
    · have hlast : (join e ls rest).getLast? = rest.getLast? :=
        List.getLast?_append_of_ne_nil _ hne
      have hmem : e ∈ rest := List.mem_of_getLast? (hlast ▸ h)
      rw [hrest e hmem] at he
      cases he
  · rintro rfl
    rcases List.eq_nil_or_concat ls with rfl | ⟨ls, line, rfl⟩
    · exact Or.inl rfl
    · exact Or.inr (by simp [join])

/-! ## Writing -/

section Writing
variable {e : α} (hends : ∀ c, ends c = true ↔ c = e)
include hends

/-- A line written behind a text goes on with its incomplete line. -/
theorem lines_append_line {line : List α} (hline : Unbroken ends line) (text : List α) :
    ∃ ls rest, lines ends text = joined ls rest ∧
      lines ends (text ++ line ++ [e]) = ls ++ [rest ++ line] ∧
      (rest = [] ↔ text = [] ∨ text.getLast? = some e) := by
  have he : ends e = true := (hends e).mpr rfl
  obtain ⟨ls, rest, hls, hrest, rfl⟩ := exists_join hends text
  refine ⟨ls, rest, ?_, ?_, (join_complete_iff he hrest).symm⟩
  · rw [lines, split_join he hls hrest]
  · have htext : join e ls rest ++ line ++ [e] = join e (ls ++ [rest ++ line]) [] := by
      simp [join]
    rw [htext, lines, split_join he _ unbroken_nil]
    · rfl
    · intro l hl
      rcases List.mem_append.mp hl with hl | hl
      · exact hls l hl
      · obtain rfl := List.mem_singleton.mp hl
        intro c hc
        rcases List.mem_append.mp hc with hc | hc
        · exact hrest c hc
        · exact hline c hc

/-- A line is added to a complete text, and only to one. -/
theorem lines_append_line_perm_iff {line : List α} (hline : Unbroken ends line) (text : List α) :
    (lines ends (text ++ line ++ [e])).Perm (line :: lines ends text) ↔
      text = [] ∨ text.getLast? = some e := by
  obtain ⟨ls, rest, hbefore, hafter, hcomplete⟩ := lines_append_line hends hline text
  rw [← hcomplete, hbefore, hafter]
  constructor
  · intro h
    have hlength := h.length_eq
    by_contra hne
    have hrest : rest.isEmpty = false := by simpa using hne
    simp [joined, hrest] at hlength
  · rintro rfl
    exact List.perm_append_singleton line ls

theorem lines_deleteLines (p : List α → Bool) (text : List α) :
    lines ends (deleteLines e ends p text) = (lines ends text).filter fun line => !p line := by
  have he : ends e = true := (hends e).mpr rfl
  obtain ⟨ls, rest, hls, hrest, rfl⟩ := exists_join hends text
  have hfilter : ∀ line ∈ ls.filter (fun line => !p line), Unbroken ends line :=
    fun line hline => hls line (List.mem_filter.mp hline).1
  unfold deleteLines
  simp only [lines, split_join he hls hrest]
  by_cases hp : p rest = true
  · rw [if_pos hp, split_join he hfilter unbroken_nil]
    cases rest with
    | nil => rfl
    | cons c rest => simp [joined, hp]
  · rw [if_neg hp, split_join he hfilter hrest]
    cases rest with
    | nil => rfl
    | cons c rest => simp [joined, hp]

end Writing

/-! ## More ends -/

theorem split_append_end {e : α} (he : ends e = true) (a text : List α) :
    ∃ line ls, split ends (a ++ e :: text) =
      (line :: ls ++ (split ends text).1, (split ends text).2) := by
  induction a with
  | nil => exact ⟨[], [], by simp [split, he]⟩
  | cons c a ih =>
    obtain ⟨line, ls, ih⟩ := ih
    by_cases hc : ends c = true
    · exact ⟨[], line :: ls, by simp [split, hc, ih]⟩
    · exact ⟨c :: line, ls, by simp [split, hc, ih]⟩

theorem lines_append_end {e : α} (he : ends e = true) (a text : List α) :
    ∃ ls, lines ends (a ++ e :: text) = ls ++ lines ends text := by
  obtain ⟨line, ls, hsplit⟩ := split_append_end he a text
  refine ⟨line :: ls, ?_⟩
  unfold lines
  rw [hsplit]
  unfold joined
  split_ifs <;> simp

/-- A line without the further ends stays a line when they are ends. -/
theorem mem_lines_of_mem {more : α → Bool} {e : α} (hends : ∀ c, ends c = true ↔ c = e)
    (hmore : more e = true) {line text : List α} (hline : line ∈ lines ends text)
    (h : Unbroken more line) : line ∈ lines more text := by
  have he : ends e = true := (hends e).mpr rfl
  obtain ⟨ls, rest, hls, hrest, rfl⟩ := exists_join hends text
  rw [lines, split_join he hls hrest] at hline
  induction ls with
  | nil =>
    cases rest with
    | nil => cases hline
    | cons c rest =>
      obtain rfl := List.mem_singleton.mp hline
      have hsplit : split more (join e [] (c :: rest)) = ([], c :: rest) := split_unbroken h
      simp [lines, hsplit, joined]
  | cons l ls ih =>
    have htext : join e (l :: ls) rest = l ++ e :: join e ls rest := by
      simp [join]
    rw [htext]
    have hcases : line = l ∨ line ∈ joined ls rest := by
      unfold joined at hline ⊢
      split_ifs at hline ⊢ with hempty
      · exact List.mem_cons.mp hline
      · exact List.mem_cons.mp hline
    rcases hcases with rfl | hline
    · rw [lines, split_line hmore h]
      unfold joined
      split_ifs <;> simp
    · obtain ⟨before, hlines⟩ := lines_append_end hmore l (join e ls rest)
      rw [hlines]
      exact List.mem_append_right _
        (ih (fun l hl => hls l (List.mem_cons_of_mem _ hl)) hline)

/-! ## What the lines are made of -/

theorem mem_lines {e : α} (hends : ∀ c, ends c = true ↔ c = e) {line text : List α}
    (h : line ∈ lines ends text) : Unbroken ends line ∧ line <:+: text := by
  have he : ends e = true := (hends e).mpr rfl
  obtain ⟨ls, rest, hls, hrest, rfl⟩ := exists_join hends text
  rw [lines, split_join he hls hrest, joined] at h
  have hcases : line ∈ ls ∨ line = rest := by
    split at h
    · exact Or.inl h
    · exact (List.mem_append.mp h).imp_right List.mem_singleton.mp
  rcases hcases with hmem | rfl
  · obtain ⟨front, back, rfl⟩ := List.append_of_mem hmem
    refine ⟨hls line hmem, ⟨front.flatMap (· ++ [e]), e :: join e back rest, ?_⟩⟩
    simp [join]
  · exact ⟨hrest, (List.suffix_append ..).isInfix⟩

/-- A character that ends no line is in one of the lines. -/
theorem exists_mem_lines {text : List α} {c : α} (hc : ends c = false) (h : c ∈ text) :
    ∃ line ∈ lines ends text, c ∈ line := by
  have hsplit : c ∈ (split ends text).1.flatten ++ (split ends text).2 := by
    induction text with
    | nil => cases h
    | cons d text ih =>
      by_cases hd : ends d = true
      · have hne : c ≠ d := by
          rintro rfl
          rw [hc] at hd
          cases hd
        simpa [split, hd] using ih ((List.mem_cons.mp h).resolve_left hne)
      · rw [split, if_neg hd]
        cases hpieces : split ends text with
        | mk pieces rest =>
          rw [hpieces] at ih
          have hmem : c = d ∨ c ∈ pieces.flatten ++ rest := (List.mem_cons.mp h).imp_right ih
          cases pieces with
          | nil => simpa using hmem
          | cons piece pieces => simpa [or_assoc] using hmem
  rw [lines, joined]
  rcases List.mem_append.mp hsplit with hmem | hmem
  · obtain ⟨line, hline, hc⟩ := List.mem_flatten.mp hmem
    refine ⟨line, ?_, hc⟩
    split
    · exact hline
    · exact List.mem_append_left _ hline
  · refine ⟨(split ends text).2, ?_, hmem⟩
    rw [if_neg (by simpa using List.ne_nil_of_mem hmem)]
    exact List.mem_append_right _ (List.mem_singleton_self _)

theorem length_lines_end {c : α} (hc : ends c = true) (text : List α) :
    (lines ends (c :: text)).length = (lines ends text).length + 1 := by
  simp only [lines, split, if_pos hc, joined]
  split <;> simp

theorem length_lines_other {c : α} (hc : ends c = false) (text : List α) :
    (lines ends (c :: text)).length = max 1 (lines ends text).length := by
  simp only [lines, split, hc, Bool.false_eq_true, if_false]
  cases split ends text with
  | mk pieces rest =>
    cases pieces <;> cases rest <;> simp [joined]

end TextLines
