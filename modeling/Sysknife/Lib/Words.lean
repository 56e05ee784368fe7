import Sysknife.Lib.TextLines
import Sysknife.Lib.TextTrim

/-!
# The words of a text

The pieces between the characters that `space` holds of, without the empty ones.
-/

namespace TextWords

open TextLines

variable {α : Type} {space : α → Bool}

def words (space : α → Bool) (s : List α) : List (List α) :=
  ((split space s).1 ++ [(split space s).2]).filter fun word => !word.isEmpty

theorem split_append {c : α} (hc : space c = true) (a b : List α) :
    split space (a ++ c :: b) =
      ((split space a).1 ++ (split space a).2 :: (split space b).1, (split space b).2) := by
  induction a with
  | nil => simp [split, hc]
  | cons d a ih =>
    by_cases hd : space d = true
    · simp [split, hd, ih]
    · rw [List.cons_append, split, split, if_neg hd, if_neg hd, ih]
      cases hsplit : split space a with
      | mk pieces rest =>
        cases pieces with
        | nil => rfl
        | cons piece pieces => rfl

theorem words_nil : words space [] = [] := rfl

/-- A separator takes the words of its two sides apart. -/
theorem words_append {c : α} (hc : space c = true) (a b : List α) :
    words space (a ++ c :: b) = words space a ++ words space b := by
  rw [words, split_append hc, words, words, ← List.filter_append]
  congr 1
  simp

theorem words_cons_space {c : α} (hc : space c = true) (s : List α) :
    words space (c :: s) = words space s := words_append hc [] s

/-- A text without separators is one word, or none. -/
theorem words_unbroken {s : List α} (h : Unbroken space s) :
    words space s = if s.isEmpty then [] else [s] := by
  rw [words, split_unbroken h]
  cases s <;> rfl

/-- A text is one word at most, or goes up to its first separator. -/
theorem unbroken_or_split (space : α → Bool) (s : List α) :
    Unbroken space s ∨ ∃ head c rest, s = head ++ c :: rest ∧ Unbroken space head ∧
      space c = true := by
  induction s with
  | nil => exact Or.inl unbroken_nil
  | cons d s ih =>
    by_cases hd : space d = true
    · exact Or.inr ⟨[], d, s, rfl, unbroken_nil, hd⟩
    · rw [Bool.not_eq_true] at hd
      rcases ih with h | ⟨head, c, rest, rfl, hhead, hc⟩
      · exact Or.inl (List.forall_mem_cons.mpr ⟨hd, h⟩)
      · exact Or.inr ⟨d :: head, c, rest, rfl, List.forall_mem_cons.mpr ⟨hd, hhead⟩, hc⟩

theorem mem_words {s word : List α} (h : word ∈ words space s) :
    word ≠ [] ∧ Unbroken space word := by
  induction hn : s.length using Nat.strongRecOn generalizing s with
  | ind n ih =>
    rcases unbroken_or_split space s with hs | ⟨head, c, rest, rfl, hhead, hc⟩
    · rw [words_unbroken hs] at h
      cases s with
      | nil => cases h
      | cons d s =>
        obtain rfl := List.mem_singleton.mp h
        exact ⟨List.cons_ne_nil d s, hs⟩
    · rw [words_append hc, List.mem_append] at h
      rw [List.length_append, List.length_cons] at hn
      rcases h with h | h
      · exact ih head.length (by omega) h rfl
      · exact ih rest.length (by omega) h rfl

theorem words_spaces {s : List α} (h : ∀ c ∈ s, space c = true) : words space s = [] := by
  induction s with
  | nil => rfl
  | cons c s ih =>
    rw [words_cons_space (h c (List.mem_cons_self ..))]
    exact ih fun d hd => h d (List.mem_cons_of_mem c hd)

theorem words_append_spaces {b : List α} (h : ∀ c ∈ b, space c = true) (a : List α) :
    words space (a ++ b) = words space a := by
  cases b with
  | nil => rw [List.append_nil]
  | cons c b =>
    have hrest := words_spaces fun d hd => h d (List.mem_cons_of_mem c hd)
    rw [words_append (h c (List.mem_cons_self ..)), hrest, List.append_nil]

theorem words_spaces_append {a : List α} (h : ∀ c ∈ a, space c = true) (b : List α) :
    words space (a ++ b) = words space b := by
  induction a with
  | nil => rfl
  | cons c a ih =>
    rw [List.cons_append, words_cons_space (h c (List.mem_cons_self ..))]
    exact ih fun d hd => h d (List.mem_cons_of_mem c hd)

theorem words_trim (s : List α) : words space (TextTrim.trim space s) = words space s := by
  obtain ⟨a, b, hs, ha, hb⟩ := TextTrim.exists_trim space s
  conv_rhs => rw [hs]
  rw [words_spaces_append ha, words_append_spaces hb]

theorem words_word {s : List α} (hne : s ≠ []) (h : Unbroken space s) : words space s = [s] := by
  rw [words_unbroken h, if_neg (by simpa using hne)]

/-- A character that is no separator is in one of the words. -/
theorem exists_mem_words {s : List α} {c : α} (hc : space c = false) (h : c ∈ s) :
    ∃ word ∈ words space s, c ∈ word := by
  induction hn : s.length using Nat.strongRecOn generalizing s with
  | ind n ih =>
    rcases unbroken_or_split space s with hs | ⟨head, d, rest, rfl, -, hd⟩
    · exact ⟨s, by rw [words_word (List.ne_nil_of_mem h) hs]; exact List.mem_singleton_self s, h⟩
    · rw [words_append hd]
      rw [List.length_append, List.length_cons] at hn
      rcases List.mem_append.mp h with h | h
      · obtain ⟨word, hword, hmem⟩ := ih head.length (by omega) h rfl
        exact ⟨word, List.mem_append_left _ hword, hmem⟩
      · rcases List.mem_cons.mp h with rfl | h
        · rw [hd] at hc
          cases hc
        · obtain ⟨word, hword, hmem⟩ := ih rest.length (by omega) h rfl
          exact ⟨word, List.mem_append_right _ hword, hmem⟩

/-- A word is part of the text. -/
theorem word_infix_text {s word : List α} (h : word ∈ words space s) : word <:+: s := by
  induction hn : s.length using Nat.strongRecOn generalizing s with
  | ind n ih =>
    rcases unbroken_or_split space s with hs | ⟨head, d, rest, rfl, -, hd⟩
    · rw [words_unbroken hs] at h
      split at h
      · cases h
      · obtain rfl := List.mem_singleton.mp h
        exact List.infix_refl word
    · rw [words_append hd] at h
      rw [List.length_append, List.length_cons] at hn
      rcases List.mem_append.mp h with h | h
      · exact (ih head.length (by omega) h rfl).trans (List.prefix_append ..).isInfix
      · have htail : rest <:+ head ++ d :: rest := ⟨head ++ [d], by simp⟩
        exact (ih rest.length (by omega) h rfl).trans htail.isInfix

theorem mem_intercalate {c d : α} {ws : List (List α)} (h : d ∈ [c].intercalate ws) :
    d = c ∨ ∃ w ∈ ws, d ∈ w := by
  induction ws with
  | nil => exact absurd h List.not_mem_nil
  | cons w ws ih =>
    cases ws with
    | nil =>
      rw [List.intercalate_singleton] at h
      exact Or.inr ⟨w, List.mem_cons_self .., h⟩
    | cons v ws =>
      rw [List.intercalate_cons_cons, List.append_assoc, List.singleton_append] at h
      rcases List.mem_append.mp h with h | h
      · exact Or.inr ⟨w, List.mem_cons_self .., h⟩
      · rcases List.mem_cons.mp h with rfl | h
        · exact Or.inl rfl
        · exact (ih h).imp_right fun ⟨u, hu, hd⟩ => ⟨u, List.mem_cons_of_mem w hu, hd⟩

/-- Words with a separator between them. -/
theorem words_intercalate {c : α} (hc : space c = true) {ws : List (List α)}
    (h : ∀ w ∈ ws, w ≠ [] ∧ Unbroken space w) : words space ([c].intercalate ws) = ws := by
  induction ws with
  | nil => rfl
  | cons w ws ih =>
    obtain ⟨hne, hw⟩ := h w (List.mem_cons_self ..)
    have hrest := ih fun v hv => h v (List.mem_cons_of_mem w hv)
    cases ws with
    | nil =>
      have hone : [c].intercalate [w] = w := by simp [List.intercalate]
      rw [hone, words_word hne hw]
    | cons v ws =>
      have hjoin : [c].intercalate (w :: v :: ws) = w ++ c :: [c].intercalate (v :: ws) := by
        simp [List.intercalate]
      rw [hjoin, words_append hc, words_word hne hw, hrest]
      rfl

/-- The words of a text that does not end in a separator: its last word is what it ends in. -/
theorem exists_last_word {s : List α} (hne : s ≠ []) (hlast : ∀ c ∈ s.getLast?, space c = false) :
    ∃ front word, s = front ++ word ∧ (words space s).getLast? = some word ∧
      (front = [] ∨ ∃ init c, front = init ++ [c] ∧ space c = true) := by
  induction hn : s.length using Nat.strongRecOn generalizing s with
  | ind n ih =>
    rcases unbroken_or_split space s with hs | ⟨head, d, rest, rfl, -, hd⟩
    · exact ⟨[], s, rfl, by rw [words_word hne hs]; rfl, Or.inl rfl⟩
    · have hrest : rest ≠ [] := by
        rintro rfl
        have hspace := hlast d (by simp)
        rw [hd] at hspace
        cases hspace
      have hend : (head ++ d :: rest).getLast? = rest.getLast? := by
        rw [List.getLast?_append_of_ne_nil _ (List.cons_ne_nil d rest)]
        obtain ⟨e, tail, rfl⟩ := List.exists_cons_of_ne_nil hrest
        exact List.getLast?_cons_cons
      rw [hend] at hlast
      rw [List.length_append, List.length_cons] at hn
      obtain ⟨front, word, rfl, hword, hfront⟩ := ih rest.length (by omega) hrest hlast rfl
      refine ⟨head ++ d :: front, word, by simp, ?_, Or.inr ?_⟩
      · rw [words_append hd, List.getLast?_append, hword]
        rfl
      · rcases hfront with rfl | ⟨init, c, rfl, hc⟩
        · exact ⟨head, d, rfl, hd⟩
        · exact ⟨head ++ d :: init, c, by simp, hc⟩

end TextWords
