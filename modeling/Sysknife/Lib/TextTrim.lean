import Mathlib.Data.List.DropRight

/-!
# Trimming

A text without the characters at its two ends that a predicate holds of.
-/

namespace TextTrim

variable {α : Type} {p : α → Bool}

def trim (p : α → Bool) (s : List α) : List α := ((s.dropWhile p).reverse.dropWhile p).reverse

theorem trim_eq_rdropWhile (s : List α) : trim p s = (s.dropWhile p).rdropWhile p := rfl

/-- What is taken away at the two ends. -/
theorem exists_trim (p : α → Bool) (s : List α) :
    ∃ a b, s = a ++ (trim p s ++ b) ∧ (∀ c ∈ a, p c = true) ∧ ∀ c ∈ b, p c = true := by
  refine ⟨s.takeWhile p, (s.dropWhile p).rtakeWhile p, ?_, ?_, ?_⟩
  · rw [trim_eq_rdropWhile, List.rdropWhile_append_rtakeWhile, List.takeWhile_append_dropWhile]
  · intro c hc
    exact List.mem_takeWhile_imp hc
  · intro c hc
    exact List.mem_rtakeWhile_imp hc

theorem trim_infix_text (s : List α) : trim p s <:+: s := by
  obtain ⟨a, b, hs, -, -⟩ := exists_trim p s
  exact ⟨a, b, by rw [List.append_assoc]; exact hs.symm⟩

/-- Nothing is to be taken away. -/
def Trimmed (p : α → Bool) (s : List α) : Prop :=
  (∀ c ∈ s.head?, p c = false) ∧ ∀ c ∈ s.getLast?, p c = false

theorem Trimmed.head?_ne {s : List α} (h : Trimmed p s) {c : α} (hc : p c = true) :
    s.head? ≠ some c := by
  intro hhead
  have hkept := h.1 c hhead
  rw [hc] at hkept
  cases hkept

theorem Trimmed.getLast?_ne {s : List α} (h : Trimmed p s) {c : α} (hc : p c = true) :
    s.getLast? ≠ some c := by
  intro hlast
  have hkept := h.2 c hlast
  rw [hc] at hkept
  cases hkept

theorem trim_trimmed (s : List α) : Trimmed p (trim p s) := by
  constructor
  · intro c hc
    have hpre : trim p s <+: s.dropWhile p := List.rdropWhile_prefix p _
    obtain ⟨rest, hrest⟩ := hpre
    have hhead : (s.dropWhile p).head? = some c := by
      rw [← hrest, List.head?_append, Option.mem_def.mp hc]
      rfl
    have hnot := List.head?_dropWhile_not p s
    rw [hhead] at hnot
    simpa using hnot
  · intro c hc
    by_cases hnil : (s.dropWhile p).rdropWhile p = []
    · rw [trim_eq_rdropWhile, hnil] at hc
      cases hc
    · have hlast := List.rdropWhile_last_not p (s.dropWhile p) hnil
      rw [trim_eq_rdropWhile, List.getLast?_eq_getLast_of_ne_nil hnil] at hc
      rw [Option.mem_some_iff.mp hc] at hlast
      simpa using hlast

theorem trim_of_trimmed {s : List α} (h : Trimmed p s) : trim p s = s := by
  have hfront : s.dropWhile p = s := by
    cases s with
    | nil => rfl
    | cons c s =>
      have hc := h.1 c rfl
      rw [List.dropWhile_cons, hc]
      rfl
  rw [trim_eq_rdropWhile, hfront, List.rdropWhile_eq_self_iff]
  intro hne
  have hlast := h.2 _ (List.getLast?_eq_getLast_of_ne_nil hne)
  simp [hlast]

theorem trim_append_left {a : List α} (h : ∀ c ∈ a, p c = true) (s : List α) :
    trim p (a ++ s) = trim p s := by
  rw [trim_eq_rdropWhile, List.dropWhile_append_of_pos h, ← trim_eq_rdropWhile]

theorem trim_append_right {a b : List α} (ha : Trimmed p a) (hb : ∀ c ∈ b, p c = true) :
    trim p (a ++ b) = a := by
  have hfront : (a ++ b).dropWhile p = a ++ b ∨ a = [] := by
    cases a with
    | nil => exact Or.inr rfl
    | cons c a => exact Or.inl (List.dropWhile_cons_of_neg (by simp [ha.1 c rfl]))
  rcases hfront with hfront | rfl
  · have hback : (a ++ b).rdropWhile p = a.rdropWhile p := by
      rw [List.rdropWhile, List.rdropWhile, List.reverse_append,
        List.dropWhile_append_of_pos fun c hc => hb c (List.mem_reverse.mp hc)]
    rw [trim_eq_rdropWhile, hfront, hback, List.rdropWhile_eq_self_iff]
    intro hne
    simp [ha.2 _ (List.getLast?_eq_getLast_of_ne_nil hne)]
  · have hall := trim_append_left hb []
    rwa [List.append_nil] at hall

theorem trim_ne_nil {s : List α} {c : α} (hc : p c = false) (h : c ∈ s) : trim p s ≠ [] := by
  intro hnil
  obtain ⟨a, b, hs, ha, hb⟩ := exists_trim p s
  rw [hnil, List.nil_append] at hs
  rw [hs] at h
  have htaken : p c = true := (List.mem_append.mp h).elim (ha c) (hb c)
  rw [hc] at htaken
  cases htaken

end TextTrim
