import Mathlib.Data.List.Basic

/-!
# Splitting a text at a character

`str::split_once` and `str::splitn`, which cut a text at the first character of a kind or
at the first few of them.
-/

namespace Sysknife

/-- `str::split_once`. -/
def splitOnce (c : Char) (s : List Char) : Option (List Char × List Char) :=
  if c ∈ s then some (s.takeWhile (· != c), (s.dropWhile (· != c)).tail) else none

/-- `str::splitn`. -/
def splitn : Nat → Char → List Char → List (List Char)
  | 0, _, _ => []
  | 1, _, s => [s]
  | n + 1, c, s =>
    match splitOnce c s with
    | some (a, b) => a :: splitn n c b
    | none => [s]

theorem splitOnce_first {c : Char} {a : List Char} (ha : c ∉ a) (b : List Char) :
    splitOnce c (a ++ c :: b) = some (a, b) := by
  have hpass : ∀ e ∈ a, (e != c) = true := by
    intro e he
    rw [bne_iff_ne]
    intro h
    obtain rfl := h
    exact ha he
  rw [splitOnce, if_pos (by simp), List.takeWhile_append_of_pos hpass,
    List.dropWhile_append_of_pos hpass]
  simp

theorem splitOnce_iff {c : Char} {s a b : List Char} :
    splitOnce c s = some (a, b) ↔ s = a ++ c :: b ∧ c ∉ a := by
  constructor
  · intro h
    by_cases hc : c ∈ s
    · obtain ⟨front, back, rfl, hfront⟩ := List.eq_append_cons_of_mem hc
      rw [splitOnce_first hfront] at h
      cases h
      exact ⟨rfl, hfront⟩
    · rw [splitOnce, if_neg hc] at h
      cases h
  · intro h
    obtain ⟨rfl, ha⟩ := h
    exact splitOnce_first ha b

theorem splitn_first {c : Char} {a : List Char} (ha : c ∉ a) (n : Nat) (b : List Char) :
    splitn (n + 2) c (a ++ c :: b) = a :: splitn (n + 1) c b := by
  rw [splitn, splitOnce_first ha]
  exact Nat.succ_ne_zero n

theorem splitn_last {c : Char} {s : List Char} (hs : c ∉ s) (n : Nat) :
    splitn (n + 2) c s = [s] := by
  rw [splitn, splitOnce, if_neg hs]
  exact Nat.succ_ne_zero n

/-- A text without `c`, or the text before the first `c` and the rest. -/
theorem split_cases (c : Char) (s : List Char) :
    c ∉ s ∨ ∃ a b, s = a ++ c :: b ∧ c ∉ a := by
  by_cases hc : c ∈ s
  · exact Or.inr (List.eq_append_cons_of_mem hc)
  · exact Or.inl hc

/-- Three pieces have no `c` in them. -/
theorem splitn_three_iff {c : Char} {s a b d : List Char} :
    splitn 4 c s = [a, b, d] ↔ s = a ++ c :: (b ++ c :: d) ∧ c ∉ a ∧ c ∉ b ∧ c ∉ d := by
  constructor
  · intro h
    obtain hs | ⟨a', s, rfl, ha⟩ := split_cases c s
    · rw [splitn_last hs] at h
      cases h
    rw [splitn_first ha] at h
    obtain hs | ⟨b', s, rfl, hb⟩ := split_cases c s
    · rw [splitn_last hs] at h
      cases h
    rw [splitn_first hb] at h
    obtain hs | ⟨d', s, rfl, hd⟩ := split_cases c s
    · rw [splitn_last hs] at h
      cases h
      exact ⟨rfl, ha, hb, hs⟩
    · rw [splitn_first hd] at h
      cases h
  · intro h
    obtain ⟨rfl, ha, hb, hd⟩ := h
    rw [splitn_first ha, splitn_first hb, splitn_last hd]

end Sysknife
