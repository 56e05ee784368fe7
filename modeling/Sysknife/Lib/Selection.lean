import Mathlib.Data.List.Sort

/-!
# Selecting, ordering and limiting rows

What a query does with the rows of a table: it keeps those that a condition holds of,
orders them and returns the first few. Selecting and ordering commute, and a stricter
condition with a smaller limit gives the same rows only where it misses none of them.
-/

namespace Selection

variable {α : Type}

section Ordering
variable (r : α → α → Prop) [DecidableRel r] [IsTrans α r]

/-- Inserting and selecting commute in an ordered list. -/
theorem filter_orderedInsert (p : α → Bool) (a : α) {l : List α} (h : l.Pairwise r) :
    (l.orderedInsert r a).filter p =
      if p a then (l.filter p).orderedInsert r a else l.filter p := by
  induction l with
  | nil => cases hp : p a <;> simp [hp]
  | cons b l ih =>
    obtain ⟨hb, hl⟩ := List.pairwise_cons.mp h
    by_cases hab : r a b
    · rw [List.orderedInsert_cons_of_le r l hab, List.filter_cons]
      split
      · -- `a` is before everything that is selected behind it
        have hfirst : ∀ c ∈ (b :: l).filter p, r a c := by
          intro c hc
          rcases List.mem_cons.mp (List.mem_filter.mp hc).1 with rfl | hc
          · exact hab
          · exact IsTrans.trans _ _ _ hab (hb c hc)
        cases hrest : (b :: l).filter p with
        | nil => rfl
        | cons c rest =>
          rw [hrest] at hfirst
          rw [List.orderedInsert_cons_of_le r rest (hfirst c (List.mem_cons_self ..))]
      · rfl
    · rw [List.orderedInsert_of_not_le r l hab, List.filter_cons, ih hl, List.filter_cons]
      cases p b <;> cases p a <;> simp [hab]

/-- Ordering and selecting commute. -/
theorem filter_insertionSort [Std.Total r] (p : α → Bool) (l : List α) :
    (l.insertionSort r).filter p = (l.filter p).insertionSort r := by
  induction l with
  | nil => rfl
  | cons a l ih =>
    rw [List.insertionSort_cons, filter_orderedInsert r p a (List.pairwise_insertionSort r l), ih,
      List.filter_cons]
    split <;> rfl

end Ordering

/-- The first `k` rows are also the first `m` of those that `p` holds of if and only if `p`
holds of all of them and they are not more than `m`. -/
theorem take_filter_eq_iff {p : α → Bool} {l : List α} {k m : Nat} (hm : m ≤ k) :
    (l.filter p).take m = l.take k ↔ (∀ a ∈ l.take k, p a = true) ∧ min k l.length ≤ m := by
  constructor
  · intro h
    constructor
    · intro a ha
      rw [← h] at ha
      exact (List.mem_filter.mp (List.mem_of_mem_take ha)).2
    · rw [← List.length_take, ← h, List.length_take]
      exact Nat.min_le_left ..
  · rintro ⟨hall, hlength⟩
    have hfront : (l.take k).filter p = l.take k := List.filter_eq_self.mpr hall
    have hsplit : l.filter p = l.take k ++ (l.drop k).filter p := by
      conv_lhs => rw [← List.take_append_drop k l, List.filter_append, hfront]
    rw [hsplit]
    by_cases hk : k ≤ l.length
    · have hmk : m = (l.take k).length := by
        rw [List.length_take]
        omega
      rw [hmk, List.take_left]
    · have hall : l.take k = l := List.take_of_length_le (by omega)
      have hnone : l.drop k = [] := List.drop_eq_nil_of_le (by omega)
      rw [hall, hnone, List.filter_nil, List.append_nil]
      exact List.take_of_length_le (by omega)

end Selection
