import Mathlib.Data.List.Induction
import Mathlib.Logic.Function.Basic

/-!
# A map that is written item by item

Every item may write one value under one key, over what was there. What the map holds in
the end is what the last item with that key has written.
-/

namespace LastWrite

variable {ι κ α : Type} (entry : ι → Option (κ × α))

/-- An item that writes `a`, and none behind it with the same key. -/
def IsLast (items : List ι) (k : κ) (a : α) : Prop :=
  ∃ front i back, items = front ++ i :: back ∧ entry i = some (k, a) ∧
    ∀ j ∈ back, ∀ b, entry j ≠ some (k, b)

section
variable {entry}

theorem isLast_snoc_iff {items : List ι} {i : ι} {k : κ} {a : α} :
    IsLast entry (items ++ [i]) k a ↔
      entry i = some (k, a) ∨ (∀ b, entry i ≠ some (k, b)) ∧ IsLast entry items k a := by
  constructor
  · intro h
    obtain ⟨front, j, back, hsplit, hj, hback⟩ := h
    rcases List.eq_nil_or_concat back with rfl | ⟨back, last, rfl⟩
    · obtain ⟨-, hlast⟩ := List.append_inj' hsplit rfl
      rw [(List.cons.inj hlast).1]
      exact Or.inl hj
    · rw [List.concat_eq_append] at hback hsplit
      rw [← List.cons_append, ← List.append_assoc] at hsplit
      obtain ⟨rfl, hlast⟩ := List.append_inj' hsplit rfl
      rw [(List.cons.inj hlast).1]
      refine Or.inr ⟨hback last (List.mem_append_right _ (List.mem_singleton_self _)), ?_⟩
      exact ⟨front, j, back, rfl, hj, fun j hj' => hback j (List.mem_append_left _ hj')⟩
  · intro h
    rcases h with hi | ⟨hi, front, j, back, rfl, hj, hback⟩
    · exact ⟨items, i, [], rfl, hi, nofun⟩
    · refine ⟨front, j, back ++ [i], by simp, hj, ?_⟩
      rw [List.forall_mem_append, List.forall_mem_singleton]
      exact ⟨hback, hi⟩

theorem IsLast.written {items : List ι} {k : κ} {a : α} (h : IsLast entry items k a) :
    ∃ i ∈ items, entry i = some (k, a) := by
  obtain ⟨front, i, back, rfl, hi, -⟩ := h
  exact ⟨i, List.mem_append_right _ (List.mem_cons_self ..), hi⟩

end

/-! ## The map -/

variable [DecidableEq κ]

def write (m : κ → Option α) (i : ι) : κ → Option α :=
  match entry i with
  | none => m
  | some (k, a) => Function.update m k (some a)

def build (items : List ι) : κ → Option α := items.foldl (write entry) fun _ => none

variable {entry}

theorem write_same {m : κ → Option α} {i : ι} {k : κ} {a : α} (h : entry i = some (k, a)) :
    write entry m i k = some a := by
  rw [write, h]
  exact Function.update_self k (some a) m

theorem write_other {m : κ → Option α} {i : ι} {k : κ} (h : ∀ b, entry i ≠ some (k, b)) :
    write entry m i k = m k := by
  unfold write
  cases hentry : entry i with
  | none => rfl
  | some written =>
    refine Function.update_of_ne ?_ _ _
    intro hk
    exact h written.2 (by rw [hentry, hk])

/-- The map holds what was written last. -/
theorem build_eq_some_iff {items : List ι} {k : κ} {a : α} :
    build entry items k = some a ↔ IsLast entry items k a := by
  induction items using List.reverseRecOn with
  | nil =>
    refine iff_of_false nofun ?_
    intro h
    obtain ⟨front, i, back, hsplit, -⟩ := h
    simp at hsplit
  | append_singleton items i ih =>
    have hstep : build entry (items ++ [i]) = write entry (build entry items) i := by
      rw [build, List.foldl_append]
      rfl
    rw [hstep, isLast_snoc_iff, ← ih]
    by_cases h : ∃ b, entry i = some (k, b)
    · obtain ⟨b, hb⟩ := h
      rw [write_same hb, hb]
      simp
    · rw [not_exists] at h
      rw [write_other h]
      simp [h]

end LastWrite
