import Mathlib.Data.List.Forall2

/-!
# What a fallible computation guarantees of its result

`Ensures m P` says nothing about whether `m` succeeds. The rules take a
computation apart along its binds.
-/

namespace Fallible

variable {ε α β : Type}

def Ensures (m : Except ε α) (P : α → Prop) : Prop := ∀ a, m = .ok a → P a

theorem ensures_ok {P : α → Prop} {a : α} (h : P a) : Ensures (.ok a : Except ε α) P := by
  intro b hb
  cases hb
  exact h

theorem ensures_error {P : α → Prop} {e : ε} : Ensures (.error e : Except ε α) P := by
  intro b hb
  cases hb

/-- The result of the first part is any value it can give. -/
theorem ensures_bind {m : Except ε α} {f : α → Except ε β} {Q : β → Prop}
    (hf : ∀ a, m = .ok a → Ensures (f a) Q) : Ensures (m >>= f) Q := by
  intro b hb
  cases m with
  | error e => cases hb
  | ok a => exact hf a rfl b hb

/-- For a property that does not depend on the first part. -/
theorem ensures_bind_any {m : Except ε α} {f : α → Except ε β} {Q : β → Prop}
    (hf : ∀ a, Ensures (f a) Q) : Ensures (m >>= f) Q :=
  ensures_bind fun a _ => hf a

theorem ensures_ite {c : Prop} [Decidable c] {m n : Except ε α} {P : α → Prop}
    (hm : c → Ensures m P) (hn : ¬c → Ensures n P) : Ensures (if c then m else n) P := by
  by_cases h : c
  · rw [if_pos h]
    exact hm h
  · rw [if_neg h]
    exact hn h

theorem Ensures.apply {m : Except ε α} {P : α → Prop} (h : Ensures m P) {a : α}
    (ha : m = .ok a) : P a :=
  h a ha

/-! ## Lists of results -/

theorem mapM_ok_iff {f : α → Except ε β} {l : List α} {results : List β} :
    l.mapM f = .ok results ↔ List.Forall₂ (fun a b => f a = .ok b) l results := by
  induction l generalizing results with
  | nil => simp [pure, Except.pure, eq_comm]
  | cons a l ih =>
    have hcons : (a :: l).mapM f = .ok results ↔
        ∃ b rest, f a = .ok b ∧ l.mapM f = .ok rest ∧ results = b :: rest := by
      rw [List.mapM_cons]
      cases f a <;> cases l.mapM f <;> simp [bind, Except.bind, pure, Except.pure, eq_comm]
    rw [hcons, List.forall₂_cons_left_iff]
    refine exists_congr fun b => ?_
    simp only [ih, exists_and_left]

/-- All the results are there, in order. -/
theorem mapM_some_iff {f : α → Option β} {l : List α} {results : List β} :
    l.mapM f = some results ↔ List.Forall₂ (fun a b => f a = some b) l results := by
  induction l generalizing results with
  | nil => simp [eq_comm]
  | cons a l ih =>
    have hcons : (a :: l).mapM f = some results ↔
        ∃ b rest, f a = some b ∧ l.mapM f = some rest ∧ results = b :: rest := by
      rw [List.mapM_cons]
      cases f a <;> cases l.mapM f <;> simp [eq_comm]
    rw [hcons, List.forall₂_cons_left_iff]
    refine exists_congr fun b => ?_
    simp only [ih, exists_and_left]

end Fallible
