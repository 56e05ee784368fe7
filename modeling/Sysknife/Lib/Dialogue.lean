import Mathlib.Data.List.Nodup

/-!
# Calls and their answers in a dialogue

One side makes calls, the other answers them by their keys. A dialogue is settled if the
calls of a turn have different keys and each is answered once, in any order, before anything
else is said; no answer is without its call.
-/

namespace Dialogue

variable {κ : Type}

inductive Utterance (κ : Type) where
  | asks (keys : List κ)
  | answers (key : κ)
  | speaks

section Settles
variable [DecidableEq κ]

/-- The dialogue goes on behind calls that are still open. -/
def SettlesAfter : List κ → List (Utterance κ) → Prop
  | pending, [] => pending = []
  | pending, .speaks :: turns => pending = [] ∧ SettlesAfter [] turns
  | pending, .asks keys :: turns => pending = [] ∧ keys.Nodup ∧ SettlesAfter keys turns
  | pending, .answers key :: turns => key ∈ pending ∧ SettlesAfter (pending.erase key) turns

def Settles (turns : List (Utterance κ)) : Prop := SettlesAfter [] turns

variable {keys : List κ} {turns : List (Utterance κ)}

theorem settles_speaks : Settles (.speaks :: turns) ↔ Settles turns := and_iff_right rfl

theorem settlesAfter_answers :
    SettlesAfter keys (keys.map Utterance.answers ++ turns) ↔ Settles turns := by
  induction keys with
  | nil => exact Iff.rfl
  | cons key keys ih =>
    rw [List.map_cons, List.cons_append, SettlesAfter, List.erase_cons_head, ih]
    exact and_iff_right List.mem_cons_self

/-- Calls that are answered at once. -/
theorem settles_answered :
    Settles (.asks keys :: (keys.map Utterance.answers ++ turns)) ↔ keys.Nodup ∧ Settles turns := by
  rw [Settles, SettlesAfter, settlesAfter_answers]
  exact and_iff_right rfl

/-- Something else is said where the answers should be. -/
theorem settles_unanswered :
    Settles (.asks keys :: .speaks :: turns) ↔ keys = [] ∧ Settles turns := by
  rw [Settles, SettlesAfter, SettlesAfter, and_iff_right rfl]
  constructor
  · exact And.right
  · rintro ⟨rfl, hturns⟩
    exact ⟨List.nodup_nil, rfl, hturns⟩

end Settles

end Dialogue
