import Mathlib.Data.List.Basic

/-!
# A bounded channel

Any number of senders try to put a message into the channel and never wait; one receiver
takes the messages out. A channel that is closed takes nothing more, and what was in it is
lost.
-/

namespace Channels

structure Channel (α : Type) (capacity : Nat) where
  queue : List α
  isOpen : Bool
  fits : queue.length ≤ capacity

inductive SendOutcome where
  | sent
  | full
  | closed
  deriving DecidableEq

variable {α : Type} {capacity : Nat}

namespace Channel

def empty (α : Type) (capacity : Nat) : Channel α capacity := ⟨[], true, Nat.zero_le _⟩

def trySend (c : Channel α capacity) (a : α) : SendOutcome × Channel α capacity :=
  if c.isOpen then
    if h : c.queue.length < capacity then
      (.sent, { c with
        queue := c.queue ++ [a]
        fits := by
          rw [List.length_append]
          exact h })
    else (.full, c)
  else (.closed, c)

/-- The oldest message, if there is one. -/
def recv (c : Channel α capacity) : Option (α × Channel α capacity) :=
  match h : c.queue with
  | [] => none
  | a :: rest => some (a, { c with
      queue := rest
      fits := by
        have hfits := c.fits
        rw [h, List.length_cons] at hfits
        exact Nat.le_of_succ_le hfits })

def close (_ : Channel α capacity) : Channel α capacity := ⟨[], false, Nat.zero_le _⟩

section Lemmas
variable (c : Channel α capacity) (a : α)

@[simp] theorem queue_empty : (empty α capacity).queue = [] := rfl

@[simp] theorem queue_close : c.close.queue = [] := rfl

/-- A message that is sent is the last one in the channel; any other is nowhere. -/
theorem trySend_queue :
    (c.trySend a).2.queue = c.queue ++ if (c.trySend a).1 = .sent then [a] else [] := by
  unfold trySend
  split
  · split <;> simp
  · simp

theorem recv_queue {c c' : Channel α capacity} {a : α} (h : c.recv = some (a, c')) :
    c.queue = a :: c'.queue := by
  unfold recv at h
  split at h
  · cases h
  · cases h
    assumption

end Lemmas

end Channel

end Channels
