import Mathlib.Data.List.Basic
import Mathlib.Data.List.Induction

/-!
# Limiting calls in a sliding window

A limiter remembers the times of the calls that it admitted, and admits the next one
while fewer than `limit` of them are in the window of `span` that ends with it, its first
moment included. What is out of the window at an admitted call is forgotten. Nothing is
lost by that as long as the times of the calls do not decrease.
-/

namespace SlidingWindow

variable (span limit : Nat)

/-- What is in the window that ends at `now`. -/
def recent (now : Nat) (times : List Nat) : List Nat :=
  times.filter fun t => decide (now ≤ t + span)

/-- What the limiter remembers, and every call that it has admitted. -/
structure State where
  kept : List Nat
  admitted : List Nat

def call (state : State) (now : Nat) : State :=
  if (recent span now state.kept).length < limit then
    { kept := recent span now state.kept ++ [now], admitted := state.admitted ++ [now] }
  else state

/-- One call after the other. -/
def calls (nows : List Nat) : State := nows.foldl (call span limit) ⟨[], []⟩

/-- The calls of the window that ends at `T`, those after `T` left out. -/
def during (T : Nat) (times : List Nat) : List Nat :=
  times.filter fun t => decide (T ≤ t + span ∧ t ≤ T)

/-- The state behind calls at the times `nows`. -/
structure Invariant (nows : List Nat) (state : State) : Prop where
  called : ∀ t ∈ state.admitted, t ∈ nows
  remembered : ∀ t ∈ state.kept, t ∈ nows
  same : ∀ now, (∀ t ∈ nows, t ≤ now) → recent span now state.kept = recent span now state.admitted
  small : state.kept.length ≤ limit
  window : ∀ T, (during span T state.admitted).length ≤ limit

variable {span limit}

theorem recent_append (now : Nat) (a b : List Nat) :
    recent span now (a ++ b) = recent span now a ++ recent span now b := List.filter_append ..

/-- Of what is in the window now, a later window has the same as of everything. -/
theorem recent_recent {now later : Nat} (h : now ≤ later) (times : List Nat) :
    recent span later (recent span now times) = recent span later times := by
  unfold recent
  rw [List.filter_filter]
  refine List.filter_congr fun t _ => ?_
  rw [← Bool.decide_and]
  refine decide_eq_decide.mpr ⟨And.left, fun ht => ⟨ht, ?_⟩⟩
  omega

theorem during_append (T : Nat) (a b : List Nat) :
    during span T (a ++ b) = during span T a ++ during span T b := List.filter_append ..

/-- A window that reaches a time has before it no more than the window that ends there. -/
theorem during_length_le {now T : Nat} (h : now ≤ T) (times : List Nat) :
    (during span T times).length ≤ (recent span now times).length := by
  have hsub : List.Sublist (during span T times) (recent span now times) := by
    refine List.monotone_filter_right times fun t ht => ?_
    rw [decide_eq_true_eq] at ht ⊢
    exact Nat.le_trans h ht.1
  exact hsub.length_le

theorem invariant_start : Invariant span limit [] ⟨[], []⟩ where
  called := nofun
  remembered := nofun
  same := fun _ _ => rfl
  small := Nat.zero_le _
  window := fun _ => Nat.zero_le _

/-- One call keeps the invariant. -/
theorem Invariant.call {nows : List Nat} {state : State} (h : Invariant span limit nows state)
    {now : Nat} (hnow : ∀ t ∈ nows, t ≤ now) :
    Invariant span limit (nows ++ [now]) (call span limit state now) := by
  have hmem : ∀ t ∈ nows, t ∈ nows ++ [now] := fun t ht => List.mem_append_left _ ht
  have hlast : now ∈ nows ++ [now] := List.mem_append_right _ (List.mem_singleton_self now)
  by_cases hfree : (recent span now state.kept).length < limit
  · rw [SlidingWindow.call, if_pos hfree]
    have hkept : recent span now state.kept = recent span now state.admitted := h.same now hnow
    refine ⟨?_, ?_, ?_, ?_, ?_⟩
    · intro t ht
      rcases List.mem_append.mp ht with ht | ht
      · exact hmem t (h.called t ht)
      · exact List.mem_append_right _ ht
    · intro t ht
      rcases List.mem_append.mp ht with ht | ht
      · exact hmem t (h.remembered t (List.mem_filter.mp ht).1)
      · exact List.mem_append_right _ ht
    · intro later hlater
      have hle : now ≤ later := hlater now hlast
      rw [recent_append, recent_append, hkept, recent_recent hle]
    · rw [List.length_append, List.length_singleton]
      exact hfree
    · intro T
      rw [during_append, List.length_append]
      by_cases hT : now ≤ T
      · have hbefore : (during span T state.admitted).length < limit := by
          have hle : (during span T state.admitted).length ≤
              (recent span now state.admitted).length := during_length_le hT state.admitted
          rw [← hkept] at hle
          omega
        have hone : (during span T [now]).length ≤ 1 := List.length_filter_le ..
        omega
      · have hnone : during span T [now] = [] := by
          refine List.filter_eq_nil_iff.mpr fun t ht => ?_
          obtain rfl := List.mem_singleton.mp ht
          rw [decide_eq_true_eq]
          exact fun hin => hT hin.2
        have hwindow := h.window T
        rw [hnone, List.length_nil]
        omega
  · rw [SlidingWindow.call, if_neg hfree]
    exact ⟨fun t ht => hmem t (h.called t ht), fun t ht => hmem t (h.remembered t ht),
      fun later hlater => h.same later fun t ht => hlater t (hmem t ht), h.small, h.window⟩

/-- Calls at times that do not decrease keep the invariant. -/
theorem invariant_calls {nows : List Nat} (h : nows.Pairwise (· ≤ ·)) :
    Invariant span limit nows (calls span limit nows) := by
  induction nows using List.reverseRecOn with
  | nil => exact invariant_start
  | append_singleton nows now ih =>
    rw [List.pairwise_append] at h
    obtain ⟨hnows, -, hle⟩ := h
    have hnow : ∀ t ∈ nows, t ≤ now := fun t ht => hle t ht now (List.mem_singleton_self now)
    rw [calls, List.foldl_append]
    exact (ih hnows).call hnow

/-! ## A full window -/

/-- A full window has everything in it that is remembered. -/
theorem recent_of_full {now : Nat} {kept : List Nat} (hsmall : kept.length ≤ limit)
    (hfull : limit ≤ (recent span now kept).length) : recent span now kept = kept := by
  have hlength : (recent span now kept).length ≤ kept.length := List.length_filter_le ..
  exact List.filter_eq_self.mpr (List.length_filter_eq_length_iff.mp (by
    show (recent span now kept).length = kept.length
    omega))

/-- There is room again once something is out of the window. -/
theorem free_iff {later : Nat} {kept : List Nat} (hlength : kept.length = limit) :
    (recent span later kept).length < limit ↔ ∃ t ∈ kept, t + span < later := by
  rw [← hlength, recent, List.length_filter_lt_length_iff_exists]
  simp only [decide_eq_true_eq, Nat.not_le]

end SlidingWindow
