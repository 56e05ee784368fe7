import Mathlib.Algebra.Ring.Nat
import Mathlib.Data.Int.Order.Basic
import Mathlib.Data.List.Sort
import Sysknife.Lib.CallTable

/-!
# Appending after the last row under READ COMMITTED

Any number of calls, each in a transaction of its own, append rows to one table.
A call chooses the last committed row, waits for the lock on it, inserts a row
after it, perhaps inserts into a second table as well, and commits. The order of
the rows and their keys are unique, and an insert waits for an uncommitted insert
it clashes with. A call that had to wait for the lock goes on with the row that
it had chosen before.
-/

namespace TipAppend

open CallTable (Rules)
open CallTable.State (start_cases start_old setPhase_cases setPhase_self total_lt)

/-- What the calls write: rows of type `ρ` with an order column and a key, rows of
type `σ` in the second table, for calls of type `τ`. -/
structure Writer (ρ σ κ τ : Type) where
  id : τ → κ
  pos : ρ → Int
  key : ρ → κ
  sideKey : σ → κ
  row : τ → Option ρ → ρ
  side : τ → Option σ
  /-- The columns' types take the row's values. -/
  storable : ρ → Bool
  capacity : Nat

/-- The place of a call in its transaction. -/
inductive Phase (ρ σ : Type) where
  | begun
  /-- The select has chosen this row and waits for its lock. -/
  | waiting (tip : ρ)
  /-- The select has returned, and holds the lock if there was a row. -/
  | selected (tip : Option ρ)
  | inserted (tip : Option ρ) (row : ρ)
  | sided (tip : Option ρ) (row : ρ) (side : σ)
  | committed
  | failed
  deriving DecidableEq

namespace Phase
variable {ρ σ : Type}

/-- The row that the call holds the lock of. -/
def lockedRow : Phase ρ σ → Option ρ
  | .selected tip | .inserted tip _ | .sided tip _ _ => tip
  | _ => none

def pendingRow : Phase ρ σ → Option ρ
  | .inserted _ row | .sided _ row _ => some row
  | _ => none

def pendingSide : Phase ρ σ → Option σ
  | .sided _ _ side => some side
  | _ => none

/-- The row that the call has chosen. -/
def chosen : Phase ρ σ → Option ρ
  | .waiting tip => some tip
  | .selected tip | .inserted tip _ | .sided tip _ _ => tip
  | _ => none

def finished : Phase ρ σ → Bool
  | .committed | .failed => true
  | _ => false

end Phase

/-- The committed rows of both tables. -/
structure Tables (ρ σ : Type) where
  rows : List ρ
  sides : List σ

/-- A row, and a row of the second table if there is one. -/
def Tables.append {ρ σ : Type} (tables : Tables ρ σ) (row : ρ) (side : Option σ) : Tables ρ σ :=
  ⟨tables.rows ++ [row], tables.sides ++ side.toList⟩

abbrev State (ρ σ τ : Type) := CallTable.State (Tables ρ σ) τ (Phase ρ σ)

abbrev Input (τ : Type) := CallTable.Input Empty τ

namespace State
variable {ρ σ τ : Type}

def pendingRows (s : State ρ σ τ) : List ρ := s.calls.filterMap fun call => call.2.pendingRow

def pendingSides (s : State ρ σ τ) : List σ := s.calls.filterMap fun call => call.2.pendingSide

end State

/-- The row in front of position `k`. -/
def before {ρ : Type} (rows : List ρ) (k : Nat) : Option ρ := (rows.take k).getLast?

theorem before_length {ρ : Type} (rows : List ρ) : before rows rows.length = rows.getLast? := by
  rw [before, List.take_length]

theorem before_append {ρ : Type} {rows : List ρ} {k : Nat} (h : k ≤ rows.length) (row : ρ) :
    before (rows ++ [row]) k = before rows k := by
  rw [before, before, List.take_append_of_le_length h]

namespace Writer
variable {ρ σ κ τ : Type} (W : Writer ρ σ κ τ)

/-- The first row in descending order. -/
def latest (rows : List ρ) : Option ρ :=
  (rows.insertionSort fun a b => W.pos a ≤ W.pos b).getLast?

/-! ## Chained rows -/

/-- The order column counts from 1 on, and the keys are the calls' own. -/
structure Lawful (W : Writer ρ σ κ τ) : Prop where
  first : ∀ t, W.pos (W.row t none) = 1
  next : ∀ t tip, 1 ≤ W.pos tip → W.pos tip < W.capacity →
    W.pos (W.row t (some tip)) = W.pos tip + 1
  key_row : ∀ t tip, W.key (W.row t tip) = W.id t
  key_side : ∀ t x, W.side t = some x → W.sideKey x = W.id t

/-- The rows are numbered in the order of their commits, and each was made for the
one before it. -/
structure Chained (W : Writer ρ σ κ τ) (rows : List ρ) : Prop where
  numbered : ∀ (k : Nat) (row : ρ), rows[k]? = some row → W.pos row = k + 1
  linked : ∀ (k : Nat) (row : ρ), rows[k]? = some row → ∃ t, row = W.row t (before rows k)
  room : rows.length ≤ W.capacity

section Chained
variable {W} {rows : List ρ}

/-- The last row in the order of the commits is the last row. -/
theorem Chained.latest_eq (h : Chained W rows) : W.latest rows = rows.getLast? := by
  have hsorted : rows.Pairwise fun a b => W.pos a ≤ W.pos b := by
    rw [List.pairwise_iff_getElem]
    intro i j hi hj hij
    have hnumber := h.numbered i rows[i] (List.getElem?_eq_getElem hi)
    have hnumber' := h.numbered j rows[j] (List.getElem?_eq_getElem hj)
    omega
  rw [latest, hsorted.insertionSort_eq]

theorem mem_of_latest {tip : ρ} (h : W.latest rows = some tip) : tip ∈ rows :=
  (List.mem_insertionSort _).mp (List.mem_of_getLast? h)

theorem Chained.pos_next (h : Chained W rows) (hW : W.Lawful) (hroom : rows.length < W.capacity)
    (t : τ) : W.pos (W.row t rows.getLast?) = rows.length + 1 := by
  cases hlast : rows.getLast? with
  | none =>
    rw [List.getLast?_eq_none_iff.mp hlast]
    simpa using hW.first t
  | some tip =>
    have hlen : 0 < rows.length := List.length_pos_of_mem (List.mem_of_getLast? hlast)
    rw [List.getLast?_eq_getElem?] at hlast
    have hnumber := h.numbered _ tip hlast
    rw [hW.next t tip (by omega) (by omega)]
    omega

theorem Chained.append (h : Chained W rows) (hW : W.Lawful) {t : τ}
    (hroom : rows.length < W.capacity) : Chained W (rows ++ [W.row t rows.getLast?]) := by
  have hcases : ∀ (k : Nat) (row : ρ), (rows ++ [W.row t rows.getLast?])[k]? = some row →
      rows[k]? = some row ∧ k < rows.length ∨
        row = W.row t rows.getLast? ∧ k = rows.length := by
    intro k row hk
    rcases Nat.lt_trichotomy k rows.length with hlt | rfl | hgt
    · rw [List.getElem?_append_left hlt] at hk
      exact Or.inl ⟨hk, hlt⟩
    · rw [List.getElem?_concat_length] at hk
      exact Or.inr ⟨(Option.some.inj hk).symm, rfl⟩
    · rw [List.getElem?_eq_none_iff.mpr (by simp; omega)] at hk
      cases hk
  refine ⟨?_, ?_, by simp; omega⟩
  · intro k row hk
    rcases hcases k row hk with ⟨hold, -⟩ | ⟨rfl, rfl⟩
    · exact h.numbered k row hold
    · exact h.pos_next hW hroom t
  · intro k row hk
    rcases hcases k row hk with ⟨hold, hlt⟩ | ⟨rfl, rfl⟩
    · rw [before_append (by omega)]
      exact h.linked k row hold
    · rw [before_append (Nat.le_refl _), before_length]
      exact ⟨t, rfl⟩

end Chained

/-! ## The calls -/

section Calls
variable [DecidableEq κ]

/-- The rows violate a unique constraint together. -/
def clash (a b : ρ) : Bool := W.pos a == W.pos b || W.key a == W.key b

def sideClash (x y : σ) : Bool := W.sideKey x == W.sideKey y

variable {W} in
/-- A row that clashes with none was made for the last one. -/
theorem Chained.tip_eq {rows : List ρ} (h : Chained W rows) (hW : W.Lawful) {t : τ} {tip : Option ρ}
    (hchosen : ∀ row, tip = some row → row ∈ rows)
    (hfree : ¬ rows.any (W.clash (W.row t tip)) = true) : tip = rows.getLast? := by
  have hnot : ∀ k : Nat, W.pos (W.row t tip) = k + 1 → ¬ k < rows.length := by
    intro k hpos hk
    refine hfree (List.any_eq_true.mpr ⟨rows[k], List.getElem_mem hk, ?_⟩)
    have hnumber := h.numbered k rows[k] (List.getElem?_eq_getElem hk)
    simp [clash, hpos, hnumber]
  cases tip with
  | none =>
    have hempty := hnot 0 (by simpa using hW.first t)
    have hnil : rows = [] := List.eq_nil_of_length_eq_zero (by omega)
    rw [hnil]
    rfl
  | some tip =>
    obtain ⟨k, hk, rfl⟩ := List.mem_iff_getElem.mp (hchosen tip rfl)
    have hnumber := h.numbered k rows[k] (List.getElem?_eq_getElem hk)
    have hlast : k + 1 = rows.length := by
      by_contra hne
      have hroom := h.room
      have hnext := hW.next t rows[k] (by omega) (by omega)
      exact hnot (k + 1) (by rw [hnext, hnumber]; push_cast; rfl) (by omega)
    rw [List.getLast?_eq_getElem?, ← hlast]
    exact (List.getElem?_eq_getElem hk).symm

variable [DecidableEq ρ]

/-- What the commit of a call in this phase adds, when it is about to commit. -/
def ready (t : τ) : Phase ρ σ → Option (ρ × Option σ)
  | .inserted _ row => if (W.side t).isNone then some (row, none) else none
  | .sided _ row side => some (row, some side)
  | _ => none

/-- The next statement of a call; none when it waits or there is no more. -/
def next (s : State ρ σ τ) (i : Nat) : Option (State ρ σ τ) :=
  match s.calls[i]? with
  | none => none
  | some (t, .begun) =>
    match W.latest s.store.rows with
    | none => some (s.setPhase i t (.selected none))
    | some tip => some (s.setPhase i t (.waiting tip))
  | some (t, .waiting tip) =>
    if s.calls.any fun call => decide (call.2.lockedRow = some tip) then none
    else some (s.setPhase i t (.selected (some tip)))
  | some (t, .selected tip) =>
    let row := W.row t tip
    if ¬ W.storable row then some (s.setPhase i t .failed)
    else if s.store.rows.any (W.clash row) then some (s.setPhase i t .failed)
    else if s.pendingRows.any (W.clash row) then none
    else if W.capacity ≤ s.store.rows.length then some (s.setPhase i t .failed)
    else some (s.setPhase i t (.inserted tip row))
  | some (t, .inserted tip row) =>
    match W.side t with
    | none => some (s.commit i t .committed (s.store.append row none))
    | some side =>
      if s.store.sides.any (W.sideClash side) then some (s.setPhase i t .failed)
      else if s.pendingSides.any (W.sideClash side) then none
      else some (s.setPhase i t (.sided tip row side))
  | some (t, .sided _ row side) => some (s.commit i t .committed (s.store.append row (some side)))
  | some (_, .committed) => none
  | some (_, .failed) => none

def rules : Rules (Tables ρ σ) Empty τ (Phase ρ σ) where
  empty := ⟨[], []⟩
  begun := .begun
  failed := .failed
  finished := Phase.finished
  next := W.next
  commits tables _ t phase := (W.ready t phase).map fun (row, side) => tables.append row side
  other _ x := x.elim

abbrev run (inputs : List (Input τ)) : State ρ σ τ := W.rules.run inputs

/-! ## What a step can do -/

variable {W}

/-- A change of a call that commits nothing. -/
inductive Move (W : Writer ρ σ κ τ) (s : State ρ σ τ) (t : τ) : Phase ρ σ → Phase ρ σ → Prop
  | fail {phase : Phase ρ σ} : Move W s t phase .failed
  | selectNone (h : W.latest s.store.rows = none) : Move W s t .begun (.selected none)
  | choose {tip : ρ} (h : W.latest s.store.rows = some tip) : Move W s t .begun (.waiting tip)
  | lock {tip : ρ} : Move W s t (.waiting tip) (.selected (some tip))
  | insert {tip : Option ρ} (hrows : ¬ s.store.rows.any (W.clash (W.row t tip)) = true)
      (hpending : ¬ s.pendingRows.any (W.clash (W.row t tip)) = true)
      (hroom : s.store.rows.length < W.capacity) :
      Move W s t (.selected tip) (.inserted tip (W.row t tip))
  | side {tip : Option ρ} {row : ρ} {x : σ} (h : W.side t = some x) :
      Move W s t (.inserted tip row) (.sided tip row x)

/-- What any input does. -/
inductive Effect (W : Writer ρ σ κ τ) (s : State ρ σ τ) : State ρ σ τ → Prop
  | same : Effect W s s
  | start (t : τ) : Effect W s (s.start t .begun)
  | move {i : Nat} {t : τ} {phase phase' : Phase ρ σ} (hi : s.calls[i]? = some (t, phase))
      (h : Move W s t phase phase') : Effect W s (s.setPhase i t phase')
  | commit {i : Nat} {t : τ} {phase phase' : Phase ρ σ} {row : ρ} {side : Option σ}
      (hi : s.calls[i]? = some (t, phase)) (h : W.ready t phase = some (row, side))
      (hphase : phase' = .committed ∨ phase' = .failed) :
      Effect W s (s.commit i t phase' (s.store.append row side))

theorem next_effect {s s' : State ρ σ τ} {i : Nat} (h : W.next s i = some s') : Effect W s s' := by
  unfold next at h
  split at h
  · cases h
  next t hi =>
    cases hlatest : W.latest s.store.rows with
    | none =>
      rw [hlatest] at h
      cases h
      exact .move hi (.selectNone hlatest)
    | some tip =>
      rw [hlatest] at h
      cases h
      exact .move hi (.choose hlatest)
  next t tip hi =>
    split at h
    · cases h
    · cases h
      exact .move hi .lock
  next t tip hi =>
    dsimp only at h
    by_cases hstorable : W.storable (W.row t tip) = true
    case neg =>
      rw [if_pos hstorable] at h
      cases h
      exact .move hi .fail
    rw [if_neg (not_not_intro hstorable)] at h
    by_cases hrows : s.store.rows.any (W.clash (W.row t tip)) = true
    · rw [if_pos hrows] at h
      cases h
      exact .move hi .fail
    rw [if_neg hrows] at h
    by_cases hpending : s.pendingRows.any (W.clash (W.row t tip)) = true
    · rw [if_pos hpending] at h
      cases h
    rw [if_neg hpending] at h
    by_cases hroom : W.capacity ≤ s.store.rows.length
    · rw [if_pos hroom] at h
      cases h
      exact .move hi .fail
    · rw [if_neg hroom] at h
      cases h
      exact .move hi (.insert hrows hpending (by omega))
  next t tip row hi =>
    cases hside : W.side t with
    | none =>
      rw [hside] at h
      cases h
      exact .commit hi (by simp [ready, hside]) (Or.inl rfl)
    | some side =>
      rw [hside] at h
      dsimp only at h
      by_cases hsides : s.store.sides.any (W.sideClash side) = true
      · rw [if_pos hsides] at h
        cases h
        exact .move hi .fail
      rw [if_neg hsides] at h
      by_cases hpending : s.pendingSides.any (W.sideClash side) = true
      · rw [if_pos hpending] at h
        cases h
      · rw [if_neg hpending] at h
        cases h
        exact .move hi (.side hside)
  next t tip row side hi =>
    cases h
    exact .commit hi rfl (Or.inl rfl)
  · cases h
  · cases h

theorem effect_of {s s' : State ρ σ τ} {x : Input τ} (h : W.rules.Effect s x s') :
    Effect W s s' := by
  cases h with
  | same => exact .same
  | start t => exact .start t
  | step hnext => exact next_effect hnext
  | lose hi _ => exact .move hi .fail
  | loseReply hi hcommit =>
    obtain ⟨⟨row, side⟩, hready, rfl⟩ := Option.map_eq_some_iff.mp hcommit
    exact .commit hi hready (Or.inr rfl)
  | other x => cases x

/-! ## The invariant -/

structure Inv (W : Writer ρ σ κ τ) (s : State ρ σ τ) : Prop extends Chained W s.store.rows where
  chosen : ∀ (i : Nat) (t : τ) (phase : Phase ρ σ) (tip : ρ),
    s.calls[i]? = some (t, phase) → phase.chosen = some tip → tip ∈ s.store.rows
  pending : ∀ (i : Nat) (t : τ) (phase : Phase ρ σ) (row : ρ),
    s.calls[i]? = some (t, phase) → phase.pendingRow = some row →
      row = W.row t s.store.rows.getLast? ∧ s.store.rows.length < W.capacity ∧
        ¬ s.store.rows.any (W.clash row) = true
  alone : ∀ (i j : Nat) (t u : τ) (phase phase' : Phase ρ σ) (row row' : ρ),
    s.calls[i]? = some (t, phase) → phase.pendingRow = some row →
    s.calls[j]? = some (u, phase') → phase'.pendingRow = some row' → i = j
  done : ∀ (i : Nat) (t : τ), s.calls[i]? = some (t, .committed) →
    ∃ k, s.store.rows[k]? = some (W.row t (before s.store.rows k))
  sides : ∀ x ∈ s.store.sides, ∃ t tip, W.side t = some x ∧ W.row t tip ∈ s.store.rows
  sided : ∀ (i : Nat) (t : τ) (tip : Option ρ) (row : ρ) (x : σ),
    s.calls[i]? = some (t, .sided tip row x) → W.side t = some x

omit [DecidableEq ρ] in
theorem inv_empty (W : Writer ρ σ κ τ) : Inv W (⟨⟨[], []⟩, []⟩ : State ρ σ τ) := by
  refine ⟨⟨?_, ?_, Nat.zero_le _⟩, ?_, ?_, ?_, ?_, ?_, ?_⟩
  all_goals
    intros
    contradiction

section Step
variable {s : State ρ σ τ}

omit [DecidableEq ρ] in
theorem Inv.start (h : Inv W s) (t : τ) :
    Inv W (s.start t .begun) := by
  refine ⟨h.toChained, ?_, ?_, ?_, ?_, h.sides, ?_⟩
  · intro i u phase tip hi htip
    rcases start_cases hi with ⟨rfl, rfl⟩ | hold
    · cases htip
    · exact h.chosen i u phase tip hold htip
  · intro i u phase row hi hrow
    rcases start_cases hi with ⟨rfl, rfl⟩ | hold
    · cases hrow
    · exact h.pending i u phase row hold hrow
  · intro i j u v phase phase' row row' hi hrow hj hrow'
    rcases start_cases hi with ⟨rfl, rfl⟩ | hold
    · cases hrow
    rcases start_cases hj with ⟨rfl, rfl⟩ | hold'
    · cases hrow'
    exact h.alone i j u v phase phase' row row' hold hrow hold' hrow'
  · intro i u hi
    rcases start_cases hi with ⟨-, hphase⟩ | hold
    · cases hphase
    · exact h.done i u hold
  · intro i u tip row x hi
    rcases start_cases hi with ⟨-, hphase⟩ | hold
    · cases hphase
    · exact h.sided i u tip row x hold

omit [DecidableEq ρ] in
/-- A move leaves the call with what the invariant asks for. -/
theorem Inv.move_phase (h : Inv W s) (hW : W.Lawful) {i : Nat} {t : τ} {phase phase' : Phase ρ σ}
    (hi : s.calls[i]? = some (t, phase)) (hmove : Move W s t phase phase') :
    (∀ tip, phase'.chosen = some tip → tip ∈ s.store.rows) ∧
    (∀ row, phase'.pendingRow = some row →
      row = W.row t s.store.rows.getLast? ∧ s.store.rows.length < W.capacity ∧
        ¬ s.store.rows.any (W.clash row) = true) ∧
    (∀ row, phase'.pendingRow = some row → ∀ j u phase'' row', s.calls[j]? = some (u, phase'') →
      phase''.pendingRow = some row' → i = j) ∧
    phase' ≠ .committed ∧ ∀ tip row x, phase' = .sided tip row x → W.side t = some x := by
  cases hmove with
  | fail => exact ⟨nofun, nofun, nofun, nofun, nofun⟩
  | selectNone hlatest => exact ⟨nofun, nofun, nofun, nofun, nofun⟩
  | choose hlatest =>
    refine ⟨?_, nofun, nofun, nofun, nofun⟩
    intro tip htip
    cases htip
    exact mem_of_latest hlatest
  | lock =>
    refine ⟨?_, nofun, nofun, nofun, nofun⟩
    intro tip htip
    exact h.chosen i t _ tip hi htip
  | @insert tip hrows hpending hroom =>
    have htip : tip = s.store.rows.getLast? :=
      h.toChained.tip_eq hW (fun row => h.chosen i t _ row hi) hrows
    refine ⟨fun row hrow => h.chosen i t _ row hi hrow, ?_, ?_, nofun, nofun⟩
    · intro row hrow
      cases hrow
      exact ⟨by rw [htip], hroom, hrows⟩
    · intro row hrow j u phase'' row' hj hrow'
      refine absurd (List.any_eq_true.mpr ⟨row', ?_, ?_⟩) hpending
      · exact List.mem_filterMap.mpr ⟨(u, phase''), List.mem_of_getElem? hj, hrow'⟩
      · obtain ⟨rfl, -⟩ := h.pending j u phase'' row' hj hrow'
        rw [htip]
        simp [clash, h.toChained.pos_next hW hroom]
  | side hside =>
    refine ⟨fun tip htip => h.chosen i t _ tip hi htip,
      fun row hrow => h.pending i t _ row hi hrow, ?_, nofun, ?_⟩
    · intro row hrow j u phase'' row' hj hrow'
      exact h.alone i j t u _ phase'' row row' hi hrow hj hrow'
    · intro tip row x heq
      cases heq
      exact hside

omit [DecidableEq ρ] in
theorem Inv.move (h : Inv W s) (hW : W.Lawful) {i : Nat} {t : τ} {phase phase' : Phase ρ σ}
    (hi : s.calls[i]? = some (t, phase)) (hmove : Move W s t phase phase') :
    Inv W (s.setPhase i t phase') := by
  obtain ⟨hchosen, hpending, halone, hdone, hsided⟩ := h.move_phase hW hi hmove
  refine ⟨h.toChained, ?_, ?_, ?_, ?_, h.sides, ?_⟩
  · intro j u q tip hj htip
    rcases setPhase_cases hj with ⟨rfl, rfl, rfl⟩ | ⟨-, hold⟩
    · exact hchosen tip htip
    · exact h.chosen j u q tip hold htip
  · intro j u q row hj hrow
    rcases setPhase_cases hj with ⟨rfl, rfl, rfl⟩ | ⟨-, hold⟩
    · exact hpending row hrow
    · exact h.pending j u q row hold hrow
  · intro j k u v q q' row row' hj hrow hk hrow'
    rcases setPhase_cases hj with ⟨rfl, rfl, rfl⟩ | ⟨-, hold⟩
    · rcases setPhase_cases hk with ⟨rfl, rfl, rfl⟩ | ⟨-, hold'⟩
      · rfl
      · exact halone row hrow k v q' row' hold' hrow'
    · rcases setPhase_cases hk with ⟨rfl, rfl, rfl⟩ | ⟨-, hold'⟩
      · exact (halone row' hrow' j u q row hold hrow).symm
      · exact h.alone j k u v q q' row row' hold hrow hold' hrow'
  · intro j u hj
    rcases setPhase_cases hj with ⟨-, -, heq⟩ | ⟨-, hold⟩
    · exact absurd heq.symm hdone
    · exact h.done j u hold
  · intro j u tip row x hj
    rcases setPhase_cases hj with ⟨-, rfl, heq⟩ | ⟨-, hold⟩
    · exact hsided tip row x heq.symm
    · exact h.sided j u tip row x hold

omit [DecidableEq κ] [DecidableEq ρ] in
theorem ready_pending {t : τ} {phase : Phase ρ σ} {row : ρ} {side : Option σ}
    (h : W.ready t phase = some (row, side)) : phase.pendingRow = some row := by
  unfold ready at h
  split at h
  · split at h
    · cases h
      rfl
    · cases h
  · cases h
    rfl
  · cases h

omit [DecidableEq κ] [DecidableEq ρ] in
theorem ready_side {t : τ} {phase : Phase ρ σ} {row : ρ} {x : σ}
    (h : W.ready t phase = some (row, some x)) : ∃ tip, phase = .sided tip row x := by
  unfold ready at h
  split at h
  · split at h <;> cases h
  · cases h
    exact ⟨_, rfl⟩
  · cases h

omit [DecidableEq ρ] in
/-- The only pending row becomes the last row. -/
theorem Inv.commit (h : Inv W s) (hW : W.Lawful) {i : Nat} {t : τ} {phase phase' : Phase ρ σ}
    {row : ρ} {side : Option σ} (hi : s.calls[i]? = some (t, phase))
    (hready : W.ready t phase = some (row, side)) (hphase : phase' = .committed ∨ phase' = .failed) :
    Inv W (s.commit i t phase' (s.store.append row side)) := by
  have hrow := ready_pending hready
  obtain ⟨rfl, hroom, -⟩ := h.pending i t phase row hi hrow
  have hquiet : phase'.chosen = none ∧ phase'.pendingRow = none := by
    rcases hphase with rfl | rfl <;> exact ⟨rfl, rfl⟩
  have hnone : ∀ (j : Nat) (u : τ) (q : Phase ρ σ) (r : ρ),
      (s.calls.set i (t, phase'))[j]? = some (u, q) → q.pendingRow ≠ some r := by
    intro j u q r hj hr
    rcases setPhase_cases hj with ⟨-, -, rfl⟩ | ⟨hne, hold⟩
    · cases hquiet.2.symm.trans hr
    · exact hne (h.alone j i u t q phase r _ hold hr hi hrow)
  refine ⟨h.toChained.append hW hroom, ?_, ?_, ?_, ?_, ?_, ?_⟩
  · intro j u q tip hj htip
    rcases setPhase_cases hj with ⟨-, -, rfl⟩ | ⟨-, hold⟩
    · cases hquiet.1.symm.trans htip
    · exact List.mem_append_left _ (h.chosen j u q tip hold htip)
  · intro j u q r hj hr
    exact absurd hr (hnone j u q r hj)
  · intro j k u v q q' r r' hj hr
    exact absurd hr (hnone j u q r hj)
  · intro j u hj
    show ∃ k, (s.store.rows ++ [W.row t s.store.rows.getLast?])[k]? =
      some (W.row u (before (s.store.rows ++ [W.row t s.store.rows.getLast?]) k))
    rcases setPhase_cases hj with ⟨-, rfl, -⟩ | ⟨-, hold⟩
    · refine ⟨s.store.rows.length, ?_⟩
      rw [List.getElem?_concat_length, before_append (Nat.le_refl _), before_length]
    · obtain ⟨k, hk⟩ := h.done j u hold
      obtain ⟨hlt, -⟩ := List.getElem?_eq_some_iff.mp hk
      refine ⟨k, ?_⟩
      rw [List.getElem?_append_left hlt, before_append (by omega)]
      exact hk
  · intro x hx
    rcases List.mem_append.mp hx with hold | hnew
    · obtain ⟨u, tip, hside, hmem⟩ := h.sides x hold
      exact ⟨u, tip, hside, List.mem_append_left _ hmem⟩
    · obtain rfl : side = some x := by simpa [Option.mem_toList] using hnew
      obtain ⟨tip, rfl⟩ := ready_side hready
      exact ⟨t, _, h.sided i t tip _ x hi, List.mem_append_right _ (List.mem_singleton_self _)⟩
  · intro j u tip r x hj
    rcases setPhase_cases hj with ⟨-, -, rfl⟩ | ⟨-, hold⟩
    · cases hquiet.2
    · exact h.sided j u tip r x hold

omit [DecidableEq ρ] in
theorem Inv.effect (h : Inv W s) (hW : W.Lawful) {s' : State ρ σ τ} (heffect : Effect W s s') :
    Inv W s' := by
  cases heffect with
  | same => exact h
  | start t => exact h.start t
  | move hi hmove => exact h.move hW hi hmove
  | commit hi hready hphase => exact h.commit hW hi hready hphase

theorem run_inv (hW : W.Lawful) (inputs : List (Input τ)) : Inv W (W.run inputs) := by
  refine Rules.run_invariant (inv_empty W) ?_ inputs
  intro s x s' h heffect
  exact h.effect hW (effect_of heffect)

/-! ## Calls that fail -/

/-- Some call has come back with an error. -/
def HasFailed (s : State ρ σ τ) : Prop := ∃ (i : Nat) (t : τ), s.calls[i]? = some (t, .failed)

omit [DecidableEq κ] [DecidableEq ρ] in
theorem hasFailed_iff : HasFailed s ↔ ∃ call ∈ s.calls, call.2 = .failed := by
  constructor
  · rintro ⟨i, t, hi⟩
    exact ⟨_, List.mem_of_getElem? hi, rfl⟩
  · rintro ⟨⟨t, phase⟩, hcall, rfl⟩
    obtain ⟨i, hi⟩ := List.mem_iff_getElem?.mp hcall
    exact ⟨i, t, hi⟩

/-- A select would choose the same row again, the key is new, there is room, and the
columns take the row's values. -/
structure AtTip (W : Writer ρ σ κ τ) (s : State ρ σ τ) (t : τ) (tip : Option ρ) : Prop where
  storable : W.storable (W.row t tip) = true
  last : tip = W.latest s.store.rows
  fresh : ∀ row ∈ s.store.rows, W.key row ≠ W.id t
  room : s.store.rows.length < W.capacity

omit [DecidableEq ρ] in
theorem AtTip.free {t : τ} {tip : Option ρ} (h : AtTip W s t tip) (hc : Chained W s.store.rows)
    (hW : W.Lawful) : ¬ s.store.rows.any (W.clash (W.row t tip)) = true := by
  intro hclash
  obtain ⟨row, hmem, hrow⟩ := List.any_eq_true.mp hclash
  rw [clash, Bool.or_eq_true, beq_iff_eq, beq_iff_eq] at hrow
  rcases hrow with hpos | hkey
  · obtain ⟨k, hk, rfl⟩ := List.mem_iff_getElem.mp hmem
    have hnumber := hc.numbered k s.store.rows[k] (List.getElem?_eq_getElem hk)
    rw [h.last, hc.latest_eq, hc.pos_next hW h.room] at hpos
    omega
  · rw [hW.key_row] at hkey
    exact h.fresh row hmem hkey.symm

/-- An insert fails exactly when it is not at the tip. -/
theorem Inv.insert_fails_iff (h : Inv W s) (hW : W.Lawful) {i : Nat} {t : τ} {tip : Option ρ}
    (hi : s.calls[i]? = some (t, .selected tip)) :
    W.next s i = some (s.setPhase i t .failed) ↔ ¬ AtTip W s t tip := by
  have hnext : W.next s i =
      (if ¬ W.storable (W.row t tip) then some (s.setPhase i t .failed)
      else if s.store.rows.any (W.clash (W.row t tip)) then some (s.setPhase i t .failed)
      else if s.pendingRows.any (W.clash (W.row t tip)) then none
      else if W.capacity ≤ s.store.rows.length then some (s.setPhase i t .failed)
      else some (s.setPhase i t (.inserted tip (W.row t tip)))) := by
    rw [next, hi]
  have hlt : i < s.calls.length := (List.getElem?_eq_some_iff.mp hi).1
  rw [hnext]
  by_cases hstorable : W.storable (W.row t tip) = true
  case neg =>
    rw [if_pos hstorable]
    exact iff_of_true rfl fun hat => hstorable hat.storable
  rw [if_neg (not_not_intro hstorable)]
  by_cases hrows : s.store.rows.any (W.clash (W.row t tip)) = true
  · rw [if_pos hrows]
    exact iff_of_true rfl fun hat => hat.free h.toChained hW hrows
  rw [if_neg hrows]
  have htip : tip = W.latest s.store.rows := by
    rw [h.toChained.latest_eq]
    exact h.toChained.tip_eq hW (fun row => h.chosen i t _ row hi) hrows
  have hfresh : ∀ row ∈ s.store.rows, W.key row ≠ W.id t := by
    intro row hmem hkey
    refine hrows (List.any_eq_true.mpr ⟨row, hmem, ?_⟩)
    simp [clash, hW.key_row, hkey]
  by_cases hpending : s.pendingRows.any (W.clash (W.row t tip)) = true
  · rw [if_pos hpending]
    obtain ⟨row, hmem, -⟩ := List.any_eq_true.mp hpending
    obtain ⟨⟨u, phase⟩, hcall, hrow⟩ := List.mem_filterMap.mp hmem
    obtain ⟨j, hj⟩ := List.mem_iff_getElem?.mp hcall
    obtain ⟨-, hroom, -⟩ := h.pending j u phase row hj hrow
    exact iff_of_false (by simp) fun hnot => hnot ⟨hstorable, htip, hfresh, hroom⟩
  rw [if_neg hpending]
  by_cases hroom : W.capacity ≤ s.store.rows.length
  · rw [if_pos hroom]
    refine iff_of_true rfl fun hat => ?_
    have hlt' := hat.room
    omega
  · rw [if_neg hroom]
    refine iff_of_false ?_ fun hnot => hnot ⟨hstorable, htip, hfresh, by omega⟩
    intro heq
    have hcalls := congrArg (fun s' : State ρ σ τ => s'.calls[i]?) (Option.some.inj heq)
    simp [CallTable.State.setPhase, List.getElem?_set_self hlt] at hcalls

omit [DecidableEq ρ] in
/-- A row for the second table never clashes: its key is that of a pending row. -/
theorem Inv.side_free (h : Inv W s) (hW : W.Lawful) {i : Nat} {t : τ} {tip : Option ρ} {row : ρ}
    {x : σ} (hi : s.calls[i]? = some (t, .inserted tip row)) (hx : W.side t = some x) :
    ¬ s.store.sides.any (W.sideClash x) = true ∧ ¬ s.pendingSides.any (W.sideClash x) = true := by
  obtain ⟨rfl, -, hfree⟩ := h.pending i t _ row hi rfl
  constructor
  · intro hclash
    obtain ⟨y, hmem, hxy⟩ := List.any_eq_true.mp hclash
    obtain ⟨u, tip', hside, hrow⟩ := h.sides y hmem
    rw [sideClash, beq_iff_eq, hW.key_side t x hx, hW.key_side u y hside] at hxy
    refine hfree (List.any_eq_true.mpr ⟨_, hrow, ?_⟩)
    simp [clash, hW.key_row, hxy]
  · intro hclash
    obtain ⟨y, hmem, -⟩ := List.any_eq_true.mp hclash
    obtain ⟨⟨u, phase⟩, hcall, hside⟩ := List.mem_filterMap.mp hmem
    obtain ⟨j, hj⟩ := List.mem_iff_getElem?.mp hcall
    cases phase with
    | sided tip' row' y' =>
      obtain rfl := h.alone i j t u _ _ _ row' hi rfl hj rfl
      cases hi.symm.trans hj
    | _ => cases hside

omit [DecidableEq κ] [DecidableEq ρ] in
theorem hasFailed_set {s' : State ρ σ τ} {i : Nat} {t : τ} {phase phase' : Phase ρ σ}
    (hi : s.calls[i]? = some (t, phase)) (hphase : phase ≠ .failed)
    (hcalls : s'.calls = s.calls.set i (t, phase')) :
    HasFailed s' ↔ HasFailed s ∨ phase' = .failed := by
  constructor
  · rintro ⟨j, u, hj⟩
    rw [hcalls] at hj
    rcases setPhase_cases hj with ⟨-, -, heq⟩ | ⟨-, hold⟩
    · exact Or.inr heq.symm
    · exact Or.inl ⟨j, u, hold⟩
  · rintro (⟨j, u, hj⟩ | rfl)
    · refine ⟨j, u, ?_⟩
      rw [hcalls, List.getElem?_set_ne, hj]
      intro rfl
      cases hi.symm.trans hj
      exact hphase rfl
    · exact ⟨i, t, by rw [hcalls, setPhase_self hi]⟩

/-- An insert at the tip waits or takes place. -/
theorem Inv.insert_of_atTip (h : Inv W s) (hW : W.Lawful) {i : Nat} {t : τ} {tip : Option ρ}
    (hi : s.calls[i]? = some (t, .selected tip)) (hat : AtTip W s t tip) :
    W.next s i = none ∨ W.next s i = some (s.setPhase i t (.inserted tip (W.row t tip))) := by
  have hstorable := hat.storable
  have hfree := hat.free h.toChained hW
  have hroom := hat.room
  rw [next, hi]
  dsimp only
  rw [if_neg (not_not_intro hstorable), if_neg hfree]
  by_cases hpending : s.pendingRows.any (W.clash (W.row t tip)) = true
  · rw [if_pos hpending]
    exact Or.inl rfl
  · rw [if_neg hpending, if_neg (by omega)]
    exact Or.inr rfl

theorem hasFailed_next {s' : State ρ σ τ} {i : Nat} {t : τ} {phase phase' : Phase ρ σ}
    (hi : s.calls[i]? = some (t, phase)) (hnext : W.next s i = some s')
    (hcalls : s'.calls = s.calls.set i (t, phase')) (hphase : phase ≠ .failed)
    (hphase' : phase' ≠ .failed) : HasFailed ((W.next s i).getD s) ↔ HasFailed s := by
  rw [hnext, Option.getD_some, hasFailed_set hi hphase hcalls]
  simp [hphase']

/-- A call that is not about to insert does not fail in a step. -/
theorem Inv.step_keeps (h : Inv W s) (hW : W.Lawful) {i : Nat} {t : τ} {phase : Phase ρ σ}
    (hi : s.calls[i]? = some (t, phase)) (hphase : ∀ tip, phase ≠ .selected tip) :
    HasFailed ((W.next s i).getD s) ↔ HasFailed s := by
  have hnone : W.next s i = none → (HasFailed ((W.next s i).getD s) ↔ HasFailed s) := by
    intro hnext
    rw [hnext, Option.getD_none]
  cases phase with
  | begun =>
    cases hlatest : W.latest s.store.rows with
    | none =>
      have hnext : W.next s i = some (s.setPhase i t (.selected none)) := by
        rw [next, hi]
        simp only [hlatest]
      exact hasFailed_next hi hnext rfl nofun nofun
    | some tip =>
      have hnext : W.next s i = some (s.setPhase i t (.waiting tip)) := by
        rw [next, hi]
        simp only [hlatest]
      exact hasFailed_next hi hnext rfl nofun nofun
  | waiting tip =>
    by_cases hlocked : s.calls.any (fun call => decide (call.2.lockedRow = some tip)) = true
    · apply hnone
      rw [next, hi]
      exact if_pos hlocked
    · have hnext : W.next s i = some (s.setPhase i t (.selected (some tip))) := by
        rw [next, hi]
        exact if_neg hlocked
      exact hasFailed_next hi hnext rfl nofun nofun
  | selected tip => exact absurd rfl (hphase tip)
  | inserted tip row =>
    cases hside : W.side t with
    | none =>
      have hnext : W.next s i = some (s.commit i t .committed (s.store.append row none)) := by
        rw [next, hi]
        simp only [hside]
      exact hasFailed_next hi hnext rfl nofun nofun
    | some x =>
      obtain ⟨hsides, hpending⟩ := h.side_free hW hi hside
      have hnext : W.next s i = some (s.setPhase i t (.sided tip row x)) := by
        rw [next, hi]
        simp only [hside]
        rw [if_neg hsides, if_neg hpending]
      exact hasFailed_next hi hnext rfl nofun nofun
  | sided tip row x =>
    have hnext : W.next s i = some (s.commit i t .committed (s.store.append row (some x))) := by
      rw [next, hi]
    exact hasFailed_next hi hnext rfl nofun nofun
  | committed =>
    apply hnone
    rw [next, hi]
  | failed =>
    apply hnone
    rw [next, hi]

/-- A call fails in a step exactly when it was about to insert elsewhere than at
the tip. -/
theorem Inv.step_failed_iff (h : Inv W s) (hW : W.Lawful) (i : Nat) :
    HasFailed (W.rules.input s (.step i)) ↔
      HasFailed s ∨ ∃ t tip, s.calls[i]? = some (t, .selected tip) ∧ ¬ AtTip W s t tip := by
  show HasFailed ((W.next s i).getD s) ↔ _
  by_cases hselected : ∃ t tip, s.calls[i]? = some (t, .selected tip)
  · obtain ⟨t, tip, hi⟩ := hselected
    by_cases hat : AtTip W s t tip
    · refine Iff.trans ?_ (or_iff_left ?_).symm
      · rcases h.insert_of_atTip hW hi hat with hnext | hnext
        · rw [hnext]
          exact Iff.rfl
        · exact hasFailed_next hi hnext rfl nofun nofun
      · rintro ⟨u, tip', heq, hnot⟩
        rw [hi] at heq
        cases heq
        exact hnot hat
    · rw [(h.insert_fails_iff hW hi).mpr hat, Option.getD_some]
      exact iff_of_true ((hasFailed_set hi nofun rfl).mpr (Or.inr rfl))
        (Or.inr ⟨t, tip, hi, hat⟩)
  · refine Iff.trans ?_ (or_iff_left ?_).symm
    · cases hi : s.calls[i]? with
      | none =>
        have hnext : W.next s i = none := by rw [next, hi]
        rw [hnext, Option.getD_none]
      | some call =>
        obtain ⟨t, phase⟩ := call
        refine h.step_keeps hW hi fun tip heq => ?_
        subst heq
        exact hselected ⟨t, tip, hi⟩
    · rintro ⟨t, tip, hi, -⟩
      exact hselected ⟨t, tip, hi⟩

/-- Each insert that the run comes to goes to the tip. -/
def InsertsAtTip (W : Writer ρ σ κ τ) (inputs : List (Input τ)) : Prop :=
  ∀ pre i post t tip, inputs = pre ++ .step i :: post →
    (W.run pre).calls[i]? = some (t, .selected tip) → AtTip W (W.run pre) t tip

theorem insertsAtTip_concat {inputs : List (Input τ)} {x : Input τ} :
    InsertsAtTip W (inputs ++ [x]) ↔ InsertsAtTip W inputs ∧
      ∀ i t tip, x = .step i → (W.run inputs).calls[i]? = some (t, .selected tip) →
        AtTip W (W.run inputs) t tip := by
  constructor
  · intro h
    refine ⟨?_, ?_⟩
    · intro pre i post t tip hsplit
      exact h pre i (post ++ [x]) t tip (by rw [hsplit]; simp)
    · intro i t tip rfl
      exact h inputs i [] t tip rfl
  · rintro ⟨h, hlast⟩ pre i post t tip hsplit
    rcases List.eq_nil_or_concat post with rfl | ⟨post, y, rfl⟩
    · obtain ⟨rfl, heq⟩ := List.append_inj' hsplit rfl
      exact hlast i t tip (List.singleton_inj.mp heq)
    · rw [List.concat_eq_append, ← List.cons_append, ← List.append_assoc] at hsplit
      obtain ⟨rfl, -⟩ := List.append_inj' hsplit rfl
      exact h pre i post t tip rfl

omit [DecidableEq κ] [DecidableEq ρ] in
theorem hasFailed_start (t : τ) : HasFailed (s.start t .begun) ↔ HasFailed s := by
  constructor
  · rintro ⟨i, u, hi⟩
    rcases start_cases hi with ⟨-, hphase⟩ | hold
    · cases hphase
    · exact ⟨i, u, hold⟩
  · rintro ⟨i, u, hi⟩
    exact ⟨i, u, start_old hi⟩

/-- When nothing is aborted or lost, no call fails exactly when every insert goes
to the tip. -/
theorem run_failed_iff (hW : W.Lawful) {inputs : List (Input τ)}
    (hquiet : ∀ x ∈ inputs, x.isQuiet = true) :
    ¬ HasFailed (W.run inputs) ↔ InsertsAtTip W inputs := by
  induction inputs using List.reverseRecOn with
  | nil =>
    refine iff_of_true ?_ ?_
    · rintro ⟨i, t, hi⟩
      cases hi
    · intro pre i post t tip hsplit
      simp at hsplit
  | append_singleton inputs x ih =>
    have ih := ih fun y hy => hquiet y (List.mem_append_left _ hy)
    have hrun : W.run (inputs ++ [x]) = W.rules.input (W.run inputs) x :=
      W.rules.run_concat inputs x
    rw [insertsAtTip_concat, ← ih, hrun]
    cases x with
    | start t =>
      have hfailed : HasFailed (W.rules.input (W.run inputs) (.start t)) ↔
          HasFailed (W.run inputs) := hasFailed_start t
      rw [hfailed]
      simp
    | step i =>
      rw [(run_inv hW inputs).step_failed_iff hW i, not_or]
      refine and_congr_right fun _ => ?_
      constructor
      · intro hnone j t tip heq hcall
        cases heq
        by_contra hnot
        exact hnone ⟨t, tip, hcall, hnot⟩
      · rintro hall ⟨t, tip, hcall, hnot⟩
        exact hnot (hall i t tip rfl hcall)
    | lose i => cases hquiet (.lose i) (by simp)
    | loseReply i => cases hquiet (.loseReply i) (by simp)
    | other x => cases x

/-! ## Calls that come to an end -/

/-- The statements that a call has still to run, at most. -/
def remaining : Phase ρ σ → Nat
  | .begun => 5
  | .waiting _ => 4
  | .selected _ => 3
  | .inserted .. => 2
  | .sided .. => 1
  | .committed | .failed => 0

theorem next_work {s' : State ρ σ τ} {i : Nat} (h : W.next s i = some s') :
    s'.total remaining < s.total remaining := by
  unfold next at h
  split at h
  · cases h
  next t hi =>
    split at h <;> cases h <;> exact total_lt hi rfl (by simp [remaining])
  next t tip hi =>
    split at h <;> cases h
    exact total_lt hi rfl (by simp [remaining])
  next t tip hi =>
    dsimp only at h
    split_ifs at h <;> cases h <;> exact total_lt hi rfl (by simp [remaining])
  next t tip row hi =>
    split at h
    · cases h
      exact total_lt hi rfl (by simp [remaining])
    · split_ifs at h <;> cases h <;> exact total_lt hi rfl (by simp [remaining])
  next t tip row side hi =>
    cases h
    exact total_lt hi rfl (by simp [remaining])
  · cases h
  · cases h

/-- Who has a pending row can go on. -/
theorem Inv.pending_progress (h : Inv W s) (hW : W.Lawful) {i : Nat} {t : τ} {phase : Phase ρ σ}
    {row : ρ} (hi : s.calls[i]? = some (t, phase)) (hrow : phase.pendingRow = some row) :
    (W.next s i).isSome = true := by
  rw [next, hi]
  cases phase with
  | inserted tip row' =>
    cases hside : W.side t with
    | none => simp only [hside, Option.isSome_some]
    | some x =>
      obtain ⟨hsides, hothers⟩ := h.side_free hW hi hside
      simp only [hside]
      rw [if_neg hsides, if_neg hothers]
      rfl
  | sided tip row' x => rfl
  | _ => cases hrow

/-- Without a pending row every select that has returned can insert, or fails. -/
theorem selected_progress {i : Nat} {t : τ} {tip : Option ρ}
    (hi : s.calls[i]? = some (t, .selected tip))
    (hnone : ¬ s.pendingRows.any (W.clash (W.row t tip)) = true) :
    (W.next s i).isSome = true := by
  rw [next, hi]
  dsimp only
  by_cases hstorable : W.storable (W.row t tip) = true
  case neg =>
    rw [if_pos hstorable]
    rfl
  rw [if_neg (not_not_intro hstorable)]
  by_cases hrows : s.store.rows.any (W.clash (W.row t tip)) = true
  · rw [if_pos hrows]
    rfl
  rw [if_neg hrows, if_neg hnone]
  by_cases hroom : W.capacity ≤ s.store.rows.length
  · rw [if_pos hroom]
    rfl
  · rw [if_neg hroom]
    rfl

/-- The calls never wait for each other in a circle: who waits for a lock waits for
a call that can go on. -/
theorem Inv.progress (h : Inv W s) (hW : W.Lawful) {i : Nat} {t : τ} {phase : Phase ρ σ}
    (hi : s.calls[i]? = some (t, phase)) (hopen : phase.finished = false) :
    ∃ j, (W.next s j).isSome = true := by
  by_cases hpending : ∃ (j : Nat) (u : τ) (q : Phase ρ σ) (row : ρ),
      s.calls[j]? = some (u, q) ∧ q.pendingRow = some row
  · obtain ⟨j, u, q, row, hj, hrow⟩ := hpending
    exact ⟨j, h.pending_progress hW hj hrow⟩
  have hselected : ∀ (j : Nat) (u : τ) (tip : Option ρ), s.calls[j]? = some (u, .selected tip) →
      (W.next s j).isSome = true := by
    intro j u tip hj
    refine selected_progress hj fun hclash => ?_
    obtain ⟨row, hmem, -⟩ := List.any_eq_true.mp hclash
    obtain ⟨⟨v, q⟩, hcall, hrow⟩ := List.mem_filterMap.mp hmem
    obtain ⟨k, hk⟩ := List.mem_iff_getElem?.mp hcall
    exact hpending ⟨k, v, q, row, hk, hrow⟩
  cases phase with
  | begun =>
    refine ⟨i, ?_⟩
    rw [next, hi]
    cases W.latest s.store.rows <;> rfl
  | waiting tip =>
    by_cases hlocked : s.calls.any (fun call => decide (call.2.lockedRow = some tip)) = true
    · obtain ⟨⟨u, q⟩, hcall, hlock⟩ := List.any_eq_true.mp hlocked
      obtain ⟨j, hj⟩ := List.mem_iff_getElem?.mp hcall
      refine ⟨j, ?_⟩
      cases q with
      | selected tip' => exact hselected j u tip' hj
      | inserted tip' row => exact absurd ⟨j, u, _, row, hj, rfl⟩ hpending
      | sided tip' row x => exact absurd ⟨j, u, _, row, hj, rfl⟩ hpending
      | _ => simp [Phase.lockedRow] at hlock
    · refine ⟨i, ?_⟩
      rw [next, hi]
      dsimp only
      rw [if_neg hlocked]
      rfl
  | selected tip => exact ⟨i, hselected i t tip hi⟩
  | inserted tip row => exact absurd ⟨i, t, _, row, hi, rfl⟩ hpending
  | sided tip row x => exact absurd ⟨i, t, _, row, hi, rfl⟩ hpending
  | committed => cases hopen
  | failed => cases hopen

/-- From every state of a run the calls can be brought to their end, each by its
own statements. -/
theorem run_finishes (hW : W.Lawful) (inputs : List (Input τ)) :
    ∃ more : List Nat, ∀ call ∈ (W.run (inputs ++ more.map .step)).calls,
      call.2.finished = true := by
  refine Rules.run_finishes remaining (fun s s' i => next_work) ?_ inputs
  rintro inputs ⟨⟨t, phase⟩, hcall, hopen⟩
  obtain ⟨i, hi⟩ := List.mem_iff_getElem?.mp hcall
  exact (run_inv hW inputs).progress hW hi hopen

end Step

end Calls

end Writer

end TipAppend
