import Mathlib.Data.List.Nodup
import Sysknife.Lib.CallTable

/-!
# Guarded updates under row locks

Any number of calls, each in a transaction of its own under READ COMMITTED, change
rows of one table. The statement of a call takes the rows that match when it begins.
It comes to them in any order, waits for the lock on each, and leaves out a row that no
longer matches as it is committed by then. The call keeps its locks until its commit,
and what it writes is seen from the commit on. Rows are inserted by others.
-/

namespace RowLocks

open CallTable (Rules)
open CallTable.State (start_cases start_old setPhase_cases setPhase_self)

/-- How calls of type `τ` change rows of type `ρ`: which rows the statement matches, and
what becomes of a row, if it is changed at all. Rows are inserted from an `ι`. -/
structure Updater (ρ κ ι τ : Type) where
  key : ρ → κ
  row : ι → ρ
  wants : τ → ρ → Bool
  update : τ → ρ → Option ρ

/-- The place of a call in its transaction. -/
inductive Phase (ρ κ : Type) where
  | begun
  /-- The statement has come to some of its rows: `todo` are left. -/
  | locking (todo : List κ) (held : List ρ)
  | written (held : List ρ)
  | committed (held : List ρ)
  | failed

/-- A row that the commit of a call has changed. -/
structure Change (ρ : Type) where
  call : Nat
  old : ρ
  new : ρ

/-- The changes of one call. -/
def changesBy {ρ : Type} (i : Nat) (changes : List (Change ρ)) : List (Change ρ) :=
  changes.filter fun c => decide (c.call = i)

namespace Phase
variable {ρ κ : Type}

/-- The rows that the call holds the locks of, as it has seen them. -/
def held : Phase ρ κ → List ρ
  | .locking _ held | .written held => held
  | _ => []

def finished : Phase ρ κ → Bool
  | .committed _ | .failed => true
  | _ => false

end Phase

/-- The committed rows, and what the commits have changed so far. -/
structure Table (ρ : Type) where
  rows : List ρ
  changes : List (Change ρ)

abbrev State (ρ κ τ : Type) := CallTable.State (Table ρ) τ (Phase ρ κ)

namespace State
variable {ρ κ τ : Type}

/-- Call `i` is running. -/
def Runs (s : State ρ κ τ) (i : Nat) (t : τ) : Prop :=
  ∃ phase, s.calls[i]? = some (t, phase) ∧ phase.finished = false

def insert (s : State ρ κ τ) (row : ρ) : State ρ κ τ :=
  { s with store.rows := s.store.rows ++ [row] }

end State

/-- What happens beside the start, the end and the commit of a statement. -/
inductive Other (ι : Type) where
  | insert (x : ι)
  /-- The statement of a call comes to one of the rows that are left. -/
  | lock (i pick : Nat)

abbrev Input (ι τ : Type) := CallTable.Input (Other ι) τ

@[match_pattern] abbrev Input.insert {ι τ : Type} (x : ι) : Input ι τ := .other (.insert x)

@[match_pattern] abbrev Input.lock {ι τ : Type} (i pick : Nat) : Input ι τ := .other (.lock i pick)

namespace Updater
variable {ρ κ ι τ : Type} [DecidableEq κ] (U : Updater ρ κ ι τ)

def hasKey (k : κ) (row : ρ) : Bool := decide (U.key row = k)

def changesOf (i : Nat) (t : τ) (held : List ρ) : List (Change ρ) :=
  held.filterMap fun old => (U.update t old).map fun new => ⟨i, old, new⟩

/-- What the commit makes of a row. -/
def put (t : τ) (held : List ρ) (row : ρ) : ρ :=
  match held.find? (U.hasKey (U.key row)) with
  | some old => (U.update t old).getD row
  | none => row

def write (table : Table ρ) (i : Nat) (t : τ) (held : List ρ) : Table ρ where
  rows := table.rows.map (U.put t held)
  changes := table.changes ++ U.changesOf i t held

def commit (s : State ρ κ τ) (i : Nat) (t : τ) (held : List ρ) (phase : Phase ρ κ) :
    State ρ κ τ :=
  s.commit i t phase (U.write s.store i t held)

def isLocked (s : State ρ κ τ) (k : κ) : Bool :=
  s.calls.any fun call => call.2.held.any (U.hasKey k)

/-- A statement comes to a row; none when it waits for the lock. -/
def lock (s : State ρ κ τ) (i pick : Nat) : Option (State ρ κ τ) :=
  match s.calls[i]? with
  | some (t, .locking todo held) =>
    match todo[pick]? with
    | none => none
    | some k =>
      if U.isLocked s k then none
      else match s.store.rows.find? (U.hasKey k) with
        | some row =>
          if U.wants t row then some (s.setPhase i t (.locking (todo.eraseIdx pick) (held ++ [row])))
          else some (s.setPhase i t (.locking (todo.eraseIdx pick) held))
        | none => some (s.setPhase i t (.locking (todo.eraseIdx pick) held))
  | _ => none

/-- The next statement of a call; none when rows are left to lock or there is no more. -/
def next (s : State ρ κ τ) (i : Nat) : Option (State ρ κ τ) :=
  match s.calls[i]? with
  | some (t, .begun) =>
    some (s.setPhase i t (.locking ((s.store.rows.filter (U.wants t)).map U.key) []))
  | some (t, .locking [] held) => some (s.setPhase i t (.written held))
  | some (t, .written held) => some (U.commit s i t held (.committed held))
  | _ => none

def other (s : State ρ κ τ) : Other ι → State ρ κ τ
  | .insert x => if s.store.rows.any (U.hasKey (U.key (U.row x))) then s else s.insert (U.row x)
  | .lock i pick => (U.lock s i pick).getD s

/-- What is committed after the commit of a call that has written its rows. -/
def commits (table : Table ρ) (i : Nat) (t : τ) : Phase ρ κ → Option (Table ρ)
  | .written held => some (U.write table i t held)
  | _ => none

def rules : Rules (Table ρ) (Other ι) τ (Phase ρ κ) where
  empty := ⟨[], []⟩
  begun := .begun
  failed := .failed
  finished := Phase.finished
  next := U.next
  commits := U.commits
  other := U.other

abbrev run (inputs : List (Input ι τ)) : State ρ κ τ := U.rules.run inputs

/-! ## What a step can do -/

variable {U}

@[simp] theorem hasKey_iff {k : κ} {row : ρ} : U.hasKey k row = true ↔ U.key row = k :=
  decide_eq_true_iff

/-- A change of a call that commits nothing. -/
inductive Move (U : Updater ρ κ ι τ) (s : State ρ κ τ) (t : τ) : Phase ρ κ → Phase ρ κ → Prop
  | fail {phase : Phase ρ κ} : Move U s t phase .failed
  | choose : Move U s t .begun (.locking ((s.store.rows.filter (U.wants t)).map U.key) [])
  | lock {todo : List κ} {held : List ρ} {pick : Nat} {row : ρ}
      (htodo : todo[pick]? = some (U.key row)) (hfree : U.isLocked s (U.key row) = false)
      (hrow : row ∈ s.store.rows) (hwants : U.wants t row = true) :
      Move U s t (.locking todo held) (.locking (todo.eraseIdx pick) (held ++ [row]))
  | skip {todo : List κ} {held : List ρ} {pick : Nat} {k : κ} (htodo : todo[pick]? = some k)
      (hgone : s.store.rows.find? (U.hasKey k) = none ∨
        ∃ row, s.store.rows.find? (U.hasKey k) = some row ∧ U.wants t row = false) :
      Move U s t (.locking todo held) (.locking (todo.eraseIdx pick) held)
  | write {held : List ρ} : Move U s t (.locking [] held) (.written held)

/-- What an input does. -/
inductive Effect (U : Updater ρ κ ι τ) (s : State ρ κ τ) (input : Input ι τ) :
    State ρ κ τ → Prop
  | same : Effect U s input s
  | insert {x : ι} (hinput : input = .insert x)
      (hnew : ∀ row ∈ s.store.rows, U.key row ≠ U.key (U.row x)) :
      Effect U s input (s.insert (U.row x))
  | start (t : τ) : Effect U s input (s.start t .begun)
  | move {i : Nat} {t : τ} {phase phase' : Phase ρ κ} (hi : s.calls[i]? = some (t, phase))
      (hrun : phase.finished = false) (h : Move U s t phase phase') :
      Effect U s input (s.setPhase i t phase')
  | commit {i : Nat} {t : τ} {held : List ρ} {phase : Phase ρ κ}
      (hi : s.calls[i]? = some (t, .written held))
      (hphase : phase = .committed held ∨ phase = .failed) :
      Effect U s input (U.commit s i t held phase)

theorem lock_effect {s s' : State ρ κ τ} {i pick : Nat} (h : U.lock s i pick = some s')
    (x : Input ι τ) : Effect U s x s' := by
  unfold lock at h
  split at h
  next t todo held hi =>
    split at h
    · cases h
    next k htodo =>
      split_ifs at h with hlocked
      have hfree := Bool.eq_false_iff.mpr hlocked
      split at h
      next row hfind =>
        obtain rfl := hasKey_iff.mp (List.find?_some hfind)
        split_ifs at h with hwants
        · obtain rfl := Option.some.inj h
          exact .move hi rfl (.lock htodo hfree (List.mem_of_find?_eq_some hfind) hwants)
        · obtain rfl := Option.some.inj h
          exact .move hi rfl (.skip htodo (Or.inr ⟨row, hfind, Bool.eq_false_iff.mpr hwants⟩))
      next hfind =>
        obtain rfl := Option.some.inj h
        exact .move hi rfl (.skip htodo (Or.inl hfind))
  · cases h

theorem next_effect {s s' : State ρ κ τ} {i : Nat} (h : U.next s i = some s') (x : Input ι τ) :
    Effect U s x s' := by
  unfold next at h
  split at h
  next t hi =>
    obtain rfl := Option.some.inj h
    exact .move hi rfl .choose
  next t held hi =>
    obtain rfl := Option.some.inj h
    exact .move hi rfl .write
  next t held hi =>
    obtain rfl := Option.some.inj h
    exact .commit hi (Or.inl rfl)
  · cases h

theorem effect_of {s s' : State ρ κ τ} {x : Input ι τ} (h : U.rules.Effect s x s') :
    Effect U s x s' := by
  cases h with
  | same => exact .same
  | start t => exact .start t
  | step hnext => exact next_effect hnext _
  | lose hi hrun => exact .move hi hrun .fail
  | @loseReply i t phase table hi hcommit =>
    cases phase with
    | written held =>
      obtain rfl := Option.some.inj hcommit
      exact .commit hi (Or.inr rfl)
    | _ => cases hcommit
  | other x =>
    cases x with
    | insert x =>
      show Effect U s (.insert x) (U.other s (.insert x))
      rw [Updater.other]
      split_ifs with hold
      · exact .same
      · refine .insert rfl fun row hrow hkey => hold ?_
        exact List.any_eq_true.mpr ⟨row, hrow, hasKey_iff.mpr hkey⟩
    | lock i pick =>
      show Effect U s (.lock i pick) ((U.lock s i pick).getD s)
      cases h : U.lock s i pick with
      | none => exact .same
      | some s' => exact lock_effect h _

/-! ## The invariant -/

/-- An update does not change the key. -/
def Lawful (U : Updater ρ κ ι τ) : Prop :=
  ∀ t row row', U.update t row = some row' → U.key row' = U.key row

/-- What a call has locked is as it has seen it, and nobody else has it. -/
structure Inv (U : Updater ρ κ ι τ) (s : State ρ κ τ) : Prop where
  keys : (s.store.rows.map U.key).Nodup
  current : ∀ (i : Nat) (t : τ) (phase : Phase ρ κ), s.calls[i]? = some (t, phase) →
    ∀ row ∈ phase.held, row ∈ s.store.rows ∧ U.wants t row = true
  apart : ∀ (i j : Nat) (t u : τ) (phase phase' : Phase ρ κ), i ≠ j →
    s.calls[i]? = some (t, phase) → s.calls[j]? = some (u, phase') →
      ∀ row ∈ phase.held, ∀ row' ∈ phase'.held, U.key row ≠ U.key row'
  once : ∀ (i : Nat) (t : τ) (phase : Phase ρ κ), s.calls[i]? = some (t, phase) →
    (phase.held.map U.key).Nodup

section Inv
variable {s : State ρ κ τ}

omit [DecidableEq κ] in
theorem inv_empty : Inv U (⟨⟨[], []⟩, []⟩ : State ρ κ τ) := by
  refine ⟨List.nodup_nil, ?_, ?_, ?_⟩
  · intro i t phase hi
    cases hi
  · intro i j t u phase phase' _ hi
    cases hi
  · intro i t phase hi
    cases hi

omit [DecidableEq κ] in
theorem Inv.row_inj (h : Inv U s) {row row' : ρ} (hrow : row ∈ s.store.rows)
    (hrow' : row' ∈ s.store.rows) (hkey : U.key row = U.key row') : row = row' :=
  List.inj_on_of_nodup_map h.keys hrow hrow' hkey

/-- Nobody has a row that is not locked. -/
theorem not_held_of_free {k : κ} (hfree : U.isLocked s k = false) {i : Nat} {t : τ}
    {phase : Phase ρ κ} (hi : s.calls[i]? = some (t, phase)) {row : ρ} (hrow : row ∈ phase.held) :
    U.key row ≠ k := by
  intro hkey
  refine Bool.eq_false_iff.mp hfree (List.any_eq_true.mpr ⟨_, List.mem_of_getElem? hi, ?_⟩)
  exact List.any_eq_true.mpr ⟨row, hrow, hasKey_iff.mpr hkey⟩

omit [DecidableEq κ] in
/-- A phase whose locks are rows that the call had already. -/
theorem Inv.keep (h : Inv U s) {i : Nat} {t : τ} {phase phase' : Phase ρ κ}
    (hi : s.calls[i]? = some (t, phase)) (hheld : phase'.held.Sublist phase.held) :
    Inv U (s.setPhase i t phase') := by
  refine ⟨h.keys, ?_, ?_, ?_⟩
  · intro j u other hj row hrow
    obtain ⟨rfl, rfl, rfl⟩ | ⟨-, hj⟩ := setPhase_cases hj
    · exact h.current j u phase hi row (hheld.subset hrow)
    · exact h.current j u other hj row hrow
  · intro j k u v other other' hjk hj hk row hrow row' hrow'
    obtain ⟨rfl, rfl, rfl⟩ | ⟨-, hj'⟩ := setPhase_cases hj
    · obtain ⟨rfl, -, -⟩ | ⟨-, hk'⟩ := setPhase_cases hk
      · exact absurd rfl hjk
      · exact h.apart j k _ _ _ _ hjk hi hk' row (hheld.subset hrow) row' hrow'
    · obtain ⟨rfl, rfl, rfl⟩ | ⟨-, hk'⟩ := setPhase_cases hk
      · exact h.apart j k _ _ _ _ hjk hj' hi row hrow row' (hheld.subset hrow')
      · exact h.apart j k _ _ _ _ hjk hj' hk' row hrow row' hrow'
  · intro j u other hj
    obtain ⟨rfl, rfl, rfl⟩ | ⟨-, hj⟩ := setPhase_cases hj
    · exact (h.once j u phase hi).sublist (hheld.map U.key)
    · exact h.once j u other hj

/-- A row that was free is locked. -/
theorem Inv.take (h : Inv U s) {i : Nat} {t : τ} {todo todo' : List κ} {held : List ρ} {row : ρ}
    (hi : s.calls[i]? = some (t, .locking todo held)) (hfree : U.isLocked s (U.key row) = false)
    (hrow : row ∈ s.store.rows) (hwants : U.wants t row = true) :
    Inv U (s.setPhase i t (.locking todo' (held ++ [row]))) := by
  refine ⟨h.keys, ?_, ?_, ?_⟩
  · intro j u other hj old hold
    obtain ⟨rfl, rfl, rfl⟩ | ⟨-, hj⟩ := setPhase_cases hj
    · rcases List.mem_append.mp hold with hold | hold
      · exact h.current j u _ hi old hold
      · obtain rfl := List.mem_singleton.mp hold
        exact ⟨hrow, hwants⟩
    · exact h.current j u other hj old hold
  · intro j k u v other other' hjk hj hk old hold old' hold'
    obtain ⟨rfl, rfl, rfl⟩ | ⟨-, hj'⟩ := setPhase_cases hj
    · obtain ⟨rfl, -, -⟩ | ⟨-, hk'⟩ := setPhase_cases hk
      · exact absurd rfl hjk
      · rcases List.mem_append.mp hold with hold | hold
        · exact h.apart j k _ _ _ _ hjk hi hk' old hold old' hold'
        · obtain rfl := List.mem_singleton.mp hold
          exact (not_held_of_free hfree hk' hold').symm
    · obtain ⟨rfl, rfl, rfl⟩ | ⟨-, hk'⟩ := setPhase_cases hk
      · rcases List.mem_append.mp hold' with hold' | hold'
        · exact h.apart j k _ _ _ _ hjk hj' hi old hold old' hold'
        · obtain rfl := List.mem_singleton.mp hold'
          exact not_held_of_free hfree hj' hold
      · exact h.apart j k _ _ _ _ hjk hj' hk' old hold old' hold'
  · intro j u other hj
    obtain ⟨rfl, rfl, rfl⟩ | ⟨-, hj⟩ := setPhase_cases hj
    · show ((held ++ [row]).map U.key).Nodup
      rw [List.map_append, List.nodup_append]
      refine ⟨h.once j u _ hi, List.nodup_singleton _, ?_⟩
      intro k hk k' hk' heq
      obtain ⟨old, hold, rfl⟩ := List.mem_map.mp hk
      rw [List.map_singleton, List.mem_singleton] at hk'
      exact not_held_of_free hfree hi hold (heq.trans hk')
    · exact h.once j u other hj

theorem Inv.move (h : Inv U s) {i : Nat} {t : τ} {phase phase' : Phase ρ κ}
    (hi : s.calls[i]? = some (t, phase)) (hmove : Move U s t phase phase') :
    Inv U (s.setPhase i t phase') := by
  cases hmove with
  | fail => exact h.keep hi (List.nil_sublist _)
  | choose => exact h.keep hi (List.Sublist.refl _)
  | lock _ hfree hrow hwants => exact h.take hi hfree hrow hwants
  | skip => exact h.keep hi (List.Sublist.refl _)
  | write => exact h.keep hi (List.Sublist.refl _)

/-! ## The commit -/

/-- A row of the call becomes what the call makes of it, and every other row stays. -/
theorem Inv.put_eq (h : Inv U s) {i : Nat} {t : τ} {held : List ρ}
    (hi : s.calls[i]? = some (t, .written held)) {row : ρ} (hrow : row ∈ s.store.rows) :
    row ∈ held ∧ U.put t held row = (U.update t row).getD row ∨
      (∀ old ∈ held, U.key old ≠ U.key row) ∧ U.put t held row = row := by
  unfold put
  cases hfind : held.find? (U.hasKey (U.key row)) with
  | some old =>
    have hold := List.mem_of_find?_eq_some hfind
    have hkey := hasKey_iff.mp (List.find?_some hfind)
    obtain rfl := h.row_inj (h.current i t _ hi old hold).1 hrow hkey
    exact Or.inl ⟨hold, rfl⟩
  | none =>
    refine Or.inr ⟨fun old hold hkey => ?_, rfl⟩
    exact List.find?_eq_none.mp hfind old hold (hasKey_iff.mpr hkey)

theorem key_put (hU : U.Lawful) (t : τ) (held : List ρ) (row : ρ) :
    U.key (U.put t held row) = U.key row := by
  unfold put
  cases hfind : held.find? (U.hasKey (U.key row)) with
  | none => rfl
  | some old =>
    have hkey := hasKey_iff.mp (List.find?_some hfind)
    cases hupdate : U.update t old with
    | none => simp [hupdate]
    | some new => simpa [hupdate] using (hU t old new hupdate).trans hkey

theorem Inv.commit (h : Inv U s) (hU : U.Lawful) {i : Nat} {t : τ} {held : List ρ}
    {phase : Phase ρ κ} (hi : s.calls[i]? = some (t, .written held)) (hphase : phase.held = []) :
    Inv U (U.commit s i t held phase) := by
  have hkeys : (s.store.rows.map (U.put t held)).map U.key = s.store.rows.map U.key := by
    rw [List.map_map]
    exact List.map_congr_left fun row _ => key_put hU t held row
  have hphases : Inv U (s.setPhase i t phase) := by
    refine h.keep hi ?_
    rw [hphase]
    exact List.nil_sublist _
  refine ⟨hkeys ▸ h.keys, ?_, hphases.apart, hphases.once⟩
  intro j u other hj row hrow
  obtain ⟨rfl, rfl, rfl⟩ | ⟨hji, hj⟩ := setPhase_cases hj
  · rw [hphase] at hrow
    cases hrow
  · -- another call's row is none of those that are written
    obtain ⟨hmem, hwants⟩ := h.current j u other hj row hrow
    refine ⟨List.mem_map.mpr ⟨row, hmem, ?_⟩, hwants⟩
    rcases h.put_eq hi hmem with ⟨hheld, -⟩ | ⟨-, hsame⟩
    · exact absurd rfl (h.apart j i _ _ _ _ hji hj hi row hrow row hheld)
    · exact hsame

omit [DecidableEq κ] in
theorem Inv.insert (h : Inv U s) {x : ι}
    (hnew : ∀ row ∈ s.store.rows, U.key row ≠ U.key (U.row x)) : Inv U (s.insert (U.row x)) := by
  refine ⟨?_, ?_, h.apart, h.once⟩
  · show ((s.store.rows ++ [U.row x]).map U.key).Nodup
    rw [List.map_append, List.nodup_append]
    refine ⟨h.keys, List.nodup_singleton _, ?_⟩
    intro k hk k' hk' heq
    obtain ⟨row, hrow, rfl⟩ := List.mem_map.mp hk
    rw [List.map_singleton, List.mem_singleton] at hk'
    exact hnew row hrow (heq.trans hk')
  · intro i t phase hi row hrow
    obtain ⟨hmem, hwants⟩ := h.current i t phase hi row hrow
    exact ⟨List.mem_append_left _ hmem, hwants⟩

omit [DecidableEq κ] in
theorem Inv.start (h : Inv U s) (t : τ) :
    Inv U (s.start t .begun) := by
  refine ⟨h.keys, ?_, ?_, ?_⟩
  · intro i u phase hi row hrow
    rcases start_cases hi with ⟨-, rfl⟩ | hi
    · cases hrow
    · exact h.current i u phase hi row hrow
  · intro i j u v phase phase' hij hi hj row hrow row' hrow'
    rcases start_cases hi with ⟨-, rfl⟩ | hi
    · cases hrow
    · rcases start_cases hj with ⟨-, rfl⟩ | hj
      · cases hrow'
      · exact h.apart i j u v phase phase' hij hi hj row hrow row' hrow'
  · intro i u phase hi
    rcases start_cases hi with ⟨-, rfl⟩ | hi
    · exact List.nodup_nil
    · exact h.once i u phase hi

theorem Inv.effect (h : Inv U s) (hU : U.Lawful) {x : Input ι τ} {s' : State ρ κ τ}
    (heffect : Effect U s x s') : Inv U s' := by
  cases heffect with
  | same => exact h
  | insert _ hnew => exact h.insert hnew
  | start t => exact h.start t
  | move hi _ hmove => exact h.move hi hmove
  | commit hi hphase =>
    refine h.commit hU hi ?_
    rcases hphase with rfl | rfl
    · rfl
    · rfl

end Inv

theorem run_inv (hU : U.Lawful) (inputs : List (Input ι τ)) : Inv U (U.run inputs) := by
  refine Rules.run_invariant inv_empty ?_ inputs
  intro s x s' h heffect
  exact h.effect hU (effect_of heffect)

/-! ## What the commits have changed -/

/-- The changes lead from the first version of a row to the last one, each from the
version that the one before it has left. -/
inductive Trail (first : ρ) : List (Change ρ) → ρ → Prop
  | nil : Trail first [] first
  | snoc {changes : List (Change ρ)} {c : Change ρ} (h : Trail first changes c.old) :
      Trail first (changes ++ [c]) c.new

omit [DecidableEq κ] in
/-- A measure that every change increases is lower the earlier the change. -/
theorem Trail.pairwise {f : ρ → Nat} {first last : ρ} {changes : List (Change ρ)}
    (h : Trail first changes last) (hf : ∀ c ∈ changes, f c.old < f c.new) :
    (changes.Pairwise fun c c' => f c.old < f c'.old) ∧ ∀ c ∈ changes, f c.old < f last := by
  induction h with
  | nil => exact ⟨List.Pairwise.nil, fun c hc => absurd hc List.not_mem_nil⟩
  | @snoc changes c _ ih =>
    obtain ⟨hpairs, hlast⟩ := ih fun d hd => hf d (List.mem_append_left _ hd)
    have hstep := hf c (List.mem_append_right _ (List.mem_singleton_self c))
    refine ⟨List.pairwise_append.mpr ⟨hpairs, List.pairwise_singleton _ _, ?_⟩, ?_⟩
    · intro d hd d' hd'
      rw [List.mem_singleton.mp hd']
      exact hlast d hd
    · intro d hd
      rcases List.mem_append.mp hd with hd | hd
      · exact Nat.lt_trans (hlast d hd) hstep
      · rwa [List.mem_singleton.mp hd]

omit [DecidableEq κ] in
/-- A row is changed once from each value of the measure. -/
theorem Trail.eq_of_measure {f : ρ → Nat} {first last : ρ} {changes : List (Change ρ)}
    (h : Trail first changes last) (hf : ∀ c ∈ changes, f c.old < f c.new) {c d : Change ρ}
    (hc : c ∈ changes) (hd : d ∈ changes) (hsame : f c.old = f d.old) : c = d := by
  have hpairs := List.pairwise_iff_getElem.mp (h.pairwise hf).1
  obtain ⟨i, hi, rfl⟩ := List.mem_iff_getElem.mp hc
  obtain ⟨j, hj, rfl⟩ := List.mem_iff_getElem.mp hd
  rcases Nat.lt_trichotomy i j with hlt | rfl | hlt
  · have hless := hpairs i j hi hj hlt
    omega
  · rfl
  · have hless := hpairs j i hj hi hlt
    omega

variable (U) in
/-- The changes of one row. -/
def changesTo (k : κ) (changes : List (Change ρ)) : List (Change ρ) :=
  changes.filter fun c => U.hasKey k c.old

omit [DecidableEq κ] in
theorem mem_changesOf {i : Nat} {t : τ} {held : List ρ} {c : Change ρ} :
    c ∈ U.changesOf i t held ↔ c.call = i ∧ c.old ∈ held ∧ U.update t c.old = some c.new := by
  unfold changesOf
  rw [List.mem_filterMap]
  constructor
  · rintro ⟨old, hold, hc⟩
    obtain ⟨new, hnew, rfl⟩ := Option.map_eq_some_iff.mp hc
    exact ⟨rfl, hold, hnew⟩
  · rintro ⟨rfl, hold, hnew⟩
    exact ⟨c.old, hold, Option.map_eq_some_iff.mpr ⟨c.new, hnew, rfl⟩⟩

omit [DecidableEq κ] in
theorem changesOf_append (i : Nat) (t : τ) (held more : List ρ) :
    U.changesOf i t (held ++ more) = U.changesOf i t held ++ U.changesOf i t more :=
  List.filterMap_append ..

theorem changesTo_append (k : κ) (changes more : List (Change ρ)) :
    U.changesTo k (changes ++ more) = U.changesTo k changes ++ U.changesTo k more :=
  List.filter_append ..

/-- A call that has not locked a row does not change it. -/
theorem changesTo_other {k : κ} {i : Nat} {t : τ} {held : List ρ}
    (h : ∀ old ∈ held, U.key old ≠ k) : U.changesTo k (U.changesOf i t held) = [] := by
  refine List.filter_eq_nil_iff.mpr fun c hc hkey => ?_
  exact h c.old (mem_changesOf.mp hc).2.1 (hasKey_iff.mp hkey)

/-- A call changes a row that it has locked at most once. -/
theorem changesTo_held {i : Nat} {t : τ} {held : List ρ} (honce : (held.map U.key).Nodup)
    {row : ρ} (hrow : row ∈ held) :
    U.changesTo (U.key row) (U.changesOf i t held) =
      ((U.update t row).map fun new => (⟨i, row, new⟩ : Change ρ)).toList := by
  obtain ⟨pre, suf, rfl⟩ := List.append_of_mem hrow
  rw [List.map_append, List.map_cons, List.nodup_middle, List.nodup_cons, ← List.map_append] at honce
  have hothers : ∀ old ∈ pre ++ suf, U.key old ≠ U.key row :=
    fun old hold hkey => honce.1 (hkey ▸ List.mem_map_of_mem hold)
  have hpre := changesTo_other (i := i) (t := t) fun old hold => hothers old (List.mem_append_left _ hold)
  have hsuf := changesTo_other (i := i) (t := t) fun old hold => hothers old (List.mem_append_right _ hold)
  have hself : U.changesOf i t [row] =
      ((U.update t row).map fun new => (⟨i, row, new⟩ : Change ρ)).toList := by
    cases hupdate : U.update t row with
    | none => simp [changesOf, hupdate]
    | some new => simp [changesOf, hupdate]
  rw [← List.singleton_append, changesOf_append, changesOf_append, changesTo_append,
    changesTo_append, hpre, hsuf, hself, List.nil_append, List.append_nil]
  refine List.filter_eq_self.mpr fun c hc => ?_
  obtain ⟨new, -, rfl⟩ := Option.map_eq_some_iff.mp (Option.mem_toList.mp hc)
  exact hasKey_iff.mpr rfl

/-- The changes so far are those of the calls that have come to their commit, and every
row has come from the one that was inserted by them. -/
structure History (U : Updater ρ κ ι τ) (inputs : List (Input ι τ)) (s : State ρ κ τ) :
    Prop where
  made : ∀ c ∈ s.store.changes, ∃ t phase, s.calls[c.call]? = some (t, phase) ∧
    phase.finished = true ∧ U.wants t c.old = true ∧ U.update t c.old = some c.new
  known : ∀ c ∈ s.store.changes, ∃ row ∈ s.store.rows, U.key row = U.key c.old
  whole : ∀ (i : Nat) (t : τ) (held : List ρ), s.calls[i]? = some (t, .committed held) →
    changesBy i s.store.changes = U.changesOf i t held
  trail : ∀ row ∈ s.store.rows, ∃ x, .insert x ∈ inputs ∧
    Trail (U.row x) (U.changesTo (U.key row) s.store.changes) row

section History
variable {inputs : List (Input ι τ)} {s : State ρ κ τ}

theorem Move.not_committed {t : τ} {phase : Phase ρ κ} {held : List ρ} :
    ¬ Move U s t phase (.committed held) := by
  intro h
  cases h

/-- A call that is still running has changed nothing. -/
theorem History.call_ne (h : History U inputs s) {i : Nat} {t : τ} {phase : Phase ρ κ}
    (hi : s.calls[i]? = some (t, phase)) (hrun : phase.finished = false) {c : Change ρ}
    (hc : c ∈ s.store.changes) : c.call ≠ i := by
  rintro rfl
  obtain ⟨u, other, hcall, hfinished, -⟩ := h.made c hc
  rw [hi] at hcall
  obtain ⟨-, rfl⟩ := Prod.mk.inj (Option.some.inj hcall)
  rw [hrun] at hfinished
  cases hfinished

theorem History.more (h : History U inputs s) (x : Input ι τ) : History U (inputs ++ [x]) s := by
  refine ⟨h.made, h.known, h.whole, fun row hrow => ?_⟩
  obtain ⟨y, hy, htrail⟩ := h.trail row hrow
  exact ⟨y, List.mem_append_left _ hy, htrail⟩

theorem History.insert (h : History U inputs s) {x : ι}
    (hnew : ∀ row ∈ s.store.rows, U.key row ≠ U.key (U.row x)) :
    History U (inputs ++ [.insert x]) (s.insert (U.row x)) := by
  refine ⟨h.made, ?_, h.whole, ?_⟩
  · intro c hc
    obtain ⟨row, hrow, hkey⟩ := h.known c hc
    exact ⟨row, List.mem_append_left _ hrow, hkey⟩
  · intro row hrow
    rcases List.mem_append.mp hrow with hrow | hrow
    · exact (h.more (.insert x)).trail row hrow
    · rw [List.mem_singleton.mp hrow]
      refine ⟨x, List.mem_append_right _ (List.mem_singleton_self _), ?_⟩
      have hnone : U.changesTo (U.key (U.row x)) s.store.changes = [] := by
        refine List.filter_eq_nil_iff.mpr fun c hc hkey => ?_
        obtain ⟨old, hold, holdKey⟩ := h.known c hc
        exact hnew old hold (holdKey.trans (hasKey_iff.mp hkey))
      show Trail (U.row x) (U.changesTo (U.key (U.row x)) s.store.changes) (U.row x)
      rw [hnone]
      exact .nil

theorem History.start (h : History U inputs s) (t : τ) :
    History U inputs (s.start t .begun) := by
  refine ⟨?_, h.known, ?_, h.trail⟩
  · intro c hc
    obtain ⟨u, phase, hcall, hrest⟩ := h.made c hc
    exact ⟨u, phase, start_old hcall, hrest⟩
  · intro i u held hi
    rcases start_cases hi with ⟨-, hbegun⟩ | hi
    · cases hbegun
    · exact h.whole i u held hi

theorem History.move (h : History U inputs s) {i : Nat} {t : τ} {phase phase' : Phase ρ κ}
    (hi : s.calls[i]? = some (t, phase)) (hrun : phase.finished = false)
    (hmove : Move U s t phase phase') : History U inputs (s.setPhase i t phase') := by
  refine ⟨?_, h.known, ?_, h.trail⟩
  · intro c hc
    obtain ⟨u, other, hcall, hrest⟩ := h.made c hc
    refine ⟨u, other, ?_, hrest⟩
    exact (List.getElem?_set_ne (h.call_ne hi hrun hc).symm).trans hcall
  · intro j u held hj
    obtain ⟨rfl, rfl, rfl⟩ | ⟨-, hj⟩ := setPhase_cases hj
    · exact absurd hmove Move.not_committed
    · exact h.whole j u held hj

theorem History.commit (h : History U inputs s) (hinv : Inv U s) (hU : U.Lawful) {i : Nat} {t : τ}
    {held : List ρ} {phase : Phase ρ κ} (hi : s.calls[i]? = some (t, .written held))
    (hphase : phase = .committed held ∨ phase = .failed) :
    History U inputs (U.commit s i t held phase) := by
  have hold : ∀ c ∈ s.store.changes, c.call ≠ i := fun c hc => h.call_ne hi rfl hc
  have hself : (s.calls.set i (t, phase))[i]? = some (t, phase) :=
    setPhase_self hi
  refine ⟨?_, ?_, ?_, ?_⟩
  · intro c hc
    rcases List.mem_append.mp hc with hc | hc
    · obtain ⟨u, other, hcall, hrest⟩ := h.made c hc
      exact ⟨u, other, (List.getElem?_set_ne (hold c hc).symm).trans hcall, hrest⟩
    · obtain ⟨rfl, hmem, hupdate⟩ := mem_changesOf.mp hc
      refine ⟨t, phase, hself, ?_, (hinv.current _ t _ hi c.old hmem).2, hupdate⟩
      rcases hphase with rfl | rfl
      · rfl
      · rfl
  · intro c hc
    have hrow : ∃ row ∈ s.store.rows, U.key row = U.key c.old := by
      rcases List.mem_append.mp hc with hc | hc
      · exact h.known c hc
      · exact ⟨c.old, (hinv.current i t _ hi c.old (mem_changesOf.mp hc).2.1).1, rfl⟩
    obtain ⟨row, hrow, hkey⟩ := hrow
    exact ⟨_, List.mem_map_of_mem hrow, (key_put hU t held row).trans hkey⟩
  · intro j u other hj
    have hsplit : changesBy j (s.store.changes ++ U.changesOf i t held) =
        changesBy j s.store.changes ++ changesBy j (U.changesOf i t held) := List.filter_append ..
    show changesBy j (s.store.changes ++ U.changesOf i t held) = U.changesOf j u other
    rw [hsplit]
    obtain ⟨rfl, rfl, hsame⟩ | ⟨hji, hj⟩ := setPhase_cases hj
    · obtain rfl : other = held := by
        rcases hphase with rfl | rfl
        · exact Phase.committed.inj hsame
        · cases hsame
      have hnone : changesBy j s.store.changes = [] :=
        List.filter_eq_nil_iff.mpr fun c hc hcall => hold c hc (of_decide_eq_true hcall)
      have hall : changesBy j (U.changesOf j u other) = U.changesOf j u other :=
        List.filter_eq_self.mpr fun c hc => decide_eq_true (mem_changesOf.mp hc).1
      rw [hnone, hall, List.nil_append]
    · have hnone : changesBy j (U.changesOf i t held) = [] := by
        refine List.filter_eq_nil_iff.mpr fun c hc hcall => hji ?_
        exact (of_decide_eq_true hcall).symm.trans (mem_changesOf.mp hc).1
      rw [hnone, List.append_nil]
      exact h.whole j u other hj
  · intro row' hrow'
    obtain ⟨row, hrow, rfl⟩ := List.mem_map.mp hrow'
    obtain ⟨x, hx, htrail⟩ := h.trail row hrow
    refine ⟨x, hx, ?_⟩
    show Trail (U.row x) (U.changesTo (U.key (U.put t held row))
      (s.store.changes ++ U.changesOf i t held)) (U.put t held row)
    rw [key_put hU, changesTo_append]
    rcases hinv.put_eq hi hrow with ⟨hheld, hput⟩ | ⟨hothers, hput⟩
    · have honce : (held.map U.key).Nodup := hinv.once i t _ hi
      rw [hput, changesTo_held honce hheld]
      cases U.update t row with
      | none => simpa using htrail
      | some new => exact .snoc htrail
    · rw [hput, changesTo_other hothers, List.append_nil]
      exact htrail

end History

theorem run_history (hU : U.Lawful) (inputs : List (Input ι τ)) :
    History U inputs (U.run inputs) := by
  refine Rules.run_induction (P := History U) ?_ ?_ inputs
  · refine ⟨fun c hc => absurd hc List.not_mem_nil, fun c hc => absurd hc List.not_mem_nil, ?_,
      fun row hrow => absurd hrow List.not_mem_nil⟩
    intro i t held hi
    cases hi
  · intro inputs x s' ih heffect _
    cases effect_of heffect with
    | same => exact ih.more x
    | insert hinput hnew =>
      subst hinput
      exact ih.insert hnew
    | start t => exact (ih.more x).start t
    | move hi hrun hmove => exact (ih.more x).move hi hrun hmove
    | commit hi hphase => exact (ih.more x).commit (run_inv hU inputs) hU hi hphase

/-! ## What a call answers -/

/-- The statement of the call matches one row at most. -/
def SingleRow (U : Updater ρ κ ι τ) (t : τ) : Prop :=
  ∃ k, ∀ row, U.wants t row = true → U.key row = k

variable (U) in
/-- What the statement would do to the rows all at once. -/
def atomic (t : τ) (rows : List ρ) : List ρ :=
  rows.map fun row => if U.wants t row then (U.update t row).getD row else row

/-- At some moment while the call was running no row did match. -/
def MatchedNone (U : Updater ρ κ ι τ) (inputs : List (Input ι τ)) (i : Nat) (t : τ) : Prop :=
  ∃ before, before <+: inputs ∧ (U.run before).Runs i t ∧
    (U.run before).store.rows.filter (U.wants t) = []

/-- At some moment while the call was running these were the rows that match, and in the
step that followed the call has done to the rows all that it does. -/
def DidAtOnce (U : Updater ρ κ ι τ) (inputs : List (Input ι τ)) (i : Nat) (t : τ)
    (held : List ρ) : Prop :=
  ∃ before x, before ++ [x] <+: inputs ∧ (U.run before).Runs i t ∧
    (U.run before).store.rows.filter (U.wants t) = held ∧
    (U.run (before ++ [x])).store.rows = U.atomic t (U.run before).store.rows

section Answers
variable {inputs : List (Input ι τ)} {s : State ρ κ τ} {i : Nat} {t : τ}

theorem MatchedNone.more (h : MatchedNone U inputs i t) (x : Input ι τ) :
    MatchedNone U (inputs ++ [x]) i t := by
  obtain ⟨before, hbefore, hrest⟩ := h
  exact ⟨before, hbefore.trans (List.prefix_append _ _), hrest⟩

theorem DidAtOnce.more {held : List ρ} (h : DidAtOnce U inputs i t held) (x : Input ι τ) :
    DidAtOnce U (inputs ++ [x]) i t held := by
  obtain ⟨before, y, hbefore, hrest⟩ := h
  exact ⟨before, y, hbefore.trans (List.prefix_append _ _), hrest⟩

theorem eq_singleton {α : Type} {xs : List α} {a : α} (hnodup : xs.Nodup) (hmem : a ∈ xs)
    (hall : ∀ x ∈ xs, x = a) : xs = [a] := by
  refine List.perm_singleton.mp
    ((List.perm_ext_iff_of_nodup hnodup (List.nodup_singleton a)).mpr fun x => ?_)
  rw [List.mem_singleton]
  exact ⟨hall x, fun h => h ▸ hmem⟩

omit [DecidableEq κ] in
/-- The rows of a call that is about to commit are those that match at that moment. -/
theorem Inv.written_eq (h : Inv U s) (hone : U.SingleRow t) {held : List ρ}
    (hi : s.calls[i]? = some (t, .written held)) (hheld : held ≠ []) :
    s.store.rows.filter (U.wants t) = held := by
  obtain ⟨k, hk⟩ := hone
  obtain ⟨row, hrow⟩ := List.exists_mem_of_ne_nil held hheld
  obtain ⟨hmem, hwants⟩ := h.current i t _ hi row hrow
  have hunique : ∀ other ∈ s.store.rows, U.wants t other = true → other = row :=
    fun other hother hmatch => h.row_inj hother hmem ((hk other hmatch).trans (hk row hwants).symm)
  have hkeys : (held.map U.key).Nodup := h.once i t _ hi
  have hsingle : held = [row] := by
    refine eq_singleton (hkeys.of_map U.key) hrow fun other hother => ?_
    obtain ⟨hother, hmatch⟩ := h.current i t _ hi other hother
    exact hunique other hother hmatch
  rw [hsingle]
  refine eq_singleton ((h.keys.of_map U.key).filter _) (List.mem_filter.mpr ⟨hmem, hwants⟩) ?_
  intro other hother
  obtain ⟨hother, hmatch⟩ := List.mem_filter.mp hother
  exact hunique other hother hmatch

/-- Such a call commits what it would do to the rows all at once. -/
theorem Inv.commit_rows (h : Inv U s) (hone : U.SingleRow t) {held : List ρ} {phase : Phase ρ κ}
    (hi : s.calls[i]? = some (t, .written held)) (hheld : held ≠ []) :
    (U.commit s i t held phase).store.rows = U.atomic t s.store.rows := by
  refine List.map_congr_left fun row hrow => ?_
  have hmatch := h.written_eq hone hi hheld
  rcases h.put_eq hi hrow with ⟨hmem, hput⟩ | ⟨hothers, hput⟩
  · rw [hput, if_pos (h.current i t _ hi row hmem).2]
  · rw [hput, if_neg]
    intro hwants
    refine hothers row ?_ rfl
    rw [← hmatch]
    exact List.mem_filter.mpr ⟨hrow, hwants⟩

variable (U) in
/-- What is known of the answer of a call in this phase. -/
def Answered (inputs : List (Input ι τ)) (i : Nat) (t : τ) : Phase ρ κ → Prop
  | .locking todo held => (∀ k ∈ todo, ∃ row, U.wants t row = true ∧ U.key row = k) ∧
      (todo = [] → held = [] → U.MatchedNone inputs i t)
  | .written held => held = [] → U.MatchedNone inputs i t
  | .committed held => held = [] ∧ U.MatchedNone inputs i t ∨ U.DidAtOnce inputs i t held
  | _ => True

theorem Answered.more {phase : Phase ρ κ} (h : U.Answered inputs i t phase) (x : Input ι τ) :
    U.Answered (inputs ++ [x]) i t phase := by
  cases phase with
  | begun => trivial
  | locking todo held => exact ⟨h.1, fun htodo hheld => (h.2 htodo hheld).more x⟩
  | written held => exact fun hheld => (h hheld).more x
  | committed held => exact h.imp (fun hnone => ⟨hnone.1, hnone.2.more x⟩) (·.more x)
  | failed => trivial

/-- A row of the only key that the statement matches is not there, or does not match. -/
theorem Inv.none_match (h : Inv U s) (hone : U.SingleRow t) {k : κ}
    (hk : ∃ row, U.wants t row = true ∧ U.key row = k)
    (hgone : s.store.rows.find? (U.hasKey k) = none ∨
      ∃ row, s.store.rows.find? (U.hasKey k) = some row ∧ U.wants t row = false) :
    s.store.rows.filter (U.wants t) = [] := by
  obtain ⟨only, honly⟩ := hone
  obtain ⟨first, hfirst, rfl⟩ := hk
  refine List.filter_eq_nil_iff.mpr fun row hrow hwants => ?_
  have hkey : U.key row = U.key first := (honly row hwants).trans (honly first hfirst).symm
  rcases hgone with hnone | ⟨found, hfound, hunwanted⟩
  · exact List.find?_eq_none.mp hnone row hrow (hasKey_iff.mpr hkey)
  · have hsame : found = row := h.row_inj (List.mem_of_find?_eq_some hfound) hrow
      ((hasKey_iff.mp (List.find?_some hfound)).trans hkey.symm)
    rw [hsame, hwants] at hunwanted
    cases hunwanted

/-- What the next statement of a call leaves known. -/
theorem Answered.move (hinv : Inv U (U.run inputs)) (hone : U.SingleRow t)
    {phase phase' : Phase ρ κ} (h : U.Answered inputs i t phase)
    (hi : (U.run inputs).calls[i]? = some (t, phase)) (hrun : phase.finished = false)
    (hmove : Move U (U.run inputs) t phase phase') : U.Answered inputs i t phase' := by
  have hruns : (U.run inputs).Runs i t := ⟨phase, hi, hrun⟩
  have hnow : (U.run inputs).store.rows.filter (U.wants t) = [] → U.MatchedNone inputs i t :=
    fun hnone => ⟨inputs, List.prefix_rfl, hruns, hnone⟩
  cases hmove with
  | fail => trivial
  | choose =>
    refine ⟨fun k hk => ?_, fun htodo _ => hnow (List.map_eq_nil_iff.mp htodo)⟩
    obtain ⟨row, hrow, rfl⟩ := List.mem_map.mp hk
    exact ⟨row, (List.mem_filter.mp hrow).2, rfl⟩
  | lock =>
    refine ⟨fun k hk => h.1 k (List.mem_of_mem_eraseIdx hk), fun _ hheld => ?_⟩
    exact absurd hheld (List.append_ne_nil_of_right_ne_nil _ (List.cons_ne_nil _ _))
  | skip htodo hgone =>
    refine ⟨fun k hk => h.1 k (List.mem_of_mem_eraseIdx hk), fun _ _ => hnow ?_⟩
    exact hinv.none_match hone (h.1 _ (List.mem_of_getElem? htodo)) hgone
  | write => exact fun hheld => h.2 rfl hheld

end Answers

/-- The answer of a call that has committed is that of one moment while it was running. -/
theorem run_answered (hU : U.Lawful) (inputs : List (Input ι τ)) :
    ∀ (i : Nat) (t : τ) (phase : Phase ρ κ), (U.run inputs).calls[i]? = some (t, phase) →
      U.SingleRow t → U.Answered inputs i t phase := by
  refine Rules.run_induction (R := U.rules) (P := fun inputs s => ∀ (i : Nat) (t : τ)
    (phase : Phase ρ κ), s.calls[i]? = some (t, phase) → U.SingleRow t →
      U.Answered inputs i t phase) ?_ ?_ inputs
  · intro i t phase hi
    cases hi
  · intro inputs x s' ih heffect hrun j u other hj hone
    have hinv := run_inv hU inputs
    cases effect_of heffect with
    | same => exact (ih j u other hj hone).more x
    | insert => exact (ih j u other hj hone).more x
    | start t =>
      rcases start_cases hj with ⟨-, rfl⟩ | hj
      · trivial
      · exact (ih j u other hj hone).more x
    | move hi hunfinished hmove =>
      obtain ⟨rfl, rfl, rfl⟩ | ⟨-, hj⟩ := setPhase_cases hj
      · exact ((ih j u _ hi hone).move hinv hone hi hunfinished hmove).more x
      · exact (ih j u other hj hone).more x
    | @commit i t held phase hi hphase =>
      obtain ⟨rfl, rfl, rfl⟩ | ⟨-, hj⟩ := setPhase_cases hj
      · rcases hphase with rfl | rfl
        · by_cases hheld : held = []
          · have hnone : U.MatchedNone inputs j u := ih j u _ hi hone hheld
            exact Or.inl ⟨hheld, hnone.more x⟩
          · refine Or.inr ⟨inputs, x, List.prefix_rfl, ⟨_, hi, rfl⟩,
              hinv.written_eq hone hi hheld, ?_⟩
            rw [run, hrun]
            exact hinv.commit_rows hone hi hheld
        · trivial
      · exact (ih j u other hj hone).more x

end Updater

end RowLocks
