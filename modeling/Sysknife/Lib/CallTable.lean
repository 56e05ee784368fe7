import Mathlib.Algebra.Ring.Nat
import Mathlib.Data.List.Basic
import Mathlib.Data.List.Induction

/-!
# Calls in transactions of their own

Any number of calls work on one store, each in a transaction of its own. One statement
of one call is tried at a time, in any order. A transaction is aborted, or its connection
is lost, at any moment before the commit; the reply to a commit can be lost too. What a
statement does and what else happens to the store are the rules of a system.
-/

namespace CallTable
variable {δ χ τ φ : Type}

/-- Calls are made with a `τ`. The inputs that only some systems have are of type `χ`. -/
inductive Input (χ τ : Type) where
  | start (t : τ)
  /-- The next statement of a call is tried. -/
  | step (i : Nat)
  /-- A transaction is aborted, or its connection is lost before the commit. -/
  | lose (i : Nat)
  /-- The commit takes effect and the reply to it is lost. -/
  | loseReply (i : Nat)
  | other (x : χ)

/-- Nothing is aborted or lost. -/
def Input.isQuiet : Input χ τ → Bool
  | .start _ | .step _ | .other _ => true
  | .lose _ | .loseReply _ => false

/-- What is committed, and every call with its place in its transaction. -/
structure State (δ τ φ : Type) where
  store : δ
  calls : List (τ × φ)

namespace State

def start (s : State δ τ φ) (t : τ) (phase : φ) : State δ τ φ :=
  { s with calls := s.calls ++ [(t, phase)] }

def setPhase (s : State δ τ φ) (i : Nat) (t : τ) (phase : φ) : State δ τ φ :=
  { s with calls := s.calls.set i (t, phase) }

/-- The commit of a call changes what is committed. -/
def commit (s : State δ τ φ) (i : Nat) (t : τ) (phase : φ) (store : δ) : State δ τ φ :=
  ⟨store, s.calls.set i (t, phase)⟩

/-- The sum of a measure over the calls. -/
def total (f : φ → Nat) (s : State δ τ φ) : Nat := (s.calls.map fun call => f call.2).sum

section
variable {s : State δ τ φ} {i j : Nat} {t u : τ} {phase phase' : φ}

theorem start_cases (h : (s.calls ++ [(t, phase)])[j]? = some (u, phase')) :
    (u = t ∧ phase' = phase) ∨ s.calls[j]? = some (u, phase') := by
  rw [List.getElem?_append] at h
  split_ifs at h
  · exact Or.inr h
  · rw [List.getElem?_singleton] at h
    split_ifs at h
    obtain ⟨rfl, rfl⟩ := Prod.mk.inj (Option.some.inj h)
    exact Or.inl ⟨rfl, rfl⟩

/-- A call after one call has changed its phase. -/
theorem setPhase_cases (h : (s.calls.set i (t, phase))[j]? = some (u, phase')) :
    (j = i ∧ u = t ∧ phase' = phase) ∨ (j ≠ i ∧ s.calls[j]? = some (u, phase')) := by
  rw [List.getElem?_set] at h
  split_ifs at h with hij hlt
  · obtain ⟨rfl, rfl⟩ := Prod.mk.inj (Option.some.inj h)
    exact Or.inl ⟨hij.symm, rfl, rfl⟩
  · exact Or.inr ⟨fun heq => hij heq.symm, h⟩

theorem setPhase_self (hi : s.calls[i]? = some (t, phase)) :
    (s.calls.set i (t, phase'))[i]? = some (t, phase') :=
  List.getElem?_set_self (List.getElem?_eq_some_iff.mp hi).1

theorem start_old (hi : s.calls[i]? = some (t, phase)) :
    (s.calls ++ [(u, phase')])[i]? = some (t, phase) :=
  (List.getElem?_append_left (List.getElem?_eq_some_iff.mp hi).1).trans hi

theorem total_lt {f : φ → Nat} {s' : State δ τ φ} (hi : s.calls[i]? = some (t, phase))
    (hcalls : s'.calls = s.calls.set i (t, phase')) (hlt : f phase' < f phase) :
    s'.total f < s.total f := by
  rw [total, total, hcalls]
  clear hcalls
  generalize s.calls = calls at hi ⊢
  induction calls generalizing i with
  | nil => cases hi
  | cons call rest ih =>
    cases i with
    | zero =>
      cases hi
      simp only [List.set_cons_zero, List.map_cons, List.sum_cons]
      omega
    | succ i =>
      have hrest := ih hi
      simp only [List.set_cons_succ, List.map_cons, List.sum_cons]
      omega

end

end State

/-- How the calls of a system go on. -/
structure Rules (δ χ τ φ : Type) where
  empty : δ
  begun : φ
  failed : φ
  finished : φ → Bool
  /-- The next statement of a call; none when it waits or there is no more. -/
  next : State δ τ φ → Nat → Option (State δ τ φ)
  /-- What is committed after the commit of a call that is about to commit. -/
  commits : δ → Nat → τ → φ → Option δ
  other : State δ τ φ → χ → State δ τ φ

namespace Rules
variable (R : Rules δ χ τ φ)

def input (s : State δ τ φ) : Input χ τ → State δ τ φ
  | .start t => s.start t R.begun
  | .step i => (R.next s i).getD s
  | .lose i =>
    match s.calls[i]? with
    | none => s
    | some (t, phase) => if R.finished phase then s else s.setPhase i t R.failed
  | .loseReply i =>
    match s.calls[i]? with
    | none => s
    | some (t, phase) =>
      match R.commits s.store i t phase with
      | none => s
      | some store => s.commit i t R.failed store
  | .other x => R.other s x

def run (inputs : List (Input χ τ)) : State δ τ φ := inputs.foldl R.input ⟨R.empty, []⟩

theorem run_concat (inputs : List (Input χ τ)) (x : Input χ τ) :
    R.run (inputs ++ [x]) = R.input (R.run inputs) x := List.foldl_concat ..

/-- What an input does. -/
inductive Effect (s : State δ τ φ) : Input χ τ → State δ τ φ → Prop
  | same {x : Input χ τ} : Effect s x s
  | start (t : τ) : Effect s (.start t) (s.start t R.begun)
  | step {i : Nat} {s' : State δ τ φ} (h : R.next s i = some s') : Effect s (.step i) s'
  | lose {i : Nat} {t : τ} {phase : φ} (hi : s.calls[i]? = some (t, phase))
      (hrun : R.finished phase = false) : Effect s (.lose i) (s.setPhase i t R.failed)
  | loseReply {i : Nat} {t : τ} {phase : φ} {store : δ} (hi : s.calls[i]? = some (t, phase))
      (h : R.commits s.store i t phase = some store) :
      Effect s (.loseReply i) (s.commit i t R.failed store)
  | other (x : χ) : Effect s (.other x) (R.other s x)

variable {R}

theorem input_effect (s : State δ τ φ) (x : Input χ τ) : R.Effect s x (R.input s x) := by
  cases x with
  | start t => exact .start t
  | step i =>
    rw [input]
    cases h : R.next s i with
    | none => exact .same
    | some s' => exact .step h
  | lose i =>
    rw [input]
    split
    · exact .same
    next t phase hi =>
      split_ifs with hfinished
      · exact .same
      · exact .lose hi (Bool.eq_false_iff.mpr hfinished)
  | loseReply i =>
    rw [input]
    split
    · exact .same
    next t phase hi =>
      split
      · exact .same
      next store h => exact .loseReply hi h
  | other x => exact .other x

/-- What every run holds with the inputs that it has come from. -/
theorem run_induction {P : List (Input χ τ) → State δ τ φ → Prop}
    (empty : P [] ⟨R.empty, []⟩)
    (input : ∀ inputs x s', P inputs (R.run inputs) → R.Effect (R.run inputs) x s' →
      R.run (inputs ++ [x]) = s' → P (inputs ++ [x]) s') (inputs : List (Input χ τ)) :
    P inputs (R.run inputs) := by
  induction inputs using List.reverseRecOn with
  | nil => exact empty
  | append_singleton inputs x ih =>
    have heffect := input_effect (R := R) (R.run inputs) x
    rw [← run_concat] at heffect
    exact input inputs x _ ih heffect rfl

/-- What holds at the beginning and is kept by every input holds after every run. -/
theorem run_invariant {P : State δ τ φ → Prop} (empty : P ⟨R.empty, []⟩)
    (input : ∀ s x s', P s → R.Effect s x s' → P s') (inputs : List (Input χ τ)) :
    P (R.run inputs) :=
  run_induction (P := fun _ s => P s) empty
    (fun _ x s' hbefore heffect _ => input _ x s' hbefore heffect) inputs

/-- Where some call can go on as long as one is open, and each statement brings its call
closer to the end, the calls come to their end. -/
theorem run_finishes (f : φ → Nat)
    (hstep : ∀ s s' i, R.next s i = some s' → s'.total f < s.total f)
    (hprogress : ∀ inputs, (∃ call ∈ (R.run inputs).calls, R.finished call.2 = false) →
      ∃ i, (R.next (R.run inputs) i).isSome = true) (inputs : List (Input χ τ)) :
    ∃ more : List Nat, ∀ call ∈ (R.run (inputs ++ more.map .step)).calls,
      R.finished call.2 = true := by
  generalize htotal : (R.run inputs).total f = n
  induction n using Nat.strongRecOn generalizing inputs with
  | _ n ih =>
    by_cases hopen : ∃ call ∈ (R.run inputs).calls, R.finished call.2 = false
    · obtain ⟨i, hi⟩ := hprogress inputs hopen
      obtain ⟨s', hnext⟩ := Option.isSome_iff_exists.mp hi
      have hrun : R.run (inputs ++ [.step i]) = s' := by
        rw [run_concat, input, hnext, Option.getD_some]
      have hlt := hstep _ _ i hnext
      obtain ⟨more, hmore⟩ := ih (s'.total f) (by omega) (inputs ++ [.step i]) (by rw [hrun])
      refine ⟨i :: more, ?_⟩
      rw [List.map_cons, ← List.singleton_append, ← List.append_assoc]
      exact hmore
    · refine ⟨[], fun call hcall => ?_⟩
      rw [List.map_nil, List.append_nil] at hcall
      by_contra hnot
      exact hopen ⟨call, hcall, Bool.eq_false_iff.mpr hnot⟩

end Rules

end CallTable
