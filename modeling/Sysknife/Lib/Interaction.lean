import Mathlib.Data.List.Basic
import Mathlib.Data.List.Induction

/-!
# Programs that interact with a shared state

`Prog` is a sequential program over operations whose answers come from outside.
A `System` runs any number of them over one shared state, one operation at a
time in any order. What one program can do is read off its own events
(`Monitor`); what the shared state can be is an induction over the log of all
events (`log_induction`); `log_split` puts the two together.
-/

namespace Interaction

variable {Op : Type} {Resp : Op → Type} {α β γ : Type}

inductive Prog (Op : Type) (Resp : Op → Type) (α : Type) where
  | ret (a : α)
  | op (o : Op) (k : Resp o → Prog Op Resp α)

namespace Prog

def bind : Prog Op Resp α → (α → Prog Op Resp β) → Prog Op Resp β
  | .ret a, f => f a
  | .op o k, f => .op o fun r => (k r).bind f

instance : Monad (Prog Op Resp) where
  pure := .ret
  bind := bind

/-- One operation. -/
def perform (o : Op) : Prog Op Resp (Resp o) := .op o .ret

@[simp] theorem pure_eq (a : α) : (pure a : Prog Op Resp α) = .ret a := rfl

@[simp] theorem ret_bind (a : α) (f : α → Prog Op Resp β) : (Prog.ret a >>= f) = f a := rfl

@[simp] theorem op_bind (o : Op) (k : Resp o → Prog Op Resp α) (f : α → Prog Op Resp β) :
    (Prog.op o k >>= f) = .op o fun r => k r >>= f := rfl

@[simp] theorem perform_bind (o : Op) (f : Resp o → Prog Op Resp β) :
    @Bind.bind (Prog Op Resp) _ (no_index (Resp o)) β (perform o) f = .op o f := rfl

/-- Run a program to its end on its own; `env n` is the outside world at its
`n`-th operation. -/
def runAlone {σ ε : Type} (exec : ε → σ → (o : Op) → Resp o × σ) (env : Nat → ε) :
    Nat → σ → Prog Op Resp α → α × σ
  | _, s, .ret a => (a, s)
  | n, s, .op o k =>
      let out := exec (env n) s o
      runAlone exec env (n + 1) out.2 (k out.1)

end Prog

/-! ## Events of one program -/

/-- Where an element of a concatenation stands. -/
theorem split_append {ι : Type} {xs ys pre post : List ι} {e : ι}
    (h : xs ++ ys = pre ++ e :: post) :
    (∃ mid, xs = pre ++ e :: mid ∧ post = mid ++ ys) ∨
      ∃ mid, pre = xs ++ mid ∧ ys = mid ++ e :: post := by
  rcases List.append_eq_append_iff.mp h with ⟨mid, hpre, hys⟩ | ⟨mid, hxs, hrest⟩
  · exact Or.inr ⟨mid, hpre, hys⟩
  · cases mid with
    | nil =>
      rw [List.append_nil] at hxs
      exact Or.inr ⟨[], by rw [hxs, List.append_nil], hrest.symm⟩
    | cons d mid =>
      rw [List.cons_append, List.cons.injEq] at hrest
      obtain ⟨rfl, hpost⟩ := hrest
      exact Or.inl ⟨mid, hxs, hpost⟩

/-- An operation and its answer. -/
structure Event (Op : Type) (Resp : Op → Type) where
  op : Op
  resp : Resp op

/-- The program `p` has turned into `q` over some events. -/
inductive Trace : Prog Op Resp α → List (Event Op Resp) → Prog Op Resp α → Prop where
  | done (p : Prog Op Resp α) : Trace p [] p
  | step {p : Prog Op Resp α} {evs : List (Event Op Resp)} {o : Op}
      {k : Resp o → Prog Op Resp α} (r : Resp o) (h : Trace p evs (.op o k)) :
      Trace p (evs ++ [⟨o, r⟩]) (k r)

theorem Trace.trans {p q r : Prog Op Resp α} {evs evs' : List (Event Op Resp)}
    (h : Trace p evs q) (h' : Trace q evs' r) : Trace p (evs ++ evs') r := by
  induction h' with
  | done =>
    rw [List.append_nil]
    exact h
  | step answer _ ih =>
    rw [← List.append_assoc]
    exact .step answer ih

theorem trace_ret {a : α} {evs : List (Event Op Resp)} {q : Prog Op Resp α}
    (h : Trace (.ret a) evs q) : evs = [] ∧ q = .ret a := by
  induction h with
  | done => exact ⟨rfl, rfl⟩
  | step answer _ ih => cases ih.2

/-- A program that starts with an operation waits for it or goes on with its
answer. -/
theorem trace_op {o : Op} {k : Resp o → Prog Op Resp α} {evs : List (Event Op Resp)}
    {q : Prog Op Resp α} (h : Trace (.op o k) evs q) :
    (evs = [] ∧ q = .op o k) ∨
      ∃ answer rest, evs = ⟨o, answer⟩ :: rest ∧ Trace (k answer) rest q := by
  induction h with
  | done => exact Or.inl ⟨rfl, rfl⟩
  | step answer _ ih =>
    rcases ih with ⟨rfl, hq⟩ | ⟨first, rest, rfl, hrest⟩
    · cases hq
      exact Or.inr ⟨answer, [], rfl, .done _⟩
    · exact Or.inr ⟨first, rest ++ [⟨_, answer⟩], rfl, .step answer hrest⟩

/-- A sequence is still in its first program, or that one has returned. -/
theorem trace_bind {p : Prog Op Resp α} {f : α → Prog Op Resp β}
    {evs : List (Event Op Resp)} {q : Prog Op Resp β} (h : Trace (p >>= f) evs q) :
    (∃ p', Trace p evs p' ∧ q = p' >>= f) ∨
      ∃ a pre post, evs = pre ++ post ∧ Trace p pre (.ret a) ∧ Trace (f a) post q := by
  induction p generalizing evs with
  | ret a => exact Or.inr ⟨a, [], evs, rfl, .done _, h⟩
  | op o k ih =>
    rcases trace_op h with ⟨rfl, rfl⟩ | ⟨answer, rest, rfl, hrest⟩
    · exact Or.inl ⟨.op o k, .done _, rfl⟩
    · have hfirst : Trace (Prog.op o k) [⟨o, answer⟩] (k answer) := .step answer (.done _)
      rcases ih answer hrest with ⟨p', hp', rfl⟩ | ⟨a, pre, post, rfl, hpre, hpost⟩
      · exact Or.inl ⟨p', hfirst.trans hp', rfl⟩
      · exact Or.inr ⟨a, ⟨o, answer⟩ :: pre, post, rfl, hfirst.trans hpre, hpost⟩

/-- A program that has returned after an operation had an answer to it. -/
theorem trace_op_ret {o : Op} {k : Resp o → Prog Op Resp α} {evs : List (Event Op Resp)} {a : α}
    (h : Trace (.op o k) evs (.ret a)) :
    ∃ answer rest, evs = ⟨o, answer⟩ :: rest ∧ Trace (k answer) rest (.ret a) := by
  rcases trace_op h with ⟨-, hq⟩ | hrest
  · cases hq
  · exact hrest

/-- A sequence that has returned has returned from both its programs. -/
theorem trace_bind_ret {p : Prog Op Resp α} {f : α → Prog Op Resp β}
    {evs : List (Event Op Resp)} {b : β} (h : Trace (p >>= f) evs (.ret b)) :
    ∃ a pre post, evs = pre ++ post ∧ Trace p pre (.ret a) ∧ Trace (f a) post (.ret b) := by
  rcases trace_bind h with ⟨p', hp, hq⟩ | hboth
  · cases p' with
    | ret a =>
      refine ⟨a, evs, [], (List.append_nil _).symm, hp, ?_⟩
      rw [hq]
      exact .done _
    | op o k => cases hq
  · exact hboth

/-- A sequence that waits for an operation waits for it in one of its programs. -/
theorem trace_bind_op {p : Prog Op Resp α} {f : α → Prog Op Resp β}
    {evs : List (Event Op Resp)} {o : Op} {k : Resp o → Prog Op Resp β}
    (h : Trace (p >>= f) evs (.op o k)) :
    (∃ k', Trace p evs (.op o k')) ∨
      ∃ a pre post, evs = pre ++ post ∧ Trace p pre (.ret a) ∧ Trace (f a) post (.op o k) := by
  rcases trace_bind h with ⟨p', hp, hq⟩ | hboth
  · cases p' with
    | ret a =>
      refine Or.inr ⟨a, evs, [], (List.append_nil _).symm, hp, ?_⟩
      rw [hq]
      exact .done _
    | op o' k' =>
      cases hq
      exact Or.inl ⟨k', hp⟩
  · exact Or.inr hboth

theorem Trace.cons {o : Op} {k : Resp o → Prog Op Resp α} {evs : List (Event Op Resp)}
    {q : Prog Op Resp α} (answer : Resp o) (h : Trace (k answer) evs q) :
    Trace (.op o k) (⟨o, answer⟩ :: evs) q :=
  (Trace.step answer (.done (.op o k))).trans h

/-- A program that has returned, then the one that follows. -/
theorem Trace.bind {p : Prog Op Resp α} {f : α → Prog Op Resp β} {a : α}
    {evs evs' : List (Event Op Resp)} {q : Prog Op Resp β} (h : Trace p evs (.ret a))
    (h' : Trace (f a) evs' q) : Trace (p >>= f) (evs ++ evs') q := by
  induction p generalizing evs with
  | ret b =>
    obtain ⟨rfl, hq⟩ := trace_ret h
    cases hq
    exact h'
  | op o k ih =>
    rcases trace_op h with ⟨-, hq⟩ | ⟨answer, rest, rfl, hrest⟩
    · cases hq
    · exact .cons answer (ih answer hrest)

/-! ## One program in one world -/

/-- What answers a program, from all that has happened; `none` is an operation
that never ends. -/
abbrev World (Op : Type) (Resp : Op → Type) :=
  List (Event Op Resp) → (o : Op) → Option (Resp o)

/-- Run a program in a world until it returns or waits for ever. -/
def Prog.runIn (world : World Op Resp) :
    List (Event Op Resp) → Prog Op Resp α → Option α × List (Event Op Resp)
  | log, .ret a => (some a, log)
  | log, .op o k =>
    match world log o with
    | none => (none, log)
    | some answer => runIn world (log ++ [⟨o, answer⟩]) (k answer)

section RunIn
variable {world : World Op Resp}

@[simp] theorem runIn_ret (log : List (Event Op Resp)) (a : α) :
    (Prog.ret a).runIn world log = (some a, log) := rfl

theorem runIn_op_none {log : List (Event Op Resp)} {o : Op} {k : Resp o → Prog Op Resp α}
    (h : world log o = none) : (Prog.op o k).runIn world log = (none, log) := by
  simp [Prog.runIn, h]

theorem runIn_op_some {log : List (Event Op Resp)} {o : Op} {k : Resp o → Prog Op Resp α}
    {answer : Resp o} (h : world log o = some answer) :
    (Prog.op o k).runIn world log = (k answer).runIn world (log ++ [⟨o, answer⟩]) := by
  simp [Prog.runIn, h]

theorem runIn_bind_some {log log' : List (Event Op Resp)} {p : Prog Op Resp α}
    {f : α → Prog Op Resp β} {a : α} (h : p.runIn world log = (some a, log')) :
    (p >>= f).runIn world log = (f a).runIn world log' := by
  induction p generalizing log with
  | ret b =>
    cases h
    rfl
  | op o k ih =>
    cases hw : world log o with
    | none =>
      rw [runIn_op_none hw] at h
      cases h
    | some answer =>
      rw [runIn_op_some hw] at h
      rw [Prog.op_bind, runIn_op_some hw]
      exact ih answer h

theorem runIn_bind_none {log log' : List (Event Op Resp)} {p : Prog Op Resp α}
    {f : α → Prog Op Resp β} (h : p.runIn world log = (none, log')) :
    (p >>= f).runIn world log = (none, log') := by
  induction p generalizing log with
  | ret b => cases h
  | op o k ih =>
    rw [Prog.op_bind]
    cases hw : world log o with
    | none =>
      rw [runIn_op_none hw] at h ⊢
      cases h
      rfl
    | some answer =>
      rw [runIn_op_some hw] at h ⊢
      exact ih answer h

/-- What has happened stays in the log. -/
theorem log_grows {p : Prog Op Resp α} {log log' : List (Event Op Resp)} {r : Option α}
    (h : p.runIn world log = (r, log')) : log <+: log' := by
  induction p generalizing log with
  | ret a =>
    cases h
    exact List.prefix_rfl
  | op o k ih =>
    cases hw : world log o with
    | none =>
      rw [runIn_op_none hw] at h
      cases h
      exact List.prefix_rfl
    | some answer =>
      rw [runIn_op_some hw] at h
      exact (List.prefix_append log _).trans (ih answer h)

/-- What a program does in a world is one of its traces. -/
theorem trace_of_runIn {p : Prog Op Resp α} {log log' : List (Event Op Resp)} {a : α}
    (h : p.runIn world log = (some a, log')) :
    ∃ evs, log' = log ++ evs ∧ Trace p evs (.ret a) := by
  induction p generalizing log with
  | ret b =>
    cases h
    exact ⟨[], (List.append_nil _).symm, .done _⟩
  | op o k ih =>
    cases hw : world log o with
    | none =>
      rw [runIn_op_none hw] at h
      cases h
    | some answer =>
      rw [runIn_op_some hw] at h
      obtain ⟨evs, rfl, hevs⟩ := ih answer h
      exact ⟨⟨o, answer⟩ :: evs, by simp, .cons answer hevs⟩

/-- In a world that answers every operation a program returns. -/
theorem runIn_returns (answers : List (Event Op Resp) → (o : Op) → Resp o) (p : Prog Op Resp α)
    (log : List (Event Op Resp)) :
    ∃ a log', p.runIn (fun log o => some (answers log o)) log = (some a, log') := by
  induction p generalizing log with
  | ret a => exact ⟨a, log, rfl⟩
  | op o k ih =>
    obtain ⟨a, log', h⟩ := ih (answers log o) (log ++ [⟨o, answers log o⟩])
    exact ⟨a, log', h⟩

end RunIn

/-- A program of one operation waits for it or has its answer. -/
theorem trace_perform {o : Op} {evs : List (Event Op Resp)} {q : Prog Op Resp (Resp o)}
    (h : Trace (Prog.perform o) evs q) :
    (evs = [] ∧ q = Prog.perform o) ∨ ∃ r, evs = [⟨o, r⟩] ∧ q = .ret r := by
  induction h with
  | done => exact Or.inl ⟨rfl, rfl⟩
  | step r _ ih =>
    rcases ih with ⟨rfl, hq⟩ | ⟨r', -, hq⟩
    · cases hq
      exact Or.inr ⟨r, rfl, rfl⟩
    · cases hq

/-- Bookkeeping over the events of one program, with a condition on every
operation. -/
structure Monitor (γ Op : Type) (Resp : Op → Type) where
  guard : γ → Op → Prop
  next : γ → (o : Op) → Resp o → γ

namespace Monitor
variable (m : Monitor γ Op Resp)

/-- Every operation of the program meets its condition, and the result meets
`post`, whatever the answers are. -/
def Safe (post : γ → α → Prop) : γ → Prog Op Resp α → Prop
  | g, .ret a => post g a
  | g, .op o k => m.guard g o ∧ ∀ r, Safe post (m.next g o r) (k r)

def after : γ → List (Event Op Resp) → γ := List.foldl fun g e => m.next g e.op e.resp

variable {m}

theorem Safe.bind {post : γ → β → Prop} {mid : γ → α → Prop} {f : α → Prog Op Resp β}
    {p : Prog Op Resp α} {g : γ} (hp : m.Safe mid g p)
    (hf : ∀ g a, mid g a → m.Safe post g (f a)) : m.Safe post g (p >>= f) := by
  induction p generalizing g with
  | ret a => exact hf g a hp
  | op o k ih => exact ⟨hp.1, fun r => ih r (hp.2 r)⟩

theorem Safe.mono {post post' : γ → α → Prop} {p : Prog Op Resp α} {g : γ}
    (hp : m.Safe post g p) (h : ∀ g a, post g a → post' g a) : m.Safe post' g p := by
  induction p generalizing g with
  | ret a => exact h g a hp
  | op o k ih => exact ⟨hp.1, fun r => ih r (hp.2 r)⟩

@[simp] theorem safe_ret {post : γ → α → Prop} {g : γ} {a : α} :
    m.Safe post g (.ret a) ↔ post g a := Iff.rfl

@[simp] theorem safe_op {post : γ → α → Prop} {g : γ} {o : Op}
    {k : Resp o → Prog Op Resp α} :
    m.Safe post g (.op o k) ↔ m.guard g o ∧ ∀ r, m.Safe post (m.next g o r) (k r) := Iff.rfl

theorem after_concat (g : γ) (evs : List (Event Op Resp)) (e : Event Op Resp) :
    m.after g (evs ++ [e]) = m.next (m.after g evs) e.op e.resp := by
  simp [after]

/-- What is left of a safe program is safe. -/
theorem Safe.of_trace {post : γ → α → Prop} {p q : Prog Op Resp α} {g : γ}
    {evs : List (Event Op Resp)} (hp : m.Safe post g p) (ht : Trace p evs q) :
    m.Safe post (m.after g evs) q := by
  induction ht with
  | done => exact hp
  | step r _ ih =>
    rw [after_concat]
    exact (ih.2 r)

/-- An invariant of a safe program between its bookkeeping and its events. -/
theorem Safe.trace_induction {post : γ → α → Prop} {p q : Prog Op Resp α} {g : γ}
    {evs : List (Event Op Resp)} {I : γ → List (Event Op Resp) → Prop} (hp : m.Safe post g p)
    (h0 : I g [])
    (hstep : ∀ g evs o r, I g evs → m.guard g o → I (m.next g o r) (evs ++ [⟨o, r⟩]))
    (ht : Trace p evs q) : I (m.after g evs) evs := by
  induction ht with
  | done => exact h0
  | step r h ih =>
    rw [after_concat]
    exact hstep _ _ _ r ih (hp.of_trace h).1

/-- The bookkeeping that keeps everything, with a condition on each operation and
what went before it. -/
def history (guard : List (Event Op Resp) → Op → Prop) :
    Monitor (List (Event Op Resp)) Op Resp where
  guard := guard
  next events o r := events ++ [⟨o, r⟩]

theorem history_after {guard : List (Event Op Resp) → Op → Prop}
    (events evs : List (Event Op Resp)) : (history guard).after events evs = events ++ evs := by
  induction evs using List.reverseRecOn with
  | nil => exact (List.append_nil _).symm
  | append_singleton evs e ih =>
    rw [after_concat, ih, ← List.append_assoc]
    rfl

/-! In one world, what a program comes to is known with what its events leave behind. -/

/-- The program returns in this world, with a result and a bookkeeping that meet `post`. -/
def Ends (m : Monitor γ Op Resp) (world : World Op Resp) (post : γ → α → Prop) (g : γ)
    (log : List (Event Op Resp)) (p : Prog Op Resp α) : Prop :=
  ∃ a evs, p.runIn world log = (some a, log ++ evs) ∧ post (m.after g evs) a

section Ends
variable {world : World Op Resp} {g : γ} {log : List (Event Op Resp)}

theorem Ends.ret {post : γ → α → Prop} {a : α} (h : post g a) : m.Ends world post g log (.ret a) :=
  ⟨a, [], by rw [List.append_nil, runIn_ret], h⟩

theorem Ends.op {post : γ → α → Prop} {o : Op} {k : Resp o → Prog Op Resp α} {answer : Resp o}
    (hanswer : world log o = some answer)
    (hk : m.Ends world post (m.next g o answer) (log ++ [⟨o, answer⟩]) (k answer)) :
    m.Ends world post g log (.op o k) := by
  obtain ⟨a, evs, hrun, hpost⟩ := hk
  refine ⟨a, ⟨o, answer⟩ :: evs, ?_, hpost⟩
  rw [runIn_op_some hanswer, hrun, List.append_assoc, List.singleton_append]

theorem Ends.bind {post : γ → β → Prop} {mid : γ → α → Prop} {f : α → Prog Op Resp β}
    {p : Prog Op Resp α} (hp : m.Ends world mid g log p)
    (hf : ∀ g log a, mid g a → m.Ends world post g log (f a)) :
    m.Ends world post g log (p >>= f) := by
  obtain ⟨a, evs, hrun, hmid⟩ := hp
  obtain ⟨b, evs', hrun', hpost⟩ := hf _ (log ++ evs) a hmid
  refine ⟨b, evs ++ evs', ?_, ?_⟩
  · rw [runIn_bind_some hrun, hrun', List.append_assoc]
  · rw [after, List.foldl_append]
    exact hpost

end Ends

end Monitor

/-! ## Many programs over one state -/

variable {σ ε τ : Type} {Out : τ → Type}

structure Thread (τ Op : Type) (Resp : Op → Type) (Out : τ → Type) where
  tag : τ
  prog : Prog Op Resp (Out tag)

/-- An event with the thread it belongs to and the outside world it met. -/
structure Entry (ε Op : Type) (Resp : Op → Type) where
  thread : Nat
  env : ε
  op : Op
  resp : Resp op

structure Pool (σ ε τ Op : Type) (Resp : Op → Type) (Out : τ → Type) where
  shared : σ
  threads : List (Thread τ Op Resp Out)
  log : List (Entry ε Op Resp)

inductive Input (ε τ : Type) where
  | start (t : τ)
  | act (thread : Nat) (env : ε)

structure System (σ ε τ Op : Type) (Resp : Op → Type) (Out : τ → Type) where
  init : σ
  exec : ε → σ → (o : Op) → Resp o × σ
  body : (t : τ) → Prog Op Resp (Out t)
  mayStart : List (Thread τ Op Resp Out) → τ → Bool

def Entry.event (e : Entry ε Op Resp) : Event Op Resp := ⟨e.op, e.resp⟩

/-- The events of one thread. -/
def eventsOf (i : Nat) (log : List (Entry ε Op Resp)) : List (Event Op Resp) :=
  (log.filter fun e => e.thread == i).map Entry.event

theorem mem_eventsOf {i : Nat} {log : List (Entry ε Op Resp)} {ev : Event Op Resp} :
    ev ∈ eventsOf i log ↔ ∃ e ∈ log, e.thread = i ∧ e.event = ev := by
  simp [eventsOf, and_assoc]

theorem eventsOf_concat_self (log : List (Entry ε Op Resp)) (e : Entry ε Op Resp) :
    eventsOf e.thread (log ++ [e]) = eventsOf e.thread log ++ [e.event] := by
  simp [eventsOf]

theorem eventsOf_concat_other {i : Nat} (log : List (Entry ε Op Resp)) {e : Entry ε Op Resp}
    (h : e.thread ≠ i) : eventsOf i (log ++ [e]) = eventsOf i log := by
  simp [eventsOf, h]

namespace System
variable (S : System σ ε τ Op Resp Out)

def initial : Pool σ ε τ Op Resp Out := ⟨S.init, [], []⟩

/-- A new thread at the end of the list. -/
def afterStart (P : Pool σ ε τ Op Resp Out) (t : τ) : Pool σ ε τ Op Resp Out :=
  { P with threads := P.threads ++ [⟨t, S.body t⟩] }

/-- Thread `i`, waiting for `o`, got its answer. -/
def afterAct (P : Pool σ ε τ Op Resp Out) (i : Nat) (env : ε) (t : τ) (o : Op)
    (k : Resp o → Prog Op Resp (Out t)) : Pool σ ε τ Op Resp Out :=
  let out := S.exec env P.shared o
  { shared := out.2
    threads := P.threads.set i ⟨t, k out.1⟩
    log := P.log ++ [⟨i, env, o, out.1⟩] }

def step (P : Pool σ ε τ Op Resp Out) : Input ε τ → Pool σ ε τ Op Resp Out
  | .start t => if S.mayStart P.threads t then S.afterStart P t else P
  | .act i env =>
    match P.threads[i]? with
    | some ⟨t, .op o k⟩ => S.afterAct P i env t o k
    | _ => P

theorem step_start {P : Pool σ ε τ Op Resp Out} {t : τ} (h : S.mayStart P.threads t = true) :
    S.step P (.start t) = S.afterStart P t := if_pos h

theorem step_act {P : Pool σ ε τ Op Resp Out} {i : Nat} {t : τ} {o : Op}
    {k : Resp o → Prog Op Resp (Out t)} (h : P.threads[i]? = some ⟨t, .op o k⟩) (env : ε) :
    S.step P (.act i env) = S.afterAct P i env t o k := by
  simp only [step, h]

def run (inputs : List (Input ε τ)) : Pool σ ε τ Op Resp Out := inputs.foldl S.step S.initial

@[simp] theorem run_nil : S.run [] = S.initial := rfl

theorem run_concat (inputs : List (Input ε τ)) (x : Input ε τ) :
    S.run (inputs ++ [x]) = S.step (S.run inputs) x := by
  simp [run]

/-- What a step can do. -/
theorem step_cases (P : Pool σ ε τ Op Resp Out) (x : Input ε τ) :
    S.step P x = P ∨
    (∃ t, x = .start t ∧ S.mayStart P.threads t = true ∧ S.step P x = S.afterStart P t) ∨
    ∃ i env t o k, x = .act i env ∧ P.threads[i]? = some ⟨t, .op o k⟩ ∧
      S.step P x = S.afterAct P i env t o k := by
  cases x with
  | start t =>
    by_cases h : S.mayStart P.threads t = true
    · exact Or.inr (Or.inl ⟨t, rfl, h, by simp [step, h]⟩)
    · exact Or.inl (by simp [step, h])
  | act i env =>
    cases hi : P.threads[i]? with
    | none => exact Or.inl (by simp [step, hi])
    | some th =>
      obtain ⟨t, p⟩ := th
      cases p with
      | ret a => exact Or.inl (by simp [step, hi])
      | op o k => exact Or.inr (Or.inr ⟨i, env, t, o, k, rfl, hi, by simp [step, hi]⟩)

variable {S}

/-- An invariant of every run. -/
theorem run_induction {I : Pool σ ε τ Op Resp Out → Prop} (h0 : I S.initial)
    (hstart : ∀ P t, I P → S.mayStart P.threads t = true → I (S.afterStart P t))
    (hact : ∀ P i env t o k, I P → P.threads[i]? = some ⟨t, .op o k⟩ →
      I (S.afterAct P i env t o k)) (inputs : List (Input ε τ)) : I (S.run inputs) := by
  induction inputs using List.reverseRecOn with
  | nil => exact h0
  | append_singleton xs x ih =>
    rw [run_concat]
    rcases S.step_cases (S.run xs) x with he | ⟨t, -, hm, he⟩ | ⟨i, env, t, o, k, -, hi, he⟩
    · rw [he]
      exact ih
    · rw [he]
      exact hstart _ t ih hm
    · rw [he]
      exact hact _ i env t o k ih hi

/-- An invariant between the log and the shared state needs no look at the
programs. -/
theorem log_induction {I : List (Entry ε Op Resp) → σ → Prop} (h0 : I [] S.init)
    (hstep : ∀ log s i env o, I log s →
      I (log ++ [⟨i, env, o, (S.exec env s o).1⟩]) (S.exec env s o).2)
    (inputs : List (Input ε τ)) : I (S.run inputs).log (S.run inputs).shared :=
  run_induction (I := fun P => I P.log P.shared) h0 (fun _ _ h _ => h)
    (fun P i env _ o _ h _ => hstep P.log P.shared i env o h) inputs

theorem log_thread_lt (inputs : List (Input ε τ)) :
    ∀ e ∈ (S.run inputs).log, e.thread < (S.run inputs).threads.length := by
  refine run_induction (I := fun P => ∀ e ∈ P.log, e.thread < P.threads.length) ?_ ?_ ?_ inputs
  · intro e he
    cases he
  · intro P t h _ e he
    have hlt := h e he
    simp only [afterStart, List.length_append, List.length_singleton]
    omega
  · intro P i env t o k h hi e he
    simp only [afterAct, List.length_set]
    rcases List.mem_append.mp he with he | he
    · exact h e he
    · obtain rfl := List.mem_singleton.mp he
      exact (List.getElem?_eq_some_iff.mp hi).1

/-- Every thread is its program run over its own events. -/
theorem thread_trace (inputs : List (Input ε τ)) :
    ∀ i t p, (S.run inputs).threads[i]? = some ⟨t, p⟩ →
      Trace (S.body t) (eventsOf i (S.run inputs).log) p := by
  induction inputs using List.reverseRecOn with
  | nil =>
    intro i t p hi
    simp [initial] at hi
  | append_singleton xs x ih =>
    intro j u q hj
    rw [run_concat] at hj ⊢
    rcases S.step_cases (S.run xs) x with he | ⟨t, -, -, he⟩ | ⟨i, env, t, o, k, -, hi, he⟩
    · rw [he] at hj ⊢
      exact ih j u q hj
    · rw [he] at hj ⊢
      simp only [afterStart] at hj ⊢
      rcases Nat.lt_or_ge j (S.run xs).threads.length with hlt | hge
      · rw [List.getElem?_append_left hlt] at hj
        exact ih j u q hj
      · -- a new thread has no events yet
        have hnone : eventsOf j (S.run xs).log = [] := by
          simp only [eventsOf, List.map_eq_nil_iff, List.filter_eq_nil_iff, beq_iff_eq]
          intro e hmem hje
          have hlt := log_thread_lt xs e hmem
          omega
        rw [List.getElem?_append_right hge] at hj
        obtain ⟨hzero, hth⟩ := List.getElem?_eq_some_iff.mp hj
        have hj0 : j - (S.run xs).threads.length = 0 := by
          simp only [List.length_singleton] at hzero
          omega
        simp only [hj0, List.getElem_cons_zero, Thread.mk.injEq] at hth
        obtain ⟨rfl, hq⟩ := hth
        rw [hnone, ← eq_of_heq hq]
        exact Trace.done _
    · rw [he] at hj ⊢
      simp only [afterAct] at hj ⊢
      by_cases hij : i = j
      · subst hij
        have hlt := (List.getElem?_eq_some_iff.mp hi).1
        simp only [List.getElem?_set_self hlt, Option.some.injEq, Thread.mk.injEq] at hj
        obtain ⟨rfl, hq⟩ := hj
        rw [← eq_of_heq hq]
        have htail := Trace.step (S.exec env (S.run xs).shared o).1 (ih i t _ hi)
        have hev := eventsOf_concat_self (S.run xs).log
          ⟨i, env, o, (S.exec env (S.run xs).shared o).1⟩
        simp only at hev
        rw [hev]
        exact htail
      · rw [List.getElem?_set_ne hij] at hj
        have hev := eventsOf_concat_other (i := j) (S.run xs).log
          (e := ⟨i, env, o, (S.exec env (S.run xs).shared o).1⟩) hij
        rw [hev]
        exact ih j u q hj

/-- The run before a logged event: the thread was waiting for that operation,
and the answer is what the shared state gave at that moment. -/
theorem log_split (inputs : List (Input ε τ)) {pre suf : List (Entry ε Op Resp)}
    {e : Entry ε Op Resp} (h : (S.run inputs).log = pre ++ e :: suf) :
    ∃ before t k, before <+: inputs ∧ (S.run before).log = pre ∧
      (S.run before).threads[e.thread]? = some ⟨t, .op e.op k⟩ ∧
      e.resp = (S.exec e.env (S.run before).shared e.op).1 := by
  induction inputs using List.reverseRecOn generalizing suf with
  | nil => simp [initial] at h
  | append_singleton xs x ih =>
    rw [run_concat] at h
    have hold : ∀ suf, (S.run xs).log = pre ++ e :: suf →
        ∃ before t k, before <+: xs ++ [x] ∧ (S.run before).log = pre ∧
          (S.run before).threads[e.thread]? = some ⟨t, .op e.op k⟩ ∧
          e.resp = (S.exec e.env (S.run before).shared e.op).1 := by
      intro suf hl
      obtain ⟨before, t, k, hb, hrest⟩ := ih hl
      exact ⟨before, t, k, hb.trans (List.prefix_append _ _), hrest⟩
    rcases S.step_cases (S.run xs) x with he | ⟨t, -, -, he⟩ | ⟨i, env, t, o, k, -, hi, he⟩
    · rw [he] at h
      exact hold suf h
    · rw [he] at h
      exact hold suf h
    · rw [he] at h
      simp only [afterAct] at h
      rcases List.eq_nil_or_concat suf with rfl | ⟨suf', last, rfl⟩
      · have hlen := List.append_inj' h rfl
        obtain ⟨rfl, hlast⟩ := hlen
        obtain rfl := List.singleton_inj.mp hlast
        exact ⟨xs, t, k, List.prefix_append _ _, rfl, hi, rfl⟩
      · rw [List.concat_eq_append, ← List.cons_append, ← List.append_assoc] at h
        exact hold suf' (List.append_inj' h rfl).1

/-- Threads keep their tag. -/
theorem thread_tag_of_prefix {before inputs : List (Input ε τ)} (hp : before <+: inputs)
    {i : Nat} {th : Thread τ Op Resp Out} (h : (S.run before).threads[i]? = some th) :
    ∃ p, (S.run inputs).threads[i]? = some ⟨th.tag, p⟩ := by
  obtain ⟨rest, rfl⟩ := hp
  induction rest using List.reverseRecOn with
  | nil => exact ⟨th.prog, by simpa using h⟩
  | append_singleton xs x ih =>
    obtain ⟨p, hi⟩ := ih
    have hlt := (List.getElem?_eq_some_iff.mp hi).1
    rw [← List.append_assoc, run_concat]
    rcases S.step_cases (S.run (before ++ xs)) x with he | ⟨t, -, -, he⟩ |
      ⟨j, env, t, o, k, -, hj, he⟩
    · exact ⟨p, by rw [he]; exact hi⟩
    · refine ⟨p, ?_⟩
      rw [he]
      simp only [afterStart]
      rw [List.getElem?_append_left hlt]
      exact hi
    · rw [he]
      simp only [afterAct]
      by_cases hji : j = i
      · subst hji
        rw [hi] at hj
        simp only [Option.some.injEq, Thread.mk.injEq] at hj
        obtain ⟨rfl, -⟩ := hj
        exact ⟨_, List.getElem?_set_self hlt⟩
      · rw [List.getElem?_set_ne hji]
        exact ⟨p, hi⟩

/-- What every operation keeps of the shared state holds between a run and what it becomes. -/
theorem shared_of_prefix {R : σ → σ → Prop} (hrefl : ∀ s, R s s)
    (htrans : ∀ s s' s'', R s s' → R s' s'' → R s s'')
    (hact : ∀ xs (i : Nat) env t o k, (S.run xs).threads[i]? = some ⟨t, .op o k⟩ →
      R (S.run xs).shared (S.exec env (S.run xs).shared o).2)
    {before inputs : List (Input ε τ)} (hp : before <+: inputs) :
    R (S.run before).shared (S.run inputs).shared := by
  obtain ⟨rest, rfl⟩ := hp
  induction rest using List.reverseRecOn with
  | nil =>
    rw [List.append_nil]
    exact hrefl _
  | append_singleton xs x ih =>
    rw [← List.append_assoc, run_concat]
    rcases S.step_cases (S.run (before ++ xs)) x with he | ⟨t, -, -, he⟩ |
      ⟨i, env, t, o, k, -, hi, he⟩
    · rw [he]
      exact ih
    · rw [he]
      exact ih
    · rw [he]
      exact htrans _ _ _ ih (hact _ i env t o k hi)

section Guards
variable {m : Monitor γ Op Resp} {g : τ → γ} {post : (t : τ) → γ → Out t → Prop}

/-- The operation a thread is waiting for meets the thread's condition. -/
theorem guard_of_thread (hsafe : ∀ t, m.Safe (post t) (g t) (S.body t))
    (inputs : List (Input ε τ)) {i : Nat} {t : τ} {o : Op} {k : Resp o → Prog Op Resp (Out t)}
    (hi : (S.run inputs).threads[i]? = some ⟨t, .op o k⟩) :
    m.guard (m.after (g t) (eventsOf i (S.run inputs).log)) o :=
  ((hsafe t).of_trace (thread_trace inputs i t _ hi)).1

/-- An invariant of every run, with the conditions of the operations at hand. -/
theorem run_induction_guarded (hsafe : ∀ t, m.Safe (post t) (g t) (S.body t))
    {I : Pool σ ε τ Op Resp Out → Prop} (h0 : I S.initial)
    (hstart : ∀ P t, I P → S.mayStart P.threads t = true → I (S.afterStart P t))
    (hact : ∀ P i env t o k, I P → P.threads[i]? = some ⟨t, .op o k⟩ →
      m.guard (m.after (g t) (eventsOf i P.log)) o → I (S.afterAct P i env t o k))
    (inputs : List (Input ε τ)) : I (S.run inputs) := by
  induction inputs using List.reverseRecOn with
  | nil => exact h0
  | append_singleton xs x ih =>
    rw [run_concat]
    rcases S.step_cases (S.run xs) x with he | ⟨t, -, hm, he⟩ | ⟨i, env, t, o, k, -, hi, he⟩
    · rw [he]
      exact ih
    · rw [he]
      exact hstart _ t ih hm
    · rw [he]
      exact hact _ i env t o k ih hi (guard_of_thread hsafe xs hi)

/-- Every entry of a log meets the condition on it, with what its thread did before. -/
theorem entry_guarded {guard : List (Event Op Resp) → Op → Prop}
    (hsafe : ∀ t, (Monitor.history guard).Safe (fun _ _ => True) [] (S.body t))
    (inputs : List (Input ε τ)) {pre suf : List (Entry ε Op Resp)} {e : Entry ε Op Resp}
    (h : (S.run inputs).log = pre ++ e :: suf) : guard (eventsOf e.thread pre) e.op := by
  obtain ⟨before, t, k, -, rfl, hi, -⟩ := log_split inputs h
  have hguard := guard_of_thread hsafe before hi
  rw [Monitor.history_after, List.nil_append] at hguard
  exact hguard

end Guards

section Progress
variable {m : Monitor γ Op Resp} {g : τ → γ} {post : (t : τ) → γ → Out t → Prop}

/-- The bookkeeping of each thread. -/
def progress (m : Monitor γ Op Resp) (g : τ → γ) (P : Pool σ ε τ Op Resp Out) (i : Nat) :
    Option γ :=
  P.threads[i]?.map fun th => m.after (g th.tag) (eventsOf i P.log)

theorem progress_of_thread {P : Pool σ ε τ Op Resp Out} {i : Nat} {th : Thread τ Op Resp Out}
    (h : P.threads[i]? = some th) :
    progress m g P i = some (m.after (g th.tag) (eventsOf i P.log)) := by
  simp [progress, h]

theorem progress_afterStart {P : Pool σ ε τ Op Resp Out}
    (hlog : ∀ e ∈ P.log, e.thread < P.threads.length) (t : τ) :
    progress m g (S.afterStart P t) =
      Function.update (progress m g P) P.threads.length (some (g t)) := by
  funext j
  by_cases hj : j = P.threads.length
  · -- a new thread has no events yet
    have hnone : eventsOf j P.log = [] := by
      simp only [eventsOf, List.map_eq_nil_iff, List.filter_eq_nil_iff, beq_iff_eq]
      intro e hmem hje
      have hlt := hlog e hmem
      omega
    subst hj
    simp [progress, afterStart, hnone, Monitor.after]
  · rw [Function.update_of_ne hj]
    unfold progress
    simp only [afterStart]
    rcases Nat.lt_or_ge j P.threads.length with hlt | hge
    · rw [List.getElem?_append_left hlt]
    · have hout : (P.threads ++ [⟨t, S.body t⟩])[j]? = none := by
        rw [List.getElem?_eq_none_iff, List.length_append, List.length_singleton]
        omega
      rw [hout, List.getElem?_eq_none_iff.mpr hge]

theorem progress_afterAct {P : Pool σ ε τ Op Resp Out} {i : Nat} {env : ε} {t : τ} {o : Op}
    {k : Resp o → Prog Op Resp (Out t)} (hi : P.threads[i]? = some ⟨t, .op o k⟩) :
    progress m g (S.afterAct P i env t o k) = Function.update (progress m g P) i
      (some (m.next (m.after (g t) (eventsOf i P.log)) o (S.exec env P.shared o).1)) := by
  funext j
  by_cases hj : j = i
  · subst hj
    have hlt := (List.getElem?_eq_some_iff.mp hi).1
    have hev := eventsOf_concat_self P.log ⟨j, env, o, (S.exec env P.shared o).1⟩
    rw [Function.update_self, progress_of_thread (List.getElem?_set_self hlt)]
    simp only [afterAct] at hev ⊢
    rw [hev, Monitor.after_concat]
    rfl
  · rw [Function.update_of_ne hj]
    have hev := eventsOf_concat_other (i := j) P.log
      (e := ⟨i, env, o, (S.exec env P.shared o).1⟩) (Ne.symm hj)
    unfold progress
    simp only [afterAct]
    rw [List.getElem?_set_ne (Ne.symm hj), hev]

/-- An invariant between the log, the shared state and the bookkeeping of all threads, where
what a thread may start on is read off those that run. -/
theorem progress_induction_started (hsafe : ∀ t, m.Safe (post t) (g t) (S.body t))
    {I : List (Entry ε Op Resp) → σ → (Nat → Option γ) → Prop}
    (h0 : I [] S.init fun _ => none)
    (hstart : ∀ xs t, I (S.run xs).log (S.run xs).shared (progress m g (S.run xs)) →
      S.mayStart (S.run xs).threads t = true →
      I (S.run xs).log (S.run xs).shared
        (Function.update (progress m g (S.run xs)) (S.run xs).threads.length (some (g t))))
    (hact : ∀ log s pr i p env o, I log s pr → pr i = some p → m.guard p o →
      I (log ++ [⟨i, env, o, (S.exec env s o).1⟩]) (S.exec env s o).2
        (Function.update pr i (some (m.next p o (S.exec env s o).1))))
    (inputs : List (Input ε τ)) :
    I (S.run inputs).log (S.run inputs).shared (progress m g (S.run inputs)) := by
  induction inputs using List.reverseRecOn with
  | nil =>
    have hnone : progress m g (S.run []) = fun _ => none := by
      funext i
      simp [progress, initial]
    rw [hnone]
    exact h0
  | append_singleton xs x ih =>
    rw [run_concat]
    rcases S.step_cases (S.run xs) x with he | ⟨t, -, hm, he⟩ | ⟨i, env, t, o, k, -, hi, he⟩
    · rw [he]
      exact ih
    · rw [he, progress_afterStart (log_thread_lt xs)]
      exact hstart xs t ih hm
    · rw [he, progress_afterAct hi]
      exact hact _ _ _ i _ env o ih (progress_of_thread hi) (guard_of_thread hsafe xs hi)

/-- The same where a thread may start at any time: no look at the programs is needed. -/
theorem progress_induction (hsafe : ∀ t, m.Safe (post t) (g t) (S.body t))
    {I : List (Entry ε Op Resp) → σ → (Nat → Option γ) → Prop}
    (h0 : I [] S.init fun _ => none)
    (hstart : ∀ log s pr i t, I log s pr → pr i = none →
      I log s (Function.update pr i (some (g t))))
    (hact : ∀ log s pr i p env o, I log s pr → pr i = some p → m.guard p o →
      I (log ++ [⟨i, env, o, (S.exec env s o).1⟩]) (S.exec env s o).2
        (Function.update pr i (some (m.next p o (S.exec env s o).1))))
    (inputs : List (Input ε τ)) :
    I (S.run inputs).log (S.run inputs).shared (progress m g (S.run inputs)) :=
  progress_induction_started hsafe h0
    (fun xs t h _ => hstart _ _ _ _ t h (by simp [progress])) hact inputs

end Progress

/-! ## Refinement -/

/-- A state machine whose steps each match at most one step of the system: along
a run of it the system can keep up. -/
theorem forward_simulation {C X : Type} {cstep : C → X → C} {c₀ : C}
    {R : C → Pool σ ε τ Op Resp Out → Prop} {xs : List X} (h0 : R c₀ S.initial)
    (hstep : ∀ before x P, before ++ [x] <+: xs → R (before.foldl cstep c₀) P →
      ∃ input : Option (Input ε τ),
        R (cstep (before.foldl cstep c₀) x) (input.elim P (S.step P))) :
    ∃ inputs, R (xs.foldl cstep c₀) (S.run inputs) := by
  suffices h : ∀ before, before <+: xs → ∃ inputs, R (before.foldl cstep c₀) (S.run inputs) from
    h xs List.prefix_rfl
  intro before hbefore
  induction before using List.reverseRecOn with
  | nil => exact ⟨[], h0⟩
  | append_singleton before x ih =>
    obtain ⟨inputs, hR⟩ := ih ((List.prefix_append _ _).trans hbefore)
    obtain ⟨input, hR'⟩ := hstep before x _ hbefore hR
    rw [List.foldl_append, List.foldl_cons, List.foldl_nil]
    cases input with
    | none => exact ⟨inputs, hR'⟩
    | some input =>
      refine ⟨inputs ++ [input], ?_⟩
      rw [run_concat]
      exact hR'

end System

end Interaction
