import Sysknife.Lib.Interaction

/-!
# Programs over some of the operations

A program runs in a larger system, whose operations are its own and others, as it is.
What a monitor says of it holds there too, and so does what it comes to when it is
answered in a certain way.
-/

namespace Interaction

variable {Op Op' : Type} {Resp : Op → Type} {Resp' : Op' → Type} {α β γ γ' : Type}

namespace Prog

/-- The program with its operations among those of the larger system. -/
def embed (f : Op → Op') (back : (o : Op) → Resp' (f o) → Resp o) :
    Prog Op Resp α → Prog Op' Resp' α
  | .ret a => .ret a
  | .op o k => .op (f o) fun r => (k (back o r)).embed f back

/-- Whenever its operations are answered in this way, the program comes to a result that
meets `post`. -/
def Given (answers : (o : Op) → Resp o → Prop) (post : α → Prop) : Prog Op Resp α → Prop
  | .ret a => post a
  | .op o k => ∀ r, answers o r → Given answers post (k r)

section Given
variable {answers : (o : Op) → Resp o → Prop} {post : α → Prop}

theorem Given.bind {mid : β → Prop} {f : β → Prog Op Resp α} {p : Prog Op Resp β}
    (hp : p.Given answers mid) (hf : ∀ b, mid b → (f b).Given answers post) :
    (p >>= f).Given answers post := by
  induction p with
  | ret b => exact hf b hp
  | op o k ih => exact fun r hr => ih r (hp r hr)

theorem Given.embed {p : Prog Op Resp α} (hp : p.Given answers post) (f : Op → Op')
    (back : (o : Op) → Resp' (f o) → Resp o) (answers' : (o : Op') → Resp' o → Prop)
    (hback : ∀ o r, answers' (f o) r → answers o (back o r)) :
    (p.embed f back).Given answers' post := by
  induction p with
  | ret a => exact hp
  | op o k ih => exact fun r hr => ih _ (hp _ (hback o r hr))

/-- The result of a program that was answered in this way. -/
theorem Given.of_trace {p : Prog Op Resp α} {evs : List (Event Op Resp)} {a : α}
    (hp : p.Given answers post) (ht : Trace p evs (.ret a))
    (hevs : ∀ e ∈ evs, answers e.op e.resp) : post a := by
  induction p generalizing evs with
  | ret b =>
    cases (trace_ret ht).2
    exact hp
  | op o k ih =>
    obtain ⟨r, rest, rfl, hrest⟩ := trace_op_ret ht
    exact ih r (hp r (hevs _ List.mem_cons_self)) hrest
      fun e he => hevs e (List.mem_cons_of_mem _ he)

end Given

end Prog

/-- A monitor of the larger system that keeps the bookkeeping of the program's own. -/
theorem Monitor.Safe.embed {m : Monitor γ Op Resp} (m' : Monitor γ' Op' Resp') (f : Op → Op')
    (back : (o : Op) → Resp' (f o) → Resp o) (proj : γ' → γ) (kept : γ' → Prop)
    {post : γ → α → Prop} {p : Prog Op Resp α} {g' : γ'}
    (hp : m.Safe post (proj g') p) (hkept : kept g')
    (hguard : ∀ g' o, kept g' → m.guard (proj g') o → m'.guard g' (f o))
    (hnext : ∀ g' o r, kept g' →
      kept (m'.next g' (f o) r) ∧ proj (m'.next g' (f o) r) = m.next (proj g') o (back o r)) :
    m'.Safe (fun g' a => kept g' ∧ post (proj g') a) g' (p.embed f back) := by
  induction p generalizing g' with
  | ret a => exact ⟨hkept, hp⟩
  | op o k ih =>
    refine ⟨hguard g' o hkept hp.1, fun r => ?_⟩
    obtain ⟨hkept', hproj⟩ := hnext g' o r hkept
    refine ih _ ?_ hkept'
    rw [hproj]
    exact hp.2 _

end Interaction
