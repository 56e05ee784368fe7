import Mathlib.Data.List.Basic
import Mathlib.Data.List.Nodup
import Mathlib.Data.List.Infix

/-!
# Chains of authenticated blocks

A block carries its content, the tag of the block before it and its own tag.
`Linked` is what a verifier that holds the tag function can check. The main
result is about a chain that somebody else rewrote without being able to make
new valid tags: all that is left to them is to cut the tail off.
-/

namespace HashChain

variable {C T : Type*}

structure Block (C T : Type*) where
  content : C
  prev : T
  tag : T

/-- The tag the next block has to refer to. -/
def tip (root : T) : List (Block C T) → T
  | [] => root
  | b :: rest => tip b.tag rest

/-- Every block refers to the tag before it and has the tag of its content. -/
def Linked (mac : C → T → T) (last : T) : List (Block C T) → Prop
  | [] => True
  | b :: rest => b.prev = last ∧ b.tag = mac b.content b.prev ∧ Linked mac b.tag rest

section Append
variable {mac : C → T → T}

@[simp] theorem tip_nil (root : T) : tip root ([] : List (Block C T)) = root := rfl

@[simp] theorem tip_append (root : T) (p q : List (Block C T)) :
    tip root (p ++ q) = tip (tip root p) q := by
  induction p generalizing root with
  | nil => rfl
  | cons b p ih => exact ih b.tag

theorem tip_concat (root : T) (p : List (Block C T)) (b : Block C T) :
    tip root (p ++ [b]) = b.tag := by
  rw [tip_append]
  rfl

theorem linked_append {last : T} {p q : List (Block C T)} :
    Linked mac last (p ++ q) ↔ Linked mac last p ∧ Linked mac (tip last p) q := by
  induction p generalizing last with
  | nil => simp [Linked]
  | cons b p ih => simp only [List.cons_append, Linked, tip, ih, and_assoc]

/-- Appending one block needs the old tip and a tag for the new content. -/
theorem linked_concat {last : T} {p : List (Block C T)} {b : Block C T} :
    Linked mac last (p ++ [b]) ↔
      Linked mac last p ∧ b.prev = tip last p ∧ b.tag = mac b.content b.prev := by
  simp [linked_append, Linked]

theorem Linked.initial {last : T} {p rows : List (Block C T)} (h : Linked mac last rows)
    (hp : p <+: rows) : Linked mac last p := by
  obtain ⟨q, rfl⟩ := hp
  exact (linked_append.mp h).1

theorem Linked.tag_eq {last : T} {rows : List (Block C T)} (h : Linked mac last rows)
    {b : Block C T} (hb : b ∈ rows) : b.tag = mac b.content b.prev := by
  obtain ⟨p, q, rfl⟩ := List.append_of_mem hb
  exact (linked_append.mp h).2.2.1

theorem Linked.prev_eq {last : T} {p q : List (Block C T)} {b : Block C T}
    (h : Linked mac last (p ++ b :: q)) : b.prev = tip last p :=
  (linked_append.mp h).2.1

theorem Linked.head_prev {last : T} {rows : List (Block C T)} (h : Linked mac last rows) :
    ∀ b ∈ rows.head?, b.prev = last := by
  intro b hb
  cases rows with
  | nil => cases hb
  | cons a rest =>
    obtain rfl := Option.some.inj hb
    exact h.1

/-- Every later block refers to the one before it. -/
theorem Linked.succ_prev {last : T} {rows : List (Block C T)} (h : Linked mac last rows)
    {k : Nat} {a b : Block C T} (ha : rows[k]? = some a) (hb : rows[k + 1]? = some b) :
    b.prev = a.tag := by
  induction rows generalizing last k with
  | nil => cases ha
  | cons c rest ih =>
    cases k with
    | zero =>
      obtain rfl := Option.some.inj ha
      rw [List.getElem?_cons_succ] at hb
      exact h.2.2.head_prev b (by rw [List.head?_eq_getElem?]; exact hb)
    | succ k => exact ih h.2.2 ha hb

end Append

/-! ## Rewritten chains -/

/-- The tip after `n` blocks, read off the list of all tags. -/
theorem tip_take (root : T) (rows : List (Block C T)) (n : Nat) (hn : n ≤ rows.length) :
    (root :: rows.map Block.tag)[n]? = some (tip root (rows.take n)) := by
  induction n with
  | zero => simp
  | succ n ih =>
    have hlt : n < rows.length := hn
    rw [List.take_add_one, List.getElem?_eq_getElem hlt, Option.toList_some, tip_concat]
    simp [hlt]

/-- With pairwise different tags, the tip of a prefix tells the prefix. -/
theorem prefix_eq_of_tip_eq {root : T} {rows p q : List (Block C T)}
    (hd : (root :: rows.map Block.tag).Nodup) (hp : p <+: rows) (hq : q <+: rows)
    (ht : tip root p = tip root q) : p = q := by
  have hpt := List.prefix_iff_eq_take.mp hp
  have hqt := List.prefix_iff_eq_take.mp hq
  have h1 := tip_take root rows p.length hp.length_le
  have h2 := tip_take root rows q.length hq.length_le
  rw [← hpt] at h1
  rw [← hqt, ← ht] at h2
  have hlt : p.length < (root :: rows.map Block.tag).length := by
    simpa using Nat.lt_succ_of_le hp.length_le
  have hlen : p.length = q.length := (List.getElem?_inj hlt hd).mp (h1.trans h2.symm)
  rw [hpt, hqt, hlen]

section Rewritten
variable {mac : C → T → T} {root : T} {rows rows' : List (Block C T)}

/-- The tag function does not collide on the blocks of two lists. -/
def CollisionFree (mac : C → T → T) (xs ys : List (Block C T)) : Prop :=
  ∀ b ∈ xs, ∀ c ∈ ys, mac b.content b.prev = mac c.content c.prev →
    b.content = c.content ∧ b.prev = c.prev

/-- Nobody made a valid tag that is not the tag of a block of `rows`. -/
def NoForgery (mac : C → T → T) (rows rows' : List (Block C T)) : Prop :=
  ∀ b ∈ rows', b.tag = mac b.content b.prev → b.tag ∈ rows.map Block.tag

theorem tags_nodup (hrows : Linked mac root rows) (hfree : CollisionFree mac rows rows)
    (hcontent : (rows.map Block.content).Nodup) : (rows.map Block.tag).Nodup := by
  refine List.Nodup.map_on ?_ (List.Nodup.of_map _ hcontent)
  intro b hb c hc he
  rw [hrows.tag_eq hb, hrows.tag_eq hc] at he
  exact List.inj_on_of_nodup_map hcontent hb hc (hfree b hb c hc he).1

/-- A linked rewriting of a linked chain is a prefix of it. The induction takes
the rewriting's last block off: its tag is one of the original's, so it is an
original block, and its place is told by the tip it refers to. -/
theorem prefix_of_linked (hrows : Linked mac root rows) (hrows' : Linked mac root rows')
    (hdistinct : (root :: rows.map Block.tag).Nodup) (hfree : CollisionFree mac rows' rows)
    (hforge : NoForgery mac rows rows') : rows' <+: rows := by
  induction rows' using List.reverseRecOn with
  | nil => exact List.nil_prefix
  | append_singleton p b ih =>
    obtain ⟨hp, hprev, htag⟩ := linked_concat.mp hrows'
    have hpre : p <+: rows := ih hp
      (fun c hc => hfree c (List.mem_append_left _ hc))
      (fun c hc => hforge c (List.mem_append_left _ hc))
    have hb : b ∈ p ++ [b] := by simp
    obtain ⟨c, hc, hct⟩ := List.mem_map.mp (hforge b hb htag)
    have hmac : mac b.content b.prev = mac c.content c.prev := by
      rw [← htag, ← hct, hrows.tag_eq hc]
    obtain ⟨hcontent, hcprev⟩ := hfree b hb c hc hmac
    have hbc : b = c := by
      cases b
      cases c
      simp_all
    subst hbc
    obtain ⟨u, v, rfl⟩ := List.append_of_mem hc
    have hu : u <+: u ++ b :: v := List.prefix_append _ _
    have htip : tip root p = tip root u := by rw [← hprev, hrows.prev_eq]
    obtain rfl := prefix_eq_of_tip_eq hdistinct hpre hu htip
    exact ⟨v, by simp⟩

end Rewritten

end HashChain
