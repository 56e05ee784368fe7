import Mathlib.Algebra.Ring.Nat
import Mathlib.Data.List.Basic
import Mathlib.Data.List.Infix

/-!
# Occurrences of a tag in a text

Where a tag can stand in a text that was put together from parts, and what
`replaceAll` leaves of it. A tag here has its first character nowhere else, as the
opening bracket of a markup tag.
-/

namespace TextMatch

variable {α : Type}

/-! ## Occurrences in a concatenation -/

/-- A tag without the character `x` stands on one side of it. -/
theorem split_at {x : α} {tag a b pre post : List α} (hx : x ∉ tag)
    (h : a ++ x :: b = pre ++ tag ++ post) :
    (∃ mid, a = pre ++ tag ++ mid ∧ post = mid ++ x :: b) ∨
      ∃ mid, pre = a ++ x :: mid ∧ b = mid ++ tag ++ post := by
  rcases List.append_eq_append_iff.mp h with ⟨mid, hpre, hb⟩ | ⟨mid, ha, hpost⟩
  · rcases List.append_eq_append_iff.mp hpre with ⟨rest, ha, htag⟩ | ⟨rest, hpre', hmid⟩
    · cases mid with
      | nil =>
        rw [List.append_nil] at htag
        refine Or.inl ⟨[], ?_, by simpa using hb.symm⟩
        rw [ha, htag, List.append_nil]
      | cons y mid =>
        obtain ⟨rfl, -⟩ := List.cons.inj hb
        exact absurd (htag ▸ List.mem_append_right _ (List.mem_cons_self ..)) hx
    · cases rest with
      | nil =>
        rw [List.nil_append] at hmid
        rw [List.append_nil] at hpre'
        subst hmid
        cases mid with
        | nil => exact Or.inl ⟨[], by simp [hpre'], by simpa using hb.symm⟩
        | cons y mid =>
          obtain ⟨rfl, -⟩ := List.cons.inj hb
          exact absurd (List.mem_cons_self ..) hx
      | cons y rest =>
        rw [hmid, List.cons_append, List.cons_append, List.cons.injEq] at hb
        obtain ⟨rfl, hb⟩ := hb
        exact Or.inr ⟨rest, hpre', hb⟩
  · exact Or.inl ⟨mid, ha, hpost⟩

theorem infix_append_cons {x : α} {tag a b : List α} (hx : x ∉ tag) (h : tag <:+: a ++ x :: b) :
    tag <:+: a ∨ tag <:+: b := by
  obtain ⟨pre, post, h⟩ := h
  rcases split_at hx h.symm with ⟨mid, ha, -⟩ | ⟨mid, -, hb⟩
  · exact Or.inl ⟨pre, mid, ha.symm⟩
  · exact Or.inr ⟨mid, post, hb.symm⟩

theorem infix_append_cons_iff {x : α} {tag a b : List α} (hx : x ∉ tag) :
    tag <:+: a ++ x :: b ↔ tag <:+: a ∨ tag <:+: b := by
  refine ⟨infix_append_cons hx, ?_⟩
  rintro (h | h)
  · exact h.trans (List.prefix_append a _).isInfix
  · exact h.trans ((List.suffix_cons x b).trans (List.suffix_append a _)).isInfix

/-- The parts with a separator behind each. -/
theorem infix_terminated_iff {x : α} {tag : List α} (hx : x ∉ tag) (hne : tag ≠ [])
    (parts : List (List α)) :
    tag <:+: parts.flatMap (· ++ [x]) ↔ ∃ part ∈ parts, tag <:+: part := by
  induction parts with
  | nil => simpa using hne
  | cons part parts ih =>
    rw [List.flatMap_cons, List.append_assoc, List.singleton_append,
      infix_append_cons_iff hx, ih]
    simp only [List.mem_cons, exists_eq_or_imp]

/-- Behind a separator a text begins anew. -/
theorem infix_append_iff {x : α} {tag a b : List α} (hx : x ∉ tag) (hne : tag ≠ [])
    (ha : ∃ body, a = body ++ [x]) : tag <:+: a ++ b ↔ tag <:+: a ∨ tag <:+: b := by
  obtain ⟨body, rfl⟩ := ha
  have hbody : tag <:+: body ++ [x] ↔ tag <:+: body := by
    rw [infix_append_cons_iff hx, List.infix_nil, or_iff_left hne]
  rw [hbody, List.append_assoc, List.singleton_append, infix_append_cons_iff hx]

/-- The tag at the end is the only one exactly if there is none in what the separator
ends. -/
theorem closed_once_iff {x : α} {tag a : List α} (hx : x ∉ tag) (hne : tag ≠ [])
    (ha : ∃ body, a = body ++ [x]) :
    (∀ pre post, a ++ tag = pre ++ tag ++ post → post = []) ↔ ¬ tag <:+: a := by
  constructor
  · rintro h ⟨pre, post, hin⟩
    have hpost := h pre (post ++ tag) (by rw [← hin, List.append_assoc (pre ++ tag)])
    exact hne (List.append_eq_nil_iff.mp hpost).2
  · obtain ⟨body, rfl⟩ := ha
    intro h pre post heq
    rw [List.append_assoc, List.singleton_append] at heq
    rcases split_at hx heq with ⟨mid, hbody, -⟩ | ⟨mid, -, htag⟩
    · refine absurd (List.IsInfix.trans ⟨pre, mid, hbody.symm⟩ ?_) h
      exact (List.prefix_append body [x]).isInfix
    · have hlength := congrArg List.length htag
      simp only [List.length_append] at hlength
      exact List.length_eq_zero_iff.mp (by omega)

/-- A tag does not begin in a part that lacks its first character. -/
theorem infix_append_of_notMem {x : α} {t a b : List α} (hx : x ∉ a)
    (h : x :: t <:+: a ++ b) : x :: t <:+: b := by
  induction a with
  | nil => exact h
  | cons y a ih =>
    rw [List.mem_cons, not_or] at hx
    rw [List.cons_append, List.infix_cons_iff] at h
    rcases h with h | h
    · exact absurd (List.cons_prefix_cons.mp h).1 hx.1
    · exact ih hx.2 h

/-- In a text that has the first character of a tag at its head only, the tag is the
head. -/
theorem pre_eq_nil {x : α} {t rest pre post : List α} (hx : x ∉ rest)
    (h : x :: rest = pre ++ x :: t ++ post) : pre = [] := by
  cases pre with
  | nil => rfl
  | cons y pre =>
    rw [List.cons_append, List.cons_append, List.cons.injEq] at h
    exact absurd (h.2 ▸ by simp) hx

/-! ## Replacing -/

section Replace
variable [DecidableEq α] (pat rep : List α)

/-- The text from here on, `skip` characters of which belong to an occurrence that is
replaced already. -/
def replaceFrom : Nat → List α → List α
  | _, [] => []
  | skip + 1, _ :: cs => replaceFrom skip cs
  | 0, c :: cs =>
    if pat.isPrefixOf (c :: cs) then rep ++ replaceFrom (pat.length - 1) cs
    else c :: replaceFrom 0 cs

/-- The occurrences of `pat` from left to right, none within another, become `rep`. -/
def replaceAll (s : List α) : List α := replaceFrom pat rep 0 s

/-- The first occurrence of `pat` becomes `rep`. -/
def replaceFirst : List α → List α
  | [] => []
  | c :: cs =>
    if pat.isPrefixOf (c :: cs) then rep ++ (c :: cs).drop pat.length
    else c :: replaceFirst cs

end Replace

section Tags
variable [DecidableEq α] {pat : List α} {x : α} {r t s : List α}

/-- A text without `x` at the head of a result stood in the original. -/
theorem prefix_of_replace (ht : x ∉ t) (h : t <+: replaceFrom pat (x :: r) 0 s) : t <+: s := by
  induction s generalizing t with
  | nil => exact h
  | cons c cs ih =>
    cases t with
    | nil => exact List.nil_prefix
    | cons d t =>
      rw [List.mem_cons, not_or] at ht
      rw [replaceFrom] at h
      split at h
      · rw [List.cons_append, List.cons_prefix_cons] at h
        exact absurd h.1.symm ht.1
      · rw [List.cons_prefix_cons] at h ⊢
        exact ⟨h.1, ih ht.2 h.2⟩

/-- An occurrence of a tag in a result, where the tag and the replacement differ, stood
in the original at a place where the pattern does not. -/
theorem occurs_of_replace (ht : x ∉ t) (hr : x ∉ r) (hne : ¬ x :: t <+: x :: r)
    (hne' : ¬ x :: r <+: x :: t) {skip : Nat}
    (h : x :: t <:+: replaceFrom pat (x :: r) skip s) :
    ∃ u, u <:+ s ∧ x :: t <+: u ∧ ¬ pat <+: u := by
  induction s generalizing skip with
  | nil => exact absurd (List.infix_nil.mp h) (List.cons_ne_nil _ _)
  | cons c cs ih =>
    have htail : (∃ u, u <:+ cs ∧ x :: t <+: u ∧ ¬ pat <+: u) →
        ∃ u, u <:+ c :: cs ∧ x :: t <+: u ∧ ¬ pat <+: u := fun ⟨u, hu, hrest⟩ =>
      ⟨u, hu.trans (List.suffix_cons c cs), hrest⟩
    cases skip with
    | succ skip => exact htail (ih h)
    | zero =>
      rw [replaceFrom] at h
      split at h
      · rw [List.cons_append, List.infix_cons_iff] at h
        rcases h with h | h
        · -- the tag would begin with the replacement
          rcases List.prefix_or_prefix_of_prefix h (List.prefix_append (x :: r) _) with h | h
          · exact absurd h hne
          · exact absurd h hne'
        · exact htail (ih (infix_append_of_notMem hr h))
      · next hpat =>
        rcases List.infix_cons_iff.mp h with h | h
        · rw [List.cons_prefix_cons] at h
          refine ⟨c :: cs, List.suffix_rfl, ?_, fun hp => hpat (List.isPrefixOf_iff_prefix.mpr hp)⟩
          exact List.cons_prefix_cons.mpr ⟨h.1, prefix_of_replace ht h.2⟩
        · exact htail (ih h)

/-- No tag that begins with the pattern is left. -/
theorem not_infix_replaceAll (ht : x ∉ t) (hr : x ∉ r) (hne : ¬ x :: t <+: x :: r)
    (hne' : ¬ x :: r <+: x :: t) (hpat : pat <+: x :: t) :
    ¬ x :: t <:+: replaceAll pat (x :: r) s := by
  intro h
  obtain ⟨u, -, htag, hnot⟩ := occurs_of_replace ht hr hne hne' h
  exact hnot (hpat.trans htag)

/-- No tag that differs from the replacement comes up. -/
theorem infix_of_replaceAll (ht : x ∉ t) (hr : x ∉ r) (hne : ¬ x :: t <+: x :: r)
    (hne' : ¬ x :: r <+: x :: t) (h : x :: t <:+: replaceAll pat (x :: r) s) : x :: t <:+: s := by
  obtain ⟨u, hu, htag, -⟩ := occurs_of_replace ht hr hne hne' h
  exact htag.isInfix.trans hu.isInfix

end Tags

section Members
variable [DecidableEq α] {pat rep s : List α} {c : α}

theorem mem_replaceFrom {skip : Nat} (h : c ∈ replaceFrom pat rep skip s) : c ∈ s ∨ c ∈ rep := by
  induction s generalizing skip with
  | nil => exact Or.inl h
  | cons d ds ih =>
    have htail : ∀ n, c ∈ replaceFrom pat rep n ds → c ∈ d :: ds ∨ c ∈ rep := fun n hn =>
      (ih hn).imp_left (List.mem_cons_of_mem d)
    cases skip with
    | succ skip => exact htail skip h
    | zero =>
      rw [replaceFrom] at h
      split at h
      · rcases List.mem_append.mp h with h | h
        · exact Or.inr h
        · exact htail _ h
      · rcases List.mem_cons.mp h with rfl | h
        · exact Or.inl (List.mem_cons_self ..)
        · exact htail 0 h

/-- A result has only characters of the text and of the replacement. -/
theorem mem_replaceAll (h : c ∈ replaceAll pat rep s) : c ∈ s ∨ c ∈ rep := mem_replaceFrom h

/-- Nothing is replaced in a text without the first character of the pattern. -/
theorem replaceAll_eq_self (h : c ∉ s) : replaceAll (c :: pat) rep s = s := by
  rw [replaceAll]
  induction s with
  | nil => rfl
  | cons d ds ih =>
    rw [List.mem_cons, not_or] at h
    have hother : (c :: pat).isPrefixOf (d :: ds) = false := by
      simp [List.isPrefixOf, h.1]
    rw [replaceFrom, hother, if_neg (by decide), ih h.2]

end Members

/-! ## At the ends of a text -/

/-- A text begins with a tag without `x` exactly where its part before an `x` does. -/
theorem prefix_append_cons_iff {x : α} {tag a b : List α} (hx : x ∉ tag) :
    tag <+: a ++ x :: b ↔ tag <+: a := by
  constructor
  · intro h
    rcases List.prefix_or_prefix_of_prefix h (List.prefix_append a (x :: b)) with hshort | hlong
    · exact hshort
    · obtain ⟨rest, rfl⟩ := hlong
      cases rest with
      | nil => simp
      | cons y rest =>
        rw [List.prefix_append_right_inj, List.cons_prefix_cons] at h
        rw [h.1] at hx
        exact absurd (List.mem_append_right a (List.mem_cons_self ..)) hx
  · exact fun h => h.trans (List.prefix_append a _)

/-- A text ends with a tag without `x` exactly where its part behind an `x` does. -/
theorem suffix_append_cons_iff {x : α} {tag a b : List α} (hx : x ∉ tag) :
    tag <:+ a ++ x :: b ↔ tag <:+ b := by
  constructor
  · rintro ⟨pre, h⟩
    rw [← List.append_nil (pre ++ tag)] at h
    rcases split_at hx h.symm with ⟨mid, -, hnil⟩ | ⟨mid, -, hb⟩
    · exact absurd hnil (by simp)
    · exact ⟨mid, by rw [hb, List.append_nil]⟩
  · exact fun h => h.trans ((List.suffix_cons x b).trans (List.suffix_append a _))

/-! ## The first occurrence -/

section First
variable [DecidableEq α] {pat rep : List α}

theorem replaceFirst_prefixed {s : List α} (hne : pat ≠ []) (h : pat <+: s) :
    replaceFirst pat rep s = rep ++ s.drop pat.length := by
  cases s with
  | nil => exact absurd (List.prefix_nil.mp h) hne
  | cons c s => rw [replaceFirst, if_pos (List.isPrefixOf_iff_prefix.mpr h)]

theorem replaceFirst_cons {c : α} {s : List α} (h : ¬ pat <+: c :: s) :
    replaceFirst pat rep (c :: s) = c :: replaceFirst pat rep s := by
  rw [replaceFirst, if_neg (fun hpre => h (List.isPrefixOf_iff_prefix.mp hpre))]

/-- Where the pattern begins nowhere in `a`, the search goes on behind it. -/
theorem replaceFirst_append {a u : List α} (h : ∀ s, s ≠ [] → s <:+ a → ¬ pat <+: s ++ u) :
    replaceFirst pat rep (a ++ u) = a ++ replaceFirst pat rep u := by
  induction a with
  | nil => rfl
  | cons c a ih =>
    have hhere : ¬ pat <+: c :: (a ++ u) := h (c :: a) (List.cons_ne_nil c a) List.suffix_rfl
    rw [List.cons_append, replaceFirst_cons hhere, ih, List.cons_append]
    intro s hs hsuffix
    exact h s hs (hsuffix.trans (List.suffix_cons c a))

theorem replaceFirst_eq_self {s : List α} (h : ¬ pat <:+: s) : replaceFirst pat rep s = s := by
  have hnone : ∀ t, t ≠ [] → t <:+ s → ¬ pat <+: t ++ [] := by
    intro t _ ht hpre
    rw [List.append_nil] at hpre
    exact h (hpre.isInfix.trans ht.isInfix)
  have hself : replaceFirst pat rep (s ++ []) = s ++ replaceFirst pat rep [] :=
    replaceFirst_append hnone
  rwa [List.append_nil, replaceFirst, List.append_nil] at hself

/-- The pattern has no `x`: the first occurrence is before an `x` or behind it. -/
theorem replaceFirst_append_cons {x : α} (hx : x ∉ pat) (hne : pat ≠ []) (a b : List α) :
    replaceFirst pat rep (a ++ x :: b) =
      if pat <:+: a then replaceFirst pat rep a ++ x :: b
      else a ++ x :: replaceFirst pat rep b := by
  induction a with
  | nil =>
    have hnone : ¬ pat <:+: ([] : List α) := fun h => hne (List.infix_nil.mp h)
    have hhere : ¬ pat <+: x :: b := by
      intro h
      exact hne (List.prefix_nil.mp ((prefix_append_cons_iff (a := []) hx).mp h))
    rw [if_neg hnone, List.nil_append, replaceFirst_cons hhere, List.nil_append]
  | cons c a ih =>
    by_cases hpre : pat <+: c :: a
    · have hlonger := hpre.trans (List.prefix_append (c :: a) (x :: b))
      rw [if_pos hpre.isInfix, replaceFirst_prefixed hne hlonger, replaceFirst_prefixed hne hpre,
        List.drop_append_of_le_length hpre.length_le, List.append_assoc]
    · have hhere : ¬ pat <+: c :: (a ++ x :: b) := fun h =>
        hpre ((prefix_append_cons_iff (a := c :: a) hx).mp h)
      rw [List.cons_append, replaceFirst_cons hhere, ih, replaceFirst_cons hpre]
      have hin : pat <:+: c :: a ↔ pat <:+: a := by
        rw [List.infix_cons_iff]
        exact or_iff_right hpre
      by_cases h : pat <:+: a
      · rw [if_pos h, if_pos (hin.mpr h), List.cons_append]
      · rw [if_neg h, if_neg (mt hin.mp h), List.cons_append]

/-- Replacing a pattern that is there by another text of its length changes the text. -/
theorem replaceFirst_ne {s : List α} (hne : pat ≠ []) (hrep : rep ≠ pat)
    (hlength : rep.length = pat.length) (h : pat <:+: s) : replaceFirst pat rep s ≠ s := by
  induction s with
  | nil => exact absurd (List.infix_nil.mp h) hne
  | cons c s ih =>
    intro heq
    by_cases hpre : pat <+: c :: s
    · rw [replaceFirst_prefixed hne hpre] at heq
      obtain ⟨rest, hrest⟩ := hpre
      rw [← hrest, List.drop_left] at heq
      exact hrep (List.append_inj_left heq hlength)
    · rw [replaceFirst_cons hpre, List.cons.injEq] at heq
      rcases List.infix_cons_iff.mp h with h | h
      · exact hpre h
      · exact ih h heq.2

theorem mem_replaceFirst {s : List α} {c : α} (h : c ∈ replaceFirst pat rep s) :
    c ∈ s ∨ c ∈ rep := by
  induction s with
  | nil => exact Or.inl h
  | cons d s ih =>
    rw [replaceFirst] at h
    split at h
    · rcases List.mem_append.mp h with h | h
      · exact Or.inr h
      · exact Or.inl (List.mem_of_mem_drop h)
    · rcases List.mem_cons.mp h with rfl | h
      · exact Or.inl (List.mem_cons_self ..)
      · exact (ih h).imp_left (List.mem_cons_of_mem d)

end First

/-! ## From left to right -/

section LeftToRight
variable [DecidableEq α] {pat rep : List α} {x z : α} {p q r s : List α}

theorem replaceFrom_append (a s : List α) :
    replaceFrom pat rep a.length (a ++ s) = replaceAll pat rep s := by
  induction a with
  | nil => rfl
  | cons c a ih => rw [List.length_cons, List.cons_append, replaceFrom, ih]

theorem replaceAll_self (hne : pat ≠ []) (s : List α) :
    replaceAll pat rep (pat ++ s) = rep ++ replaceAll pat rep s := by
  obtain ⟨c, a, rfl⟩ := List.exists_cons_of_ne_nil hne
  have hhere := List.isPrefixOf_iff_prefix.mpr (List.prefix_append (c :: a) s)
  rw [List.cons_append] at hhere
  rw [replaceAll, List.cons_append, replaceFrom, if_pos hhere, List.length_cons,
    Nat.add_sub_cancel, replaceFrom_append]

theorem replaceAll_cons {c : α} (h : ¬ pat <+: c :: s) :
    replaceAll pat rep (c :: s) = c :: replaceAll pat rep s := by
  rw [replaceAll, replaceFrom, if_neg (fun hpre => h (List.isPrefixOf_iff_prefix.mp hpre)),
    replaceAll]

/-- A text is read from left to right: here the pattern, or a character that does not
begin it. -/
@[elab_as_elim]
theorem replace_induction {motive : List α → Prop} (hne : pat ≠ []) (nil : motive [])
    (self : ∀ s, motive s → motive (pat ++ s))
    (cons : ∀ c s, ¬ pat <+: c :: s → motive s → motive (c :: s)) (s : List α) : motive s := by
  induction hn : s.length using Nat.strong_induction_on generalizing s with
  | _ n ih =>
    by_cases hpre : pat <+: s
    · obtain ⟨t, rfl⟩ := hpre
      have hpos := List.length_pos_iff.mpr hne
      rw [List.length_append] at hn
      exact self t (ih t.length (by omega) t rfl)
    · cases s with
      | nil => exact nil
      | cons c s =>
        rw [List.length_cons] at hn
        exact cons c s hpre (ih s.length (by omega) s rfl)

/-- A text without the first character of the pattern is at the head of the result
exactly where it was before. -/
theorem prefix_replaceAll_iff (hx : x ∉ q) :
    q <+: replaceAll (x :: p) (x :: r) s ↔ q <+: s := by
  refine ⟨prefix_of_replace hx, ?_⟩
  induction s generalizing q with
  | nil => exact id
  | cons c s ih =>
    intro h
    cases q with
    | nil => exact List.nil_prefix
    | cons d q =>
      obtain ⟨rfl, hrest⟩ := List.cons_prefix_cons.mp h
      rw [List.mem_cons, not_or] at hx
      have hhere : ¬ x :: p <+: d :: s := fun hpre => hx.1 (List.cons_prefix_cons.mp hpre).1
      rw [replaceAll_cons hhere]
      exact List.cons_prefix_cons.mpr ⟨rfl, ih hx.2 hrest⟩

/-- A separator that the pattern does not have stays between what is on its sides. -/
theorem replaceAll_append_cons (hz : z ∉ pat) (hne : pat ≠ []) (a b : List α) :
    replaceAll pat rep (a ++ z :: b) = replaceAll pat rep a ++ z :: replaceAll pat rep b := by
  induction a using replace_induction hne with
  | nil =>
    have hhere : ¬ pat <+: z :: b := fun h =>
      hne (List.prefix_nil.mp ((prefix_append_cons_iff (a := []) hz).mp h))
    rw [List.nil_append, replaceAll_cons hhere]
    rfl
  | self a ih =>
    rw [List.append_assoc, replaceAll_self hne, ih, replaceAll_self hne, List.append_assoc]
  | cons c a hhere ih =>
    have hlonger : ¬ pat <+: c :: (a ++ z :: b) := fun h =>
      hhere ((prefix_append_cons_iff (a := c :: a) hz).mp h)
    rw [List.cons_append, replaceAll_cons hlonger, ih, replaceAll_cons hhere, List.cons_append]

/-- A separator that neither text has was there before. -/
theorem split_of_replaceAll (hz : z ∉ rep) (hne : pat ≠ []) {u v : List α}
    (h : replaceAll pat rep s = u ++ z :: v) :
    ∃ a b, s = a ++ z :: b ∧ replaceAll pat rep a = u ∧ replaceAll pat rep b = v := by
  induction s using replace_induction hne generalizing u with
  | nil => exact absurd h.symm (by simp [replaceAll, replaceFrom])
  | self s ih =>
    rw [replaceAll_self hne] at h
    rcases List.append_eq_append_iff.mp h with ⟨u', rfl, hs⟩ | ⟨w, hrep, hv⟩
    · obtain ⟨a, b, rfl, ha, hb⟩ := ih hs
      exact ⟨pat ++ a, b, by rw [List.append_assoc], by rw [replaceAll_self hne, ha], hb⟩
    · cases w with
      | nil =>
        obtain ⟨a, b, rfl, ha, hb⟩ := ih (u := []) hv.symm
        rw [List.append_nil] at hrep
        exact ⟨pat ++ a, b, by rw [List.append_assoc],
          by rw [replaceAll_self hne, ha, List.append_nil, hrep], hb⟩
      | cons d w =>
        obtain ⟨rfl, -⟩ := List.cons.inj hv
        exact absurd (hrep ▸ List.mem_append_right u (List.mem_cons_self ..)) hz
  | cons c s hhere ih =>
    rw [replaceAll_cons hhere] at h
    cases u with
    | nil =>
      obtain ⟨rfl, rfl⟩ := List.cons.inj h
      exact ⟨[], s, rfl, rfl, rfl⟩
    | cons d u =>
      obtain ⟨rfl, hs⟩ := List.cons.inj h
      obtain ⟨a, b, rfl, ha, hb⟩ := ih hs
      refine ⟨c :: a, b, rfl, ?_, hb⟩
      have hshort : ¬ pat <+: c :: a := fun hpre =>
        hhere (hpre.trans (List.prefix_append (c :: a) (z :: b)))
      rw [replaceAll_cons hshort, ha]

/-- Where the pattern and the replacement begin with one character, a text does as
before. -/
theorem head_replaceAll (s : List α) :
    (replaceAll (x :: p) (x :: r) s).head? = s.head? := by
  induction s using replace_induction (List.cons_ne_nil x p) with
  | nil => rfl
  | self s _ => rw [replaceAll_self (List.cons_ne_nil x p)]; rfl
  | cons c s hhere _ => rw [replaceAll_cons hhere]; rfl

end LeftToRight

/-! ## Counting -/

section Count
variable [DecidableEq α] {pat rep : List α} {x y : α} {p q r s : List α}

/-- The places of a text at which `pat` begins. -/
def occurrences (pat : List α) : List α → Nat
  | [] => 0
  | c :: cs => occurrences pat cs + if pat.isPrefixOf (c :: cs) then 1 else 0

theorem occurrences_prefixed {c : α} (h : pat <+: c :: s) :
    occurrences pat (c :: s) = occurrences pat s + 1 := by
  rw [occurrences, if_pos (List.isPrefixOf_iff_prefix.mpr h)]

theorem occurrences_cons {c : α} (h : ¬ pat <+: c :: s) :
    occurrences pat (c :: s) = occurrences pat s := by
  rw [occurrences, if_neg (fun hpre => h (List.isPrefixOf_iff_prefix.mp hpre)), Nat.add_zero]

/-- A pattern does not begin in a part that lacks its first character. -/
theorem occurrences_append {a : List α} (hy : y ∉ a) (s : List α) :
    occurrences (y :: q) (a ++ s) = occurrences (y :: q) s := by
  induction a with
  | nil => rfl
  | cons c a ih =>
    rw [List.mem_cons, not_or] at hy
    have hother : ¬ y :: q <+: c :: (a ++ s) := fun h => hy.1 (List.cons_prefix_cons.mp h).1
    rw [List.cons_append, occurrences_cons hother, ih hy.2]

theorem occurrences_self (hx : x ∉ p) (s : List α) :
    occurrences (x :: p) (x :: p ++ s) = occurrences (x :: p) s + 1 := by
  have hhere : x :: p <+: x :: (p ++ s) := List.prefix_append (x :: p) s
  rw [List.cons_append, occurrences_prefixed hhere, occurrences_append hx]

/-- What a text weighs when the pattern is replaced. -/
theorem weight_replaceAll (weight : α → Nat) (hx : x ∉ p) (s : List α) :
    ((replaceAll (x :: p) rep s).map weight).sum +
        occurrences (x :: p) s * ((x :: p).map weight).sum =
      (s.map weight).sum + occurrences (x :: p) s * (rep.map weight).sum := by
  induction s using replace_induction (List.cons_ne_nil x p) with
  | nil => simp [replaceAll, replaceFrom, occurrences]
  | self s ih =>
    rw [replaceAll_self (List.cons_ne_nil x p), occurrences_self hx, List.map_append,
      List.map_append, List.sum_append, List.sum_append, Nat.add_mul, Nat.add_mul]
    omega
  | cons c s hhere ih =>
    have hcons : ∀ t, ((c :: t).map weight).sum = weight c + (t.map weight).sum := fun t => by
      rw [List.map_cons, List.sum_cons]
    rw [replaceAll_cons hhere, occurrences_cons hhere, hcons, hcons]
    omega

/-- A pattern that begins in neither the text that is replaced nor the text that
replaces it occurs as often as before. -/
theorem occurrences_replaceAll (hq : x ∉ q)
    (hpat : ∀ s, occurrences (y :: q) (x :: p ++ s) = occurrences (y :: q) s)
    (hrep : ∀ s, occurrences (y :: q) (x :: r ++ s) = occurrences (y :: q) s) (s : List α) :
    occurrences (y :: q) (replaceAll (x :: p) (x :: r) s) = occurrences (y :: q) s := by
  induction s using replace_induction (List.cons_ne_nil x p) with
  | nil => rfl
  | self s ih => rw [replaceAll_self (List.cons_ne_nil x p), hrep, ih, hpat]
  | cons c s hhere ih =>
    have hiff : y :: q <+: c :: replaceAll (x :: p) (x :: r) s ↔ y :: q <+: c :: s := by
      rw [List.cons_prefix_cons, List.cons_prefix_cons, prefix_replaceAll_iff hq]
    rw [replaceAll_cons hhere]
    by_cases hbegins : y :: q <+: c :: s
    · rw [occurrences_prefixed (hiff.mpr hbegins), occurrences_prefixed hbegins, ih]
    · rw [occurrences_cons (mt hiff.mp hbegins), occurrences_cons hbegins, ih]

end Count

end TextMatch
