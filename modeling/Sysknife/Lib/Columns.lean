import Mathlib.Tactic

/-!
# Columns between double separators

A text that is taken apart at each pair of a separator, from left to right. What is
left of a longer run of separators begins the next column.
-/

namespace Columns

variable {α : Type} {x : α}

/-! ## Joining -/

/-- The columns with a pair of `x` between them. -/
def joinPairs (x : α) : List (List α) → List α
  | [] => []
  | [column] => column
  | column :: next :: columns => column ++ x :: x :: joinPairs x (next :: columns)

/-- The first column goes on with `c`. -/
def consHead (c : α) : List (List α) → List (List α)
  | [] => [[c]]
  | column :: columns => (c :: column) :: columns

theorem joinPairs_cons (column : List α) {columns : List (List α)} (h : columns ≠ []) :
    joinPairs x (column :: columns) = column ++ x :: x :: joinPairs x columns := by
  cases columns with
  | nil => exact absurd rfl h
  | cons next columns => rfl

theorem joinPairs_consHead (c : α) (column : List α) (columns : List (List α)) :
    joinPairs x (consHead c (column :: columns)) = c :: joinPairs x (column :: columns) := by
  cases columns <;> rfl

theorem joinPairs_length {columns : List (List α)} (h : columns ≠ []) :
    (joinPairs x columns).length + 2 = (columns.map fun c => c.length + 2).sum := by
  induction columns with
  | nil => exact absurd rfl h
  | cons column columns ih =>
    cases columns with
    | nil => simp [joinPairs]
    | cons next columns =>
      have hrest := ih (List.cons_ne_nil _ _)
      rw [joinPairs_cons _ (List.cons_ne_nil _ _), List.map_cons, List.sum_cons, ← hrest]
      simp only [List.length_append, List.length_cons]
      omega

theorem mem_joinPairs {c : α} {columns : List (List α)} (h : c ∈ joinPairs x columns) :
    c = x ∨ ∃ column ∈ columns, c ∈ column := by
  fun_induction joinPairs x columns with
  | case1 => cases h
  | case2 column => exact Or.inr ⟨column, List.mem_singleton_self _, h⟩
  | case3 column next columns ih =>
    rcases List.mem_append.mp h with h | h
    · exact Or.inr ⟨column, List.mem_cons_self .., h⟩
    · rcases List.mem_cons.mp h with h | h
      · exact Or.inl h
      · rcases List.mem_cons.mp h with h | h
        · exact Or.inl h
        · rcases ih h with h | ⟨other, hother, h⟩
          · exact Or.inl h
          · exact Or.inr ⟨other, List.mem_cons_of_mem _ hother, h⟩

theorem mem_joinPairs_of_mem {c : α} {column : List α} {columns : List (List α)}
    (hcolumn : column ∈ columns) (h : c ∈ column) : c ∈ joinPairs x columns := by
  fun_induction joinPairs x columns with
  | case1 => cases hcolumn
  | case2 only => rwa [List.mem_singleton.mp hcolumn] at h
  | case3 first next columns ih =>
    rcases List.mem_cons.mp hcolumn with rfl | hcolumn
    · exact List.mem_append_left _ h
    · exact List.mem_append_right _ (List.mem_cons_of_mem _ (List.mem_cons_of_mem _ (ih hcolumn)))

/-- Leaving out an empty column makes the text shorter. -/
theorem joinPairs_shorter {columns : List (List α)} (h : [] ∈ columns)
    (hsome : (columns.filter fun c => !c.isEmpty) ≠ []) :
    (joinPairs x (columns.filter fun c => !c.isEmpty)).length + 2 ≤
      (joinPairs x columns).length := by
  have hsum : ∀ cs : List (List α), [] ∈ cs →
      ((cs.filter fun c => !c.isEmpty).map fun c => c.length + 2).sum + 2 ≤
        (cs.map fun c => c.length + 2).sum := by
    have hle : ∀ cs : List (List α),
        ((cs.filter fun c => !c.isEmpty).map fun c => c.length + 2).sum ≤
          (cs.map fun c => c.length + 2).sum := fun cs =>
      (List.filter_sublist.map _).sum_le_sum (fun _ _ => Nat.zero_le _)
    intro cs hcs
    induction cs with
    | nil => cases hcs
    | cons c cs ih =>
      cases c with
      | nil =>
        have hrest := hle cs
        simp only [List.filter_cons, List.isEmpty_nil, Bool.not_true, Bool.false_eq_true, if_false,
          List.map_cons, List.sum_cons, List.length_nil]
        omega
      | cons d c =>
        have hrest := ih ((List.mem_cons.mp hcs).resolve_left nofun)
        simp only [List.filter_cons, List.isEmpty_cons, Bool.not_false, if_true, List.map_cons,
          List.sum_cons]
        omega
  have hall := joinPairs_length (x := x) (List.ne_nil_of_mem h)
  have hkept := joinPairs_length (x := x) hsome
  have hshorter := hsum columns h
  omega

/-! ## Splitting -/

variable [DecidableEq α]

/-- The columns between the pairs of `x`. -/
def splitPairs (x : α) : List α → List (List α)
  | [] => [[]]
  | [c] => [[c]]
  | c :: d :: s =>
    if c = x ∧ d = x then [] :: splitPairs x s else consHead c (splitPairs x (d :: s))

/-- The columns with something in them. -/
def columns (x : α) (s : List α) : List (List α) := (splitPairs x s).filter fun c => !c.isEmpty

theorem splitPairs_pair (s : List α) : splitPairs x (x :: x :: s) = [] :: splitPairs x s := by
  rw [splitPairs, if_pos ⟨rfl, rfl⟩]

theorem splitPairs_cons {c d : α} (h : ¬(c = x ∧ d = x)) (s : List α) :
    splitPairs x (c :: d :: s) = consHead c (splitPairs x (d :: s)) := by
  rw [splitPairs, if_neg h]

theorem exists_splitPairs (s : List α) : ∃ column columns, splitPairs x s = column :: columns := by
  fun_induction splitPairs x s with
  | case1 => exact ⟨_, _, rfl⟩
  | case2 c => exact ⟨_, _, rfl⟩
  | case3 c d s h ih => exact ⟨_, _, rfl⟩
  | case4 c d s h ih =>
    obtain ⟨column, columns, heq⟩ := ih
    exact ⟨c :: column, columns, by rw [heq]; rfl⟩

/-- Joining undoes splitting. -/
theorem joinPairs_splitPairs (s : List α) : joinPairs x (splitPairs x s) = s := by
  fun_induction splitPairs x s with
  | case1 => rfl
  | case2 c => rfl
  | case3 c d s h ih =>
    obtain ⟨column, columns, heq⟩ := exists_splitPairs (x := x) s
    rw [joinPairs_cons _ (by rw [heq]; exact List.cons_ne_nil _ _), ih, h.1, h.2]
    rfl
  | case4 c d s h ih =>
    obtain ⟨column, columns, heq⟩ := exists_splitPairs (x := x) (d :: s)
    rw [heq] at ih ⊢
    rw [joinPairs_consHead, ih]

theorem head_prefix {s column : List α} {columns : List (List α)}
    (h : splitPairs x s = column :: columns) : column <+: s := by
  have hjoin := joinPairs_splitPairs (x := x) s
  rw [h] at hjoin
  cases columns with
  | nil => exact ⟨[], by rw [List.append_nil]; exact hjoin⟩
  | cons next columns =>
    rw [joinPairs_cons _ (List.cons_ne_nil _ _)] at hjoin
    exact ⟨_, hjoin⟩

/-- No column has a pair of separators in it. -/
theorem no_pair {s column : List α} (h : column ∈ splitPairs x s) : ¬ [x, x] <:+: column := by
  fun_induction splitPairs x s generalizing column with
  | case1 =>
    obtain rfl := List.mem_singleton.mp h
    exact fun hin => absurd hin.length_le (by simp)
  | case2 c =>
    obtain rfl := List.mem_singleton.mp h
    exact fun hin => absurd hin.length_le (by simp)
  | case3 c d s hboth ih =>
    rcases List.mem_cons.mp h with rfl | h
    · exact fun hin => absurd hin.length_le (by simp)
    · exact ih h
  | case4 c d s hboth ih =>
    obtain ⟨first, columns, heq⟩ := exists_splitPairs (x := x) (d :: s)
    rw [heq] at h ih
    rcases List.mem_cons.mp h with rfl | h
    · intro hin
      rcases List.infix_cons_iff.mp hin with ⟨post, hpre⟩ | hin
      · -- the second separator would be the first character behind
        rw [List.cons_append, List.cons_append, List.cons.injEq] at hpre
        obtain ⟨rest, hrest⟩ := head_prefix heq
        rw [← hpre.2, List.cons_append, List.cons.injEq] at hrest
        exact hboth ⟨hpre.1.symm, hrest.1.symm⟩
      · exact ih (List.mem_cons_self ..) hin
    · exact ih (List.mem_cons_of_mem _ h)

/-- A column and the pair behind it. -/
theorem splitPairs_append {w : List α} (hpair : ¬ [x, x] <:+: w) (hlast : w.getLast? ≠ some x)
    (s : List α) : splitPairs x (w ++ x :: x :: s) = w :: splitPairs x s := by
  induction w with
  | nil => exact splitPairs_pair s
  | cons c w ih =>
    cases w with
    | nil =>
      have hc : c ≠ x := by simpa using hlast
      rw [List.singleton_append, splitPairs_cons (fun hboth => hc hboth.1), splitPairs_pair]
      rfl
    | cons d w =>
      have hfirst : ¬(c = x ∧ d = x) := by
        rintro ⟨rfl, rfl⟩
        exact hpair (List.IsPrefix.isInfix ⟨w, rfl⟩)
      have hrest : ¬ [x, x] <:+: d :: w := fun hin => hpair (List.infix_cons hin)
      have hlast' : (d :: w).getLast? ≠ some x := by
        rwa [List.getLast?_cons_cons] at hlast
      rw [List.cons_append, List.cons_append, splitPairs_cons hfirst, ← List.cons_append,
        ih hrest hlast']
      rfl

/-- Two pairs in a row have an empty column between them. -/
theorem empty_of_run {s : List α} (h : [x, x, x, x] <:+: s) : [] ∈ (splitPairs x s).tail := by
  fun_induction splitPairs x s with
  | case1 => exact absurd h.length_le (by simp)
  | case2 c => exact absurd h.length_le (by simp)
  | case3 c d s hboth ih =>
    rw [List.tail_cons]
    obtain ⟨rfl, rfl⟩ := hboth
    rcases List.infix_cons_iff.mp h with ⟨post, hpre⟩ | h
    · simp only [List.cons_append, List.nil_append, List.cons.injEq, true_and] at hpre
      rw [← hpre, splitPairs_pair]
      exact List.mem_cons_self ..
    · rcases List.infix_cons_iff.mp h with ⟨post, hpre⟩ | h
      · simp only [List.cons_append, List.nil_append, List.cons.injEq, true_and] at hpre
        rw [← hpre, splitPairs_pair]
        exact List.mem_cons_self ..
      · exact List.mem_of_mem_tail (ih h)
  | case4 c d s hboth ih =>
    obtain ⟨first, columns, heq⟩ := exists_splitPairs (x := x) (d :: s)
    rcases List.infix_cons_iff.mp h with ⟨post, hpre⟩ | h
    · simp only [List.cons_append, List.cons.injEq] at hpre
      exact absurd ⟨hpre.1.symm, hpre.2.1.symm⟩ hboth
    · have hrest := ih h
      rw [heq] at hrest ⊢
      exact hrest

/-- Without two pairs in a row and a separator at the end, only the first column can be
empty. -/
theorem nonempty_columns {s : List α} (hs : s ≠ []) (hlast : s.getLast? ≠ some x)
    (hrun : ¬ [x, x, x, x] <:+: s) {column : List α} {columns : List (List α)}
    (h : splitPairs x s = column :: columns) :
    (¬ [x, x] <+: s → column ≠ []) ∧ ∀ c ∈ columns, c ≠ [] := by
  fun_induction splitPairs x s generalizing column columns with
  | case1 => exact absurd rfl hs
  | case2 c =>
    obtain ⟨rfl, rfl⟩ := List.cons.inj h
    exact ⟨fun _ => List.cons_ne_nil _ _, nofun⟩
  | case3 c d s hboth ih =>
    obtain ⟨rfl, rfl⟩ := List.cons.inj h
    obtain ⟨rfl, rfl⟩ := hboth
    refine ⟨fun hnot => absurd (List.prefix_append [d, d] s) hnot, ?_⟩
    obtain ⟨next, rest, heq⟩ := exists_splitPairs (x := d) s
    cases s with
    | nil => exact absurd rfl hlast
    | cons e s =>
      have hnotPair : ¬ [d, d] <+: e :: s := by
        rintro ⟨post, hpost⟩
        refine hrun (List.IsPrefix.isInfix ⟨post, ?_⟩)
        rw [← hpost]
        rfl
      have hinner := ih (List.cons_ne_nil e s) (by simpa using hlast)
        (fun hin => hrun (List.infix_cons (List.infix_cons hin))) heq
      rw [heq]
      exact List.forall_mem_cons.mpr ⟨hinner.1 hnotPair, hinner.2⟩
  | case4 c d s hboth ih =>
    obtain ⟨first, rest, heq⟩ := exists_splitPairs (x := x) (d :: s)
    have hinner := ih (List.cons_ne_nil d s) (by simpa using hlast)
      (fun hin => hrun (List.infix_cons hin)) heq
    rw [heq] at h
    obtain ⟨rfl, rfl⟩ := List.cons.inj h
    exact ⟨fun _ => List.cons_ne_nil _ _, hinner.2⟩

/-! ## The columns with something in them -/

theorem columns_pair (s : List α) : columns x (x :: x :: s) = columns x s := by
  rw [columns, splitPairs_pair]
  rfl

/-- Of the separators in front, an odd one is left. -/
theorem columns_replicate (k : Nat) (s : List α) :
    columns x (List.replicate k x ++ s) = columns x (List.replicate (k % 2) x ++ s) := by
  induction k using Nat.twoStepInduction with
  | zero => rfl
  | one => rfl
  | more k ih _ =>
    have hmod : (k + 2) % 2 = k % 2 := by omega
    rw [hmod, ← ih]
    exact columns_pair _

theorem columns_append {w : List α} (hne : w ≠ []) (hpair : ¬ [x, x] <:+: w)
    (hlast : w.getLast? ≠ some x) (s : List α) :
    columns x (w ++ x :: x :: s) = w :: columns x s := by
  have hkeep : (!w.isEmpty) = true := by simpa using hne
  rw [columns, splitPairs_append hpair hlast, List.filter_cons, if_pos hkeep]
  rfl

/-- A text without a separator at its ends, padded on both sides. -/
theorem columns_padded {w : List α} (hne : w ≠ []) (hpair : ¬ [x, x] <:+: w)
    (hhead : w.head? ≠ some x) (hlast : w.getLast? ≠ some x) (k j : Nat) (s : List α) :
    columns x (List.replicate k x ++ (w ++ (List.replicate j x ++ x :: x :: s))) =
      (List.replicate (k % 2) x ++ w) :: columns x (List.replicate j x ++ s) := by
  have hswap : List.replicate j x ++ x :: x :: s = x :: x :: (List.replicate j x ++ s) := by
    induction j with
    | zero => rfl
    | succ j ih => rw [List.replicate_succ, List.cons_append, ih]; rfl
  have hnone : ¬ [x, x] <:+: x :: w := by
    intro hin
    rcases List.infix_cons_iff.mp hin with ⟨post, hpre⟩ | hin
    · simp only [List.cons_append, List.nil_append, List.cons.injEq, true_and] at hpre
      rw [← hpre] at hhead
      exact hhead rfl
    · exact hpair hin
  have hodd : k % 2 = 0 ∨ k % 2 = 1 := by omega
  rw [columns_replicate, hswap, ← List.append_assoc]
  rcases hodd with hk | hk
  · rw [hk]
    exact columns_append hne hpair hlast _
  · rw [hk]
    refine columns_append (List.cons_ne_nil x w) hnone ?_ _
    obtain ⟨c, v, rfl⟩ := List.exists_cons_of_ne_nil hne
    have hcons : (x :: c :: v).getLast? ≠ some x := by
      rwa [List.getLast?_cons_cons]
    exact hcons

theorem columns_cons {c : α} (hc : c ≠ x) (s : List α) :
    ∃ w rest, columns x (c :: s) = (c :: w) :: rest := by
  cases s with
  | nil => exact ⟨[], [], rfl⟩
  | cons d s =>
    obtain ⟨first, rest, heq⟩ := exists_splitPairs (x := x) (d :: s)
    refine ⟨first, rest.filter fun c => !c.isEmpty, ?_⟩
    rw [columns, splitPairs_cons (fun hboth => hc hboth.1), heq]
    rfl

theorem no_pair_columns {s column : List α} (h : column ∈ columns x s) : ¬ [x, x] <:+: column :=
  no_pair (List.mem_of_mem_filter h)

theorem mem_of_mem_columns {c : α} {s column : List α} (hcolumn : column ∈ columns x s)
    (h : c ∈ column) : c ∈ s := by
  have hjoined := mem_joinPairs_of_mem (x := x) (List.mem_of_mem_filter hcolumn) h
  rwa [joinPairs_splitPairs] at hjoined

/-- Nothing is lost where no two pairs follow each other. -/
theorem joinPairs_columns {s : List α} (hs : s ≠ []) (hfirst : ¬ [x, x] <+: s)
    (hlast : s.getLast? ≠ some x) (hrun : ¬ [x, x, x, x] <:+: s) :
    joinPairs x (columns x s) = s := by
  obtain ⟨column, rest, heq⟩ := exists_splitPairs (x := x) s
  have hnone := nonempty_columns hs hlast hrun heq
  have hkept : columns x s = splitPairs x s := by
    rw [columns, List.filter_eq_self, heq]
    intro c hc
    rcases List.mem_cons.mp hc with rfl | hc
    · simpa using hnone.1 hfirst
    · simpa using hnone.2 c hc
  rw [hkept, joinPairs_splitPairs]

theorem joinPairs_columns_shorter {s : List α} (hrun : [x, x, x, x] <:+: s)
    (hsome : columns x s ≠ []) : (joinPairs x (columns x s)).length + 2 ≤ s.length := by
  have hempty : [] ∈ splitPairs x s := List.mem_of_mem_tail (empty_of_run hrun)
  have hshorter := joinPairs_shorter (x := x) hempty hsome
  rwa [joinPairs_splitPairs] at hshorter

end Columns
