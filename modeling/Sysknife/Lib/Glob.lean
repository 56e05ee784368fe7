import Mathlib.Data.List.Infix

/-!
# Shell-style patterns

A pattern is read once into tokens; a `*` stands for any text, a `?` for any one
character. Bracket expressions are not read as such.
-/

namespace Glob

inductive Token where
  | literal (c : Char)
  | anyChar
  | anySequence
  deriving DecidableEq, Repr

def parse : List Char → List Token
  | [] => []
  | '*' :: rest => .anySequence :: parse rest
  | '?' :: rest => .anyChar :: parse rest
  | '\\' :: c :: rest => .literal c :: parse rest
  | c :: rest => .literal c :: parse rest

def accepts : List Token → List Char → Bool
  | [], s => s.isEmpty
  | .literal c :: pattern, s =>
      match s with
      | [] => false
      | d :: rest => c == d && accepts pattern rest
  | .anyChar :: pattern, s =>
      match s with
      | [] => false
      | _ :: rest => accepts pattern rest
  | .anySequence :: pattern, s => s.tails.any (accepts pattern)

theorem accepts_anySequence_iff {pattern : List Token} {s : List Char} :
    accepts (.anySequence :: pattern) s = true ↔
      ∃ u t, s = u ++ t ∧ accepts pattern t = true := by
  simp only [accepts, List.any_eq_true, List.mem_tails]
  constructor
  · rintro ⟨t, ⟨u, hu⟩, ht⟩
    exact ⟨u, t, hu.symm, ht⟩
  · rintro ⟨u, t, rfl, ht⟩
    exact ⟨t, ⟨u, rfl⟩, ht⟩

/-- A pattern of one star accepts everything. -/
theorem accepts_star (s : List Char) : accepts [.anySequence] s = true :=
  accepts_anySequence_iff.mpr ⟨s, [], by simp, rfl⟩

/-- Literals match exactly themselves. -/
theorem accepts_literals_iff {w : List Char} {pattern : List Token} {s : List Char} :
    accepts (w.map .literal ++ pattern) s = true ↔
      ∃ t, s = w ++ t ∧ accepts pattern t = true := by
  induction w generalizing s with
  | nil => simp
  | cons c w ih =>
    cases s with
    | nil => simp [accepts]
    | cons d rest =>
      simp only [List.map_cons, List.cons_append, accepts, Bool.and_eq_true, beq_iff_eq, ih,
        List.cons.injEq]
      constructor
      · rintro ⟨rfl, t, rfl, ht⟩
        exact ⟨t, ⟨rfl, rfl⟩, ht⟩
      · rintro ⟨t, ⟨rfl, rfl⟩, ht⟩
        exact ⟨rfl, t, rfl, ht⟩

end Glob
