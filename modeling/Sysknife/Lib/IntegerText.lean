import Mathlib.Data.List.Basic
import Sysknife.Lib.Calendar

/-!
# Integers as text

The decimal texts that a parser of a fixed-width integer accepts: digits, at least one,
behind a sign or none, as long as the number is in range. Leading zeros do not count.
-/

namespace IntegerText

/-- The number that a text of digits stands for. -/
def value (s : List Char) : Nat := Nat.ofDigitChars 10 s 0

/-- Digits, and at least one. -/
def isDigits (s : List Char) : Bool := !s.isEmpty && s.all Char.isDigit

def parseDigits (s : List Char) : Option Nat := if isDigits s then some (value s) else none

/-- An unsigned integer of `bound` values; a plus may stand in front. -/
def parseUnsigned (bound : Nat) : List Char → Option Nat
  | '+' :: s => (parseDigits s).filter fun n => decide (n < bound)
  | s => (parseDigits s).filter fun n => decide (n < bound)

/-- A signed integer from `-bound` up to below `bound`. -/
def parseSigned (bound : Nat) : List Char → Option Int
  | '-' :: s => ((parseDigits s).filter fun n => decide (n ≤ bound)).map fun n : Nat => -(n : Int)
  | '+' :: s => ((parseDigits s).filter fun n => decide (n < bound)).map Int.ofNat
  | s => ((parseDigits s).filter fun n => decide (n < bound)).map Int.ofNat

example : parseSigned 128 "-0128".toList = some (-128) := by decide

/-! ## Digits -/

theorem isDigits_iff {s : List Char} :
    isDigits s = true ↔ s ≠ [] ∧ ∀ c ∈ s, c.isDigit = true := by
  rw [isDigits, Bool.and_eq_true, List.all_eq_true, Bool.not_eq_true', ← Bool.not_eq_true,
    List.isEmpty_iff]

theorem isDigits_toDigits (n : Nat) : isDigits (Nat.toDigits 10 n) = true := by
  refine isDigits_iff.mpr ⟨Nat.toDigits_ne_nil, fun c hc => ?_⟩
  exact Nat.isDigit_of_mem_toDigits (by decide) (by decide) hc

theorem value_toDigits (n : Nat) : value (Nat.toDigits 10 n) = n := Nat.ofDigitChars_ten_toDigits

/-- A number has no more digits than it is written with. -/
theorem value_lt {s : List Char} (h : s.all Char.isDigit = true) : value s < 10 ^ s.length := by
  induction s with
  | nil => decide
  | cons c s ih =>
    rw [List.all_cons, Bool.and_eq_true] at h
    have hrest := ih h.2
    have hdigit : c.toNat - '0'.toNat ≤ 9 := by
      have hrange := h.1
      simp only [Char.isDigit, Bool.and_eq_true, decide_eq_true_eq,
        UInt32.le_iff_toNat_le] at hrange
      have hlast : c.toNat ≤ 57 := hrange.2
      show c.toNat - 48 ≤ 9
      omega
    have hfirst : 10 ^ s.length * (c.toNat - '0'.toNat) ≤ 10 ^ s.length * 9 :=
      Nat.mul_le_mul_left _ hdigit
    rw [value] at hrest
    rw [value, Nat.ofDigitChars_cons, Nat.ofDigitChars_eq_ofDigitChars_zero, Nat.mul_zero,
      Nat.zero_add, List.length_cons, Nat.pow_succ]
    omega

/-- A sign is not a digit. -/
theorem parseUnsigned_of_digits {bound : Nat} {s : List Char} (h : isDigits s = true) :
    parseUnsigned bound s = if value s < bound then some (value s) else none := by
  have hplain : parseUnsigned bound s = (parseDigits s).filter fun n => decide (n < bound) := by
    cases s with
    | nil => rfl
    | cons c s =>
      have hc : c.isDigit = true := (isDigits_iff.mp h).2 c (List.mem_cons_self ..)
      have hplus : c ≠ '+' := by
        rintro rfl
        exact absurd hc (by decide)
      unfold parseUnsigned
      split
      · rename_i heq
        exact absurd (List.cons.inj heq).1 hplus
      · rfl
  rw [hplain, parseDigits, if_pos h, Option.filter_some]
  simp only [decide_eq_true_eq]

theorem parseUnsigned_toDigits {bound n : Nat} (h : n < bound) :
    parseUnsigned bound (Nat.toDigits 10 n) = some n := by
  rw [parseUnsigned_of_digits (isDigits_toDigits n), value_toDigits, if_pos h]

theorem parseDigits_some {s : List Char} {n : Nat} (h : parseDigits s = some n) :
    isDigits s = true ∧ value s = n := by
  rw [parseDigits] at h
  split_ifs at h with hdigits
  exact ⟨hdigits, Option.some.inj h⟩

/-- Nothing but digits and a sign is read. -/
theorem parseSigned_chars {bound : Nat} {s : List Char} {n : Int}
    (h : parseSigned bound s = some n) :
    ∀ c ∈ s, c.isDigit = true ∨ c = '-' ∨ c = '+' := by
  have hplain : ∀ {t : List Char} {p : Nat → Bool} {f : Nat → Int},
      ((parseDigits t).filter p).map f = some n → ∀ c ∈ t, c.isDigit = true := by
    intro t p f ht
    obtain ⟨m, hm, -⟩ := Option.map_eq_some_iff.mp ht
    exact (isDigits_iff.mp (parseDigits_some (Option.filter_eq_some_iff.mp hm).1).1).2
  unfold parseSigned at h
  split at h
  · intro c hc
    rcases List.mem_cons.mp hc with rfl | hc
    · exact Or.inr (Or.inl rfl)
    · exact Or.inl (hplain h c hc)
  · intro c hc
    rcases List.mem_cons.mp hc with rfl | hc
    · exact Or.inr (Or.inr rfl)
    · exact Or.inl (hplain h c hc)
  · exact fun c hc => Or.inl (hplain h c hc)

/-- Digits are read as what they stand for. -/
theorem parseSigned_of_digits {bound : Nat} {s : List Char} (h : isDigits s = true)
    (hvalue : value s < bound) : parseSigned bound s = some (value s : Int) := by
  have hhead : ∀ c t, s = c :: t → c ≠ '-' ∧ c ≠ '+' := by
    rintro c t rfl
    have hc : c.isDigit = true := (isDigits_iff.mp h).2 c (List.mem_cons_self ..)
    constructor <;> rintro rfl <;> exact absurd hc (by decide)
  unfold parseSigned
  split
  · exact absurd rfl (hhead _ _ rfl).1
  · exact absurd rfl (hhead _ _ rfl).2
  · rw [parseDigits, if_pos h, Option.filter_some, if_pos (decide_eq_true hvalue)]
    rfl

/-! ## Fixed width -/

theorem isDigits_digits {k : Nat} (hk : 0 < k) (n : Nat) :
    isDigits (Calendar.digits k n) = true := by
  have hall : ∀ c ∈ Calendar.digits k n, c.isDigit = true := by
    clear hk
    induction k with
    | zero => nofun
    | succ k ih =>
      rw [Calendar.digits, List.forall_mem_cons]
      refine ⟨?_, ih⟩
      rw [Calendar.digit, Nat.isDigit_digitChar]
      exact decide_eq_true (Nat.mod_lt _ (by decide))
  refine isDigits_iff.mpr ⟨?_, hall⟩
  rw [← List.length_pos_iff, Calendar.length_digits]
  exact hk

theorem value_digits (k n : Nat) : value (Calendar.digits k n) = n % 10 ^ k := by
  induction k with
  | zero => rw [Nat.pow_zero, Nat.mod_one]; rfl
  | succ k ih =>
    have hdigit : n / 10 ^ k % 10 < 10 := Nat.mod_lt _ (by decide)
    have hmod : n % 10 ^ (k + 1) = n % 10 ^ k + 10 ^ k * (n / 10 ^ k % 10) := Nat.mod_mul
    rw [value, Calendar.digits, Calendar.digit, Nat.ofDigitChars_cons_digitChar_of_lt_ten hdigit,
      Nat.ofDigitChars_eq_ofDigitChars_zero, Calendar.length_digits]
    rw [value] at ih
    rw [ih, hmod, Nat.mul_zero, Nat.zero_add, Nat.add_comm]

/-- The last digit behind the others. -/
theorem digits_succ (k n : Nat) :
    Calendar.digits (k + 1) n = Calendar.digits k (n / 10) ++ [Calendar.digit n] := by
  induction k with
  | zero => rw [Calendar.digits, Calendar.digits, Nat.pow_zero, Nat.div_one, Calendar.digits]; rfl
  | succ k ih =>
    have hfirst : n / 10 ^ (k + 1) = n / 10 / 10 ^ k := by
      rw [Nat.div_div_eq_div_mul, Nat.pow_succ, Nat.mul_comm]
    calc Calendar.digits (k + 2) n
        = Calendar.digit (n / 10 ^ (k + 1)) :: Calendar.digits (k + 1) n := rfl
      _ = Calendar.digit (n / 10 / 10 ^ k) ::
          (Calendar.digits k (n / 10) ++ [Calendar.digit n]) := by rw [hfirst, ih]
      _ = Calendar.digits (k + 1) (n / 10) ++ [Calendar.digit n] := rfl

/-- The digits of a number, with zeros in front up to a width. -/
def zeroPadded (width n : Nat) : List Char :=
  List.replicate (width - (Nat.toDigits 10 n).length) '0' ++ Nat.toDigits 10 n

theorem digits_zero (k : Nat) : Calendar.digits k 0 = List.replicate k '0' := by
  induction k with
  | zero => rfl
  | succ k ih => rw [Calendar.digits, ih, Nat.zero_div]; rfl

/-- A number that fits the width is written with its last digits. -/
theorem zeroPadded_eq {k n : Nat} (h : n < 10 ^ (k + 1)) :
    zeroPadded (k + 1) n = Calendar.digits (k + 1) n := by
  induction k generalizing n with
  | zero =>
    have hone : Nat.toDigits 10 n = [n.digitChar] := Nat.toDigits_of_lt_base (by simpa using h)
    rw [zeroPadded, hone, digits_succ, Calendar.digit, Nat.mod_eq_of_lt (by simpa using h)]
    rfl
  | succ k ih =>
    rw [digits_succ]
    by_cases hn : n < 10
    · have hone : Nat.toDigits 10 n = [n.digitChar] := Nat.toDigits_of_lt_base hn
      rw [zeroPadded, hone, Nat.div_eq_of_lt hn, digits_zero, Calendar.digit, Nat.mod_eq_of_lt hn]
      rfl
    · have hmore : Nat.toDigits 10 n = Nat.toDigits 10 (n / 10) ++ [(n % 10).digitChar] :=
        Nat.toDigits_of_base_le (by decide) (Nat.not_lt.mp hn)
      have hrest : n / 10 < 10 ^ (k + 1) := by
        rw [Nat.pow_succ] at h
        exact Nat.div_lt_of_lt_mul (by rwa [Nat.mul_comm])
      have hwidth : k + 1 + 1 - (Nat.toDigits 10 n).length =
          k + 1 - (Nat.toDigits 10 (n / 10)).length := by
        rw [hmore, List.length_append, List.length_singleton, Nat.add_sub_add_right]
      rw [← ih hrest, zeroPadded, hwidth, hmore, zeroPadded, List.append_assoc]
      rfl

end IntegerText
