import Mathlib.Algebra.Ring.Nat
import Mathlib.Data.List.Basic
import Mathlib.Data.List.Lex
import Mathlib.Data.Char
import Mathlib.Order.Basic

/-!
# Calendar dates as text

Days are counted from 1 March of the year 0 in the proleptic Gregorian
calendar, so that a leap day is the last day of its year. A date is written
`YYYY-MM-DD`, and dates compare as texts the way the days compare as numbers.
-/

namespace Calendar

/-! ## Decimal digits of fixed width -/

def digit (n : Nat) : Char := Nat.digitChar (n % 10)

/-- The last `k` decimal digits. -/
def digits : Nat → Nat → List Char
  | 0, _ => []
  | k + 1, n => digit (n / 10 ^ k) :: digits k n

@[simp] theorem length_digits (k n : Nat) : (digits k n).length = k := by
  induction k with
  | zero => rfl
  | succ k ih => simp [digits, ih]

theorem digit_lt : ∀ m < 10, ∀ n < 10, m < n → digit m < digit n := by decide

theorem cons_lt_cons_iff {a b : Char} {s t : List Char} :
    a :: s < b :: t ↔ a < b ∨ a = b ∧ s < t := List.cons_lt_cons_iff

/-- Texts of one length in front decide the order. -/
theorem append_lt_append {s t : List Char} (h : s < t) (hlen : s.length = t.length)
    (u v : List Char) : s ++ u < t ++ v := by
  induction s generalizing t with
  | nil =>
    cases t with
    | nil => exact absurd h (lt_irrefl _)
    | cons b t => simp at hlen
  | cons a s ih =>
    cases t with
    | nil => simp at hlen
    | cons b t =>
      rcases cons_lt_cons_iff.mp h with hab | ⟨hab, hst⟩
      · exact cons_lt_cons_iff.mpr (Or.inl hab)
      · exact cons_lt_cons_iff.mpr (Or.inr ⟨hab, ih hst (by simpa using hlen)⟩)

theorem append_lt_append_left {s u v : List Char} (h : u < v) : s ++ u < s ++ v := by
  induction s with
  | nil => exact h
  | cons a s ih => exact cons_lt_cons_iff.mpr (Or.inr ⟨rfl, ih⟩)

theorem digit_mod (n : Nat) : digit (n % 10) = digit n := by rw [digit, digit, Nat.mod_mod]

/-- Numbers that fit the width compare as their digits do. -/
theorem digits_lt {k m n : Nat} (h : m % 10 ^ k < n % 10 ^ k) : digits k m < digits k n := by
  induction k with
  | zero => simp [Nat.mod_one] at h
  | succ k ih =>
    have hpos : 0 < 10 ^ k := Nat.pow_pos (by decide)
    have hm : m % 10 ^ (k + 1) = m % 10 ^ k + 10 ^ k * (m / 10 ^ k % 10) := Nat.mod_mul
    have hn : n % 10 ^ (k + 1) = n % 10 ^ k + 10 ^ k * (n / 10 ^ k % 10) := Nat.mod_mul
    have hmk := Nat.mod_lt m hpos
    have hnk := Nat.mod_lt n hpos
    rw [hm, hn] at h
    rcases Nat.lt_trichotomy (m / 10 ^ k % 10) (n / 10 ^ k % 10) with hlt | heq | hgt
    · apply cons_lt_cons_iff.mpr
      left
      have hd := digit_lt _ (Nat.mod_lt _ (by decide)) _ (Nat.mod_lt _ (by decide)) hlt
      rwa [digit_mod, digit_mod] at hd
    · apply cons_lt_cons_iff.mpr
      right
      refine ⟨by rw [← digit_mod, heq, digit_mod], ih ?_⟩
      rw [heq] at h
      omega
    · have hmul := Nat.mul_le_mul_left (10 ^ k) (Nat.succ_le_of_lt hgt)
      rw [Nat.mul_succ] at hmul
      omega

/-! ## Dates -/

structure Date where
  year : Nat
  month : Nat
  day : Nat
  deriving DecidableEq

/-- Chronological order. -/
def Date.Before (a b : Date) : Prop :=
  a.year < b.year ∨ a.year = b.year ∧ (a.month < b.month ∨ a.month = b.month ∧ a.day < b.day)

/-- The block of `size` days that `n` is in, and the day in that block. Only the
last of the blocks `0, …, last` may be longer. -/
def block (size last n : Nat) : Nat × Nat :=
  (min (n / size) last, n - size * min (n / size) last)

/-- A day as its year, counted from March, and its day in that year: blocks of
400, 100, 4 and 1 years, of which the last of each kind may be a day longer. -/
def marchYear (n : Nat) : Nat × Nat :=
  let century := block 36524 3 (n % 146097)
  let four := block 1461 24 century.2
  let single := block 365 3 four.2
  (400 * (n / 146097) + 100 * century.1 + 4 * four.1 + single.1, single.2)

/-- The calendar date of a day. -/
def civil (n : Nat) : Date :=
  let (y, dayOfYear) := marchYear n
  let m := (5 * dayOfYear + 2) / 153
  { year := if m < 10 then y else y + 1
    month := if m < 10 then m + 3 else m - 9
    day := dayOfYear - (153 * m + 2) / 5 + 1 }

theorem block_fst_le (size last n : Nat) : (block size last n).1 ≤ last := Nat.min_le_right _ _

/-- A later day is in a later block, or later in the same block. -/
theorem block_lt (size last : Nat) {m n : Nat} (h : m < n) :
    (block size last m).1 < (block size last n).1 ∨
      (block size last m).1 = (block size last n).1 ∧
        (block size last m).2 < (block size last n).2 := by
  have hdiv : m / size ≤ n / size := Nat.div_le_div_right h.le
  have hmul : size * min (m / size) last ≤ m :=
    (Nat.mul_le_mul_left _ (Nat.min_le_left _ _)).trans (Nat.mul_div_le m size)
  simp only [block]
  rcases Nat.lt_or_ge (min (m / size) last) (min (n / size) last) with hlt | hge
  · exact Or.inl hlt
  · have heq : min (m / size) last = min (n / size) last := by omega
    refine Or.inr ⟨heq, ?_⟩
    rw [← heq]
    omega

/-- Every block but the last has `size` days. -/
theorem block_snd_lt {size last n : Nat} (limit : Nat) (hpos : 0 < size) (hsize : size ≤ limit)
    (hn : n < size * last + limit) : (block size last n).2 < limit := by
  simp only [block]
  rcases Nat.lt_or_ge (n / size) last with hlt | hge
  · have hmod := Nat.mod_lt n hpos
    have hdm := Nat.div_add_mod n size
    rw [Nat.min_eq_left hlt.le]
    omega
  · rw [Nat.min_eq_right hge]
    omega

theorem marchYear_day_le (n : Nat) : (marchYear n).2 ≤ 365 := by
  have hera : n % 146097 < 36524 * 3 + 36525 := Nat.mod_lt n (by decide)
  have hcentury := block_snd_lt 36525 (by decide) (by decide) hera
  have hfour := block_snd_lt 1461 (by decide) (by decide)
    (show (block 36524 3 (n % 146097)).2 < 1461 * 24 + 1461 from hcentury)
  have hsingle := block_snd_lt 366 (by decide) (by decide)
    (show (block 1461 24 _).2 < 365 * 3 + 366 from hfour)
  exact Nat.le_of_lt_succ hsingle

/-- A later day is in a later year, or later in the same year. -/
theorem marchYear_lt {m n : Nat} (h : m < n) :
    (marchYear m).1 < (marchYear n).1 ∨
      (marchYear m).1 = (marchYear n).1 ∧ (marchYear m).2 < (marchYear n).2 := by
  have hera : m / 146097 < n / 146097 ∨
      m / 146097 = n / 146097 ∧ m % 146097 < n % 146097 := by omega
  have hcentury := fun h => block_lt 36524 3 (m := m % 146097) (n := n % 146097) h
  simp only [marchYear]
  generalize m / 146097 = a at hera ⊢
  generalize n / 146097 = a' at hera ⊢
  generalize m % 146097 = u at *
  generalize n % 146097 = u' at *
  have hfour := fun h => block_lt 1461 24 (m := (block 36524 3 u).2) (n := (block 36524 3 u').2) h
  have hb := block_fst_le 36524 3 u
  have hb' := block_fst_le 36524 3 u'
  generalize block 36524 3 u = b at *
  generalize block 36524 3 u' = b' at *
  have hsingle := fun h => block_lt 365 3 (m := (block 1461 24 b.2).2)
    (n := (block 1461 24 b'.2).2) h
  have hc := block_fst_le 1461 24 b.2
  have hc' := block_fst_le 1461 24 b'.2
  generalize block 1461 24 b.2 = c at *
  generalize block 1461 24 b'.2 = c' at *
  have hd := block_fst_le 365 3 c.2
  have hd' := block_fst_le 365 3 c'.2
  rcases hera with hlt | ⟨rfl, hlt⟩
  · omega
  rcases hcentury hlt with hlt | ⟨heq, hlt⟩
  · omega
  rcases hfour hlt with hlt | ⟨heq', hlt⟩
  · omega
  rcases hsingle hlt with hlt | ⟨heq'', hlt⟩
  · omega
  · exact Or.inr ⟨by omega, hlt⟩

theorem civil_bounds (n : Nat) :
    1 ≤ (civil n).month ∧ (civil n).month ≤ 12 ∧ 1 ≤ (civil n).day ∧ (civil n).day ≤ 31 := by
  have hd := marchYear_day_le n
  simp only [civil]
  split <;> omega

theorem civil_before {m n : Nat} (h : m < n) : (civil m).Before (civil n) := by
  have hlt := marchYear_lt h
  have hm := marchYear_day_le m
  have hn := marchYear_day_le n
  simp only [civil, Date.Before]
  generalize marchYear m = a at hlt hm ⊢
  generalize marchYear n = b at hlt hn ⊢
  obtain ⟨y, d⟩ := a
  obtain ⟨y', d'⟩ := b
  simp only at hlt hm hn ⊢
  split <;> split <;> omega

theorem civil_year_le {m n : Nat} (h : m ≤ n) : (civil m).year ≤ (civil n).year := by
  rcases Nat.lt_or_eq_of_le h with h | rfl
  · have hb := civil_before h
    unfold Date.Before at hb
    omega
  · exact Nat.le_refl _

/-! ## Dates as text -/

/-- `YYYY-MM-DD`. -/
def Date.text (d : Date) : List Char :=
  digits 4 d.year ++ '-' :: (digits 2 d.month ++ '-' :: digits 2 d.day)

@[simp] theorem Date.length_text (d : Date) : d.text.length = 10 := by simp [Date.text]

theorem Date.text_lt {a b : Date} (h : a.Before b) (hyear : b.year < 10000)
    (ham : a.month < 100) (hbm : b.month < 100) (had : a.day < 100) (hbd : b.day < 100) :
    a.text < b.text := by
  have haty : a.year < 10000 := by
    unfold Date.Before at h
    omega
  rcases h with hy | ⟨hy, hm | ⟨hm, hd⟩⟩
  · have hlt : digits 4 a.year < digits 4 b.year := by
      apply digits_lt
      rw [Nat.mod_eq_of_lt (show a.year < 10 ^ 4 from haty),
        Nat.mod_eq_of_lt (show b.year < 10 ^ 4 from hyear)]
      exact hy
    exact append_lt_append hlt (by simp) _ _
  · have hlt : digits 2 a.month < digits 2 b.month := by
      apply digits_lt
      rw [Nat.mod_eq_of_lt (show a.month < 10 ^ 2 from ham),
        Nat.mod_eq_of_lt (show b.month < 10 ^ 2 from hbm)]
      exact hm
    rw [Date.text, Date.text, hy]
    apply append_lt_append_left
    exact cons_lt_cons_iff.mpr (Or.inr ⟨rfl, append_lt_append hlt (by simp) _ _⟩)
  · have hlt : digits 2 a.day < digits 2 b.day := by
      apply digits_lt
      rw [Nat.mod_eq_of_lt (show a.day < 10 ^ 2 from had),
        Nat.mod_eq_of_lt (show b.day < 10 ^ 2 from hbd)]
      exact hd
    rw [Date.text, Date.text, hy, hm]
    apply append_lt_append_left
    refine cons_lt_cons_iff.mpr (Or.inr ⟨rfl, ?_⟩)
    apply append_lt_append_left
    exact cons_lt_cons_iff.mpr (Or.inr ⟨rfl, hlt⟩)

/-- Within the four-digit years, date texts are in the order of the days. -/
theorem text_civil_lt {m n : Nat} (h : m < n) (hyear : (civil n).year < 10000) :
    (civil m).text < (civil n).text := by
  have hm := civil_bounds m
  have hn := civil_bounds n
  exact Date.text_lt (civil_before h) hyear (by omega) (by omega) (by omega) (by omega)

/-- 1 January 1970. -/
def unixDay : Nat := 719468

example : civil unixDay = ⟨1970, 1, 1⟩ := by decide
example : civil (unixDay + 19782) = ⟨2024, 2, 29⟩ := by decide

end Calendar
