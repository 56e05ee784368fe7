import Mathlib.Tactic.IntervalCases
import Sysknife.Lib.Calendar

/-!
# Days by the rules of the calendar

The proleptic Gregorian calendar by its own rules: which years are leap years, how long
the months are, and how many days there are before a date. The day count from March and
its inverse are shown to follow these rules.
-/

namespace Calendar

def isLeap (year : Nat) : Bool := year % 4 == 0 && (year % 100 != 0 || year % 400 == 0)

def monthLength (year : Nat) : Nat → Nat
  | 2 => if isLeap year then 29 else 28
  | 4 | 6 | 9 | 11 => 30
  | _ => 31

/-- The days of a year before the first of a month. -/
def daysBeforeMonth (year month : Nat) : Nat :=
  ((List.range (month - 1)).map fun i => monthLength year (i + 1)).sum

/-- The days from 1 January of the year 0 to that of another year. -/
def daysBeforeYear : Nat → Nat
  | 0 => 0
  | year + 1 => daysBeforeYear year + daysBeforeMonth year 13

structure Date.Valid (d : Date) : Prop where
  month_pos : 1 ≤ d.month
  month_le : d.month ≤ 12
  day_pos : 1 ≤ d.day
  day_le : d.day ≤ monthLength d.year d.month

/-- The days from 1 January of the year 0 to a date. -/
def dayNumber (d : Date) : Nat :=
  daysBeforeYear d.year + daysBeforeMonth d.year d.month + (d.day - 1)

example : dayNumber ⟨4, 2, 29⟩ = 1520 := by decide

/-! ## Years -/

theorem isLeap_iff (year : Nat) :
    isLeap year = true ↔ year % 4 = 0 ∧ (year % 100 ≠ 0 ∨ year % 400 = 0) := by
  simp [isLeap]

theorem yearLength (year : Nat) : daysBeforeMonth year 13 = if isLeap year then 366 else 365 := by
  simp only [daysBeforeMonth, List.range, List.range.loop, monthLength]
  cases isLeap year <;> rfl

/-- Every fourth year is a leap year, but for the centuries, but for every fourth of them. -/
theorem leap_count (year : Nat) :
    (if isLeap year = true then 1 else 0) + (if year % 100 = 0 then 1 else 0) =
      (if year % 4 = 0 then 1 else 0) + (if year % 400 = 0 then 1 else 0) := by
  have hcentury : year % 100 = 0 → year % 4 = 0 := by omega
  have hera : year % 400 = 0 → year % 100 = 0 := by omega
  rw [if_congr (isLeap_iff year) rfl rfl]
  by_cases h4 : year % 4 = 0 <;> by_cases h100 : year % 100 = 0 <;>
    by_cases h400 : year % 400 = 0 <;> simp_all

/-- The multiples that are counted up to a year. -/
theorem multiples_succ (year : Nat) :
    (year + 1 + 3) / 4 = (year + 3) / 4 + (if year % 4 = 0 then 1 else 0) ∧
      (year + 1 + 99) / 100 = (year + 99) / 100 + (if year % 100 = 0 then 1 else 0) ∧
      (year + 1 + 399) / 400 = (year + 399) / 400 + (if year % 400 = 0 then 1 else 0) := by
  refine ⟨?_, ?_, ?_⟩ <;> split <;> omega

theorem daysBeforeYear_eq (year : Nat) :
    daysBeforeYear year + (year + 99) / 100 =
      365 * year + (year + 3) / 4 + (year + 399) / 400 := by
  induction year with
  | zero => rfl
  | succ year ih =>
    obtain ⟨hfour, hcentury, hera⟩ := multiples_succ year
    have hcount := leap_count year
    have hlength : daysBeforeMonth year 13 = 365 + (if isLeap year = true then 1 else 0) := by
      rw [yearLength]
      split <;> rfl
    rw [daysBeforeYear, hlength, hfour, hcentury, hera]
    omega

/-- The multiples up to a year, and those up to the year after it. -/
theorem multiples_past (year : Nat) :
    (year + 3) / 4 + (if year % 4 = 0 then 1 else 0) = year / 4 + 1 ∧
      (year + 99) / 100 + (if year % 100 = 0 then 1 else 0) = year / 100 + 1 ∧
      (year + 399) / 400 + (if year % 400 = 0 then 1 else 0) = year / 400 + 1 := by
  refine ⟨?_, ?_, ?_⟩ <;> split <;> omega

theorem monthLength_le (year month : Nat) : monthLength year month ≤ 31 := by
  unfold monthLength
  split
  · split <;> omega
  all_goals omega

/-! ## Months counted from March -/

/-- The months of a year from March on, January and February at its end. -/
def marchMonth (month : Nat) : Nat := if 2 < month then month - 3 else month + 9

/-- The days before a month, in a year that starts with January. -/
theorem daysBeforeMonth_eq (year : Nat) {month : Nat} (hpos : 1 ≤ month) (hle : month ≤ 12) :
    daysBeforeMonth year month + (if 2 < month then 0 else 306) =
      (153 * marchMonth month + 2) / 5 +
        if 2 < month then (if isLeap year then 60 else 59) else 0 := by
  unfold daysBeforeMonth marchMonth
  interval_cases month <;> simp [List.range, List.range.loop, monthLength] <;>
    split <;> rfl

/-- The year that a month belongs to when years start with March. -/
def yearFromMarch (d : Date) : Int := if 2 < d.month then d.year else d.year - 1

/-- The day count by years that start with March. -/
theorem dayNumber_eq {d : Date} (h : d.Valid) :
    (dayNumber d : Int) = 365 * yearFromMarch d + yearFromMarch d / 4 - yearFromMarch d / 100 +
      yearFromMarch d / 400 + ((153 * marchMonth d.month + 2) / 5 : Nat) + d.day + 59 := by
  have hyear := daysBeforeYear_eq d.year
  have hmonth := daysBeforeMonth_eq d.year h.month_pos h.month_le
  have hday := h.day_pos
  unfold dayNumber yearFromMarch
  generalize (153 * marchMonth d.month + 2) / 5 = months at hmonth ⊢
  by_cases hmarch : 2 < d.month
  · obtain ⟨hfour, hcentury, hera⟩ := multiples_past d.year
    have hcount := leap_count d.year
    have hfebruary : (if isLeap d.year = true then 60 else 59) =
        59 + (if isLeap d.year = true then 1 else 0) := by
      split <;> rfl
    rw [if_pos hmarch] at hmonth ⊢
    rw [if_pos hmarch, hfebruary] at hmonth
    omega
  · rw [if_neg hmarch] at hmonth ⊢
    rw [if_neg hmarch] at hmonth
    omega

/-- The last day of the year 9999 is day 3652424. -/
theorem dayNumber_lt {d : Date} (h : d.Valid) (hyear : d.year < 10000) : dayNumber d < 3652425 := by
  have hnumber := dayNumber_eq h
  have hmonth := h.month_le
  have hday := h.day_le.trans (monthLength_le _ _)
  unfold yearFromMarch marchMonth at hnumber
  split at hnumber <;> omega

/-! ## The date of a day -/

/-- The blocks that a day is in: of 400, 100, 4 and 1 years, and the day in the last one. -/
structure Blocks (n a c f y d : Nat) : Prop where
  day : n = 146097 * a + 36524 * c + 1461 * f + 365 * y + d
  year : marchYear n = (400 * a + 100 * c + 4 * f + y, d)
  centuries : c ≤ 3
  fours : f ≤ 24
  years : y ≤ 3
  days : d ≤ 365
  /-- A block is only full when it is the last of its kind. -/
  leap : d = 365 → y = 3 ∧ (f = 24 → c = 3)

theorem block_add (size last n : Nat) :
    n = size * (block size last n).1 + (block size last n).2 := by
  have hle : size * min (n / size) last ≤ n :=
    (Nat.mul_le_mul_left _ (Nat.min_le_left _ _)).trans (Nat.mul_div_le n size)
  simp only [block]
  omega

/-- A block that is not the last has `size` days. -/
theorem block_snd_lt_size {size last n : Nat} (hpos : 0 < size)
    (h : (block size last n).1 < last) : (block size last n).2 < size := by
  have hlt : n / size < last := by
    simp only [block] at h
    omega
  have hmod := Nat.mod_lt n hpos
  have hdm := Nat.div_add_mod n size
  simp only [block, Nat.min_eq_left hlt.le]
  omega

theorem exists_blocks (n : Nat) : ∃ a c f y d, Blocks n a c f y d := by
  have hdays := marchYear_day_le n
  have hera := Nat.div_add_mod n 146097
  have hlast := Nat.mod_lt n (show 0 < 146097 by decide)
  have hcentury := block_add 36524 3 (n % 146097)
  have hc := block_fst_le 36524 3 (n % 146097)
  have hfullCentury := @block_snd_lt_size 36524 3 (n % 146097) (by decide)
  have hyear : marchYear n = (400 * (n / 146097) + 100 * (block 36524 3 (n % 146097)).1 +
      4 * (block 1461 24 (block 36524 3 (n % 146097)).2).1 +
      (block 365 3 (block 1461 24 (block 36524 3 (n % 146097)).2).2).1,
      (block 365 3 (block 1461 24 (block 36524 3 (n % 146097)).2).2).2) := rfl
  rw [hyear] at hdays
  generalize block 36524 3 (n % 146097) = century at *
  have hfour := block_add 1461 24 century.2
  have hf := block_fst_le 1461 24 century.2
  have hfullFour := @block_snd_lt_size 1461 24 century.2 (by decide)
  generalize block 1461 24 century.2 = four at *
  have hsingle := block_add 365 3 four.2
  have hy := block_fst_le 365 3 four.2
  have hfullYear := @block_snd_lt_size 365 3 four.2 (by decide)
  generalize block 365 3 four.2 = single at *
  exact ⟨n / 146097, century.1, four.1, single.1, single.2, by omega, hyear, hc, hf, hy, hdays,
    by omega⟩

/-- The year behind a year of 366 days is a leap year: the day is its 29 February. -/
theorem Blocks.isLeap {n a c f y d : Nat} (h : Blocks n a c f y d) (hd : d = 365) :
    isLeap (400 * a + 100 * c + 4 * f + y + 1) = true := by
  obtain ⟨hy, hlast⟩ := h.leap hd
  have hf := h.fours
  have hc := h.centuries
  rw [isLeap_iff]
  omega

/-- A century is only full when it is the last. -/
theorem Blocks.century {n a c f y d : Nat} (h : Blocks n a c f y d) :
    1461 * f + (365 * y + d) ≤ 36524 ∧ (1461 * f + (365 * y + d) = 36524 → c = 3) := by
  have hf := h.fours
  have hy := h.years
  have hd := h.days
  refine ⟨by omega, fun hfull => ?_⟩
  have hlastDay : d = 365 := by omega
  have hlastFour : f = 24 := by omega
  exact (h.leap hlastDay).2 hlastFour

theorem civil_valid (n : Nat) : (civil n).Valid := by
  obtain ⟨a, c, f, y, d, h⟩ := exists_blocks n
  have hbounds := civil_bounds n
  refine ⟨hbounds.1, hbounds.2.1, hbounds.2.2.1, ?_⟩
  have hdays := h.days
  have hleap := h.isLeap
  simp only [civil, h.year]
  generalize 400 * a + 100 * c + 4 * f + y = year at hleap ⊢
  have hm : (5 * d + 2) / 153 ≤ 11 := by omega
  generalize hmonth : (5 * d + 2) / 153 = m at hm ⊢
  interval_cases m <;> simp [monthLength]
  all_goals try omega
  -- the last month is February
  by_cases hd : d = 365
  · rw [if_pos (hleap hd)]
    omega
  · split <;> omega

/-- The date of a day has as many days before it: day 0 is 1 March of the year 0. -/
theorem dayNumber_civil (n : Nat) : dayNumber (civil n) = n + 60 := by
  obtain ⟨a, c, f, y, d, h⟩ := exists_blocks n
  have hnumber := dayNumber_eq (civil_valid n)
  have hday := h.day
  have hc := h.centuries
  have hf := h.fours
  have hy := h.years
  have hdays := h.days
  have hmonth : yearFromMarch (civil n) = (400 * a + 100 * c + 4 * f + y : Nat) ∧
      (153 * marchMonth (civil n).month + 2) / 5 + (civil n).day = d + 1 := by
    simp only [civil, h.year, yearFromMarch, marchMonth]
    have hm : (5 * d + 2) / 153 ≤ 11 := by omega
    generalize hmonth : (5 * d + 2) / 153 = m at hm ⊢
    by_cases hmarch : m < 10
    · simp only [if_pos hmarch]
      rw [if_pos (by omega), if_pos (by omega)]
      omega
    · simp only [if_neg hmarch]
      rw [if_neg (by omega), if_neg (by omega)]
      omega
  obtain ⟨hyear, hmonth⟩ := hmonth
  rw [hyear] at hnumber
  omega

theorem dayNumber_unixDay : dayNumber ⟨1970, 1, 1⟩ = unixDay + 60 := by
  have hdate : civil unixDay = ⟨1970, 1, 1⟩ := by decide
  rw [← hdate, dayNumber_civil]

end Calendar
