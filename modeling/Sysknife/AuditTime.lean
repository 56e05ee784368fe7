import Mathlib.Data.String.Basic
import Sysknife.UnixTime

/-!
# Timestamps of the audit log

`format_rfc3339`: the date of a day by arithmetic on the year of the era. It is the date
that the calendar gives the day, so the command line reads a timestamp of the log as the
second that it was made of, and timestamps are in the order of their seconds.
-/

namespace Sysknife

open Calendar IntegerText

/-! ## The text of a second -/

/-- The day of the epoch and the days behind it; `z` is not negative. -/
def civilFromDays (days : Nat) : Date :=
  let z := days + 719468
  let era := z / 146097
  let doe := z - era * 146097
  let yoe := (doe - doe / 1460 + doe / 36524 - doe / 146096) / 365
  let y := yoe + era * 400
  let doy := doe - (365 * yoe + yoe / 4 - yoe / 100)
  let mp := (5 * doy + 2) / 153
  let d := doy - (153 * mp + 2) / 5 + 1
  let m := if mp < 10 then mp + 3 else mp - 9
  let y := if m ≤ 2 then y + 1 else y
  ⟨y, m, d⟩

/-- The seconds since the epoch; a clock before it counts as the epoch. -/
def formatRfc3339 (t : Int) : String :=
  let secs := t.toNat
  let date := civilFromDays (secs / 86400)
  let timeOfDay := secs % 86400
  String.ofList (zeroPadded 4 date.year ++ '-' :: (zeroPadded 2 date.month ++
    '-' :: (zeroPadded 2 date.day ++ 'T' :: (zeroPadded 2 (timeOfDay / 3600) ++
      ':' :: (zeroPadded 2 (timeOfDay % 3600 / 60) ++ ':' :: (zeroPadded 2 (timeOfDay % 60) ++
        ['Z']))))))

/-- The first second behind 9999-12-31. -/
def endOfYears : Int := 253402300800

example : formatRfc3339 951782400 = "2000-02-29T00:00:00Z" := by decide

/-! ## The date -/

/-- Only the last day of an era counts as a fifth century. -/
theorem century_of_era {c r : Nat} (hc : c ≤ 3) (hr : r ≤ 36524) (hfull : r = 36524 → c = 3) :
    (36524 * c + r) / 36524 = c + (36524 * c + r) / 146096 := by
  by_cases hlast : r = 36524
  · obtain rfl := hfull hlast
    subst hlast
    rfl
  · have hfirst : (36524 * c + r) / 36524 = c := by omega
    have hnone : (36524 * c + r) / 146096 = 0 := by omega
    rw [hfirst, hnone, Nat.add_zero]

/-- Leap days by four years of 365 days, a last one perhaps. -/
theorem fours_of_era (c f r : Nat) :
    (36524 * c + 1461 * f + r) / 1460 = 25 * c + f + (24 * c + f + r) / 1460 := by
  have hsum : 36524 * c + 1461 * f + r = 1460 * (25 * c + f) + (24 * c + f + r) := by omega
  rw [hsum, Nat.mul_add_div (by decide)]

/-- The last leap day is at the end of its year. -/
theorem year_of_four {c f y d : Nat} (hc : c ≤ 3) (hf : f ≤ 24) (hy : y ≤ 3) (hd : d ≤ 365)
    (hleap : d = 365 → y = 3) :
    (1460 * f + (365 * y + d) - (24 * c + f + (365 * y + d)) / 1460) / 365 = 4 * f + y := by
  by_cases hlast : 1460 ≤ 24 * c + f + (365 * y + d)
  · have hone : (24 * c + f + (365 * y + d)) / 1460 = 1 := by omega
    rw [hone]
    omega
  · have hnone : (24 * c + f + (365 * y + d)) / 1460 = 0 := by omega
    rw [hnone]
    omega

/-- The year of the era is the one that the blocks give. -/
theorem yearOfEra_eq {n a c f y d doe : Nat} (h : Blocks n a c f y d)
    (hdoe : doe = 36524 * c + 1461 * f + (365 * y + d)) :
    (doe - doe / 1460 + doe / 36524 - doe / 146096) / 365 = 100 * c + 4 * f + y := by
  have hy := h.years
  have hd := h.days
  have hf := h.fours
  have hcentury : doe / 36524 = c + doe / 146096 := by
    rw [hdoe, Nat.add_assoc]
    exact century_of_era h.centuries h.century.1 h.century.2
  have hfours : doe / 1460 = 25 * c + f + (24 * c + f + (365 * y + d)) / 1460 := by
    rw [hdoe]
    exact fours_of_era c f (365 * y + d)
  have hyear := year_of_four h.centuries hf hy hd fun hfull => (h.leap hfull).1
  generalize (24 * c + f + (365 * y + d)) / 1460 = ahead at hfours hyear
  have hahead : doe - doe / 1460 + doe / 36524 - doe / 146096 =
      365 * (100 * c) + (1460 * f + (365 * y + d) - ahead) := by
    clear hyear hd hy hf
    omega
  rw [hahead, Nat.mul_add_div (by decide), hyear, Nat.add_assoc]

theorem civilFromDays_eq (days : Nat) : civilFromDays days = civil (days + 719468) := by
  obtain ⟨a, c, f, y, d, h⟩ := exists_blocks (days + 719468)
  have hcentury := h.century.1
  have hc := h.centuries
  have hf := h.fours
  have hy := h.years
  have hd := h.days
  have hsplit : days + 719468 = 146097 * a + (36524 * c + 1461 * f + (365 * y + d)) := by
    rw [h.day]
    omega
  have hrest : 36524 * c + 1461 * f + (365 * y + d) < 146097 := by omega
  have hera : (days + 719468) / 146097 = a := by
    rw [hsplit, Nat.mul_add_div (by decide), Nat.div_eq_of_lt hrest, Nat.add_zero]
  have hdoe : days + 719468 - a * 146097 = 36524 * c + 1461 * f + (365 * y + d) := by
    rw [hsplit, Nat.mul_comm a, Nat.add_sub_cancel_left]
  have hdoy : 36524 * c + 1461 * f + (365 * y + d) - (365 * (100 * c + 4 * f + y) +
      (100 * c + 4 * f + y) / 4 - (100 * c + 4 * f + y) / 100) = d := by
    have hfour : (100 * c + 4 * f + y) / 4 = 25 * c + f := by omega
    have hhundred : (100 * c + 4 * f + y) / 100 = c := by omega
    rw [hfour, hhundred]
    omega
  simp only [civilFromDays, civil, h.year, hera, hdoe, yearOfEra_eq h rfl, hdoy]
  generalize hmonth : (5 * d + 2) / 153 = mp
  have hmp : mp ≤ 11 := by omega
  by_cases hmarch : mp < 10
  · rw [if_pos hmarch, if_pos hmarch, if_neg (by omega)]
    congr 1
    omega
  · rw [if_neg hmarch, if_neg hmarch, if_pos (by omega)]
    congr 1
    omega

/-! ## The instant -/

/-- `hh:mm:ss`. -/
def clockText (timeOfDay : Nat) : List Char :=
  digits 2 (timeOfDay / 3600) ++
    ':' :: (digits 2 (timeOfDay % 3600 / 60) ++ ':' :: digits 2 (timeOfDay % 60))

/-- The instant of a second up to the year 9999. -/
def instantOf (t : Int) (h : t < endOfYears) : Instant where
  date := civil (t.toNat / 86400 + 719468)
  hour := t.toNat % 86400 / 3600
  minute := t.toNat % 86400 % 3600 / 60
  second := t.toNat % 86400 % 60
  valid := civil_valid _
  year_lt := by
    have hday : t.toNat / 86400 + 719468 ≤ 3652364 := by
      unfold endOfYears at h
      omega
    have hlast : (civil 3652364).year = 9999 := by decide
    have hle := civil_year_le hday
    omega
  hour_le := by omega
  minute_le := by omega
  second_le := by omega

theorem instantOf_text (t : Int) (h : t < endOfYears) :
    (instantOf t h).text =
      (civil (t.toNat / 86400 + 719468)).text ++ 'T' :: clockText (t.toNat % 86400) := rfl

theorem instantOf_unix {t : Int} (hpos : 0 ≤ t) (h : t < endOfYears) :
    (instantOf t h).unix = t := by
  have hnumber := dayNumber_civil (t.toNat / 86400 + 719468)
  have hepoch : dayNumber ⟨1970, 1, 1⟩ = 719528 := dayNumber_unixDay
  unfold Instant.unix instantOf
  rw [hnumber, hepoch]
  dsimp only
  omega

theorem formatRfc3339_text (t : Int) (h : t < endOfYears) :
    formatRfc3339 t = String.ofList ((instantOf t h).text ++ ['Z']) := by
  have hyear : zeroPadded 4 (instantOf t h).date.year = digits 4 (instantOf t h).date.year :=
    zeroPadded_eq (instantOf t h).year_lt
  have hmonth : zeroPadded 2 (instantOf t h).date.month = digits 2 (instantOf t h).date.month :=
    zeroPadded_eq (instantOf t h).month_lt
  have hday : zeroPadded 2 (instantOf t h).date.day = digits 2 (instantOf t h).date.day :=
    zeroPadded_eq ((instantOf t h).day_le.trans_lt (by decide))
  have hhour : zeroPadded 2 (instantOf t h).hour = digits 2 (instantOf t h).hour :=
    zeroPadded_eq ((instantOf t h).hour_le.trans_lt (by decide))
  have hminute : zeroPadded 2 (instantOf t h).minute = digits 2 (instantOf t h).minute :=
    zeroPadded_eq ((instantOf t h).minute_le.trans_lt (by decide))
  have hsecond : zeroPadded 2 (instantOf t h).second = digits 2 (instantOf t h).second :=
    zeroPadded_eq ((instantOf t h).second_le.trans_lt (by decide))
  have hdate : civilFromDays (t.toNat / 86400) = (instantOf t h).date := civilFromDays_eq _
  calc formatRfc3339 t
      = String.ofList (zeroPadded 4 (instantOf t h).date.year ++
          '-' :: (zeroPadded 2 (instantOf t h).date.month ++
          '-' :: (zeroPadded 2 (instantOf t h).date.day ++
          'T' :: (zeroPadded 2 (instantOf t h).hour ++
          ':' :: (zeroPadded 2 (instantOf t h).minute ++
          ':' :: (zeroPadded 2 (instantOf t h).second ++ ['Z'])))))) := by
        rw [formatRfc3339, hdate]
        rfl
    _ = String.ofList ((instantOf t h).text ++ ['Z']) := by
        rw [hyear, hmonth, hday, hhour, hminute, hsecond]
        simp [Instant.text, Date.text]

theorem formatRfc3339_denotes (t : Int) (h : t < endOfYears) :
    Denotes (formatRfc3339 t).toList (instantOf t h) := by
  refine ⟨[], Or.inl rfl, ['Z'], by decide, ?_⟩
  rw [formatRfc3339_text t h, String.toList_ofList, List.append_nil]

/-! ## Order -/

/-- Times of one day are in the order of their texts. -/
theorem clockText_lt {a b : Nat} (h : a < b) (hb : b < 86400) : clockText a < clockText b := by
  have hpair : ∀ {m n : Nat}, m < n → n < 100 → digits 2 m < digits 2 n := by
    intro m n hmn hn
    refine digits_lt ?_
    rw [Nat.mod_eq_of_lt (show m < 10 ^ 2 by omega), Nat.mod_eq_of_lt (show n < 10 ^ 2 from hn)]
    exact hmn
  unfold clockText
  rcases Nat.lt_trichotomy (a / 3600) (b / 3600) with hlt | heq | hgt
  · exact append_lt_append (hpair hlt (by omega)) (by simp) _ _
  · rw [heq]
    refine append_lt_append_left (cons_lt_cons_iff.mpr (Or.inr ⟨rfl, ?_⟩))
    rcases Nat.lt_trichotomy (a % 3600 / 60) (b % 3600 / 60) with hlt | heq' | hgt
    · exact append_lt_append (hpair hlt (by omega)) (by simp) _ _
    · rw [heq']
      refine append_lt_append_left (cons_lt_cons_iff.mpr (Or.inr ⟨rfl, ?_⟩))
      exact hpair (by omega) (by omega)
    · omega
  · omega

theorem instantOf_text_lt {t u : Int} (hpos : 0 ≤ t) (h : t < u) (hu : u < endOfYears) :
    (instantOf t (h.trans hu)).text < (instantOf u hu).text := by
  rw [instantOf_text, instantOf_text]
  have hnat : t.toNat < u.toNat := by omega
  rcases Nat.lt_or_eq_of_le (Nat.div_le_div_right (c := 86400) hnat.le) with hlt | heq
  · have hyear := (instantOf u hu).year_lt
    exact append_lt_append (text_civil_lt (Nat.add_lt_add_right hlt 719468) hyear) (by simp) _ _
  · rw [heq]
    refine append_lt_append_left (cons_lt_cons_iff.mpr (Or.inr ⟨rfl, ?_⟩))
    exact clockText_lt (by omega) (Nat.mod_lt _ (by decide))

/-- From 1970 to 9999 a timestamp of the log is read as its second, and timestamps are in the
order of their seconds. -/
theorem formatRfc3339_inverse_mono :
    (∀ t, 0 ≤ t → t < endOfYears →
        rfc3339ToUnix (formatRfc3339 t).toList = .ok (some t)) ∧
      ∀ t u, 0 ≤ t → t < u → u < endOfYears → formatRfc3339 t < formatRfc3339 u := by
  constructor
  · intro t hpos h
    rw [rfc3339ToUnix_denoted (formatRfc3339_denotes t h), instantOf_unix hpos h]
  · intro t u hpos h hu
    rw [formatRfc3339_text t (h.trans hu), formatRfc3339_text u hu, String.lt_iff_toList_lt,
      String.toList_ofList, String.toList_ofList]
    exact append_lt_append (instantOf_text_lt hpos h hu) (by simp [Instant.text]) _ _

theorem formatRfc3339_inverse_mono_2000 :
    rfc3339ToUnix (formatRfc3339 951782400).toList = .ok (some 951782400) ∧
      formatRfc3339 951782399 < formatRfc3339 951782400 :=
  ⟨formatRfc3339_inverse_mono.1 _ (by decide) (by decide),
    formatRfc3339_inverse_mono.2 _ _ (by decide) (by decide) (by decide)⟩

end Sysknife
