import Mathlib.Data.Fin.Basic
import Mathlib.Data.String.Basic
import Sysknife.Lib.Calendar

/-!
# SQLite's clock as text

The two texts the store makes of the current time: the timestamp it writes into
a row and the cutoff it compares that timestamp with. The formats differ in the
character after the date.
-/

namespace Sysknife

open Calendar

/-- Milliseconds since 1970-01-01T00:00:00Z, up to the end of the year 9999. -/
abbrev Clock := Fin 253402300800000

instance clock_neZero : NeZero 253402300800000 := ⟨by decide⟩

def millisPerSecond : Nat := 1000
def millisPerHour : Nat := 3600000
def millisPerDay : Nat := 86400000

/-- The lifetime of a preview, 15 minutes. -/
def previewTtl : Nat := 900000

/-- Milliseconds since the calendar's day 0. -/
def calendarMillis (now : Clock) : Nat := unixDay * millisPerDay + now.val

def dateText (millis : Nat) : List Char := (civil (millis / millisPerDay)).text

/-- `HH:MM:SS`, cut off at the second. -/
def timeText (millis : Nat) : List Char :=
  let ofDay := millis % millisPerDay
  digits 2 (ofDay / millisPerHour) ++ ':' :: (digits 2 (ofDay / 60000 % 60) ++
    ':' :: digits 2 (ofDay / millisPerSecond % 60))

/-- `datetime(...)` of a moment. -/
def datetimeText (millis : Nat) : String := String.ofList (dateText millis ++ ' ' :: timeText millis)

/-- `strftime('%Y-%m-%dT%H:%M:%fZ', 'now')`. -/
def createdAtText (now : Clock) : String :=
  let millis := calendarMillis now
  String.ofList (dateText millis ++ 'T' :: (timeText millis ++ '.' :: (digits 3 (millis % 1000) ++ ['Z'])))

/-- `datetime('now', '-15 minutes')`. -/
def cutoffText (now : Clock) : String := datetimeText (calendarMillis now - previewTtl)

/-- `created_at > datetime('now', '-' || hours || ' hours')`. A moment before
the calendar's day 0 is before every stored timestamp; before Julian day 0 the
date function gives NULL and the comparison selects nothing. -/
def createdWithinHours (now : Clock) (hours : Nat) (createdAt : String) : Bool :=
  let millis := calendarMillis now
  let span := hours * millisPerHour
  if span ≤ millis then decide (datetimeText (millis - span) < createdAt)
  else decide (span ≤ millis + 148704724800000)

example : createdAtText 1700000000123 = "2023-11-14T22:13:20.123Z" := by decide
example : cutoffText 1700000000123 = "2023-11-14 21:58:20" := by decide

/-- The calendar day of a clock value. -/
def dayOf (millis : Nat) : Nat := millis / millisPerDay

theorem four_digit_year (now : Clock) : (civil (dayOf (calendarMillis now))).year < 10000 := by
  have hday : dayOf (calendarMillis now) ≤ 3652364 := by
    have hlt := now.isLt
    simp only [dayOf, calendarMillis, unixDay, millisPerDay]
    omega
  have hlast : (civil 3652364).year = 9999 := by decide
  have hle := civil_year_le hday
  omega

theorem year_of_earlier (now : Clock) {day : Nat} (h : day ≤ dayOf (calendarMillis now)) :
    (civil day).year < 10000 :=
  (civil_year_le h).trans_lt (four_digit_year now)

/-- A row's timestamp is after the cutoff exactly when its date is not before
the date of the cutoff: on the same date the comparison is decided by the
character after the date, and `T` is after the blank. -/
theorem cutoff_lt_createdAt_iff (now created : Clock) :
    cutoffText now < createdAtText created ↔
      dayOf (calendarMillis now - previewTtl) ≤ dayOf (calendarMillis created) := by
  rw [String.lt_iff_toList_lt]
  simp only [cutoffText, datetimeText, createdAtText, String.toList_ofList]
  have hcut : dayOf (calendarMillis now - previewTtl) ≤ dayOf (calendarMillis now) :=
    Nat.div_le_div_right (Nat.sub_le _ _)
  have hlen : ∀ m n, (dateText m).length = (dateText n).length := by simp [dateText]
  rcases Nat.lt_trichotomy (dayOf (calendarMillis now - previewTtl))
    (dayOf (calendarMillis created)) with hlt | heq | hgt
  · have htext := text_civil_lt hlt (four_digit_year created)
    exact iff_of_true (append_lt_append htext (hlen _ _) _ _) hlt.le
  · have hdate : dateText (calendarMillis now - previewTtl) = dateText (calendarMillis created) := by
      unfold dayOf at heq
      rw [dateText, dateText, heq]
    refine iff_of_true ?_ heq.le
    rw [hdate]
    exact append_lt_append_left (cons_lt_cons_iff.mpr (Or.inl (by decide)))
  · have htext := text_civil_lt hgt (year_of_earlier now hcut)
    refine iff_of_false ?_ (Nat.not_le.mpr hgt)
    exact lt_asymm (append_lt_append htext (hlen _ _) _ _)

end Sysknife
