import Sysknife.FreeText
import Sysknife.Lib.DayCount
import Sysknife.Lib.IntegerText
import Sysknife.TextSplit

/-!
# UTC timestamps on the command line

`rfc3339_to_unix`: a timestamp in text and the second that it is. The text of a field is
read as a signed integer of 64 bits, so that more is accepted than timestamps are written
with, and the arithmetic behind it may leave its range.
-/

namespace Sysknife

open Calendar IntegerText

/-! ## Numbers -/

def parseI64 (s : List Char) : Option Int := parseSigned (2 ^ 63) s

/-- Three numbers with `c` between them, and nothing behind. -/
def threeNumbers (c : Char) (s : List Char) : Option (Int × Int × Int) :=
  match splitn 4 c s with
  | [a, b, d] => do
    let x ← parseI64 a
    let y ← parseI64 b
    let z ← parseI64 d
    some (x, y, z)
  | _ => none

/-! ## Seconds -/

/-- An `i64` operation has left the range. -/
inductive Overflow where
  | i64
  deriving DecidableEq

def i64 (n : Int) : Except Overflow Int :=
  if -(2 ^ 63) ≤ n ∧ n < 2 ^ 63 then .ok n else .error .i64

/-- Days since 1 January 1970. What depends on the month, the day and the year of the era
alone is small and is not looked at. -/
def civilDays (y m d : Int) : Except Overflow Int := do
  let z ← i64 (if 2 < m then y else y - 1)
  let era := (← i64 (if 0 ≤ z then z else z - 399)).tdiv 400
  let yoe ← i64 (z - (← i64 (era * 400)))
  let mAdj := if 2 < m then m - 3 else m + 9
  let doy := (153 * mAdj + 2).tdiv 5 + d - 1
  let doe := yoe * 365 + yoe.tdiv 4 - yoe.tdiv 100 + doy
  i64 ((← i64 ((← i64 (era * 146097)) + doe)) - 719468)

/-- The numbers of a timestamp. -/
structure Stamp where
  y : Int
  m : Int
  d : Int
  h : Int
  mn : Int
  sec : Int

def Stamp.second (x : Stamp) : Except Overflow Int := do
  let days ← i64 ((← civilDays x.y x.m x.d) * 86400)
  let hours ← i64 (days + (← i64 (x.h * 3600)))
  let minutes ← i64 (hours + (← i64 (x.mn * 60)))
  i64 (minutes + x.sec)

/-- The range validation. -/
def Stamp.inRange (x : Stamp) : Bool :=
  !(!(1 ≤ x.m && x.m ≤ 12) || !(1 ≤ x.d && x.d ≤ 31) || 23 < x.h || 59 < x.mn || 60 < x.sec)

def stripUtc (s : List Char) : Option (List Char) :=
  if ['Z'].isSuffixOf s then some (s.take (s.length - 1))
  else if "+00:00".toList.isSuffixOf s then some (s.take (s.length - 6)) else none

/-- Everything up to the range validation. -/
def readStamp (s : List Char) : Option Stamp := do
  let s ← stripUtc s
  let (datePart, timeAndFrac) ← splitOnce 'T' s
  let timePart := timeAndFrac.takeWhile (· != '.')
  if byteLength timePart < 8 then none
  else do
    let (y, m, d) ← threeNumbers '-' datePart
    let (h, mn, sec) ← threeNumbers ':' timePart
    some ⟨y, m, d, h, mn, sec⟩

def rfc3339ToUnix (s : List Char) : Except Overflow (Option Int) :=
  match readStamp s with
  | some x => if x.inRange then x.second.map some else .ok none
  | none => .ok none

example : (rfc3339ToUnix "2000-02-29T00:00:00.5Z".toList).toOption = some (some 951782400) := by
  decide

/-! ## What is accepted -/

theorem threeNumbers_iff {c : Char} {s : List Char} {x y z : Int} :
    threeNumbers c s = some (x, y, z) ↔ ∃ a b d, s = a ++ c :: (b ++ c :: d) ∧
      (c ∉ a ∧ c ∉ b ∧ c ∉ d) ∧ parseI64 a = some x ∧ parseI64 b = some y ∧
        parseI64 d = some z := by
  constructor
  · intro h
    unfold threeNumbers at h
    split at h
    · rename_i a b d hsplit
      obtain ⟨rfl, hfree⟩ := splitn_three_iff.mp hsplit
      refine ⟨a, b, d, rfl, hfree, ?_⟩
      cases ha : parseI64 a <;> cases hb : parseI64 b <;> cases hd : parseI64 d <;>
        simp_all
    · cases h
  · intro h
    obtain ⟨a, b, d, rfl, hfree, ha, hb, hd⟩ := h
    rw [threeNumbers, splitn_three_iff.mpr ⟨rfl, hfree⟩]
    simp [ha, hb, hd]

/-- The two ways to write UTC. -/
def utcZones : List (List Char) := [['Z'], "+00:00".toList]

theorem stripUtc_iff {s t : List Char} :
    stripUtc s = some t ↔ ∃ zone ∈ utcZones, s = t ++ zone := by
  have hcut : ∀ u zone : List Char, (u ++ zone).take ((u ++ zone).length - zone.length) = u := by
    intro u zone
    rw [List.length_append, Nat.add_sub_cancel, List.take_left]
  constructor
  · intro h
    unfold stripUtc at h
    split_ifs at h with hz hplus
    · obtain ⟨u, rfl⟩ := List.isSuffixOf_iff_suffix.mp hz
      obtain rfl := (hcut u ['Z']).symm.trans (Option.some.inj h)
      exact ⟨['Z'], by decide, rfl⟩
    · obtain ⟨u, rfl⟩ := List.isSuffixOf_iff_suffix.mp hplus
      obtain rfl := (hcut u "+00:00".toList).symm.trans (Option.some.inj h)
      exact ⟨"+00:00".toList, by decide, rfl⟩
  · intro h
    obtain ⟨zone, hzone, rfl⟩ := h
    rcases List.mem_pair.mp hzone with rfl | rfl
    · rw [stripUtc, if_pos (List.isSuffixOf_iff_suffix.mpr ⟨t, rfl⟩)]
      exact congrArg some (hcut t ['Z'])
    · have hz : ¬ (['Z'].isSuffixOf (t ++ "+00:00".toList) = true) := by
        intro hsuffix
        obtain ⟨u, hu⟩ := List.isSuffixOf_iff_suffix.mp hsuffix
        have hlast := congrArg List.getLast? hu
        simp at hlast
      rw [stripUtc, if_neg hz, if_pos (List.isSuffixOf_iff_suffix.mpr ⟨t, rfl⟩)]
      exact congrArg some (hcut t "+00:00".toList)

/-- The texts of the fields. -/
structure StampText where
  year : List Char
  month : List Char
  day : List Char
  hour : List Char
  minute : List Char
  second : List Char

def StampText.date (f : StampText) : List Char := f.year ++ '-' :: (f.month ++ '-' :: f.day)

def StampText.time (f : StampText) : List Char := f.hour ++ ':' :: (f.minute ++ ':' :: f.second)

/-- The numbers in the fields; a minus in a date would be one between them. -/
structure Reads (f : StampText) (x : Stamp) : Prop where
  unsigned : '-' ∉ f.year ∧ '-' ∉ f.month ∧ '-' ∉ f.day
  year : parseI64 f.year = some x.y
  month : parseI64 f.month = some x.m
  day : parseI64 f.day = some x.d
  hour : parseI64 f.hour = some x.h
  minute : parseI64 f.minute = some x.mn
  second : parseI64 f.second = some x.sec

theorem parseI64_notMem {s : List Char} {n : Int} (h : parseI64 s = some n) {c : Char}
    (hc : c.isDigit = false ∧ c ≠ '-' ∧ c ≠ '+') : c ∉ s := by
  intro hin
  rcases parseSigned_chars h c hin with hdigit | hminus | hplus
  · rw [hc.1] at hdigit
    cases hdigit
  · exact hc.2.1 hminus
  · exact hc.2.2 hplus

theorem Reads.date_notMem {f : StampText} {x : Stamp} (h : Reads f x) : 'T' ∉ f.date := by
  have hT : 'T'.isDigit = false ∧ 'T' ≠ '-' ∧ 'T' ≠ '+' := by decide
  simp [StampText.date, parseI64_notMem h.year hT, parseI64_notMem h.month hT,
    parseI64_notMem h.day hT]

theorem Reads.time_notMem {f : StampText} {x : Stamp} (h : Reads f x) : '.' ∉ f.time := by
  have hpoint : '.'.isDigit = false ∧ '.' ≠ '-' ∧ '.' ≠ '+' := by decide
  simp [StampText.time, parseI64_notMem h.hour hpoint, parseI64_notMem h.minute hpoint,
    parseI64_notMem h.second hpoint]

theorem Reads.date_eq {f : StampText} {x : Stamp} (h : Reads f x) :
    threeNumbers '-' f.date = some (x.y, x.m, x.d) :=
  threeNumbers_iff.mpr ⟨f.year, f.month, f.day, rfl, h.unsigned, h.year, h.month, h.day⟩

theorem Reads.time_eq {f : StampText} {x : Stamp} (h : Reads f x) :
    threeNumbers ':' f.time = some (x.h, x.mn, x.sec) := by
  have hcolon : ':'.isDigit = false ∧ ':' ≠ '-' ∧ ':' ≠ '+' := by decide
  exact threeNumbers_iff.mpr ⟨f.hour, f.minute, f.second, rfl, ⟨parseI64_notMem h.hour hcolon,
    parseI64_notMem h.minute hcolon, parseI64_notMem h.second hcolon⟩, h.hour, h.minute, h.second⟩

/-- What follows the seconds: nothing, or anything behind a point. -/
def Dropped (rest : List Char) : Prop := rest = [] ∨ rest.head? = some '.'

theorem dropped_rest (s : List Char) : Dropped (s.dropWhile (· != '.')) := by
  cases hrest : s.dropWhile (· != '.') with
  | nil => exact Or.inl rfl
  | cons c rest =>
    have hnot := List.head?_dropWhile_not (· != '.') s
    rw [hrest] at hnot
    refine Or.inr ?_
    simpa using hnot

theorem takeWhile_time {time rest : List Char} (htime : '.' ∉ time) (hrest : Dropped rest) :
    (time ++ rest).takeWhile (· != '.') = time := by
  have hpass : ∀ e ∈ time, (e != '.') = true := by
    intro e he
    rw [bne_iff_ne]
    intro h
    obtain rfl := h
    exact htime he
  rw [List.takeWhile_append_of_pos hpass]
  rcases hrest with rfl | hhead
  · simp
  · obtain ⟨rest, rfl⟩ := List.head?_eq_some_iff.mp hhead
    simp

/-- How a text is written that is read. -/
structure Written (s : List Char) (f : StampText) : Prop where
  parts : ∃ rest, Dropped rest ∧ ∃ zone ∈ utcZones, s = f.date ++ 'T' :: (f.time ++ rest) ++ zone
  long : 8 ≤ byteLength f.time

theorem readStamp_iff {s : List Char} {x : Stamp} :
    readStamp s = some x ↔ ∃ f, Written s f ∧ Reads f x := by
  constructor
  · intro h
    obtain ⟨t, hstrip, h⟩ := Option.bind_eq_some_iff.mp h
    obtain ⟨⟨datePart, timeAndFrac⟩, hsplit, h⟩ := Option.bind_eq_some_iff.mp h
    dsimp only at h
    split_ifs at h with hshort
    obtain ⟨⟨y, m, d⟩, hdate, h⟩ := Option.bind_eq_some_iff.mp h
    obtain ⟨⟨hour, mn, sec⟩, htime, h⟩ := Option.bind_eq_some_iff.mp h
    obtain rfl := Option.some.inj h
    obtain ⟨zone, hzone, rfl⟩ := stripUtc_iff.mp hstrip
    obtain ⟨rfl, -⟩ := splitOnce_iff.mp hsplit
    obtain ⟨fy, fm, fd, rfl, hunsigned, hy, hm, hd⟩ := threeNumbers_iff.mp hdate
    obtain ⟨fh, fmn, fsec, hfields, -, hh, hmn, hsec⟩ := threeNumbers_iff.mp htime
    rw [hfields] at hshort
    refine ⟨⟨fy, fm, fd, fh, fmn, fsec⟩, ⟨⟨timeAndFrac.dropWhile (· != '.'), dropped_rest _,
      zone, hzone, ?_⟩, Nat.not_lt.mp hshort⟩, ⟨hunsigned, hy, hm, hd, hh, hmn, hsec⟩⟩
    have htext : timeAndFrac = (fh ++ ':' :: (fmn ++ ':' :: fsec)) ++
        timeAndFrac.dropWhile (· != '.') := by
      rw [← hfields, List.takeWhile_append_dropWhile]
    rw [StampText.time, ← htext]
    rfl
  · intro h
    obtain ⟨f, ⟨⟨rest, hrest, zone, hzone, hs⟩, hlong⟩, hreads⟩ := h
    have hstrip : stripUtc s = some (f.date ++ 'T' :: (f.time ++ rest)) :=
      stripUtc_iff.mpr ⟨zone, hzone, hs⟩
    have hsplit : splitOnce 'T' (f.date ++ 'T' :: (f.time ++ rest)) =
        some (f.date, f.time ++ rest) := splitOnce_first hreads.date_notMem _
    have htime := takeWhile_time hreads.time_notMem hrest
    simp [readStamp, hstrip, hsplit, htime, Nat.not_lt.mpr hlong, hreads.date_eq, hreads.time_eq]

/-- A text that is read, with numbers in range. -/
def LooselyWritten (s : List Char) : Prop :=
  ∃ f x, Written s f ∧ Reads f x ∧ x.inRange = true

theorem rfc3339ToUnix_of_loose {s : List Char} (h : LooselyWritten s) :
    ∃ x : Stamp, rfc3339ToUnix s = x.second.map some := by
  obtain ⟨f, x, hwritten, hreads, hrange⟩ := h
  refine ⟨x, ?_⟩
  simp only [rfc3339ToUnix, readStamp_iff.mpr ⟨f, hwritten, hreads⟩]
  exact if_pos hrange

theorem rfc3339ToUnix_of_not_loose {s : List Char} (h : ¬ LooselyWritten s) :
    rfc3339ToUnix s = .ok none := by
  cases hread : readStamp s with
  | none => simp only [rfc3339ToUnix, hread]
  | some x =>
    obtain ⟨f, hwritten, hreads⟩ := readStamp_iff.mp hread
    simp only [rfc3339ToUnix, hread]
    exact if_neg fun hrange => h ⟨f, x, hwritten, hreads, hrange⟩

/-! ## Instants -/

theorem i64_ok {n : Int} (hlow : -(2 ^ 63) ≤ n) (hhigh : n < 2 ^ 63) : i64 n = .ok n :=
  if_pos ⟨hlow, hhigh⟩

theorem ok_bind {α β : Type} (a : α) (f : α → Except Overflow β) :
    (Except.ok a >>= f) = f a := rfl

/-- In the four-digit years no operation leaves the range. -/
theorem civilDays_ok {y m d z mAdj : Int} (hy : 0 ≤ y) (hy' : y ≤ 9999) (hm : 1 ≤ m)
    (hm' : m ≤ 12) (hd : 1 ≤ d) (hd' : d ≤ 31) (hz : z = if 2 < m then y else y - 1)
    (hmAdj : mAdj = if 2 < m then m - 3 else m + 9) :
    civilDays y m d =
      .ok (z * 365 + z / 4 - z / 100 + z / 400 + (153 * mAdj + 2) / 5 + d - 719469) := by
  have hzrange : -1 ≤ z ∧ z ≤ 9999 := by split at hz <;> omega
  have hmrange : 0 ≤ mAdj ∧ mAdj ≤ 11 := by split at hmAdj <;> omega
  have hback : (if 0 ≤ z then z else z - 399).tdiv 400 = z / 400 ∧
      i64 (if 0 ≤ z then z else z - 399) = .ok (if 0 ≤ z then z else z - 399) := by
    by_cases hpos : 0 ≤ z
    · rw [if_pos hpos]
      exact ⟨Int.tdiv_eq_ediv_of_nonneg hpos, i64_ok (by omega) (by omega)⟩
    · obtain rfl : z = -1 := by omega
      exact ⟨by decide, i64_ok (by decide) (by decide)⟩
  have hyoe : 0 ≤ z - z / 400 * 400 ∧ z - z / 400 * 400 < 400 := by omega
  have hmonths : (153 * mAdj + 2).tdiv 5 = (153 * mAdj + 2) / 5 :=
    Int.tdiv_eq_ediv_of_nonneg (by omega)
  unfold civilDays
  rw [← hz, ← hmAdj, i64_ok (by omega) (by omega), ok_bind, hback.2, ok_bind, hback.1]
  dsimp only
  rw [i64_ok (by omega) (by omega), ok_bind, i64_ok (by omega) (by omega), ok_bind,
    Int.tdiv_eq_ediv_of_nonneg hyoe.1, Int.tdiv_eq_ediv_of_nonneg hyoe.1, hmonths,
    i64_ok (by omega) (by omega), ok_bind, i64_ok (by omega) (by omega), ok_bind,
    i64_ok (by omega) (by omega)]
  congr 1
  omega

/-- An instant of the four-digit years, a leap second perhaps. -/
structure Instant where
  date : Date
  hour : Nat
  minute : Nat
  second : Nat
  valid : date.Valid
  year_lt : date.year < 10000
  hour_le : hour ≤ 23
  minute_le : minute ≤ 59
  second_le : second ≤ 60

/-- The second since 1 January 1970 by the rules of the calendar. -/
def Instant.unix (x : Instant) : Int :=
  ((dayNumber x.date : Int) - dayNumber ⟨1970, 1, 1⟩) * 86400 + x.hour * 3600 + x.minute * 60 +
    x.second

/-- `YYYY-MM-DDThh:mm:ss`. -/
def Instant.text (x : Instant) : List Char :=
  x.date.text ++ 'T' :: (digits 2 x.hour ++ ':' :: (digits 2 x.minute ++ ':' :: digits 2 x.second))

/-- A fraction of a second, or none. -/
def IsFraction (s : List Char) : Prop := s = [] ∨ ∃ ds, s = '.' :: ds ∧ isDigits ds = true

/-- The text is the instant in UTC. -/
def Denotes (s : List Char) (x : Instant) : Prop :=
  ∃ fraction, IsFraction fraction ∧ ∃ zone ∈ utcZones, s = x.text ++ fraction ++ zone

namespace Instant

def fields (x : Instant) : StampText where
  year := digits 4 x.date.year
  month := digits 2 x.date.month
  day := digits 2 x.date.day
  hour := digits 2 x.hour
  minute := digits 2 x.minute
  second := digits 2 x.second

def stamp (x : Instant) : Stamp :=
  ⟨x.date.year, x.date.month, x.date.day, x.hour, x.minute, x.second⟩

theorem month_lt (x : Instant) : x.date.month < 100 := by
  have hle := x.valid.month_le
  omega

theorem day_le (x : Instant) : x.date.day ≤ 31 := x.valid.day_le.trans (monthLength_le _ _)

theorem parseI64_digits {k n : Nat} (hk : 0 < k) (hn : n < 10 ^ k) (hbound : 10 ^ k ≤ 2 ^ 63) :
    parseI64 (digits k n) = some (n : Int) := by
  have hvalue : value (digits k n) = n := by
    rw [value_digits, Nat.mod_eq_of_lt hn]
  rw [parseI64, parseSigned_of_digits (isDigits_digits hk n) (by omega), hvalue]

theorem minus_notMem {k : Nat} (hk : 0 < k) (n : Nat) : '-' ∉ digits k n := by
  intro hin
  exact absurd ((isDigits_iff.mp (isDigits_digits hk n)).2 '-' hin) (by decide)

theorem reads (x : Instant) : Reads x.fields x.stamp where
  unsigned := ⟨minus_notMem (by decide) _, minus_notMem (by decide) _, minus_notMem (by decide) _⟩
  year := parseI64_digits (by decide) x.year_lt (by decide)
  month := parseI64_digits (by decide) x.month_lt (by decide)
  day := parseI64_digits (by decide) (x.day_le.trans_lt (by decide)) (by decide)
  hour := parseI64_digits (by decide) (x.hour_le.trans_lt (by decide)) (by decide)
  minute := parseI64_digits (by decide) (x.minute_le.trans_lt (by decide)) (by decide)
  second := parseI64_digits (by decide) (x.second_le.trans_lt (by decide)) (by decide)

theorem inRange (x : Instant) : x.stamp.inRange = true := by
  have hmonth := x.valid.month_pos
  have hmonth' := x.valid.month_le
  have hday := x.valid.day_pos
  have hday' := x.day_le
  have hhour := x.hour_le
  have hminute := x.minute_le
  have hsecond := x.second_le
  simp [Stamp.inRange, stamp]
  omega

theorem civilDays_eq (x : Instant) : civilDays x.date.year x.date.month x.date.day =
    .ok ((dayNumber x.date : Int) - dayNumber ⟨1970, 1, 1⟩) := by
  have hnumber := dayNumber_eq x.valid
  have hyear := x.year_lt
  have hmonth := x.valid.month_pos
  have hmonth' := x.valid.month_le
  have hday := x.valid.day_pos
  have hday' := x.day_le
  have hz : yearFromMarch x.date =
      if (2 : Int) < x.date.month then (x.date.year : Int) else x.date.year - 1 := by
    unfold yearFromMarch
    split <;> split <;> omega
  have hmAdj : (marchMonth x.date.month : Int) =
      if (2 : Int) < x.date.month then (x.date.month : Int) - 3 else x.date.month + 9 := by
    unfold marchMonth
    split <;> split <;> omega
  have hepoch : dayNumber ⟨1970, 1, 1⟩ = 719528 := dayNumber_unixDay
  rw [civilDays_ok (by omega) (by omega) (by omega) (by omega) (by omega) (by omega) hz hmAdj,
    hnumber, hepoch]
  congr 1
  omega

theorem second_eq (x : Instant) : x.stamp.second = .ok x.unix := by
  have hdays := dayNumber_lt x.valid x.year_lt
  have hhour := x.hour_le
  have hminute := x.minute_le
  have hsecond := x.second_le
  have hepoch : dayNumber ⟨1970, 1, 1⟩ = 719528 := dayNumber_unixDay
  unfold Stamp.second stamp unix
  dsimp only
  rw [civilDays_eq, hepoch, ok_bind, i64_ok (by omega) (by omega), ok_bind,
    i64_ok (by omega) (by omega), ok_bind, i64_ok (by omega) (by omega), ok_bind,
    i64_ok (by omega) (by omega), ok_bind, i64_ok (by omega) (by omega), ok_bind,
    i64_ok (by omega) (by omega)]

end Instant

theorem Denotes.written {s : List Char} {x : Instant} (h : Denotes s x) : Written s x.fields := by
  obtain ⟨fraction, hfraction, zone, hzone, rfl⟩ := h
  refine ⟨⟨fraction, ?_, zone, hzone, ?_⟩, ?_⟩
  · rcases hfraction with rfl | ⟨ds, rfl, -⟩
    · exact Or.inl rfl
    · exact Or.inr rfl
  · simp [Instant.text, Date.text, StampText.date, StampText.time, Instant.fields]
  · have hlength : x.fields.time.length = 8 := by simp [StampText.time, Instant.fields]
    exact hlength.symm.le.trans (length_le_byteLength _)

theorem Denotes.loose {s : List Char} {x : Instant} (h : Denotes s x) : LooselyWritten s :=
  ⟨x.fields, x.stamp, h.written, x.reads, x.inRange⟩

theorem rfc3339ToUnix_denoted {s : List Char} {x : Instant} (h : Denotes s x) :
    rfc3339ToUnix s = .ok (some x.unix) := by
  have hread : readStamp s = some x.stamp := readStamp_iff.mpr ⟨x.fields, h.written, x.reads⟩
  simp only [rfc3339ToUnix, hread, x.inRange, if_true, x.second_eq]
  rfl

/-- The second of the instant that the text denotes, if it denotes one, and no overflow. -/
def ExactAt (s : List Char) : Prop :=
  ∃ result, rfc3339ToUnix s = .ok result ∧
    ∀ t, result = some t ↔ ∃ x : Instant, Denotes s x ∧ x.unix = t

/-- Parsing is exact on timestamps and on what is not read at all, and on nothing else. -/
theorem rfc3339ToUnix_exact_iff (s : List Char) :
    ExactAt s ↔ (∃ x, Denotes s x) ∨ ¬ LooselyWritten s := by
  constructor
  · intro h
    obtain ⟨result, hresult, hexact⟩ := h
    by_cases hloose : LooselyWritten s
    · left
      obtain ⟨x, hx⟩ := rfc3339ToUnix_of_loose hloose
      rw [hresult] at hx
      cases hsecond : x.second with
      | error e =>
        rw [hsecond] at hx
        cases hx
      | ok t =>
        rw [hsecond] at hx
        obtain ⟨instant, hdenotes, -⟩ := (hexact t).mp (Except.ok.inj hx)
        exact ⟨instant, hdenotes⟩
    · exact Or.inr hloose
  · intro h
    rcases h with ⟨x, hx⟩ | hloose
    · refine ⟨some x.unix, rfc3339ToUnix_denoted hx, fun t => ⟨?_, ?_⟩⟩
      · intro ht
        exact ⟨x, hx, Option.some.inj ht⟩
      · intro h
        obtain ⟨y, hy, rfl⟩ := h
        have hsame := (rfc3339ToUnix_denoted hx).symm.trans (rfc3339ToUnix_denoted hy)
        exact Except.ok.inj hsame
    · refine ⟨none, rfc3339ToUnix_of_not_loose hloose, fun t => ⟨nofun, ?_⟩⟩
      intro h
      obtain ⟨x, hx, -⟩ := h
      exact absurd hx.loose hloose

theorem value_piece (a b : List Char) {k n : Nat} (h : n < 10 ^ k) :
    value (((a ++ (digits k n ++ b)).drop a.length).take k) = n := by
  rw [List.drop_left, List.take_left' (length_digits k n), value_digits, Nat.mod_eq_of_lt h]

/-- No month is longer than the calendar says. -/
theorem Denotes.day_le {s : List Char} {x : Instant} (h : Denotes s x) :
    value ((s.drop 8).take 2) ≤ monthLength (value (s.take 4)) (value ((s.drop 5).take 2)) := by
  obtain ⟨fraction, -, zone, -, rfl⟩ := h
  obtain ⟨rest, htext⟩ : ∃ rest, x.text ++ fraction ++ zone = digits 4 x.date.year ++
      '-' :: (digits 2 x.date.month ++ '-' :: (digits 2 x.date.day ++ rest)) :=
    ⟨'T' :: (digits 2 x.hour ++ ':' :: (digits 2 x.minute ++ ':' :: digits 2 x.second)) ++
      (fraction ++ zone), by
      simp only [Instant.text, Date.text, List.append_assoc, List.cons_append]⟩
  have hyear := value_piece [] ('-' :: (digits 2 x.date.month ++ '-' ::
    (digits 2 x.date.day ++ rest))) (k := 4) x.year_lt
  have hmonth := value_piece (digits 4 x.date.year ++ ['-'])
    ('-' :: (digits 2 x.date.day ++ rest)) (k := 2) x.month_lt
  have hday := value_piece (digits 4 x.date.year ++ '-' :: (digits 2 x.date.month ++ ['-']))
    rest (k := 2) (x.day_le.trans_lt (by decide))
  simp only [List.length_append, List.length_cons, length_digits, List.length_nil,
    List.append_assoc, List.cons_append, List.nil_append, List.drop_zero] at hyear hmonth hday
  rw [htext, hyear, hmonth, hday]
  exact x.valid.day_le

/-- A day that February does not have, and a year out of range. -/
theorem rfc3339ToUnix_notExact : ¬ ExactAt "2023-02-30T00:00:00Z".toList ∧
    ¬ ExactAt "9223372036854775807-03-01T00:00:00Z".toList := by
  constructor
  · intro h
    obtain ⟨result, hresult, hexact⟩ := h
    have hmarch : rfc3339ToUnix "2023-02-30T00:00:00Z".toList = .ok (some 1677715200) := by
      decide +kernel
    rw [hmarch] at hresult
    obtain ⟨x, hx, -⟩ := (hexact _).mp (Except.ok.inj hresult).symm
    exact absurd hx.day_le (by decide)
  · intro h
    obtain ⟨result, hresult, -⟩ := h
    have hoverflow : rfc3339ToUnix "9223372036854775807-03-01T00:00:00Z".toList =
        .error .i64 := by
      decide +kernel
    rw [hoverflow] at hresult
    cases hresult

end Sysknife
