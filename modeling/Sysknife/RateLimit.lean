import Sysknife.Lib.IntegerText
import Sysknife.Lib.SlidingWindow
import Sysknife.Lib.TextTrim
import Sysknife.Prefs

/-!
# The rate limiter

`rate_limit.rs`: a limiter with its file of timestamps, one decimal number a line, and
what a process can do that calls it again and again. The file is the text that it has,
`none` while there is none; reading and writing it do not fail here.
-/

namespace Sysknife

open IntegerText

structure RateLimiter where
  maxPerMinute : Nat
  positive : 1 ≤ maxPerMinute

/-- What the file holds and which calls were allowed, behind some calls. -/
structure LimiterRun where
  file : Option (List Char)
  allowed : List Nat

/-- The clock at the calls of a process: it does not go back, and a `SystemTime` counts
its seconds in an `i64`. -/
structure SteadyClock (nows : List Nat) : Prop where
  ordered : nows.Pairwise (· ≤ ·)
  range : ∀ now ∈ nows, now < 2 ^ 63

/-- The numbers in the file; a line that is none is left out. -/
def timestamps (file : Option (List Char)) : List Nat :=
  (lines (file.getD [])).filterMap fun line => parseUnsigned (2 ^ 64) (trim line)

def stampLines (stamps : List Nat) : List Char :=
  stamps.flatMap fun t => Nat.toDigits 10 t ++ ['\n']

namespace RateLimiter

/-- `RateLimiter::new`, with the value of `SYSKNIFE_MAX_RPM`; `none` is the panic. -/
def new (maxRpm : Option (List Char)) (maxPerMinute : Nat) : Option RateLimiter :=
  if h : 1 ≤ maxPerMinute then
    match maxRpm.bind fun v => parseUnsigned (2 ^ 64) (trim v) with
    | some n => if hn : 1 ≤ n then some ⟨n, hn⟩ else some ⟨maxPerMinute, h⟩
    | none => some ⟨maxPerMinute, h⟩
  else none

def checkAndConsume (limiter : RateLimiter) (file : Option (List Char)) (now : Nat) :
    Except Nat Unit × Option (List Char) :=
  let windowStart := now - 60
  let inWindow := (timestamps file).filter fun t => decide (windowStart ≤ t)
  if limiter.maxPerMinute ≤ inWindow.length then
    let oldest := inWindow.min?.getD windowStart
    -- the sum of two `u64` wraps
    let retryAfter := max ((oldest + 60) % 2 ^ 64 - now) 1
    (.error retryAfter, file)
  else (.ok (), some (stampLines inWindow ++ stampLines [now]))

/-- One call of the process. -/
def call (limiter : RateLimiter) (run : LimiterRun) (now : Nat) : LimiterRun :=
  match limiter.checkAndConsume run.file now with
  | (.ok (), file) => ⟨file, run.allowed ++ [now]⟩
  | (.error _, file) => ⟨file, run.allowed⟩

/-- The calls of a process that starts without a file. -/
def calls (limiter : RateLimiter) (nows : List Nat) : LimiterRun :=
  nows.foldl limiter.call ⟨none, []⟩

end RateLimiter

/-! ## The file -/

theorem trim_toDigits (n : Nat) : trim (Nat.toDigits 10 n) = Nat.toDigits 10 n := by
  have hplain : ∀ c ∈ Nat.toDigits 10 n, isWhitespace c = false :=
    fun c hc => isWhitespace_of_isDigit (toDigits_digit hc)
  have htrimmed : TextTrim.Trimmed isWhitespace (Nat.toDigits 10 n) :=
    ⟨fun c hc => hplain c (List.mem_of_mem_head? hc),
      fun c hc => hplain c (List.mem_of_mem_getLast? hc)⟩
  exact TextTrim.trim_of_trimmed htrimmed

theorem stripReturn_toDigits (n : Nat) : stripReturn (Nat.toDigits 10 n) = Nat.toDigits 10 n := by
  refine stripReturn_eq_self fun hlast => ?_
  exact absurd (toDigits_digit (List.mem_of_getLast? hlast)) (by decide)

theorem lines_stampLines (stamps : List Nat) :
    lines (stampLines stamps) = stamps.map (Nat.toDigits 10) := by
  have htext : stampLines stamps = (stamps.map (Nat.toDigits 10)).flatMap (· ++ ['\n']) := by
    rw [List.flatMap_map]
    rfl
  have hunbroken : ∀ l ∈ stamps.map (Nat.toDigits 10), '\n' ∉ l := by
    intro l hl hin
    obtain ⟨t, -, rfl⟩ := List.mem_map.mp hl
    exact absurd (toDigits_digit hin) (by decide)
  rw [htext, lines_flatMap hunbroken, List.map_map]
  exact List.map_congr_left fun t _ => stripReturn_toDigits t

/-- The numbers come back. -/
theorem timestamps_stampLines {file : Option (List Char)} {stamps : List Nat}
    (hfile : file.getD [] = stampLines stamps) (h : ∀ t ∈ stamps, t < 2 ^ 64) :
    timestamps file = stamps := by
  rw [timestamps, hfile, lines_stampLines, List.filterMap_map]
  have hback : ∀ t ∈ stamps, (parseUnsigned (2 ^ 64) (trim (Nat.toDigits 10 t))) = some t := by
    intro t ht
    rw [trim_toDigits, parseUnsigned_toDigits (h t ht)]
  exact (List.filterMap_congr hback).trans List.filterMap_some

/-! ## Calls -/

namespace RateLimiter

/-- The file has what the limiter of the abstract calls remembers. -/
structure Holds (run : LimiterRun) (state : SlidingWindow.State) : Prop where
  file : run.file.getD [] = stampLines state.kept
  allowed : run.allowed = state.admitted

theorem inWindow_eq (now : Nat) (stamps : List Nat) :
    (stamps.filter fun t => decide (now - 60 ≤ t)) = SlidingWindow.recent 60 now stamps := by
  unfold SlidingWindow.recent
  refine List.filter_congr fun t _ => ?_
  rw [decide_eq_decide]
  omega

theorem checkAndConsume_ok_iff (limiter : RateLimiter) (file : Option (List Char)) (now : Nat) :
    (limiter.checkAndConsume file now).1 = .ok () ↔
      (SlidingWindow.recent 60 now (timestamps file)).length < limiter.maxPerMinute := by
  rw [checkAndConsume, inWindow_eq]
  split
  · rename_i hfull
    exact iff_of_false nofun (Nat.not_lt.mpr hfull)
  · rename_i hfree
    exact iff_of_true rfl (Nat.not_le.mp hfree)

/-- One call of the process is one call of the abstract limiter. -/
theorem call_holds (limiter : RateLimiter) {run : LimiterRun} {state : SlidingWindow.State}
    (h : Holds run state) (hrange : ∀ t ∈ state.kept, t < 2 ^ 64) (now : Nat) :
    Holds (limiter.call run now) (SlidingWindow.call 60 limiter.maxPerMinute state now) := by
  have hstamps : timestamps run.file = state.kept := timestamps_stampLines h.file hrange
  by_cases hfull : limiter.maxPerMinute ≤ (SlidingWindow.recent 60 now state.kept).length
  · have hcheck : ∃ r, limiter.checkAndConsume run.file now = (.error r, run.file) := by
      rw [checkAndConsume, inWindow_eq, hstamps]
      exact ⟨_, if_pos hfull⟩
    obtain ⟨r, hcheck⟩ := hcheck
    rw [call, hcheck, SlidingWindow.call, if_neg (Nat.not_lt.mpr hfull)]
    exact ⟨h.file, h.allowed⟩
  · have hcheck : limiter.checkAndConsume run.file now =
        (.ok (), some (stampLines (SlidingWindow.recent 60 now state.kept) ++
          stampLines [now])) := by
      rw [checkAndConsume, inWindow_eq, hstamps]
      exact if_neg hfull
    rw [call, hcheck, SlidingWindow.call, if_pos (Nat.not_le.mp hfull)]
    refine ⟨?_, by rw [h.allowed]⟩
    show stampLines _ ++ stampLines [now] = stampLines (_ ++ [now])
    exact List.flatMap_append.symm

theorem kept_lt (limiter : RateLimiter) {nows : List Nat} (h : SteadyClock nows) :
    ∀ t ∈ (SlidingWindow.calls 60 limiter.maxPerMinute nows).kept, t < 2 ^ 63 :=
  fun t ht => h.range t ((SlidingWindow.invariant_calls h.ordered).remembered t ht)

/-- The file behind calls holds what the abstract limiter remembers. -/
theorem calls_holds (limiter : RateLimiter) {nows : List Nat} (h : SteadyClock nows) :
    Holds (limiter.calls nows) (SlidingWindow.calls 60 limiter.maxPerMinute nows) := by
  induction nows using List.reverseRecOn with
  | nil => exact ⟨rfl, rfl⟩
  | append_singleton nows now ih =>
    have hnows : SteadyClock nows := ⟨(List.pairwise_append.mp h.ordered).1,
      fun t ht => h.range t (List.mem_append_left _ ht)⟩
    have hrange : ∀ t ∈ (SlidingWindow.calls 60 limiter.maxPerMinute nows).kept, t < 2 ^ 64 :=
      fun t ht => (limiter.kept_lt hnows t ht).trans (by decide)
    rw [calls, SlidingWindow.calls, List.foldl_append, List.foldl_append]
    exact call_holds limiter (ih hnows) hrange now

theorem timestamps_calls (limiter : RateLimiter) {nows : List Nat} (h : SteadyClock nows) :
    timestamps (limiter.calls nows).file =
      (SlidingWindow.calls 60 limiter.maxPerMinute nows).kept :=
  timestamps_stampLines (calls_holds limiter h).file
    fun t ht => (limiter.kept_lt h t ht).trans (by decide)

/-- In every window of 60 seconds, both ends included, no more calls are allowed than the
limit, and the file has no more lines. -/
theorem calls_bounded (limiter : RateLimiter) {nows : List Nat} (h : SteadyClock nows) :
    (∀ T, ((limiter.calls nows).allowed.filter fun t => decide (T ≤ t + 60 ∧ t ≤ T)).length ≤
        limiter.maxPerMinute) ∧
      (lines ((limiter.calls nows).file.getD [])).length ≤ limiter.maxPerMinute := by
  have hholds := calls_holds limiter h
  have hinv := @SlidingWindow.invariant_calls 60 limiter.maxPerMinute _ h.ordered
  rw [hholds.allowed, hholds.file, lines_stampLines, List.length_map]
  exact ⟨hinv.window, hinv.small⟩

/-- A process whose limiter has room for one call. -/
def oneCall : RateLimiter := ⟨1, Nat.le_refl 1⟩

theorem oneCall_bounded : (lines ((oneCall.calls [100, 100, 161]).file.getD [])).length ≤ 1 :=
  (calls_bounded oneCall ⟨by decide, by decide⟩).2

/-! ## The wait -/

/-- What a refused call says of a file with no more timestamps than the limit. -/
structure Refusal (limiter : RateLimiter) (file : Option (List Char))
    (now retryAfter oldest : Nat) : Prop where
  unchanged : (limiter.checkAndConsume file now).2 = file
  full : (timestamps file).length = limiter.maxPerMinute
  recent : ∀ t ∈ timestamps file, now ≤ t + 60
  oldest_mem : oldest ∈ timestamps file
  oldest_le : ∀ t ∈ timestamps file, oldest ≤ t
  wait : retryAfter = max (oldest + 60 - now) 1

theorem exists_refusal {limiter : RateLimiter} {file : Option (List Char)} {now retryAfter : Nat}
    (hsmall : (timestamps file).length ≤ limiter.maxPerMinute)
    (hrange : ∀ t ∈ timestamps file, t < 2 ^ 63)
    (herror : (limiter.checkAndConsume file now).1 = .error retryAfter) :
    ∃ oldest, Refusal limiter file now retryAfter oldest := by
  rw [checkAndConsume, inWindow_eq] at herror
  split at herror
  · rename_i hfull
    have hall := SlidingWindow.recent_of_full hsmall hfull
    rw [hall] at hfull herror
    have hlength : (timestamps file).length = limiter.maxPerMinute := Nat.le_antisymm hsmall hfull
    have hne : timestamps file ≠ [] := by
      intro hnil
      have hpos := limiter.positive
      rw [hnil, List.length_nil] at hlength
      omega
    obtain ⟨oldest, holdest⟩ := Option.ne_none_iff_exists'.mp (mt List.min?_eq_none_iff.mp hne)
    obtain ⟨hmem, hle⟩ := List.min?_eq_some_iff.mp holdest
    have hlt := hrange oldest hmem
    have hwrap : (oldest + 60) % 2 ^ 64 = oldest + 60 := Nat.mod_eq_of_lt (by omega)
    refine ⟨oldest, ?_, hlength, ?_, hmem, hle, ?_⟩
    · rw [checkAndConsume, inWindow_eq, hall]
      exact congrArg Prod.snd (if_pos hfull)
    · intro t ht
      rw [← hall] at ht
      exact of_decide_eq_true (List.mem_filter.mp ht).2
    · rw [holdest] at herror
      have hwait : max ((oldest + 60) % 2 ^ 64 - now) 1 = retryAfter := Except.error.inj herror
      rw [← hwait, hwrap]
  · cases herror

/-- The wait is the time until the next call is allowed if and only if a call was recorded
60 seconds ago to the second: the window still has a call that is 60 seconds old in it,
but the wait is over when the oldest call is. -/
theorem retryAfter_truthful_iff (limiter : RateLimiter) {nows : List Nat} {now retryAfter : Nat}
    (h : SteadyClock (nows ++ [now]))
    (herror : (limiter.checkAndConsume (limiter.calls nows).file now).1 = .error retryAfter) :
    ((limiter.checkAndConsume (limiter.call (limiter.calls nows) now).file
          (now + retryAfter)).1 = .ok () ∧
        ∀ earlier, now ≤ earlier → earlier < now + retryAfter →
          (limiter.checkAndConsume (limiter.call (limiter.calls nows) now).file earlier).1 ≠
            .ok ()) ↔
      ∃ t ∈ timestamps (limiter.calls nows).file, t + 60 = now := by
  have hnows : SteadyClock nows := ⟨(List.pairwise_append.mp h.ordered).1,
    fun t ht => h.range t (List.mem_append_left _ ht)⟩
  have hstamps := limiter.timestamps_calls hnows
  have hinv := @SlidingWindow.invariant_calls 60 limiter.maxPerMinute _ hnows.ordered
  obtain ⟨oldest, hrefusal⟩ := exists_refusal (hstamps ▸ hinv.small)
    (hstamps ▸ limiter.kept_lt hnows) herror
  have hsame : (limiter.call (limiter.calls nows) now).file = (limiter.calls nows).file := by
    have hcheck : limiter.checkAndConsume (limiter.calls nows).file now =
        (.error retryAfter, (limiter.calls nows).file) := Prod.ext herror hrefusal.unchanged
    rw [call, hcheck]
  have hfree : ∀ later, (limiter.checkAndConsume (limiter.calls nows).file later).1 = .ok () ↔
      ∃ t ∈ timestamps (limiter.calls nows).file, t + 60 < later := by
    intro later
    rw [checkAndConsume_ok_iff, SlidingWindow.free_iff hrefusal.full]
  have hwait := hrefusal.wait
  have hrecent := hrefusal.recent oldest hrefusal.oldest_mem
  rw [hsame, hfree]
  constructor
  · rintro ⟨⟨t, ht, hlt⟩, -⟩
    have hle := hrefusal.oldest_le t ht
    exact ⟨oldest, hrefusal.oldest_mem, by omega⟩
  · rintro ⟨t, ht, hage⟩
    have hle := hrefusal.oldest_le t ht
    refine ⟨⟨t, ht, by omega⟩, fun earlier hnow hlt hok => ?_⟩
    obtain ⟨u, hu, hout⟩ := (hfree earlier).mp hok
    have hin := hrefusal.recent u hu
    omega

theorem oneCall_truthful : (oneCall.checkAndConsume (oneCall.call (oneCall.calls [100]) 160).file
    161).1 = .ok () := by
  have hsteady : SteadyClock ([100] ++ [160]) := ⟨by decide, by decide⟩
  have herror : (oneCall.checkAndConsume (oneCall.calls [100]).file 160).1 = .error 1 := by
    decide +kernel
  exact ((retryAfter_truthful_iff oneCall hsteady herror).mpr ⟨100, by decide +kernel, rfl⟩).1

/-- Refused in the second of the call before, for 60 seconds, and refused then. -/
theorem oneCall_notTruthful : ¬ ∀ (limiter : RateLimiter) (nows : List Nat)
    (now retryAfter : Nat), SteadyClock (nows ++ [now]) →
    (limiter.checkAndConsume (limiter.calls nows).file now).1 = .error retryAfter →
      (limiter.checkAndConsume (limiter.call (limiter.calls nows) now).file
          (now + retryAfter)).1 = .ok () ∧
        ∀ earlier, now ≤ earlier → earlier < now + retryAfter →
          (limiter.checkAndConsume (limiter.call (limiter.calls nows) now).file earlier).1 ≠
            .ok () := by
  intro hall
  have hsteady : SteadyClock ([100] ++ [100]) := ⟨by decide, by decide⟩
  have herror : (oneCall.checkAndConsume (oneCall.calls [100]).file 100).1 = .error 60 := by
    decide +kernel
  have hok := (hall oneCall [100] 100 60 hsteady herror).1
  have hagain : (oneCall.checkAndConsume (oneCall.call (oneCall.calls [100]) 100).file
      160).1 = .error 1 := by decide +kernel
  rw [hagain] at hok
  cases hok

end RateLimiter

end Sysknife
