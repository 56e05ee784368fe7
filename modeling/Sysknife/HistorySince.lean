import Mathlib.Data.Rat.Floor
import Mathlib.Tactic.Linarith
import Sysknife.HistoryQuery
import Sysknife.UnixTime

/-!
# `sysknife history --since`

The command line turns a moment into whole hours before its own clock, and the daemon turns
them back into a cutoff before a later one. What was created between the two moments is not
selected.
-/

namespace Sysknife

open Calendar IntegerText

/-! ## The command -/

/-- The clock of the command line. -/
structure SystemTime where
  secs : Int
  nanos : Nat
  secs_range : -(2 ^ 63) ≤ secs ∧ secs < 2 ^ 63
  nanos_lt : nanos < 10 ^ 9

/-- `duration_since(UNIX_EPOCH)` in whole seconds. -/
def SystemTime.sinceEpoch (now : SystemTime) : Option Int :=
  if 0 ≤ now.secs then some now.secs else none

def u32TryFrom (n : Int) : Option (Fin (2 ^ 32)) :=
  if h : 0 ≤ n ∧ n < 2 ^ 32 then some ⟨n.toNat, by omega⟩ else none

def sinceToHours (now : SystemTime) (s : List Char) : Except Overflow (Option (Fin (2 ^ 32))) := do
  match ← rfc3339ToUnix s with
  | none => return none
  | some epoch =>
    match now.sinceEpoch with
    | none => return none
    | some seconds =>
      if seconds < epoch then return none
      else
        let elapsed ← i64 (seconds - epoch)
        return u32TryFrom (elapsed.tdiv 3600)

structure HistoryArgs where
  status : Option String
  action : Option String
  since : Option String
  limit : Fin (2 ^ 32)

def jsonU32 (n : Fin (2 ^ 32)) : Json := .number (.posInt (Fin.castLE (by decide) n))

/-- The keys of a JSON map are in order. -/
def buildHistoryParams (limit : Fin (2 ^ 32)) (status action : Option String)
    (sinceHours : Option (Fin (2 ^ 32))) : Json :=
  .object ((action.map fun a => ("action_filter", .string a)).toList ++
    ("limit", jsonU32 limit) :: ((sinceHours.map fun h => ("since_hours", jsonU32 h)).toList ++
      (status.map fun s => ("status_filter", .string s)).toList))

section Request
-- the text of a string under `{:?}`
variable (debugStr : String → String)

/-- The parameters that `run_history` sends, or its error. -/
def historyRequest (now : SystemTime) (args : HistoryArgs) :
    Except Overflow (Except String Json) := do
  match args.since with
  | none => return .ok (buildHistoryParams args.limit args.status args.action none)
  | some s =>
    match ← rfc3339ToUnix s.toList with
    | none =>
      return .error ("--since: " ++ debugStr s ++ " is not a valid UTC RFC 3339 timestamp " ++
        "(accepted formats: 2026-01-15T10:30:00Z or 2026-01-15T10:30:00+00:00)")
    | some _ =>
      match ← sinceToHours now s.toList with
      | some h => return .ok (buildHistoryParams args.limit args.status args.action (some h))
      | none => return .error ("--since: " ++ debugStr s ++ " is in the future")

end Request

/-! ## What the daemon selects -/

/-- The rows that the query of `ListJobHistory` selects, before the limit. -/
def selectedRows (now : Clock) (params : Json) (db : Db) : List Row :=
  match historyNumber params "since_hours" with
  | .error _ => []
  | .ok sinceHours =>
    let select (status : Option JobState) := db.transactions.filter
      (Row.inHistory now status (optStr params "action_filter") sinceHours)
    match optStr params "status_filter" with
    | none => select none
    | some text =>
      match parseStatusFilter text with
      | none => []
      | some status => select (some status)

/-- The filters of the command other than `--since`. -/
def HistoryArgs.passes (args : HistoryArgs) (row : Row) : Bool :=
  args.status.all (fun text => (parseStatusFilter text).any fun s => row.hasStatus s) &&
    args.action.all fun a => row.actionName == a

theorem mem_selectedRows {now : Clock} {params : Json} {db : Db} {args : HistoryArgs}
    {sinceHours : Option Nat} (hstatus : optStr params "status_filter" = args.status)
    (haction : optStr params "action_filter" = args.action)
    (hsince : historyNumber params "since_hours" = .ok sinceHours) (row : Row) :
    row ∈ selectedRows now params db ↔ row ∈ db.transactions ∧ args.passes row = true ∧
      sinceHours.all (fun h => createdWithinHours now h row.createdAt) = true := by
  unfold selectedRows HistoryArgs.passes
  rw [hsince, hstatus, haction]
  cases hgiven : args.status with
  | none => simp [List.mem_filter, Row.inHistory]
  | some text =>
    dsimp only
    cases hparse : parseStatusFilter text with
    | none => simp [hparse]
    | some status => simp [List.mem_filter, Row.inHistory, hparse]

/-! ## The parameters that are sent -/

theorem historyNumber_jsonU32 {params : Json} {key : String} {n : Fin (2 ^ 32)}
    (h : params.get key = some (jsonU32 n)) : historyNumber params key = .ok (some n.val) := by
  have hmod : n.val % 2 ^ 32 = n.val := Nat.mod_eq_of_lt n.isLt
  unfold historyNumber
  rw [h]
  simp only [jsonU32, Json.asU64, Fin.val_castLE, hmod]

section Built
variable (limit : Fin (2 ^ 32)) (status action : Option String) (sinceHours : Option (Fin (2 ^ 32)))

theorem buildHistoryParams_status :
    optStr (buildHistoryParams limit status action sinceHours) "status_filter" = status := by
  cases status <;> cases action <;> cases sinceHours <;> rfl

theorem buildHistoryParams_action :
    optStr (buildHistoryParams limit status action sinceHours) "action_filter" = action := by
  cases status <;> cases action <;> cases sinceHours <;> rfl

theorem buildHistoryParams_since :
    historyNumber (buildHistoryParams limit status action sinceHours) "since_hours" =
      .ok (sinceHours.map Fin.val) := by
  have hget : (buildHistoryParams limit status action sinceHours).get "since_hours" =
      sinceHours.map jsonU32 := by
    cases status <;> cases action <;> cases sinceHours <;> rfl
  cases sinceHours with
  | none =>
    unfold historyNumber
    rw [hget]
    rfl
  | some h => exact historyNumber_jsonU32 hget

/-- The call of the store that the daemon makes for the parameters. -/
theorem historyCall_built :
    historyCall (buildHistoryParams limit status action sinceHours) =
      .listTransactions limit.val status action (sinceHours.map Fin.val) := by
  have hget : (buildHistoryParams limit status action sinceHours).get "limit" =
      some (jsonU32 limit) := by
    cases status <;> cases action <;> cases sinceHours <;> rfl
  rw [historyCall, sentNumber_of_historyNumber (historyNumber_jsonU32 hget),
    sentNumber_of_historyNumber (buildHistoryParams_since ..), buildHistoryParams_status,
    buildHistoryParams_action]
  rfl

/-- With a status that is read the call answers with the first of the rows that are selected. -/
theorem listTransactions_selectedRows (crypto : Crypto) (store : TransactionStore)
    {env : StoreEnv} (db : Db) (hworks : env.fault = none)
    (hstatus : ∀ text, status = some text → parseStatusFilter text ≠ none) :
    ((StoreCall.listTransactions limit.val status action (sinceHours.map Fin.val)).exec crypto
      store (fun _ => env) db).1 =
      ((orderBySeqDesc (selectedRows env.now
        (buildHistoryParams limit status action sinceHours) db)).take
          (min limit.val 100)).mapM Row.toRecord := by
  unfold selectedRows
  rw [buildHistoryParams_since, buildHistoryParams_action, buildHistoryParams_status]
  cases status with
  | none => exact listTransactions_exec crypto store db hworks _ _ _ rfl
  | some text =>
    cases hread : parseStatusFilter text with
    | none => exact absurd hread (hstatus text rfl)
    | some s =>
      simp only [hread]
      exact listTransactions_exec crypto store db hworks _ _ _ (congrArg some hread)

end Built

/-! ## Moments -/

/-- Seconds since 1 January 1970. -/
def SystemTime.moment (now : SystemTime) : ℚ := now.secs + now.nanos / 10 ^ 9

theorem SystemTime.floor_moment (now : SystemTime) : ⌊now.moment⌋ = now.secs := by
  have hnanos : (now.nanos : ℚ) < 10 ^ 9 := by exact_mod_cast now.nanos_lt
  have hpos : (0 : ℚ) ≤ now.nanos / 10 ^ 9 := by positivity
  have hlt : (now.nanos : ℚ) / 10 ^ 9 < 1 := (div_lt_one (by positivity)).mpr hnanos
  rw [Int.floor_eq_iff, SystemTime.moment]
  constructor <;> linarith

/-- What the text behind a point stands for. -/
def fractionValue : List Char → ℚ
  | '.' :: ds => value ds / 10 ^ ds.length
  | _ => 0

/-- The text is a timestamp in UTC of so many seconds since 1 January 1970. -/
def DenotesTime (s : List Char) (time : ℚ) : Prop :=
  ∃ x : Instant, ∃ fraction, IsFraction fraction ∧
    (∃ zone ∈ utcZones, s = x.text ++ fraction ++ zone) ∧ time = x.unix + fractionValue fraction

theorem fractionValue_range {fraction : List Char} (h : IsFraction fraction) :
    0 ≤ fractionValue fraction ∧ fractionValue fraction < 1 := by
  rcases h with rfl | ⟨ds, rfl, hdigits⟩
  · exact ⟨le_refl _, zero_lt_one⟩
  · have hall : ds.all Char.isDigit = true := (Bool.and_eq_true_iff.mp hdigits).2
    have hlt : (value ds : ℚ) < 10 ^ ds.length := by exact_mod_cast value_lt hall
    have hpos : (0 : ℚ) ≤ value ds / 10 ^ ds.length := by positivity
    exact ⟨hpos, (div_lt_one (by positivity)).mpr hlt⟩

theorem DenotesTime.parsed {s : List Char} {time : ℚ} (h : DenotesTime s time) :
    rfc3339ToUnix s = .ok (some ⌊time⌋) := by
  obtain ⟨x, fraction, hfraction, ⟨zone, hzone, hs⟩, rfl⟩ := h
  obtain ⟨hpos, hlt⟩ := fractionValue_range hfraction
  have hfloor : ⌊(x.unix : ℚ) + fractionValue fraction⌋ = x.unix := by
    rw [Int.floor_eq_iff]
    constructor <;> linarith
  rw [hfloor]
  exact rfc3339ToUnix_denoted ⟨fraction, hfraction, zone, hzone, hs⟩

theorem u32TryFrom_iff {n : Int} {m : Fin (2 ^ 32)} : u32TryFrom n = some m ↔ n = m.val := by
  have hm := m.isLt
  unfold u32TryFrom
  constructor
  · intro h
    split_ifs at h with hrange
    rw [← Option.some.inj h]
    exact (Int.toNat_of_nonneg hrange.1).symm
  · intro h
    rw [dif_pos (by omega), Option.some.injEq, Fin.ext_iff]
    show n.toNat = m.val
    omega

theorem wholeHours_iff {elapsed : Int} (h : 0 ≤ elapsed) {hours : Fin (2 ^ 32)} :
    (i64 elapsed >>= fun e => Except.ok (u32TryFrom (e.tdiv 3600))) = Except.ok (some hours) ↔
      elapsed / 3600 = hours.val := by
  have hhours := hours.isLt
  by_cases hfit : elapsed < 2 ^ 63
  · rw [i64_ok (by omega) hfit, ok_bind, Int.tdiv_eq_ediv_of_nonneg h, Except.ok.injEq,
      u32TryFrom_iff]
  · have hover : i64 elapsed = .error .i64 := if_neg fun hrange => hfit hrange.2
    rw [hover]
    refine iff_of_false nofun ?_
    omega

/-- The hours that are sent are the whole hours between the whole seconds. -/
theorem sinceToHours_iff {s : List Char} {time : ℚ} (hs : DenotesTime s time) {now : SystemTime}
    (hpast : time ≤ now.moment) (hours : Fin (2 ^ 32)) :
    sinceToHours now s = .ok (some hours) ↔
      0 ≤ now.secs ∧ (now.secs - ⌊time⌋) / 3600 = hours.val := by
  have hle : ⌊time⌋ ≤ now.secs := by
    rw [← now.floor_moment]
    exact Int.floor_mono hpast
  have hread : sinceToHours now s = match now.sinceEpoch with
      | none => .ok none
      | some seconds => if seconds < ⌊time⌋ then .ok none
        else i64 (seconds - ⌊time⌋) >>= fun e => .ok (u32TryFrom (e.tdiv 3600)) := by
    rw [sinceToHours, hs.parsed]
    rfl
  rw [hread, SystemTime.sinceEpoch]
  by_cases hepoch : 0 ≤ now.secs
  · rw [if_pos hepoch]
    dsimp only
    rw [if_neg (by omega), and_iff_right hepoch]
    exact wholeHours_iff (by omega)
  · rw [if_neg hepoch]
    exact iff_of_false nofun fun h => hepoch h.1

/-! ## Completeness -/

section Complete
variable (debugStr : String → String) (now : SystemTime) (args : HistoryArgs)

/-- When a row was created, in seconds. -/
def createdMoment (created : Row → Int) (row : Row) : ℚ := created row / 1000

/-- The daemon's filter selects exactly the rows created less than the hours ago that it is
given. -/
def SinceExact (later : Clock) (db : Db) (created : Row → Int) (params : Json) : Prop :=
  ∀ hours, historyNumber params "since_hours" = .ok (some hours) → ∀ row ∈ db.transactions,
    createdWithinHours later hours row.createdAt = younger created later hours row

/-- The query that is sent selects every row created at the moment or after it. -/
def HistoryComplete (later : Clock) (db : Db) (created : Row → Int) (time : ℚ) : Prop :=
  ∃ params, historyRequest debugStr now args = .ok (.ok params) ∧
    ∀ row ∈ db.transactions, args.passes row = true → time ≤ createdMoment created row →
      row ∈ selectedRows later params db

/-- How much later than the moment the cutoff is. -/
def leftOut (later : Clock) (time : ℚ) : ℚ :=
  later.val / 1000 - time - 3600 * ((now.secs - ⌊time⌋) / 3600 : Int)

variable {debugStr now args}

theorem historyRequest_since {s : String} (hargs : args.since = some s) {time : ℚ}
    (hs : DenotesTime s.toList time) (hpast : time ≤ now.moment) (params : Json) :
    historyRequest debugStr now args = .ok (.ok params) ↔
      ∃ hours : Fin (2 ^ 32), (0 ≤ now.secs ∧ (now.secs - ⌊time⌋) / 3600 = hours.val) ∧
        params = buildHistoryParams args.limit args.status args.action (some hours) := by
  have hread : historyRequest debugStr now args = sinceToHours now s.toList >>= fun
      | some h => .ok (.ok (buildHistoryParams args.limit args.status args.action (some h)))
      | none => .ok (.error ("--since: " ++ debugStr s ++ " is in the future")) := by
    rw [historyRequest, hargs]
    simp only [hs.parsed]
    rfl
  rw [hread]
  simp only [← sinceToHours_iff hs hpast]
  cases hresult : sinceToHours now s.toList with
  | error e => exact iff_of_false nofun (by simp)
  | ok result =>
    cases result with
    | none => exact iff_of_false nofun (by simp)
    | some hours => simp [ok_bind, eq_comm]

/-- Less than the hours ago is behind the cutoff. -/
theorem younger_moment {created : Row → Int} {later : Clock} {hours : Nat} {row : Row} :
    younger created later hours row = true ↔
      (later.val : ℚ) / 1000 - 3600 * hours < createdMoment created row := by
  have hmillis : ((later.val : Int) < created row + hours * millisPerHour) ↔
      (later.val : ℚ) < created row + hours * 3600000 := by
    rw [← Int.cast_lt (R := ℚ)]
    push_cast [millisPerHour]
    rfl
  rw [younger, decide_eq_true_eq, hmillis, createdMoment]
  constructor <;> intro h <;> linarith

/-- The query selects the rows that the other filters let through and that are from behind the
cutoff. -/
theorem mem_selectedRows_iff {s : String} (hargs : args.since = some s) {time : ℚ}
    (hs : DenotesTime s.toList time) (hpast : time ≤ now.moment) {later : Clock} {db : Db}
    {created : Row → Int} (hexact : ∀ params,
      historyRequest debugStr now args = .ok (.ok params) → SinceExact later db created params)
    {params : Json} (hsent : historyRequest debugStr now args = .ok (.ok params)) {row : Row}
    (hrow : row ∈ db.transactions) (hpasses : args.passes row = true) :
    row ∈ selectedRows later params db ↔
      time + leftOut now later time < createdMoment created row := by
  obtain ⟨hours, hhours, rfl⟩ := (historyRequest_since hargs hs hpast params).mp hsent
  have hnumber := buildHistoryParams_since args.limit args.status args.action (some hours)
  have hcutoff : time + leftOut now later time = later.val / 1000 - 3600 * (hours.val : ℚ) := by
    rw [leftOut, hhours.2, Int.cast_natCast]
    linarith
  rw [mem_selectedRows (buildHistoryParams_status ..) (buildHistoryParams_action ..) hnumber,
    Option.map_some, Option.all_some, hexact _ hsent hours.val hnumber row hrow, younger_moment,
    ← hcutoff, and_iff_right hrow, and_iff_right hpasses]

/-- A query is sent when the clock and the hours fit. -/
theorem historyRequest_sent_iff (debugStr : String → String) {s : String}
    (hargs : args.since = some s) {time : ℚ} (hs : DenotesTime s.toList time)
    (hpast : time ≤ now.moment) :
    (∃ params, historyRequest debugStr now args = .ok (.ok params)) ↔
      0 ≤ now.secs ∧ (now.secs - ⌊time⌋) / 3600 < 2 ^ 32 := by
  simp only [historyRequest_since hargs hs hpast]
  constructor
  · rintro ⟨params, hours, hhours, -⟩
    have hlt := hours.isLt
    exact ⟨hhours.1, by omega⟩
  · rintro ⟨hepoch, hfit⟩
    have hle : ⌊time⌋ ≤ now.secs := by
      rw [← now.floor_moment]
      exact Int.floor_mono hpast
    refine ⟨_, ⟨((now.secs - ⌊time⌋) / 3600).toNat, by omega⟩, ⟨hepoch, ?_⟩, rfl⟩
    show _ = ((((now.secs - ⌊time⌋) / 3600).toNat : Nat) : Int)
    omega

/-- The query selects all of them exactly when the clock and the hours fit and no row that the
other filters let through is from between the moment and the cutoff. -/
theorem history_complete_iff {s : String} (hargs : args.since = some s) {time : ℚ}
    (hs : DenotesTime s.toList time) (hpast : time ≤ now.moment) {later : Clock} {db : Db}
    {created : Row → Int} (hexact : ∀ params,
      historyRequest debugStr now args = .ok (.ok params) → SinceExact later db created params) :
    HistoryComplete debugStr now args later db created time ↔
      (0 ≤ now.secs ∧ (now.secs - ⌊time⌋) / 3600 < 2 ^ 32) ∧
        ∀ row ∈ db.transactions, args.passes row = true → time ≤ createdMoment created row →
          time + leftOut now later time < createdMoment created row := by
  rw [← historyRequest_sent_iff debugStr hargs hs hpast]
  constructor
  · rintro ⟨params, hsent, hall⟩
    refine ⟨⟨params, hsent⟩, ?_⟩
    intro row hrow hpasses htime
    exact (mem_selectedRows_iff hargs hs hpast hexact hsent hrow hpasses).mp
      (hall row hrow hpasses htime)
  · rintro ⟨⟨params, hsent⟩, hall⟩
    refine ⟨params, hsent, ?_⟩
    intro row hrow hpasses htime
    exact (mem_selectedRows_iff hargs hs hpast hexact hsent hrow hpasses).mpr
      (hall row hrow hpasses htime)

end Complete

/-! ## A row from the last hour before midnight -/

def eveningEnv : StoreEnv := { sampleEnv with now := 1700005200000 }

/-- Created at 2023-11-14T23:40:00Z. -/
def eveningRow : Row := newRow sampleCrypto sampleKey eveningEnv 1 "" sampleTransaction

def eveningDb : Db := ⟨[eveningRow], []⟩

def createdEvening : Row → Int := fun _ => eveningEnv.now.val

/-- A quarter of an hour past midnight. -/
def midnight : SystemTime := ⟨1700007300, 0, by decide, by decide⟩

def sinceArgs (s : String) : HistoryArgs := ⟨none, none, some s, 20⟩

/-- 2000-01-01T00:00:00. -/
def newCentury : Instant :=
  ⟨⟨2000, 1, 1⟩, 0, 0, 0, ⟨by decide, by decide, by decide, by decide⟩, by decide, by decide,
    by decide, by decide⟩

/-- 2023-11-14T23:30:00. -/
def halfPastEleven : Instant :=
  ⟨⟨2023, 11, 14⟩, 23, 30, 0, ⟨by decide, by decide, by decide, by decide⟩, by decide, by decide,
    by decide, by decide⟩

theorem newCentury_unix : newCentury.unix = 946684800 :=
  Except.ok.inj (newCentury.second_eq.symm.trans (by decide +kernel))

theorem halfPastEleven_unix : halfPastEleven.unix = 1700004600 :=
  Except.ok.inj (halfPastEleven.second_eq.symm.trans (by decide +kernel))

theorem denotesTime_instant {x : Instant} {n : Nat} (h : x.unix = n) :
    DenotesTime (x.text ++ ['Z']) n := by
  refine ⟨x, [], Or.inl rfl, ⟨['Z'], by decide, by rw [List.append_nil]⟩, ?_⟩
  have hnone : fractionValue [] = 0 := rfl
  rw [h, hnone, add_zero, Int.cast_natCast]

theorem newCentury_denotes : DenotesTime "2000-01-01T00:00:00Z".toList (946684800 : Nat) := by
  have htext : "2000-01-01T00:00:00Z".toList = newCentury.text ++ ['Z'] := by decide
  rw [htext]
  exact denotesTime_instant newCentury_unix

theorem halfPastEleven_denotes :
    DenotesTime "2023-11-14T23:30:00Z".toList (1700004600 : Nat) := by
  have htext : "2023-11-14T23:30:00Z".toList = halfPastEleven.text ++ ['Z'] := by decide
  rw [htext]
  exact denotesTime_instant halfPastEleven_unix

theorem midnight_moment : midnight.moment = (1700007300 : Nat) := by
  simp [SystemTime.moment, midnight]

/-- The hours that are sent from midnight, and the comparison in the one row. -/
theorem evening_exact {s : String} {n : Nat} (hs : DenotesTime s.toList n) (hn : n ≤ 1700007300)
    (hrow : createdWithinHours 1700007300000 ((1700007300 - n) / 3600) eveningRow.createdAt =
      younger createdEvening 1700007300000 ((1700007300 - n) / 3600) eveningRow) (params : Json)
    (hsent : historyRequest id midnight (sinceArgs s) = .ok (.ok params)) :
    SinceExact 1700007300000 eveningDb createdEvening params := by
  have hpast : (n : ℚ) ≤ midnight.moment := by
    rw [midnight_moment]
    exact_mod_cast hn
  obtain ⟨sent, hhours, rfl⟩ := (historyRequest_since rfl hs hpast params).mp hsent
  have hseconds : midnight.secs = 1700007300 := rfl
  intro hours hnumber row hmem
  rw [buildHistoryParams_since, Option.map_some, Except.ok.injEq, Option.some.injEq] at hnumber
  have hequal : hours = (1700007300 - n) / 3600 := by
    have hdiv := hhours.2
    rw [Int.floor_natCast, hseconds] at hdiv
    omega
  rw [List.mem_singleton.mp hmem, hequal]
  exact hrow

theorem newCentury_complete : HistoryComplete id midnight (sinceArgs "2000-01-01T00:00:00Z")
    1700007300000 eveningDb createdEvening (946684800 : Nat) := by
  have hpast : ((946684800 : Nat) : ℚ) ≤ midnight.moment := by
    rw [midnight_moment]
    norm_num
  refine (history_complete_iff rfl newCentury_denotes hpast
    (evening_exact newCentury_denotes (by decide) (by decide))).mpr ⟨⟨by decide, ?_⟩, ?_⟩
  · rw [Int.floor_natCast]
    decide
  · intro row _ _ _
    rw [leftOut, createdMoment, Int.floor_natCast]
    norm_num [midnight, createdEvening, eveningEnv]

/-- At a quarter past midnight no row since half past eleven is asked for. -/
theorem evening_notComplete :
    DenotesTime "2023-11-14T23:30:00Z".toList (1700004600 : Nat) ∧
    ((1700004600 : Nat) : ℚ) ≤ midnight.moment ∧
    (∀ params, historyRequest id midnight (sinceArgs "2023-11-14T23:30:00Z") = .ok (.ok params) →
      SinceExact 1700007300000 eveningDb createdEvening params) ∧
    ¬ HistoryComplete id midnight (sinceArgs "2023-11-14T23:30:00Z") 1700007300000 eveningDb
      createdEvening (1700004600 : Nat) := by
  have hpast : ((1700004600 : Nat) : ℚ) ≤ midnight.moment := by
    rw [midnight_moment]
    norm_num
  have hexact := evening_exact halfPastEleven_denotes (by decide) (by decide)
  refine ⟨halfPastEleven_denotes, hpast, hexact, ?_⟩
  rintro ⟨params, hsent, hall⟩
  have htime : ((1700004600 : Nat) : ℚ) ≤ createdMoment createdEvening eveningRow := by
    rw [createdMoment]
    norm_num [createdEvening, eveningEnv]
  have hmem := hall eveningRow (List.mem_singleton_self _) rfl htime
  rw [mem_selectedRows_iff rfl halfPastEleven_denotes hpast hexact hsent
    (List.mem_singleton_self _) rfl, leftOut, createdMoment, Int.floor_natCast] at hmem
  norm_num [midnight, createdEvening, eveningEnv] at hmem

end Sysknife
