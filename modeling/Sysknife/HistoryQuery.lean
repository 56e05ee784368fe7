import Sysknife.Lib.Fallible
import Sysknife.Lib.Selection
import Sysknife.QueryTools
import Sysknife.TerminalReply

/-!
# Queries of the job history

`ListJobHistory` from the parameters of a request to the rows that are listed. A parameter
is narrowed to 32 bits or left out on its way to the store; what is asked for and what is
sent select the same rows under a condition on both.
-/

namespace Sysknife

open Fallible Interaction Selection

/-! ## What is asked for -/

structure HistoryWanted where
  limit : Nat
  status : Option JobState
  action : Option String
  sinceHours : Option Nat

/-- A status is given by its name. -/
def JobState.ofName (name : String) : Option JobState :=
  UnitEnum.variants.find? fun s : JobState => UnitEnum.variantName s == name

/-- A parameter that may be absent and has a type when it is not. -/
def optional {α : Type} (read : Json → Option α) : Option Json → Option (Option α)
  | none => some none
  | some v => (read v).map some

/-- The parameters as what they stand for; `none` when one is of another type. -/
def historyWanted (params : Json) : Option HistoryWanted := do
  let limit ← optional Json.asU64 (params.get "limit")
  let status ← optional (fun v => v.asStr.bind JobState.ofName) (params.get "status_filter")
  let action ← optional Json.asStr (params.get "action_filter")
  let sinceHours ← optional Json.asU64 (params.get "since_hours")
  some ⟨limit.getD 20, status, action, sinceHours⟩

section Rows
-- `created` is the moment of a row in milliseconds
variable (created : Row → Int) (now : Clock)

/-- Created less than so many hours ago. -/
def younger (hours : Nat) (row : Row) : Bool :=
  decide ((now.val : Int) < created row + hours * millisPerHour)

def HistoryWanted.satisfied (wanted : HistoryWanted) (row : Row) : Bool :=
  wanted.status.all (fun s => row.hasStatus s) &&
    wanted.action.all (fun a => row.actionName == a) &&
    wanted.sinceHours.all fun h => younger created now h row

/-- Every row that satisfies the filters, newest first. -/
def HistoryWanted.found (wanted : HistoryWanted) (db : Db) : List Row :=
  orderBySeqDesc (db.transactions.filter (wanted.satisfied created now))

/-- The rows to be listed. -/
def HistoryWanted.rows (wanted : HistoryWanted) (db : Db) : List Row :=
  (wanted.found created now db).take (min wanted.limit 100)

end Rows

/-! ## What is answered -/

section Answers
variable (crypto : Crypto) (store : TransactionStore) (env : StoreEnv) (db : Db)

/-- The store answers from its rows, and the client takes every frame that fits. -/
def storeWorld : World DaemonOp DaemonOp.Answer := fun _ op =>
  match op with
  | .send response => some (writeResult response)
  | .store call => some (call.exec crypto store (fun _ => env) db).1
  | _ => none

variable (requestId actionName : String) (params : Json)

def historyLog : List (Event DaemonOp DaemonOp.Answer) :=
  ((handleListJobHistory requestId actionName params).runIn (storeWorld crypto store env db) []).2

def historyOutput (status action : Option String) (sinceHours : Option Nat)
    (records : List TransactionRecord) : String :=
  if records.isEmpty then noTransactionsMessage status action sinceHours
  else formatJobHistory records

/-- A frame that is sent and whether it fits. -/
def sent (response : DaemonResponse) : Event DaemonOp DaemonOp.Answer :=
  ⟨.send response, writeResult response⟩

/-- The store was asked and its records were listed. -/
def HistoryListed (records : List TransactionRecord) : Prop :=
  ∃ limit status action sinceHours,
    historyLog crypto store env db requestId actionName params =
      [⟨.store (.listTransactions limit status action sinceHours), .ok records⟩,
        sent (.queryActionResponse requestId actionName
          (historyOutput status action sinceHours records))]

/-- The last frame is an error. -/
def HistoryRejected : Prop :=
  ∃ category message,
    (historyLog crypto store env db requestId actionName params).getLast? =
      some (sent (.errorResponse requestId category message))

/-- What is asked for is listed, or the request is rejected. -/
def HistoryAnswered (created : Row → Int) : Prop :=
  match historyWanted params with
  | some wanted => ∃ records,
      List.Forall₂ (fun row record => row.toRecord = .ok record)
        (wanted.rows created env.now db) records ∧
      HistoryListed crypto store env db requestId actionName params records
  | none => HistoryRejected crypto store env db requestId actionName params

end Answers

/-! ## What the store holds -/

/-- The hours go back to a moment that SQLite can name. -/
def reaches (now : Clock) (hours : Nat) : Bool :=
  decide (hours * millisPerHour ≤ calendarMillis now + 148704724800000)

/-- A store that works: its rows can be read, the primary key is one, and the moments of rows
are compared as they are. -/
structure HistoryStore (env : StoreEnv) (db : Db) (created : Row → Int) (sinceHours : Option Nat) :
    Prop where
  works : env.fault = none
  readable : ∀ row ∈ db.transactions, ∃ record, row.toRecord = .ok record
  ids : (db.transactions.map Row.transactionId).Nodup
  compares : ∀ h, sinceHours = some h → reaches env.now h = true → ∀ row ∈ db.transactions,
    createdWithinHours env.now h row.createdAt = younger created env.now h row

/-- What calls of the store's methods write into an empty database. -/
inductive StoreContent (crypto : Crypto) : Db → Prop where
  | empty : StoreContent crypto .empty
  | call {db : Db} (h : StoreContent crypto db) (store : TransactionStore) (env : Nat → StoreEnv)
      (call : StoreCall) : StoreContent crypto (call.exec crypto store env db).2

section Content
variable {crypto : Crypto} {db : Db}

theorem newRow_toRecord (key : AuditKey) (env : StoreEnv) (seq : Nat) (prevChainHash : String)
    (transaction : NewTransaction) :
    (newRow crypto key env seq prevChainHash transaction).toRecord =
      .ok (newRecord env transaction) :=
  toRecord_ok_iff.mpr ⟨transaction.riskLevel, .queued, transaction.warnings,
    readField_serializeField _, readField_serializeField _,
    deserializeStrings_serializeStrings _, rfl⟩

theorem toRecord_setStatus {row : Row} {record : TransactionRecord}
    (h : row.toRecord = .ok record) (status : JobState) :
    { row with status := serializeField status }.toRecord =
      .ok { record with status := status } := by
  obtain ⟨riskLevel, before, warnings, hrisk, -, hwarnings, rfl⟩ := toRecord_ok_iff.mp h
  exact toRecord_ok_iff.mpr
    ⟨riskLevel, status, warnings, hrisk, readField_serializeField _, hwarnings, rfl⟩

theorem setStatus_readable (h : ∀ row ∈ db.transactions, ∃ record, row.toRecord = .ok record)
    (status : JobState) (where_ : Row → Bool) :
    ∀ row ∈ (db.setStatus status where_).2.transactions, ∃ record, row.toRecord = .ok record := by
  intro row hrow
  obtain ⟨before, hbefore, rfl⟩ := List.mem_map.mp hrow
  obtain ⟨record, hrecord⟩ := h before hbefore
  split
  · exact ⟨_, toRecord_setStatus hrecord status⟩
  · exact ⟨record, hrecord⟩

/-- What the methods have written can be read. -/
theorem StoreContent.readable (h : StoreContent crypto db) :
    ∀ row ∈ db.transactions, ∃ record, row.toRecord = .ok record := by
  induction h with
  | empty => exact fun row hrow => absurd hrow List.not_mem_nil
  | @call before _ store env call ih =>
    have heffect := call_effect crypto store env before call
    generalize (call.exec crypto store env before).1 = answer at heffect
    generalize (call.exec crypto store env before).2 = after at heffect ⊢
    cases heffect with
    | inserted _ _ _ hrows =>
      intro row hrow
      rw [hrows] at hrow
      rcases List.mem_append.mp hrow with hold | hnew
      · exact ih row hold
      · rw [List.mem_singleton.mp hnew]
        exact ⟨_, newRow_toRecord ..⟩
    | claimed transactionId => exact setStatus_readable ih _ _
    | updated newStatus => exact setStatus_readable ih _ _
    | canceled => exact setStatus_readable ih _ _
    | failed | notFound | found | listed => exact ih

theorem StoreContent.ids (h : StoreContent crypto db) :
    (db.transactions.map Row.transactionId).Nodup := by
  induction h with
  | empty => exact List.nodup_nil
  | call _ store env call ih => exact call_ids ih (call_effect crypto store env _ call)

end Content

/-- What the methods have written is such a store. -/
theorem historyStore_of_content {crypto : Crypto} {db : Db} (h : StoreContent crypto db)
    {env : StoreEnv} (hworks : env.fault = none) {created : Row → Int} {sinceHours : Option Nat}
    (hcompares : ∀ hours, sinceHours = some hours → reaches env.now hours = true →
      ∀ row ∈ db.transactions,
        createdWithinHours env.now hours row.createdAt = younger created env.now hours row) :
    HistoryStore env db created sinceHours :=
  ⟨hworks, h.readable, h.ids, hcompares⟩

/-! ## What the store is asked for -/

/-- An integer from 0 to 2^64 - 1, if there is a value. -/
def IntegerParam (params : Json) (key : String) : Prop :=
  ∀ v, params.get key = some v → ∃ n, v.asU64 = some n

/-- `n as u32`. -/
def asU32 (n : Nat) : Nat := n % 2 ^ 32

theorem asU32_le (n : Nat) : asU32 n ≤ n := Nat.mod_le ..

/-- The value that is sent for a number parameter. -/
def sentNumber (params : Json) (key : String) : Option Nat :=
  ((params.get key).bind Json.asU64).map asU32

theorem historyNumber_sent {params : Json} {key : String} (h : IntegerParam params key) :
    historyNumber params key = .ok (sentNumber params key) := by
  unfold historyNumber sentNumber
  cases hget : params.get key with
  | none => rfl
  | some v =>
    obtain ⟨n, hn⟩ := h v hget
    simp [hn, asU32]

theorem sentNumber_of_historyNumber {params : Json} {key : String} {n : Option Nat}
    (h : historyNumber params key = .ok n) : sentNumber params key = n := by
  unfold historyNumber at h
  unfold sentNumber
  cases hget : params.get key with
  | none =>
    rw [hget] at h
    exact Except.ok.inj h
  | some v =>
    rw [hget] at h
    cases hv : v.asU64 with
    | none =>
      simp only [hv] at h
      cases h
    | some m =>
      simp only [hv] at h
      rw [Option.bind_some, hv, Option.map_some]
      exact Except.ok.inj h

/-- Younger than the hours that are sent, which SQLite can go back. -/
def HistoryWanted.sentYounger (created : Row → Int) (now : Clock) (wanted : HistoryWanted)
    (row : Row) : Bool :=
  wanted.sinceHours.all fun h =>
    reaches now (asU32 h) && younger created now (asU32 h) row

/-- Every row to be listed is young enough for the hours that are sent, and they are not more
than the limit that is sent. -/
def HistoryKept (created : Row → Int) (now : Clock) (wanted : HistoryWanted) (db : Db) : Prop :=
  (∀ row ∈ wanted.rows created now db, wanted.sentYounger created now row = true) ∧
    min (min wanted.limit 100) (wanted.found created now db).length ≤
      min (asU32 wanted.limit) 100

theorem younger_mono {created : Row → Int} {now : Clock} {h h' : Nat} {row : Row} (hle : h ≤ h')
    (hrow : younger created now h row = true) : younger created now h' row = true := by
  rw [younger, decide_eq_true_eq] at hrow ⊢
  have hmul : (h : Int) * millisPerHour ≤ h' * millisPerHour :=
    Int.mul_le_mul_of_nonneg_right (by omega) (by decide)
  omega

/-- Hours out of the reach of SQLite select no row. -/
theorem createdWithinHours_unreached {now : Clock} {hours : Nat}
    (h : reaches now hours = false) (createdAt : String) :
    createdWithinHours now hours createdAt = false := by
  rw [reaches, decide_eq_false_iff_not] at h
  unfold createdWithinHours
  dsimp only
  rw [if_neg (by omega), decide_eq_false_iff_not]
  exact h

/-- Hours that are fewer select the rows that are younger than both. -/
theorem createdWithinHours_sent {created : Row → Int} {now : Clock} {sent hours : Nat} {row : Row}
    (hle : sent ≤ hours) (hcompares : reaches now sent = true →
      createdWithinHours now sent row.createdAt = younger created now sent row) :
    createdWithinHours now sent row.createdAt =
      (reaches now sent && younger created now sent row && younger created now hours row) := by
  cases hreach : reaches now sent with
  | false => rw [createdWithinHours_unreached hreach, Bool.false_and, Bool.false_and]
  | true =>
    rw [hcompares hreach, Bool.true_and]
    cases hyoung : younger created now sent row with
    | false => rfl
    | true => rw [younger_mono hle hyoung, Bool.and_true]

section Selected
variable {env : StoreEnv} {db : Db} {created : Row → Int} {wanted : HistoryWanted}

theorem inHistory_sent (h : HistoryStore env db created (wanted.sinceHours.map asU32)) {row : Row}
    (hrow : row ∈ db.transactions) :
    row.inHistory env.now wanted.status wanted.action (wanted.sinceHours.map asU32) =
      (wanted.sentYounger created env.now row && wanted.satisfied created env.now row) := by
  have hcompares := h.compares
  unfold Row.inHistory HistoryWanted.satisfied HistoryWanted.sentYounger
  cases hhours : wanted.sinceHours with
  | none => simp only [Option.map_none, Option.all_none, Bool.and_true, Bool.true_and]
  | some hours =>
    rw [hhours, Option.map_some] at hcompares
    rw [Option.map_some, Option.all_some, Option.all_some, Option.all_some,
      createdWithinHours_sent (asU32_le hours) fun hreach =>
        hcompares (asU32 hours) rfl hreach row hrow]
    ac_rfl

/-- Of the rows that are asked for, the query finds the ones younger than the hours sent. -/
theorem found_sent (h : HistoryStore env db created (wanted.sinceHours.map asU32)) :
    orderBySeqDesc (db.transactions.filter (Row.inHistory env.now wanted.status wanted.action
      (wanted.sinceHours.map asU32))) =
      (wanted.found created env.now db).filter (wanted.sentYounger created env.now) := by
  have hfilter : db.transactions.filter (Row.inHistory env.now wanted.status wanted.action
      (wanted.sinceHours.map asU32)) =
      (db.transactions.filter (wanted.satisfied created env.now)).filter
        (wanted.sentYounger created env.now) := by
    rw [List.filter_filter]
    exact List.filter_congr fun row hrow => inHistory_sent h hrow
  rw [HistoryWanted.found, hfilter, orderBySeqDesc, orderBySeqDesc, orderBySeq, orderBySeq,
    List.filter_reverse, filter_insertionSort]

theorem rows_sent_iff (h : HistoryStore env db created (wanted.sinceHours.map asU32)) :
    (orderBySeqDesc (db.transactions.filter (Row.inHistory env.now wanted.status wanted.action
      (wanted.sinceHours.map asU32)))).take (min (asU32 wanted.limit) 100) =
        wanted.rows created env.now db ↔ HistoryKept created env.now wanted db := by
  have hlimit : min (asU32 wanted.limit) 100 ≤ min wanted.limit 100 :=
    Nat.le_min.mpr ⟨(Nat.min_le_left ..).trans (asU32_le _), Nat.min_le_right ..⟩
  rw [found_sent h]
  exact take_filter_eq_iff hlimit

end Selected

/-! ## The run -/

section Run
variable (crypto : Crypto) (store : TransactionStore) {env : StoreEnv} (db : Db)

theorem selectHistory_exec (hworks : env.fault = none) (limit : Nat) (status : Option JobState)
    (action : Option String) (sinceHours : Option Nat) :
    (Statement.selectHistory limit status action sinceHours).exec crypto env db =
      (.ok ((orderBySeqDesc (db.transactions.filter
        (Row.inHistory env.now status action sinceHours))).take limit), db) := by
  rw [Statement.exec, attempt, hworks]

/-- A status filter that is read is put into the query. -/
theorem listTransactions_exec (hworks : env.fault = none) (limit : Nat)
    {status : Option String} (action : Option String) (sinceHours : Option Nat)
    {validated : Option JobState} (hstatus : status.map parseStatusFilter = validated.map some) :
    ((StoreCall.listTransactions limit status action sinceHours).exec crypto store
      (fun _ => env) db).1 =
      ((orderBySeqDesc (db.transactions.filter (Row.inHistory env.now validated action
        sinceHours))).take (min limit 100)).mapM Row.toRecord := by
  have hselect := selectHistory_exec crypto db hworks (min limit 100) validated action sinceHours
  simp only [StoreCall.exec, StoreCall.body, TransactionStore.listTransactions]
  cases status with
  | none =>
    cases validated with
    | some s => cases hstatus
    | none => simp only [query_bind, Prog.runAlone, hselect, Prog.pure_eq]
  | some text =>
    cases validated with
    | none => cases hstatus
    | some s =>
      rw [Option.map_some, Option.map_some, Option.some_inj] at hstatus
      simp only [hstatus, query_bind, Prog.runAlone, hselect, Prog.pure_eq]

theorem listTransactions_exec_unknown (limit : Nat) {status : String} (action : Option String)
    (sinceHours : Option Nat) (hstatus : parseStatusFilter status = none) :
    ((StoreCall.listTransactions limit (some status) action sinceHours).exec crypto store
      (fun _ => env) db).1 = .error .json := by
  simp only [StoreCall.exec, StoreCall.body, TransactionStore.listTransactions, hstatus,
    Prog.pure_eq, Prog.runAlone]

/-- The frame that the answer of the store calls for. -/
def historyReply (requestId actionName : String) (params : Json) :
    Except StoreError (List TransactionRecord) → DaemonResponse
  | .error e => .errorResponse requestId "execution_failure"
      ("failed to query transaction log: " ++ e.display)
  | .ok records => .queryActionResponse requestId actionName
      (historyOutput (optStr params "status_filter") (optStr params "action_filter")
        (sentNumber params "since_hours") records)

/-- The call of the store that is made for the parameters. -/
def historyCall (params : Json) : StoreCall :=
  .listTransactions ((sentNumber params "limit").getD 20) (optStr params "status_filter")
    (optStr params "action_filter") (sentNumber params "since_hours")

theorem sendResponse_storeWorld (env : StoreEnv) (response : DaemonResponse)
    (log : List (Event DaemonOp DaemonOp.Answer)) :
    ((sendResponse response).runIn (storeWorld crypto store env db) log).2 =
      log ++ [sent response] := by
  have hsend : storeWorld crypto store env db log (.send response) =
      some (writeResult response) := rfl
  obtain ⟨out, hrun, -⟩ := sendResponse_runIn hsend
  rw [hrun]
  rfl

theorem historyLog_eq (env : StoreEnv) (requestId actionName : String) {params : Json}
    (hlimit : IntegerParam params "limit") (hsince : IntegerParam params "since_hours") :
    let answer := ((historyCall params).exec crypto store (fun _ => env) db).1
    historyLog crypto store env db requestId actionName params =
      [⟨.store (historyCall params), answer⟩,
        sent (historyReply requestId actionName params answer)] := by
  intro answer
  unfold historyLog handleListJobHistory
  rw [historyNumber_sent hlimit, historyNumber_sent hsince]
  have hask : storeWorld crypto store env db [] (.store (historyCall params)) = some answer := rfl
  refine (congrArg Prod.snd (runIn_op_some hask)).trans ?_
  cases answer with
  | error e => exact sendResponse_storeWorld ..
  | ok records => exact sendResponse_storeWorld ..

end Run

/-! ## Asked for and sent -/

theorem optional_some {α : Type} {read : Json → Option α} {o : Option Json} {a : Option α}
    (h : optional read o = some a) : a = o.bind read ∧ ∀ v, o = some v → ∃ b, read v = some b := by
  cases o with
  | none =>
    cases h
    exact ⟨rfl, nofun⟩
  | some v =>
    obtain ⟨b, hb, rfl⟩ := Option.map_eq_some_iff.mp h
    refine ⟨hb.symm, ?_⟩
    intro v' hv
    cases hv
    exact ⟨b, hb⟩

theorem ofName_parse {name : String} {status : JobState} (h : JobState.ofName name = some status) :
    parseStatusFilter name = some status := by
  have hname : UnitEnum.variantName status = name := by
    simpa using List.find?_some h
  subst hname
  cases status <;> decide

/-- What the parameters stand for is what is sent for them, up to the width of numbers. -/
theorem historyWanted_some {params : Json} {wanted : HistoryWanted}
    (h : historyWanted params = some wanted) :
    (sentNumber params "limit").getD 20 = asU32 wanted.limit ∧
      (optStr params "status_filter").map parseStatusFilter = wanted.status.map some ∧
      optStr params "action_filter" = wanted.action ∧
      sentNumber params "since_hours" = wanted.sinceHours.map asU32 := by
  obtain ⟨limit, hlimit, h⟩ := Option.bind_eq_some_iff.mp h
  obtain ⟨status, hstatus, h⟩ := Option.bind_eq_some_iff.mp h
  obtain ⟨action, haction, h⟩ := Option.bind_eq_some_iff.mp h
  obtain ⟨sinceHours, hsince, h⟩ := Option.bind_eq_some_iff.mp h
  cases h
  refine ⟨?_, ?_, (optional_some haction).1.symm, ?_⟩
  · rw [sentNumber, ← (optional_some hlimit).1]
    cases limit <;> rfl
  · obtain ⟨heq, hread⟩ := optional_some hstatus
    unfold optStr
    cases hget : params.get "status_filter" with
    | none =>
      rw [heq, hget]
      rfl
    | some v =>
      obtain ⟨s, hs⟩ := hread v hget
      obtain ⟨name, hname, hof⟩ := Option.bind_eq_some_iff.mp hs
      rw [heq, hget, Option.bind_some, Option.bind_some, hname, Option.map_some, ofName_parse hof,
        Option.bind_some, hof, Option.map_some]
  · rw [sentNumber, ← (optional_some hsince).1]

/-- A status that is not read is none. -/
theorem historyWanted_unknown {params : Json} {status : String}
    (hopt : optStr params "status_filter" = some status)
    (hparse : parseStatusFilter status = none) : historyWanted params = none := by
  cases hwanted : historyWanted params with
  | none => rfl
  | some wanted =>
    have hstatus := (historyWanted_some hwanted).2.1
    rw [hopt, Option.map_some, hparse] at hstatus
    cases hw : wanted.status with
    | none =>
      rw [hw] at hstatus
      cases hstatus
    | some s =>
      rw [hw] at hstatus
      cases hstatus

/-! ## The rows behind the records -/

theorem exists_records {rows : List Row} (h : ∀ row ∈ rows, ∃ record, row.toRecord = .ok record) :
    ∃ records, List.Forall₂ (fun (row : Row) record => row.toRecord = .ok record) rows records := by
  induction rows with
  | nil => exact ⟨[], .nil⟩
  | cons row rows ih =>
    obtain ⟨record, hrecord⟩ := h row (List.mem_cons_self ..)
    obtain ⟨records, hrecords⟩ := ih fun r hr => h r (List.mem_cons_of_mem _ hr)
    exact ⟨record :: records, .cons hrecord hrecords⟩

/-- Records determine the rows of a table that they were read from. -/
theorem rows_unique {db : Db} (hids : (db.transactions.map Row.transactionId).Nodup)
    {rows rows' : List Row} {records : List TransactionRecord}
    (hrows : ∀ row ∈ rows, row ∈ db.transactions) (hrows' : ∀ row ∈ rows', row ∈ db.transactions)
    (h : List.Forall₂ (fun (row : Row) record => row.toRecord = .ok record) rows records)
    (h' : List.Forall₂ (fun (row : Row) record => row.toRecord = .ok record) rows' records) :
    rows = rows' := by
  induction h generalizing rows' with
  | nil =>
    cases h'
    rfl
  | @cons row record rows records hrow hrest ih =>
    cases h' with
    | @cons row' _ rest _ hrow' hrest' =>
      have hid : row.transactionId = row'.transactionId :=
        (toRecord_ok hrow).1.symm.trans (toRecord_ok hrow').1
      have hsame : row = row' :=
        List.inj_on_of_nodup_map hids (hrows row (List.mem_cons_self ..))
          (hrows' row' (List.mem_cons_self ..)) hid
      have htail : rows = rest :=
        ih (fun r hr => hrows r (List.mem_cons_of_mem _ hr))
          (fun r hr => hrows' r (List.mem_cons_of_mem _ hr)) hrest'
      rw [hsame, htail]

theorem mem_taken {db : Db} {p : Row → Bool} {k : Nat} {row : Row}
    (h : row ∈ (orderBySeqDesc (db.transactions.filter p)).take k) : row ∈ db.transactions := by
  have hmem := List.mem_of_mem_take h
  rw [orderBySeqDesc, List.mem_reverse, orderBySeq, List.mem_insertionSort, List.mem_filter] at hmem
  exact hmem.1

/-! ## What the response lists -/

section Response
variable {crypto : Crypto} {store : TransactionStore} {env : StoreEnv} {db : Db}
variable {requestId actionName : String} {params : Json}

/-- The records that the store has answered are the ones that are listed. -/
theorem listed_iff (hlimit : IntegerParam params "limit")
    (hsince : IntegerParam params "since_hours") {records : List TransactionRecord}
    (hanswer : ((historyCall params).exec crypto store (fun _ => env) db).1 = .ok records)
    (others : List TransactionRecord) :
    HistoryListed crypto store env db requestId actionName params others ↔ others = records := by
  have hlog := historyLog_eq crypto store db env requestId actionName hlimit hsince
  dsimp only at hlog
  rw [hanswer] at hlog
  unfold HistoryListed
  rw [hlog]
  constructor
  · rintro ⟨limit, status, action, sinceHours, h⟩
    cases h
    rfl
  · rintro rfl
    exact ⟨_, _, _, _, rfl⟩

theorem rejected_iff (hlimit : IntegerParam params "limit")
    (hsince : IntegerParam params "since_hours") :
    HistoryRejected crypto store env db requestId actionName params ↔
      ∃ e, ((historyCall params).exec crypto store (fun _ => env) db).1 = .error e := by
  have hlog := historyLog_eq crypto store db env requestId actionName hlimit hsince
  dsimp only at hlog
  unfold HistoryRejected
  rw [hlog]
  cases hanswer : ((historyCall params).exec crypto store (fun _ => env) db).1 with
  | error e => exact iff_of_true ⟨_, _, rfl⟩ ⟨e, rfl⟩
  | ok records =>
    refine iff_of_false ?_ ?_
    · rintro ⟨category, message, h⟩
      cases h
    · rintro ⟨e, h⟩
      cases h

/-- With a status that is read the store answers with records. -/
theorem historyCall_exec (crypto : Crypto) (store : TransactionStore) {created : Row → Int}
    (hstore : HistoryStore env db created (sentNumber params "since_hours"))
    {validated : Option JobState}
    (hstatus : (optStr params "status_filter").map parseStatusFilter = validated.map some) :
    ∃ records, ((historyCall params).exec crypto store (fun _ => env) db).1 = .ok records ∧
      List.Forall₂ (fun (row : Row) record => row.toRecord = .ok record)
        ((orderBySeqDesc (db.transactions.filter (Row.inHistory env.now validated
          (optStr params "action_filter") (sentNumber params "since_hours")))).take
            (min ((sentNumber params "limit").getD 20) 100)) records := by
  obtain ⟨records, hrecords⟩ := exists_records fun row hrow =>
    hstore.readable row (mem_taken (k := min ((sentNumber params "limit").getD 20) 100)
      (p := Row.inHistory env.now validated (optStr params "action_filter")
        (sentNumber params "since_hours")) hrow)
  refine ⟨records, ?_, hrecords⟩
  have hexec := listTransactions_exec crypto store db hstore.works
    ((sentNumber params "limit").getD 20) (optStr params "action_filter")
    (sentNumber params "since_hours") hstatus
  exact hexec.trans (mapM_ok_iff.mpr hrecords)

theorem integerParam_iff (params : Json) (key : String) :
    IntegerParam params key ↔ ∃ n, historyNumber params key = .ok n := by
  rw [historyNumber_ok_iff]
  simp only [IntegerParam, Option.ne_none_iff_exists']

/-- A number that is not read is answered with an error before the store is asked. -/
theorem rejected_of_unread (h : ¬ (IntegerParam params "limit" ∧ IntegerParam params "since_hours")) :
    HistoryRejected crypto store env db requestId actionName params := by
  rw [integerParam_iff, integerParam_iff] at h
  unfold HistoryRejected historyLog handleListJobHistory
  cases hlimit : historyNumber params "limit" with
  | error v =>
    refine ⟨"validation_failure", notIntegerMessage "limit" v, ?_⟩
    exact congrArg List.getLast? (sendResponse_storeWorld crypto store db env _ [])
  | ok limit =>
    cases hsince : historyNumber params "since_hours" with
    | error v =>
      refine ⟨"validation_failure", notIntegerMessage "since_hours" v, ?_⟩
      exact congrArg List.getLast? (sendResponse_storeWorld crypto store db env _ [])
    | ok sinceHours => exact absurd ⟨⟨limit, hlimit⟩, sinceHours, hsince⟩ h

/-- What the planner's tool is measured against is what the handler does: it lists records
for the parameters that are accepted, and answers all others with an error. -/
theorem historyAccepted_iff_answered (crypto : Crypto) (store : TransactionStore)
    (requestId actionName : String) {created : Row → Int}
    (hstore : HistoryStore env db created (sentNumber params "since_hours")) :
    HistoryAccepted params ↔
      ¬ HistoryRejected crypto store env db requestId actionName params := by
  by_cases hnumbers : IntegerParam params "limit" ∧ IntegerParam params "since_hours"
  · obtain ⟨hlimit, hsince⟩ := hnumbers
    rw [rejected_iff hlimit hsince]
    cases hopt : optStr params "status_filter" with
    | none =>
      have hread : (optStr params "status_filter").map parseStatusFilter =
          (none : Option JobState).map some := by
        rw [hopt]
        rfl
      obtain ⟨records, hanswer, -⟩ := historyCall_exec crypto store hstore hread
      refine iff_of_true ⟨(integerParam_iff ..).mp hlimit, (integerParam_iff ..).mp hsince, ?_⟩ ?_
      · intro status hstatus
        rw [hopt] at hstatus
        cases hstatus
      · rintro ⟨e, he⟩
        rw [hanswer] at he
        cases he
    | some status =>
      cases hparse : parseStatusFilter status with
      | none =>
        refine iff_of_false (fun h => ?_) (fun h => h ⟨.json, ?_⟩)
        · have hread := h.status status hopt
          rw [hparse] at hread
          cases hread
        · rw [historyCall, hopt]
          exact listTransactions_exec_unknown _ _ _ _ _ _ hparse
      | some s =>
        have hread : (optStr params "status_filter").map parseStatusFilter =
            (some s).map some := by
          rw [hopt, Option.map_some, hparse, Option.map_some]
        obtain ⟨records, hanswer, -⟩ := historyCall_exec crypto store hstore hread
        refine iff_of_true ⟨(integerParam_iff ..).mp hlimit, (integerParam_iff ..).mp hsince, ?_⟩ ?_
        · intro other hother
          rw [hopt, Option.some.injEq] at hother
          rw [← hother, hparse]
          rfl
        · rintro ⟨e, he⟩
          rw [hanswer] at he
          cases he
  · refine iff_of_false (fun h => hnumbers ?_) (fun h => h (rejected_of_unread hnumbers))
    exact ⟨(integerParam_iff ..).mpr h.limit, (integerParam_iff ..).mpr h.sinceHours⟩

/-- For parameters that stand for something, their rows are listed exactly when they are the
rows that are sent for. -/
theorem answered_wanted {created : Row → Int}
    (hstore : HistoryStore env db created (sentNumber params "since_hours"))
    (hlimit : IntegerParam params "limit") (hsince : IntegerParam params "since_hours")
    {wanted : HistoryWanted} (hwanted : historyWanted params = some wanted) :
    HistoryAnswered crypto store env db requestId actionName params created ↔
      HistoryKept created env.now wanted db := by
  obtain ⟨hlim, hstatus, haction, hhours⟩ := historyWanted_some hwanted
  obtain ⟨records, hanswer, hrecords⟩ := historyCall_exec crypto store hstore hstatus
  rw [hhours] at hstore
  rw [hlim, haction, hhours] at hrecords
  unfold HistoryAnswered
  rw [hwanted, ← rows_sent_iff hstore]
  constructor
  · rintro ⟨others, hothers, hlisted⟩
    rw [(listed_iff hlimit hsince hanswer others).mp hlisted] at hothers
    exact rows_unique hstore.ids (fun _ => mem_taken) (fun _ => mem_taken) hrecords hothers
  · intro h
    rw [h] at hrecords
    exact ⟨records, hrecords, (listed_iff hlimit hsince hanswer records).mpr rfl⟩

/-- The response lists what is asked for, and a filter of another type is rejected, exactly
when each filter is of its type and the narrowed numbers leave no row out that is to be listed;
a text that is no status is rejected as well. -/
theorem listJobHistory_answered_iff (crypto : Crypto) (store : TransactionStore)
    (requestId actionName : String) {created : Row → Int}
    (hstore : HistoryStore env db created (sentNumber params "since_hours"))
    (hlimit : IntegerParam params "limit") (hsince : IntegerParam params "since_hours") :
    HistoryAnswered crypto store env db requestId actionName params created ↔
      (∃ status, optStr params "status_filter" = some status ∧ parseStatusFilter status = none) ∨
        ∃ wanted, historyWanted params = some wanted ∧
          HistoryKept created env.now wanted db := by
  by_cases hunknown : ∃ status, optStr params "status_filter" = some status ∧
      parseStatusFilter status = none
  · refine iff_of_true ?_ (Or.inl hunknown)
    obtain ⟨status, hopt, hparse⟩ := hunknown
    unfold HistoryAnswered
    rw [historyWanted_unknown hopt hparse]
    refine (rejected_iff hlimit hsince).mpr ⟨.json, ?_⟩
    rw [historyCall, hopt]
    exact listTransactions_exec_unknown _ _ _ _ _ _ hparse
  · rw [or_iff_right hunknown]
    cases hwanted : historyWanted params with
    | some wanted => simp [answered_wanted hstore hlimit hsince hwanted]
    | none =>
      -- the store answers with records, so nothing is rejected
      have hvalidated : ∃ validated : Option JobState,
          (optStr params "status_filter").map parseStatusFilter = validated.map some := by
        cases hopt : optStr params "status_filter" with
        | none => exact ⟨none, rfl⟩
        | some status =>
          cases hparse : parseStatusFilter status with
          | none => exact absurd ⟨status, hopt, hparse⟩ hunknown
          | some s => exact ⟨some s, by rw [Option.map_some, hparse, Option.map_some]⟩
      obtain ⟨validated, hvalidated⟩ := hvalidated
      obtain ⟨records, hanswer, -⟩ := historyCall_exec crypto store hstore hvalidated
      refine iff_of_false ?_ (by simp)
      unfold HistoryAnswered
      rw [hwanted]
      intro hrejected
      obtain ⟨e, he⟩ := (rejected_iff hlimit hsince).mp hrejected
      rw [hanswer] at he
      cases he

end Response

/-! ## One row -/

def firstRow : Row := newRow sampleCrypto sampleKey sampleEnv 1 "" sampleTransaction

def oneRowDb : Db := ⟨[firstRow], []⟩

/-- Every row is from the moment of the query. -/
def createdNow : Row → Int := fun _ => sampleEnv.now.val

theorem oneRow_store {sinceHours : Option Nat}
    (h : ∀ hours, sinceHours = some hours →
      createdWithinHours sampleEnv.now hours firstRow.createdAt =
        younger createdNow sampleEnv.now hours firstRow) :
    HistoryStore sampleEnv oneRowDb createdNow sinceHours := by
  refine ⟨rfl, ?_, List.nodup_singleton _, ?_⟩
  · intro row hrow
    rw [List.mem_singleton.mp hrow]
    exact ⟨_, newRow_toRecord ..⟩
  · intro hours hhours _ row hrow
    rw [List.mem_singleton.mp hrow]
    exact h hours hhours

theorem integerParam_of_get {params : Json} {key : String} {n : Fin (2 ^ 64)}
    (h : params.get key = some (.number (.posInt n))) : IntegerParam params key := by
  intro v hv
  rw [h] at hv
  cases hv
  exact ⟨n.val, rfl⟩

theorem integerParam_absent {params : Json} {key : String} (h : params.get key = none) :
    IntegerParam params key := by
  intro v hv
  rw [h] at hv
  cases hv

/-- The queued rows of the last day, ten at most. -/
def dayParams : Json :=
  .object [("limit", .number (.posInt 10)), ("status_filter", .string "queued"),
    ("since_hours", .number (.posInt 24))]

theorem dayParams_answered : HistoryAnswered sampleCrypto ⟨some sampleKey⟩ sampleEnv oneRowDb
    "req-1" "ListJobHistory" dayParams createdNow := by
  have hstore : HistoryStore sampleEnv oneRowDb createdNow
      (sentNumber dayParams "since_hours") := by
    apply oneRow_store
    intro hours hhours
    obtain rfl : hours = 24 := (Option.some.inj hhours).symm
    decide
  refine (listJobHistory_answered_iff _ _ _ _ hstore (integerParam_of_get rfl)
    (integerParam_of_get rfl)).mpr (Or.inr ⟨⟨10, some .queued, none, some 24⟩, rfl, ?_,
      Nat.min_le_left ..⟩)
  intro row _
  rw [HistoryWanted.sentYounger, Option.all_some, younger, createdNow]
  decide

/-- A limit that is 0 in 32 bits. -/
def wideLimitParams : Json := .object [("limit", .number (.posInt 4294967296))]

/-- A status that is a number. -/
def numberStatusParams : Json := .object [("status_filter", .number (.posInt 5))]

/-- One row and 2^32 as the limit: the row is not listed. With a number as the status it is
listed. -/
theorem oneRow_notAnswered :
    (HistoryStore sampleEnv oneRowDb createdNow (sentNumber wideLimitParams "since_hours") ∧
      IntegerParam wideLimitParams "limit" ∧ IntegerParam wideLimitParams "since_hours" ∧
      ¬ HistoryAnswered sampleCrypto ⟨some sampleKey⟩ sampleEnv oneRowDb "req-1" "ListJobHistory"
        wideLimitParams createdNow) ∧
    (HistoryStore sampleEnv oneRowDb createdNow (sentNumber numberStatusParams "since_hours") ∧
      IntegerParam numberStatusParams "limit" ∧ IntegerParam numberStatusParams "since_hours" ∧
      ¬ HistoryAnswered sampleCrypto ⟨some sampleKey⟩ sampleEnv oneRowDb "req-1" "ListJobHistory"
        numberStatusParams createdNow) := by
  have hwide : HistoryStore sampleEnv oneRowDb createdNow
      (sentNumber wideLimitParams "since_hours") := oneRow_store nofun
  have hnumber : HistoryStore sampleEnv oneRowDb createdNow
      (sentNumber numberStatusParams "since_hours") := oneRow_store nofun
  refine ⟨⟨hwide, integerParam_of_get rfl, integerParam_absent rfl, ?_⟩,
    ⟨hnumber, integerParam_absent rfl, integerParam_absent rfl, ?_⟩⟩
  · intro h
    have hwanted : historyWanted wideLimitParams = some ⟨4294967296, none, none, none⟩ := rfl
    have hkept := (answered_wanted hwide (integerParam_of_get rfl) (integerParam_absent rfl)
      hwanted).mp h
    have hfound : (HistoryWanted.found createdNow sampleEnv.now ⟨4294967296, none, none, none⟩
        oneRowDb).length = 1 := rfl
    have hlimit := hkept.2
    rw [hfound] at hlimit
    exact absurd hlimit (by decide)
  · have hstatus : (optStr numberStatusParams "status_filter").map parseStatusFilter =
        (none : Option JobState).map some := rfl
    obtain ⟨records, hanswer, -⟩ := historyCall_exec sampleCrypto ⟨some sampleKey⟩ hnumber hstatus
    intro h
    obtain ⟨e, he⟩ := (rejected_iff (integerParam_absent rfl) (integerParam_absent rfl)).mp h
    rw [hanswer] at he
    cases he

end Sysknife
