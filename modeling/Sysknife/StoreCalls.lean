import Sysknife.PreviewTtl

/-!
# What a store call does as one step

The handlers of the daemon see a store method as one call. `call_effect` says
once what each method can answer and do to the tables when its statements run
together; the status of a row, looked up by its id, is followed through it.
-/

namespace Sysknife

open Interaction

/-- A store method run to its end; `env n` is what its `n`-th statement meets. -/
def StoreCall.exec (crypto : Crypto) (store : TransactionStore) (env : Nat → StoreEnv) (db : Db)
    (call : StoreCall) : call.Answer × Db :=
  (call.body store).runAlone (Statement.exec crypto) env 0 db

/-- The record a call did insert. -/
def StoreCall.created : (call : StoreCall) → call.Answer → Option TransactionRecord
  | .record _, .ok created => some created
  | .recordPreviewed .., .ok recorded => some recorded.transaction
  | _, _ => none

/-- The row a call would insert. -/
def StoreCall.inserts : StoreCall → Option NewTransaction
  | .record transaction => some transaction
  | .recordPreviewed transaction _ => some transaction
  | _ => none

/-- What a call can answer and do to `db`. -/
inductive CallEffect (crypto : Crypto) (env : Nat → StoreEnv) (db : Db) :
    (call : StoreCall) → call.Answer → Db → Prop where
  | failed (call : StoreCall) (e : StoreError) : CallEffect crypto env db call (.error e) db
  | inserted {call : StoreCall} {answer : call.Answer} {key : AuditKey}
      {transaction : NewTransaction} {db' : Db} (hcall : call.inserts = some transaction)
      (hcreated : call.created answer = some (newRecord (env 0) transaction))
      (hins : Insertable db (appendedRow crypto key (env 0) db transaction))
      (hrows : db'.transactions =
        db.transactions ++ [appendedRow crypto key (env 0) db transaction]) :
      CallEffect crypto env db call answer db'
  | notFound (requestHash : String) :
      CallEffect crypto env db (.findByRequestHash requestHash) (.ok none) db
  | found (requestHash : String) {row : Row} {record : TransactionRecord}
      (hrow : row ∈ db.transactions) (hmatch : row.matchesRequest (env 0).now requestHash = true)
      (hrecord : row.toRecord = .ok record) :
      CallEffect crypto env db (.findByRequestHash requestHash) (.ok (some record)) db
  | claimed (transactionId : String) :
      CallEffect crypto env db (.claimForExecution transactionId)
        (.ok (db.transactions.any (Row.isClaimable transactionId)))
        (db.setStatus .running (Row.isClaimable transactionId)).2
  | updated {transactionId : String} (newStatus : JobState)
      (hrow : ∃ row ∈ db.transactions, row.transactionId = transactionId) :
      CallEffect crypto env db (.updateStatus transactionId newStatus) (.ok ())
        (db.setStatus newStatus fun row => row.hasId transactionId).2
  | canceled :
      CallEffect crypto env db .cleanupStaleQueued
        (.ok (db.transactions.countP (Row.isStaleQueued (env 0).now)))
        (db.setStatus .canceled (Row.isStaleQueued (env 0).now)).2
  | listed (limit : Nat) (statusFilter actionFilter : Option String) (sinceHours : Option Nat)
      (records : List TransactionRecord) :
      CallEffect crypto env db (.listTransactions limit statusFilter actionFilter sinceHours)
        (.ok records) db

section Effect
variable (crypto : Crypto) (store : TransactionStore) (env : Nat → StoreEnv) (db : Db)

theorem record_effect (transaction : NewTransaction) :
    CallEffect crypto env db (.record transaction)
      ((StoreCall.record transaction).exec crypto store env db).1
      ((StoreCall.record transaction).exec crypto store env db).2 := by
  simp only [StoreCall.exec, StoreCall.body, TransactionStore.record]
  cases store.auditKey with
  | none => exact .failed _ _
  | some key =>
    have heffect := exec_effect crypto (env 0) db (.insert key transaction)
    simp only [query, Prog.perform, Prog.runAlone]
    generalize (Statement.insert key transaction).exec crypto (env 0) db = out at heffect ⊢
    obtain ⟨answer, db'⟩ := out
    cases answer with
    | error e =>
      cases heffect with
      | failed => exact .failed _ _
      | inserted _ hcreated => cases hcreated
    | ok record =>
      cases heffect with
      | inserted hs hcreated hins hrows =>
        cases hs
        exact .inserted rfl hcreated hins hrows

theorem recordPreviewed_effect (transaction : NewTransaction) (preview : PreviewEnvelope) :
    CallEffect crypto env db (.recordPreviewed transaction preview)
      ((StoreCall.recordPreviewed transaction preview).exec crypto store env db).1
      ((StoreCall.recordPreviewed transaction preview).exec crypto store env db).2 := by
  simp only [StoreCall.exec, StoreCall.body, TransactionStore.recordPreviewed]
  cases store.auditKey with
  | none => exact .failed _ _
  | some key =>
    have heffect := exec_effect crypto (env 0) db (.insertPreviewed key transaction preview)
    simp only [query, Prog.perform, Prog.runAlone]
    generalize (Statement.insertPreviewed key transaction preview).exec crypto (env 0) db = out
      at heffect ⊢
    obtain ⟨answer, db'⟩ := out
    cases answer with
    | error e =>
      cases heffect with
      | failed => exact .failed _ _
      | inserted _ hcreated => cases hcreated
    | ok recorded =>
      cases heffect with
      | inserted hs hcreated hins hrows =>
        cases hs
        exact .inserted rfl hcreated hins hrows

theorem findByRequestHash_effect (requestHash : String) :
    CallEffect crypto env db (.findByRequestHash requestHash)
      ((StoreCall.findByRequestHash requestHash).exec crypto store env db).1
      ((StoreCall.findByRequestHash requestHash).exec crypto store env db).2 := by
  have heffect := exec_effect crypto (env 0) db (.selectQueued requestHash)
  simp only [StoreCall.exec, StoreCall.body, TransactionStore.findByRequestHash, query_bind,
    Prog.runAlone]
  generalize (Statement.selectQueued requestHash).exec crypto (env 0) db = out at heffect ⊢
  obtain ⟨answer, db'⟩ := out
  dsimp only at heffect
  cases heffect with
  | failed => exact .failed _ _
  | inserted hs => cases hs
  | selectedQueued =>
    cases hhead : (orderBySeqDesc
        (db.transactions.filter (Row.matchesRequest (env 0).now requestHash))).head? with
    | none => exact .notFound requestHash
    | some row =>
      have hmem := List.mem_of_mem_head? (Option.mem_def.mpr hhead)
      rw [orderBySeqDesc, List.mem_reverse, orderBySeq, List.mem_insertionSort,
        List.mem_filter] at hmem
      simp only [Prog.pure_eq, Prog.runAlone]
      cases hrecord : row.toRecord with
      | error e => exact .failed _ e
      | ok record => exact .found requestHash hmem.1 hmem.2 hrecord

theorem claimForExecution_effect (transactionId : String) :
    CallEffect crypto env db (.claimForExecution transactionId)
      ((StoreCall.claimForExecution transactionId).exec crypto store env db).1
      ((StoreCall.claimForExecution transactionId).exec crypto store env db).2 := by
  have heffect := exec_effect crypto (env 0) db (.claim transactionId)
  simp only [StoreCall.exec, StoreCall.body, TransactionStore.claimForExecution, query_bind,
    Prog.runAlone]
  generalize (Statement.claim transactionId).exec crypto (env 0) db = out at heffect ⊢
  obtain ⟨answer, db'⟩ := out
  dsimp only at heffect
  cases heffect with
  | failed => exact .failed _ _
  | inserted hs => cases hs
  | claimed =>
    have hany : Nat.blt 0 (db.transactions.countP (Row.isClaimable transactionId)) =
        db.transactions.any (Row.isClaimable transactionId) := by
      rw [Bool.eq_iff_iff, Nat.blt_eq, List.countP_pos_iff, List.any_eq_true]
    simp only [Prog.pure_eq, Prog.runAlone, hany]
    exact .claimed transactionId

theorem updateStatus_effect (transactionId : String) (newStatus : JobState) :
    CallEffect crypto env db (.updateStatus transactionId newStatus)
      ((StoreCall.updateStatus transactionId newStatus).exec crypto store env db).1
      ((StoreCall.updateStatus transactionId newStatus).exec crypto store env db).2 := by
  have heffect := exec_effect crypto (env 0) db (.selectStatus transactionId)
  simp only [StoreCall.exec, StoreCall.body, TransactionStore.updateStatus, query_bind,
    Prog.runAlone]
  generalize (Statement.selectStatus transactionId).exec crypto (env 0) db = out at heffect ⊢
  obtain ⟨answer, db'⟩ := out
  dsimp only at heffect
  cases heffect with
  | failed => exact .failed _ _
  | inserted hs => cases hs
  | selectedStatus =>
    cases hfind : db.transactions.find? fun row => row.hasId transactionId with
    | none => exact .failed _ _
    | some row =>
      have hrow : ∃ row ∈ db.transactions, row.transactionId = transactionId :=
        ⟨row, List.mem_of_find?_eq_some hfind, by simpa [Row.hasId] using List.find?_some hfind⟩
      simp only [Option.map_some]
      cases hstatus : (readField row.status : Except StoreError JobState) with
      | error e => exact .failed _ e
      | ok current =>
        simp only
        split
        · have hupdate := exec_effect crypto (env 1) db (.updateStatus newStatus transactionId)
          simp only [Prog.runAlone, Nat.zero_add]
          generalize (Statement.updateStatus newStatus transactionId).exec crypto (env 1) db = out
            at hupdate ⊢
          obtain ⟨answer, db'⟩ := out
          dsimp only at hupdate
          cases hupdate with
          | failed => exact .failed _ _
          | inserted hs => cases hs
          | updated => exact .updated newStatus hrow
        · exact .failed _ _

theorem cleanupStaleQueued_effect :
    CallEffect crypto env db .cleanupStaleQueued
      (StoreCall.cleanupStaleQueued.exec crypto store env db).1
      (StoreCall.cleanupStaleQueued.exec crypto store env db).2 := by
  have heffect := exec_effect crypto (env 0) db .cancelStale
  simp only [StoreCall.exec, StoreCall.body, TransactionStore.cleanupStaleQueued, query_bind,
    Prog.runAlone]
  generalize Statement.cancelStale.exec crypto (env 0) db = out at heffect ⊢
  obtain ⟨answer, db'⟩ := out
  dsimp only at heffect
  cases heffect with
  | failed => exact .failed _ _
  | inserted hs => cases hs
  | canceled => exact .canceled

theorem listTransactions_effect (limit : Nat) (statusFilter actionFilter : Option String)
    (sinceHours : Option Nat) :
    CallEffect crypto env db (.listTransactions limit statusFilter actionFilter sinceHours)
      ((StoreCall.listTransactions limit statusFilter actionFilter sinceHours).exec crypto store
        env db).1
      ((StoreCall.listTransactions limit statusFilter actionFilter sinceHours).exec crypto store
        env db).2 := by
  have hsent : ∀ (status : Option JobState)
      (k : Except StoreError (List Row) → StoreProg (Except StoreError (List TransactionRecord))),
      (∀ e, k (.error e) = pure (.error e)) →
      (∀ rows, k (.ok rows) = pure (rows.mapM Row.toRecord)) →
      CallEffect crypto env db (.listTransactions limit statusFilter actionFilter sinceHours)
        (Prog.runAlone (Statement.exec crypto) env 0 db
          (query (.selectHistory (min limit 100) status actionFilter sinceHours) >>= k)).1
        (Prog.runAlone (Statement.exec crypto) env 0 db
          (query (.selectHistory (min limit 100) status actionFilter sinceHours) >>= k)).2 := by
    intro status k herror hok
    have heffect := exec_effect crypto (env 0) db
      (.selectHistory (min limit 100) status actionFilter sinceHours)
    simp only [query_bind, Prog.runAlone]
    generalize (Statement.selectHistory (min limit 100) status actionFilter sinceHours).exec crypto
      (env 0) db = sent at heffect ⊢
    obtain ⟨answer, db'⟩ := sent
    dsimp only at heffect
    cases heffect with
    | failed =>
      rw [herror]
      exact .failed _ _
    | inserted hs => cases hs
    | selectedHistory =>
      rw [hok]
      simp only [Prog.pure_eq, Prog.runAlone]
      generalize List.mapM Row.toRecord _ = records
      cases records with
      | error e => exact .failed _ e
      | ok records => exact .listed limit statusFilter actionFilter sinceHours records
  simp only [StoreCall.exec, StoreCall.body, TransactionStore.listTransactions]
  cases statusFilter with
  | none => exact hsent none _ (fun _ => rfl) fun _ => rfl
  | some status =>
    simp only
    cases parseStatusFilter status with
    | none => exact .failed _ _
    | some validated => exact hsent (some validated) _ (fun _ => rfl) fun _ => rfl

/-- Every call has one of the effects. -/
theorem call_effect (call : StoreCall) :
    CallEffect crypto env db call (call.exec crypto store env db).1
      (call.exec crypto store env db).2 := by
  cases call with
  | record => exact record_effect crypto store env db _
  | recordPreviewed => exact recordPreviewed_effect crypto store env db _ _
  | findByRequestHash => exact findByRequestHash_effect crypto store env db _
  | claimForExecution => exact claimForExecution_effect crypto store env db _
  | updateStatus => exact updateStatus_effect crypto store env db _ _
  | cleanupStaleQueued => exact cleanupStaleQueued_effect crypto store env db
  | listTransactions => exact listTransactions_effect crypto store env db _ _ _ _

end Effect

/-! ## Rows through a call -/

/-- The row of a transaction holds a status. -/
def Db.Holds (db : Db) (transactionId : String) (status : JobState) : Prop :=
  ∃ row ∈ db.transactions, row.transactionId = transactionId ∧ row.status = serializeField status

/-- What a row was inserted for; no call changes it. -/
def Row.origin (row : Row) : String × String := (row.transactionId, row.requestHash)

def TransactionRecord.origin (record : TransactionRecord) : String × String :=
  (record.transactionId, record.requestHash)

section Rows
variable {crypto : Crypto} {env : Nat → StoreEnv} {db db' : Db}

theorem Db.Holds.unique (hids : (db.transactions.map Row.transactionId).Nodup)
    {transactionId : String} {a b : JobState} (ha : db.Holds transactionId a)
    (hb : db.Holds transactionId b) : a = b := by
  obtain ⟨row, hrow, hid, hstatus⟩ := ha
  obtain ⟨row', hrow', hid', hstatus'⟩ := hb
  obtain rfl := List.inj_on_of_nodup_map hids hrow hrow' (hid.trans hid'.symm)
  exact serializeField_inj (hstatus.symm.trans hstatus')

/-- A status write that passes the row over. -/
theorem Db.Holds.setStatus {transactionId : String} {status : JobState}
    (h : db.Holds transactionId status) (newStatus : JobState) {where_ : Row → Bool}
    (hwhere : ∀ row, row.transactionId = transactionId → row.status = serializeField status →
      where_ row = false) : (db.setStatus newStatus where_).2.Holds transactionId status := by
  obtain ⟨row, hrow, hid, hstatus⟩ := h
  refine ⟨row, List.mem_map.mpr ⟨row, hrow, ?_⟩, hid, hstatus⟩
  rw [hwhere row hid hstatus]
  simp

theorem holds_setStatus {row : Row} (hrow : row ∈ db.transactions) (newStatus : JobState)
    {where_ : Row → Bool} (hwhere : where_ row = true) :
    (db.setStatus newStatus where_).2.Holds row.transactionId newStatus :=
  ⟨{ row with status := serializeField newStatus },
    List.mem_map.mpr ⟨row, hrow, by rw [if_pos hwhere]⟩, rfl, rfl⟩

theorem hasStatus_queued {row : Row} {status : JobState} (h : row.status = serializeField status)
    (hq : status ≠ .queued) : row.hasStatus .queued = false := by
  rw [Row.hasStatus, h, beq_eq_false_iff_ne]
  exact fun he => hq (serializeField_inj he)

/-- A row out of the queue keeps its status but for a call of `update_status`
on it. -/
theorem Db.Holds.call {call : StoreCall} {answer : call.Answer} {transactionId : String}
    {status : JobState} (h : db.Holds transactionId status) (hq : status ≠ .queued)
    (heffect : CallEffect crypto env db call answer db')
    (hcall : ∀ newStatus, call ≠ .updateStatus transactionId newStatus) :
    db'.Holds transactionId status := by
  cases heffect with
  | inserted _ _ hins hrows =>
    obtain ⟨row, hrow, hrest⟩ := h
    exact ⟨row, by rw [hrows]; exact List.mem_append_left _ hrow, hrest⟩
  | claimed other =>
    refine h.setStatus .running fun row _ hstatus => ?_
    rw [Row.isClaimable, hasStatus_queued hstatus hq, Bool.and_false]
  | updated newStatus =>
    refine h.setStatus newStatus fun row hid _ => ?_
    rw [Row.hasId, beq_eq_false_iff_ne]
    intro rfl
    exact hcall newStatus (by rw [hid])
  | canceled =>
    refine h.setStatus .canceled fun row _ hstatus => ?_
    rw [Row.isStaleQueued, hasStatus_queued hstatus hq, Bool.false_and]
  | failed | notFound | found | listed => exact h

/-- A claim that succeeds takes the row from `Queued` to `Running`. -/
theorem claim_holds {transactionId : String}
    (heffect : CallEffect crypto env db (.claimForExecution transactionId) (.ok true) db') :
    db.Holds transactionId .queued ∧ db'.Holds transactionId .running := by
  generalize hanswer : (Except.ok true : Except StoreError Bool) = answer at heffect
  cases heffect with
  | failed => cases hanswer
  | inserted hcall => cases hcall
  | claimed =>
    obtain ⟨row, hrow, hclaimable⟩ := List.any_eq_true.mp (Except.ok.inj hanswer).symm
    have hwhere := hclaimable
    simp only [Row.isClaimable, Row.hasId, Row.hasStatus, Bool.and_eq_true, beq_iff_eq] at hwhere
    obtain ⟨rfl, hstatus⟩ := hwhere
    exact ⟨⟨row, hrow, rfl, hstatus⟩, holds_setStatus hrow .running hclaimable⟩

theorem update_holds {transactionId : String} {newStatus : JobState} {u : Unit}
    (heffect : CallEffect crypto env db (.updateStatus transactionId newStatus) (.ok u) db') :
    db'.Holds transactionId newStatus := by
  cases heffect with
  | inserted hcall => cases hcall
  | updated _ hrow =>
    obtain ⟨row, hrow, rfl⟩ := hrow
    exact holds_setStatus hrow newStatus (by simp [Row.hasId])

theorem error_unchanged {call : StoreCall} {e : StoreError}
    (heffect : CallEffect crypto env db call (.error e) db') : db' = db := by
  generalize hanswer : (Except.error e : call.Answer) = answer at heffect
  cases heffect with
  | inserted _ hcreated =>
    rw [← hanswer] at hcreated
    cases call <;> cases hcreated
  | failed => rfl
  | _ => cases hanswer

/-- The rows are those the calls created, in order. -/
theorem call_origins {call : StoreCall} {answer : call.Answer}
    (heffect : CallEffect crypto env db call answer db') :
    db'.transactions.map Row.origin = db.transactions.map Row.origin ++
      ((call.created answer).map TransactionRecord.origin).toList := by
  cases heffect with
  | inserted _ hcreated _ hrows =>
    rw [hrows, hcreated, List.map_append]
    rfl
  | failed call e =>
    have hnone : call.created (.error e) = none := by cases call <;> rfl
    simp [hnone]
  | claimed | updated | canceled =>
    rw [map_setStatus _ _ _ _ fun _ _ => rfl]
    simp [StoreCall.created]
  | notFound | found | listed => simp [StoreCall.created]

theorem call_ids {call : StoreCall} {answer : call.Answer}
    (hids : (db.transactions.map Row.transactionId).Nodup)
    (heffect : CallEffect crypto env db call answer db') :
    (db'.transactions.map Row.transactionId).Nodup := by
  cases heffect with
  | inserted _ _ hins hrows =>
    rw [hrows, List.map_append, List.nodup_append]
    refine ⟨hids, List.nodup_singleton _, ?_⟩
    intro a ha b hb hab
    obtain ⟨row, hrow, rfl⟩ := List.mem_map.mp ha
    obtain rfl := List.mem_singleton.mp hb
    exact hins.id_fresh row hrow hab
  | claimed | updated | canceled =>
    rw [map_setStatus _ _ _ _ fun _ _ => rfl]
    exact hids
  | failed | notFound | found | listed => exact hids

/-- A lookup gives a row that was inserted for the hash. -/
theorem found_origin {requestHash : String} {record : TransactionRecord}
    (heffect : CallEffect crypto env db (.findByRequestHash requestHash) (.ok (some record)) db') :
    (record.transactionId, requestHash) ∈ db.transactions.map Row.origin := by
  cases heffect with
  | inserted hcall => cases hcall
  | found _ hrow hmatch hrecord =>
    simp only [Row.matchesRequest, Bool.and_eq_true, beq_iff_eq] at hmatch
    rw [(toRecord_ok hrecord).1, ← hmatch.1.1]
    exact List.mem_map_of_mem hrow

/-- A record says what it was inserted for. -/
theorem created_requestHash {call : StoreCall} {answer : call.Answer}
    {transaction : NewTransaction} {record : TransactionRecord}
    (heffect : CallEffect crypto env db call answer db') (hcall : call.inserts = some transaction)
    (hcreated : call.created answer = some record) :
    record.requestHash = transaction.requestHash := by
  cases heffect with
  | inserted hcall' hcreated' =>
    rw [hcall] at hcall'
    rw [hcreated] at hcreated'
    cases hcall'
    cases hcreated'
    rfl
  | failed call e =>
    cases call <;> cases hcreated
  | _ => cases hcall

end Rows

end Sysknife
