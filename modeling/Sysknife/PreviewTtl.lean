import Sysknife.Tamper

/-!
# The lifetime of a preview

A row carries the text of its creation time, and `find_by_request_hash` and
`cleanup_stale_queued` compare that text with a cutoff in another format. Here
the texts are related back to the clock values at which the rows of a run were
inserted.
-/

namespace Sysknife

open Interaction

abbrev StoreEntry := Entry StoreEnv Statement Statement.Answer

/-- The rows a run inserted, each with the moment of its insert. -/
def creations (log : List StoreEntry) : List (String × Clock) :=
  log.filterMap fun e => (e.op.created e.resp).map fun record => (record.transactionId, e.env.now)

theorem creations_concat (log : List StoreEntry) (e : StoreEntry) :
    creations (log ++ [e]) = creations log ++
      ((e.op.created e.resp).map fun record => (record.transactionId, e.env.now)).toList := by
  rw [creations, creations, List.filterMap_append]
  cases h : e.op.created e.resp <;> simp [h]

/-- The stored rows are the created ones, under different ids, each with the
text of its moment. -/
structure TimedBy (db : Db) (log : List StoreEntry) : Prop where
  times : db.transactions.map (fun row => (row.transactionId, row.createdAt)) =
    (creations log).map fun c => (c.1, createdAtText c.2)
  ids : (db.transactions.map Row.transactionId).Nodup

section Run
variable {crypto : Crypto} {store : TransactionStore}

theorem TimedBy.setStatus {db : Db} {log log' : List StoreEntry} (h : TimedBy db log)
    (hlog : creations log' = creations log) (newStatus : JobState) (where_ : Row → Bool) :
    TimedBy (db.setStatus newStatus where_).2 log' where
  times := by
    rw [map_setStatus _ _ _ _ fun _ _ => rfl, hlog]
    exact h.times
  ids := by
    rw [map_setStatus _ _ _ _ fun _ _ => rfl]
    exact h.ids

/-- One statement keeps the rows and the moments together. -/
theorem TimedBy.exec {db : Db} {log : List StoreEntry} (h : TimedBy db log) (i : Nat)
    (env : StoreEnv) (s : Statement) :
    TimedBy (s.exec crypto env db).2 (log ++ [⟨i, env, s, (s.exec crypto env db).1⟩]) := by
  have heffect := exec_effect crypto env db s
  have hlog := creations_concat log ⟨i, env, s, (s.exec crypto env db).1⟩
  generalize (s.exec crypto env db).1 = answer at heffect hlog ⊢
  generalize (s.exec crypto env db).2 = db' at heffect ⊢
  cases heffect with
  | inserted hs hcreated hins hrows =>
    simp only [hcreated, Option.map_some, Option.toList_some] at hlog
    constructor
    · rw [hlog, hrows, List.map_append, List.map_append, h.times]
      rfl
    · rw [hrows, List.map_append, List.nodup_append]
      refine ⟨h.ids, List.nodup_singleton _, ?_⟩
      intro a ha b hb hab
      obtain ⟨row, hrow, rfl⟩ := List.mem_map.mp ha
      obtain rfl := List.mem_singleton.mp hb
      exact hins.id_fresh row hrow hab
  | claimed | updated | canceled => exact h.setStatus (by simpa [Statement.created] using hlog) _ _
  | failed _ e =>
    have hnone : s.created (.error e) = none := by cases s <;> rfl
    rw [hnone] at hlog
    exact ⟨by simpa [hlog] using h.times, h.ids⟩
  | selectedQueued | selectedStatus | selectedHistory =>
    exact ⟨by simpa [hlog, Statement.created] using h.times, h.ids⟩

theorem run_timedBy (inputs : List (Input StoreEnv StoreCall)) :
    TimedBy ((storeSystem crypto store).run inputs).shared
      ((storeSystem crypto store).run inputs).log :=
  System.log_induction (I := fun log db => TimedBy db log)
    ⟨rfl, by simp [storeSystem, Db.empty]⟩ (fun _ _ i env s h => h.exec i env s) inputs

end Run

/-- The text of a row whose moment is known. -/
theorem TimedBy.createdAt_eq {db : Db} {log : List StoreEntry} (h : TimedBy db log) {row : Row}
    (hrow : row ∈ db.transactions) {created : Clock}
    (hc : (row.transactionId, created) ∈ creations log) :
    row.createdAt = createdAtText created := by
  have hmem : (row.transactionId, createdAtText created) ∈
      db.transactions.map fun r => (r.transactionId, r.createdAt) := by
    rw [h.times]
    exact List.mem_map.mpr ⟨_, hc, rfl⟩
  obtain ⟨r, hr, he⟩ := List.mem_map.mp hmem
  obtain ⟨hid, hat⟩ := Prod.mk.inj he
  rw [List.inj_on_of_nodup_map h.ids hrow hr hid.symm, hat]

/-! ## The two methods at a moment -/

/-- `find_by_request_hash` at `now`. -/
def findAt (crypto : Crypto) (db : Db) (now : Clock) (requestHash : String) :
    Except StoreError (Option TransactionRecord) :=
  ((TransactionStore.findByRequestHash requestHash).runAlone (Statement.exec crypto)
    (fun _ => ⟨now, "", none⟩) 0 db).1

/-- The tables after `cleanup_stale_queued` at `now`. -/
def cleanupAt (crypto : Crypto) (db : Db) (now : Clock) : Db :=
  (TransactionStore.cleanupStaleQueued.runAlone (Statement.exec crypto)
    (fun _ => ⟨now, "", none⟩) 0 db).2

/-- The lifetime as documented, with a second to either side: a lookup gives a
`Queued` row younger than 15 minutes, and a cleanup cancels exactly the `Queued`
rows that are not. -/
structure TtlHolds (crypto : Crypto) (db : Db) (log : List StoreEntry) (now : Clock) : Prop where
  find_live : ∀ requestHash record created,
    findAt crypto db now requestHash = .ok (some record) →
      (record.transactionId, created) ∈ creations log →
        record.status = .queued ∧ now.val < created.val + previewTtl + millisPerSecond
  cleanup_rows : (cleanupAt crypto db now).transactions.length = db.transactions.length
  cleanup_exact : ∀ (k : Nat) (row row' : Row) (created : Clock),
    db.transactions[k]? = some row → (cleanupAt crypto db now).transactions[k]? = some row' →
      (row.transactionId, created) ∈ creations log →
        (row' ≠ row → row' = { row with status := serializeField JobState.canceled } ∧
          row.hasStatus .queued = true ∧ created.val + previewTtl ≤ now.val + millisPerSecond) ∧
        (row.hasStatus .queued = true → created.val + previewTtl + millisPerSecond ≤ now.val →
          row'.hasStatus .canceled = true)

/-- No `Queued` row of 15 minutes and a second or more was created on the UTC
date of the cutoff. -/
def NoStaleRowOfCutoffDay (db : Db) (log : List StoreEntry) (now : Clock) : Prop :=
  ∀ row ∈ db.transactions, ∀ created, (row.transactionId, created) ∈ creations log →
    row.hasStatus .queued = true → created.val + previewTtl + millisPerSecond ≤ now.val →
      dayOf (calendarMillis created) ≠ dayOf (calendarMillis now - previewTtl)

section Methods
variable {crypto : Crypto} {db : Db} {log : List StoreEntry} {now : Clock}

theorem findAt_ok {requestHash : String} {record : TransactionRecord}
    (h : findAt crypto db now requestHash = .ok (some record)) :
    ∃ row ∈ db.transactions, row.matchesRequest now requestHash = true ∧
      row.toRecord = .ok record := by
  have heval : findAt crypto db now requestHash =
      match (orderBySeqDesc
        (db.transactions.filter (Row.matchesRequest now requestHash))).head? with
      | none => .ok none
      | some row => row.toRecord.map some := by
    unfold findAt TransactionStore.findByRequestHash
    rw [query_bind]
    simp only [Prog.runAlone, Statement.exec, attempt]
    generalize (orderBySeqDesc
      (db.transactions.filter (Row.matchesRequest now requestHash))).head? = found
    cases found <;> rfl
  rw [heval] at h
  split at h
  · cases h
  · rename_i row hhead
    have hmem := List.mem_of_mem_head? (Option.mem_def.mpr hhead)
    rw [orderBySeqDesc, List.mem_reverse, orderBySeq, List.mem_insertionSort,
      List.mem_filter] at hmem
    refine ⟨row, hmem.1, hmem.2, ?_⟩
    cases hrecord : row.toRecord with
    | error e =>
      rw [hrecord] at h
      cases h
    | ok r =>
      rw [hrecord] at h
      cases h
      rfl

theorem cleanupAt_eq :
    cleanupAt crypto db now = (db.setStatus .canceled (Row.isStaleQueued now)).2 := by
  unfold cleanupAt TransactionStore.cleanupStaleQueued
  rw [query_bind]
  rfl

theorem cleanupAt_getElem {k : Nat} {row row' : Row} (hrow : db.transactions[k]? = some row)
    (hrow' : (cleanupAt crypto db now).transactions[k]? = some row') :
    row' = if row.isStaleQueued now then { row with status := serializeField JobState.canceled }
      else row := by
  rw [cleanupAt_eq, Db.setStatus] at hrow'
  simp only [List.getElem?_map, hrow, Option.map_some, Option.some.injEq] at hrow'
  exact hrow'.symm

/-- What a record was read from. -/
theorem toRecord_ok {row : Row} {record : TransactionRecord} (h : row.toRecord = .ok record) :
    record.transactionId = row.transactionId ∧ record.requestHash = row.requestHash ∧
      (readField row.status : Except StoreError JobState) = .ok record.status := by
  obtain ⟨riskLevel, status, warnings, -, hstatus, -, rfl⟩ := toRecord_ok_iff.mp h
  exact ⟨rfl, rfl, hstatus⟩

/-- A row is fresh exactly when it was not created on a date before the cutoff's. -/
theorem isFresh_iff (now : Clock) (h : TimedBy db log) {row : Row} (hrow : row ∈ db.transactions)
    {created : Clock} (hc : (row.transactionId, created) ∈ creations log) :
    row.isFresh now = true ↔
      dayOf (calendarMillis now - previewTtl) ≤ dayOf (calendarMillis created) := by
  rw [Row.isFresh, decide_eq_true_iff, h.createdAt_eq hrow hc, cutoff_lt_createdAt_iff]

theorem young_of_later_day {created : Clock}
    (h : dayOf (calendarMillis now - previewTtl) < dayOf (calendarMillis created)) :
    now.val < created.val + previewTtl := by
  simp only [dayOf, calendarMillis, Calendar.unixDay, millisPerDay, previewTtl] at *
  omega

theorem old_of_earlier_day {created : Clock}
    (h : dayOf (calendarMillis created) < dayOf (calendarMillis now - previewTtl)) :
    created.val + previewTtl < now.val := by
  simp only [dayOf, calendarMillis, Calendar.unixDay, millisPerDay, previewTtl] at *
  omega

/-- A fresh `Queued` row is live unless it is the kind of row the condition
excludes. -/
theorem live_of_fresh (h : TimedBy db log) (hcond : NoStaleRowOfCutoffDay db log now)
    {row : Row} (hrow : row ∈ db.transactions) {created : Clock}
    (hc : (row.transactionId, created) ∈ creations log) (hq : row.hasStatus .queued = true)
    (hfresh : row.isFresh now = true) :
    now.val < created.val + previewTtl + millisPerSecond := by
  rcases Nat.lt_or_eq_of_le ((isFresh_iff now h hrow hc).mp hfresh) with hlt | heq
  · have hyoung := young_of_later_day hlt
    omega
  · by_contra hold
    exact hcond row hrow created hc hq (Nat.not_lt.mp hold) heq.symm

end Methods

/-- The lifetime holds at a moment exactly when no stale row was created on the
date of the cutoff: on that date the text comparison finds every row fresh. -/
theorem ttl_holds_iff (crypto : Crypto) (store : TransactionStore)
    (inputs : List (Input StoreEnv StoreCall)) (now : Clock) :
    let P := (storeSystem crypto store).run inputs
    TtlHolds crypto P.shared P.log now ↔ NoStaleRowOfCutoffDay P.shared P.log now := by
  intro P
  have h : TimedBy P.shared P.log := run_timedBy inputs
  constructor
  · -- a stale row of the cutoff's date is fresh, so the cleanup leaves it
    intro httl row hrow created hc hq hold hday
    obtain ⟨k, hk⟩ := List.mem_iff_getElem?.mp hrow
    have hfresh := (isFresh_iff now h hrow hc).mpr hday.symm.le
    have hk' : (cleanupAt crypto P.shared now).transactions[k]? = some row := by
      rw [cleanupAt_eq, Db.setStatus]
      simp [List.getElem?_map, hk, Row.isStaleQueued, hfresh]
    have hcanceled := (httl.cleanup_exact k row row created hk hk' hc).2 hq hold
    simp only [Row.hasStatus, beq_iff_eq] at hq hcanceled
    exact absurd (serializeField_inj (hq.symm.trans hcanceled)) (by decide)
  · intro hcond
    refine ⟨?_, ?_, ?_⟩
    · intro requestHash record created hfind hc
      obtain ⟨row, hrow, hmatch, hrecord⟩ := findAt_ok hfind
      simp only [Row.matchesRequest, Bool.and_eq_true] at hmatch
      obtain ⟨hid, -, hstatus⟩ := toRecord_ok hrecord
      rw [hid] at hc
      refine ⟨?_, live_of_fresh h hcond hrow hc hmatch.1.2 hmatch.2⟩
      have hq := hmatch.1.2
      simp only [Row.hasStatus, beq_iff_eq] at hq
      rw [hq, readField_serializeField] at hstatus
      exact (Except.ok.inj hstatus).symm
    · rw [cleanupAt_eq, Db.setStatus]
      simp
    · intro k row row' created hk hk' hc
      have hrow := List.mem_iff_getElem?.mpr ⟨k, hk⟩
      have hrow' := cleanupAt_getElem hk hk'
      constructor
      · intro hne
        split_ifs at hrow' with hstale
        · simp only [Row.isStaleQueued, Bool.and_eq_true, Bool.not_eq_true'] at hstale
          have hday := (isFresh_iff now h hrow hc).not.mp (by simp [hstale.2])
          have hold := old_of_earlier_day (Nat.not_le.mp hday)
          exact ⟨hrow', hstale.1, by omega⟩
        · exact absurd hrow' hne
      · intro hq hold
        have hnot : row.isFresh now = false := by
          by_contra hfresh
          have hlive := live_of_fresh h hcond hrow hc hq (by simpa using hfresh)
          omega
        rw [hrow', if_pos (by simp [Row.isStaleQueued, hq, hnot])]
        simp [Row.hasStatus]

/-- A preview of 2023-11-14T22:13:20Z is still found at 23:59:59, and not yet
canceled. -/
theorem ttl_fails_same_day :
    ¬ TtlHolds sampleCrypto
      ((storeSystem sampleCrypto ⟨some sampleKey⟩).run sampleInputs).shared
      ((storeSystem sampleCrypto ⟨some sampleKey⟩).run sampleInputs).log 1700006399000 := by
  intro httl
  have hfind : findAt sampleCrypto
      ((storeSystem sampleCrypto ⟨some sampleKey⟩).run sampleInputs).shared 1700006399000 "" =
        .ok (some (newRecord sampleEnv sampleTransaction)) := by
    decide +kernel
  have hcreated : (sampleEnv.uuid, sampleEnv.now) ∈
      creations ((storeSystem sampleCrypto ⟨some sampleKey⟩).run sampleInputs).log := by
    decide +kernel
  exact absurd (httl.find_live _ _ _ hfind hcreated).2 (by decide)

end Sysknife
