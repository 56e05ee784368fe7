import Sysknife.PreviewTtl

/-!
# Status writes under interleaving

`claim_for_execution` and `cleanup_stale_queued` are single guarded updates.
`update_status` reads the status in one statement and overwrites it in another,
so its write is only as good as what the row still holds by then.
-/

namespace Sysknife

open Interaction

/-- Every status that changes between two states of the tables makes an allowed
transition. -/
def WriteAllowed (db db' : Db) : Prop :=
  ∀ row ∈ db.transactions, ∀ row' ∈ db'.transactions, row'.transactionId = row.transactionId →
    row'.status ≠ row.status →
      ∃ current next, row.status = serializeField current ∧ row'.status = serializeField next ∧
        allowedTransition current next = true

/-- The statement takes effect. -/
def StoreEnv.runs (env : StoreEnv) : Bool :=
  match env.fault with
  | some (0, _) => false
  | _ => true

/-- What a row may hold when a status is written that was allowed after `read`:
what was read, what is written, or `Running` where `Queued` is canceled. -/
def StillLegal (read new current : JobState) : Prop :=
  current = read ∨ current = new ∨ read = .queued ∧ new = .canceled ∧ current = .running

abbrev StorePool := Pool Db StoreEnv StoreCall Statement Statement.Answer StoreCall.Answer

/-- The row and status a call has read so far. -/
def statusRead (store : TransactionStore) (P : StorePool) (i : Nat) : Option (String × JobState) :=
  (storeMonitor store).after none (eventsOf i P.log)

/-- The next step is no `UPDATE` of `update_status`, or the row still holds a
status the update is legal from. -/
def UpdateUndisturbed (store : TransactionStore) (P : StorePool)
    (x : Input StoreEnv StoreCall) : Prop :=
  ∀ i env call new transactionId k, x = .act i env → env.runs = true →
    P.threads[i]? = some ⟨call, .op (.updateStatus new transactionId) k⟩ →
      ∀ read, statusRead store P i = some (transactionId, read) →
        ∀ row ∈ P.shared.transactions, row.transactionId = transactionId →
          ∀ current, row.status = serializeField current → StillLegal read new current

theorem stillLegal_iff {read new current : JobState} (hallowed : allowedTransition read new = true)
    (hqueued : read ≠ .queued → current ≠ .queued) :
    StillLegal read new current ↔ current = new ∨ allowedTransition current new = true := by
  cases read <;> cases new <;> first
    | exact absurd hallowed (by decide)
    | cases current <;> simp_all [StillLegal, allowedTransition]

/-! ## Stored statuses -/

/-- Every status column holds a status. -/
def WellStatused (db : Db) : Prop :=
  ∀ row ∈ db.transactions, ∃ status : JobState, row.status = serializeField status

section Exec
variable {crypto : Crypto} {store : TransactionStore} {db : Db}

theorem WellStatused.setStatus (h : WellStatused db) (newStatus : JobState)
    (where_ : Row → Bool) : WellStatused (db.setStatus newStatus where_).2 := by
  intro row' hrow'
  obtain ⟨row, hrow, rfl⟩ := mem_setStatus newStatus where_ db hrow'
  split
  · exact ⟨newStatus, rfl⟩
  · exact h row hrow

theorem WellStatused.exec (h : WellStatused db) (env : StoreEnv) (s : Statement) :
    WellStatused (s.exec crypto env db).2 := by
  have heffect := exec_effect crypto env db s
  generalize (s.exec crypto env db).1 = answer at heffect
  generalize (s.exec crypto env db).2 = db' at heffect
  cases heffect with
  | inserted hs hcreated hins hrows =>
    intro row hrow
    rw [hrows] at hrow
    rcases List.mem_append.mp hrow with hrow | hrow
    · exact h row hrow
    · obtain rfl := List.mem_singleton.mp hrow
      exact ⟨.queued, rfl⟩
  | claimed | updated | canceled => exact h.setStatus _ _
  | failed | selectedQueued | selectedStatus | selectedHistory => exact h

theorem run_wellStatused (inputs : List (Input StoreEnv StoreCall)) :
    WellStatused ((storeSystem crypto store).run inputs).shared :=
  System.log_induction (I := fun _ db => WellStatused db) (fun _ hrow => absurd hrow List.not_mem_nil)
    (fun _ _ _ env s h => h.exec env s) inputs

/-- A status that a statement writes is not `Queued`. -/
def HasLeftQueue (db : Db) (transactionId : String) : Prop :=
  ∃ row ∈ db.transactions, row.transactionId = transactionId ∧ row.hasStatus .queued = false

theorem HasLeftQueue.setStatus {transactionId : String} (h : HasLeftQueue db transactionId)
    {newStatus : JobState} (hnew : newStatus ≠ .queued) (where_ : Row → Bool) :
    HasLeftQueue (db.setStatus newStatus where_).2 transactionId := by
  obtain ⟨row, hrow, hid, hq⟩ := h
  refine ⟨if where_ row then { row with status := serializeField newStatus } else row,
    List.mem_map_of_mem hrow, ?_, ?_⟩
  · split
    · exact hid
    · exact hid
  · split
    · simp only [Row.hasStatus, beq_eq_false_iff_ne]
      exact fun he => hnew (serializeField_inj he)
    · exact hq

/-- A row that has left `Queued` does not come back. -/
theorem HasLeftQueue.exec {transactionId : String} (h : HasLeftQueue db transactionId)
    {read : Option (String × JobState)} {s : Statement}
    (hguard : (storeMonitor store).guard read s) (env : StoreEnv) :
    HasLeftQueue (s.exec crypto env db).2 transactionId := by
  have heffect := exec_effect crypto env db s
  generalize (s.exec crypto env db).1 = answer at heffect
  generalize (s.exec crypto env db).2 = db' at heffect
  cases heffect with
  | inserted hs hcreated hins hrows =>
    obtain ⟨row, hrow, hid, hq⟩ := h
    exact ⟨row, by rw [hrows]; exact List.mem_append_left _ hrow, hid, hq⟩
  | claimed => exact h.setStatus (by decide) _
  | updated newStatus =>
    obtain ⟨current, -, hallowed⟩ := hguard
    refine h.setStatus ?_ _
    intro rfl
    rw [allowedTransition_queued] at hallowed
    cases hallowed
  | canceled => exact h.setStatus (by decide) _
  | failed | selectedQueued | selectedStatus | selectedHistory => exact h

/-- A status read as left from `Queued` is that of a row that has left it. -/
theorem next_left_queue {read : Option (String × JobState)} {s : Statement} {env : StoreEnv}
    (hread : ∀ transactionId current, read = some (transactionId, current) → current ≠ .queued →
      HasLeftQueue (s.exec crypto env db).2 transactionId)
    {transactionId : String} {current : JobState}
    (hnext : (storeMonitor store).next read s (s.exec crypto env db).1 =
      some (transactionId, current)) (hq : current ≠ .queued) :
    HasLeftQueue (s.exec crypto env db).2 transactionId := by
  have heffect := exec_effect crypto env db s
  generalize (s.exec crypto env db).1 = answer at heffect hnext
  generalize (s.exec crypto env db).2 = db' at heffect hread ⊢
  cases heffect with
  | selectedStatus id =>
    cases hfind : db.transactions.find? fun row => row.hasId id with
    | none =>
      simp only [hfind, Option.map_none] at hnext
      exact hread _ _ hnext hq
    | some row =>
      simp only [storeMonitor, hfind, Option.map_some, Option.map_eq_some_iff,
        Prod.mk.injEq] at hnext
      obtain ⟨status, hstatus, rfl, rfl⟩ := hnext
      refine ⟨row, List.mem_of_find?_eq_some hfind, ?_, ?_⟩
      · simpa [Row.hasId] using List.find?_some hfind
      · simp only [Row.hasStatus, beq_eq_false_iff_ne]
        intro he
        rw [he, deserializeField_serializeField] at hstatus
        exact hq (Option.some.inj hstatus).symm
  | failed s e =>
    have hsame : (storeMonitor store).next read s (.error e) = read := by cases s <;> rfl
    rw [hsame] at hnext
    exact hread _ _ hnext hq
  | inserted hs =>
    have hsame : (storeMonitor store).next read s answer = read := by
      cases s <;> first | rfl | cases hs
    rw [hsame] at hnext
    exact hread _ _ hnext hq
  | claimed | updated | canceled | selectedQueued | selectedHistory => exact hread _ _ hnext hq

/-- What a call has read of a row that has left `Queued` stays true of it. -/
theorem run_read_left_queue (inputs : List (Input StoreEnv StoreCall)) :
    ∀ i transactionId current,
      statusRead store ((storeSystem crypto store).run inputs) i = some (transactionId, current) →
        current ≠ .queued →
          HasLeftQueue ((storeSystem crypto store).run inputs).shared transactionId := by
  refine System.run_induction_guarded (m := storeMonitor store) (g := fun _ => none)
    (fun call => storeCall_safe _ call none)
    (I := fun P => ∀ i transactionId current, statusRead store P i = some (transactionId, current) →
      current ≠ .queued → HasLeftQueue P.shared transactionId) ?_ ?_ ?_ inputs
  · intro i transactionId current h
    cases h
  · exact fun P call h _ => h
  · intro P i env call s k h hi hguard j transactionId current hread hq
    have hold : ∀ j transactionId current, statusRead store P j = some (transactionId, current) →
        current ≠ .queued → HasLeftQueue (s.exec crypto env P.shared).2 transactionId :=
      fun j transactionId current hr hq => (h j transactionId current hr hq).exec hguard env
    by_cases hij : i = j
    · subst hij
      have hev := eventsOf_concat_self P.log ⟨i, env, s, (s.exec crypto env P.shared).1⟩
      unfold statusRead at hread
      rw [System.afterAct] at hread
      simp only at hread hev
      rw [show (storeSystem crypto store).exec = Statement.exec crypto from rfl, hev,
        Monitor.after_concat] at hread
      exact next_left_queue (hold i) hread hq
    · have hev := eventsOf_concat_other (i := j) P.log
        (e := ⟨i, env, s, (s.exec crypto env P.shared).1⟩) hij
      unfold statusRead at hread
      rw [System.afterAct] at hread
      simp only at hread
      rw [show (storeSystem crypto store).exec = Statement.exec crypto from rfl, hev] at hread
      exact hold j transactionId current hread hq

end Exec

/-! ## Allowed writes -/

section Writes
variable {crypto : Crypto} {db : Db}

theorem writeAllowed_refl (db : Db) (hids : (db.transactions.map Row.transactionId).Nodup) :
    WriteAllowed db db := by
  intro row hrow row' hrow' hid hne
  rw [List.inj_on_of_nodup_map hids hrow' hrow hid] at hne
  exact absurd rfl hne

/-- A status write is allowed when it is from every row it changes. -/
theorem writeAllowed_setStatus_iff (hids : (db.transactions.map Row.transactionId).Nodup)
    (hstatus : WellStatused db) (newStatus : JobState) (where_ : Row → Bool) :
    WriteAllowed db (db.setStatus newStatus where_).2 ↔
      ∀ row ∈ db.transactions, where_ row = true → ∀ current, row.status = serializeField current →
        current = newStatus ∨ allowedTransition current newStatus = true := by
  constructor
  · intro h row hrow hwhere current hcurrent
    by_cases he : current = newStatus
    · exact Or.inl he
    · have hrow' : { row with status := serializeField newStatus } ∈
          (db.setStatus newStatus where_).2.transactions :=
        List.mem_map.mpr ⟨row, hrow, by rw [if_pos hwhere]⟩
      obtain ⟨src, dst, hsrc, hdst, hallowed⟩ := h row hrow _ hrow' rfl (by
        rw [hcurrent]
        exact fun hs => he (serializeField_inj hs).symm)
      rw [serializeField_inj (hcurrent.symm.trans hsrc), serializeField_inj hdst]
      exact Or.inr hallowed
  · intro h row hrow row' hrow' hid hne
    obtain ⟨r, hr, rfl⟩ := mem_setStatus newStatus where_ db hrow'
    have hrid : r.transactionId = row.transactionId := by
      split at hid
      · exact hid
      · exact hid
    obtain rfl := List.inj_on_of_nodup_map hids hr hrow hrid
    split at hne
    · rename_i hwhere
      obtain ⟨current, hcurrent⟩ := hstatus r hr
      rcases h r hr hwhere current hcurrent with rfl | hallowed
      · exact absurd hcurrent.symm hne
      · exact ⟨current, newStatus, hcurrent, by rw [if_pos hwhere], hallowed⟩
    · exact absurd rfl hne

/-- A write guarded by `status = Queued` is allowed when its target is. -/
theorem writeAllowed_guarded (hids : (db.transactions.map Row.transactionId).Nodup)
    (hstatus : WellStatused db) {newStatus : JobState}
    (hnew : allowedTransition .queued newStatus = true) {where_ : Row → Bool}
    (hwhere : ∀ row, where_ row = true → row.hasStatus .queued = true) :
    WriteAllowed db (db.setStatus newStatus where_).2 := by
  rw [writeAllowed_setStatus_iff hids hstatus]
  intro row _ hw current hcurrent
  have hq := hwhere row hw
  simp only [Row.hasStatus, beq_iff_eq] at hq
  rw [serializeField_inj (hcurrent.symm.trans hq)]
  exact Or.inr hnew

/-- Every statement but the `UPDATE` of `update_status` writes allowed
transitions only. -/
theorem writeAllowed_exec (hids : (db.transactions.map Row.transactionId).Nodup)
    (hstatus : WellStatused db) (env : StoreEnv) {s : Statement}
    (hs : ∀ newStatus transactionId, s ≠ .updateStatus newStatus transactionId) :
    WriteAllowed db (s.exec crypto env db).2 := by
  have heffect := exec_effect crypto env db s
  generalize (s.exec crypto env db).1 = answer at heffect
  generalize (s.exec crypto env db).2 = db' at heffect
  cases heffect with
  | inserted _ hcreated hins hrows =>
    intro row hrow row' hrow' hid hne
    rw [hrows] at hrow'
    rcases List.mem_append.mp hrow' with hmem | hmem
    · exact writeAllowed_refl db hids row hrow row' hmem hid hne
    · obtain rfl := List.mem_singleton.mp hmem
      exact absurd hid.symm (hins.id_fresh row hrow)
  | claimed =>
    refine writeAllowed_guarded hids hstatus rfl fun row hw => ?_
    simp only [Row.isClaimable, Bool.and_eq_true] at hw
    exact hw.2
  | canceled =>
    refine writeAllowed_guarded hids hstatus rfl fun row hw => ?_
    simp only [Row.isStaleQueued, Bool.and_eq_true] at hw
    exact hw.1
  | updated => exact absurd rfl (hs _ _)
  | failed | selectedQueued | selectedStatus | selectedHistory => exact writeAllowed_refl db hids

theorem attempt_snd {α : Type} (env : StoreEnv) (db : Db) (f : Db → α × Db) :
    (attempt env db f).2 = if env.runs then (f db).2 else db := by
  obtain ⟨now, uuid, fault⟩ := env
  rcases fault with _ | ⟨_ | n, detail⟩ <;> rfl

theorem exec_updateStatus (env : StoreEnv) (newStatus : JobState) (transactionId : String) :
    ((Statement.updateStatus newStatus transactionId).exec crypto env db).2 =
      if env.runs then (db.setStatus newStatus fun row => row.hasId transactionId).2 else db :=
  attempt_snd env db _

end Writes

/-! ## The two conditions agree -/

section Step
variable (crypto : Crypto) (store : TransactionStore)

/-- An `UPDATE` of `update_status` writes allowed transitions exactly when it
comes undisturbed. -/
theorem update_writeAllowed_iff (inputs : List (Input StoreEnv StoreCall)) {i : Nat}
    {env : StoreEnv} {call : StoreCall} {newStatus : JobState} {transactionId : String}
    {k : (Statement.updateStatus newStatus transactionId).Answer → StoreProg call.Answer}
    (hi : ((storeSystem crypto store).run inputs).threads[i]? =
      some ⟨call, .op (.updateStatus newStatus transactionId) k⟩) (hruns : env.runs = true) :
    let P := (storeSystem crypto store).run inputs
    WriteAllowed P.shared (P.shared.setStatus newStatus fun row => row.hasId transactionId).2 ↔
      UpdateUndisturbed store P (.act i env) := by
  intro P
  have htimed : TimedBy P.shared P.log := run_timedBy inputs
  have hstatus : WellStatused P.shared := run_wellStatused inputs
  obtain ⟨read, hread, hallowed⟩ := System.guard_of_thread (m := storeMonitor store)
    (g := fun _ => none) (fun call => storeCall_safe store call none) inputs hi
  have hleft : ∀ row ∈ P.shared.transactions, row.transactionId = transactionId →
      ∀ current, row.status = serializeField current → read ≠ JobState.queued →
        current ≠ JobState.queued := by
    intro row hrow hid current hcurrent hq rfl
    obtain ⟨r, hr, hrid, hrq⟩ := run_read_left_queue inputs i _ _ hread hq
    obtain rfl := List.inj_on_of_nodup_map htimed.ids hr hrow (hrid.trans hid.symm)
    simp [Row.hasStatus, hcurrent] at hrq
  rw [writeAllowed_setStatus_iff htimed.ids hstatus]
  constructor
  · intro h j env' call' new' id' k' hx _ hj read' hread' row hrow hid current hcurrent
    cases hx
    rw [hi] at hj
    cases hj
    obtain rfl : read = read' := by
      have he := hread.symm.trans hread'
      exact (Prod.mk.inj (Option.some.inj he)).2
    exact (stillLegal_iff hallowed (hleft row hrow hid current hcurrent)).mpr
      (h row hrow (by simpa [Row.hasId] using hid) current hcurrent)
  · intro h row hrow hid current hcurrent
    have hid' : row.transactionId = transactionId := by simpa [Row.hasId] using hid
    exact (stillLegal_iff hallowed (hleft row hrow hid' current hcurrent)).mp
      (h i env call newStatus transactionId k rfl hruns hi read hread row hrow hid' current hcurrent)

/-- One step writes allowed transitions exactly when it is undisturbed. -/
theorem step_writeAllowed_iff (inputs : List (Input StoreEnv StoreCall))
    (x : Input StoreEnv StoreCall) :
    let P := (storeSystem crypto store).run inputs
    WriteAllowed P.shared ((storeSystem crypto store).step P x).shared ↔
      UpdateUndisturbed store P x := by
  intro P
  have htimed : TimedBy P.shared P.log := run_timedBy inputs
  have hstatus : WellStatused P.shared := run_wellStatused inputs
  have hsame := writeAllowed_refl P.shared htimed.ids
  cases x with
  | start call =>
    refine iff_of_true ?_ ?_
    · simpa [System.step, System.afterStart, storeSystem] using hsame
    · intro i env call' new id k hx
      cases hx
  | act i env =>
    rcases hi : P.threads[i]? with _ | ⟨call, a | ⟨s, k⟩⟩
    · refine iff_of_true (by simpa [System.step, hi] using hsame) ?_
      intro j env' call new id k hx _ hj
      cases hx
      rw [hi] at hj
      cases hj
    · refine iff_of_true (by simpa [System.step, hi] using hsame) ?_
      intro j env' call new id k hx _ hj
      cases hx
      rw [hi] at hj
      cases hj
    · have hshared : ((storeSystem crypto store).step P (.act i env)).shared =
          (s.exec crypto env P.shared).2 := by
        simp [System.step, hi, System.afterAct, storeSystem]
      rw [hshared]
      by_cases hs : ∃ newStatus transactionId, s = .updateStatus newStatus transactionId
      · obtain ⟨newStatus, transactionId, rfl⟩ := hs
        rw [exec_updateStatus]
        split
        · rename_i hruns
          exact update_writeAllowed_iff crypto store inputs hi hruns
        · rename_i hruns
          refine iff_of_true hsame ?_
          intro j env' call' new id k' hx hruns'
          cases hx
          exact absurd hruns' hruns
      · refine iff_of_true (writeAllowed_exec htimed.ids hstatus env
          fun newStatus transactionId he => hs ⟨newStatus, transactionId, he⟩) ?_
        intro j env' call' new id k' hx _ hj
        cases hx
        rw [hi] at hj
        cases hj
        exact absurd ⟨new, id, rfl⟩ hs

/-- Every status write of a run is allowed exactly when every `UPDATE` of
`update_status` in it comes undisturbed. -/
theorem status_safe_iff (inputs : List (Input StoreEnv StoreCall)) :
    let S := storeSystem crypto store
    (∀ before x after, inputs = before ++ x :: after →
      WriteAllowed (S.run before).shared (S.run (before ++ [x])).shared) ↔
    (∀ before x after, inputs = before ++ x :: after →
      UpdateUndisturbed store (S.run before) x) := by
  intro S
  have hstep : ∀ before x, WriteAllowed (S.run before).shared (S.run (before ++ [x])).shared ↔
      UpdateUndisturbed store (S.run before) x := by
    intro before x
    rw [System.run_concat]
    exact step_writeAllowed_iff crypto store before x
  simp only [hstep]

end Step

/-- Two `update_status` calls on one claimed row, both past their `SELECT`. -/
def racingUpdates : List (Input StoreEnv StoreCall) :=
  sampleInputs ++
    [.start (.claimForExecution sampleEnv.uuid), .act 1 sampleEnv,
     .start (.updateStatus sampleEnv.uuid .succeeded),
     .start (.updateStatus sampleEnv.uuid .failed),
     .act 2 sampleEnv, .act 3 sampleEnv, .act 2 sampleEnv]

set_option maxRecDepth 100000 in
/-- The second write takes the row from `Succeeded` to `Failed`. -/
theorem status_unsafe_race :
    ¬ ∀ before x after, racingUpdates ++ [.act 3 sampleEnv] = before ++ x :: after →
      WriteAllowed ((storeSystem sampleCrypto ⟨some sampleKey⟩).run before).shared
        ((storeSystem sampleCrypto ⟨some sampleKey⟩).run (before ++ [x])).shared := by
  intro h
  have hstep := h racingUpdates (.act 3 sampleEnv) [] rfl
  have hrows : ∃ row ∈ ((storeSystem sampleCrypto ⟨some sampleKey⟩).run
        racingUpdates).shared.transactions,
      ∃ row' ∈ ((storeSystem sampleCrypto ⟨some sampleKey⟩).run
        (racingUpdates ++ [.act 3 sampleEnv])).shared.transactions,
      row'.transactionId = row.transactionId ∧ row.status = serializeField JobState.succeeded ∧
        row'.status = serializeField JobState.failed := by
    decide +kernel
  obtain ⟨row, hrow, row', hrow', hid, hsucceeded, hfailed⟩ := hrows
  obtain ⟨current, next, hcurrent, hnext, hallowed⟩ := hstep row hrow row' hrow' hid
    (by rw [hsucceeded, hfailed]; decide)
  rw [← serializeField_inj (hsucceeded.symm.trans hcurrent),
    ← serializeField_inj (hfailed.symm.trans hnext)] at hallowed
  cases hallowed

end Sysknife
