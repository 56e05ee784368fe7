import Sysknife.Lib.RowLocks
import Sysknife.PostgresStore

/-!
# Status writes of the Postgres store

`update_status` selects the status `FOR UPDATE` and overwrites it in the same database
transaction; `claim_for_execution` and `cleanup_stale_queued` are one guarded update each.
The statements of any number of calls interleave in any order under READ COMMITTED, and
rows are recorded in between. `StatusRace` has the calls of the SQLite store, where the
select and the update of `update_status` stand alone.
-/

namespace Sysknife

open RowLocks

/-- The calls that write a status. -/
inductive PostgresStatusCall where
  | updateStatus (transactionId : String) (newStatus : JobState)
  | claimForExecution (transactionId : String)
  /-- `expired` is what `created_at::timestamptz <= now() - INTERVAL '15 minutes'` comes to,
  for each text of the column. -/
  | cleanupStaleQueued (expired : String → Bool)

namespace PostgresStatusCall

/-- The condition of the statement that takes the locks. -/
def wants : PostgresStatusCall → Row → Bool
  | .updateStatus transactionId _, row => row.hasId transactionId
  | .claimForExecution transactionId, row => row.isClaimable transactionId
  | .cleanupStaleQueued expired, row => row.hasStatus .queued && expired row.createdAt

/-- What is written over a row, if anything is. -/
def update : PostgresStatusCall → Row → Option Row
  | .updateStatus _ newStatus, row =>
    match readField row.status with
    | .error _ => none
    | .ok current =>
      if allowedTransition current newStatus then
        some { row with status := serializeField newStatus }
      else none
  | .claimForExecution _, row => some { row with status := serializeField JobState.running }
  | .cleanupStaleQueued _, row => some { row with status := serializeField JobState.canceled }

@[reducible] def Result : PostgresStatusCall → Type
  | .updateStatus .. => Unit
  | .claimForExecution _ => Bool
  | .cleanupStaleQueued _ => Nat

/-- What the call returns when its statement has matched these rows. -/
def answer : (call : PostgresStatusCall) → List Row → Except StoreError call.Result
  | .updateStatus transactionId _, [] => .error (.notFound transactionId)
  | .updateStatus _ newStatus, row :: _ =>
    match readField row.status with
    | .error e => .error e
    | .ok current =>
      if allowedTransition current newStatus then .ok ()
      else .error (.invalidTransition current newStatus)
  | .claimForExecution _, held => .ok (Nat.blt 0 held.length)
  | .cleanupStaleQueued _, held => .ok held.length

/-- The calls for one transaction. -/
def transactionId? : PostgresStatusCall → Option String
  | .updateStatus transactionId _ | .claimForExecution transactionId => some transactionId
  | .cleanupStaleQueued _ => none

end PostgresStatusCall

/-- The rows that `record` and `record_previewed` commit: a call, and the tip that its
select has returned. -/
abbrev RecordedRow := PostgresCall × Option (Int × String)

/-- The status writes of the store. A call that returns an error rolls back, which is a
commit that writes nothing. -/
def postgresStatus (crypto : Crypto) : Updater Row String RecordedRow PostgresStatusCall where
  key := Row.transactionId
  row recorded := recorded.1.row crypto recorded.2
  wants := PostgresStatusCall.wants
  update := PostgresStatusCall.update

abbrev PostgresStatusInput := Input RecordedRow PostgresStatusCall

theorem readField_ok {α : Type} [UnitEnum α] {column : String} {a : α}
    (h : readField column = .ok a) : column = serializeField a := by
  unfold readField at h
  split at h
  next b hread =>
    obtain rfl := Except.ok.inj h
    have hname := List.find?_some (show List.find? _ _ = some b from hread)
    exact (eq_of_beq hname).symm
  · cases h

section Calls
variable {crypto : Crypto} {call : PostgresStatusCall} {row row' : Row}

/-- A status write changes the status of a row, to one that may follow. -/
theorem status_update (hwants : call.wants row = true) (hupdate : call.update row = some row') :
    ∃ src dst, row.status = serializeField src ∧ allowedTransition src dst = true ∧
      row' = { row with status := serializeField dst } := by
  cases call with
  | updateStatus transactionId newStatus =>
    cases hread : (readField row.status : Except StoreError JobState) with
    | error e => simp [PostgresStatusCall.update, hread] at hupdate
    | ok current =>
      simp only [PostgresStatusCall.update, hread] at hupdate
      split_ifs at hupdate with hallowed
      exact ⟨current, newStatus, readField_ok hread, hallowed, (Option.some.inj hupdate).symm⟩
  | claimForExecution transactionId =>
    have hqueued := (Bool.and_eq_true_iff.mp hwants).2
    exact ⟨.queued, .running, eq_of_beq hqueued, rfl, (Option.some.inj hupdate).symm⟩
  | cleanupStaleQueued expired =>
    have hqueued := (Bool.and_eq_true_iff.mp hwants).1
    exact ⟨.queued, .canceled, eq_of_beq hqueued, rfl, (Option.some.inj hupdate).symm⟩

theorem postgresStatus_lawful : (postgresStatus crypto).Lawful := by
  intro call row row' hupdate
  cases call with
  | updateStatus transactionId newStatus =>
    simp only [postgresStatus, PostgresStatusCall.update] at hupdate
    split at hupdate
    · cases hupdate
    · split_ifs at hupdate
      rw [← Option.some.inj hupdate]
      rfl
  | claimForExecution transactionId =>
    rw [← Option.some.inj hupdate]
    rfl
  | cleanupStaleQueued expired =>
    rw [← Option.some.inj hupdate]
    rfl

theorem postgresStatus_singleRow {transactionId : String}
    (h : call.transactionId? = some transactionId) : (postgresStatus crypto).SingleRow call := by
  refine ⟨transactionId, fun row hwants => ?_⟩
  cases call with
  | updateStatus =>
    obtain rfl := Option.some.inj h
    exact eq_of_beq hwants
  | claimForExecution =>
    obtain rfl := Option.some.inj h
    exact eq_of_beq (Bool.and_eq_true_iff.mp hwants).1
  | cleanupStaleQueued => cases h

end Calls

/-! ## How often a row can move on -/

/-- How far a row has come. -/
def Row.progress (row : Row) : Nat :=
  match (readField row.status : Except StoreError JobState) with
  | .ok .queued => 0
  | .ok .running => 1
  | _ => 2

theorem progress_lt {row : Row} {src dst : JobState} (hsrc : row.status = serializeField src)
    (h : allowedTransition src dst = true) :
    row.progress < ({ row with status := serializeField dst } : Row).progress := by
  unfold Row.progress
  rw [hsrc, readField_serializeField, readField_serializeField]
  cases src <;> cases dst <;> simp_all [allowedTransition]

section Runs
variable (crypto : Crypto) (inputs : List PostgresStatusInput)

/-- Every committed write is an allowed transition of one row. -/
theorem change_allowed {c : Change Row}
    (hc : c ∈ ((postgresStatus crypto).run inputs).store.changes) :
    ∃ src dst, c.old.status = serializeField src ∧ allowedTransition src dst = true ∧
      c.new = { c.old with status := serializeField dst } := by
  obtain ⟨call, phase, -, -, hwants, hupdate⟩ :=
    (Updater.run_history postgresStatus_lawful inputs).made c hc
  exact status_update hwants hupdate

/-- Two changes of one row are not from the same status. -/
theorem change_once {c d : Change Row} (hc : c ∈ ((postgresStatus crypto).run inputs).store.changes)
    (hd : d ∈ ((postgresStatus crypto).run inputs).store.changes)
    (hid : c.old.transactionId = d.old.transactionId) (hstatus : c.old.status = d.old.status) :
    c = d := by
  have hhistory := Updater.run_history (U := postgresStatus crypto) postgresStatus_lawful inputs
  obtain ⟨row, hrow, hkey⟩ := hhistory.known c hc
  obtain ⟨x, -, htrail⟩ := hhistory.trail row hrow
  refine htrail.eq_of_measure (f := Row.progress) ?_
    (List.mem_filter.mpr ⟨hc, Updater.hasKey_iff.mpr hkey.symm⟩)
    (List.mem_filter.mpr ⟨hd, Updater.hasKey_iff.mpr (hid.symm.trans hkey.symm)⟩) ?_
  · intro e he
    obtain ⟨src, dst, hsrc, hallowed, hnew⟩ :=
      change_allowed crypto inputs (List.mem_filter.mp he).1
    rw [hnew]
    exact progress_lt hsrc hallowed
  · rw [Row.progress, Row.progress, hstatus]

/-- The call has come to its commit and returns this. -/
def Returned (i : Nat) (call : PostgresStatusCall) (answer : Except StoreError call.Result) :
    Prop :=
  ∃ held, ((postgresStatus crypto).run inputs).calls[i]? = some (call, .committed held) ∧
    answer = call.answer held

/-- What a call that has returned has changed is in the changes. -/
theorem mem_changes {i : Nat} {call : PostgresStatusCall} {held : List Row}
    (hi : ((postgresStatus crypto).run inputs).calls[i]? = some (call, .committed held))
    {c : Change Row} (hc : c ∈ (postgresStatus crypto).changesOf i call held) :
    c ∈ ((postgresStatus crypto).run inputs).store.changes := by
  rw [← (Updater.run_history postgresStatus_lawful inputs).whole i call held hi] at hc
  exact (List.mem_filter.mp hc).1

/-- A claim that has returned `true` has changed the row that was `Queued`. -/
theorem claimed_change {i : Nat} {transactionId : String}
    (hi : Returned crypto inputs i (.claimForExecution transactionId) (.ok true)) :
    ∃ c ∈ ((postgresStatus crypto).run inputs).store.changes, c.call = i ∧
      c.old.transactionId = transactionId ∧ c.old.status = serializeField JobState.queued := by
  obtain ⟨held, hcall, hanswer⟩ := hi
  have hlength : 0 < held.length := (Nat.blt_eq.mp (Except.ok.inj hanswer).symm)
  obtain ⟨row, hrow⟩ := List.exists_mem_of_length_pos hlength
  have hmem := mem_changes crypto inputs hcall
    (c := ⟨i, row, { row with status := serializeField JobState.running }⟩)
    (Updater.mem_changesOf.mpr ⟨rfl, hrow, rfl⟩)
  obtain ⟨call, phase, hmade, -, hwants, -⟩ :=
    (Updater.run_history postgresStatus_lawful inputs).made _ hmem
  rw [hcall] at hmade
  obtain ⟨rfl, -⟩ := Prod.mk.inj (Option.some.inj hmade)
  obtain ⟨hid, hqueued⟩ := Bool.and_eq_true_iff.mp hwants
  exact ⟨_, hmem, rfl, eq_of_beq hid, eq_of_beq hqueued⟩

/-- A transaction is claimed once. -/
theorem claimed_unique {i j : Nat} {transactionId : String}
    (hi : Returned crypto inputs i (.claimForExecution transactionId) (.ok true))
    (hj : Returned crypto inputs j (.claimForExecution transactionId) (.ok true)) : i = j := by
  obtain ⟨c, hc, rfl, hcid, hcqueued⟩ := claimed_change crypto inputs hi
  obtain ⟨d, hd, rfl, hdid, hdqueued⟩ := claimed_change crypto inputs hj
  rw [change_once crypto inputs hc hd (hcid.trans hdid.symm) (hcqueued.trans hdqueued.symm)]

/-- A call for one transaction returns and writes what it would at one moment. -/
theorem returned_at_once {i : Nat} {call : PostgresStatusCall}
    {answer : Except StoreError call.Result} (hi : Returned crypto inputs i call answer)
    {transactionId : String} (hone : call.transactionId? = some transactionId) :
    let U := postgresStatus crypto
    ∃ before, before <+: inputs ∧ (U.run before).Runs i call ∧
      answer = call.answer ((U.run before).store.rows.filter call.wants) ∧
      changesBy i (U.run inputs).store.changes =
        U.changesOf i call ((U.run before).store.rows.filter call.wants) ∧
      (changesBy i (U.run inputs).store.changes ≠ [] → ∃ x, before ++ [x] <+: inputs ∧
        (U.run (before ++ [x])).store.rows = U.atomic call (U.run before).store.rows) := by
  intro U
  obtain ⟨held, hcall, rfl⟩ := hi
  have hwhole := (Updater.run_history postgresStatus_lawful inputs).whole i call held hcall
  rcases Updater.run_answered postgresStatus_lawful inputs i call _ hcall
    (postgresStatus_singleRow hone) with ⟨rfl, before, hbefore, hruns, hnone⟩ |
      ⟨before, x, hbefore, hruns, hmatch, hrows⟩
  · have hnone : (U.run before).store.rows.filter call.wants = [] := hnone
    refine ⟨before, hbefore, hruns, by rw [hnone], by rw [hnone]; exact hwhole, ?_⟩
    exact fun hne => absurd hwhole hne
  · have hmatch : (U.run before).store.rows.filter call.wants = held := hmatch
    refine ⟨before, (List.prefix_append _ _).trans hbefore, hruns, by rw [hmatch],
      by rw [hmatch]; exact hwhole, ?_⟩
    exact fun _ => ⟨x, hbefore, hrows⟩

/-- The cleanup returns how many rows it has canceled: some that were `Queued`, and
expired for it. -/
theorem cleanup_returned {i n : Nat} {expired : String → Bool}
    (hi : Returned crypto inputs i (.cleanupStaleQueued expired) (.ok n)) :
    (changesBy i ((postgresStatus crypto).run inputs).store.changes).length = n ∧
      ∀ c ∈ changesBy i ((postgresStatus crypto).run inputs).store.changes,
        c.old.status = serializeField JobState.queued ∧ expired c.old.createdAt = true := by
  obtain ⟨held, hcall, hanswer⟩ := hi
  have hhistory := Updater.run_history (U := postgresStatus crypto) postgresStatus_lawful inputs
  have hwhole := hhistory.whole i _ held hcall
  constructor
  · rw [hwhole, Except.ok.inj hanswer]
    unfold Updater.changesOf
    exact List.filterMap_length_eq_length.mpr fun row _ => rfl
  · intro c hc
    obtain ⟨hmem, hby⟩ := List.mem_filter.mp hc
    obtain rfl := of_decide_eq_true hby
    obtain ⟨call, phase, hmade, -, hwants, -⟩ := hhistory.made c hmem
    rw [hcall] at hmade
    obtain ⟨rfl, -⟩ := Prod.mk.inj (Option.some.inj hmade)
    obtain ⟨hqueued, hexpired⟩ := Bool.and_eq_true_iff.mp hwants
    exact ⟨eq_of_beq hqueued, hexpired⟩

end Runs

/-- However the statements of status writes interleave with each other and with the rows
that are recorded, with aborts and lost connections in between: every write is an allowed
transition of one row, from the status that the write before it has left, and changes nothing
else; a transaction is claimed once; and each call for one transaction returns and writes
what it would if it ran alone at some moment between its start and its end. -/
theorem postgres_status_safe (crypto : Crypto) (inputs : List PostgresStatusInput) :
    let U := postgresStatus crypto
    let s := U.run inputs
    (∀ c ∈ s.store.changes, ∃ src dst, c.old.status = serializeField src ∧
      allowedTransition src dst = true ∧ c.new = { c.old with status := serializeField dst }) ∧
    (∀ row ∈ s.store.rows, ∃ recorded : RecordedRow, .insert recorded ∈ inputs ∧
      Updater.Trail (recorded.1.row crypto recorded.2)
        (U.changesTo row.transactionId s.store.changes) row) ∧
    (∀ i j transactionId,
      Returned crypto inputs i (.claimForExecution transactionId) (.ok true) →
        Returned crypto inputs j (.claimForExecution transactionId) (.ok true) → i = j) ∧
    (∀ i call answer transactionId, Returned crypto inputs i call answer →
      call.transactionId? = some transactionId →
        ∃ before, before <+: inputs ∧ (U.run before).Runs i call ∧
          answer = call.answer ((U.run before).store.rows.filter call.wants) ∧
          changesBy i s.store.changes =
            U.changesOf i call ((U.run before).store.rows.filter call.wants) ∧
          (changesBy i s.store.changes ≠ [] → ∃ x, before ++ [x] <+: inputs ∧
            (U.run (before ++ [x])).store.rows = U.atomic call (U.run before).store.rows)) ∧
    ∀ i expired n, Returned crypto inputs i (.cleanupStaleQueued expired) (.ok n) →
      (changesBy i s.store.changes).length = n ∧ ∀ c ∈ changesBy i s.store.changes,
        c.old.status = serializeField JobState.queued ∧ expired c.old.createdAt = true :=
  ⟨fun _ hc => change_allowed crypto inputs hc,
    (Updater.run_history postgresStatus_lawful inputs).trail,
    fun _ _ _ hi hj => claimed_unique crypto inputs hi hj,
    fun _ _ _ _ hi hone => returned_at_once crypto inputs hi hone,
    fun _ _ _ hi => cleanup_returned crypto inputs hi⟩

/-- The statements of two updates, in the order in which the second one of the SQLite store
overwrites `Succeeded`. Here it waits for the first and finds what that has written. -/
example : ((postgresStatus sampleCrypto).run
    [.insert (sampleCall "tx-1", none), .start (.claimForExecution "tx-1"),
      .step 0, .lock 0 0, .step 0, .step 0,
      .start (.updateStatus "tx-1" .succeeded), .start (.updateStatus "tx-1" .failed),
      .step 1, .step 2, .lock 1 0, .lock 2 0, .step 1, .step 1,
      .lock 2 0, .step 2, .step 2]).store.rows.map Row.status =
    [serializeField JobState.succeeded] := by decide +kernel

end Sysknife
