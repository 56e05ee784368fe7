import Sysknife.Replay

/-!
# How a claimed transaction ends

After the claim `handle_execute` goes on whatever the client, the child and the
rollback do, and stores a final status. The one way out is the `job_started`
frame: when its send fails, the handler leaves with the row still `Running`.
-/

namespace Sysknife

open Interaction

/-- The row has one of the statuses an execution ends with. -/
def Db.IsFinal (db : Db) (transactionId : String) : Prop :=
  ∃ status, db.Holds transactionId status ∧ status.isFinal = true

instance (db : Db) (transactionId : String) (status : JobState) :
    Decidable (db.Holds transactionId status) :=
  inferInstanceAs (Decidable (∃ row ∈ db.transactions, row.transactionId = transactionId ∧
    row.status = serializeField status))

instance (log : List DaemonEntry) (i : Nat) (transactionId : String) :
    Decidable (RunsOff log i transactionId) :=
  inferInstanceAs (Decidable (∃ e ∈ log, e.thread = i ∧ e.op.claims e.resp = some transactionId))

/-- Every store call of the thread has gone through. -/
def StoreCallsOk (log : List DaemonEntry) (i : Nat) : Prop :=
  ∀ e ∈ log, e.thread = i → e.op.storeOk e.resp = true

/-- The client's end has taken the `job_started` frame. -/
def JobAnnounced (log : List DaemonEntry) (i : Nat) : Prop :=
  ∃ e ∈ log, e.thread = i ∧ e.op.announcement e.resp = some true

instance (log : List DaemonEntry) (i : Nat) : Decidable (StoreCallsOk log i) :=
  inferInstanceAs (Decidable (∀ e ∈ log, e.thread = i → e.op.storeOk e.resp = true))

instance (log : List DaemonEntry) (i : Nat) : Decidable (JobAnnounced log i) :=
  inferInstanceAs (Decidable (∃ e ∈ log, e.thread = i ∧
    e.op.announcement e.resp = some true))

section Run
variable {crypto : Crypto} {config : DaemonConfig} {role : Nat → CallerRole}
  {inputs : List DaemonInput} {i : Nat}

/-- How far a request that is done has got. -/
theorem done_finished {task : DaemonTask} {result : task.Out}
    (hdone : ((daemonSystem crypto config role).run inputs).threads[i]? =
      some ⟨task, .ret result⟩) :
    ((daemonMonitor crypto config role).after (Progress.begin task)
      (eventsOf i ((daemonSystem crypto config role).run inputs).log)).Finished :=
  (daemonTask_safe task).of_trace (System.thread_trace inputs i _ _ hdone)

theorem storeCallsOk_events {log : List DaemonEntry} (h : StoreCallsOk log i) :
    ∀ ev ∈ eventsOf i log, ev.op.storeOk ev.resp = true := by
  intro ev hev
  obtain ⟨e, he, hthread, rfl⟩ := mem_eventsOf.mp hev
  exact h e he hthread

end Run

/-- A claimed row is final when its request is done, exactly when the client has
taken the announcement of the job. -/
theorem claimed_final_iff (crypto : Crypto) (config : DaemonConfig) (role : Nat → CallerRole)
    (inputs : List DaemonInput) (i : Nat) (x : Execution) (result : x.task.Out)
    (transactionId : String)
    (hdone : ((daemonSystem crypto config role).run inputs).threads[i]? =
      some ⟨x.task, .ret result⟩)
    (hclaimed : RunsOff ((daemonSystem crypto config role).run inputs).log i transactionId)
    (hstore : StoreCallsOk ((daemonSystem crypto config role).run inputs).log i) :
    ((daemonSystem crypto config role).run inputs).shared.IsFinal transactionId ↔
      JobAnnounced ((daemonSystem crypto config role).run inputs).log i := by
  have haccounted := run_accounted crypto config role inputs
  have hrecounts := run_recounts crypto config role inputs hdone
  have hfinished := done_finished hdone
  have hprogress : progressOf crypto config role ((daemonSystem crypto config role).run inputs) i =
      _ := System.progress_of_thread hdone
  generalize (daemonMonitor crypto config role).after (Progress.begin x.task)
    (eventsOf i ((daemonSystem crypto config role).run inputs).log) = p
    at hrecounts hfinished hprogress
  have hrow : p.claimed = some transactionId := by
    rw [hrecounts.claimed, mem_eventsOf_op]
    exact hclaimed
  have hholds := haccounted.held i p transactionId hprogress hrow
  have hannounced : JobAnnounced ((daemonSystem crypto config role).run inputs).log i ↔
      p.announced = some true := by
    rw [hrecounts.announced, mem_eventsOf_op]
    rfl
  rw [hannounced]
  rcases hfinished (by simp [hrow]) with ⟨hsent, status, stored, hsettled, hfinal⟩ |
    ⟨hlost, hunsettled⟩
  · have hstored := hrecounts.stored status stored hsettled (storeCallsOk_events hstore)
    have hstatus : p.rowStatus = status := by
      unfold Progress.rowStatus
      rw [hsettled, hstored]
    rw [hstatus] at hholds
    exact iff_of_true ⟨status, hholds, hfinal⟩ hsent
  · refine iff_of_false ?_ (by simp [hlost])
    rintro ⟨status, hother, hfinal⟩
    have hstatus : p.rowStatus = .running := by
      unfold Progress.rowStatus
      rw [hunsettled]
    rw [hstatus] at hholds
    rw [← hholds.unique haccounted.ids hother] at hfinal
    cases hfinal

/-! ## One preview and its execution -/

/-- The hash functions, at the two messages that occur below. -/
def updateCrypto : Crypto where
  sha256 _ :=
    #v[0xdd, 0x83, 0x71, 0x5b, 0x2e, 0xeb, 0xdc, 0xd9, 0xf8, 0x1e, 0x35, 0xcc, 0x5f, 0x10, 0x03,
      0xec, 0x94, 0x02, 0x39, 0x71, 0xfa, 0xe2, 0xe6, 0xb1, 0xdd, 0x51, 0xcc, 0x3b, 0x91, 0xfa,
      0x08, 0x64]
  hmacSha256 _ _ :=
    #v[0x9b, 0xfe, 0x7d, 0x6a, 0x1b, 0x0b, 0x04, 0x16, 0x4a, 0xe2, 0xf2, 0x10, 0x72, 0x03, 0x9a,
      0x9a, 0xb4, 0x8a, 0x47, 0x83, 0x1d, 0x7a, 0xfd, 0xe1, 0x3e, 0x06, 0xee, 0x60, 0x74, 0x5f,
      0x17, 0x3b]

def plainConfig : DaemonConfig where
  riskOverrides := ⟨[], List.nodup_nil⟩
  policy := .empty
  policy_built := rfl
  audit := ⟨some sampleKey⟩
  forwarder := false

/-- The client takes every frame but perhaps `job_started`, and the child exits
with 0. -/
def updateAnswer (announcement : Except FramingError Unit) : (o : DaemonOp) → o.Answer
  | .send response => if response.announces then announcement else .ok ()
  | .collectState => .failed "rpm-ostree: command not found"
  | .store _ => .error .json
  | .newUuid => "0d9c7a64-0000-4000-8000-000000000002"
  | .execute _ => .ok ⟨"", "", 0⟩
  | .executeSpec _ => .ok ⟨"", "", 0⟩
  | .spawn .. => .ok ⟨["No upgrade available."], none, .ok (some 0), .ok ""⟩
  | .forward .. => ()

/-- An admin previews `UpdateSystem` and executes it. -/
def updateInputs (announcement : Except FramingError Unit) : List DaemonInput :=
  let env : DaemonEnv := ⟨fun _ => sampleEnv, updateAnswer announcement⟩
  let approval := computeRequestHash updateCrypto "UpdateSystem" .null
  .start (.request 0 (.preview "req-1" "UpdateSystem" .null)) :: List.replicate 3 (.act 0 env) ++
    .start (.request 0 (.execute "req-2" "UpdateSystem" .null approval)) ::
      List.replicate 11 (.act 1 env)

def updateRun (announcement : Except FramingError Unit) : DaemonPool :=
  (daemonSystem updateCrypto plainConfig fun _ => .admin).run (updateInputs announcement)

/-- The execution a thread is done with. -/
def doneExecution (P : DaemonPool) (i : Nat) : Option Execution :=
  match P.threads[i]? with
  | some ⟨.request connection (.execute requestId actionName params approvalHash), .ret _⟩ =>
      some ⟨connection, requestId, actionName, params, approvalHash⟩
  | _ => none

theorem doneExecution_some {P : DaemonPool} {i : Nat} (h : (doneExecution P i).isSome = true) :
    ∃ (x : Execution) (result : x.task.Out), P.threads[i]? = some ⟨x.task, .ret result⟩ := by
  unfold doneExecution at h
  split at h
  next c r a params hash result hth => exact ⟨⟨c, r, a, params, hash⟩, result, hth⟩
  · cases h

set_option maxRecDepth 100000 in
theorem claimed_final_updateSystem : (updateRun (.ok ())).shared.IsFinal sampleEnv.uuid := by
  -- the run is evaluated once for all four
  have hrun : (doneExecution (updateRun (.ok ())) 1).isSome = true ∧
      RunsOff (updateRun (.ok ())).log 1 sampleEnv.uuid ∧
      StoreCallsOk (updateRun (.ok ())).log 1 ∧ JobAnnounced (updateRun (.ok ())).log 1 := by
    decide +kernel
  obtain ⟨hdone, hclaimed, hstore, hannounced⟩ := hrun
  obtain ⟨x, result, hth⟩ := doneExecution_some hdone
  exact (claimed_final_iff updateCrypto plainConfig (fun _ => .admin) (updateInputs (.ok ())) 1 x
    result sampleEnv.uuid hth hclaimed hstore).mpr hannounced

set_option maxRecDepth 100000 in
/-- The client is gone when `job_started` is sent, and the row stays `Running`. -/
theorem claimed_row_left_running :
    ¬ ∀ (x : Execution) (result : x.task.Out) (transactionId : String),
      (updateRun (.error (.io "Broken pipe (os error 32)"))).threads[1]? =
        some ⟨x.task, .ret result⟩ →
      RunsOff (updateRun (.error (.io "Broken pipe (os error 32)"))).log 1 transactionId →
      StoreCallsOk (updateRun (.error (.io "Broken pipe (os error 32)"))).log 1 →
        (updateRun (.error (.io "Broken pipe (os error 32)"))).shared.IsFinal transactionId := by
  intro h
  have hrun : (doneExecution (updateRun (.error (.io "Broken pipe (os error 32)"))) 1).isSome =
        true ∧
      RunsOff (updateRun (.error (.io "Broken pipe (os error 32)"))).log 1 sampleEnv.uuid ∧
      StoreCallsOk (updateRun (.error (.io "Broken pipe (os error 32)"))).log 1 ∧
      (updateRun (.error (.io "Broken pipe (os error 32)"))).shared.Holds sampleEnv.uuid
        .running := by
    decide +kernel
  obtain ⟨hdone, hclaimed, hstore, hrunning⟩ := hrun
  obtain ⟨x, result, hth⟩ := doneExecution_some hdone
  obtain ⟨status, hholds, hfinal⟩ := h x result sampleEnv.uuid hth hclaimed hstore
  have hids := (run_accounted updateCrypto plainConfig (fun _ => .admin)
    (updateInputs (.error (.io "Broken pipe (os error 32)")))).ids
  rw [← hrunning.unique hids hholds] at hfinal
  cases hfinal

end Sysknife
