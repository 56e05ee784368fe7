import Sysknife.HandlerSafety

/-!
# Rows and claims over a run of the daemon

`Accounted` ties the tables to what the requests have done: the rows are the
recorded previews, what a request has found was recorded, a claimed row belongs
to one request alone and holds the status that request has brought it to.
-/

namespace Sysknife

open Interaction

/-- The row an operation recorded. -/
def DaemonOp.recorded : (o : DaemonOp) → o.Answer → Option (String × String)
  | .store call, answer => (call.created answer).map TransactionRecord.origin
  | _, _ => none

/-- The row an operation claimed. -/
def DaemonOp.claims : (o : DaemonOp) → o.Answer → Option String
  | .store (.claimForExecution transactionId), .ok true => some transactionId
  | _, _ => none

/-- The rows recorded so far, with the hash each was recorded for. -/
def origins (log : List DaemonEntry) : List (String × String) :=
  log.filterMap fun e => e.op.recorded e.resp

theorem origins_concat (log : List DaemonEntry) (e : DaemonEntry) :
    origins (log ++ [e]) = origins log ++ (e.op.recorded e.resp).toList := by
  rw [origins, origins, List.filterMap_append]
  cases h : e.op.recorded e.resp <;> simp [h]

/-- The status a request has brought its row to. -/
def Progress.rowStatus (p : Progress) : JobState :=
  match p.settled with
  | some (status, true) => status
  | _ => .running

structure Accounted (log : List DaemonEntry) (db : Db) (progress : Nat → Option Progress) :
    Prop where
  rows : db.transactions.map Row.origin = origins log
  ids : (db.transactions.map Row.transactionId).Nodup
  found : ∀ i p requestHash transactionId, progress i = some p →
    p.found = some (requestHash, transactionId) → (transactionId, requestHash) ∈ origins log
  final : ∀ i p status stored, progress i = some p → p.settled = some (status, stored) →
    status.isFinal = true
  held : ∀ i p transactionId, progress i = some p → p.claimed = some transactionId →
    db.Holds transactionId p.rowStatus
  sole : ∀ i j p q transactionId, progress i = some p → progress j = some q →
    p.claimed = some transactionId → q.claimed = some transactionId → i = j

theorem isFinal_ne_queued {status : JobState} (h : status.isFinal = true) : status ≠ .queued := by
  intro rfl
  cases h

section Step
variable {crypto : Crypto} {env : Nat → StoreEnv} {log log' : List DaemonEntry} {db db' : Db}
  {progress : Nat → Option Progress} {i : Nat} {p p' : Progress}

/-- A claimed row is out of the queue. -/
theorem Accounted.rowStatus_ne_queued (h : Accounted log db progress) (hi : progress i = some p) :
    p.rowStatus ≠ .queued := by
  unfold Progress.rowStatus
  split
  next status hsettled => exact isFinal_ne_queued (h.final i p status true hi hsettled)
  · decide

theorem Accounted.start (h : Accounted log db progress) (hi : progress i = none)
    (task : DaemonTask) :
    Accounted log db (Function.update progress i (some (Progress.begin task))) := by
  have hcases : ∀ j q, Function.update progress i (some (Progress.begin task)) j = some q →
      q = Progress.begin task ∨ progress j = some q := by
    intro j q hj
    by_cases hji : j = i
    · subst hji
      rw [Function.update_self] at hj
      exact Or.inl (Option.some.inj hj).symm
    · rw [Function.update_of_ne hji] at hj
      exact Or.inr hj
  refine ⟨h.rows, h.ids, ?_, ?_, ?_, ?_⟩
  · intro j q requestHash transactionId hj hfound
    rcases hcases j q hj with rfl | hj
    · cases hfound
    · exact h.found j q _ _ hj hfound
  · intro j q status stored hj hsettled
    rcases hcases j q hj with rfl | hj
    · cases hsettled
    · exact h.final j q _ _ hj hsettled
  · intro j q transactionId hj hclaimed
    rcases hcases j q hj with rfl | hj
    · cases hclaimed
    · exact h.held j q _ hj hclaimed
  · intro j k q r transactionId hj hk hq hr
    rcases hcases j q hj with rfl | hj
    · cases hq
    rcases hcases k r hk with rfl | hk
    · cases hr
    · exact h.sole j k q r _ hj hk hq hr

/-- A step of request `i`: what has to hold of its own progress, when the rows
of the other requests are left alone. -/
theorem Accounted.act (h : Accounted log db progress)
    (hrows : db'.transactions.map Row.origin = origins log')
    (hids : (db'.transactions.map Row.transactionId).Nodup)
    (hlog : ∀ o ∈ origins log, o ∈ origins log')
    (hothers : ∀ j q transactionId, j ≠ i → progress j = some q →
      q.claimed = some transactionId → db'.Holds transactionId q.rowStatus)
    (hfound : ∀ requestHash transactionId, p'.found = some (requestHash, transactionId) →
      (transactionId, requestHash) ∈ origins log')
    (hfinal : ∀ status stored, p'.settled = some (status, stored) → status.isFinal = true)
    (hheld : ∀ transactionId, p'.claimed = some transactionId →
      db'.Holds transactionId p'.rowStatus)
    (hsole : ∀ j q transactionId, j ≠ i → progress j = some q →
      p'.claimed = some transactionId → q.claimed ≠ some transactionId) :
    Accounted log' db' (Function.update progress i (some p')) := by
  have hcases : ∀ j q, Function.update progress i (some p') j = some q →
      (j = i ∧ q = p') ∨ (j ≠ i ∧ progress j = some q) := by
    intro j q hj
    by_cases hji : j = i
    · subst hji
      rw [Function.update_self] at hj
      exact Or.inl ⟨rfl, (Option.some.inj hj).symm⟩
    · rw [Function.update_of_ne hji] at hj
      exact Or.inr ⟨hji, hj⟩
  refine ⟨hrows, hids, ?_, ?_, ?_, ?_⟩
  · intro j q requestHash transactionId hj hq
    rcases hcases j q hj with ⟨-, rfl⟩ | ⟨-, hj⟩
    · exact hfound _ _ hq
    · exact hlog _ (h.found j q _ _ hj hq)
  · intro j q status stored hj hq
    rcases hcases j q hj with ⟨-, rfl⟩ | ⟨-, hj⟩
    · exact hfinal _ _ hq
    · exact h.final j q _ _ hj hq
  · intro j q transactionId hj hq
    rcases hcases j q hj with ⟨-, rfl⟩ | ⟨hji, hj⟩
    · exact hheld _ hq
    · exact hothers j q _ hji hj hq
  · intro j k q r transactionId hj hk hq hr
    rcases hcases j q hj with ⟨hji, hqp⟩ | ⟨hji, hj'⟩
    · rcases hcases k r hk with ⟨hki, -⟩ | ⟨hki, hk'⟩
      · exact hji.trans hki.symm
      · exact absurd hr (hsole k r _ hki hk' (hqp ▸ hq))
    · rcases hcases k r hk with ⟨-, hrp⟩ | ⟨-, hk'⟩
      · exact absurd hq (hsole j q _ hji hj' (hrp ▸ hr))
      · exact h.sole j k q r _ hj' hk' hq hr

/-- A step that leaves the claim and the status of the request itself alone. -/
theorem Accounted.same (h : Accounted log db progress) (hi : progress i = some p)
    (hrows : db'.transactions.map Row.origin = origins log')
    (hids : (db'.transactions.map Row.transactionId).Nodup)
    (hlog : ∀ o ∈ origins log, o ∈ origins log')
    (hholds : ∀ j q transactionId, progress j = some q → q.claimed = some transactionId →
      db'.Holds transactionId q.rowStatus)
    (hfound : ∀ requestHash transactionId, p'.found = some (requestHash, transactionId) →
      (transactionId, requestHash) ∈ origins log')
    (hclaimed : p'.claimed = p.claimed) (hsettled : p'.settled = p.settled) :
    Accounted log' db' (Function.update progress i (some p')) := by
  refine h.act hrows hids hlog (fun j q _ _ => hholds j q _) hfound ?_ ?_ ?_
  · intro status stored hs
    exact h.final i p status stored hi (hsettled ▸ hs)
  · intro transactionId hc
    have hstatus : p'.rowStatus = p.rowStatus := by
      unfold Progress.rowStatus
      rw [hsettled]
    rw [hstatus]
    exact hholds i p _ hi (hclaimed ▸ hc)
  · intro j q transactionId hji hj hc hq
    exact hji (h.sole j i q p _ hj hi hq (hclaimed ▸ hc))

/-- An operation other than a store call. -/
theorem Accounted.quiet (h : Accounted log db progress) (hi : progress i = some p)
    (hlog : origins log' = origins log) (hfound : p'.found = p.found)
    (hclaimed : p'.claimed = p.claimed) (hsettled : p'.settled = p.settled) :
    Accounted log' db (Function.update progress i (some p')) := by
  refine h.same hi (hlog ▸ h.rows) h.ids (fun o ho => hlog ▸ ho) h.held ?_ hclaimed hsettled
  intro requestHash transactionId hf
  rw [hlog]
  exact h.found i p _ _ hi (hfound ▸ hf)

section Call
variable {crypto : Crypto} {config : DaemonConfig} {role : Nat → CallerRole} {call : StoreCall}
  {answer : call.Answer}

theorem Accounted.mem_origins (hlog : origins log' = origins log ++
    ((call.created answer).map TransactionRecord.origin).toList) :
    ∀ o ∈ origins log, o ∈ origins log' := by
  intro o ho
  rw [hlog]
  exact List.mem_append_left _ ho

/-- A store call that writes no status by id. -/
theorem Accounted.storeCall (h : Accounted log db progress) (hi : progress i = some p)
    (hlog : origins log' = origins log ++
      ((call.created answer).map TransactionRecord.origin).toList)
    (heffect : CallEffect crypto env db call answer db')
    (hcall : ∀ transactionId newStatus, call ≠ .updateStatus transactionId newStatus)
    (hfound : ∀ requestHash transactionId, p'.found = some (requestHash, transactionId) →
      (transactionId, requestHash) ∈ origins log)
    (hclaimed : p'.claimed = p.claimed) (hsettled : p'.settled = p.settled) :
    Accounted log' db' (Function.update progress i (some p')) := by
  refine h.same hi ?_ (call_ids h.ids heffect) (Accounted.mem_origins hlog) ?_ ?_ hclaimed hsettled
  · rw [call_origins heffect, h.rows, hlog]
  · intro j q transactionId hj hq
    exact (h.held j q _ hj hq).call (h.rowStatus_ne_queued hj) heffect (hcall transactionId)
  · intro requestHash transactionId hf
    exact Accounted.mem_origins hlog _ (hfound _ _ hf)

/-- A claim that succeeds: no request had claimed the row, for it was queued. -/
theorem Accounted.claim {transactionId : String} (h : Accounted log db progress)
    (hi : progress i = some p) (hlog : origins log' = origins log)
    (heffect : CallEffect crypto env db (.claimForExecution transactionId) (.ok true) db')
    (hunsettled : p.settled = none) :
    Accounted log' db'
      (Function.update progress i (some { p with claimed := some transactionId })) := by
  obtain ⟨hqueued, hrunning⟩ := claim_holds heffect
  have hfree : ∀ j q, progress j = some q → q.claimed ≠ some transactionId := by
    intro j q hj hq
    exact h.rowStatus_ne_queued hj ((h.held j q _ hj hq).unique h.ids hqueued)
  refine h.act ?_ (call_ids h.ids heffect) (fun o ho => hlog ▸ ho) ?_ ?_ ?_ ?_ ?_
  · rw [call_origins heffect, h.rows, hlog]
    simp [StoreCall.created]
  · intro j q id _ hj hq
    exact (h.held j q id hj hq).call (h.rowStatus_ne_queued hj) heffect fun _ hc => by cases hc
  · intro requestHash id hf
    rw [hlog]
    exact h.found i p _ _ hi hf
  · intro status stored hs
    exact h.final i p status stored hi hs
  · intro id hc
    cases hc
    have hstatus : ({ p with claimed := some transactionId } : Progress).rowStatus = .running := by
      unfold Progress.rowStatus
      rw [hunsettled]
    rw [hstatus]
    exact hrunning
  · intro j q id _ hj hc
    cases hc
    exact hfree j q hj

/-- The request stores the final status of its row, or fails to. -/
theorem Accounted.update {transactionId : String} {newStatus : JobState}
    {answer : Except StoreError Unit} (h : Accounted log db progress)
    (hi : progress i = some p) (hlog : origins log' = origins log)
    (heffect : CallEffect crypto env db (.updateStatus transactionId newStatus) answer db')
    (hclaimed : p.claimed = some transactionId) (hunsettled : p.settled = none)
    (hfinal : newStatus.isFinal = true) :
    Accounted log' db'
      (Function.update progress i (some { p with settled := some (newStatus, answer.isOk) })) := by
  have horigins : ((StoreCall.updateStatus transactionId newStatus).created answer).map
      TransactionRecord.origin = none := by
    cases answer <;> rfl
  refine h.act ?_ (call_ids h.ids heffect) (fun o ho => hlog ▸ ho) ?_ ?_ ?_ ?_ ?_
  · rw [call_origins heffect, h.rows, hlog, horigins]
    simp
  · intro j q id hji hj hq
    refine (h.held j q id hj hq).call (h.rowStatus_ne_queued hj) heffect fun _ hc => ?_
    cases hc
    exact hji (h.sole j i q p _ hj hi hq hclaimed)
  · intro requestHash id hf
    rw [hlog]
    exact h.found i p _ _ hi hf
  · intro status stored hs
    cases hs
    exact hfinal
  · intro id hc
    obtain rfl : transactionId = id := Option.some.inj (hclaimed.symm.trans hc)
    cases answer with
    | ok u => exact update_holds heffect
    | error e =>
      have hbefore := h.held i p _ hi hclaimed
      rw [error_unchanged heffect]
      unfold Progress.rowStatus at hbefore
      rw [hunsettled] at hbefore
      exact hbefore
  · intro j q id hji hj hc hq
    exact hji (h.sole j i q p _ hj hi hq hc)

end Call

/-- One operation of one request. -/
theorem Accounted.step {crypto : Crypto} {config : DaemonConfig} {role : Nat → CallerRole}
    (h : Accounted log db progress) (hi : progress i = some p) (env : DaemonEnv) (o : DaemonOp)
    (hguard : o.Expected crypto config role p) :
    Accounted (log ++ [⟨i, env, o, (o.exec crypto config.audit env db).1⟩])
      (o.exec crypto config.audit env db).2
      (Function.update progress i (some (p.next o (o.exec crypto config.audit env db).1))) := by
  have hlog := origins_concat log ⟨i, env, o, (o.exec crypto config.audit env db).1⟩
  cases o with
  | store call =>
    have heffect := call_effect crypto config.audit env.store db call
    simp only [DaemonOp.exec] at hlog ⊢
    generalize (call.exec crypto config.audit env.store db).1 = answer at heffect hlog ⊢
    generalize (call.exec crypto config.audit env.store db).2 = db' at heffect ⊢
    simp only [DaemonOp.recorded] at hlog
    have hfound := h.found i p
    cases call with
    | record => exact hguard.elim
    | recordPreviewed =>
      exact h.storeCall hi hlog heffect (fun _ _ hc => by cases hc) (hfound · · hi) rfl rfl
    | findByRequestHash requestHash =>
      match answer with
      | .error e =>
        exact h.storeCall hi hlog heffect (fun _ _ hc => by cases hc) (hfound · · hi) rfl rfl
      | .ok none =>
        exact h.storeCall hi hlog heffect (fun _ _ hc => by cases hc) (hfound · · hi) rfl rfl
      | .ok (some record) =>
        refine h.storeCall hi hlog heffect (fun _ _ hc => by cases hc) ?_ rfl rfl
        intro hash transactionId hf
        cases hf
        rw [← h.rows]
        exact found_origin heffect
    | claimForExecution transactionId =>
      match answer with
      | .error e =>
        exact h.storeCall hi hlog heffect (fun _ _ hc => by cases hc) (hfound · · hi) rfl rfl
      | .ok false =>
        exact h.storeCall hi hlog heffect (fun _ _ hc => by cases hc) (hfound · · hi) rfl rfl
      | .ok true =>
        obtain ⟨x, spec, -, -, -, -, hunsettled⟩ := hguard
        exact h.claim hi (by rw [hlog]; simp [StoreCall.created]) heffect hunsettled
    | updateStatus transactionId newStatus =>
      obtain ⟨hclaimed, hunsettled, hfinal⟩ := hguard
      exact h.update hi (by rw [hlog]; cases answer <;> simp [StoreCall.created]) heffect hclaimed
        hunsettled hfinal
    | cleanupStaleQueued =>
      exact h.storeCall hi hlog heffect (fun _ _ hc => by cases hc) (hfound · · hi) rfl rfl
    | listTransactions =>
      exact h.storeCall hi hlog heffect (fun _ _ hc => by cases hc) (hfound · · hi) rfl rfl
  | send response =>
    simp only [DaemonOp.recorded, Option.toList_none, List.append_nil] at hlog
    cases response <;> exact h.quiet hi hlog rfl rfl rfl
  | _ =>
    simp only [DaemonOp.recorded, Option.toList_none, List.append_nil] at hlog
    exact h.quiet hi hlog rfl rfl rfl

end Step

section Run
variable (crypto : Crypto) (config : DaemonConfig) (role : Nat → CallerRole)

/-- The progress of every request of a run. -/
def progressOf (P : DaemonPool) : Nat → Option Progress :=
  System.progress (daemonMonitor crypto config role) Progress.begin P

theorem run_accounted (inputs : List DaemonInput) :
    Accounted ((daemonSystem crypto config role).run inputs).log
      ((daemonSystem crypto config role).run inputs).shared
      (progressOf crypto config role ((daemonSystem crypto config role).run inputs)) := by
  refine System.progress_induction (I := Accounted) daemonTask_safe ?_ ?_ ?_ inputs
  · refine ⟨rfl, List.nodup_nil, ?_, ?_, ?_, ?_⟩ <;> intros <;> contradiction
  · exact fun log db progress i task h hi => h.start hi task
  · exact fun log db progress i p env o h hi hguard => h.step hi env o hguard

end Run

/-! ## What a progress says about the log -/

/-- The operation starts the action of a request. -/
def DaemonOp.runsAction : DaemonOp → Bool
  | .spawn .. | .executeSpec _ => true
  | _ => false

/-- Whether `job_started` went out, where the operation is its send. -/
def DaemonOp.announcement : (o : DaemonOp) → o.Answer → Option Bool
  | .send response, answer => if response.announces then some answer.isOk else none
  | _, _ => none

/-- The status an operation stored, or failed to store. -/
def DaemonOp.settlement : (o : DaemonOp) → o.Answer → Option (JobState × Bool)
  | .store (.updateStatus _ newStatus), answer => some (newStatus, answer.isOk)
  | _, _ => none

/-- Only a store call can fail as one. -/
def DaemonOp.storeOk : (o : DaemonOp) → o.Answer → Bool
  | .store _, answer => answer.isOk
  | _, _ => true

/-- The progress after an operation, field by field. -/
theorem next_fields (p : Progress) (o : DaemonOp) (answer : o.Answer) :
    (p.next o answer).task = p.task ∧
      (p.next o answer).claimed = (o.claims answer).or p.claimed ∧
      (p.next o answer).started = (o.runsAction || p.started) ∧
      (p.next o answer).announced = (o.announcement answer).or p.announced ∧
      (p.next o answer).settled = (o.settlement answer).or p.settled := by
  cases o with
  | store call =>
    cases call with
    | findByRequestHash =>
      match answer with
      | .error e => exact ⟨rfl, rfl, rfl, rfl, rfl⟩
      | .ok none => exact ⟨rfl, rfl, rfl, rfl, rfl⟩
      | .ok (some record) => exact ⟨rfl, rfl, rfl, rfl, rfl⟩
    | claimForExecution =>
      match answer with
      | .error e => exact ⟨rfl, rfl, rfl, rfl, rfl⟩
      | .ok false => exact ⟨rfl, rfl, rfl, rfl, rfl⟩
      | .ok true => exact ⟨rfl, rfl, rfl, rfl, rfl⟩
    | _ => exact ⟨rfl, rfl, rfl, rfl, rfl⟩
  | send response => cases response <;> exact ⟨rfl, rfl, rfl, rfl, rfl⟩
  | _ => exact ⟨rfl, rfl, rfl, rfl, rfl⟩

abbrev DaemonEvent := Event DaemonOp DaemonOp.Answer

/-- A progress as the events of its request made it. -/
structure Progress.Recounts (task : DaemonTask) (p : Progress) (evs : List DaemonEvent) : Prop where
  task_eq : p.task = task
  claimed : ∀ transactionId, p.claimed = some transactionId ↔
    ∃ ev ∈ evs, ev.op.claims ev.resp = some transactionId
  started : p.started = true ↔ ∃ ev ∈ evs, ev.op.runsAction = true
  announced : ∀ sent, p.announced = some sent ↔
    ∃ ev ∈ evs, ev.op.announcement ev.resp = some sent
  stored : ∀ status stored, p.settled = some (status, stored) →
    (∀ ev ∈ evs, ev.op.storeOk ev.resp = true) → stored = true

section Recounts
variable {crypto : Crypto} {config : DaemonConfig} {role : Nat → CallerRole}

/-- What a claim that succeeded had been checked for. -/
theorem claims_expected {p : Progress} {o : DaemonOp} {answer : o.Answer} {transactionId : String}
    (hguard : o.Expected crypto config role p) (h : o.claims answer = some transactionId) :
    ∃ x spec, p.task = x.task ∧ Admitted crypto config role x spec ∧
      p.found = some (x.approvalHash, transactionId) ∧ p.claimed = none := by
  unfold DaemonOp.claims at h
  split at h
  · cases h
    obtain ⟨x, spec, htask, hspec, hfound, hunclaimed, -⟩ := hguard
    exact ⟨x, spec, htask, hspec, hfound, hunclaimed⟩
  · cases h

theorem announcement_unannounced {p : Progress} {o : DaemonOp} {answer : o.Answer} {sent : Bool}
    (hguard : o.Expected crypto config role p) (h : o.announcement answer = some sent) :
    p.announced = none := by
  unfold DaemonOp.announcement at h
  split at h
  · split_ifs at h with hann
    exact hguard hann
  · cases h

theorem settlement_storeOk {o : DaemonOp} {answer : o.Answer} {status : JobState} {stored : Bool}
    (h : o.settlement answer = some (status, stored)) : o.storeOk answer = stored := by
  unfold DaemonOp.settlement at h
  split at h
  · cases h
    rfl
  · cases h

/-- An option that is set at most once says which event has set it. -/
theorem setOnce_concat {α : Type} {evs : List DaemonEvent} {o : DaemonOp} {answer : o.Answer}
    {f : (o : DaemonOp) → o.Answer → Option α} {current : Option α}
    (h : ∀ a, current = some a ↔ ∃ ev ∈ evs, f ev.op ev.resp = some a)
    (honce : ∀ a, f o answer = some a → current = none) (a : α) :
    (f o answer).or current = some a ↔
      ∃ ev ∈ evs ++ [⟨o, answer⟩], f ev.op ev.resp = some a := by
  have hsplit : (∃ ev ∈ evs ++ [⟨o, answer⟩], f ev.op ev.resp = some a) ↔
      current = some a ∨ f o answer = some a := by
    rw [h a]
    simp [or_and_right, exists_or]
  rw [hsplit]
  cases hset : f o answer with
  | none => simp
  | some b =>
    rw [honce b hset]
    simp

theorem Progress.Recounts.next {task : DaemonTask} {p : Progress} {evs : List DaemonEvent}
    (h : p.Recounts task evs) (o : DaemonOp) (answer : o.Answer)
    (hguard : o.Expected crypto config role p) :
    (p.next o answer).Recounts task (evs ++ [⟨o, answer⟩]) := by
  obtain ⟨htask, hclaimed, hstarted, hannounced, hsettled⟩ := next_fields p o answer
  constructor
  · exact htask.trans h.task_eq
  · intro transactionId
    rw [hclaimed]
    refine setOnce_concat h.claimed (fun _ hc => ?_) transactionId
    obtain ⟨x, spec, -, -, -, hunclaimed⟩ := claims_expected hguard hc
    exact hunclaimed
  · rw [hstarted, Bool.or_eq_true, h.started]
    simp [or_and_right, exists_or, or_comm]
  · intro sent
    rw [hannounced]
    exact setOnce_concat h.announced (fun _ hs => announcement_unannounced hguard hs) sent
  · intro status stored hs hok
    rw [hsettled] at hs
    cases hset : o.settlement answer with
    | none =>
      rw [hset, Option.none_or] at hs
      exact h.stored status stored hs fun ev hev => hok ev (List.mem_append_left _ hev)
    | some settled =>
      rw [hset, Option.some_or] at hs
      cases hs
      rw [← settlement_storeOk hset]
      exact hok ⟨o, answer⟩ (List.mem_append_right _ (List.mem_singleton_self _))

variable (crypto config role)

/-- The progress of a request of a run recounts the request's part of the log. -/
theorem run_recounts (inputs : List DaemonInput) {i : Nat} {th : DaemonThread}
    (hi : ((daemonSystem crypto config role).run inputs).threads[i]? = some th) :
    ((daemonMonitor crypto config role).after (Progress.begin th.tag)
      (eventsOf i ((daemonSystem crypto config role).run inputs).log)).Recounts th.tag
      (eventsOf i ((daemonSystem crypto config role).run inputs).log) := by
  refine (daemonTask_safe th.tag).trace_induction
    (I := fun p evs => Progress.Recounts th.tag p evs) ?_ ?_ (System.thread_trace inputs i _ _ hi)
  · constructor <;> simp [Progress.begin]
  · exact fun p evs o answer h hguard => h.next o answer hguard

end Recounts

end Sysknife
