import Sysknife.Daemon

/-!
# Every handler keeps to the conditions

One lemma per handler and per part of `handle_execute`. Frames to the client
never matter, with the one exception of `job_started`.
-/

namespace Sysknife

open Interaction

section Safe
variable {crypto : Crypto} {config : DaemonConfig} {role : Nat → CallerRole} {p : Progress}

/-- A frame other than `job_started` changes nothing. -/
theorem sendResponse_safe {post : Progress → Except HandlerError Unit → Prop}
    {response : DaemonResponse} (hquiet : response.announces = false)
    (h : ∀ result, post p result) :
    (daemonMonitor crypto config role).Safe post p (sendResponse response) := by
  refine ⟨fun hann => by simp [hquiet] at hann, fun answer => ?_⟩
  show (daemonMonitor crypto config role).Safe post (p.next (.send response) answer) _
  rw [show p.next (.send response) answer = p by simp [Progress.next, hquiet]]
  cases answer <;> exact h _

theorem sendError_safe {post : Progress → Except HandlerError Unit → Prop}
    {requestId category message : String} (h : ∀ result, post p result) :
    (daemonMonitor crypto config role).Safe post p (sendError requestId category message) :=
  sendResponse_safe rfl h

theorem sendProgress_safe {jobId line : String} :
    (daemonMonitor crypto config role).Safe (fun q _ => q = p) p (sendProgress jobId line) :=
  (sendResponse_safe rfl fun _ => rfl).bind fun _ _ h => h

theorem forwardEvent_safe {caller : CallerRole} {transactionId : String}
    {finalStatus : Option JobState} :
    (daemonMonitor crypto config role).Safe (fun q _ => q = p) p
      (forwardEvent config caller transactionId finalStatus) := by
  unfold forwardEvent
  split
  · exact ⟨trivial, fun _ => rfl⟩
  · rfl

/-! ## Requests that execute nothing on the execute path -/

theorem handleQueryState_safe {requestId : String}
    {post : Progress → Except HandlerError Unit → Prop} (h : ∀ result, post p result) :
    (daemonMonitor crypto config role).Safe post p (handleQueryState requestId) := by
  refine ⟨trivial, fun answer => ?_⟩
  cases answer with
  | joinFailed e => exact h _
  | failed e => exact sendError_safe h
  | state value => exact sendResponse_safe rfl h

theorem handleListJobHistory_safe {requestId actionName : String} {params : Json}
    {post : Progress → Except HandlerError Unit → Prop} (h : ∀ result, post p result) :
    (daemonMonitor crypto config role).Safe post p
      (handleListJobHistory requestId actionName params) := by
  unfold handleListJobHistory
  split
  · exact sendError_safe h
  · dsimp only
    split
    · exact sendError_safe h
    · refine ⟨trivial, fun answer => ?_⟩
      cases answer with
      | error e => exact sendError_safe h
      | ok records => exact sendResponse_safe rfl h

theorem handleQueryAction_safe {connection : Nat} {requestId actionName : String} {params : Json}
    {post : Progress → Except HandlerError Unit → Prop}
    (htask : p.task = .request connection (.queryAction requestId actionName params))
    (h : ∀ result, post p result) :
    (daemonMonitor crypto config role).Safe post p
      (handleQueryAction config actionName params requestId) := by
  unfold handleQueryAction
  split
  · exact sendError_safe h
  next minRole hrole =>
    split
    · exact sendError_safe h
    next hobserver =>
      split
      · exact handleListJobHistory_safe h
      split
      · exact sendError_safe h
      next spec hspec =>
        have hmin : config.policy.minRoleForAction actionName = some .observer := by
          rw [hrole, not_not.mp hobserver]
        refine ⟨Or.inr ⟨connection, requestId, actionName, params, htask, hmin, hspec⟩,
          fun answer => ?_⟩
        cases answer with
        | error e => exact sendError_safe h
        | ok output =>
          show (daemonMonitor crypto config role).Safe post p
            (replyQueryAction requestId actionName output)
          unfold replyQueryAction
          dsimp only
          split
          · exact sendError_safe h
          · exact sendResponse_safe rfl h

theorem handleDescribe_safe {requestId actionName : String} {params : Json}
    {post : Progress → Except HandlerError Unit → Prop} (h : ∀ result, post p result) :
    (daemonMonitor crypto config role).Safe post p (handleDescribe actionName params requestId) := by
  unfold handleDescribe
  split
  · exact sendResponse_safe rfl h
  split
  · exact sendError_safe h
  · exact sendResponse_safe rfl h

theorem previewState_safe :
    (daemonMonitor crypto config role).Safe (fun q _ => q = p) p previewState := by
  refine ⟨trivial, fun answer => ?_⟩
  cases answer <;> rfl

theorem recordPreview_safe {connection : Nat} {requestId actionName : String} {params : Json}
    {caller : CallerRole} {spec : ActionSpec} {currentState : Json}
    {post : Progress → Except HandlerError Unit → Prop}
    (htask : p.task = .request connection (.preview requestId actionName params))
    (h : ∀ result, post p result) :
    (daemonMonitor crypto config role).Safe post p
      (recordPreview crypto config caller requestId actionName params spec currentState) := by
  refine ⟨⟨connection, requestId, actionName, params, htask, rfl⟩, fun answer => ?_⟩
  cases answer with
  | error e => exact sendError_safe h
  | ok recorded =>
    refine forwardEvent_safe.bind fun q _ hq => ?_
    subst hq
    exact sendResponse_safe rfl h

theorem handlePreview_safe {connection : Nat} {requestId actionName : String} {params : Json}
    {caller : CallerRole} {post : Progress → Except HandlerError Unit → Prop}
    (htask : p.task = .request connection (.preview requestId actionName params))
    (h : ∀ result, post p result) :
    (daemonMonitor crypto config role).Safe post p
      (handlePreview crypto config caller requestId actionName params) := by
  unfold handlePreview
  split
  · exact sendError_safe h
  split
  · exact sendError_safe h
  · refine previewState_safe.bind fun q currentState hq => ?_
    subst hq
    exact recordPreview_safe htask h

/-! ## Execute -/

theorem sendLines_safe {jobId : String} {lines : List String} :
    (daemonMonitor crypto config role).Safe (fun q _ => q = p) p (sendLines jobId lines) := by
  induction lines with
  | nil => rfl
  | cons line rest ih =>
    unfold sendLines
    split
    · refine sendProgress_safe.bind fun q _ hq => ?_
      subst hq
      exact ih
    · exact ih

/-- Running the spec marks the execution as started. -/
theorem runSpec_safe {x : Execution} {spec : ActionSpec} {jobId : String}
    (hspec : Admitted crypto config role x spec) (hclaimed : p.HasClaimed x)
    (hnew : p.started = false) :
    (daemonMonitor crypto config role).Safe (fun q _ => q = { p with started := true }) p
      (runSpec jobId spec) := by
  unfold runSpec
  split
  next program args hmech =>
    refine ⟨⟨x, spec, hspec, hmech, hclaimed, hnew⟩, fun answer => ?_⟩
    cases answer with
    | error e => rfl
    | ok child =>
      refine sendLines_safe.bind fun q _ hq => ?_
      subst hq
      split <;> rfl
  · exact ⟨⟨x, hspec, hclaimed, hnew⟩, fun answer => rfl⟩

theorem attemptRollbackIfNeeded_safe {x : Execution} {built spec : ActionSpec} {jobId : String}
    {status : JobState} {summary : String}
    (hspec : Admitted crypto config role x built) (hclaimed : p.HasClaimed x)
    (hstatus : status.isFinal = true) :
    (daemonMonitor crypto config role).Safe (fun q out => q = p ∧ out.1.isFinal = true) p
      (attemptRollbackIfNeeded jobId x.actionName spec status summary) := by
  unfold attemptRollbackIfNeeded
  split
  · exact ⟨rfl, hstatus⟩
  split
  · exact ⟨rfl, hstatus⟩
  next rbSpec hrb =>
    refine sendProgress_safe.bind fun q _ hq => ?_
    subst hq
    refine ⟨Or.inl ⟨x, built, hspec, hrb, hclaimed⟩, fun result => ?_⟩
    dsimp only [Prog.bind]
    split
    · exact sendProgress_safe.bind fun q _ hq => ⟨hq, rfl⟩
    · exact sendProgress_safe.bind fun q _ hq => ⟨hq, hstatus⟩

theorem initialOutcome_final (actionName : String) (spec : ActionSpec)
    (output : Except ExecutorError ExecutionOutput) :
    (initialOutcome actionName spec output).1.isFinal = true := by
  unfold initialOutcome
  split
  · split_ifs <;> rfl
  · rfl

theorem settle_safe {caller : CallerRole} {transactionId jobId : String} {finalStatus : JobState}
    {summary : String} {rollbackRef : Option String}
    (hclaimed : p.claimed = some transactionId) (hannounced : p.announced = some true)
    (hunsettled : p.settled = none) (hfinal : finalStatus.isFinal = true) :
    (daemonMonitor crypto config role).Safe (fun q _ => q.Finished) p
      (settle config caller transactionId jobId finalStatus summary rollbackRef) := by
  have hreport : ∀ (stored : Bool) (warnings : List String),
      (daemonMonitor crypto config role).Safe (fun q _ => q.Finished)
        { p with settled := some (finalStatus, stored) }
        (sendResponse (.jobCompleted jobId {
          status := jobStateStr finalStatus
          summary
          warnings
          jobId
          needsReboot := finalStatus == .needsReboot
          rollbackRef
          transactionId })) := by
    intro stored warnings
    exact sendResponse_safe rfl fun _ _ =>
      Or.inl ⟨hannounced, finalStatus, stored, rfl, hfinal⟩
  unfold settle
  refine ⟨⟨hclaimed, hunsettled, hfinal⟩, fun answer => ?_⟩
  cases answer with
  | error e => exact hreport false _
  | ok u =>
    refine forwardEvent_safe.bind fun q _ hq => ?_
    subst hq
    exact hreport true _

theorem runAnnounced_safe {x : Execution} {spec : ActionSpec} {caller : CallerRole}
    {transactionId jobId : String} (hspec : Admitted crypto config role x spec)
    (htask : p.task = x.task) (hfound : p.found = some (x.approvalHash, transactionId))
    (hclaimed : p.claimed = some transactionId) (hannounced : p.announced = some true)
    (hnew : p.started = false) (hunsettled : p.settled = none) :
    (daemonMonitor crypto config role).Safe (fun q _ => q.Finished) p
      (runAnnounced config caller x.actionName spec transactionId jobId) := by
  unfold runAnnounced
  refine sendProgress_safe.bind fun q _ hq => ?_
  subst hq
  refine sendProgress_safe.bind fun q _ hq => ?_
  subst hq
  refine (runSpec_safe hspec ⟨htask, transactionId, hfound, hclaimed⟩ hnew).bind
    fun q output hq => ?_
  subst hq
  refine sendProgress_safe.bind fun q _ hq => ?_
  subst hq
  have hran : ({ q with started := true } : Progress).HasClaimed x :=
    ⟨htask, transactionId, hfound, hclaimed⟩
  have hinitial := initialOutcome_final x.actionName spec output
  generalize initialOutcome x.actionName spec output = initial at hinitial ⊢
  obtain ⟨initialStatus, initialSummary⟩ := initial
  refine (attemptRollbackIfNeeded_safe hspec hran hinitial).bind fun q outcome hout => ?_
  obtain ⟨rfl, hfinal⟩ := hout
  exact settle_safe hclaimed hannounced hunsettled hfinal

/-- Either the frame that announces the job is lost, and nothing has happened
to the claimed row, or the job is run and settled. -/
theorem executeClaimed_safe {x : Execution} {spec : ActionSpec} {caller : CallerRole}
    {transactionId : String} (hspec : Admitted crypto config role x spec)
    (htask : p.task = x.task) (hfound : p.found = some (x.approvalHash, transactionId))
    (hclaimed : p.claimed = some transactionId) (hunannounced : p.announced = none)
    (hnew : p.started = false) (hunsettled : p.settled = none) :
    (daemonMonitor crypto config role).Safe (fun q _ => q.Finished) p
      (executeClaimed config caller x.requestId x.actionName spec transactionId) := by
  unfold executeClaimed
  refine ⟨trivial, fun jobId => ⟨fun _ => hunannounced, fun announced => ?_⟩⟩
  cases announced with
  | error e => exact fun _ => Or.inr ⟨rfl, hunsettled⟩
  | ok u => exact runAnnounced_safe hspec htask hfound hclaimed rfl hnew hunsettled

theorem claimAndExecute_safe {x : Execution} {spec : ActionSpec} {caller : CallerRole}
    (hspec : Admitted crypto config role x spec) :
    (daemonMonitor crypto config role).Safe (fun q _ => q.Finished) (Progress.begin x.task)
      (claimAndExecute config caller x.requestId x.actionName spec
        (computeRequestHash crypto x.actionName x.params)) := by
  unfold claimAndExecute
  rw [← hspec.approved]
  refine ⟨⟨x, spec, rfl, hspec, rfl⟩, fun answer => ?_⟩
  match answer with
  | .error e => exact sendError_safe fun _ h => absurd rfl h
  | .ok none => exact sendError_safe fun _ h => absurd rfl h
  | .ok (some tx) =>
    refine ⟨⟨x, spec, rfl, hspec, rfl, rfl, rfl⟩, fun answer => ?_⟩
    match answer with
    | .error e => exact sendError_safe fun _ h => absurd rfl h
    | .ok false => exact sendError_safe fun _ h => absurd rfl h
    | .ok true => exact executeClaimed_safe hspec rfl rfl rfl rfl rfl rfl

theorem handleExecute_safe (x : Execution) :
    (daemonMonitor crypto config role).Safe (fun q _ => q.Finished) (Progress.begin x.task)
      (handleExecute crypto config (role x.connection) x.requestId x.actionName x.params
        x.approvalHash) := by
  unfold handleExecute
  split
  · exact sendError_safe fun _ h => absurd rfl h
  next spec hbuilt =>
    split
    · exact sendError_safe fun _ h => absurd rfl h
    next hallowed =>
      dsimp only
      split
      · exact sendError_safe fun _ h => absurd rfl h
      next u happroved =>
        simp only [requireFreshApproval, ite_eq_left_iff, reduceCtorEq, imp_false, not_not]
          at happroved
        exact claimAndExecute_safe ⟨hbuilt, by simpa using hallowed, happroved.symm⟩

/-- Every handler meets the conditions, and finishes what it has claimed. -/
theorem daemonTask_safe (task : DaemonTask) :
    (daemonMonitor crypto config role).Safe (fun q _ => q.Finished) (Progress.begin task)
      ((daemonSystem crypto config role).body task) := by
  have hfinished : ∀ result : Except HandlerError Unit,
      (Progress.begin task).Finished := fun _ h => absurd rfl h
  cases task with
  | cleanup => exact ⟨trivial, fun _ h => absurd rfl h⟩
  | request connection request =>
    cases request with
    | queryState requestId => exact handleQueryState_safe hfinished
    | preview requestId actionName params => exact handlePreview_safe rfl hfinished
    | execute requestId actionName params approvalHash =>
      exact handleExecute_safe ⟨connection, requestId, actionName, params, approvalHash⟩
    | queryAction requestId actionName params => exact handleQueryAction_safe rfl hfinished
    | describe requestId actionName params => exact handleDescribe_safe hfinished
    | cancel jobId => exact sendError_safe hfinished
    | unknown detail => exact sendError_safe hfinished

end Safe

end Sysknife
