import Mathlib.Data.List.TakeWhile
import Sysknife.ActionTraits
import Sysknife.Completion
import Sysknife.Wire

/-!
# Which requests are answered

Each handler is run against anything it can meet outside, on a socket that takes
every write. `due` says which frames a request calls for, progress lines apart;
the handler writes them in order up to the first one that is too large for a
frame.
-/

namespace Sysknife

open Interaction

/-! ## Outside -/

/-- What a handler meets: one answer for each kind of operation, as no handler
performs one twice, frames apart. With no answer at all it would never come to
read the next frame. -/
structure Outside where
  collected : Collected
  listed : Except StoreError (List TransactionRecord)
  recorded : Except StoreError RecordedPreviewedTransaction
  found : Except StoreError (Option TransactionRecord)
  claimed : Except StoreError Bool
  updated : Except StoreError Unit
  jobId : String
  executed : Except ExecutorError ExecutionOutput
  executedSpec : Except ExecutorError ExecutionOutput
  child : Except String ChildRun

/-- `FramedStream::send` on a socket that accepts writes. -/
def writeResult (response : DaemonResponse) : Except FramingError Unit :=
  match FramedStream.send response.encode with
  | .ok _ => .ok ()
  | .error e => .error e

def Outside.answers (o : Outside) : World DaemonOp DaemonOp.Answer := fun _ op =>
  match op with
  | .send response => some (writeResult response)
  | .collectState => some o.collected
  | .store (.recordPreviewed ..) => some o.recorded
  | .store (.findByRequestHash _) => some o.found
  | .store (.claimForExecution _) => some o.claimed
  | .store (.updateStatus ..) => some o.updated
  | .store (.listTransactions ..) => some o.listed
  -- no handler makes these calls
  | .store (.record _) => none
  | .store .cleanupStaleQueued => none
  | .newUuid => some o.jobId
  | .execute _ => some o.executed
  | .executeSpec _ => some o.executedSpec
  | .spawn .. => some o.child
  | .forward .. => some ()

namespace DaemonResponse

def isProgress : DaemonResponse → Bool
  | .jobProgress .. => true
  | _ => false

/-- The message is no larger than a frame may be. -/
def fits (response : DaemonResponse) : Bool := decide (response.encode.length ≤ maxMessageBytes)

end DaemonResponse

theorem writeResult_ok_iff {response : DaemonResponse} :
    writeResult response = .ok () ↔ response.fits = true := by
  unfold writeResult FramedStream.send DaemonResponse.fits Framing.writeFrame
  by_cases h : response.encode.length > maxMessageBytes
  · rw [if_pos h]
    exact iff_of_false (by simp) (by simpa using h)
  · rw [if_neg h]
    exact iff_of_true rfl (by simpa using h)

/-! ## The frames a request calls for -/

section Due
variable (crypto : Crypto) (config : DaemonConfig) (caller : CallerRole) (o : Outside)

def dueHistory (requestId actionName : String) (params : Json) : DaemonResponse :=
  match historyNumber params "limit" with
  | .error v => .errorResponse requestId "validation_failure" (notIntegerMessage "limit" v)
  | .ok _ =>
    match historyNumber params "since_hours" with
    | .error v =>
      .errorResponse requestId "validation_failure" (notIntegerMessage "since_hours" v)
    | .ok sinceHours =>
      match o.listed with
      | .error e => .errorResponse requestId "execution_failure"
          ("failed to query transaction log: " ++ e.display)
      | .ok records => .queryActionResponse requestId actionName
          (if records.isEmpty then noTransactionsMessage (optStr params "status_filter")
            (optStr params "action_filter") sinceHours else formatJobHistory records)

def dueOutput (requestId actionName : String) (output : ExecutionOutput) : DaemonResponse :=
  if !output.isSuccess && !(actionName == "GetServiceStatus" && 1 ≤ output.exitCode &&
      output.exitCode ≤ 4) then
    .errorResponse requestId "execution_failure"
      (actionName ++ " failed with exit code " ++ toString output.exitCode ++
        (if (trim output.stderr.toList).isEmpty then ""
         else ": " ++ String.ofList (trim output.stderr.toList)))
  else .queryActionResponse requestId actionName
    (if output.stderr.isEmpty then output.stdout
     else output.stdout ++ "\n[stderr]\n" ++ output.stderr)

def dueQuery (requestId actionName : String) (params : Json) : DaemonResponse :=
  match config.policy.minRoleForAction actionName with
  | none => .errorResponse requestId "validation_failure" ("unknown action: " ++ actionName)
  | some minRole =>
    if minRole ≠ .observer then
      .errorResponse requestId "authorization_failure"
        (actionName ++ " is not a read-only action; use preview+execute instead")
    else if actionName = "ListJobHistory" then dueHistory o requestId actionName params
    else match buildActionSpec actionName params with
      | .error e => .errorResponse requestId "validation_failure" e.display
      | .ok _ =>
        match o.executed with
        | .error e => .errorResponse requestId "execution_failure" e.display
        | .ok output => dueOutput requestId actionName output

def dueDescription (requestId actionName : String) (params : Json) : DaemonResponse :=
  if actionName = "ListJobHistory" then
    .describeResponse requestId "query daemon job history (SQLite)" "low" false
  else match buildActionSpec actionName params with
    | .error e => .errorResponse requestId "validation_failure"
        ("unknown action: " ++ actionName ++ " (" ++ e.display ++ ")")
    | .ok spec => .describeResponse requestId (describeCommand actionName params spec.mechanism)
        (UnitEnum.variantName spec.riskLevel) spec.rebootRequired

/-- The state a preview goes out with. -/
def Outside.state : Json :=
  match o.collected with
  | .state value => value
  | _ => .null

def duePreview (requestId actionName : String) (params : Json) : DaemonResponse :=
  match buildActionSpec actionName params with
  | .error e => .errorResponse requestId "validation_failure" e.display
  | .ok _ =>
    if !config.policy.actionAllowed caller actionName then
      .errorResponse requestId "authorization_failure" (notAllowedMessage actionName caller)
    else match o.recorded with
      | .error e => .errorResponse requestId "transient_infrastructure_failure"
          ("failed to record preview transaction: " ++ e.display)
      | .ok recorded => .previewResponse requestId
          (previewFor crypto caller requestId actionName params o.state)
          recorded.transaction.transactionId

/-- What a child that ran to its end leaves. -/
def ChildRun.result (child : ChildRun) : Except ExecutorError ExecutionOutput :=
  match child.readError, child.exit, child.stderr with
  | some e, _, _ => .error (.io e)
  | none, .error e, _ => .error (.io e)
  | none, .ok _, .error e => .error (.io e)
  | none, .ok code, .ok stderr =>
    .ok ⟨String.join (child.lines.map (· ++ "\n")), stderr, code.getD (-1)⟩

/-- The output of the action of an execution. -/
def Outside.output (spec : ActionSpec) : Except ExecutorError ExecutionOutput :=
  match spec.mechanism with
  | .command .. =>
    match o.child with
    | .error e => .error (.io e)
    | .ok child => child.result
  | _ => o.executedSpec

/-- The final status, its summary and the rollback reference. -/
def Outside.outcome (actionName : String) (spec : ActionSpec) :
    JobState × String × Option String :=
  let (status, summary) := initialOutcome actionName spec (o.output spec)
  if status ≠ .failed || !spec.rollbackAvailable then (status, summary, none)
  else match rollbackSpecFor actionName with
    | none => (status, summary, none)
    | some _ =>
      if o.executed.toOption.any ExecutionOutput.isSuccess then
        (.rolledBack,
          actionName ++ " failed and was automatically rolled back to the previous deployment",
          some "rpm-ostree rollback")
      else (status, summary, none)

def dueCompletion (actionName : String) (spec : ActionSpec) (transactionId : String) :
    DaemonResponse :=
  let (finalStatus, summary, rollbackRef) := o.outcome actionName spec
  .jobCompleted o.jobId {
    status := jobStateStr finalStatus
    summary
    warnings := match o.updated with
      | .ok _ => []
      | .error e => ["audit trail update failed: " ++ e.display]
    jobId := o.jobId
    needsReboot := finalStatus == .needsReboot
    rollbackRef
    transactionId }

def dueExecution (requestId actionName : String) (params : Json) (approvalHash : String) :
    List DaemonResponse :=
  match buildActionSpec actionName params with
  | .error e => [.errorResponse requestId "validation_failure" e.display]
  | .ok spec =>
    if !config.policy.actionAllowed caller actionName then
      [.errorResponse requestId "authorization_failure" (notAllowedMessage actionName caller)]
    else match requireFreshApproval (computeRequestHash crypto actionName params) approvalHash with
      | .error e => [.errorResponse requestId "stale_approval" e.display]
      | .ok () =>
        match o.found with
        | .error e => [.errorResponse requestId "transient_infrastructure_failure"
            ("transaction lookup failed: " ++ e.display)]
        | .ok none => [.errorResponse requestId "stale_approval"
            "no prior preview found for this action; preview before executing"]
        | .ok (some tx) =>
          match o.claimed with
          | .error e => [.errorResponse requestId "transient_infrastructure_failure"
              ("failed to claim transaction: " ++ e.display)]
          | .ok claimed =>
            if !claimed then [.errorResponse requestId "stale_approval"
              "transaction already claimed by a concurrent request"]
            else [.jobStarted requestId o.jobId tx.transactionId,
              dueCompletion o actionName spec tx.transactionId]

/-- The frames that the request calls for, progress lines apart. -/
def due : DaemonRequest → List DaemonResponse
  | .queryState requestId =>
    match o.collected with
    | .joinFailed _ => []
    | .failed e => [.errorResponse requestId "state_collection_failed" e]
    | .state value => [.stateResponse requestId value]
  | .preview requestId actionName params =>
      [duePreview crypto config caller o requestId actionName params]
  | .execute requestId actionName params approvalHash =>
      dueExecution crypto config caller o requestId actionName params approvalHash
  | .queryAction requestId actionName params => [dueQuery config o requestId actionName params]
  | .describe requestId actionName params => [dueDescription requestId actionName params]
  | .cancel jobId => [.errorResponse jobId "not_implemented" "cancel not yet implemented"]
  | .unknown detail =>
      [.errorResponse "" "validation_failure" ("unknown message type: " ++ detail)]

end Due

/-! ## What the handlers write -/

/-- The frame of an event, when it went out and is no progress line. -/
def frameOut : Event DaemonOp DaemonOp.Answer → Option DaemonResponse
  | ⟨.send response, .ok ()⟩ => if response.isProgress then none else some response
  | _ => none

def framesOut (evs : List (Event DaemonOp DaemonOp.Answer)) : List DaemonResponse :=
  evs.filterMap frameOut

theorem framesOut_append (evs evs' : List (Event DaemonOp DaemonOp.Answer)) :
    framesOut (evs ++ evs') = framesOut evs ++ framesOut evs' := List.filterMap_append

section Handlers
variable {α β : Type} {o : Outside}

/-- The program writes these frames, up to the first one that does not fit. -/
def Writes (o : Outside) (p : DaemonProg α) (frames : List DaemonResponse) : Prop :=
  ∀ log, ∃ out evs, p.runIn o.answers log = (some out, log ++ evs) ∧
    framesOut evs = frames.takeWhile DaemonResponse.fits

/-- The program comes to this result and writes progress lines at most. -/
def Yields (o : Outside) (p : DaemonProg α) (a : α) : Prop :=
  ∀ log, ∃ evs, p.runIn o.answers log = (some a, log ++ evs) ∧ framesOut evs = []

theorem yields_pure (a : α) : Yields o (pure a) a :=
  fun log => ⟨[], by rw [List.append_nil]; rfl, rfl⟩

theorem writes_bind {p : DaemonProg α} {f : α → DaemonProg β} {a : α}
    {frames : List DaemonResponse} (hp : Yields o p a) (hf : Writes o (f a) frames) :
    Writes o (p >>= f) frames := by
  intro log
  obtain ⟨evs, hrun, hnone⟩ := hp log
  obtain ⟨out, evs', hrun', hframes⟩ := hf (log ++ evs)
  refine ⟨out, evs ++ evs', ?_, ?_⟩
  · rw [runIn_bind_some hrun, hrun', List.append_assoc]
  · rw [framesOut_append, hnone, List.nil_append, hframes]

theorem yields_bind {p : DaemonProg α} {f : α → DaemonProg β} {a : α} {b : β}
    (hp : Yields o p a) (hf : Yields o (f a) b) : Yields o (p >>= f) b := by
  intro log
  obtain ⟨evs, hrun, hnone⟩ := hp log
  obtain ⟨evs', hrun', hnone'⟩ := hf (log ++ evs)
  refine ⟨evs ++ evs', ?_, ?_⟩
  · rw [runIn_bind_some hrun, hrun', List.append_assoc]
  · rw [framesOut_append, hnone, hnone', List.nil_append]

/-- An operation that sends nothing. -/
theorem yields_op {op : DaemonOp} {answer : op.Answer}
    (hanswer : ∀ log, o.answers log op = some answer) (hquiet : frameOut ⟨op, answer⟩ = none) :
    Yields o (daemonOp op) answer := by
  intro log
  refine ⟨[⟨op, answer⟩], runIn_op_some (hanswer log), ?_⟩
  unfold framesOut
  rw [List.filterMap_cons_none hquiet]
  rfl

/-- In a world that takes every write. -/
theorem sendResponse_runIn {world : World DaemonOp DaemonOp.Answer}
    {log : List (Event DaemonOp DaemonOp.Answer)} {response : DaemonResponse}
    (hsend : world log (.send response) = some (writeResult response)) :
    ∃ out, (sendResponse response).runIn world log =
        (some out, log ++ [⟨.send response, writeResult response⟩]) ∧
      (response.fits = true → out = .ok ()) ∧ (response.fits = false → ∃ e, out = .error e) := by
  unfold sendResponse
  rw [daemonOp_bind, runIn_op_some hsend]
  cases hwrite : writeResult response with
  | ok u =>
    have hfits := writeResult_ok_iff.mp hwrite
    exact ⟨.ok (), rfl, fun _ => rfl, fun h => by rw [hfits] at h; cases h⟩
  | error e =>
    refine ⟨.error (.framing e), rfl, fun h => ?_, fun _ => ⟨_, rfl⟩⟩
    rw [writeResult_ok_iff.mpr h] at hwrite
    cases hwrite

theorem Outside.answers_send (o : Outside) (log : List (Event DaemonOp DaemonOp.Answer))
    (response : DaemonResponse) :
    o.answers log (.send response) = some (writeResult response) := rfl

theorem framesOut_send (response : DaemonResponse) (h : response.isProgress = false) :
    framesOut [⟨.send response, writeResult response⟩] =
      [response].takeWhile DaemonResponse.fits := by
  unfold framesOut
  cases hfits : response.fits with
  | true =>
    rw [writeResult_ok_iff.mpr hfits, List.takeWhile_cons_of_pos hfits]
    simp [frameOut, h]
  | false =>
    rw [List.takeWhile_cons_of_neg (by simp [hfits])]
    cases hwrite : writeResult response with
    | ok u =>
      rw [writeResult_ok_iff.mp hwrite] at hfits
      cases hfits
    | error e => rfl

theorem writes_send {response : DaemonResponse} (h : response.isProgress = false) :
    Writes o (sendResponse response) [response] := by
  intro log
  obtain ⟨out, hrun, -⟩ := sendResponse_runIn (o.answers_send log response)
  exact ⟨out, _, hrun, framesOut_send response h⟩

theorem yields_sendProgress (jobId line : String) : Yields o (sendProgress jobId line) () := by
  intro log
  obtain ⟨out, hrun, -⟩ := sendResponse_runIn (o.answers_send log (.jobProgress jobId line))
  refine ⟨_, runIn_bind_some hrun, ?_⟩
  cases hwrite : writeResult (.jobProgress jobId line) <;> rfl

theorem yields_sendLines (jobId : String) (lines : List String) :
    Yields o (sendLines jobId lines) () := by
  induction lines with
  | nil => exact yields_pure ()
  | cons line rest ih =>
    rw [sendLines]
    by_cases hline : (!line.isEmpty) = true
    · rw [if_pos hline]
      exact yields_bind (yields_sendProgress jobId line) ih
    · rw [if_neg hline]
      exact ih

theorem writes_error (requestId category message : String) :
    Writes o (sendError requestId category message)
      [.errorResponse requestId category message] := writes_send rfl

/-! ## The handlers, one by one -/

theorem writes_history (requestId actionName : String) (params : Json) :
    Writes o (handleListJobHistory requestId actionName params)
      [dueHistory o requestId actionName params] := by
  unfold handleListJobHistory dueHistory
  cases historyNumber params "limit" with
  | error v => exact writes_error _ _ _
  | ok limit =>
    dsimp only
    cases historyNumber params "since_hours" with
    | error v => exact writes_error _ _ _
    | ok sinceHours =>
      refine writes_bind (yields_op (fun _ => rfl) rfl) ?_
      cases o.listed with
      | error e => exact writes_error _ _ _
      | ok records => exact writes_send rfl

theorem writes_query (config : DaemonConfig) (requestId actionName : String) (params : Json) :
    Writes o (handleQueryAction config actionName params requestId)
      [dueQuery config o requestId actionName params] := by
  unfold handleQueryAction dueQuery
  cases config.policy.minRoleForAction actionName with
  | none => exact writes_error _ _ _
  | some minRole =>
    dsimp only
    by_cases hrole : minRole ≠ .observer
    · rw [if_pos hrole, if_pos hrole]
      exact writes_error _ _ _
    rw [if_neg hrole, if_neg hrole]
    by_cases hhistory : actionName = "ListJobHistory"
    · rw [if_pos hhistory, if_pos hhistory]
      exact writes_history _ _ _
    rw [if_neg hhistory, if_neg hhistory]
    cases buildActionSpec actionName params with
    | error e => exact writes_error _ _ _
    | ok spec =>
      refine writes_bind (yields_op (fun _ => rfl) rfl) ?_
      cases o.executed with
      | error e => exact writes_error _ _ _
      | ok output =>
        dsimp only
        unfold replyQueryAction dueOutput
        dsimp only
        by_cases hfailed : (!output.isSuccess && !(actionName == "GetServiceStatus" &&
            1 ≤ output.exitCode && output.exitCode ≤ 4)) = true
        · rw [if_pos hfailed, if_pos hfailed]
          exact writes_error _ _ _
        · rw [if_neg hfailed, if_neg hfailed]
          exact writes_send rfl

theorem writes_describe (requestId actionName : String) (params : Json) :
    Writes o (handleDescribe actionName params requestId)
      [dueDescription requestId actionName params] := by
  unfold handleDescribe dueDescription
  by_cases hhistory : actionName = "ListJobHistory"
  · rw [if_pos hhistory, if_pos hhistory]
    exact writes_send rfl
  rw [if_neg hhistory, if_neg hhistory]
  cases buildActionSpec actionName params with
  | error e => exact writes_error _ _ _
  | ok spec => exact writes_send rfl

theorem yields_previewState : Yields o previewState o.state := by
  refine yields_bind (yields_op (fun _ => rfl) rfl) ?_
  unfold Outside.state
  cases o.collected <;> exact yields_pure _

theorem yields_forwardEvent (config : DaemonConfig) (caller : CallerRole) (transactionId : String)
    (finalStatus : Option JobState) :
    Yields o (forwardEvent config caller transactionId finalStatus) () := by
  unfold forwardEvent
  cases config.forwarder with
  | false => exact yields_pure ()
  | true => exact yields_op (fun _ => rfl) rfl

theorem writes_preview (crypto : Crypto) (config : DaemonConfig) (caller : CallerRole)
    (requestId actionName : String) (params : Json) :
    Writes o (handlePreview crypto config caller requestId actionName params)
      [duePreview crypto config caller o requestId actionName params] := by
  unfold handlePreview duePreview
  cases buildActionSpec actionName params with
  | error e => exact writes_error _ _ _
  | ok spec =>
    dsimp only
    by_cases hallowed : (!config.policy.actionAllowed caller actionName) = true
    · rw [if_pos hallowed, if_pos hallowed]
      exact writes_error _ _ _
    rw [if_neg hallowed, if_neg hallowed]
    refine writes_bind yields_previewState (writes_bind (yields_op (fun _ => rfl) rfl) ?_)
    cases o.recorded with
    | error e => exact writes_error _ _ _
    | ok recorded =>
      exact writes_bind (yields_forwardEvent config caller _ _) (writes_send rfl)

/-! ## Execute -/

theorem yields_runSpec (jobId : String) (spec : ActionSpec) :
    Yields o (runSpec jobId spec) (o.output spec) := by
  unfold runSpec Outside.output
  cases spec.mechanism with
  | command program args =>
    refine yields_bind (yields_op (fun _ => rfl) rfl) ?_
    cases o.child with
    | error e => exact yields_pure _
    | ok child =>
      obtain ⟨lines, readError, exit, stderr⟩ := child
      refine yields_bind (yields_sendLines jobId lines) ?_
      cases readError with
      | some e => exact yields_pure _
      | none =>
        cases exit with
        | error e => exact yields_pure _
        | ok code => cases stderr <;> exact yields_pure _
  | _ => exact yields_op (fun _ => rfl) rfl

theorem yields_attemptRollback (jobId actionName : String) (spec : ActionSpec) :
    Yields o (attemptRollbackIfNeeded jobId actionName spec
      (initialOutcome actionName spec (o.output spec)).1
      (initialOutcome actionName spec (o.output spec)).2) (o.outcome actionName spec) := by
  unfold attemptRollbackIfNeeded Outside.outcome
  dsimp only
  generalize (initialOutcome actionName spec (o.output spec)).1 = status
  generalize (initialOutcome actionName spec (o.output spec)).2 = summary
  by_cases hkept : (decide (status ≠ .failed) || !spec.rollbackAvailable) = true
  · rw [if_pos hkept, if_pos hkept]
    exact yields_pure _
  rw [if_neg hkept, if_neg hkept]
  cases rollbackSpecFor actionName with
  | none => exact yields_pure _
  | some rbSpec =>
    refine yields_bind (yields_sendProgress _ _) (yields_bind (yields_op (fun _ => rfl) rfl) ?_)
    by_cases hrolled : o.executed.toOption.any ExecutionOutput.isSuccess = true
    · rw [if_pos hrolled, if_pos hrolled]
      exact yields_bind (yields_sendProgress _ _) (yields_pure _)
    · rw [if_neg hrolled, if_neg hrolled]
      exact yields_bind (yields_sendProgress _ _) (yields_pure _)

theorem writes_settle (config : DaemonConfig) (caller : CallerRole) (actionName : String)
    (spec : ActionSpec) (transactionId : String) :
    Writes o (settle config caller transactionId o.jobId (o.outcome actionName spec).1
      (o.outcome actionName spec).2.1 (o.outcome actionName spec).2.2)
      [dueCompletion o actionName spec transactionId] := by
  unfold settle dueCompletion
  refine writes_bind (yields_op (fun _ => rfl) rfl) ?_
  cases o.updated with
  | error e => exact writes_bind (yields_pure _) (writes_send rfl)
  | ok u =>
    exact writes_bind (yields_forwardEvent config caller _ _)
      (writes_bind (yields_pure _) (writes_send rfl))

theorem writes_runAnnounced (config : DaemonConfig) (caller : CallerRole) (actionName : String)
    (spec : ActionSpec) (transactionId : String) :
    Writes o (runAnnounced config caller actionName spec transactionId o.jobId)
      [dueCompletion o actionName spec transactionId] := by
  unfold runAnnounced
  refine writes_bind (yields_sendProgress _ _) (writes_bind (yields_sendProgress _ _) ?_)
  refine writes_bind (yields_runSpec _ _) (writes_bind (yields_sendProgress _ _) ?_)
  exact writes_bind (yields_attemptRollback _ _ _) (writes_settle config caller _ _ _)

/-- The announcement comes first, and nothing is run when it does not fit. -/
theorem writes_executeClaimed (config : DaemonConfig) (caller : CallerRole)
    (requestId actionName : String) (spec : ActionSpec) (transactionId : String) :
    Writes o (executeClaimed config caller requestId actionName spec transactionId)
      [.jobStarted requestId o.jobId transactionId,
        dueCompletion o actionName spec transactionId] := by
  unfold executeClaimed
  refine writes_bind (yields_op (fun _ => rfl) rfl) fun log => ?_
  obtain ⟨out, hrun, hsent, hlost⟩ :=
    sendResponse_runIn (o.answers_send log (.jobStarted requestId o.jobId transactionId))
  have hstarted := framesOut_send (.jobStarted requestId o.jobId transactionId) rfl
  cases hfits : (DaemonResponse.jobStarted requestId o.jobId transactionId).fits with
  | true =>
    obtain rfl := hsent hfits
    obtain ⟨out', evs, hrun', hframes⟩ :=
      writes_runAnnounced (o := o) config caller actionName spec transactionId _
    rw [List.append_assoc] at hrun'
    refine ⟨out', _, (runIn_bind_some hrun).trans hrun', ?_⟩
    rw [framesOut_append, hstarted, hframes, List.takeWhile_cons_of_pos hfits,
      List.takeWhile_cons_of_pos hfits]
    rfl
  | false =>
    obtain ⟨e, rfl⟩ := hlost hfits
    refine ⟨_, _, runIn_bind_some hrun, ?_⟩
    rw [hstarted, List.takeWhile_cons_of_neg (by simp [hfits]),
      List.takeWhile_cons_of_neg (by simp [hfits])]

theorem writes_execution (crypto : Crypto) (config : DaemonConfig) (caller : CallerRole)
    (requestId actionName : String) (params : Json) (approvalHash : String) :
    Writes o (handleExecute crypto config caller requestId actionName params approvalHash)
      (dueExecution crypto config caller o requestId actionName params approvalHash) := by
  unfold handleExecute dueExecution
  cases buildActionSpec actionName params with
  | error e => exact writes_error _ _ _
  | ok spec =>
    dsimp only
    by_cases hallowed : (!config.policy.actionAllowed caller actionName) = true
    · rw [if_pos hallowed, if_pos hallowed]
      exact writes_error _ _ _
    rw [if_neg hallowed, if_neg hallowed]
    cases requireFreshApproval (computeRequestHash crypto actionName params) approvalHash with
    | error e => exact writes_error _ _ _
    | ok u =>
      refine writes_bind (yields_op (fun _ => rfl) rfl) ?_
      cases o.found with
      | error e => exact writes_error _ _ _
      | ok found =>
        cases found with
        | none => exact writes_error _ _ _
        | some tx =>
          refine writes_bind (yields_op (fun _ => rfl) rfl) ?_
          cases o.claimed with
          | error e => exact writes_error _ _ _
          | ok claimed =>
            cases claimed with
            | false => exact writes_error _ _ _
            | true => exact writes_executeClaimed config caller _ _ _ _

/-- Every handler writes the frames that are due, up to one that does not fit. -/
theorem writes_due (crypto : Crypto) (config : DaemonConfig) (caller : CallerRole)
    (request : DaemonRequest) :
    Writes o (handleRequest crypto config caller request) (due crypto config caller o request) := by
  cases request with
  | queryState requestId =>
    refine writes_bind (yields_op (fun _ => rfl) rfl) ?_
    unfold due
    cases o.collected with
    | joinFailed message => exact fun log => ⟨_, [], by rw [List.append_nil]; rfl, rfl⟩
    | failed message => exact writes_error _ _ _
    | state value => exact writes_send rfl
  | preview requestId actionName params => exact writes_preview crypto config caller _ _ _
  | execute requestId actionName params approvalHash =>
    exact writes_execution crypto config caller _ _ _ _
  | cancel jobId => exact writes_error _ _ _
  | queryAction requestId actionName params => exact writes_query config _ _ _
  | describe requestId actionName params => exact writes_describe _ _ _
  | unknown detail => exact writes_error _ _ _

end Handlers

/-! ## The reply that ends a request -/

def DaemonRequest.requestId : DaemonRequest → Option String
  | .queryState requestId | .preview requestId .. | .execute requestId .. | .queryAction requestId ..
  | .describe requestId .. => some requestId
  | .cancel _ | .unknown _ => none

/-- Among the frames written, this one is a terminal response to the request. -/
def EndsRequest (request : DaemonRequest) (written : List DaemonResponse) :
    DaemonResponse → Prop
  | .stateResponse requestId .. | .previewResponse requestId .. | .queryActionResponse requestId ..
  | .describeResponse requestId .. | .errorResponse requestId .. =>
      ∀ expected, request.requestId = some expected → requestId = expected
  | .jobCompleted jobId _ => ∃ requestId transactionId, request.requestId = some requestId ∧
      .jobStarted requestId jobId transactionId ∈ written
  | .jobStarted .. | .jobProgress .. => False

section Answered
variable (crypto : Crypto) (config : DaemonConfig) (caller : CallerRole) (o : Outside)
  (request : DaemonRequest)

/-- The handler is done, and a terminal response to the request went out. -/
def Answered : Prop :=
  ∃ out log, (handleRequest crypto config caller request).runIn o.answers [] = (some out, log) ∧
    ∃ response ∈ framesOut log, EndsRequest request (framesOut log) response

variable {o} in
theorem dueHistory_ends {requestId actionName : String} {params : Json}
    {written : List DaemonResponse} :
    EndsRequest (.queryAction requestId actionName params) written
      (dueHistory o requestId actionName params) := by
  unfold dueHistory
  split
  · exact fun _ h => Option.some.inj h
  · split
    · exact fun _ h => Option.some.inj h
    · split <;> exact fun _ h => Option.some.inj h

theorem dueOutput_ends {requestId actionName : String} {params : Json} {output : ExecutionOutput}
    {written : List DaemonResponse} :
    EndsRequest (.queryAction requestId actionName params) written
      (dueOutput requestId actionName output) := by
  unfold dueOutput
  split <;> exact fun _ h => Option.some.inj h

/-- One terminal response is due, or an announcement and a completion. -/
theorem due_cases :
    (due crypto config caller o request = [] ∧
      ∃ requestId message, request = .queryState requestId ∧ o.collected = .joinFailed message) ∨
    (∃ response, due crypto config caller o request = [response] ∧
      ∀ written, EndsRequest request written response) ∨
    ∃ requestId transactionId result, request.requestId = some requestId ∧
      due crypto config caller o request =
        [.jobStarted requestId o.jobId transactionId, .jobCompleted o.jobId result] := by
  cases request with
  | queryState requestId =>
    unfold due
    cases o.collected with
    | joinFailed message => exact Or.inl ⟨rfl, requestId, message, rfl, rfl⟩
    | failed message => exact Or.inr (Or.inl ⟨_, rfl, fun _ _ h => Option.some.inj h⟩)
    | state value => exact Or.inr (Or.inl ⟨_, rfl, fun _ _ h => Option.some.inj h⟩)
  | preview requestId actionName params =>
    refine Or.inr (Or.inl ⟨_, rfl, fun written => ?_⟩)
    unfold duePreview
    split
    · exact fun _ h => Option.some.inj h
    · split_ifs
      · exact fun _ h => Option.some.inj h
      · split <;> exact fun _ h => Option.some.inj h
  | execute requestId actionName params approvalHash =>
    have hrefused : ∀ category message : String, ∃ response,
        [DaemonResponse.errorResponse requestId category message] = [response] ∧
          ∀ written, EndsRequest (.execute requestId actionName params approvalHash) written
            response := fun _ _ => ⟨_, rfl, fun _ _ h => Option.some.inj h⟩
    refine Or.inr ?_
    rw [due]
    unfold dueExecution
    split
    · exact Or.inl (hrefused _ _)
    · split
      · exact Or.inl (hrefused _ _)
      · split
        · exact Or.inl (hrefused _ _)
        · split
          · exact Or.inl (hrefused _ _)
          · exact Or.inl (hrefused _ _)
          · split
            · exact Or.inl (hrefused _ _)
            · split
              · exact Or.inl (hrefused _ _)
              · exact Or.inr ⟨requestId, _, _, rfl, rfl⟩
  | cancel jobId => exact Or.inr (Or.inl ⟨_, rfl, fun _ _ h => nomatch h⟩)
  | queryAction requestId actionName params =>
    refine Or.inr (Or.inl ⟨_, rfl, fun written => ?_⟩)
    unfold dueQuery
    split
    · exact fun _ h => Option.some.inj h
    · split
      · exact fun _ h => Option.some.inj h
      · split
        · exact dueHistory_ends
        · split
          · exact fun _ h => Option.some.inj h
          · split
            · exact fun _ h => Option.some.inj h
            · exact dueOutput_ends
  | describe requestId actionName params =>
    refine Or.inr (Or.inl ⟨_, rfl, fun written => ?_⟩)
    unfold dueDescription
    split_ifs
    · exact fun _ h => Option.some.inj h
    · split <;> exact fun _ h => Option.some.inj h
  | unknown detail => exact Or.inr (Or.inl ⟨_, rfl, fun _ _ h => nomatch h⟩)

variable {crypto config caller o request}

theorem Answered.due_fits (h : Answered crypto config caller o request) :
    due crypto config caller o request ≠ [] ∧
      ∀ response ∈ due crypto config caller o request, response.fits = true := by
  obtain ⟨out, log, hrun, response, hmem, hends⟩ := h
  obtain ⟨out', evs, hrun', hframes⟩ := writes_due (o := o) crypto config caller request []
  cases hrun.symm.trans hrun'
  rw [List.nil_append, hframes] at hmem
  rcases due_cases crypto config caller o request with ⟨hdue, -⟩ | ⟨only, hdue, -⟩ |
    ⟨requestId, transactionId, result, -, hdue⟩
  · rw [hdue] at hmem
    cases hmem
  · rw [hdue] at hmem ⊢
    cases hfits : only.fits with
    | true => simpa using hfits
    | false =>
      rw [List.takeWhile_cons_of_neg (by simp [hfits])] at hmem
      cases hmem
  · rw [hdue] at hmem ⊢
    cases hstarted : (DaemonResponse.jobStarted requestId o.jobId transactionId).fits with
    | false =>
      rw [List.takeWhile_cons_of_neg (by simp [hstarted])] at hmem
      cases hmem
    | true =>
      cases hcompleted : (DaemonResponse.jobCompleted o.jobId result).fits with
      | true => simp [hstarted, hcompleted]
      | false =>
        rw [List.takeWhile_cons_of_pos hstarted,
          List.takeWhile_cons_of_neg (by simp [hcompleted]), List.mem_singleton] at hmem
        obtain rfl := hmem
        exact absurd hends id

/-- A request is answered exactly when the state collector's task does not die
under it, and each frame it calls for fits into a message. -/
theorem answered_iff (crypto : Crypto) (config : DaemonConfig) (caller : CallerRole) (o : Outside)
    (request : DaemonRequest) :
    Answered crypto config caller o request ↔
      (∀ requestId message, request = .queryState requestId →
        o.collected ≠ .joinFailed message) ∧
      ∀ response ∈ due crypto config caller o request, response.fits = true := by
  constructor
  · intro h
    obtain ⟨hne, hfits⟩ := h.due_fits
    refine ⟨?_, hfits⟩
    intro requestId message rfl hcollected
    refine hne ?_
    rw [due, hcollected]
  · rintro ⟨hjoined, hfits⟩
    obtain ⟨out, log, hrun, hframes⟩ := writes_due (o := o) crypto config caller request []
    rw [List.takeWhile_eq_self_iff.mpr hfits] at hframes
    refine ⟨out, log, hrun, ?_⟩
    rw [hframes]
    rcases due_cases crypto config caller o request with ⟨-, requestId, message, hrequest, hdied⟩ |
      ⟨response, hdue, hends⟩ | ⟨requestId, transactionId, result, hid, hdue⟩
    · exact absurd hdied (hjoined requestId message hrequest)
    · rw [hdue]
      exact ⟨response, List.mem_singleton_self _, hends _⟩
    · rw [hdue]
      exact ⟨_, List.mem_cons_of_mem _ (List.mem_singleton_self _), requestId, transactionId, hid,
        List.mem_cons_self⟩

/-! ## An output larger than a frame -/

theorem length_le_flatMap {α β : Type} {f : α → List β} (hf : ∀ a, 0 < (f a).length)
    (xs : List α) : xs.length ≤ (xs.flatMap f).length := by
  induction xs with
  | nil => exact Nat.le_refl 0
  | cons x rest ih =>
    have hx := hf x
    rw [List.flatMap_cons, List.length_append, List.length_cons]
    omega

theorem length_le_utf8 (cs : List Char) : cs.length ≤ (utf8 (String.ofList cs)).length := by
  rw [utf8_ofList]
  exact length_le_flatMap (fun c => by
    rw [String.length_utf8EncodeChar]
    exact c.utf8Size_pos) cs

theorem length_le_jsonString (s : String) : s.toList.length ≤ (jsonString s).length := by
  have hbody := length_le_flatMap (f := escapeChar) (fun c => by
    unfold escapeChar
    split_ifs <;> exact Nat.succ_pos _) s.toList
  unfold jsonString
  rw [List.length_cons, List.length_append]
  omega

theorem query_too_large (requestId actionName output : String)
    (h : maxMessageBytes ≤ output.toList.length) :
    (DaemonResponse.queryActionResponse requestId actionName output).fits = false := by
  have hbytes := length_le_utf8
    (compact (DaemonResponse.queryActionResponse requestId actionName output).json)
  have hstring := length_le_jsonString output
  have hjson : (jsonString output).length < (compact
      (DaemonResponse.queryActionResponse requestId actionName output).json).length := by
    simp only [DaemonResponse.json, compact, compactMembers, Codec.joinWith, List.length_cons,
      List.length_append]
    omega
  unfold DaemonResponse.fits DaemonResponse.encode
  rw [decide_eq_false_iff_not]
  omega

/-- The listing of the processes is 4 MiB long. -/
def longListing : Outside where
  collected := .failed "rpm-ostree: command not found"
  listed := .ok []
  recorded := .error .json
  found := .ok none
  claimed := .ok false
  updated := .ok ()
  jobId := "0d9c7a64-0000-4000-8000-000000000002"
  executed := .ok ⟨String.ofList (List.replicate maxMessageBytes 'x'), "", 0⟩
  executedSpec := .error (.io "no such file")
  child := .error "no such file"

/-- The client that asked for it waits for ever. -/
theorem not_answered_longListing :
    ¬ Answered updateCrypto plainConfig .observer longListing
        (.queryAction "req-1" "ListProcesses" .null) := by
  intro h
  have hrole : plainConfig.policy.minRoleForAction "ListProcesses" = some .observer := by
    decide +kernel
  have hspec : buildActionSpec "ListProcesses" .null = .ok Actions.listProcessesSpec :=
    buildActionSpec_text .listProcesses .null
  have hdue : due updateCrypto plainConfig .observer longListing
      (.queryAction "req-1" "ListProcesses" .null) =
        [.queryActionResponse "req-1" "ListProcesses"
          (String.ofList (List.replicate maxMessageBytes 'x'))] := by
    rw [due, dueQuery, hrole]
    dsimp only
    rw [if_neg (by simp), if_neg (by decide), hspec]
    rfl
  have hfits := h.due_fits.2 _ (hdue ▸ List.mem_singleton_self _)
  rw [query_too_large _ _ _ (by simp)] at hfits
  cases hfits

end Answered

end Sysknife
