import Sysknife.Executor
import Sysknife.Policy
import Sysknife.Preview
import Sysknife.RequestHash
import Sysknife.Transport

/-!
# The dispatcher's request handlers

A handler is a program over the operations it performs on the world: frames sent
to the client, calls of the transaction store, child processes, file operations.
The answers come from outside, so a handler is defined for every client and
every child process.
-/

namespace Sysknife

open Interaction

/-! ## Wire types -/

inductive DaemonRequest where
  | queryState (requestId : String)
  | preview (requestId actionName : String) (params : Json)
  | execute (requestId actionName : String) (params : Json) (approvalHash : String)
  | cancel (jobId : String)
  | queryAction (requestId actionName : String) (params : Json)
  | describe (requestId actionName : String) (params : Json)
  /-- JSON that is no request, with serde's message. -/
  | unknown (detail : String)

structure JobResult where
  status : String
  summary : String
  warnings : List String
  jobId : String
  needsReboot : Bool
  rollbackRef : Option String
  transactionId : String
  deriving DecidableEq

inductive DaemonResponse where
  | stateResponse (requestId : String) (state : Json)
  | previewResponse (requestId : String) (preview : PreviewEnvelope) (transactionId : String)
  | jobStarted (requestId jobId transactionId : String)
  | jobProgress (jobId line : String)
  | jobCompleted (jobId : String) (result : JobResult)
  | queryActionResponse (requestId actionName output : String)
  | describeResponse (requestId command riskLevel : String) (rebootRequired : Bool)
  | errorResponse (requestId category message : String)

/-- `HandlerError`; the response types always serialise. -/
inductive HandlerError where
  | framing (e : FramingError)
  | internal (message : String)
  deriving DecidableEq

structure ExecutionOutput where
  stdout : String
  stderr : String
  exitCode : Int
  deriving DecidableEq

def ExecutionOutput.isSuccess (output : ExecutionOutput) : Bool := output.exitCode == 0

/-! ## Operations -/

/-- What a child process does once it runs: the lines it writes, an error that
stops the reading, how it ends, and what the stderr reader delivers. -/
structure ChildRun where
  lines : List String
  readError : Option String
  exit : Except String (Option Int)
  stderr : Except String String

/-- The state collector, run on a blocking thread. -/
inductive Collected where
  | joinFailed (message : String)
  | failed (message : String)
  | state (value : Json)

inductive DaemonOp where
  | send (response : DaemonResponse)
  | collectState
  | store (call : StoreCall)
  | newUuid
  /-- `ActionExecutor::execute`. -/
  | execute (spec : ActionSpec)
  /-- `execute_spec` on a file mechanism. -/
  | executeSpec (spec : ActionSpec)
  | spawn (program : String) (args : List String)
  /-- An audit event handed to the background forwarder. -/
  | forward (transactionId : String) (caller : CallerRole) (finalStatus : Option JobState)

@[reducible] def DaemonOp.Answer : DaemonOp → Type
  | .send _ => Except FramingError Unit
  | .collectState => Collected
  | .store call => call.Answer
  | .newUuid => String
  | .execute _ => Except ExecutorError ExecutionOutput
  | .executeSpec _ => Except ExecutorError ExecutionOutput
  | .spawn .. => Except String ChildRun
  | .forward .. => Unit

abbrev DaemonProg := Prog DaemonOp DaemonOp.Answer

def daemonOp (o : DaemonOp) : DaemonProg o.Answer := Prog.perform o

@[simp] theorem daemonOp_bind {α : Type} (o : DaemonOp) (f : o.Answer → DaemonProg α) :
    @bind DaemonProg _ (no_index o.Answer) α (daemonOp o) f = .op o f := rfl

/-- `send_response`. -/
def sendResponse (response : DaemonResponse) : DaemonProg (Except HandlerError Unit) := do
  match ← daemonOp (.send response) with
  | .ok () => return .ok ()
  | .error e => return .error (.framing e)

/-- `send_error`. -/
def sendError (requestId category message : String) : DaemonProg (Except HandlerError Unit) :=
  sendResponse (.errorResponse requestId category message)

/-- `let _ = send_response(JobProgress { .. })`. -/
def sendProgress (jobId line : String) : DaemonProg Unit := do
  let _ ← sendResponse (.jobProgress jobId line)
  return ()

/-! ## Credential redaction -/

def credentialKeysFor (actionName : String) : List String :=
  if actionName = "ProAttach" then ["token"] else []

def redactParams (actionName : String) (params : Json) : Json :=
  let keys := credentialKeysFor actionName
  if keys.isEmpty then params
  else match params with
    | .object fields => .object (fields.map fun (k, v) =>
        if keys.contains k then (k, .string "<REDACTED>") else (k, v))
    | _ => params

/-- `credential_argv_position`: the only credential is the last element. -/
def credentialIsLast (actionName : String) : Bool := actionName == "ProAttach"

def redactArgv (actionName : String) (params : Json) (args : List String) : List String :=
  let secrets := (credentialKeysFor actionName).filterMap fun k => (params.get k).bind Json.asStr
  if secrets.isEmpty then args
  else if credentialIsLast actionName then args.set (args.length - 1) "<REDACTED>"
  else args.map fun a => if secrets.contains a then "<REDACTED>" else a

/-! ## Configuration -/

/-- The parts of `DaemonState` the handlers read. The policy was built from the
operator's overrides when the daemon started. -/
structure DaemonConfig where
  riskOverrides : RiskOverrides
  policy : PolicyTable
  policy_built : PolicyTable.fromOverrides riskOverrides.entries = .ok policy
  audit : TransactionStore
  forwarder : Bool

def CallerRole.debug : CallerRole → String
  | .observer => "Observer"
  | .dev => "Dev"
  | .admin => "Admin"
  | .boot => "Boot"

def notAllowedMessage (actionName : String) (caller : CallerRole) : String :=
  "action '" ++ actionName ++ "' is not allowed for " ++ caller.debug ++ " role"

/-! ## Read-only requests -/

def handleQueryState (requestId : String) : DaemonProg (Except HandlerError Unit) := do
  match ← daemonOp .collectState with
  | .joinFailed e => return .error (.internal ("collect_state task failed: " ++ e))
  | .failed e => sendError requestId "state_collection_failed" e
  | .state value => sendResponse (.stateResponse requestId value)

/-- `{:width$}`: padded with blanks on the right. -/
def padRight (width : Nat) (s : String) : String :=
  s ++ String.ofList (List.replicate (width - s.toList.length) ' ')

/-- `format!("{:?}", status).to_lowercase()`. -/
def JobState.debugLower (status : JobState) : String :=
  String.ofList (status.debug.toList.map Char.toLower)

def historyLine (r : TransactionRecord) : String :=
  "  " ++ String.ofList (r.transactionId.toList.take 8) ++ "  " ++ padRight 30 r.actionName ++
    "  " ++ padRight 12 r.status.debugLower ++ "  " ++ r.summary ++ "\n"

def formatJobHistory (records : List TransactionRecord) : String :=
  if records.isEmpty then "No transactions found."
  else "Transaction history (" ++ toString records.length ++ " entries):\n\n" ++
    String.join (records.map historyLine)

/-- A number parameter of `ListJobHistory`: its value as a `u32`, or the value
that is none. -/
def historyNumber (params : Json) (key : String) : Except Json (Option Nat) :=
  match params.get key with
  | none => .ok none
  | some v => match v.asU64 with
    | some n => .ok (some (n % 2 ^ 32))
    | none => .error v

def notIntegerMessage (key : String) (v : Json) : String :=
  "'" ++ key ++ "' must be an integer, got: " ++ String.ofList (compact v)

def noTransactionsMessage (statusFilter actionFilter : Option String) (sinceHours : Option Nat) :
    String :=
  let filters := (statusFilter.map fun s => "status=" ++ s).toList ++
    (actionFilter.map fun a => "action=" ++ a).toList ++
    (sinceHours.map fun h => "since_hours=" ++ toString h).toList
  "No transactions found" ++
    (if filters.isEmpty then "" else " (filters: " ++ ", ".intercalate filters ++ ")") ++ "."

/-- The `ListJobHistory` branch of `handle_query_action`. -/
def handleListJobHistory (requestId actionName : String) (params : Json) :
    DaemonProg (Except HandlerError Unit) := do
  match historyNumber params "limit" with
  | .error v => sendError requestId "validation_failure" (notIntegerMessage "limit" v)
  | .ok limit =>
    let statusFilter := optStr params "status_filter"
    let actionFilter := optStr params "action_filter"
    match historyNumber params "since_hours" with
    | .error v => sendError requestId "validation_failure" (notIntegerMessage "since_hours" v)
    | .ok sinceHours =>
      match ← daemonOp (.store (.listTransactions (limit.getD 20) statusFilter actionFilter
          sinceHours)) with
      | .error e =>
        sendError requestId "execution_failure" ("failed to query transaction log: " ++ e.display)
      | .ok records =>
        let output := if records.isEmpty then
          noTransactionsMessage statusFilter actionFilter sinceHours else formatJobHistory records
        sendResponse (.queryActionResponse requestId actionName output)

/-- The end of `handle_query_action`, once the command has run. -/
def replyQueryAction (requestId actionName : String) (output : ExecutionOutput) :
    DaemonProg (Except HandlerError Unit) :=
  let informational := actionName == "GetServiceStatus" && 1 ≤ output.exitCode &&
    output.exitCode ≤ 4
  if !output.isSuccess && !informational then
    let stderr := trim output.stderr.toList
    sendError requestId "execution_failure"
      (actionName ++ " failed with exit code " ++ toString output.exitCode ++
        (if stderr.isEmpty then "" else ": " ++ String.ofList stderr))
  else
    sendResponse (.queryActionResponse requestId actionName
      (if output.stderr.isEmpty then output.stdout
       else output.stdout ++ "\n[stderr]\n" ++ output.stderr))

def handleQueryAction (config : DaemonConfig) (actionName : String) (params : Json)
    (requestId : String) : DaemonProg (Except HandlerError Unit) := do
  match config.policy.minRoleForAction actionName with
  | none => sendError requestId "validation_failure" ("unknown action: " ++ actionName)
  | some minRole =>
    if minRole ≠ .observer then
      sendError requestId "authorization_failure"
        (actionName ++ " is not a read-only action; use preview+execute instead")
    else if actionName = "ListJobHistory" then handleListJobHistory requestId actionName params
    else match buildActionSpec actionName params with
      | .error e => sendError requestId "validation_failure" e.display
      | .ok spec =>
        match ← daemonOp (.execute spec) with
        | .error e => sendError requestId "execution_failure" e.display
        | .ok output => replyQueryAction requestId actionName output

def describeCommand (actionName : String) (params : Json) : ActionMechanism → String
  | .command program args =>
      let displayArgs := redactArgv actionName params args
      if displayArgs.isEmpty then program else program ++ " " ++ " ".intercalate displayArgs
  | .fileScan path => "read " ++ path
  | .fileWrite path _ => "write " ++ path
  | .filePatch path _ _ => "patch " ++ path
  | .fileDelete path => "rm " ++ path

def handleDescribe (actionName : String) (params : Json) (requestId : String) :
    DaemonProg (Except HandlerError Unit) :=
  if actionName = "ListJobHistory" then
    sendResponse (.describeResponse requestId "query daemon job history (SQLite)" "low" false)
  else match buildActionSpec actionName params with
    | .error e => sendError requestId "validation_failure"
        ("unknown action: " ++ actionName ++ " (" ++ e.display ++ ")")
    | .ok spec => sendResponse (.describeResponse requestId
        (describeCommand actionName params spec.mechanism)
        (UnitEnum.variantName spec.riskLevel) spec.rebootRequired)

section Handlers
variable (crypto : Crypto) (config : DaemonConfig) (caller : CallerRole)

/-- `forward_audit_event` and `forward_status_change_event`. -/
def forwardEvent (transactionId : String) (finalStatus : Option JobState) : DaemonProg Unit := do
  if config.forwarder then daemonOp (.forward transactionId caller finalStatus)
  else return ()

/-! ## Preview -/

/-- The transaction a preview records. -/
def previewTransaction (requestId requestHash actionName : String) (spec : ActionSpec)
    (preview : PreviewEnvelope) : NewTransaction where
  requestId := requestId
  requestHash := requestHash
  actionName := actionName
  riskLevel := spec.riskLevel
  approvalId := none
  summary := preview.summary
  warnings := preview.warnings

def previewFor (requestId actionName : String) (params : Json) (currentState : Json) :
    PreviewEnvelope :=
  previewAction ⟨actionName, requestId, params, caller, computeRequestHash crypto actionName params⟩
    currentState
    (.object [("action", .string actionName), ("params", redactParams actionName params)])

/-- The state in a preview is best effort: one goes out without it. -/
def previewState : DaemonProg Json := do
  match ← daemonOp .collectState with
  | .joinFailed _ => return .null
  | .failed _ => return .null
  | .state value => return value

/-- `handle_preview` from the collected state on. -/
def recordPreview (requestId actionName : String) (params : Json) (spec : ActionSpec)
    (currentState : Json) : DaemonProg (Except HandlerError Unit) := do
  let requestHash := computeRequestHash crypto actionName params
  let preview := previewFor crypto caller requestId actionName params currentState
  match ← daemonOp (.store (.recordPreviewed
      (previewTransaction requestId requestHash actionName spec preview) preview)) with
  | .error e =>
    sendError requestId "transient_infrastructure_failure"
      ("failed to record preview transaction: " ++ e.display)
  | .ok recorded => do
    forwardEvent config caller recorded.transaction.transactionId none
    sendResponse (.previewResponse requestId preview recorded.transaction.transactionId)

def handlePreview (requestId actionName : String) (params : Json) :
    DaemonProg (Except HandlerError Unit) :=
  match buildActionSpec actionName params with
  | .error e => sendError requestId "validation_failure" e.display
  | .ok spec =>
    if !config.policy.actionAllowed caller actionName then
      sendError requestId "authorization_failure" (notAllowedMessage actionName caller)
    else do
      let currentState ← previewState
      recordPreview crypto config caller requestId actionName params spec currentState

/-! ## Execute -/

/-- The loop of `stream_command_with_progress`: a failed send is only logged. -/
def sendLines (jobId : String) : List String → DaemonProg Unit
  | [] => return ()
  | line :: rest => do
      if !line.isEmpty then sendProgress jobId line
      sendLines jobId rest

def streamCommandWithProgress (jobId program : String) (args : List String) :
    DaemonProg (Except ExecutorError ExecutionOutput) := do
  match ← daemonOp (.spawn program args) with
  | .error e => return .error (.io e)
  | .ok child => do
    sendLines jobId child.lines
    match child.readError, child.exit, child.stderr with
    | some e, _, _ => return .error (.io e)
    | none, .error e, _ => return .error (.io e)
    | none, .ok _, .error e => return .error (.io e)
    | none, .ok code, .ok stderr =>
      return .ok ⟨String.join (child.lines.map (· ++ "\n")), stderr, code.getD (-1)⟩

/-- Commands stream their output; file operations are done at once. -/
def runSpec (jobId : String) (spec : ActionSpec) :
    DaemonProg (Except ExecutorError ExecutionOutput) :=
  match spec.mechanism with
  | .command program args => streamCommandWithProgress jobId program args
  | _ => daemonOp (.executeSpec spec)

/-- `(initial_status, initial_summary)`. -/
def initialOutcome (actionName : String) (spec : ActionSpec) :
    Except ExecutorError ExecutionOutput → JobState × String
  | .ok output =>
      if output.isSuccess then
        if spec.rebootRequired then (.needsReboot, actionName ++ " completed; reboot required")
        else (.succeeded, actionName ++ " completed successfully")
      else (.failed, actionName ++ " failed with exit code " ++ toString output.exitCode)
  | .error e => (.failed, actionName ++ " failed: " ++ e.display)

def completionLine (actionName : String) : Except ExecutorError ExecutionOutput → String
  | .ok output => actionName ++ " completed with exit code " ++ toString output.exitCode
  | .error e => actionName ++ " completed with error: " ++ e.display

def rollbackFailureDetail : Except ExecutorError ExecutionOutput → String
  | .ok output => "exit code " ++ toString output.exitCode
  | .error e => e.display

/-- `attempt_rollback_if_needed`: the final status, its summary and the rollback
reference. -/
def attemptRollbackIfNeeded (jobId actionName : String) (spec : ActionSpec) (status : JobState)
    (summary : String) : DaemonProg (JobState × String × Option String) := do
  if status ≠ .failed || !spec.rollbackAvailable then return (status, summary, none)
  else match rollbackSpecFor actionName with
    | none => return (status, summary, none)
    | some rbSpec => do
      sendProgress jobId
        (actionName ++ " failed — attempting automatic rollback via rpm-ostree rollback")
      let result ← daemonOp (.execute rbSpec)
      if result.toOption.any ExecutionOutput.isSuccess then do
        sendProgress jobId "Rollback succeeded — previous deployment restored"
        return (.rolledBack,
          actionName ++ " failed and was automatically rolled back to the previous deployment",
          some "rpm-ostree rollback")
      else do
        sendProgress jobId ("Rollback also failed (" ++ rollbackFailureDetail result ++
          ") — system may need manual intervention")
        return (status, summary, none)

def jobStateStr : JobState → String
  | .queued => "queued"
  | .running => "running"
  | .succeeded => "succeeded"
  | .failed => "failed"
  | .canceled => "canceled"
  | .rolledBack => "rolled_back"
  | .needsReboot => "needs_reboot"

/-- The end of `handle_execute`: the final status is stored and reported. -/
def settle (transactionId jobId : String) (finalStatus : JobState) (summary : String)
    (rollbackRef : Option String) : DaemonProg (Except HandlerError Unit) := do
  let warnings : List String ←
    match ← daemonOp (.store (.updateStatus transactionId finalStatus)) with
    | .ok _ => do
      forwardEvent config caller transactionId (some finalStatus)
      pure []
    | .error e => pure ["audit trail update failed: " ++ e.display]
  sendResponse (.jobCompleted jobId {
    status := jobStateStr finalStatus
    summary
    warnings
    jobId
    needsReboot := finalStatus == .needsReboot
    rollbackRef
    transactionId })

/-- `handle_execute` from the announced job on: a lost frame no longer matters. -/
def runAnnounced (actionName : String) (spec : ActionSpec) (transactionId jobId : String) :
    DaemonProg (Except HandlerError Unit) := do
  sendProgress jobId ("Authorization passed for " ++ actionName)
  sendProgress jobId ("Executing " ++ actionName ++ "...")
  let output ← runSpec jobId spec
  sendProgress jobId (completionLine actionName output)
  let (initialStatus, initialSummary) := initialOutcome actionName spec output
  let (finalStatus, summary, rollbackRef) ←
    attemptRollbackIfNeeded jobId actionName spec initialStatus initialSummary
  settle config caller transactionId jobId finalStatus summary rollbackRef

/-- `handle_execute` from the claimed transaction on. -/
def executeClaimed (requestId actionName : String) (spec : ActionSpec) (transactionId : String) :
    DaemonProg (Except HandlerError Unit) := do
  let jobId ← daemonOp .newUuid
  match ← sendResponse (.jobStarted requestId jobId transactionId) with
  -- the `?` of this one send leaves the handler
  | .error e => return .error e
  | .ok () => runAnnounced config caller actionName spec transactionId jobId

/-- `handle_execute` from the approval on: look up the preview and claim it. -/
def claimAndExecute (requestId actionName : String) (spec : ActionSpec) (storedHash : String) :
    DaemonProg (Except HandlerError Unit) := do
  match ← daemonOp (.store (.findByRequestHash storedHash)) with
  | .error e =>
    sendError requestId "transient_infrastructure_failure"
      ("transaction lookup failed: " ++ e.display)
  | .ok none =>
    sendError requestId "stale_approval"
      "no prior preview found for this action; preview before executing"
  | .ok (some tx) =>
    match ← daemonOp (.store (.claimForExecution tx.transactionId)) with
    | .error e =>
      sendError requestId "transient_infrastructure_failure"
        ("failed to claim transaction: " ++ e.display)
    | .ok claimed =>
      if !claimed then
        sendError requestId "stale_approval" "transaction already claimed by a concurrent request"
      else executeClaimed config caller requestId actionName spec tx.transactionId

def handleExecute (requestId actionName : String) (params : Json) (approvalHash : String) :
    DaemonProg (Except HandlerError Unit) :=
  match buildActionSpec actionName params with
  | .error e => sendError requestId "validation_failure" e.display
  | .ok spec =>
    if !config.policy.actionAllowed caller actionName then
      sendError requestId "authorization_failure" (notAllowedMessage actionName caller)
    else
      let storedHash := computeRequestHash crypto actionName params
      match requireFreshApproval storedHash approvalHash with
      | .error e => sendError requestId "stale_approval" e.display
      | .ok () => claimAndExecute config caller requestId actionName spec storedHash

/-- One round of `dispatch_loop`. -/
def handleRequest : DaemonRequest → DaemonProg (Except HandlerError Unit)
  | .queryState requestId => handleQueryState requestId
  | .preview requestId actionName params =>
      handlePreview crypto config caller requestId actionName params
  | .execute requestId actionName params approvalHash =>
      handleExecute crypto config caller requestId actionName params approvalHash
  | .queryAction requestId actionName params =>
      handleQueryAction config actionName params requestId
  | .describe requestId actionName params => handleDescribe actionName params requestId
  | .cancel jobId => sendError jobId "not_implemented" "cancel not yet implemented"
  | .unknown detail =>
      sendError "" "validation_failure" ("unknown message type: " ++ detail)

end Handlers

end Sysknife
