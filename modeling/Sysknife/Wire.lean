import Sysknife.Client
import Sysknife.Dispatcher

/-!
# Daemon responses on the wire

How a response is serialised, and that the client reads back what the daemon
wrote.
-/

namespace Sysknife

/-- A preview as JSON, its fields in declaration order. -/
def PreviewEnvelope.json (preview : PreviewEnvelope) : Json := .object
  [("summary", .string preview.summary),
   ("risk_level", .string (UnitEnum.variantName preview.riskLevel)),
   ("current_state", preview.currentState),
   ("proposed_change", preview.proposedChange),
   ("expected_side_effects", .array (preview.expectedSideEffects.map .string)),
   ("reboot_required", .bool preview.rebootRequired),
   ("rollback_available", .bool preview.rollbackAvailable),
   ("warnings", .array (preview.warnings.map .string)),
   ("request_hash", .string preview.requestHash)]

def JobResult.json (result : JobResult) : Json := .object
  [("status", .string result.status),
   ("summary", .string result.summary),
   ("warnings", .array (result.warnings.map .string)),
   ("job_id", .string result.jobId),
   ("needs_reboot", .bool result.needsReboot),
   ("rollback_ref", (result.rollbackRef.map .string).getD .null),
   ("transaction_id", .string result.transactionId)]

namespace DaemonResponse

def json : DaemonResponse → Json
  | .stateResponse requestId state => .object
      [("type", .string "state_response"), ("request_id", .string requestId), ("state", state)]
  | .previewResponse requestId preview transactionId => .object
      [("type", .string "preview_response"), ("request_id", .string requestId),
       ("preview", preview.json), ("transaction_id", .string transactionId)]
  | .jobStarted requestId jobId transactionId => .object
      [("type", .string "job_started"), ("request_id", .string requestId),
       ("job_id", .string jobId), ("transaction_id", .string transactionId)]
  | .jobProgress jobId line => .object
      [("type", .string "job_progress"), ("job_id", .string jobId), ("line", .string line)]
  | .jobCompleted jobId result => .object
      [("type", .string "job_completed"), ("job_id", .string jobId), ("result", result.json)]
  | .queryActionResponse requestId actionName output => .object
      [("type", .string "query_action_response"), ("request_id", .string requestId),
       ("action_name", .string actionName), ("output", .string output)]
  | .describeResponse requestId command riskLevel rebootRequired => .object
      [("type", .string "describe_response"), ("request_id", .string requestId),
       ("command", .string command), ("risk_level", .string riskLevel),
       ("reboot_required", .bool rebootRequired)]
  | .errorResponse requestId category message => .object
      [("type", .string "error_response"), ("request_id", .string requestId),
       ("category", .string category), ("message", .string message)]

/-- `serde_json::to_vec`. -/
def encode (response : DaemonResponse) : List UInt8 := utf8 (String.ofList (compact response.json))

end DaemonResponse

/-! ## The client reads what the daemon wrote -/

theorem decodeUnit_variantName {α : Type} [UnitEnum α] (a : α) :
    decodeUnit (.string (UnitEnum.variantName a)) = some a := variantNamed_variantName a

theorem decodeStrings_map (texts : List String) :
    decodeStrings (.array (texts.map .string)) = some texts := by
  show (texts.map Json.string).mapM Json.asStr = some texts
  induction texts with
  | nil => rfl
  | cons s rest ih =>
    rw [List.map_cons, List.mapM_cons, ih]
    rfl

theorem previewEnvelope_decode_json (preview : PreviewEnvelope) :
    PreviewEnvelope.decode preview.json = some preview := by
  simp [PreviewEnvelope.decode, PreviewEnvelope.json, structFields, List.lookup_cons,
    decodeUnit_variantName, decodeStrings_map, Json.asStr, Json.asBool]

/-- What the client keeps of a job result. -/
def JobResult.envelope (result : JobResult) (status : JobState) : ResultEnvelope where
  status
  summary := result.summary
  warnings := result.warnings
  jobId := some result.jobId
  needsReboot := result.needsReboot
  rollbackRef := result.rollbackRef
  transactionId := result.transactionId

theorem resultEnvelope_decode_json {result : JobResult} {status : JobState}
    (h : result.status = UnitEnum.variantName status) :
    ResultEnvelope.decode result.json = some (result.envelope status) := by
  cases hr : result.rollbackRef <;>
    simp [ResultEnvelope.decode, JobResult.json, structFields, List.lookup_cons, h, hr,
      decodeUnit_variantName, decodeStrings_map, decodeOptionalString, Json.asStr, Json.asBool,
      JobResult.envelope]

section Read
variable {text : ClientText} {lost : String}

theorem previewOf_previewResponse (requestId transactionId : String) (preview : PreviewEnvelope)
    (later : List Frame) :
    previewOf text ⟨.ok (DaemonResponse.previewResponse requestId preview transactionId).json ::
      later, lost⟩ = .ok preview := by
  have hindex : (DaemonResponse.previewResponse requestId preview transactionId).json.index
      "preview" = preview.json := rfl
  unfold previewOf
  dsimp only
  rw [hindex, previewEnvelope_decode_json]
  rfl

theorem executeOf_jobStarted (requestId jobId transactionId : String) (later : List Frame) :
    executeOf text lost (.ok (DaemonResponse.jobStarted requestId jobId transactionId).json ::
      later) = executeOf text lost later := rfl

/-- A finished job: the client has its result, whatever the status. -/
theorem executeOf_jobCompleted (jobId : String) {result : JobResult} {status : JobState}
    (h : result.status = UnitEnum.variantName status) (later : List Frame) :
    executeOf text lost (.ok (DaemonResponse.jobCompleted jobId result).json :: later) =
      ([], .ok (result.envelope status)) := by
  have hindex : (DaemonResponse.jobCompleted jobId result).json.index "result" = result.json := rfl
  rw [executeOf]
  dsimp only
  rw [hindex, resultEnvelope_decode_json h]
  rfl

end Read

/-! ## A daemon that answers -/

/-- The text functions on texts without escapes. -/
def plainText : ClientText where
  debugJson v := String.ofList (compact v)
  debugStr s := "\"" ++ s ++ "\""
  previewError _ := "invalid preview"
  resultError _ := "invalid result"
  stripAnsi := id

def shortPreview (risk : RiskLevel) : PreviewEnvelope where
  summary := "Preview"
  riskLevel := risk
  currentState := .null
  proposedChange := .null
  expectedSideEffects := []
  rebootRequired := false
  rollbackAvailable := false
  warnings := []
  requestHash := "3a7b"

def shortResult (status : JobState) : JobResult where
  status := UnitEnum.variantName status
  summary := "done"
  warnings := []
  jobId := "job-1"
  needsReboot := false
  rollbackRef := none
  transactionId := "t-1"

/-- The replies to a preview, up to the end of the connection. -/
def previewReplies (risk : RiskLevel) : Replies :=
  ⟨[.ok (DaemonResponse.previewResponse "cli-preview" (shortPreview risk) "t-1").json],
    "early eof"⟩

/-- The replies to an execute request. -/
def executeReplies (status : JobState) : Replies :=
  ⟨[.ok (DaemonResponse.jobStarted "cli-exec" "job-1" "t-1").json,
    .ok (DaemonResponse.jobCompleted "job-1" (shortResult status)).json], "early eof"⟩

theorem previewOf_previewReplies (risk : RiskLevel) :
    previewOf plainText (previewReplies risk) = .ok (shortPreview risk) :=
  previewOf_previewResponse _ _ _ _

theorem resultOf_executeReplies (status : JobState) :
    resultOf plainText (executeReplies status) = .ok ((shortResult status).envelope status) := by
  unfold resultOf executeReplies
  dsimp only
  rw [executeOf_jobStarted, executeOf_jobCompleted _ rfl]

/-- A world where the daemon answers every step with the given risk and status,
and nobody is at the terminal. -/
def answeringWorld (plan : Option (Except CliError Plan)) (risk : Nat → RiskLevel)
    (status : Nat → JobState) : ClientWorld where
  plan
  distro := none
  planAnswer := none
  stepAnswer _ := none
  preview i := ⟨some (.ok ()), some (previewReplies (risk i))⟩
  execute i := ⟨some (.ok ()), some (executeReplies (status i))⟩

end Sysknife
