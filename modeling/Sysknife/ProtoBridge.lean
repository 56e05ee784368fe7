import Sysknife.Client
import Sysknife.Lib.Fallible
import Sysknife.Preview

/-!
# The bridge to the protobuf types

Every envelope has a protobuf message of its own. On the way there an enumeration becomes
its number, a JSON value its text, and an optional text that is absent the empty text; on
the way back a number or a text may turn out to be none.
-/

namespace Sysknife

open Fallible

/-! ## The messages -/

namespace Proto

structure RequestEnvelope where
  actionName : String
  requestId : String
  paramsJson : String
  callerRole : Int32
  requestHash : String

structure PreviewEnvelope where
  summary : String
  riskLevel : Int32
  currentStateJson : String
  proposedChangeJson : String
  expectedSideEffects : List String
  rebootRequired : Bool
  rollbackAvailable : Bool
  warnings : List String
  requestHash : String

structure ResultEnvelope where
  status : Int32
  summary : String
  warnings : List String
  jobId : String
  needsReboot : Bool
  rollbackRef : String
  transactionId : String

structure TransactionRecord where
  transactionId : String
  requestId : String
  requestHash : String
  actionName : String
  riskLevel : Int32
  status : Int32
  approvalId : String
  summary : String
  warnings : List String

end Proto

inductive BridgeError where
  | invalidJson (field detail : String)
  | invalidEnum (field : String) (value : Int32)

/-! ## Enumerations -/

inductive FailureCategory where
  | validationFailure | authorizationFailure | policyDenied | staleApproval | executionFailure
  | transientInfrastructureFailure | cancellation | stuckExecution | rebootRequired
  | rollbackFailure

/-- An enumeration and its numbers: those the protobuf type has, and what they stand for. -/
structure EnumBridge (α : Type) where
  field : String
  known : List Int32
  code : α → Int32
  ofCode : Int32 → Option α

/-- Both `try_from` of a number: the one of the protobuf type, then the one from it. -/
def EnumBridge.tryFrom {α : Type} (bridge : EnumBridge α) (value : Int32) : Except BridgeError α :=
  if bridge.known.contains value then
    match bridge.ofCode value with
    | some a => .ok a
    | none => .error (.invalidEnum bridge.field value)
  else .error (.invalidEnum bridge.field value)

def callerRoleCode : CallerRole → Int32
  | .observer => 1
  | .dev => 2
  | .admin => 3
  | .boot => 4

def callerRoleBridge : EnumBridge CallerRole where
  field := "caller_role"
  known := [0, 1, 2, 3, 4]
  code := callerRoleCode
  ofCode
    | 1 => some .observer
    | 2 => some .dev
    | 3 => some .admin
    | 4 => some .boot
    | _ => none

def riskLevelCode : RiskLevel → Int32
  | .low => 1
  | .medium => 2
  | .high => 3

def riskLevelBridge : EnumBridge RiskLevel where
  field := "risk_level"
  known := [0, 1, 2, 3]
  code := riskLevelCode
  ofCode
    | 1 => some .low
    | 2 => some .medium
    | 3 => some .high
    | _ => none

def jobStateCode : JobState → Int32
  | .queued => 1
  | .running => 2
  | .succeeded => 3
  | .failed => 4
  | .canceled => 5
  | .rolledBack => 6
  | .needsReboot => 7

def jobStateBridge : EnumBridge JobState where
  field := "job_state"
  known := [0, 1, 2, 3, 4, 5, 6, 7]
  code := jobStateCode
  ofCode
    | 1 => some .queued
    | 2 => some .running
    | 3 => some .succeeded
    | 4 => some .failed
    | 5 => some .canceled
    | 6 => some .rolledBack
    | 7 => some .needsReboot
    | _ => none

def failureCategoryCode : FailureCategory → Int32
  | .validationFailure => 1
  | .authorizationFailure => 2
  | .policyDenied => 3
  | .staleApproval => 4
  | .executionFailure => 5
  | .transientInfrastructureFailure => 6
  | .cancellation => 7
  | .stuckExecution => 8
  | .rebootRequired => 9
  | .rollbackFailure => 10

def failureCategoryBridge : EnumBridge FailureCategory where
  field := "failure_category"
  known := [0, 1, 2, 3, 4, 5, 6, 7, 8, 9, 10]
  code := failureCategoryCode
  ofCode
    | 1 => some .validationFailure
    | 2 => some .authorizationFailure
    | 3 => some .policyDenied
    | 4 => some .staleApproval
    | 5 => some .executionFailure
    | 6 => some .transientInfrastructureFailure
    | 7 => some .cancellation
    | 8 => some .stuckExecution
    | 9 => some .rebootRequired
    | 10 => some .rollbackFailure
    | _ => none

/-- The numbers of the variants are known, and stand for them alone. -/
structure EnumBridge.Lawful {α : Type} (bridge : EnumBridge α) : Prop where
  code_known : ∀ a, bridge.code a ∈ bridge.known
  ofCode_code : ∀ a, bridge.ofCode (bridge.code a) = some a
  code_ofCode : ∀ value a, bridge.ofCode value = some a → bridge.code a = value

/-- The number of a variant is read as that variant, and no other number is. -/
theorem EnumBridge.Lawful.tryFrom_ok_iff {α : Type} {bridge : EnumBridge α} (h : bridge.Lawful)
    {value : Int32} {a : α} : bridge.tryFrom value = .ok a ↔ bridge.code a = value := by
  constructor
  · intro hread
    unfold tryFrom at hread
    split at hread
    · split at hread
      · next b hb =>
        cases hread
        exact h.code_ofCode value a hb
      · cases hread
    · cases hread
  · intro h
    obtain rfl := h
    rw [tryFrom, if_pos (List.contains_iff_mem.mpr (h.code_known a)), h.ofCode_code]

theorem callerRoleBridge_lawful : callerRoleBridge.Lawful where
  code_known a := by cases a <;> decide
  ofCode_code a := by cases a <;> rfl
  code_ofCode value a h := by
    unfold callerRoleBridge at h ⊢
    dsimp only at h ⊢
    split at h <;> cases h <;> rfl

theorem riskLevelBridge_lawful : riskLevelBridge.Lawful where
  code_known a := by cases a <;> decide
  ofCode_code a := by cases a <;> rfl
  code_ofCode value a h := by
    unfold riskLevelBridge at h ⊢
    dsimp only at h ⊢
    split at h <;> cases h <;> rfl

theorem jobStateBridge_lawful : jobStateBridge.Lawful where
  code_known a := by cases a <;> decide
  ofCode_code a := by cases a <;> rfl
  code_ofCode value a h := by
    unfold jobStateBridge at h ⊢
    dsimp only at h ⊢
    split at h <;> cases h <;> rfl

theorem failureCategoryBridge_lawful : failureCategoryBridge.Lawful where
  code_known a := by cases a <;> decide
  ofCode_code a := by cases a <;> rfl
  code_ofCode value a h := by
    unfold failureCategoryBridge at h ⊢
    dsimp only at h ⊢
    split at h <;> cases h <;> rfl

/-! ## Texts -/

/-- `serde_json::to_string`. -/
def jsonText (v : Json) : String := String.ofList (compact v)

/-- `serde_json::from_str`, with the name of the field in its error. -/
def fromJsonText (parse : String → Except String Json) (field text : String) :
    Except BridgeError Json :=
  match parse text with
  | .ok v => .ok v
  | .error detail => .error (.invalidJson field detail)

/-- An empty text is an absent one. -/
def optionalText (s : String) : Option String := if s.isEmpty then none else some s

/-- What is left of an optional text behind the bridge. -/
def collapseEmpty (o : Option String) : Option String := o.filter (!·.isEmpty)

theorem optionalText_getD (o : Option String) : optionalText (o.getD "") = collapseEmpty o := by
  cases o with
  | none => rfl
  | some s =>
    rw [Option.getD_some, optionalText, collapseEmpty, Option.filter_some]
    cases s.isEmpty <;> rfl

theorem getD_optionalText (s : String) : (optionalText s).getD "" = s := by
  unfold optionalText
  split_ifs with h
  · exact (String.isEmpty_iff.mp h).symm
  · rfl

theorem collapseEmpty_eq_self_iff (o : Option String) : collapseEmpty o = o ↔ o ≠ some "" := by
  cases o with
  | none => simp [collapseEmpty]
  | some s => simp [collapseEmpty, Option.filter_some]

/-! ## Envelopes -/

section Envelopes
variable (parse : String → Except String Json)

namespace RequestEnvelope

def toProto (value : RequestEnvelope) : Proto.RequestEnvelope where
  actionName := value.actionName
  requestId := value.requestId
  paramsJson := jsonText value.params
  callerRole := callerRoleCode value.callerRole
  requestHash := value.requestHash

def ofProto (value : Proto.RequestEnvelope) : Except BridgeError RequestEnvelope := do
  let params ← fromJsonText parse "params_json" value.paramsJson
  let callerRole ← callerRoleBridge.tryFrom value.callerRole
  return {
    actionName := value.actionName
    requestId := value.requestId
    params
    callerRole
    requestHash := value.requestHash }

end RequestEnvelope

namespace PreviewEnvelope

def toProto (value : PreviewEnvelope) : Proto.PreviewEnvelope where
  summary := value.summary
  riskLevel := riskLevelCode value.riskLevel
  currentStateJson := jsonText value.currentState
  proposedChangeJson := jsonText value.proposedChange
  expectedSideEffects := value.expectedSideEffects
  rebootRequired := value.rebootRequired
  rollbackAvailable := value.rollbackAvailable
  warnings := value.warnings
  requestHash := value.requestHash

def ofProto (value : Proto.PreviewEnvelope) : Except BridgeError PreviewEnvelope := do
  let currentState ← fromJsonText parse "current_state_json" value.currentStateJson
  let proposedChange ← fromJsonText parse "proposed_change_json" value.proposedChangeJson
  let riskLevel ← riskLevelBridge.tryFrom value.riskLevel
  return {
    summary := value.summary
    riskLevel
    currentState
    proposedChange
    expectedSideEffects := value.expectedSideEffects
    rebootRequired := value.rebootRequired
    rollbackAvailable := value.rollbackAvailable
    warnings := value.warnings
    requestHash := value.requestHash }

end PreviewEnvelope

namespace ResultEnvelope

def toProto (value : ResultEnvelope) : Proto.ResultEnvelope where
  status := jobStateCode value.status
  summary := value.summary
  warnings := value.warnings
  jobId := value.jobId.getD ""
  needsReboot := value.needsReboot
  rollbackRef := value.rollbackRef.getD ""
  transactionId := value.transactionId

def ofProto (value : Proto.ResultEnvelope) : Except BridgeError ResultEnvelope := do
  let status ← jobStateBridge.tryFrom value.status
  return {
    status
    summary := value.summary
    warnings := value.warnings
    jobId := optionalText value.jobId
    needsReboot := value.needsReboot
    rollbackRef := optionalText value.rollbackRef
    transactionId := value.transactionId }

/-- The optional texts that are empty become absent. -/
def collapse (value : ResultEnvelope) : ResultEnvelope :=
  { value with
    jobId := collapseEmpty value.jobId
    rollbackRef := collapseEmpty value.rollbackRef }

end ResultEnvelope

namespace TransactionRecord

def toProto (value : TransactionRecord) : Proto.TransactionRecord where
  transactionId := value.transactionId
  requestId := value.requestId
  requestHash := value.requestHash
  actionName := value.actionName
  riskLevel := riskLevelCode value.riskLevel
  status := jobStateCode value.status
  approvalId := value.approvalId.getD ""
  summary := value.summary
  warnings := value.warnings

def ofProto (value : Proto.TransactionRecord) : Except BridgeError TransactionRecord := do
  let riskLevel ← riskLevelBridge.tryFrom value.riskLevel
  let status ← jobStateBridge.tryFrom value.status
  return {
    transactionId := value.transactionId
    requestId := value.requestId
    requestHash := value.requestHash
    actionName := value.actionName
    riskLevel
    status
    approvalId := optionalText value.approvalId
    summary := value.summary
    warnings := value.warnings }

/-- The approval that is empty becomes absent. -/
def collapse (value : TransactionRecord) : TransactionRecord :=
  { value with approvalId := collapseEmpty value.approvalId }

end TransactionRecord

/-! ## There and back -/

/-- The text that is printed for the value is read as that value. -/
def ReadsBack (v : Json) : Prop := parse (jsonText v) = .ok v

/-- The text is what is printed for the value that it is read as. -/
def Printed (text : String) : Prop := ∃ v, text = jsonText v ∧ ReadsBack parse v

variable {parse}

theorem fromJsonText_jsonText {v : Json} (h : ReadsBack parse v) (field : String) :
    fromJsonText parse field (jsonText v) = .ok v := by
  rw [fromJsonText, show parse (jsonText v) = .ok v from h]

theorem jsonText_of_fromJsonText {field text : String} {v : Json} (h : Printed parse text)
    (hread : fromJsonText parse field text = .ok v) : jsonText v = text := by
  obtain ⟨w, rfl, hw⟩ := h
  rw [fromJsonText_jsonText hw] at hread
  rw [Except.ok.inj hread]

theorem callerRole_tryFrom (role : CallerRole) :
    callerRoleBridge.tryFrom (callerRoleCode role) = .ok role :=
  callerRoleBridge_lawful.tryFrom_ok_iff.mpr rfl

theorem riskLevel_tryFrom (risk : RiskLevel) :
    riskLevelBridge.tryFrom (riskLevelCode risk) = .ok risk :=
  riskLevelBridge_lawful.tryFrom_ok_iff.mpr rfl

theorem jobState_tryFrom (status : JobState) :
    jobStateBridge.tryFrom (jobStateCode status) = .ok status :=
  jobStateBridge_lawful.tryFrom_ok_iff.mpr rfl

theorem RequestEnvelope.ofProto_toProto {value : RequestEnvelope}
    (h : ReadsBack parse value.params) : ofProto parse value.toProto = .ok value := by
  unfold ofProto toProto
  dsimp only
  rw [fromJsonText_jsonText h, callerRole_tryFrom]
  rfl

theorem PreviewEnvelope.ofProto_toProto {value : PreviewEnvelope}
    (hstate : ReadsBack parse value.currentState) (hchange : ReadsBack parse value.proposedChange) :
    ofProto parse value.toProto = .ok value := by
  unfold ofProto toProto
  dsimp only
  rw [fromJsonText_jsonText hstate, fromJsonText_jsonText hchange, riskLevel_tryFrom]
  rfl

theorem ResultEnvelope.ofProto_toProto (value : ResultEnvelope) :
    ofProto value.toProto = .ok value.collapse := by
  unfold ofProto toProto
  dsimp only
  rw [jobState_tryFrom, optionalText_getD, optionalText_getD]
  rfl

theorem TransactionRecord.ofProto_toProto (value : TransactionRecord) :
    ofProto value.toProto = .ok value.collapse := by
  unfold ofProto toProto
  dsimp only
  rw [riskLevel_tryFrom, jobState_tryFrom, optionalText_getD]
  rfl

theorem ResultEnvelope.collapse_eq_self_iff (value : ResultEnvelope) :
    value.collapse = value ↔ value.jobId ≠ some "" ∧ value.rollbackRef ≠ some "" := by
  rw [← collapseEmpty_eq_self_iff, ← collapseEmpty_eq_self_iff]
  cases value
  simp [collapse]

theorem TransactionRecord.collapse_eq_self_iff (value : TransactionRecord) :
    value.collapse = value ↔ value.approvalId ≠ some "" := by
  rw [← collapseEmpty_eq_self_iff]
  cases value
  simp [collapse]

theorem RequestEnvelope.ofProto_ensures {message : Proto.RequestEnvelope}
    (hparams : Printed parse message.paramsJson) :
    Ensures (ofProto parse message) fun value => value.toProto = message := by
  refine ensures_bind fun params hread => ensures_bind fun role hrole => ensures_ok ?_
  unfold toProto
  dsimp only
  rw [jsonText_of_fromJsonText hparams hread]
  rw [callerRoleBridge_lawful.tryFrom_ok_iff] at hrole
  exact congrArg (Proto.RequestEnvelope.mk _ _ _ · _) hrole

theorem PreviewEnvelope.ofProto_ensures {message : Proto.PreviewEnvelope}
    (hstate : Printed parse message.currentStateJson)
    (hchange : Printed parse message.proposedChangeJson) :
    Ensures (ofProto parse message) fun value => value.toProto = message := by
  refine ensures_bind fun state hread => ensures_bind fun change hread' =>
    ensures_bind fun risk hrisk => ensures_ok ?_
  unfold toProto
  dsimp only
  rw [jsonText_of_fromJsonText hstate hread, jsonText_of_fromJsonText hchange hread']
  rw [riskLevelBridge_lawful.tryFrom_ok_iff] at hrisk
  exact congrArg (Proto.PreviewEnvelope.mk _ · _ _ _ _ _ _ _) hrisk

theorem ResultEnvelope.ofProto_ensures (message : Proto.ResultEnvelope) :
    Ensures (ofProto message) fun value => value.toProto = message := by
  refine ensures_bind fun status hstatus => ensures_ok ?_
  unfold toProto
  dsimp only
  rw [getD_optionalText, getD_optionalText]
  rw [jobStateBridge_lawful.tryFrom_ok_iff] at hstatus
  exact congrArg (Proto.ResultEnvelope.mk · _ _ _ _ _ _) hstatus

theorem TransactionRecord.ofProto_ensures (message : Proto.TransactionRecord) :
    Ensures (ofProto message) fun value => value.toProto = message := by
  refine ensures_bind fun risk hrisk => ensures_bind fun status hstatus => ensures_ok ?_
  unfold toProto
  dsimp only
  rw [getD_optionalText]
  rw [riskLevelBridge_lawful.tryFrom_ok_iff] at hrisk
  rw [jobStateBridge_lawful.tryFrom_ok_iff] at hstatus
  exact congrArg₂ (Proto.TransactionRecord.mk _ _ _ _ · · _ _ _) hrisk hstatus

end Envelopes

/-- There and back an envelope is what it was, up to optional texts that are empty; back and
there a message that is accepted is what it was. -/
theorem bridge_roundTrip (parse : String → Except String Json) :
    ((∀ x : RequestEnvelope, ReadsBack parse x.params →
        RequestEnvelope.ofProto parse x.toProto = .ok x) ∧
      (∀ x : PreviewEnvelope, ReadsBack parse x.currentState → ReadsBack parse x.proposedChange →
        PreviewEnvelope.ofProto parse x.toProto = .ok x) ∧
      (∀ x : ResultEnvelope, ResultEnvelope.ofProto x.toProto = .ok x.collapse ∧
        (x.collapse = x ↔ x.jobId ≠ some "" ∧ x.rollbackRef ≠ some "")) ∧
      ∀ x : TransactionRecord, TransactionRecord.ofProto x.toProto = .ok x.collapse ∧
        (x.collapse = x ↔ x.approvalId ≠ some "")) ∧
    (∀ (y : Proto.RequestEnvelope) (x : RequestEnvelope), Printed parse y.paramsJson →
        RequestEnvelope.ofProto parse y = .ok x → x.toProto = y) ∧
      (∀ (y : Proto.PreviewEnvelope) (x : PreviewEnvelope), Printed parse y.currentStateJson →
        Printed parse y.proposedChangeJson → PreviewEnvelope.ofProto parse y = .ok x →
          x.toProto = y) ∧
      (∀ (y : Proto.ResultEnvelope) (x : ResultEnvelope),
        ResultEnvelope.ofProto y = .ok x → x.toProto = y) ∧
      ∀ (y : Proto.TransactionRecord) (x : TransactionRecord),
        TransactionRecord.ofProto y = .ok x → x.toProto = y := by
  refine ⟨⟨?_, ?_, ?_, ?_⟩, ?_, ?_, ?_, ?_⟩
  · exact fun x h => RequestEnvelope.ofProto_toProto h
  · exact fun x hstate hchange => PreviewEnvelope.ofProto_toProto hstate hchange
  · exact fun x => ⟨x.ofProto_toProto, x.collapse_eq_self_iff⟩
  · exact fun x => ⟨x.ofProto_toProto, x.collapse_eq_self_iff⟩
  · exact fun y x hparams => (RequestEnvelope.ofProto_ensures hparams) x
  · exact fun y x hstate hchange => (PreviewEnvelope.ofProto_ensures hstate hchange) x
  · exact fun y x => (ResultEnvelope.ofProto_ensures y) x
  · exact fun y x => (TransactionRecord.ofProto_ensures y) x

/-- The parameters of a request, and a parser that knows their text and no other. -/
def groupParams : Json := .object [("group", .string "docker"), ("username", .string "alice")]

def groupParse (text : String) : Except String Json :=
  if text = jsonText groupParams then .ok groupParams
  else .error "expected value at line 1 column 1"

theorem groupParse_readsBack : ReadsBack groupParse groupParams := if_pos rfl

def groupRequest : RequestEnvelope := ⟨"AddUserToGroup", "req-1", groupParams, .admin, "9bfe"⟩

def groupMessage : Proto.RequestEnvelope where
  actionName := "AddUserToGroup"
  requestId := "req-1"
  paramsJson := "\x7b\"group\":\"docker\",\"username\":\"alice\"\x7d"
  callerRole := 3
  requestHash := "9bfe"

theorem bridge_roundTrip_request :
    RequestEnvelope.ofProto groupParse groupRequest.toProto = .ok groupRequest ∧
      groupRequest.toProto = groupMessage := by
  have hprinted : groupMessage.paramsJson = jsonText groupParams := by decide +kernel
  have hread : RequestEnvelope.ofProto groupParse groupMessage = .ok groupRequest := by
    rw [RequestEnvelope.ofProto, hprinted]
    rfl
  exact ⟨(bridge_roundTrip groupParse).1.1 groupRequest groupParse_readsBack,
    (bridge_roundTrip groupParse).2.1 groupMessage groupRequest
      ⟨groupParams, hprinted, groupParse_readsBack⟩ hread⟩

/-- A job whose id is the empty text has none behind the bridge. -/
theorem bridge_emptyJobId : ¬ ∀ x : ResultEnvelope, ResultEnvelope.ofProto x.toProto = .ok x := by
  intro hall
  have hback := hall ⟨.succeeded, "Updated", [], some "", false, none, "tx-1"⟩
  rw [ResultEnvelope.ofProto_toProto, Except.ok.injEq] at hback
  exact absurd hback (by decide)

end Sysknife
