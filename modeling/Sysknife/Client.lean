import Sysknife.Approval
import Sysknife.Lib.Interaction
import Sysknife.Transactions

/-!
# The command line client's side of the daemon protocol

Each call of `DaemonClient` opens its own connection, sends one request and reads
replies. What the daemon does with the connection is an answer from outside:
whether the request goes out, which frames come back, and whether any come at
all.
-/

namespace Sysknife

open Interaction

inductive CliError where
  | rejected
  | executionFailed (detail : String)
  | planningFailed (detail : String)
  | configOrDaemon (detail : String)
  | riskCeilingExceeded (highest : PlanRiskLevel) (ceiling : MaxRisk)
  | nonInteractive
  | exit (code : Int)
  deriving DecidableEq

namespace CliError

def display : CliError → String
  | .rejected => "plan rejected by user"
  | .executionFailed detail => "execution failed: " ++ detail
  | .planningFailed detail => "planning failed: " ++ detail
  | .configOrDaemon detail => "config/daemon error: " ++ detail
  | .riskCeilingExceeded highest ceiling =>
      "plan contains a " ++ highest.asStr ++ " step, but --max-risk ceiling is " ++ ceiling.asStr
  | .nonInteractive => "plan requires interactive approval but --non-interactive was set"
  | .exit code => "subcommand exit code " ++ toString code

def exitCode : CliError → Int
  | .rejected | .riskCeilingExceeded .. | .nonInteractive => 1
  | .executionFailed _ => 2
  | .planningFailed _ => 3
  | .configOrDaemon _ => 4
  | .exit code => code

end CliError

/-- `ResultEnvelope`. -/
structure ResultEnvelope where
  status : JobState
  summary : String
  warnings : List String
  jobId : Option String
  needsReboot : Bool
  rollbackRef : Option String
  transactionId : String
  deriving DecidableEq

/-! ## Reading JSON -/

/-- `value[key]`: null where there is no such member. -/
def Json.index (value : Json) (key : String) : Json := (value.get key).getD .null

def variantNamed {α : Type} [UnitEnum α] (s : String) : Option α :=
  (UnitEnum.variants (α := α)).find? fun a => UnitEnum.variantName a == s

theorem variantNamed_variantName {α : Type} [UnitEnum α] (a : α) :
    variantNamed (UnitEnum.variantName a) = some a := by
  unfold variantNamed
  cases hf : (UnitEnum.variants (α := α)).find? fun b =>
      UnitEnum.variantName b == UnitEnum.variantName a with
  | none =>
    have hno := List.find?_eq_none.mp hf a (UnitEnum.mem_variants a)
    simp at hno
  | some b =>
    have hb := List.find?_some hf
    rw [UnitEnum.variantName_inj b a (eq_of_beq hb)]

/-- A unit variant: its name, or an object with the name as its only key. -/
def decodeUnit {α : Type} [UnitEnum α] : Json → Option α
  | .string s => variantNamed s
  | .object [(s, .null)] => variantNamed s
  | _ => none

def decodeStrings : Json → Option (List String)
  | .array items => items.mapM Json.asStr
  | _ => none

def decodeOptionalString : Json → Option (Option String)
  | .null => some none
  | .string s => some (some s)
  | _ => none

/-- The fields of a derived `Deserialize`: by name from an object, where a field
of type `Option` may be missing, or by position from an array. -/
def structFields (names : List (String × Bool)) : Json → Option (List Json)
  | .object members => names.mapM fun (name, optional) =>
      match members.lookup name with
      | some v => some v
      | none => if optional then some .null else none
  | .array items => if items.length = names.length then some items else none
  | _ => none

def PreviewEnvelope.decode (value : Json) : Option PreviewEnvelope :=
  match structFields [("summary", false), ("risk_level", false), ("current_state", false),
      ("proposed_change", false), ("expected_side_effects", false), ("reboot_required", false),
      ("rollback_available", false), ("warnings", false), ("request_hash", false)] value with
  | some [summary, riskLevel, currentState, proposedChange, expectedSideEffects, rebootRequired,
      rollbackAvailable, warnings, requestHash] => do
    return {
      summary := ← summary.asStr
      riskLevel := ← decodeUnit riskLevel
      currentState
      proposedChange
      expectedSideEffects := ← decodeStrings expectedSideEffects
      rebootRequired := ← rebootRequired.asBool
      rollbackAvailable := ← rollbackAvailable.asBool
      warnings := ← decodeStrings warnings
      requestHash := ← requestHash.asStr }
  | _ => none

def ResultEnvelope.decode (value : Json) : Option ResultEnvelope :=
  match structFields [("status", false), ("summary", false), ("warnings", false),
      ("job_id", true), ("needs_reboot", false), ("rollback_ref", true),
      ("transaction_id", false)] value with
  | some [status, summary, warnings, jobId, needsReboot, rollbackRef, transactionId] => do
    return {
      status := ← decodeUnit status
      summary := ← summary.asStr
      warnings := ← decodeStrings warnings
      jobId := ← decodeOptionalString jobId
      needsReboot := ← needsReboot.asBool
      rollbackRef := ← decodeOptionalString rollbackRef
      transactionId := ← transactionId.asStr }
  | _ => none

/-- Texts that `serde_json`, `strip_ansi_escapes` and the `Debug` printer make. -/
structure ClientText where
  debugJson : Json → String
  debugStr : String → String
  previewError : Json → String
  resultError : Json → String
  stripAnsi : String → String

/-! ## Requests and replies -/

inductive ClientRequest where
  | preview (actionName : String) (params : Json)
  | execute (actionName : String) (params : Json) (approvalHash : String)

namespace ClientRequest

/-- The message that is sent. -/
def json : ClientRequest → Json
  | .preview actionName params => .object
      [("type", .string "preview"),
       ("request_id", .string ("cli-preview-" ++ actionName)),
       ("action_name", .string actionName),
       ("params", params)]
  | .execute actionName params approvalHash => .object
      [("type", .string "execute"),
       ("request_id", .string ("cli-exec-" ++ actionName)),
       ("action_name", .string actionName),
       ("params", params),
       ("approval_hash", .string approvalHash)]

end ClientRequest

/-- A frame as JSON, or serde's complaint about it. -/
abbrev Frame := Except String Json

/-- What the daemon sends back on a connection: frames, then the read error that
ends it. -/
structure Replies where
  frames : List Frame
  lost : String

def errorResponseText (resp : Json) : String :=
  ((resp.index "category").asStr).getD "error" ++ ": " ++
    ((resp.index "message").asStr).getD "unknown"

section Decode
variable (text : ClientText)

/-- `DaemonClient::preview` once the request is out: only one frame is read. -/
def previewOf (replies : Replies) : Except CliError PreviewEnvelope :=
  match replies.frames with
  | [] => .error (.configOrDaemon ("recv: " ++ replies.lost))
  | .error e :: _ => .error (.configOrDaemon ("parse response: " ++ e))
  | .ok resp :: _ =>
    match (resp.index "type").asStr with
    | some "preview_response" =>
      match PreviewEnvelope.decode (resp.index "preview") with
      | some envelope => .ok envelope
      | none => .error (.configOrDaemon
          ("parse preview envelope: " ++ text.previewError (resp.index "preview")))
    | some "error_response" => .error (.planningFailed (errorResponseText resp))
    | _ => .error (.configOrDaemon
        ("unexpected response type: " ++ text.debugJson (resp.index "type")))

/-- The loop of `DaemonClient::execute`: the lines for `on_line` and the result. -/
def executeOf (lost : String) : List Frame → List String × Except CliError ResultEnvelope
  | [] => ([], .error (.executionFailed ("recv: " ++ lost)))
  | .error e :: _ => ([], .error (.executionFailed ("parse: " ++ e)))
  | .ok resp :: rest =>
    match (resp.index "type").asStr with
    | some "job_started" => executeOf lost rest
    | some "job_progress" =>
      match (resp.index "line").asStr with
      | none =>
        ([], .error (.executionFailed "job_progress message missing 'line' string field"))
      | some line =>
        let out := executeOf lost rest
        (text.stripAnsi line :: out.1, out.2)
    | some "job_completed" =>
      match ResultEnvelope.decode (resp.index "result") with
      | some envelope => ([], .ok envelope)
      | none => ([], .error (.executionFailed
          ("parse result: " ++ text.resultError (resp.index "result"))))
    | some "error_response" => ([], .error (.executionFailed (errorResponseText resp)))
    | _ => ([], .error (.executionFailed
        ("unexpected response type: " ++ text.debugJson (resp.index "type"))))

/-- What a call of `execute` makes of the replies. -/
def resultOf (replies : Replies) : Except CliError ResultEnvelope :=
  (executeOf text replies.lost replies.frames).2

end Decode

/-! ## Operations -/

/-- What `run_intent` asks the person at the terminal. -/
inductive Question where
  /-- Execute a plan of so many steps, of this highest risk? -/
  | plan (steps : Nat) (highest : PlanRiskLevel)
  | step (step : PlanStep)

/-- What `run_intent` prints, by the function that prints it. -/
inductive CliOutput where
  | planJson (plan : Plan)
  | printPlan (plan : Plan)
  | stepByStepWarning
  | previewJson (preview : PreviewEnvelope)
  | stepHeader (actionName : String) (preview : PreviewEnvelope)
  | outputLine (json : Bool) (line : String)
  | resultJson (result : ResultEnvelope)
  | stepDone (result : ResultEnvelope)
  | success

inductive DistroFamily where
  | fedora | debian | other
  deriving DecidableEq, Repr

inductive DistroId where
  | fedora (version : Nat)
  | fedoraSilverblue (version : Nat)
  | ubuntu (major minor : Nat)
  | ubuntuCore (major minor : Nat)
  | debian (version : Option Nat)
  | other (id : String) (versionId : Option String)
  deriving DecidableEq, Repr

inductive ClientOp where
  /-- Connect and write one request. -/
  | request (request : ClientRequest)
  /-- Read the connection that was opened last. -/
  | replies
  /-- One line from stdin; none at its end or on an error. -/
  | readLine (question : Question)
  | print (output : CliOutput)
  /-- Configuration, planner and model: the plan for an intent. -/
  | planIntent (intent : String)
  | detectDistro

@[reducible] def ClientOp.Answer : ClientOp → Type
  | .request _ => Except String Unit
  | .replies => Replies
  | .readLine _ => Option String
  | .print _ => Unit
  | .planIntent _ => Except CliError Plan
  | .detectDistro => Option DistroId

abbrev ClientProg := Prog ClientOp ClientOp.Answer
abbrev ClientEvent := Event ClientOp ClientOp.Answer

def clientOp (o : ClientOp) : ClientProg o.Answer := Prog.perform o

@[simp] theorem clientOp_bind {α : Type} (o : ClientOp) (f : o.Answer → ClientProg α) :
    @bind ClientProg _ (no_index o.Answer) α (clientOp o) f = .op o f := rfl

namespace DaemonClient

/-- One connection: send a request, then make something of the replies. -/
def call {α : Type} (request : ClientRequest) (refused : String → α) (answered : Replies → α) :
    ClientProg α := do
  match ← clientOp (.request request) with
  | .error e => return refused e
  | .ok () => do
    let replies ← clientOp .replies
    return answered replies

variable (text : ClientText)

/-- `DaemonClient::preview`. -/
def preview (actionName : String) (params : Json) :
    ClientProg (Except CliError PreviewEnvelope) :=
  call (.preview actionName params) (fun e => .error (.configOrDaemon e)) (previewOf text)

/-- `DaemonClient::execute`, with the lines it passes to `on_line`. -/
def execute (actionName : String) (params : Json) (approvalHash : String) :
    ClientProg (List String × Except CliError ResultEnvelope) :=
  call (.execute actionName params approvalHash)
    (fun e => ([], .error (.configOrDaemon e)))
    (fun replies => executeOf text replies.lost replies.frames)

/-- What a call has done by any moment: nothing, a request that failed, a request
that waits for its replies, or all of it. -/
theorem call_trace {α : Type} {request : ClientRequest} {refused : String → α}
    {answered : Replies → α} {evs : List ClientEvent} {q : ClientProg α}
    (h : Trace (call request refused answered) evs q) :
    (evs = [] ∧ q = call request refused answered) ∨
    (∃ e, evs = [⟨.request request, .error e⟩] ∧ q = .ret (refused e)) ∨
    (evs = [⟨.request request, .ok ()⟩] ∧
      q = .op .replies fun replies => .ret (answered replies)) ∨
    ∃ replies, evs = [⟨.request request, .ok ()⟩, ⟨.replies, replies⟩] ∧
      q = .ret (answered replies) := by
  rcases trace_op h with ⟨rfl, hq⟩ | ⟨answer, rest, rfl, hrest⟩
  · exact Or.inl ⟨rfl, hq⟩
  cases answer with
  | error e =>
    obtain ⟨rfl, hq⟩ := trace_ret hrest
    exact Or.inr (Or.inl ⟨e, rfl, hq⟩)
  | ok u =>
    rcases trace_op hrest with ⟨rfl, hq⟩ | ⟨replies, rest', rfl, hrest'⟩
    · exact Or.inr (Or.inr (Or.inl ⟨rfl, hq⟩))
    · obtain ⟨rfl, hq⟩ := trace_ret hrest'
      exact Or.inr (Or.inr (Or.inr ⟨replies, rfl, hq⟩))

theorem call_answered {α : Type} {request : ClientRequest} {refused : String → α}
    {answered : Replies → α} (replies : Replies) :
    Trace (call request refused answered)
      [⟨.request request, .ok ()⟩, ⟨.replies, replies⟩] (.ret (answered replies)) := by
  unfold call
  rw [clientOp_bind]
  apply Trace.cons
  rw [clientOp_bind]
  apply Trace.cons
  exact .done _

end DaemonClient

/-! ## A daemon and a person, step by step -/

/-- How one connection goes; `none` is a wait without end. -/
structure Conversation where
  sent : Option (Except String Unit)
  replies : Option Replies

/-- The replies to a request that went out. -/
def Conversation.answered (c : Conversation) : Option Replies :=
  match c.sent with
  | some (.ok ()) => c.replies
  | _ => none

/-- Everything the client meets, by the position of the step it concerns. -/
structure ClientWorld where
  plan : Option (Except CliError Plan)
  distro : Option DistroId
  planAnswer : Option (Option String)
  stepAnswer : Nat → Option (Option String)
  preview : Nat → Conversation
  execute : Nat → Conversation

def ClientOp.isPreview : ClientOp → Bool
  | .request (.preview ..) => true
  | _ => false

def ClientOp.isExecute : ClientOp → Bool
  | .request (.execute ..) => true
  | _ => false

def previewsIn (log : List ClientEvent) : Nat := log.countP fun e => e.op.isPreview

def executesIn (log : List ClientEvent) : Nat := log.countP fun e => e.op.isExecute

/-- The connection that was opened last belongs to a preview. -/
def previewOpen (log : List ClientEvent) : Bool := (log.getLast?.map fun e => e.op.isPreview).getD false

def ClientWorld.answers (w : ClientWorld) : World ClientOp ClientOp.Answer := fun log o =>
  match o with
  | .request (.preview ..) => (w.preview (previewsIn log)).sent
  | .request (.execute ..) => (w.execute (previewsIn log - 1)).sent
  | .replies =>
    if previewOpen log then (w.preview (previewsIn log - 1)).replies
    else (w.execute (previewsIn log - 1)).replies
  | .readLine (.plan ..) => w.planAnswer
  | .readLine (.step _) => w.stepAnswer (previewsIn log)
  | .print _ => some ()
  | .planIntent _ => w.plan
  | .detectDistro => some w.distro

/-- What a call makes of its conversation, and the events it adds. -/
def Conversation.outcome {α : Type} (c : Conversation) (request : ClientRequest)
    (refused : String → α) (answered : Replies → α) : Option α × List ClientEvent :=
  match c.sent with
  | none => (none, [])
  | some (.error e) => (some (refused e), [⟨.request request, .error e⟩])
  | some (.ok ()) =>
    match c.replies with
    | none => (none, [⟨.request request, .ok ()⟩])
    | some replies => (some (answered replies), [⟨.request request, .ok ()⟩, ⟨.replies, replies⟩])

section RunIn
variable {α : Type} {w : ClientWorld} {log : List ClientEvent} {refused : String → α}
  {answered : Replies → α}

/-- A call runs as its conversation goes. -/
theorem call_runIn {request : ClientRequest} {c : Conversation}
    (hsent : w.answers log (.request request) = c.sent)
    (hreplies : ∀ answer, w.answers (log ++ [⟨.request request, answer⟩]) .replies = c.replies) :
    (DaemonClient.call request refused answered).runIn w.answers log =
      ((c.outcome request refused answered).1,
        log ++ (c.outcome request refused answered).2) := by
  unfold DaemonClient.call Conversation.outcome
  rw [clientOp_bind]
  cases hs : c.sent with
  | none => rw [runIn_op_none (hsent.trans hs), List.append_nil]
  | some answer =>
    rw [runIn_op_some (hsent.trans hs)]
    cases answer with
    | error e => rfl
    | ok u =>
      dsimp only
      rw [clientOp_bind]
      cases hr : c.replies with
      | none => rw [runIn_op_none ((hreplies _).trans hr)]
      | some replies =>
        rw [runIn_op_some ((hreplies _).trans hr), List.append_assoc]
        rfl

theorem preview_runIn (actionName : String) (params : Json) :
    (DaemonClient.call (.preview actionName params) refused answered).runIn w.answers log =
      (((w.preview (previewsIn log)).outcome (.preview actionName params) refused answered).1,
        log ++ ((w.preview (previewsIn log)).outcome (.preview actionName params) refused
          answered).2) := by
  apply call_runIn
  · rfl
  · intro answer
    simp [ClientWorld.answers, previewOpen, previewsIn, ClientOp.isPreview]

theorem execute_runIn (actionName : String) (params : Json) (approvalHash : String) :
    (DaemonClient.call (.execute actionName params approvalHash) refused answered).runIn
        w.answers log =
      (((w.execute (previewsIn log - 1)).outcome (.execute actionName params approvalHash)
          refused answered).1,
        log ++ ((w.execute (previewsIn log - 1)).outcome
          (.execute actionName params approvalHash) refused answered).2) := by
  apply call_runIn
  · rfl
  · intro answer
    simp [ClientWorld.answers, previewOpen, previewsIn, ClientOp.isPreview]

/-- The four ways a call can run. -/
theorem Conversation.outcome_cases (c : Conversation) (request : ClientRequest) :
    (c.sent = none ∧ c.outcome request refused answered = (none, [])) ∨
    (∃ e, c.sent = some (.error e) ∧
      c.outcome request refused answered = (some (refused e), [⟨.request request, .error e⟩])) ∨
    (c.sent = some (.ok ()) ∧ c.replies = none ∧
      c.outcome request refused answered = (none, [⟨.request request, .ok ()⟩])) ∨
    ∃ replies, c.sent = some (.ok ()) ∧ c.replies = some replies ∧
      c.outcome request refused answered =
        (some (answered replies), [⟨.request request, .ok ()⟩, ⟨.replies, replies⟩]) := by
  unfold Conversation.outcome
  cases hsent : c.sent with
  | none => exact Or.inl ⟨rfl, rfl⟩
  | some answer =>
    cases answer with
    | error e => exact Or.inr (Or.inl ⟨e, rfl, rfl⟩)
    | ok u =>
      cases hreplies : c.replies with
      | none => exact Or.inr (Or.inr (Or.inl ⟨rfl, rfl, rfl⟩))
      | some replies => exact Or.inr (Or.inr (Or.inr ⟨replies, rfl, rfl, rfl⟩))

end RunIn

end Sysknife
