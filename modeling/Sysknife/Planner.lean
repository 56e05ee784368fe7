import Sysknife.Lib.Interaction
import Sysknife.Prompt
import Sysknife.ProposePlan
import Sysknife.Provider
import Sysknife.QueryTools
import Sysknife.Sanitize

/-!
# The planning loop

`LlmPlanner::plan_intent` as a program over the calls that leave it: the limiter, the
preferences file, the progress channel, the provider, the state client and the audit
log. Lines on standard error are left out.
-/

namespace Sysknife

open Interaction

/-- What the planner uses of its libraries: `str::to_lowercase`, NFC normalisation,
`serde_json::from_str` with the text of its error, and the text of a string under
`{:?}`. -/
structure PlannerLib where
  lowercase : String → String
  nfc : List Char → List Char
  parseJson : String → Except String Json
  debugStr : String → String

/-- `LlmPlanner`; a file or a limiter is there or not. -/
structure LlmPlanner where
  maxTurns : Nat
  auditLog : Bool
  prefsPath : Bool
  rateLimiter : Bool
  distroHint : Option DistroHint
  maxTurns_pos : 1 ≤ maxTurns

inductive PlanEvent where
  | thinking
  | queryingTool (name : String)
  | proposingPlan
  deriving DecidableEq

structure CuratedState where
  hostName : String
  deployment : String
  services : List String
  flatpaks : List String
  toolboxes : List String
  layeredPackages : List String
  containers : List String
  users : List String

def CuratedState.json (state : CuratedState) : Json :=
  let texts (items : List String) : Json := .array (items.map Json.string)
  .object [("host_name", .string state.hostName), ("deployment", .string state.deployment),
    ("services", texts state.services), ("flatpaks", texts state.flatpaks),
    ("toolboxes", texts state.toolboxes), ("layered_packages", texts state.layeredPackages),
    ("containers", texts state.containers), ("users", texts state.users)]

/-! ## Calls that leave the planner -/

inductive PlannerOp where
  | checkAndConsume
  | readPrefs
  | emit (event : PlanEvent)
  /-- With the planner's tools and `PLANNING_MAX_TOKENS`. -/
  | complete (system : List Char) (messages : List Message)
  | curatedState
  | currentUser
  | queryAction (actionName : String) (params : Json)
  | appendPref (fact : String)
  | removePref (fact : String)
  | logRejection (intent reason rawPlan : String)

/-- Errors of files are given by their text. -/
def PlannerOp.Resp : PlannerOp → Type
  | .checkAndConsume => Except Nat Unit
  | .readPrefs => Except String (Option (List Char))
  | .emit _ => Unit
  | .complete .. => Except ProviderError Completion
  | .curatedState => Except PlanningError CuratedState
  | .currentUser => Except PlanningError String
  | .queryAction .. => Except PlanningError String
  | .appendPref _ => Except String Unit
  | .removePref _ => Except String Bool
  | .logRejection .. => Unit

abbrev PlannerM := Prog PlannerOp PlannerOp.Resp

abbrev ask (op : PlannerOp) : PlannerM op.Resp := Prog.perform op

abbrev PlannerCall := Event PlannerOp PlannerOp.Resp

/-- How `plan_intent` ends; `none` is a panic. -/
abbrev PlanOutcome := Option (Except PlanningError Plan)

/-- A result for the model, or the end of the run. -/
abbrev CallOutcome := Except PlanOutcome ToolResultBlock

/-! ## Tools -/

inductive PlannerTool where
  | getSystemState | proposePlan | remember | forget | queryCurrentUser | other
  deriving DecidableEq

def PlannerTool.ofName : String → PlannerTool
  | "get_system_state" => .getSystemState
  | "propose_plan" => .proposePlan
  | "remember" => .remember
  | "forget" => .forget
  | "query_current_user" => .queryCurrentUser
  | _ => .other

def ToolCall.tool (call : ToolCall) : PlannerTool := .ofName call.name

/-- The progress event of a tool. -/
def progressEvent (name : String) : PlanEvent :=
  match name with
  | "propose_plan" => .proposingPlan
  | "get_system_state" => .queryingTool "system state"
  | other => .queryingTool (String.ofList (other.toList.map fun c => if c = '_' then ' ' else c))

def ToolCall.fact (call : ToolCall) : String := ((call.input.get "fact").bind Json.asStr).getD ""

def emptyFactText : String := "Error: 'fact' parameter must not be empty."

def sensitiveFactText : String :=
  "Error: preference rejected — it appears to contain sensitive data (passwords, tokens, " ++
    "keys). Preferences must not store secrets."

def noStorageText : String := "Error: preference storage is not configured."

section Planner
variable (lib : PlannerLib) (planner : LlmPlanner)

/-- A result in the planner's own words. -/
def ToolCall.reply (call : ToolCall) (content : String) (isError : Bool) : CallOutcome :=
  .ok ⟨call.id, call.callId, content, isError⟩

/-- A result with text from outside. -/
def ToolCall.sanitized (call : ToolCall) (toolName : String) (raw : List Char) (isError : Bool) :
    CallOutcome :=
  match sanitizeToolOutput lib.nfc toolName raw with
  | some content => call.reply (String.ofList content) isError
  | none => .error none

def getSystemState (call : ToolCall) : PlannerM CallOutcome := do
  match ← ask .curatedState with
  | .error e => pure (.error (some (.error e)))
  | .ok state => pure (call.sanitized lib "get_system_state" (compact state.json) false)

/-- The answer to a plan that does not pass. -/
def rejection (call : ToolCall) (e : PlanningError) : CallOutcome :=
  call.reply ("Plan rejected: " ++ e.text ++ ". Correct the plan and call propose_plan again.") true

def proposePlan (intent : String) (call : ToolCall) : PlannerM CallOutcome :=
  match parseProposedPlan lib.parseJson lib.debugStr intent call.input with
  | .ok plan => pure (.error (some (.ok plan)))
  | .error e =>
    if planner.auditLog then do
      let _ ← ask (.logRejection intent e.text (String.ofList (compact call.input)))
      pure (rejection call e)
    else pure (rejection call e)

def remember (call : ToolCall) : PlannerM CallOutcome :=
  if call.fact = "" then pure (call.reply emptyFactText true)
  else if containsSensitive lib.lowercase call.fact then pure (call.reply sensitiveFactText true)
  else if planner.prefsPath then do
    match ← ask (.appendPref call.fact) with
    | .ok () => pure (call.reply ("Preference saved: " ++ call.fact) false)
    | .error e => pure (call.reply ("Error saving preference: " ++ e) true)
  else pure (call.reply noStorageText true)

def forget (call : ToolCall) : PlannerM CallOutcome :=
  if call.fact = "" then pure (call.reply emptyFactText true)
  else if planner.prefsPath then do
    match ← ask (.removePref call.fact) with
    | .ok true => pure (call.reply ("Preference removed: " ++ call.fact) false)
    | .ok false => pure (call.reply ("Preference not found: " ++ call.fact) false)
    | .error e => pure (call.reply ("Error removing preference: " ++ e) true)
  else pure (call.reply noStorageText true)

def queryCurrentUser (call : ToolCall) : PlannerM CallOutcome := do
  match ← ask .currentUser with
  | .ok user => pure (call.sanitized lib "query_current_user"
      ("Current user: ".toList ++ user.toList) false)
  | .error e => pure (call.sanitized lib "query_current_user"
      ("Error: cannot determine current user: ".toList ++ e.text.toList) true)

def queryTool (call : ToolCall) : PlannerM CallOutcome :=
  match queryToolToAction call.name call.input with
  | .ok (some (actionName, params)) => do
    match ← ask (.queryAction actionName params) with
    | .ok output => pure (call.sanitized lib call.name output.toList false)
    | .error e =>
      pure (call.sanitized lib call.name ("Query failed: ".toList ++ e.text.toList) true)
  | .error message => pure (call.reply message true)
  | .ok none => pure (call.reply ("unknown tool: " ++ call.name) true)

/-- The branches of the dispatch on the name. -/
def dispatch (intent : String) (call : ToolCall) : PlannerM CallOutcome :=
  match call.tool with
  | .getSystemState => getSystemState lib call
  | .proposePlan => proposePlan lib planner intent call
  | .remember => remember lib planner call
  | .forget => forget planner call
  | .queryCurrentUser => queryCurrentUser lib call
  | .other => queryTool lib call

def performCall (intent : String) (call : ToolCall) : PlannerM CallOutcome := do
  ask (.emit (progressEvent call.name))
  dispatch lib planner intent call

/-- The calls of one response, until one of them ends the run. -/
def performCalls (intent : String) :
    List ToolCall → PlannerM (Except PlanOutcome (List ToolResultBlock))
  | [] => pure (.ok [])
  | call :: calls => do
    match ← performCall lib planner intent call with
    | .error outcome => pure (.error outcome)
    | .ok result =>
      match ← performCalls intent calls with
      | .error outcome => pure (.error outcome)
      | .ok results => pure (.ok (result :: results))

/-! ## The loop -/

def correction : String :=
  "You must call the `propose_plan` tool. Do not output JSON or text directly — " ++
    "your response must be a tool call to `propose_plan`."

def Completion.calls (completion : Completion) : List ToolCall :=
  completion.content.filterMap ContentBlock.toolCall

def Completion.message (completion : Completion) : Message := ⟨.assistant, completion.content⟩

/-- A response of the model and the planner's answer to it. -/
structure PlanRound where
  completion : Completion
  reply : Message

def PlanRound.messages (round : PlanRound) : List Message :=
  [round.completion.message, round.reply]

/-- The body of the loop: the end of the run, or a round after which it goes on; `more`
says that another turn is left. -/
def planTurn (intent : String) (system : List Char) (more : Bool) (messages : List Message) :
    PlannerM (Except PlanOutcome PlanRound) := do
  ask (.emit .thinking)
  match ← ask (.complete system messages) with
  | .error e => pure (.error (some (.error (.provider e.text))))
  | .ok completion =>
    match completion.stopReason with
    | .maxTokens => pure (.error (some (.error .noPlanProposed)))
    | .endTurn =>
      if completion.content.any ContentBlock.isText && more then
        pure (.ok ⟨completion, .userText correction⟩)
      else pure (.error (some (.error .noPlanProposed)))
    | .toolUse =>
      if completion.calls.isEmpty then pure (.error (some (.error .noPlanProposed)))
      else do
        match ← performCalls lib planner intent completion.calls with
        | .error outcome => pure (.error outcome)
        | .ok results => pure (.ok ⟨completion, .toolResults results⟩)

/-- `turns` turns of the loop. -/
def planTurns (intent : String) (system : List Char) : Nat → List Message → PlannerM PlanOutcome
  | 0, _ => pure (some (.error .plannerStuck))
  | turns + 1, messages => do
    match ← planTurn lib planner intent system (0 < turns) messages with
    | .error outcome => pure outcome
    | .ok round => planTurns intent system turns (messages ++ round.messages)

def intentMaxBytes : Nat := 2048

def promptPrefs : PlannerM (Option (List Char)) :=
  if planner.prefsPath then do
    match ← ask .readPrefs with
    | .ok content => pure content
    | .error _ => pure none
  else pure none

/-- `plan_intent` behind the checks of the intent. -/
def planAdmitted (intent : String) : PlannerM PlanOutcome := do
  let prefs ← promptPrefs planner
  planTurns lib planner intent (buildSystemPrompt prefs planner.distroHint) planner.maxTurns
    [.userText intent]

def trimmed (intent : String) : String := String.ofList (trim intent.toList)

def planIntent (intent : String) : PlannerM PlanOutcome :=
  let intent := trimmed intent
  if intent = "" then pure (some (.error .emptyIntent))
  else if intentMaxBytes < intent.utf8ByteSize then
    pure (some (.error (.intentTooLong intent.utf8ByteSize intentMaxBytes)))
  else if containsSensitive lib.lowercase intent then
    pure (some (.error .intentContainsSensitiveData))
  else if planner.rateLimiter then do
    match ← ask .checkAndConsume with
    | .error retryAfterSecs => pure (some (.error (.rateLimitExceeded retryAfterSecs)))
    | .ok () => planAdmitted lib planner intent
  else planAdmitted lib planner intent

end Planner

end Sysknife
