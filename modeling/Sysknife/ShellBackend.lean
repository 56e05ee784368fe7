import Sysknife.Client
import Sysknife.ShellState

/-!
# The desktop shell's backend

`approve_preview` of `commands.rs` with `execute_action` of `daemon_client.rs`:
the steps of a plan, one connection each, and the events that the frontend is sent.
-/

namespace Sysknife

/-- `PlanStepRequest`. -/
structure PlanStepRequest where
  actionName : String
  params : Json

/-- `requestApproval` sends the steps without what the person was shown. -/
def PlanResponse.requests (plan : PlanResponse) : List PlanStepRequest :=
  plan.steps.map fun step => ⟨step.actionName, step.params⟩

/-! ## One step -/

/-- A wait for the daemon that came to nothing. -/
inductive WaitError where
  | timedOut
  | failed (e : String)

/-- How the daemon and the socket behave towards one step. -/
structure StepWorld where
  connect : Except WaitError Unit
  previewSent : Except String Unit
  previewReply : Except WaitError Frame
  executeSent : Except String Unit
  replies : List Frame
  /-- Why there is no further reply. -/
  lost : WaitError

/-- What a call of `execute_action` has done: the timeline entries, whether the
execute request went out, and what is returned. -/
structure StepRun where
  timeline : List String
  sent : Bool
  result : Except String (String × List String)

def executeTimeoutMessage : String :=
  "daemon execute timed out after 600s; the job may still be running on the daemon side"

/-- The loop over the replies to an execute request. -/
def streamReplies (actionName : String) (lost : WaitError) (timeline lines : List String) :
    List Frame → StepRun
  | [] => ⟨timeline, true, .error (match lost with
      | .timedOut => executeTimeoutMessage
      | .failed e => "failed to read execute response: " ++ e)⟩
  | .error e :: _ => ⟨timeline, true, .error ("invalid JSON in execute response: " ++ e)⟩
  | .ok msg :: rest =>
    match (msg.index "type").asStr with
    | some "job_started" =>
      streamReplies actionName lost (timeline ++ ["Executing " ++ actionName ++ "…"]) lines rest
    | some "job_progress" =>
      match (msg.index "line").asStr with
      | some line =>
        if line.isEmpty then streamReplies actionName lost timeline lines rest
        else streamReplies actionName lost (timeline ++ [line]) (lines ++ [line]) rest
      | none => streamReplies actionName lost timeline lines rest
    | some "job_completed" =>
      let status := (((msg.index "result").index "status").asStr).getD "failed"
      match ((msg.index "result").index "summary").asStr with
      | some summary =>
        if summary.isEmpty then ⟨timeline, true, .ok (status, lines)⟩
        else ⟨timeline ++ [summary], true, .ok (status, lines ++ [summary])⟩
      | none => ⟨timeline, true, .ok (status, lines)⟩
    | some "error_response" => ⟨timeline, true, .error ("daemon error during execute (" ++
        ((msg.index "category").asStr).getD "unknown" ++ "): " ++
        ((msg.index "message").asStr).getD "no message")⟩
    | other => ⟨timeline, true, .error
        ("unexpected response type during execute: " ++ other.getD "<missing>")⟩

/-- The request hash in the reply to a preview. -/
def previewHash (actionName : String) (resp : Json) : Except String String :=
  match (resp.index "type").asStr with
  | some "preview_response" =>
    match ((resp.index "preview").index "request_hash").asStr with
    | some hash => .ok hash
    | none => .error "preview_response missing request_hash field"
  | some "error_response" => .error ("daemon rejected preview for '" ++ actionName ++ "' (" ++
      ((resp.index "category").asStr).getD "unknown" ++ "): " ++
      ((resp.index "message").asStr).getD "no message")
  | other => .error ("unexpected response type to preview: " ++ other.getD "<missing>")

def executeAction (socketPath actionName : String) (w : StepWorld) : StepRun :=
  match w.connect with
  | .error .timedOut => ⟨[], false, .error "connection to daemon timed out"⟩
  | .error (.failed e) =>
    ⟨[], false, .error ("cannot connect to daemon at " ++ socketPath ++ ": " ++ e)⟩
  | .ok () =>
  match w.previewSent with
  | .error e => ⟨[], false, .error ("failed to send preview request: " ++ e)⟩
  | .ok () =>
  match w.previewReply with
  | .error .timedOut => ⟨[], false, .error "timed out waiting for preview response"⟩
  | .error (.failed e) => ⟨[], false, .error ("failed to read preview response: " ++ e)⟩
  | .ok (.error e) => ⟨[], false, .error ("invalid JSON in preview response: " ++ e)⟩
  | .ok (.ok resp) =>
  match previewHash actionName resp with
  | .error e => ⟨[], false, .error e⟩
  | .ok _ =>
  match w.executeSent with
  | .error e => ⟨["Preview ready for " ++ actionName], false,
      .error ("failed to send execute request: " ++ e)⟩
  | .ok () => streamReplies actionName w.lost ["Preview ready for " ++ actionName] [] w.replies

/-- The daemon was sent the step and reported it succeeded. -/
def StepRun.succeeded (run : StepRun) : Prop :=
  run.sent = true ∧ ∃ lines, run.result = .ok ("succeeded", lines)

theorem streamReplies_sent (actionName : String) (lost : WaitError) (timeline lines : List String)
    (replies : List Frame) :
    (streamReplies actionName lost timeline lines replies).sent = true := by
  induction replies generalizing timeline lines with
  | nil => rfl
  | cons frame rest ih =>
    cases frame with
    | error e => rfl
    | ok msg =>
      rw [streamReplies]
      split
      · exact ih ..
      · split
        · split
          · exact ih ..
          · exact ih ..
        · exact ih ..
      · dsimp only
        split
        · split <;> rfl
        · rfl
      · rfl
      · rfl

/-- A result is only returned for a step that was sent. -/
theorem executeAction_sent {socketPath actionName : String} {w : StepWorld}
    {result : String × List String}
    (h : (executeAction socketPath actionName w).result = .ok result) :
    (executeAction socketPath actionName w).sent = true := by
  unfold executeAction at h ⊢
  split at h <;> try cases h
  split at h <;> try cases h
  split at h <;> try cases h
  split at h <;> try cases h
  split at h <;> try cases h
  exact streamReplies_sent ..

/-! ## A plan -/

/-- What `approve_preview` has done when its loop is left. -/
structure PlanExecution where
  /-- The steps that `execute_action` was called for. -/
  runs : List (PlanStepRequest × StepRun)
  finalStatus : String
  stepOutputs : List StepOutput

/-- The loop; `world` is the daemon's behaviour towards the steps that remain. -/
def approveSteps (socketPath : String) (world : Nat → StepWorld) (done : PlanExecution) :
    List PlanStepRequest → PlanExecution
  | [] => done
  | step :: rest =>
    let run := executeAction socketPath step.actionName (world done.runs.length)
    let runs := done.runs ++ [(step, run)]
    match run.result with
    | .ok (status, lines) =>
      let done' : PlanExecution :=
        ⟨runs, status, done.stepOutputs ++ [⟨step.actionName, status, lines⟩]⟩
      if status ≠ "succeeded" then done' else approveSteps socketPath world done' rest
    | .error e => ⟨runs, "failed", done.stepOutputs ++ [⟨step.actionName, "failed", [e]⟩]⟩

def approveExecution (socketPath : String) (world : Nat → StepWorld)
    (steps : List PlanStepRequest) : PlanExecution :=
  approveSteps socketPath world ⟨[], "succeeded", []⟩ steps

/-- `DaemonJobOutcome`, as the frontend reads it. -/
def outcomeOf (finalStatus : String) : ShellOutcome :=
  if finalStatus = "succeeded" then .succeeded
  else if finalStatus = "needs_reboot" then .needsReboot
  else if finalStatus = "rolled_back" then .rolledBack
  else .failed

inductive EventPayload where
  | text (text : String)
  | result (executionResult : ExecutionResult)
  | outcome (outcome : ShellOutcome)
  | status (status : String)

/-- An event of the application: its name and what it carries. -/
structure BackendEvent where
  name : String
  payload : EventPayload

/-- The events of `approve_preview`, in order. -/
def approveEvents (execution : PlanExecution) : List BackendEvent :=
  (execution.runs.flatMap fun run => run.2.timeline.map fun text =>
    ⟨"sysknife:timeline-entry", .text text⟩) ++
  [⟨"sysknife:execution-result", .result ⟨execution.finalStatus, execution.stepOutputs⟩⟩,
   ⟨"sysknife:job-completed", .outcome (outcomeOf execution.finalStatus)⟩]

/-- The event of `spawn_daemon_health_poller`. -/
def healthEvent (connected : Bool) : BackendEvent :=
  ⟨"sysknife:daemon-status", .status (if connected then "connected" else "reconnecting")⟩

/-- The steps that were run are the first ones of the plan, all but the last
succeeded, and the last one too if the status at the end is a success. -/
structure StopsAtFailure (steps : List PlanStepRequest) (execution : PlanExecution) : Prop where
  inOrder : execution.runs.map Prod.fst <+: steps
  before : ∀ run ∈ execution.runs.dropLast, run.2.succeeded
  complete : execution.finalStatus = "succeeded" →
    execution.runs.map Prod.fst = steps ∧ ∀ run ∈ execution.runs, run.2.succeeded

theorem approveSteps_stops (socketPath : String) (world : Nat → StepWorld)
    (rest : List PlanStepRequest) :
    ∀ (done : PlanExecution), (∀ run ∈ done.runs, run.2.succeeded) →
      done.finalStatus = "succeeded" →
      StopsAtFailure (done.runs.map Prod.fst ++ rest)
        (approveSteps socketPath world done rest) := by
  induction rest with
  | nil =>
    intro done hdone hstatus
    rw [List.append_nil, approveSteps]
    exact ⟨List.prefix_rfl, fun run hrun => hdone run (List.mem_of_mem_dropLast hrun),
      fun _ => ⟨rfl, hdone⟩⟩
  | cons step rest ih =>
    intro done hdone hstatus
    rw [approveSteps]
    generalize hrun : executeAction socketPath step.actionName (world done.runs.length) = run
    -- the loop is left at this step
    have hstop : ∀ (status : String) (outputs : List StepOutput), status ≠ "succeeded" →
        StopsAtFailure (done.runs.map Prod.fst ++ step :: rest)
          ⟨done.runs ++ [(step, run)], status, outputs⟩ := by
      intro status outputs hne
      refine ⟨⟨rest, by simp⟩, ?_, fun h => absurd h hne⟩
      rw [List.dropLast_concat]
      exact hdone
    dsimp only
    cases hresult : run.result with
    | error e => exact hstop "failed" _ (by decide)
    | ok result =>
      obtain ⟨status, lines⟩ := result
      dsimp only
      split
      next hne => exact hstop status _ hne
      next hok =>
        obtain rfl := not_not.mp hok
        have hsent : run.sent = true := by
          rw [← hrun] at hresult ⊢
          exact executeAction_sent hresult
        have hnext := ih ⟨done.runs ++ [(step, run)], "succeeded",
          done.stepOutputs ++ [⟨step.actionName, "succeeded", lines⟩]⟩ ?_ rfl
        · rw [List.map_append, List.append_assoc] at hnext
          exact hnext
        · intro r hr
          rcases List.mem_append.mp hr with hr | hr
          · exact hdone r hr
          · obtain rfl := List.mem_singleton.mp hr
            exact ⟨hsent, lines, hresult⟩

/-- No step is executed behind one that did not succeed, and the status at the end
is a success only if every step was sent, in order, and succeeded. -/
theorem approveExecution_stops (socketPath : String) (world : Nat → StepWorld)
    (steps : List PlanStepRequest) :
    StopsAtFailure steps (approveExecution socketPath world steps) :=
  approveSteps_stops socketPath world steps ⟨[], "succeeded", []⟩ (by simp) rfl

end Sysknife
