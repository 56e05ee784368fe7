import Sysknife.PlannerCalls

/-!
# Runs of the planner

What the calls of one response do, what one turn does, and from these what a run has
done when it returns (`Rounds`, `TurnDone`) or is about to send a request.
-/

namespace Sysknife

open Interaction

def emitted (call : ToolCall) : PlannerCall := ⟨.emit (progressEvent call.name), ()⟩

/-- The calls that leave the planner for a tool call, the progress event first. -/
def callOps (lib : PlannerLib) (planner : LlmPlanner) (intent : String) (call : ToolCall) :
    List PlannerOp :=
  .emit (progressEvent call.name) :: (callOp lib planner intent call).toList

/-- `strip_ansi` returns for the texts of the state client. -/
def ClientSafe (events : List PlannerCall) : Prop :=
  ∀ event ∈ events, ∀ text, answerText event = some text → (stripAnsi text).isSome = true

/-- The call ends the run. -/
def Stops (lib : PlannerLib) (intent : String) (call : ToolCall) (events : List PlannerCall) :
    Prop :=
  ProposesPlan lib intent call ∨ ∃ event ∈ events, StateFailed event

theorem clientSafe_nil : ClientSafe [] := fun _ hevent => by cases hevent

theorem clientSafe_cons {event : PlannerCall} {events : List PlannerCall} :
    ClientSafe (event :: events) ↔
      (∀ text, answerText event = some text → (stripAnsi text).isSome = true) ∧
        ClientSafe events :=
  List.forall_mem_cons

theorem clientSafe_append {events rest : List PlannerCall} :
    ClientSafe (events ++ rest) ↔ ClientSafe events ∧ ClientSafe rest :=
  List.forall_mem_append

theorem asksClient_of_answerText {event : PlannerCall} {text : List Char}
    (h : answerText event = some text) : AsksClient event.op := by
  unfold answerText at h
  split at h <;> trivial

theorem clientSafe_quiet {events : List PlannerCall}
    (h : ∀ event ∈ events, ¬ AsksClient event.op) : ClientSafe events :=
  fun event hevent _ htext => absurd (asksClient_of_answerText htext) (h event hevent)

section Runs
variable {lib : PlannerLib} {planner : LlmPlanner} {intent : String} {call : ToolCall}
  {events : List PlannerCall}

/-! ## One call -/

theorem performCall_ops {out : CallOutcome}
    (h : Trace (performCall lib planner intent call) events (.ret out)) :
    events.map (·.op) = callOps lib planner intent call := by
  obtain ⟨rest, rfl, hrest⟩ := performCall_done h
  rw [List.map_cons, callOps]
  congr 1
  cases hrest with
  | own ops => exact ops
  | client op => simp [op]
  | accepted name parsed =>
    have htool : call.tool = .proposePlan := PlannerTool.ofName_proposePlan.mpr name
    simp [callOp, htool, parsed]
  | stateFailed name =>
    have htool : call.tool = .getSystemState := PlannerTool.ofName_getSystemState.mpr name
    simp [callOp, htool]

theorem sanitized_ok {toolName : String} {raw : List Char} {isError : Bool}
    {result : ToolResultBlock} (h : call.sanitized lib toolName raw isError = .ok result) :
    (stripAnsi raw).isSome = true ∧ result.toolUseId = call.id ∧ result.callId = call.callId ∧
      Contained result.content.toList := by
  rw [← sanitizeToolOutput_isSome lib.nfc toolName raw]
  rw [ToolCall.sanitized] at h
  cases hout : sanitizeToolOutput lib.nfc toolName raw with
  | none =>
    rw [hout] at h
    cases h
  | some content =>
    rw [hout] at h
    cases h
    refine ⟨rfl, rfl, rfl, ?_⟩
    rw [String.toList_ofList]
    exact sanitizeToolOutput_contained hout

theorem sanitized_error {toolName : String} {raw : List Char} {isError : Bool}
    {outcome : PlanOutcome} (h : call.sanitized lib toolName raw isError = .error outcome) :
    outcome = none ∧ ¬ (stripAnsi raw).isSome = true := by
  rw [← sanitizeToolOutput_isSome lib.nfc toolName raw]
  rw [ToolCall.sanitized] at h
  cases hout : sanitizeToolOutput lib.nfc toolName raw with
  | none =>
    rw [hout] at h
    cases h
    exact ⟨rfl, Bool.false_ne_true⟩
  | some content =>
    rw [hout] at h
    cases h

theorem performCall_result {result : ToolResultBlock}
    (h : Trace (performCall lib planner intent call) events (.ret (.ok result))) :
    (result.toolUseId = call.id ∧ result.callId = call.callId) ∧
      ((∃ event ∈ events, AsksClient event.op) → Contained result.content.toList) := by
  obtain ⟨rest, rfl, hrest⟩ := performCall_done h
  generalize hout : (Except.ok result : CallOutcome) = out at hrest
  cases hrest with
  | own ops quiet rejected =>
    cases hout
    refine ⟨⟨rfl, rfl⟩, ?_⟩
    rintro ⟨event, hevent, hasks⟩
    rcases List.mem_cons.mp hevent with rfl | hevent
    · exact hasks.elim
    · exact absurd hasks (quiet event hevent)
  | client op asks given safe =>
    obtain ⟨-, hid, hcallId, hcontained⟩ := sanitized_ok hout.symm
    exact ⟨⟨hid, hcallId⟩, fun _ => hcontained⟩
  | accepted | stateFailed => cases hout

theorem clientSafe_emitted : ClientSafe (emitted call :: events) ↔ ClientSafe events := by
  rw [clientSafe_cons]
  refine and_iff_right ?_
  intro text htext
  cases htext

theorem clientSafe_singleton {event : PlannerCall} :
    ClientSafe [event] ↔
      ∀ text, answerText event = some text → (stripAnsi text).isSome = true := by
  rw [clientSafe_cons]
  exact and_iff_left clientSafe_nil

/-- Only its own events end the run. -/
theorem stops_emitted :
    Stops lib intent call (emitted call :: events) ↔ Stops lib intent call events := by
  refine or_congr_right ?_
  constructor
  · rintro ⟨event, hevent, hfailed⟩
    rcases List.mem_cons.mp hevent with rfl | hevent
    · obtain ⟨e, heq⟩ := hfailed
      cases heq
    · exact ⟨event, hevent, hfailed⟩
  · rintro ⟨event, hevent, hfailed⟩
    exact ⟨event, List.mem_cons_of_mem _ hevent, hfailed⟩

/-- A call with a result does not end the run. -/
theorem performCall_goesOn {result : ToolResultBlock}
    (h : Trace (performCall lib planner intent call) events (.ret (.ok result))) :
    ¬ Stops lib intent call events ∧ ClientSafe events := by
  obtain ⟨rest, rfl, hrest⟩ := performCall_done h
  change ¬ Stops lib intent call (emitted call :: rest) ∧ ClientSafe (emitted call :: rest)
  rw [stops_emitted, clientSafe_emitted]
  generalize hout : (Except.ok result : CallOutcome) = out at hrest
  cases hrest with
  | own ops quiet rejected =>
    refine ⟨?_, clientSafe_quiet quiet⟩
    rintro (hplan | ⟨event, hevent, e, rfl⟩)
    · exact rejected hplan
    · exact quiet _ hevent trivial
  | client op asks given safe =>
    refine ⟨?_, clientSafe_singleton.mpr (safe.mp (sanitized_ok hout.symm).1)⟩
    rintro (⟨hname, plan, hplan⟩ | ⟨event, hevent, hfailed⟩)
    · have htool : call.tool = .proposePlan := PlannerTool.ofName_proposePlan.mpr hname
      rw [callOp, htool, hplan] at op
      cases op
    · rw [List.mem_singleton.mp hevent] at hfailed
      exact given hfailed
  | accepted | stateFailed => cases hout

/-- How a call ends the run. -/
inductive Ending (lib : PlannerLib) (intent : String) (call : ToolCall)
    (events : List PlannerCall) : PlanOutcome → Prop where
  | plan {plan : Plan} (name : call.name = "propose_plan")
      (parsed : parseProposedPlan lib.parseJson lib.debugStr intent call.input = .ok plan)
      (given : ∀ event ∈ events, ¬ StateFailed event) (safe : ClientSafe events) :
      Ending lib intent call events (some (.ok plan))
  | stateFailed {e : PlanningError} (failed : ∃ event ∈ events, StateFailed event)
      (safe : ClientSafe events) : Ending lib intent call events (some (.error e))
  | panicked (unsafe_text : ¬ ClientSafe events)  : Ending lib intent call events none

theorem performCall_ending {outcome : PlanOutcome}
    (h : Trace (performCall lib planner intent call) events (.ret (.error outcome))) :
    Ending lib intent call events outcome := by
  obtain ⟨rest, rfl, hrest⟩ := performCall_done h
  generalize hout : (Except.error outcome : CallOutcome) = out at hrest
  cases hrest with
  | own => cases hout
  | client op asks given safe =>
    obtain ⟨rfl, hpanic⟩ := sanitized_error hout.symm
    refine .panicked fun hsafe => hpanic (safe.mpr ?_)
    exact clientSafe_singleton.mp (clientSafe_emitted.mp hsafe)
  | accepted name parsed =>
    cases hout
    refine .plan name parsed ?_ (clientSafe_emitted.mpr clientSafe_nil)
    rintro event hevent ⟨e, rfl⟩
    cases List.mem_singleton.mp hevent
  | stateFailed name =>
    cases hout
    refine .stateFailed ⟨_, List.mem_cons_of_mem _ List.mem_cons_self, _, rfl⟩ ?_
    refine clientSafe_emitted.mpr (clientSafe_singleton.mpr ?_)
    intro text htext
    cases htext

/-! ## The calls of a response -/

/-- The calls in order: each has a result until one ends the run. -/
inductive Batch (lib : PlannerLib) (planner : LlmPlanner) (intent : String) :
    List ToolCall → List PlannerCall → Except PlanOutcome (List ToolResultBlock) → Prop where
  | nil : Batch lib planner intent [] [] (.ok [])
  | stop {call : ToolCall} {calls : List ToolCall} {events : List PlannerCall}
      {outcome : PlanOutcome}
      (ended : Trace (performCall lib planner intent call) events (.ret (.error outcome))) :
      Batch lib planner intent (call :: calls) events (.error outcome)
  | next {call : ToolCall} {calls : List ToolCall} {events rest : List PlannerCall}
      {result : ToolResultBlock} {out : Except PlanOutcome (List ToolResultBlock)}
      (answered : Trace (performCall lib planner intent call) events (.ret (.ok result)))
      (following : Batch lib planner intent calls rest out) :
      Batch lib planner intent (call :: calls) (events ++ rest) (out.map (result :: ·))

theorem performCalls_batch {calls : List ToolCall}
    {out : Except PlanOutcome (List ToolResultBlock)}
    (h : Trace (performCalls lib planner intent calls) events (.ret out)) :
    Batch lib planner intent calls events out := by
  induction calls generalizing events out with
  | nil =>
    obtain ⟨rfl, hout⟩ := trace_ret h
    cases hout
    exact .nil
  | cons call calls ih =>
    obtain ⟨first, pre, post, rfl, hfirst, hrest⟩ := trace_bind_ret h
    cases first with
    | error outcome =>
      obtain ⟨rfl, hout⟩ := trace_ret hrest
      cases hout
      rw [List.append_nil]
      exact .stop hfirst
    | ok result =>
      obtain ⟨others, post, tail, rfl, hothers, hend⟩ := trace_bind_ret hrest
      have hnext := Batch.next hfirst (ih hothers)
      cases others <;> obtain ⟨rfl, hout⟩ := trace_ret hend <;> cases hout <;>
        rw [List.append_nil] <;> exact hnext

/-- What a tool call may let leave the planner. -/
def isToolOp : PlannerOp → Bool
  | .emit .thinking | .checkAndConsume | .readPrefs | .complete .. => false
  | _ => true

theorem callOps_toolOp {op : PlannerOp} (h : op ∈ callOps lib planner intent call) :
    isToolOp op = true := by
  rcases List.mem_cons.mp h with rfl | h
  · unfold progressEvent
    split <;> rfl
  · rw [Option.mem_toList, callOp] at h
    repeat' split at h
    all_goals cases h <;> rfl

theorem performCall_toolOp {out : CallOutcome}
    (h : Trace (performCall lib planner intent call) events (.ret out)) :
    ∀ event ∈ events, isToolOp event.op = true := by
  intro event hevent
  have hmem : event.op ∈ callOps lib planner intent call := by
    rw [← performCall_ops h]
    exact List.mem_map_of_mem hevent
  exact callOps_toolOp hmem

theorem Batch.toolOp {calls : List ToolCall} {out : Except PlanOutcome (List ToolResultBlock)}
    (h : Batch lib planner intent calls events out) :
    ∀ event ∈ events, isToolOp event.op = true := by
  induction h with
  | nil => exact fun _ hevent => by cases hevent
  | stop ended => exact performCall_toolOp ended
  | next answered _ ih => exact List.forall_mem_append.mpr ⟨performCall_toolOp answered, ih⟩

/-! ## Requests -/

def isRequest : PlannerOp → Bool
  | .complete .. => true
  | _ => false

/-- Programs that send no request. -/
def noRequest : Monitor Unit PlannerOp PlannerOp.Resp where
  guard _ op := ¬ isRequest op = true
  next _ _ _ := ()

abbrev NoRequest {α : Type} (p : PlannerM α) : Prop := noRequest.Safe (fun _ _ => True) () p

theorem noRequest_ask {α : Type} {op : PlannerOp} {k : op.Resp → PlannerM α}
    (hop : ¬ isRequest op = true) (hk : ∀ r, NoRequest (k r)) : NoRequest (ask op >>= k) :=
  ⟨hop, hk⟩

theorem dispatch_noRequest (call : ToolCall) : NoRequest (dispatch lib planner intent call) := by
  have hret : ∀ out : CallOutcome, NoRequest (pure out : PlannerM CallOutcome) := fun _ => trivial
  rw [dispatch]
  split
  · exact noRequest_ask Bool.false_ne_true fun r => by cases r <;> exact hret _
  · rw [proposePlan]
    split
    · exact hret _
    · split
      · exact noRequest_ask Bool.false_ne_true fun _ => hret _
      · exact hret _
  · rw [remember]
    split_ifs
    · exact hret _
    · exact hret _
    · exact noRequest_ask Bool.false_ne_true fun r => by cases r <;> exact hret _
    · exact hret _
  · rw [forget]
    split_ifs
    · exact hret _
    · exact noRequest_ask Bool.false_ne_true fun r => by rcases r with _ | _ | _ <;> exact hret _
    · exact hret _
  · exact noRequest_ask Bool.false_ne_true fun r => by cases r <;> exact hret _
  · rw [queryTool]
    split
    · exact noRequest_ask Bool.false_ne_true fun r => by cases r <;> exact hret _
    · exact hret _
    · exact hret _

theorem performCalls_noRequest (calls : List ToolCall) :
    NoRequest (performCalls lib planner intent calls) := by
  induction calls with
  | nil => trivial
  | cons call calls ih =>
    have hcall : NoRequest (performCall lib planner intent call) :=
      noRequest_ask Bool.false_ne_true fun _ => dispatch_noRequest call
    refine hcall.bind fun _ first _ => ?_
    cases first with
    | error outcome => trivial
    | ok result =>
      refine ih.bind fun _ others _ => ?_
      cases others <;> trivial

/-- Only a request waits for an answer of the provider. -/
theorem NoRequest.not_waiting {α : Type} {p : PlannerM α} (hp : NoRequest p) {op : PlannerOp}
    {k : op.Resp → PlannerM α} (hop : isRequest op = true) : ¬ Trace p events (.op op k) :=
  fun h => (hp.of_trace h).1 hop

/-! ## One turn -/

variable {system : List Char} {more : Bool} {messages : List Message}

/-- The events up to an answer of the provider. -/
def asked (system : List Char) (messages : List Message)
    (answer : Except ProviderError Completion) : List PlannerCall :=
  [⟨.emit .thinking, ()⟩, ⟨.complete system messages, answer⟩]

/-- A round after which the loop goes on, with the events behind its response. -/
inductive GoesOn (lib : PlannerLib) (planner : LlmPlanner) (intent : String) :
    PlanRound → List PlannerCall → Prop where
  | corrected {completion : Completion} (reason : completion.stopReason = .endTurn) :
      GoesOn lib planner intent ⟨completion, .userText correction⟩ []
  | answered {completion : Completion} {events : List PlannerCall}
      {results : List ToolResultBlock} (reason : completion.stopReason = .toolUse)
      (calls : Batch lib planner intent completion.calls events (.ok results)) :
      GoesOn lib planner intent ⟨completion, .toolResults results⟩ events

/-- A turn that ends the run. -/
inductive LastTurn (lib : PlannerLib) (planner : LlmPlanner) (intent : String)
    (system : List Char) (messages : List Message) : List PlannerCall → PlanOutcome → Prop where
  | provider {e : ProviderError} :
      LastTurn lib planner intent system messages (asked system messages (.error e))
        (some (.error (.provider e.text)))
  | noPlan {completion : Completion}
      (idle : completion.stopReason = .toolUse → completion.calls = []) :
      LastTurn lib planner intent system messages (asked system messages (.ok completion))
        (some (.error .noPlanProposed))
  | stopped {completion : Completion} {events : List PlannerCall} {outcome : PlanOutcome}
      (reason : completion.stopReason = .toolUse)
      (calls : Batch lib planner intent completion.calls events (.error outcome)) :
      LastTurn lib planner intent system messages
        (asked system messages (.ok completion) ++ events) outcome

theorem planTurn_done {out : Except PlanOutcome PlanRound}
    (h : Trace (planTurn lib planner intent system more messages) events (.ret out)) :
    (∃ outcome, out = .error outcome ∧
      LastTurn lib planner intent system messages events outcome) ∨
    ∃ round rest, out = .ok round ∧ events = asked system messages (.ok round.completion) ++ rest ∧
      GoesOn lib planner intent round rest := by
  obtain ⟨_, rest, rfl, hasked⟩ := trace_op_ret h
  obtain ⟨answer, rest, rfl, hanswered⟩ := trace_op_ret hasked
  dsimp only [Prog.bind] at hanswered
  cases answer with
  | error e =>
    obtain ⟨rfl, hout⟩ := trace_ret hanswered
    cases hout
    exact Or.inl ⟨_, rfl, .provider⟩
  | ok completion =>
    dsimp only at hanswered
    split at hanswered
    · next hreason =>
      obtain ⟨rfl, hout⟩ := trace_ret hanswered
      cases hout
      exact Or.inl ⟨_, rfl, .noPlan fun htool => by cases hreason.symm.trans htool⟩
    · next hreason =>
      split at hanswered
      · obtain ⟨rfl, hout⟩ := trace_ret hanswered
        cases hout
        exact Or.inr ⟨_, [], rfl, rfl, .corrected hreason⟩
      · obtain ⟨rfl, hout⟩ := trace_ret hanswered
        cases hout
        exact Or.inl ⟨_, rfl, .noPlan fun htool => by cases hreason.symm.trans htool⟩
    · next hreason =>
      split at hanswered
      · next hempty =>
        obtain ⟨rfl, hout⟩ := trace_ret hanswered
        cases hout
        exact Or.inl ⟨_, rfl, .noPlan fun _ => List.isEmpty_iff.mp hempty⟩
      · obtain ⟨result, pre, post, rfl, hcalls, hend⟩ := trace_bind_ret hanswered
        have hbatch := performCalls_batch hcalls
        cases result <;> obtain ⟨rfl, hout⟩ := trace_ret hend <;> cases hout <;>
          rw [List.append_nil]
        · exact Or.inl ⟨_, rfl, .stopped hreason hbatch⟩
        · exact Or.inr ⟨_, _, rfl, rfl, .answered hreason hbatch⟩

theorem planTurn_request {system' : List Char} {messages' : List Message}
    {k : PlannerOp.Resp (.complete system' messages') → PlannerM (Except PlanOutcome PlanRound)}
    (h : Trace (planTurn lib planner intent system more messages) events
      (.op (.complete system' messages') k)) :
    events = [⟨.emit .thinking, ()⟩] ∧ system' = system ∧ messages' = messages := by
  rcases trace_op h with ⟨-, hq⟩ | ⟨_, rest, rfl, hasked⟩
  · cases hq
  · rcases trace_op hasked with ⟨rfl, hq⟩ | ⟨answer, rest, rfl, hanswered⟩
    · cases hq
      exact ⟨rfl, rfl, rfl⟩
    · refine absurd hanswered (NoRequest.not_waiting ?_ rfl)
      dsimp only [Prog.bind]
      cases answer with
      | error e => trivial
      | ok completion =>
        dsimp only
        split
        · trivial
        · split <;> trivial
        · split
          · trivial
          · refine (performCalls_noRequest _).bind fun _ out _ => ?_
            cases out <;> trivial

/-! ## Runs -/

/-- Turns after which the loop goes on. -/
inductive Rounds (lib : PlannerLib) (planner : LlmPlanner) (intent : String)
    (system : List Char) : List Message → List PlanRound → List PlannerCall → Prop where
  | nil {messages : List Message} : Rounds lib planner intent system messages [] []
  | cons {messages : List Message} {round : PlanRound} {rounds : List PlanRound}
      {events rest : List PlannerCall} (turn : GoesOn lib planner intent round events)
      (following : Rounds lib planner intent system (messages ++ round.messages) rounds rest) :
      Rounds lib planner intent system messages (round :: rounds)
        (asked system messages (.ok round.completion) ++ (events ++ rest))

/-- What a run has done when it is about to send a request. -/
theorem planTurns_request {turns : Nat} {system' : List Char} {messages' : List Message}
    {k : PlannerOp.Resp (.complete system' messages') → PlannerM PlanOutcome}
    (h : Trace (planTurns lib planner intent system turns messages) events
      (.op (.complete system' messages') k)) :
    ∃ rounds rest, Rounds lib planner intent system messages rounds rest ∧
      events = rest ++ [⟨.emit .thinking, ()⟩] ∧ system' = system ∧
      messages' = messages ++ rounds.flatMap PlanRound.messages := by
  induction turns generalizing messages events with
  | zero => cases (trace_ret h).2
  | succ turns ih =>
    rw [planTurns] at h
    rcases trace_bind_op h with ⟨k', hturn⟩ | ⟨out, pre, post, rfl, hturn, hrest⟩
    · obtain ⟨rfl, rfl, rfl⟩ := planTurn_request hturn
      exact ⟨[], [], .nil, rfl, rfl, by rw [List.flatMap_nil, List.append_nil]⟩
    · rcases planTurn_done hturn with ⟨outcome, rfl, -⟩ | ⟨round, first, rfl, rfl, hround⟩
      · cases (trace_ret hrest).2
      · obtain ⟨rounds, rest, hrounds, rfl, rfl, rfl⟩ := ih hrest
        refine ⟨round :: rounds, _, .cons hround hrounds, ?_, rfl, ?_⟩
        · simp only [List.append_assoc]
        · rw [List.flatMap_cons, List.append_assoc]

/-- A run that has returned. -/
inductive Finishes (lib : PlannerLib) (planner : LlmPlanner) (intent : String)
    (system : List Char) : Nat → List Message → List PlannerCall → PlanOutcome → Prop where
  | stuck {messages : List Message} :
      Finishes lib planner intent system 0 messages [] (some (.error .plannerStuck))
  | last {turns : Nat} {messages : List Message} {events : List PlannerCall}
      {outcome : PlanOutcome}
      (turn : LastTurn lib planner intent system messages events outcome) :
      Finishes lib planner intent system (turns + 1) messages events outcome
  | next {turns : Nat} {messages : List Message} {round : PlanRound}
      {events rest : List PlannerCall} {outcome : PlanOutcome}
      (turn : GoesOn lib planner intent round events)
      (following : Finishes lib planner intent system turns (messages ++ round.messages) rest
        outcome) :
      Finishes lib planner intent system (turns + 1) messages
        (asked system messages (.ok round.completion) ++ (events ++ rest)) outcome

theorem planTurns_finishes {turns : Nat} {outcome : PlanOutcome}
    (h : Trace (planTurns lib planner intent system turns messages) events (.ret outcome)) :
    Finishes lib planner intent system turns messages events outcome := by
  induction turns generalizing messages events with
  | zero =>
    obtain ⟨rfl, hout⟩ := trace_ret h
    cases hout
    exact .stuck
  | succ turns ih =>
    rw [planTurns] at h
    obtain ⟨out, pre, post, rfl, hturn, hrest⟩ := trace_bind_ret h
    rcases planTurn_done hturn with ⟨outcome, rfl, hlast⟩ | ⟨round, first, rfl, rfl, hround⟩
    · obtain ⟨rfl, hout⟩ := trace_ret hrest
      cases hout
      rw [List.append_nil]
      exact .last hlast
    · rw [List.append_assoc]
      exact .next hround (ih hrest)

/-! ## The way to the loop -/

/-- A call before the loop. -/
def Opening (event : PlannerCall) : Prop :=
  event = ⟨.checkAndConsume, .ok ()⟩ ∨ event.op = .readPrefs

/-- Reasons to refuse a run. -/
inductive Refused (lib : PlannerLib) (intent : String) (events : List PlannerCall) : Prop where
  | empty (h : trimmed intent = "")
  | tooLong (h : intentMaxBytes < (trimmed intent).utf8ByteSize)
  | sensitive (h : containsSensitive lib.lowercase (trimmed intent) = true)
  | limited {retryAfterSecs : Nat}
      (h : (⟨.checkAndConsume, .error retryAfterSecs⟩ : PlannerCall) ∈ events)

theorem promptPrefs_opening {prefs : Option (List Char)}
    (h : Trace (promptPrefs planner) events (.ret prefs)) :
    ∀ event ∈ events, Opening event := by
  rw [promptPrefs] at h
  split at h
  · obtain ⟨answer, rest, rfl, hrest⟩ := trace_op_ret h
    cases answer <;> obtain ⟨rfl, -⟩ := trace_ret hrest <;>
      exact fun event hevent => Or.inr (by rw [List.mem_singleton.mp hevent])
  · obtain ⟨rfl, -⟩ := trace_ret h
    exact fun _ hevent => (List.not_mem_nil hevent).elim

theorem promptPrefs_noRequest : NoRequest (promptPrefs planner) := by
  rw [promptPrefs]
  split
  · exact noRequest_ask Bool.false_ne_true fun r => by cases r <;> trivial
  · trivial

/-- The loop of a run that has passed the checks. -/
abbrev admitted (lib : PlannerLib) (planner : LlmPlanner) (intent : String)
    (prefs : Option (List Char)) : PlannerM PlanOutcome :=
  planTurns lib planner intent (buildSystemPrompt prefs planner.distroHint) planner.maxTurns
    [.userText intent]

theorem planAdmitted_cases {q : PlannerM PlanOutcome}
    (h : Trace (planAdmitted lib planner intent) events q) :
    (∃ op k, q = .op op k ∧ isRequest op = false) ∨
      ∃ front prefs rest, events = front ++ rest ∧ (∀ event ∈ front, Opening event) ∧
        Trace (admitted lib planner intent prefs) rest q := by
  rcases trace_bind h with ⟨p, hp, rfl⟩ | ⟨prefs, front, rest, rfl, hfront, hrest⟩
  · cases p with
    | ret prefs =>
      exact Or.inr ⟨events, prefs, [], (List.append_nil _).symm, promptPrefs_opening hp, .done _⟩
    | op op k =>
      exact Or.inl ⟨op, _, rfl, (Bool.not_eq_true _).mp (promptPrefs_noRequest.of_trace hp).1⟩
  · exact Or.inr ⟨front, prefs, rest, rfl, promptPrefs_opening hfront, hrest⟩

/-- A run has been refused, or it waits for a call before the loop, or it is past the
checks. -/
theorem planIntent_cases {q : PlannerM PlanOutcome}
    (h : Trace (planIntent lib planner intent) events q) :
    (∃ e, q = .ret (some (.error e)) ∧ ∀ event ∈ events, ∃ answer,
        event = ⟨.checkAndConsume, answer⟩) ∨
      (∃ op k, q = .op op k ∧ isRequest op = false) ∨
      ∃ front prefs rest, events = front ++ rest ∧ (∀ event ∈ front, Opening event) ∧
        ¬ Refused lib intent [] ∧ Trace (admitted lib planner (trimmed intent) prefs) rest q := by
  have hrefused : ∀ e, Trace (pure (some (.error e)) : PlannerM PlanOutcome) events q →
      ∃ e, q = .ret (some (.error e)) ∧ ∀ event ∈ events, ∃ answer,
        event = ⟨.checkAndConsume, answer⟩ := by
    intro e h
    obtain ⟨rfl, rfl⟩ := trace_ret h
    exact ⟨e, rfl, fun _ hevent => (List.not_mem_nil hevent).elim⟩
  unfold planIntent at h
  dsimp only at h
  split at h
  · exact Or.inl (hrefused _ h)
  · next hempty =>
    split at h
    · exact Or.inl (hrefused _ h)
    · next hlong =>
      split at h
      · exact Or.inl (hrefused _ h)
      · next hsensitive =>
        have hpassed : ¬ Refused lib intent [] := by
          rintro (hno | hno | hno | hno)
          · exact hempty hno
          · exact hlong hno
          · exact hsensitive hno
          · cases hno
        split at h
        · rcases trace_op h with ⟨-, rfl⟩ | ⟨answer, rest, rfl, hanswered⟩
          · exact Or.inr (Or.inl ⟨_, _, rfl, rfl⟩)
          · dsimp only [Prog.bind] at hanswered
            cases answer with
            | error retryAfterSecs =>
              obtain ⟨rfl, rfl⟩ := trace_ret hanswered
              exact Or.inl ⟨_, rfl, fun event hevent => ⟨_, List.mem_singleton.mp hevent⟩⟩
            | ok =>
              rcases planAdmitted_cases hanswered with hwait |
                ⟨front, prefs, rest, rfl, hfront, hloop⟩
              · exact Or.inr (Or.inl hwait)
              · refine Or.inr (Or.inr ⟨_ :: front, prefs, rest, rfl, ?_, hpassed, hloop⟩)
                exact List.forall_mem_cons.mpr ⟨Or.inl rfl, hfront⟩
        · rcases planAdmitted_cases h with hwait | ⟨front, prefs, rest, rfl, hfront, hloop⟩
          · exact Or.inr (Or.inl hwait)
          · exact Or.inr (Or.inr ⟨front, prefs, rest, rfl, hfront, hpassed, hloop⟩)

/-- A run is about to send a request. -/
def Sends (lib : PlannerLib) (planner : LlmPlanner) (intent : String)
    (events : List PlannerCall) (system : List Char) (messages : List Message) : Prop :=
  ∃ k : PlannerOp.Resp (.complete system messages) → PlannerM PlanOutcome,
    Trace (planIntent lib planner intent) events (.op (.complete system messages) k)

/-- What a run has done when it is about to send a request. -/
theorem Sends.rounds (h : Sends lib planner intent events system messages) :
    ∃ front rounds rest, events = front ++ (rest ++ [⟨.emit .thinking, ()⟩]) ∧
      (∀ event ∈ front, Opening event) ∧
      Rounds lib planner (trimmed intent) system [.userText (trimmed intent)] rounds rest ∧
      messages = .userText (trimmed intent) :: rounds.flatMap PlanRound.messages := by
  obtain ⟨k, h⟩ := h
  rcases planIntent_cases h with ⟨e, hq, -⟩ | ⟨op, k', hq, hop⟩ |
    ⟨front, prefs, rest, rfl, hfront, -, hloop⟩
  · cases hq
  · cases hq
    cases hop
  · obtain ⟨rounds, rest, hrounds, rfl, rfl, rfl⟩ := planTurns_request hloop
    exact ⟨front, rounds, rest, rfl, hfront, hrounds, rfl⟩

/-! ## Single runs -/

theorem trace_ask {α : Type} {op : PlannerOp} {k : op.Resp → PlannerM α} {q : PlannerM α}
    {answer : op.Resp} (h : Trace (k answer) events q) :
    Trace (ask op >>= k) (⟨op, answer⟩ :: events) q :=
  Trace.cons answer h

/-- A turn begins with a request. -/
theorem planTurns_sends (turns : Nat) :
    ∃ k : PlannerOp.Resp (.complete system messages) → PlannerM PlanOutcome,
      Trace (planTurns lib planner intent system (turns + 1) messages)
        [⟨.emit .thinking, ()⟩] (.op (.complete system messages) k) := by
  rw [planTurns, planTurn]
  exact ⟨_, trace_ask (.done _)⟩

theorem planTurns_next {turns : Nat} {rest : List PlannerCall} {round : PlanRound}
    {q : PlannerM PlanOutcome}
    (hturn : Trace (planTurn lib planner intent system (0 < turns) messages) events
      (.ret (.ok round)))
    (hrest : Trace (planTurns lib planner intent system turns (messages ++ round.messages)) rest
      q) :
    Trace (planTurns lib planner intent system (turns + 1) messages) (events ++ rest) q := by
  rw [planTurns]
  exact hturn.bind hrest

theorem planTurns_ends {turns : Nat} {outcome : PlanOutcome}
    (hturn : Trace (planTurn lib planner intent system (0 < turns) messages) events
      (.ret (.error outcome))) :
    Trace (planTurns lib planner intent system (turns + 1) messages) events (.ret outcome) := by
  rw [planTurns, ← List.append_nil events]
  exact hturn.bind (.done _)

/-- A text in the place of a call is corrected. -/
theorem planTurn_corrected {completion : Completion}
    (hreason : completion.stopReason = .endTurn)
    (htext : completion.content.any ContentBlock.isText = true) :
    Trace (planTurn lib planner intent system true messages)
      (asked system messages (.ok completion)) (.ret (.ok ⟨completion, .userText correction⟩)) := by
  rw [planTurn]
  refine trace_ask (trace_ask ?_)
  simp only [hreason, htext]
  exact .done _

/-- The calls of a response are performed. -/
theorem planTurn_performs (completion : Completion)
    {out : Except PlanOutcome (List ToolResultBlock)}
    (hreason : completion.stopReason = .toolUse) (hcalls : completion.calls.isEmpty = false)
    (hout : Trace (performCalls lib planner intent completion.calls) events (.ret out)) :
    Trace (planTurn lib planner intent system more messages)
      (asked system messages (.ok completion) ++ events)
      (.ret (out.map fun results => ⟨completion, .toolResults results⟩)) := by
  rw [planTurn]
  refine trace_ask (trace_ask ?_)
  simp only [hreason, hcalls]
  rw [← List.append_nil events]
  refine hout.bind ?_
  cases out <;> exact .done _

theorem performCalls_single {out : CallOutcome}
    (h : Trace (performCall lib planner intent call) events (.ret out)) :
    Trace (performCalls lib planner intent [call]) events
      (.ret (out.map fun result => [result])) := by
  rw [performCalls, ← List.append_nil events]
  refine h.bind ?_
  cases out <;> exact .done _

end Runs

/-- Libraries as they are on plain texts. -/
def plainLib : PlannerLib where
  lowercase := id
  nfc := id
  parseJson s := if s = "\x7b\x7d" then .ok (.object []) else .error "expected value"
  debugStr s := "\"" ++ s ++ "\""

/-- A planner without files or a limiter. -/
def plainPlanner : LlmPlanner where
  maxTurns := 2
  auditLog := false
  prefsPath := false
  rateLimiter := false
  distroHint := none
  maxTurns_pos := by decide

def plainSystem : List Char := buildSystemPrompt none none

theorem plainRun : planIntent plainLib plainPlanner "show disks" =
    planTurns plainLib plainPlanner "show disks" plainSystem 2 [.userText "show disks"] := by
  have htrim : trimmed "show disks" = "show disks" := by decide +kernel
  have hsensitive : containsSensitive plainLib.lowercase "show disks" = false := by decide +kernel
  unfold planIntent
  dsimp only
  rw [htrim, if_neg (by decide), if_neg (by decide), hsensitive, if_neg Bool.false_ne_true]
  rfl

/-- After a first turn the run sends the conversation up to its reply. -/
theorem plainRun_sends {round : PlanRound} {events : List PlannerCall}
    (h : Trace (planTurn plainLib plainPlanner "show disks" plainSystem true
      [.userText "show disks"]) events (.ret (.ok round))) :
    Sends plainLib plainPlanner "show disks" (events ++ [⟨.emit .thinking, ()⟩]) plainSystem
      (.userText "show disks" :: round.messages) := by
  have hsend : ∃ k : PlannerOp.Resp (.complete plainSystem
      (.userText "show disks" :: round.messages)) → PlannerM PlanOutcome,
      Trace (planTurns plainLib plainPlanner "show disks" plainSystem 1
        (.userText "show disks" :: round.messages)) [⟨.emit .thinking, ()⟩]
        (.op (.complete plainSystem (.userText "show disks" :: round.messages)) k) :=
    planTurns_sends 0
  obtain ⟨k, hsend⟩ := hsend
  refine ⟨k, ?_⟩
  rw [plainRun]
  exact planTurns_next h hsend

end Sysknife
