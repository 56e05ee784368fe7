import Sysknife.Planner

/-!
# What one tool call does

`CallDone` says what a call of the model leaves: the calls that have left the planner,
and a result or the end of the run.
-/

namespace Sysknife

open Interaction

/-- The state client is asked. -/
def AsksClient : PlannerOp → Prop
  | .curatedState | .currentUser | .queryAction .. => True
  | _ => False

/-- A text of the state client that is not put into JSON. -/
def answerText : PlannerCall → Option (List Char)
  | ⟨.currentUser, .ok user⟩ => some user.toList
  | ⟨.currentUser, .error e⟩ => some e.text.toList
  | ⟨.queryAction _ _, .ok output⟩ => some output.toList
  | ⟨.queryAction _ _, .error e⟩ => some e.text.toList
  | _ => none

def StateFailed (event : PlannerCall) : Prop := ∃ e, event = ⟨.curatedState, .error e⟩

section Calls
variable (lib : PlannerLib) (planner : LlmPlanner) (intent : String)

/-- A `propose_plan` call with a plan that passes. -/
def ProposesPlan (call : ToolCall) : Prop :=
  call.name = "propose_plan" ∧
    ∃ plan, parseProposedPlan lib.parseJson lib.debugStr intent call.input = .ok plan

/-- The call that leaves the planner for a tool call, if there is one. -/
def callOp (call : ToolCall) : Option PlannerOp :=
  match call.tool with
  | .getSystemState => some .curatedState
  | .proposePlan =>
    match parseProposedPlan lib.parseJson lib.debugStr intent call.input with
    | .ok _ => none
    | .error e =>
      if planner.auditLog then
        some (.logRejection intent e.text (String.ofList (compact call.input)))
      else none
  | .remember =>
    if call.fact = "" ∨ containsSensitive lib.lowercase call.fact = true then none
    else if planner.prefsPath then some (.appendPref call.fact) else none
  | .forget =>
    if call.fact = "" then none
    else if planner.prefsPath then some (.removePref call.fact) else none
  | .queryCurrentUser => some .currentUser
  | .other =>
    match queryToolToAction call.name call.input with
    | .ok (some (actionName, params)) => some (.queryAction actionName params)
    | _ => none

/-- What the dispatch of a call can do. -/
inductive CallDone (call : ToolCall) : List PlannerCall → CallOutcome → Prop where
  | own {events : List PlannerCall} {content : String} {isError : Bool}
      (ops : events.map (·.op) = (callOp lib planner intent call).toList)
      (quiet : ∀ event ∈ events, ¬ AsksClient event.op)
      (rejected : ¬ ProposesPlan lib intent call) :
      CallDone call events (call.reply content isError)
  | client {answer : PlannerCall} {toolName : String} {raw : List Char} {isError : Bool}
      (op : callOp lib planner intent call = some answer.op) (asks : AsksClient answer.op)
      (given : ¬ StateFailed answer)
      (safe : (stripAnsi raw).isSome = true ↔
        ∀ text, answerText answer = some text → (stripAnsi text).isSome = true) :
      CallDone call [answer] (call.sanitized lib toolName raw isError)
  | accepted {plan : Plan} (name : call.name = "propose_plan")
      (parsed : parseProposedPlan lib.parseJson lib.debugStr intent call.input = .ok plan) :
      CallDone call [] (.error (some (.ok plan)))
  | stateFailed {e : PlanningError} (name : call.name = "get_system_state") :
      CallDone call [⟨.curatedState, .error e⟩] (.error (some (.error e)))

end Calls

/-! ## The branches -/

section Branches
variable {lib : PlannerLib} {planner : LlmPlanner} {intent : String} {call : ToolCall}
  {events : List PlannerCall} {out : CallOutcome}

theorem PlannerTool.ofName_proposePlan {name : String} :
    PlannerTool.ofName name = .proposePlan ↔ name = "propose_plan" := by
  unfold PlannerTool.ofName
  split <;> simp_all

theorem PlannerTool.ofName_getSystemState {name : String} :
    PlannerTool.ofName name = .getSystemState ↔ name = "get_system_state" := by
  unfold PlannerTool.ofName
  split <;> simp_all

/-- A call of another tool is no accepted plan. -/
theorem not_proposesPlan (h : call.tool ≠ .proposePlan) : ¬ ProposesPlan lib intent call := by
  rintro ⟨hname, -⟩
  exact h (PlannerTool.ofName_proposePlan.mpr hname)

theorem json_plain (v : Json) : (stripAnsi (compact v)).isSome = true :=
  stripAnsi_plain fun hmem => compact_no_control v _ hmem (by decide)

theorem getSystemState_done (htool : call.tool = .getSystemState)
    (h : Trace (getSystemState lib call) events (.ret out)) :
    CallDone lib planner intent call events out := by
  obtain ⟨answer, rest, rfl, hrest⟩ := trace_op_ret h
  have hop : callOp lib planner intent call = some .curatedState := by simp [callOp, htool]
  cases answer with
  | error e =>
    obtain ⟨rfl, hout⟩ := trace_ret hrest
    cases hout
    exact .stateFailed (PlannerTool.ofName_getSystemState.mp htool)
  | ok state =>
    obtain ⟨rfl, hout⟩ := trace_ret hrest
    cases hout
    refine .client hop trivial ?_ (iff_of_true (json_plain _) ?_)
    · rintro ⟨e, heq⟩
      cases heq
    · intro text htext
      cases htext

theorem proposePlan_done (htool : call.tool = .proposePlan)
    (h : Trace (proposePlan lib planner intent call) events (.ret out)) :
    CallDone lib planner intent call events out := by
  have hname := PlannerTool.ofName_proposePlan.mp htool
  rw [proposePlan] at h
  cases hparse : parseProposedPlan lib.parseJson lib.debugStr intent call.input with
  | ok plan =>
    rw [hparse] at h
    obtain ⟨rfl, hout⟩ := trace_ret h
    cases hout
    exact .accepted hname hparse
  | error e =>
    simp only [hparse] at h
    have hrejected : ¬ ProposesPlan lib intent call := by
      rintro ⟨-, plan, hplan⟩
      cases hparse.symm.trans hplan
    by_cases haudit : planner.auditLog = true
    · rw [if_pos haudit] at h
      obtain ⟨answer, rest, rfl, hrest⟩ := trace_op_ret h
      obtain ⟨rfl, hout⟩ := trace_ret hrest
      cases hout
      refine .own (by simp [callOp, htool, hparse, haudit]) ?_ hrejected
      intro event hevent
      rw [List.mem_singleton.mp hevent]
      exact id
    · rw [if_neg haudit] at h
      obtain ⟨rfl, hout⟩ := trace_ret h
      cases hout
      exact .own (by simp [callOp, htool, hparse, haudit]) (by simp) hrejected

/-- A result without a call that leaves the planner. -/
theorem own_silent (hop : callOp lib planner intent call = none)
    (hrejected : ¬ ProposesPlan lib intent call) (content : String) (isError : Bool) :
    CallDone lib planner intent call [] (call.reply content isError) :=
  .own (by rw [hop]; rfl) (fun _ hevent => by cases hevent) hrejected

/-- A result after a call that is not for the state client. -/
theorem own_asked {event : PlannerCall} (hop : callOp lib planner intent call = some event.op)
    (hquiet : ¬ AsksClient event.op) (hrejected : ¬ ProposesPlan lib intent call)
    (content : String) (isError : Bool) :
    CallDone lib planner intent call [event] (call.reply content isError) := by
  refine .own (by rw [hop]; rfl) ?_ hrejected
  intro event' hevent
  rw [List.mem_singleton.mp hevent]
  exact hquiet

theorem remember_done (htool : call.tool = .remember)
    (h : Trace (remember lib planner call) events (.ret out)) :
    CallDone lib planner intent call events out := by
  have hrejected : ¬ ProposesPlan lib intent call := not_proposesPlan (by simp [htool])
  rw [remember] at h
  split at h
  · next hempty =>
    obtain ⟨rfl, hout⟩ := trace_ret h
    cases hout
    exact own_silent (by simp [callOp, htool, hempty]) hrejected _ _
  · next hfact =>
    split at h
    · next hsensitive =>
      obtain ⟨rfl, hout⟩ := trace_ret h
      cases hout
      exact own_silent (by simp [callOp, htool, hsensitive]) hrejected _ _
    · next hsensitive =>
      split at h
      · next hpath =>
        have hop : callOp lib planner intent call = some (.appendPref call.fact) := by
          simp [callOp, htool, hfact, hsensitive, hpath]
        obtain ⟨answer, rest, rfl, hrest⟩ := trace_op_ret h
        cases answer <;> obtain ⟨rfl, hout⟩ := trace_ret hrest <;> cases hout <;>
          exact own_asked hop id hrejected _ _
      · next hpath =>
        obtain ⟨rfl, hout⟩ := trace_ret h
        cases hout
        exact own_silent (by simp [callOp, htool, hpath]) hrejected _ _

theorem forget_done (htool : call.tool = .forget)
    (h : Trace (forget planner call) events (.ret out)) :
    CallDone lib planner intent call events out := by
  have hrejected : ¬ ProposesPlan lib intent call := not_proposesPlan (by simp [htool])
  rw [forget] at h
  split at h
  · next hempty =>
    obtain ⟨rfl, hout⟩ := trace_ret h
    cases hout
    exact own_silent (by simp [callOp, htool, hempty]) hrejected _ _
  · next hfact =>
    split at h
    · next hpath =>
      have hop : callOp lib planner intent call = some (.removePref call.fact) := by
        simp [callOp, htool, hfact, hpath]
      obtain ⟨answer, rest, rfl, hrest⟩ := trace_op_ret h
      rcases answer with e | _ | _ <;> obtain ⟨rfl, hout⟩ := trace_ret hrest <;> cases hout <;>
        exact own_asked hop id hrejected _ _
    · next hpath =>
      obtain ⟨rfl, hout⟩ := trace_ret h
      cases hout
      exact own_silent (by simp [callOp, htool, hpath]) hrejected _ _

/-- A text of the state client behind words of the planner. -/
theorem client_done {answer : PlannerCall} (pre : List Char) {text : List Char}
    (hop : callOp lib planner intent call = some answer.op) (hasks : AsksClient answer.op)
    (htext : answerText answer = some text) (hpre : '\x1b' ∉ pre) (toolName : String)
    (isError : Bool) :
    CallDone lib planner intent call [answer]
      (call.sanitized lib toolName (pre ++ text) isError) := by
  refine .client hop hasks ?_ ?_
  · rintro ⟨e, rfl⟩
    cases htext
  · rw [stripAnsi_append_isSome hpre, htext]
    simp only [Option.some.injEq, forall_eq']

theorem queryCurrentUser_done (htool : call.tool = .queryCurrentUser)
    (h : Trace (queryCurrentUser lib call) events (.ret out)) :
    CallDone lib planner intent call events out := by
  have hop : callOp lib planner intent call = some .currentUser := by simp [callOp, htool]
  obtain ⟨answer, rest, rfl, hrest⟩ := trace_op_ret h
  cases answer <;> obtain ⟨rfl, hout⟩ := trace_ret hrest <;> cases hout <;>
    exact client_done _ hop (by trivial) (by rfl) (by decide) _ _

theorem queryTool_done (htool : call.tool = .other)
    (h : Trace (queryTool lib call) events (.ret out)) :
    CallDone lib planner intent call events out := by
  have hrejected : ¬ ProposesPlan lib intent call := not_proposesPlan (by simp [htool])
  rw [queryTool] at h
  split at h
  · next actionName params haction =>
    have hop : callOp lib planner intent call = some (.queryAction actionName params) := by
      simp [callOp, htool, haction]
    obtain ⟨answer, rest, rfl, hrest⟩ := trace_op_ret h
    cases answer with
    | error e =>
      obtain ⟨rfl, hout⟩ := trace_ret hrest
      cases hout
      exact client_done _ hop (by trivial) (by rfl) (by decide) _ _
    | ok output =>
      obtain ⟨rfl, hout⟩ := trace_ret hrest
      cases hout
      exact client_done [] hop (by trivial) (by rfl) (by decide) _ _
  · next message haction =>
    obtain ⟨rfl, hout⟩ := trace_ret h
    cases hout
    exact own_silent (by simp [callOp, htool, haction]) hrejected _ _
  · next haction =>
    obtain ⟨rfl, hout⟩ := trace_ret h
    cases hout
    exact own_silent (by simp [callOp, htool, haction]) hrejected _ _

theorem dispatch_done (h : Trace (dispatch lib planner intent call) events (.ret out)) :
    CallDone lib planner intent call events out := by
  rw [dispatch] at h
  split at h
  · next htool => exact getSystemState_done htool h
  · next htool => exact proposePlan_done htool h
  · next htool => exact remember_done htool h
  · next htool => exact forget_done htool h
  · next htool => exact queryCurrentUser_done htool h
  · next htool => exact queryTool_done htool h

theorem performCall_done (h : Trace (performCall lib planner intent call) events (.ret out)) :
    ∃ rest, events = ⟨.emit (progressEvent call.name), ()⟩ :: rest ∧
      CallDone lib planner intent call rest out := by
  obtain ⟨_, rest, rfl, hrest⟩ := trace_op_ret h
  exact ⟨rest, rfl, dispatch_done hrest⟩

end Branches

end Sysknife
