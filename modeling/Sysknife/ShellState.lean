import Mathlib.Data.List.Basic
import Mathlib.Data.List.Infix
import Sysknife.Json

/-!
# The desktop shell's reducer

`shellState.ts`. A state is the record that the reducer builds by hand in each of
its cases; a field that a mode does not have is `none`. The clock that stamps a
timeline entry is an argument.
-/

namespace Sysknife

/-! ## Responses of the backend -/

inductive ShellRisk where
  | low | medium | high
  deriving DecidableEq, Repr

structure PlanStepResponse where
  actionName : String
  summary : String
  riskLevel : ShellRisk
  approvalRequired : Bool
  params : Json

structure PlanResponse where
  summary : String
  explanation : String
  approvalRequired : Bool
  steps : List PlanStepResponse
  hostName : String
  deployment : String
  toolboxCount : Nat
  flatpakCount : Nat

structure ShellError where
  code : String
  message : String
  systemChanged : Bool
  deriving DecidableEq, Repr

inductive DaemonStatus where
  | unknown | connected | unreachable
  deriving DecidableEq, Repr

structure StepOutput where
  actionName : String
  status : String
  outputLines : List String
  deriving DecidableEq, Repr

structure ExecutionResult where
  outcome : String
  stepOutputs : List StepOutput
  deriving DecidableEq, Repr

/-! ## State and actions -/

inductive TimelineEntryKind where
  | system | user | success | warning | error
  deriving DecidableEq, Repr

structure TimelineEntry where
  id : String
  timestamp : String
  kind : TimelineEntryKind
  text : String
  deriving DecidableEq, Repr

inductive ShellOutcome where
  | succeeded | needsReboot | failed | rolledBack | canceled
  deriving DecidableEq, Repr

inductive ShellMode where
  | idle | planning | previewing | awaitingApproval | executing | reviewing | needsReboot
  | failed | rolledBack
  deriving DecidableEq, Repr

structure ShellState where
  mode : ShellMode
  intent : String
  plan : Option PlanResponse := none
  activeJobId : Option String := none
  error : Option ShellError := none
  planError : Option ShellError := none
  executionResult : Option ExecutionResult := none
  summary : Option String := none
  daemonStatus : DaemonStatus
  timeline : List TimelineEntry

inductive ShellAction where
  | intentSubmitted (intent : String)
  | planReady (plan : PlanResponse)
  | requestApproval
  | approvalGranted
  | jobCompleted (outcome : ShellOutcome)
  | executionReviewReady (executionResult : ExecutionResult)
  | summaryReady (summary : String)
  | dismissReview
  | timelineEvent (text : String) (kind : TimelineEntryKind)
  | planErrored (error : ShellError)
  | policyErrored (error : ShellError)
  | cancelRequested
  | daemonStatusChanged (status : DaemonStatus)
  | reset

def initialShellState : ShellState where
  mode := .idle
  intent := ""
  daemonStatus := .unknown
  timeline := []

/-! ## The reducer -/

def appendTimeline (now : String) (state : ShellState) (text : String) (kind : TimelineEntryKind) :
    ShellState :=
  { state with
    timeline := state.timeline ++ [⟨toString (state.timeline.length + 1), now, kind, text⟩] }

/-- The state that a case builds: what it keeps of the old one, and no other field. -/
def ShellState.next (state : ShellState) (mode : ShellMode) (intent : String) : ShellState where
  mode
  intent
  daemonStatus := state.daemonStatus
  timeline := state.timeline

def shellReducer (now : String) (state : ShellState) : ShellAction → ShellState
  | .intentSubmitted intent =>
    appendTimeline now (state.next .planning intent) ("Intent submitted: " ++ intent) .user
  | .planReady plan =>
    appendTimeline now { state.next .previewing state.intent with plan := some plan }
      ("Plan ready: " ++ plan.summary) .system
  | .requestApproval =>
    if state.mode ≠ .previewing then state
    else appendTimeline now { state.next .awaitingApproval state.intent with plan := state.plan }
      "Awaiting user approval" .system
  | .approvalGranted =>
    if state.mode ≠ .awaitingApproval then state
    else appendTimeline now
      { state.next .executing state.intent with
        plan := state.plan, activeJobId := some "pending" }
      "Approval granted — executing" .user
  | .jobCompleted .succeeded =>
    appendTimeline now (state.next .idle state.intent) "Job completed successfully" .success
  | .jobCompleted .needsReboot =>
    if state.mode ≠ .executing then state
    else appendTimeline now { state.next .needsReboot state.intent with plan := state.plan }
      "Job completed — reboot required" .warning
  | .jobCompleted .rolledBack =>
    if state.mode ≠ .executing then state
    else appendTimeline now { state.next .rolledBack state.intent with plan := state.plan }
      "Job rolled back" .warning
  | .jobCompleted .canceled =>
    appendTimeline now (state.next .idle state.intent) "Job canceled" .warning
  | .jobCompleted .failed =>
    if state.mode ≠ .executing then state
    else appendTimeline now { state.next .failed state.intent with plan := state.plan }
      "Job failed" .error
  | .executionReviewReady executionResult =>
    if state.mode ≠ .executing then state
    else appendTimeline now
      { state.next .reviewing state.intent with
        plan := state.plan, executionResult := some executionResult }
      "Execution complete — reviewing results" .success
  | .summaryReady summary =>
    if state.mode ≠ .reviewing then state else { state with summary := some summary }
  | .dismissReview => if state.mode ≠ .reviewing then state else state.next .idle ""
  | .planErrored error =>
    appendTimeline now { state.next .idle state.intent with error := some error }
      ("Planning failed: " ++ error.message) .error
  | .policyErrored error =>
    if state.mode ≠ .previewing ∧ state.mode ≠ .awaitingApproval then state
    else appendTimeline now { state with planError := some error }
      ("Policy error: " ++ error.message) .error
  | .cancelRequested => appendTimeline now state "Cancellation requested" .user
  | .daemonStatusChanged status => { state with daemonStatus := status }
  | .timelineEvent text kind => appendTimeline now state text kind
  | .reset => initialShellState

/-- The reducer over actions with the time of each. -/
def shellRun (actions : List (String × ShellAction)) : ShellState :=
  actions.foldl (fun state a => shellReducer a.1 state a.2) initialShellState

theorem shellRun_concat (actions : List (String × ShellAction)) (a : String × ShellAction) :
    shellRun (actions ++ [a]) = shellReducer a.1 (shellRun actions) a.2 := List.foldl_concat ..

/-! ## What an action does to mode, plan and job -/

/-- The actions after which an earlier plan is void. -/
def ShellAction.voids : ShellAction → Bool
  | .intentSubmitted _ | .planReady _ | .planErrored _ | .reset => true
  | _ => false

/-- The modes in which an execution has ended. -/
def ShellMode.ended : ShellMode → Bool
  | .reviewing | .needsReboot | .failed | .rolledBack => true
  | _ => false

/-- No plan is shown in these modes. -/
def ShellMode.planless : ShellMode → Bool
  | .idle | .planning => true
  | _ => false

inductive Turn (s : ShellState) : ShellAction → ShellState → Prop
  | stay {a : ShellAction} {s' : ShellState} (ha : a.voids = false) (hmode : s'.mode = s.mode)
      (hplan : s'.plan = s.plan) (hjob : s'.activeJobId = s.activeJobId) : Turn s a s'
  | ready {plan : PlanResponse} {s' : ShellState} (hmode : s'.mode = .previewing)
      (hplan : s'.plan = some plan) (hjob : s'.activeJobId = none) : Turn s (.planReady plan) s'
  | request {s' : ShellState} (hfrom : s.mode = .previewing) (hmode : s'.mode = .awaitingApproval)
      (hplan : s'.plan = s.plan) (hjob : s'.activeJobId = none) : Turn s .requestApproval s'
  | approve {s' : ShellState} (hfrom : s.mode = .awaitingApproval) (hmode : s'.mode = .executing)
      (hplan : s'.plan = s.plan) (hjob : s'.activeJobId = some "pending") :
      Turn s .approvalGranted s'
  | finish {a : ShellAction} {s' : ShellState} (hfrom : s.mode = .executing)
      (hmode : s'.mode.ended = true) (hplan : s'.plan = s.plan) (hjob : s'.activeJobId = none) :
      Turn s a s'
  | leave {a : ShellAction} {s' : ShellState} (hmode : s'.mode.planless = true)
      (hplan : s'.plan = none) (hjob : s'.activeJobId = none) : Turn s a s'

theorem shellReducer_turn (now : String) (s : ShellState) (a : ShellAction) :
    Turn s a (shellReducer now s a) := by
  cases a with
  | intentSubmitted intent => exact .leave rfl rfl rfl
  | planReady plan => exact .ready rfl rfl rfl
  | requestApproval =>
    rw [shellReducer]
    split
    · exact .stay rfl rfl rfl rfl
    next h => exact .request (not_not.mp h) rfl rfl rfl
  | approvalGranted =>
    rw [shellReducer]
    split
    · exact .stay rfl rfl rfl rfl
    next h => exact .approve (not_not.mp h) rfl rfl rfl
  | jobCompleted outcome =>
    cases outcome with
    | succeeded => exact .leave rfl rfl rfl
    | canceled => exact .leave rfl rfl rfl
    | needsReboot | failed | rolledBack =>
      rw [shellReducer]
      split
      · exact .stay rfl rfl rfl rfl
      next h => exact .finish (not_not.mp h) rfl rfl rfl
  | executionReviewReady result =>
    rw [shellReducer]
    split
    · exact .stay rfl rfl rfl rfl
    next h => exact .finish (not_not.mp h) rfl rfl rfl
  | summaryReady summary =>
    rw [shellReducer]
    split <;> exact .stay rfl rfl rfl rfl
  | dismissReview =>
    rw [shellReducer]
    split
    · exact .stay rfl rfl rfl rfl
    · exact .leave rfl rfl rfl
  | timelineEvent text kind => exact .stay rfl rfl rfl rfl
  | planErrored error => exact .leave rfl rfl rfl
  | policyErrored error =>
    rw [shellReducer]
    split <;> exact .stay rfl rfl rfl rfl
  | cancelRequested => exact .stay rfl rfl rfl rfl
  | daemonStatusChanged status => exact .stay rfl rfl rfl rfl
  | reset => exact .leave rfl rfl rfl

/-! ## The timeline -/

/-- The entries are numbered from 1 on. -/
def Numbered (timeline : List TimelineEntry) : Prop :=
  ∀ (i : Nat) (entry : TimelineEntry), timeline[i]? = some entry → entry.id = toString (i + 1)

theorem Numbered.append {now : String} {s : ShellState} (h : Numbered s.timeline) (text : String)
    (kind : TimelineEntryKind) : Numbered (appendTimeline now s text kind).timeline := by
  intro i entry hi
  rw [appendTimeline] at hi
  rcases Nat.lt_trichotomy i s.timeline.length with hlt | rfl | hgt
  · rw [List.getElem?_append_left hlt] at hi
    exact h i entry hi
  · rw [List.getElem?_concat_length] at hi
    obtain rfl := Option.some.inj hi
    rfl
  · rw [List.getElem?_eq_none_iff.mpr (by simp; omega)] at hi
    cases hi

theorem Numbered.reducer {s : ShellState} (h : Numbered s.timeline) (now : String)
    (a : ShellAction) : Numbered (shellReducer now s a).timeline := by
  cases a with
  | intentSubmitted _ | planReady _ | planErrored _ | cancelRequested | timelineEvent _ _ =>
    apply Numbered.append
    exact h
  | daemonStatusChanged _ => exact h
  | reset =>
    intro i entry hi
    cases hi
  | jobCompleted outcome =>
    cases outcome with
    | succeeded | canceled =>
      apply Numbered.append
      exact h
    | needsReboot | failed | rolledBack =>
      rw [shellReducer]
      split
      · exact h
      · apply Numbered.append
        exact h
  | requestApproval | approvalGranted | executionReviewReady _ | policyErrored _ =>
    rw [shellReducer]
    split
    · exact h
    · apply Numbered.append
      exact h
  | summaryReady _ | dismissReview =>
    rw [shellReducer]
    split <;> exact h

/-! ## What has led to an execution -/

/-- `a` came at the end of a run that `P` holds of, and no action since then voids
the plan. -/
def After (P : List (String × ShellAction) → Prop) (a : ShellAction)
    (actions : List (String × ShellAction)) : Prop :=
  ∃ pre now since, actions = pre ++ (now, a) :: since ∧ P pre ∧ ∀ b ∈ since, b.2.voids = false

theorem After.now {P : List (String × ShellAction) → Prop} {actions : List (String × ShellAction)}
    (h : P actions) (now : String) (a : ShellAction) : After P a (actions ++ [(now, a)]) :=
  ⟨actions, now, [], rfl, h, by simp⟩

theorem After.append {P : List (String × ShellAction) → Prop} {a : ShellAction}
    {actions : List (String × ShellAction)} (h : After P a actions) {b : String × ShellAction}
    (hb : b.2.voids = false) : After P a (actions ++ [b]) := by
  obtain ⟨pre, now, since, rfl, hpre, hsince⟩ := h
  refine ⟨pre, now, since ++ [b], by simp, hpre, ?_⟩
  intro c hc
  rcases List.mem_append.mp hc with hc | hc
  · exact hsince c hc
  · rw [List.mem_singleton.mp hc]
    exact hb

/-- `plan` is the plan of the last `plan_ready`, and nothing since has voided it. -/
def Prepared (plan : PlanResponse) : List (String × ShellAction) → Prop :=
  After (fun _ => True) (.planReady plan)

/-- After that `plan_ready` came a `request_approval`. -/
def Requested (plan : PlanResponse) : List (String × ShellAction) → Prop :=
  After (Prepared plan) .requestApproval

/-- After that `request_approval` came an `approval_granted`. -/
def Granted (plan : PlanResponse) : List (String × ShellAction) → Prop :=
  After (Requested plan) .approvalGranted

structure ShellInv (actions : List (String × ShellAction)) (s : ShellState) : Prop where
  previewing : s.mode = .previewing → ∃ plan, s.plan = some plan ∧ Prepared plan actions
  awaiting : s.mode = .awaitingApproval → ∃ plan, s.plan = some plan ∧ Requested plan actions
  executing : s.mode = .executing → ∃ plan, s.plan = some plan ∧ Granted plan actions
  planless : s.plan = none ↔ s.mode.planless = true
  job : s.activeJobId ≠ none ↔ s.mode = .executing
  numbered : Numbered s.timeline

theorem shellInv_initial : ShellInv [] initialShellState := by
  refine ⟨nofun, nofun, nofun, by decide, by decide, ?_⟩
  intro i entry hi
  cases hi

theorem ShellInv.step {actions : List (String × ShellAction)} {s : ShellState}
    (h : ShellInv actions s) (a : String × ShellAction) :
    ShellInv (actions ++ [a]) (shellReducer a.1 s a.2) := by
  have hnumbered := h.numbered.reducer a.1 a.2
  generalize hs' : shellReducer a.1 s a.2 = s' at hnumbered
  have hturn := shellReducer_turn a.1 s a.2
  rw [hs'] at hturn
  obtain ⟨now, a⟩ := a
  cases hturn with
  | stay ha hmode hplan hjob =>
    refine ⟨?_, ?_, ?_, by rw [hplan, hmode]; exact h.planless, by rw [hjob, hmode]; exact h.job,
      hnumbered⟩
    · intro hm
      obtain ⟨plan, hp, hprepared⟩ := h.previewing (hmode ▸ hm)
      exact ⟨plan, hplan.trans hp, hprepared.append ha⟩
    · intro hm
      obtain ⟨plan, hp, hrequested⟩ := h.awaiting (hmode ▸ hm)
      exact ⟨plan, hplan.trans hp, hrequested.append ha⟩
    · intro hm
      obtain ⟨plan, hp, happroved⟩ := h.executing (hmode ▸ hm)
      exact ⟨plan, hplan.trans hp, happroved.append ha⟩
  | ready hmode hplan hjob =>
    rename_i plan
    refine ⟨fun _ => ⟨plan, hplan, After.now trivial now _⟩, ?_, ?_, ?_, ?_, hnumbered⟩ <;>
      rw [hmode]
    · exact nofun
    · exact nofun
    · simp [hplan, ShellMode.planless]
    · simp [hjob]
  | request hfrom hmode hplan hjob =>
    obtain ⟨plan, hp, hprepared⟩ := h.previewing hfrom
    refine ⟨?_, fun _ => ⟨plan, hplan.trans hp, After.now hprepared now _⟩, ?_, ?_, ?_,
      hnumbered⟩ <;> rw [hmode]
    · exact nofun
    · exact nofun
    · simp [hplan.trans hp, ShellMode.planless]
    · simp [hjob]
  | approve hfrom hmode hplan hjob =>
    obtain ⟨plan, hp, hrequested⟩ := h.awaiting hfrom
    refine ⟨?_, ?_, fun _ => ⟨plan, hplan.trans hp, After.now hrequested now _⟩, ?_, ?_,
      hnumbered⟩ <;> rw [hmode]
    · exact nofun
    · exact nofun
    · simp [hplan.trans hp, ShellMode.planless]
    · simp [hjob]
  | finish hfrom hmode hplan hjob =>
    obtain ⟨plan, hp, -⟩ := h.executing hfrom
    refine ⟨?_, ?_, ?_, ?_, ?_, hnumbered⟩ <;> cases hm : s'.mode <;>
      simp_all [ShellMode.ended, ShellMode.planless]
  | leave hmode hplan hjob =>
    refine ⟨?_, ?_, ?_, ?_, ?_, hnumbered⟩ <;> cases hm : s'.mode <;>
      simp_all [ShellMode.planless]

theorem shellRun_inv (actions : List (String × ShellAction)) :
    ShellInv actions (shellRun actions) := by
  induction actions using List.reverseRecOn with
  | nil => exact shellInv_initial
  | append_singleton actions a ih =>
    rw [shellRun_concat]
    exact ih.step a

/-- An executing shell runs the plan that was prepared, submitted for approval and
approved last; a plan is missing exactly in the idle and planning modes, a job is
active exactly in executing, and the timeline is numbered. -/
theorem shell_approval_invariant (actions : List (String × ShellAction)) :
    ((shellRun actions).mode = .executing →
      ∃ plan, (shellRun actions).plan = some plan ∧ Granted plan actions) ∧
    ((shellRun actions).plan = none ↔
      (shellRun actions).mode = .idle ∨ (shellRun actions).mode = .planning) ∧
    ((shellRun actions).activeJobId ≠ none ↔ (shellRun actions).mode = .executing) ∧
    (shellRun actions).timeline.map TimelineEntry.id =
      (List.range (shellRun actions).timeline.length).map fun i => toString (i + 1) := by
  have h := shellRun_inv actions
  refine ⟨h.executing, ?_, h.job, ?_⟩
  · rw [h.planless]
    cases (shellRun actions).mode <;> simp [ShellMode.planless]
  · apply List.ext_getElem
    · simp
    · intro i hi hi'
      rw [List.length_map] at hi
      rw [List.getElem_map, List.getElem_map, List.getElem_range]
      exact h.numbered i _ (List.getElem?_eq_getElem hi)

end Sysknife
