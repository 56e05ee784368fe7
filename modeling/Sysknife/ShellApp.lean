import Sysknife.ShellBackend

/-!
# The desktop shell's frontend

`App.tsx`: what the person, the answers to outstanding calls and the backend's events
make the frontend dispatch. The person acts on the controls that the mode shows;
answers come in any order.
-/

namespace Sysknife

/-- A call of `requestPlan`, and its answer once there is one. -/
structure PlanCall where
  intent : String
  answer : Option (Except ShellError PlanResponse) := none

/-- A call of `requestApproval`. -/
structure ApprovalCall where
  steps : List PlanStepRequest
  settled : Bool := false

/-- A call of `reviewExecution`, and its answer once there is one. -/
structure ReviewCall where
  executionResult : ExecutionResult
  intent : String
  answer : Option (Except Unit String) := none

structure App where
  shell : ShellState
  pendingExecutionResult : Option ExecutionResult
  plans : List PlanCall
  approvals : List ApprovalCall
  reviews : List ReviewCall

def initialApp : App := ⟨initialShellState, none, [], [], []⟩

inductive AppInput where
  /-- The form of the intent pane, with its text trimmed. -/
  | submit (intent : String)
  | reset
  | approve
  | cancel
  | dismiss
  | planSettled (call : Nat) (answer : Except ShellError PlanResponse)
  | approvalSettled (call : Nat) (answer : Except String Unit)
  | reviewSettled (call : Nat) (answer : Except Unit String)
  /-- A call of `cancelJob` was refused. -/
  | cancelRefused
  /-- An event from `approve_preview` or from the health poller. -/
  | emitted (event : BackendEvent)
  /-- The configuration that is read at the start has something to say. -/
  | notice (text : String)

/-! ## Handlers -/

/-- `subscribeDaemonEvents` with the callbacks of `App`, by the name that each
listens to. -/
def onEvent (s : App) (event : BackendEvent) : App × List ShellAction :=
  match event.payload with
  | .text text =>
    if event.name = "lacs:timeline-entry" then (s, [.timelineEvent text .system]) else (s, [])
  | .outcome outcome =>
    if event.name = "lacs:job-completed" then
      match s.pendingExecutionResult with
      | some result =>
        if outcome ≠ .canceled then
          ({ s with
              pendingExecutionResult := none
              reviews := s.reviews ++ [⟨result, s.shell.intent, none⟩] },
            [.executionReviewReady result])
        else (s, [.jobCompleted outcome])
      | none => (s, [.jobCompleted outcome])
    else (s, [])
  | .status status =>
    if event.name = "lacs:daemon-status" then
      (s, [.daemonStatusChanged (if status = "connected" then .connected else .unreachable)])
    else (s, [])
  | .result result =>
    if event.name = "lacs:execution-result" then
      ({ s with pendingExecutionResult := some result }, [])
    else (s, [])

/-- `handleIntent` from the answer of `requestPlan` on. -/
def planActions (intent : String) : Except ShellError PlanResponse → List ShellAction
  | .ok plan =>
    [.daemonStatusChanged .connected, .planReady plan] ++
      if plan.approvalRequired then [.requestApproval]
      else [.timelineEvent ("Read-only plan completed: " ++ intent) .success,
        .jobCompleted .succeeded]
  | .error error => [.daemonStatusChanged .unreachable, .planErrored error]

/-- What an input changes besides the shell's state, and what it dispatches. -/
def App.handle (s : App) : AppInput → App × List ShellAction
  | .submit intent =>
    if intent.isEmpty then (s, [])
    else ({ s with plans := s.plans ++ [⟨intent, none⟩] }, [.intentSubmitted intent])
  | .reset => (s, [.reset])
  | .approve =>
    match s.shell.plan with
    | some plan =>
      ({ s with approvals := s.approvals ++ [⟨plan.requests, false⟩] }, [.approvalGranted])
    | none => (s, [])
  | .cancel => (s, [.cancelRequested])
  | .dismiss => (s, [.dismissReview])
  | .planSettled call answer =>
    match s.plans[call]? with
    | some c =>
      ({ s with plans := s.plans.set call { c with answer := some answer } },
        planActions c.intent answer)
    | none => (s, [])
  | .approvalSettled call answer =>
    match s.approvals[call]? with
    | some c =>
      ({ s with approvals := s.approvals.set call { c with settled := true } },
        match answer with
        | .ok () => [.daemonStatusChanged .connected]
        | .error message => [.timelineEvent ("Approval failed: " ++ message) .error,
            .daemonStatusChanged .unreachable, .jobCompleted .failed])
    | none => (s, [])
  | .reviewSettled call answer =>
    match s.reviews[call]? with
    | some c =>
      ({ s with reviews := s.reviews.set call { c with answer := some answer } },
        match answer with
        | .ok summary => if summary.isEmpty then [] else [.summaryReady summary]
        | .error () => [])
    | none => (s, [])
  | .cancelRefused => (s, [.timelineEvent
      "Cancellation request failed — daemon will resolve the job eventually" .warning])
  | .emitted event => onEvent s event
  | .notice text => (s, [.timelineEvent text .warning])

/-- The shell after the first `k` of some dispatches; `now` is the clock at each. -/
def dispatched (now : Nat → String) (actions : List ShellAction) (shell : ShellState)
    (k : Nat) : ShellState :=
  (actions.zipIdx.take k).foldl (fun state a => shellReducer (now a.2) state a.1) shell

/-- The app in the middle of a handler. -/
def App.after (now : Nat → String) (s : App) (x : AppInput) (k : Nat) : App :=
  { (s.handle x).1 with shell := dispatched now (s.handle x).2 s.shell k }

def App.step (now : Nat → String) (s : App) (x : AppInput) : App :=
  s.after now x (s.handle x).2.length

/-- The backend's events. -/
inductive Emitted : BackendEvent → Prop
  | approve {execution : PlanExecution} {event : BackendEvent}
      (h : event ∈ approveEvents execution) : Emitted event
  | health (connected : Bool) : Emitted (healthEvent connected)

/-- The controls that are shown, and the answers that are outstanding. -/
def Allowed (s : App) : AppInput → Prop
  | .submit _ => s.shell.mode = .idle
  | .reset => s.shell.mode ≠ .executing
  | .approve => s.shell.mode = .awaitingApproval
  | .cancel => s.shell.mode = .executing ∨ s.shell.mode = .failed
  | .dismiss => s.shell.mode = .reviewing
  | .planSettled call _ => ∃ c, s.plans[call]? = some c ∧ c.answer = none
  | .approvalSettled call _ => ∃ c, s.approvals[call]? = some c ∧ c.settled = false
  | .reviewSettled call _ => ∃ c, s.reviews[call]? = some c ∧ c.answer = none
  | .emitted event => Emitted event
  | .cancelRefused | .notice _ => True

/-- The apps of the runs whose steps all meet `P`. -/
inductive Reached (P : App → AppInput → Prop) : App → Prop
  | start : Reached P initialApp
  | step {s : App} {x : AppInput} (now : Nat → String) (h : Reached P s) (ha : Allowed s x)
      (hp : P s x) : Reached P (s.step now x)

/-! ## Answers and their calls -/

/-- The answer that arrives is the one for the intent submitted last, or an error that
interrupts no execution. -/
def Awaited (s : App) : AppInput → Prop
  | .planSettled call (.ok _) => call + 1 = s.plans.length
  | .planSettled call (.error _) => call + 1 = s.plans.length ∨ s.shell.mode ≠ .executing
  | _ => True

/-- `plan` is the answer to the intent submitted last. -/
def Answers (plans : List PlanCall) (plan : PlanResponse) : Prop :=
  ∃ c, plans.getLast? = some c ∧ c.answer = some (.ok plan)

/-- An `approve_preview` call that has not returned. -/
def InFlight (s : App) (call : Nat) : Prop :=
  ∃ c, s.approvals[call]? = some c ∧ c.settled = false

/-- What is shown while the input `x` is handled at `s` fits the calls. -/
structure Matched (s : App) (x : AppInput) (s' : App) : Prop where
  plan : ∀ p, s'.shell.plan = some p → Answers s'.plans p
  completion : s.shell.mode = .executing → s'.shell.mode ≠ .executing →
    ∃ call answer, x = .approvalSettled call answer ∧ call + 1 = s.approvals.length
  single : ∀ i j, InFlight s' i → InFlight s' j → i = j
  summary : s'.shell.mode = .reviewing → ∀ text, s'.shell.summary = some text →
    ∃ c ∈ s'.reviews, s'.shell.executionResult = some c.executionResult ∧
      c.answer = some (.ok text)

structure AppInv (s : App) : Prop where
  plan : ∀ p, s.shell.plan = some p → Answers s.plans p
  planless : s.shell.plan = none ↔ s.shell.mode.planless = true
  flight : ∀ i, InFlight s i → s.shell.mode = .executing ∧ i + 1 = s.approvals.length
  result : s.pendingExecutionResult = none
  review : s.shell.mode ≠ .reviewing

theorem dispatched_induct {P : ShellState → Prop} {actions : List ShellAction}
    {shell : ShellState} (h : P shell)
    (hstep : ∀ a ∈ actions, ∀ (now : String) (st : ShellState), P st → P (shellReducer now st a))
    (now : Nat → String) (k : Nat) : P (dispatched now actions shell k) := by
  apply List.foldlRecOn
  · exact h
  · intro st hst a ha
    have hmem : a.1 ∈ actions := by
      obtain ⟨i, hi, rfl⟩ := List.getElem_of_mem (List.mem_of_mem_take ha)
      rw [List.getElem_zipIdx]
      exact List.getElem_mem _
    exact hstep a.1 hmem _ st hst

/-! ### What the reducer keeps -/

theorem Turn.planless {s s' : ShellState} {a : ShellAction} (h : Turn s a s')
    (hs : s.plan = none ↔ s.mode.planless = true) :
    s'.plan = none ↔ s'.mode.planless = true := by
  cases h with
  | stay _ hmode hplan _ => rwa [hplan, hmode]
  | ready hmode hplan _ => simp [hmode, hplan, ShellMode.planless]
  | request hfrom hmode hplan _ | approve hfrom hmode hplan _ =>
    rw [hplan, hs, hfrom, hmode]
    rfl
  | finish hfrom hmode hplan _ =>
    rw [hplan, hs, hfrom]
    cases hm : s'.mode <;> simp_all [ShellMode.ended, ShellMode.planless]
  | leave hmode hplan _ => simp [hmode, hplan]

theorem Turn.plan {s s' : ShellState} {a : ShellAction} (h : Turn s a s') {p : PlanResponse}
    (hp : s'.plan = some p) : s.plan = some p ∨ a = .planReady p := by
  cases h with
  | stay _ _ hplan _ | request _ _ hplan _ | approve _ _ hplan _ | finish _ _ hplan _ =>
    exact Or.inl (hplan.symm.trans hp)
  | ready _ hplan _ =>
    rw [hplan] at hp
    rw [Option.some.inj hp]
    exact Or.inr rfl
  | leave _ hplan _ =>
    rw [hplan] at hp
    cases hp

/-- The actions that leave the mode as it is. -/
def ShellAction.keepsMode : ShellAction → Bool
  | .timelineEvent .. | .cancelRequested | .daemonStatusChanged _ | .summaryReady _ => true
  | _ => false

theorem shellReducer_keepsMode {a : ShellAction} (ha : a.keepsMode = true) (now : String)
    (s : ShellState) : (shellReducer now s a).mode = s.mode := by
  cases a with
  | timelineEvent | cancelRequested | daemonStatusChanged => rfl
  | summaryReady text =>
    rw [shellReducer]
    split <;> rfl
  | _ => cases ha

theorem shellReducer_reviewing {a : ShellAction} (ha : ∀ result, a ≠ .executionReviewReady result)
    (now : String) {s : ShellState} (hs : s.mode ≠ .reviewing) :
    (shellReducer now s a).mode ≠ .reviewing := by
  cases a with
  | executionReviewReady result => exact absurd rfl (ha result)
  | jobCompleted outcome =>
    cases outcome with
    | succeeded | canceled =>
      intro h
      cases h
    | needsReboot | failed | rolledBack =>
      rw [shellReducer]
      split
      · exact hs
      · intro h
        cases h
  | requestApproval | approvalGranted =>
    rw [shellReducer]
    split
    · exact hs
    · intro h
      cases h
  | policyErrored _ | summaryReady _ | dismissReview =>
    rw [shellReducer]
    split <;> exact hs
  | timelineEvent | cancelRequested | daemonStatusChanged => exact hs
  | intentSubmitted | planReady | planErrored | reset =>
    intro h
    cases h

/-! ### One input -/

/-- The frontend listens for none of the names that the backend emits under. -/
theorem onEvent_emitted {event : BackendEvent} (h : Emitted event) (s : App) :
    onEvent s event = (s, []) := by
  cases h with
  | approve h =>
    rcases List.mem_append.mp h with h | h
    · obtain ⟨run, -, h⟩ := List.mem_flatMap.mp h
      obtain ⟨text, -, rfl⟩ := List.mem_map.mp h
      rfl
    · simp only [List.mem_cons, List.not_mem_nil, or_false] at h
      rcases h with rfl | rfl <;> rfl
  | health connected => rfl

theorem planActions_ready {intent : String} {answer : Except ShellError PlanResponse}
    {p : PlanResponse} (h : ShellAction.planReady p ∈ planActions intent answer) :
    answer = .ok p := by
  cases answer with
  | error error => simp [planActions] at h
  | ok plan =>
    rw [planActions] at h
    split at h <;> simp_all

theorem planActions_review {intent : String} {answer : Except ShellError PlanResponse}
    {result : ExecutionResult} :
    ShellAction.executionReviewReady result ∉ planActions intent answer := by
  cases answer with
  | error error => simp [planActions]
  | ok plan =>
    rw [planActions]
    split <;> simp

theorem handle_review {s : App} {x : AppInput} (hx : Allowed s x) (result : ExecutionResult) :
    ShellAction.executionReviewReady result ∉ (s.handle x).2 := by
  cases x with
  | planSettled call answer =>
    obtain ⟨c, hc, -⟩ := hx
    simp only [App.handle, hc]
    exact planActions_review
  | approvalSettled call answer =>
    obtain ⟨c, hc, -⟩ := hx
    cases answer <;> simp [App.handle, hc]
  | reviewSettled call answer =>
    obtain ⟨c, hc, -⟩ := hx
    cases answer with
    | error e => simp [App.handle, hc]
    | ok text =>
      simp only [App.handle, hc]
      split <;> simp
  | emitted event => simp [App.handle, onEvent_emitted hx]
  | submit intent | approve =>
    rw [App.handle]
    split <;> simp
  | reset | cancel | dismiss | cancelRefused | notice => simp [App.handle]

/-- A plan is shown only when its answer is there. -/
theorem handle_ready {s : App} {x : AppInput} (hx : Allowed s x)
    (ha : Awaited s x) {p : PlanResponse} (h : ShellAction.planReady p ∈ (s.handle x).2) :
    Answers (s.handle x).1.plans p := by
  cases x with
  | planSettled call answer =>
    obtain ⟨c, hc, -⟩ := hx
    simp only [App.handle, hc] at h ⊢
    obtain rfl := planActions_ready h
    have hlt : call < s.plans.length := (List.getElem?_eq_some_iff.mp hc).1
    refine ⟨{ c with answer := some (.ok p) }, ?_, rfl⟩
    have hlast : call = s.plans.length - 1 := by
      have : call + 1 = s.plans.length := ha
      omega
    rw [List.getLast?_eq_getElem?, List.length_set, ← hlast, List.getElem?_set_self hlt]
  | approvalSettled call answer =>
    obtain ⟨c, hc, -⟩ := hx
    cases answer <;> simp [App.handle, hc] at h
  | reviewSettled call answer =>
    obtain ⟨c, hc, -⟩ := hx
    cases answer with
    | error e => simp [App.handle, hc] at h
    | ok text =>
      simp only [App.handle, hc] at h
      split at h <;> simp at h
  | emitted event => simp [App.handle, onEvent_emitted hx] at h
  | submit intent | approve =>
    rw [App.handle] at h
    split at h <;> simp at h
  | reset | cancel | dismiss | cancelRefused | notice => simp [App.handle] at h

/-- A plan that is shown stays the answer to the last intent. -/
theorem handle_plan {s : App} {x : AppInput} (hs : AppInv s) (hx : Allowed s x)
    {p : PlanResponse} (h : s.shell.plan = some p) : Answers (s.handle x).1.plans p := by
  have hplans := hs.plan p h
  cases x with
  | submit intent =>
    have hmode : s.shell.mode = .idle := hx
    have hnone : s.shell.plan = none := by
      rw [hs.planless, hmode]
      rfl
    rw [hnone] at h
    cases h
  | planSettled call answer =>
    obtain ⟨c, hc, hopen⟩ := hx
    simp only [App.handle, hc]
    obtain ⟨last, hlast, hanswer⟩ := hplans
    refine ⟨last, ?_, hanswer⟩
    rw [List.getLast?_eq_getElem?] at hlast ⊢
    rw [List.length_set, List.getElem?_set_ne]
    · exact hlast
    · intro rfl
      rw [hc] at hlast
      obtain rfl := Option.some.inj hlast
      rw [hopen] at hanswer
      cases hanswer
  | approvalSettled call answer =>
    obtain ⟨c, hc, -⟩ := hx
    simpa only [App.handle, hc] using hplans
  | reviewSettled call answer =>
    obtain ⟨c, hc, -⟩ := hx
    simpa only [App.handle, hc] using hplans
  | emitted event =>
    rw [App.handle, onEvent_emitted hx]
    exact hplans
  | approve =>
    rw [App.handle, h]
    exact hplans
  | reset | cancel | dismiss | cancelRefused | notice => exact hplans

/-- Nothing but the answer to the approval call ends an execution. -/
theorem handle_keepsMode {s : App} {x : AppInput} (hs : AppInv s) (hx : Allowed s x)
    (ha : Awaited s x) (hmode : s.shell.mode = .executing)
    (hne : ∀ call answer, x ≠ .approvalSettled call answer) :
    ∀ a ∈ (s.handle x).2, a.keepsMode = true := by
  cases x with
  | submit intent => exact absurd (hmode.symm.trans hx) (by decide)
  | reset => exact absurd hmode hx
  | approve => exact absurd (hmode.symm.trans hx) (by decide)
  | dismiss => exact absurd (hmode.symm.trans hx) (by decide)
  | cancel => simp [App.handle, ShellAction.keepsMode]
  | planSettled call answer =>
    obtain ⟨c, hc, hopen⟩ := hx
    have hplan : s.shell.plan ≠ none := by
      rw [Ne, hs.planless, hmode]
      decide
    obtain ⟨p, hp⟩ := Option.ne_none_iff_exists'.mp hplan
    obtain ⟨last, hlast, hanswer⟩ := hs.plan p hp
    -- the last call has its answer, and no other one is awaited
    have hcall : call + 1 = s.plans.length := by
      cases answer with
      | ok plan => exact ha
      | error e => exact ha.resolve_right (not_not.mpr hmode)
    rw [List.getLast?_eq_getElem?, ← hcall, Nat.add_sub_cancel, hc] at hlast
    obtain rfl := Option.some.inj hlast
    rw [hopen] at hanswer
    cases hanswer
  | approvalSettled call answer => exact absurd rfl (hne call answer)
  | reviewSettled call answer =>
    obtain ⟨c, hc, -⟩ := hx
    cases answer with
    | error e => simp [App.handle, hc]
    | ok text =>
      simp only [App.handle, hc]
      split <;> simp [ShellAction.keepsMode]
  | cancelRefused => simp [App.handle, ShellAction.keepsMode]
  | emitted event => simp [App.handle, onEvent_emitted hx]
  | notice text => simp [App.handle, ShellAction.keepsMode]

/-- The calls in flight behind an input: the one that it makes, or the one of the
execution that goes on. -/
theorem handle_flight {s : App} {x : AppInput} (hs : AppInv s) (hx : Allowed s x) {i : Nat}
    (h : InFlight (s.handle x).1 i) :
    i + 1 = (s.handle x).1.approvals.length ∧
      (s.shell.mode = .executing ∧ (∀ call answer, x ≠ .approvalSettled call answer) ∨
        x = .approve ∧ s.shell.plan ≠ none) := by
  cases x with
  | approve =>
    have hidle : ∀ j, ¬ InFlight s j := fun j hj =>
      absurd ((hs.flight j hj).1.symm.trans hx) (by decide)
    cases hplan : s.shell.plan with
    | none =>
      simp only [App.handle, hplan] at h
      exact absurd h (hidle i)
    | some plan =>
      simp only [App.handle, hplan, InFlight] at h ⊢
      refine ⟨?_, Or.inr ⟨trivial, nofun⟩⟩
      obtain ⟨c, hc, hopen⟩ := h
      rcases Nat.lt_or_ge i s.approvals.length with hlt | hge
      · rw [List.getElem?_append_left hlt] at hc
        exact absurd ⟨c, hc, hopen⟩ (hidle i)
      · have hlt := (List.getElem?_eq_some_iff.mp hc).1
        rw [List.length_append, List.length_singleton] at hlt ⊢
        omega
  | approvalSettled call answer =>
    obtain ⟨c, hc, hopen⟩ := hx
    simp only [App.handle, hc] at h ⊢
    obtain ⟨d, hd, hd'⟩ := h
    exfalso
    have hlast := (hs.flight call ⟨c, hc, hopen⟩).2
    by_cases hi : call = i
    · subst hi
      rw [List.getElem?_set_self (List.getElem?_eq_some_iff.mp hc).1] at hd
      obtain rfl := Option.some.inj hd
      cases hd'
    · rw [List.getElem?_set_ne hi] at hd
      have hother := (hs.flight i ⟨d, hd, hd'⟩).2
      omega
  | planSettled call answer =>
    obtain ⟨c, hc, -⟩ := hx
    simp only [App.handle, hc] at h ⊢
    obtain ⟨hmode, hlast⟩ := hs.flight i h
    exact ⟨hlast, Or.inl ⟨hmode, nofun⟩⟩
  | reviewSettled call answer =>
    obtain ⟨c, hc, -⟩ := hx
    simp only [App.handle, hc] at h ⊢
    obtain ⟨hmode, hlast⟩ := hs.flight i h
    exact ⟨hlast, Or.inl ⟨hmode, nofun⟩⟩
  | emitted event =>
    rw [App.handle, onEvent_emitted hx] at h ⊢
    obtain ⟨hmode, hlast⟩ := hs.flight i h
    exact ⟨hlast, Or.inl ⟨hmode, nofun⟩⟩
  | submit intent =>
    have hidle : s.shell.mode = .idle := hx
    have hsame : InFlight s i := by
      rw [App.handle] at h
      split at h <;> exact h
    exact absurd ((hs.flight i hsame).1.symm.trans hidle) (by decide)
  | reset | cancel | dismiss | cancelRefused | notice =>
    obtain ⟨hmode, hlast⟩ := hs.flight i h
    exact ⟨hlast, Or.inl ⟨hmode, nofun⟩⟩

/-! ### A handler under way -/

theorem after_review {s : App} {x : AppInput} (hs : AppInv s) (hx : Allowed s x)
    (now : Nat → String) (k : Nat) : (s.after now x k).shell.mode ≠ .reviewing := by
  apply dispatched_induct (P := fun st => st.mode ≠ .reviewing) hs.review
  intro a hmem now st hst
  apply shellReducer_reviewing _ now hst
  intro result rfl
  exact handle_review hx result hmem

theorem after_matched {s : App} {x : AppInput} (hs : AppInv s) (hx : Allowed s x)
    (ha : Awaited s x) (now : Nat → String) (k : Nat) : Matched s x (s.after now x k) := by
  refine ⟨?_, ?_, ?_, ?_⟩
  · apply dispatched_induct (P := fun st => ∀ p, st.plan = some p → Answers (s.handle x).1.plans p)
    · exact fun p hp => handle_plan hs hx hp
    · intro a hmem now st hst p hp
      rcases (shellReducer_turn now st a).plan hp with h | rfl
      · exact hst p h
      · exact handle_ready hx ha hmem
  · intro hmode hleft
    by_contra hne
    push Not at hne
    apply hleft
    have hkeep : ∀ call answer, x ≠ .approvalSettled call answer := by
      intro call answer rfl
      obtain ⟨c, hc, hopen⟩ := hx
      exact hne call answer rfl (hs.flight call ⟨c, hc, hopen⟩).2
    apply dispatched_induct (P := fun st => st.mode = .executing) hmode
    intro a hmem now st hst
    rw [shellReducer_keepsMode (handle_keepsMode hs hx ha hmode hkeep a hmem)]
    exact hst
  · intro i j hi hj
    have hi' := (handle_flight hs hx hi).1
    have hj' := (handle_flight hs hx hj).1
    omega
  · exact fun hmode => absurd hmode (after_review hs hx now k)

theorem handle_result {s : App} {x : AppInput} (hs : AppInv s) (hx : Allowed s x) :
    (s.handle x).1.pendingExecutionResult = none := by
  have h := hs.result
  cases x with
  | emitted event =>
    rw [App.handle, onEvent_emitted hx]
    exact h
  | submit _ | approve =>
    rw [App.handle]
    split <;> exact h
  | planSettled _ _ | approvalSettled _ _ | reviewSettled _ _ =>
    obtain ⟨c, hc, -⟩ := hx
    simp only [App.handle, hc]
    exact h
  | reset | cancel | dismiss | cancelRefused | notice => exact h

theorem AppInv.step {s : App} {x : AppInput} (hs : AppInv s) (hx : Allowed s x)
    (ha : Awaited s x) (now : Nat → String) : AppInv (s.step now x) := by
  have hmatched := after_matched hs hx ha now (s.handle x).2.length
  refine ⟨hmatched.plan, ?_, ?_, handle_result hs hx, ?_⟩
  · apply dispatched_induct (P := fun st => st.plan = none ↔ st.mode.planless = true) hs.planless
    exact fun a _ now st => (shellReducer_turn now st a).planless
  · intro i hi
    obtain ⟨hlast, hcase⟩ := handle_flight hs hx hi
    refine ⟨?_, hlast⟩
    rcases hcase with ⟨hmode, hne⟩ | ⟨rfl, hplan⟩
    · by_contra hleft
      obtain ⟨call, answer, rfl, -⟩ := hmatched.completion hmode hleft
      exact hne call answer rfl
    · obtain ⟨plan, hplan⟩ := Option.ne_none_iff_exists'.mp hplan
      have hmode : s.shell.mode = .awaitingApproval := hx
      simp [App.step, App.after, App.handle, dispatched, hplan, shellReducer, hmode,
        appendTimeline, ShellState.next]
  · exact after_review hs hx now _

theorem appInv_initial : AppInv initialApp := by
  refine ⟨nofun, by decide, ?_, rfl, by decide⟩
  rintro i ⟨c, hc, -⟩
  cases hc

theorem reached_inv {s : App} (h : Reached Awaited s) : AppInv s := by
  induction h with
  | start => exact appInv_initial
  | step now _ hx ha ih => exact ih.step hx ha now

/-- As long as no answer of an earlier `requestPlan` is mistaken for one to the last
intent, and none interrupts an execution, what is shown fits the calls; this holds in
the middle of a handler too. -/
theorem shell_responses_matched {s : App} {x : AppInput} (h : Reached Awaited s)
    (hx : Allowed s x) (ha : Awaited s x) (now : Nat → String) (k : Nat) :
    Matched s x (s.after now x k) :=
  after_matched (reached_inv h) hx ha now k

def diskPlan : PlanResponse where
  summary := "Show disk usage"
  explanation := ""
  approvalRequired := false
  steps := [⟨"GetDiskUsage", "Read disk usage", .low, false, .object []⟩]
  hostName := ""
  deployment := ""
  toolboxCount := 0
  flatpakCount := 0

/-- The plan of the only intent is shown. -/
theorem shell_responses_matched_disk :
    Matched (initialApp.step (fun _ => "") (.submit "disk usage")) (.planSettled 0 (.ok diskPlan))
      ((initialApp.step (fun _ => "") (.submit "disk usage")).after (fun _ => "")
        (.planSettled 0 (.ok diskPlan)) 2) := by
  apply shell_responses_matched
  · exact .step _ .start rfl trivial
  · exact ⟨_, rfl, rfl⟩
  · rfl

/-- An intent is given up by Reset, another one is submitted, and the answer to the
first comes in. -/
theorem late_plan_shown :
    ¬ ∀ (s : App) (x : AppInput), Reached (fun _ _ => True) s → Allowed s x →
      ∀ (now : Nat → String) (k : Nat), Matched s x (s.after now x k) := by
  intro h
  let now : Nat → String := fun _ => ""
  have hreached : Reached (fun _ _ => True)
      (((initialApp.step now (.submit "disk usage")).step now .reset).step now
        (.submit "reboot")) := by
    refine .step now (.step now (.step now .start rfl trivial) ?_ trivial) ?_ trivial
    · exact (by decide : ShellMode.planning ≠ .executing)
    · rfl
  obtain ⟨c, hc, hanswer⟩ := (h _ (.planSettled 0 (.ok diskPlan)) hreached ⟨_, rfl, rfl⟩ now 2).plan
    diskPlan rfl
  obtain rfl := Option.some.inj hc
  cases hanswer

/-! ## Reports of success -/

/-- `job_completed` with `succeeded`, or a review of a result with that outcome. -/
def ShellAction.reportsSuccess : ShellAction → Bool
  | .jobCompleted outcome => outcome = .succeeded
  | .executionReviewReady result => result.outcome = "succeeded"
  | _ => false

/-- Among the dispatches for `x` is a report of success while `plan` is shown. -/
def ReportsSuccess (now : Nat → String) (s : App) (x : AppInput) (plan : PlanResponse) : Prop :=
  ∃ k a, (s.handle x).2[k]? = some a ∧ a.reportsSuccess = true ∧
    (s.after now x k).shell.plan = some plan

/-- What the calls of `approve_preview` have done so far, call by call; `daemon` is the
behaviour of the daemon in each call. -/
def App.executed (socketPath : String) (daemon : Nat → Nat → StepWorld) (s : App) :
    List (PlanStepRequest × StepRun) :=
  s.approvals.zipIdx.flatMap fun c => (approveExecution socketPath (daemon c.2) c.1.steps).runs

/-- The steps were sent one after the other, and each succeeded. -/
def AllSucceeded (steps : List PlanStepRequest) (runs : List (PlanStepRequest × StepRun)) : Prop :=
  runs.map Prod.fst = steps ∧ ∀ run ∈ runs, run.2.succeeded

def BackendEvent.reportsSuccess (event : BackendEvent) : Bool :=
  match event.payload with
  | .outcome outcome => outcome = .succeeded
  | .result result => result.outcome = "succeeded"
  | _ => false

/-- Reports of success about `plan` are true, and no step of it is executed behind one
that did not succeed. -/
structure Truthful (plan : PlanResponse) : Prop where
  reports : ∀ (socketPath : String) (daemon : Nat → Nat → StepWorld) (s : App) (x : AppInput)
    (now : Nat → String), Reached (fun _ _ => True) s → Allowed s x →
    ReportsSuccess now s x plan →
    ∃ runs, runs <:+: s.executed socketPath daemon ∧ AllSucceeded plan.requests runs
  events : ∀ (socketPath : String) (world : Nat → StepWorld) (event : BackendEvent),
    event ∈ approveEvents (approveExecution socketPath world plan.requests) →
    event.reportsSuccess = true →
    AllSucceeded plan.requests (approveExecution socketPath world plan.requests).runs
  stops : ∀ (socketPath : String) (world : Nat → StepWorld),
    StopsAtFailure plan.requests (approveExecution socketPath world plan.requests)

/-- Only the answer with a plan that needs no approval makes the frontend report a
success. -/
theorem handle_reportsSuccess {s : App} {x : AppInput} (hx : Allowed s x) {a : ShellAction}
    (ha : a ∈ (s.handle x).2) (hreport : a.reportsSuccess = true) :
    ∃ call c plan, x = .planSettled call (.ok plan) ∧ s.plans[call]? = some c ∧
      plan.approvalRequired = false := by
  cases x with
  | planSettled call answer =>
    obtain ⟨c, hc, -⟩ := hx
    simp only [App.handle, hc] at ha
    cases answer with
    | error e =>
      simp only [planActions, List.mem_cons, List.not_mem_nil, or_false] at ha
      rcases ha with rfl | rfl <;> cases hreport
    | ok plan =>
      refine ⟨call, c, plan, rfl, hc, ?_⟩
      by_contra hne
      simp only [planActions, Bool.not_eq_false] at ha hne
      simp only [hne, if_true, List.cons_append, List.nil_append, List.mem_cons,
        List.not_mem_nil, or_false] at ha
      rcases ha with rfl | rfl | rfl <;> cases hreport
  | approvalSettled call answer =>
    obtain ⟨c, hc, -⟩ := hx
    simp only [App.handle, hc] at ha
    cases answer with
    | ok u =>
      obtain rfl := List.mem_singleton.mp ha
      cases hreport
    | error e =>
      simp only [List.mem_cons, List.not_mem_nil, or_false] at ha
      rcases ha with rfl | rfl | rfl <;> cases hreport
  | reviewSettled call answer =>
    obtain ⟨c, hc, -⟩ := hx
    simp only [App.handle, hc] at ha
    cases answer with
    | error e => cases ha
    | ok text =>
      dsimp only at ha
      split at ha
      · cases ha
      · obtain rfl := List.mem_singleton.mp ha
        cases hreport
  | emitted event =>
    rw [App.handle, onEvent_emitted hx] at ha
    cases ha
  | submit intent | approve =>
    rw [App.handle] at ha
    split at ha <;> simp only [List.mem_singleton, List.not_mem_nil] at ha
    subst ha
    cases hreport
  | reset | cancel | dismiss | cancelRefused | notice =>
    simp only [App.handle, List.mem_singleton] at ha
    try subst ha
    try cases hreport

/-- The plan that is shown when a plan without approval is reported as completed. -/
theorem reportsSuccess_plan {s : App} {call : Nat} {c : PlanCall} {p plan : PlanResponse}
    (hc : s.plans[call]? = some c) (happroval : p.approvalRequired = false)
    {now : Nat → String} (h : ReportsSuccess now s (.planSettled call (.ok p)) plan) :
    p = plan := by
  obtain ⟨k, a, ha, hreport, hplan⟩ := h
  have hactions : (s.handle (.planSettled call (.ok p))).2 =
      [.daemonStatusChanged .connected, .planReady p,
        .timelineEvent ("Read-only plan completed: " ++ c.intent) .success,
        .jobCompleted .succeeded] := by
    simp [App.handle, hc, planActions, happroval]
  rw [hactions] at ha
  rw [App.after, hactions] at hplan
  rcases k with - | - | - | - | k
  · cases ha
    cases hreport
  · cases ha
    cases hreport
  · cases ha
    cases hreport
  · exact Option.some.inj hplan
  · cases ha

theorem approveEvents_reportsSuccess {execution : PlanExecution} {event : BackendEvent}
    (h : event ∈ approveEvents execution) (hreport : event.reportsSuccess = true) :
    execution.finalStatus = "succeeded" := by
  rcases List.mem_append.mp h with h | h
  · obtain ⟨run, -, h⟩ := List.mem_flatMap.mp h
    obtain ⟨text, -, rfl⟩ := List.mem_map.mp h
    cases hreport
  · simp only [List.mem_cons, List.not_mem_nil, or_false] at h
    rcases h with rfl | rfl
    · exact of_decide_eq_true hreport
    · have houtcome : outcomeOf execution.finalStatus = .succeeded := of_decide_eq_true hreport
      unfold outcomeOf at houtcome
      split at houtcome
      · assumption
      · split at houtcome
        · cases houtcome
        · split at houtcome <;> cases houtcome

/-- A plan that needs no approval is reported as completed although no step of it was
sent. -/
theorem unsent_plan_reported {plan : PlanResponse} (happroval : plan.approvalRequired = false)
    (hsteps : plan.steps ≠ []) : ¬ Truthful plan := by
  intro h
  let now : Nat → String := fun _ => ""
  -- the plan answers the only intent, and no approval was asked for
  let s := initialApp.step now (.submit "status")
  have hreports : ReportsSuccess now s (.planSettled 0 (.ok plan)) plan := by
    refine ⟨3, .jobCompleted .succeeded, ?_, rfl, ?_⟩
    · simp [s, App.handle, App.step, App.after, initialApp, planActions, happroval]
    · simp [s, App.handle, App.step, App.after, initialApp, planActions, happroval, dispatched,
        shellReducer, appendTimeline, ShellState.next]
  let world : StepWorld := ⟨.error .timedOut, .ok (), .error .timedOut, .ok (), [], .timedOut⟩
  obtain ⟨runs, hwithin, hfst, -⟩ := h.reports "" (fun _ _ => world) s
    (.planSettled 0 (.ok plan)) now (.step now .start rfl trivial) ⟨_, rfl, rfl⟩ hreports
  have hruns : runs = [] := List.infix_nil.mp hwithin
  rw [hruns, PlanResponse.requests] at hfst
  exact hsteps (List.map_eq_nil_iff.mp hfst.symm)

/-- Reports about a plan are true exactly if it needs approval or has no step. -/
theorem shell_truthful_iff (plan : PlanResponse) :
    Truthful plan ↔ plan.approvalRequired = true ∨ plan.steps = [] := by
  constructor
  · intro h
    by_contra hne
    push Not at hne
    exact unsent_plan_reported (Bool.not_eq_true _ ▸ hne.1) hne.2 h
  · intro h
    refine ⟨?_, ?_, fun socketPath world => approveExecution_stops socketPath world _⟩
    · intro socketPath daemon s x now _ hx hreports
      obtain ⟨k, a, ha, hreport, hshown⟩ := hreports
      obtain ⟨call, c, p, rfl, hc, happroval⟩ :=
        handle_reportsSuccess hx (List.mem_of_getElem? ha) hreport
      obtain rfl := reportsSuccess_plan hc happroval ⟨k, a, ha, hreport, hshown⟩
      rcases h with h | h
      · rw [happroval] at h
        cases h
      · exact ⟨[], List.nil_infix, by simp [PlanResponse.requests, h], by simp⟩
    · intro socketPath world event hevent hreport
      exact (approveExecution_stops socketPath world _).complete
        (approveEvents_reportsSuccess hevent hreport)

theorem diskPlan_not_truthful : ¬ ∀ plan, Truthful plan :=
  fun h => unsent_plan_reported rfl (List.cons_ne_nil _ _) (h diskPlan)

end Sysknife
