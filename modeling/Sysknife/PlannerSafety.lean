import Sysknife.PlannerRun

/-!
# What a run of the planner may do

Which requests a run sends, which calls of a response it performs, and how it ends.
-/

namespace Sysknife

open Interaction

/-- The events up to the next turn. -/
def behind (events : List PlannerCall) : List PlannerCall :=
  events.takeWhile fun event => match event.op with
    | .emit .thinking => false
    | _ => true

/-- The calls in order and each once, up to the first one that ends the run. -/
inductive Performed (lib : PlannerLib) (planner : LlmPlanner) (intent : String) :
    List ToolCall → List PlannerCall → Prop where
  | nil : Performed lib planner intent [] []
  | last {call : ToolCall} {calls : List ToolCall} {events : List PlannerCall}
      (ops : events.map (·.op) = callOps lib planner intent call)
      (stops : Stops lib intent call events) :
      Performed lib planner intent (call :: calls) events
  | next {call : ToolCall} {calls : List ToolCall} {events rest : List PlannerCall}
      (ops : events.map (·.op) = callOps lib planner intent call)
      (goesOn : ¬ Stops lib intent call events)
      (following : Performed lib planner intent calls rest) :
      Performed lib planner intent (call :: calls) (events ++ rest)

/-- The last response proposes the plan. -/
def Proposed (lib : PlannerLib) (intent : String) (events : List PlannerCall) (plan : Plan) :
    Prop :=
  ∃ pre system messages completion post call,
    events = pre ++ ⟨.complete system messages, .ok completion⟩ :: post ∧
    (∀ event ∈ post, isRequest event.op = false) ∧ call ∈ completion.calls ∧
    call.name = "propose_plan" ∧
    parseProposedPlan lib.parseJson lib.debugStr intent call.input = .ok plan

/-- A run of the planner as it should be. -/
structure RunSafe (lib : PlannerLib) (planner : LlmPlanner) (intent : String)
    (events : List PlannerCall) (outcome : PlanOutcome) : Prop where
  refused : Refused lib intent events → ∀ event ∈ events, isRequest event.op = false
  bounded : events.countP (fun event => isRequest event.op) ≤ planner.maxTurns
  returns : ∃ result, outcome = some result
  proposed : ∀ plan, outcome = some (.ok plan) →
    Proposed lib (trimmed intent) events plan ∧ plan.intent = trimmed intent ∧
      plan.steps ≠ [] ∧ ∀ step ∈ plan.steps, InCatalogue step ∧ step.summary ≠ ""
  stateFailed : (∃ event ∈ events, StateFailed event) → ∃ e, outcome = some (.error e)
  performed : ∀ pre system messages completion post,
    events = pre ++ ⟨.complete system messages, .ok completion⟩ :: post →
    completion.stopReason = .toolUse →
    Performed lib planner (trimmed intent) completion.calls (behind post)

section Safety
variable {lib : PlannerLib} {planner : LlmPlanner} {intent : String} {system : List Char}
  {messages : List Message} {events : List PlannerCall} {outcome : PlanOutcome}

/-! ## The calls of a response -/

theorem Ending.append {call : ToolCall} {first : List PlannerCall}
    (h : Ending lib intent call events outcome) (hsafe : ClientSafe first)
    (hgiven : ∀ event ∈ first, ¬ StateFailed event) :
    Ending lib intent call (first ++ events) outcome := by
  cases h with
  | plan name parsed given safe =>
    exact .plan name parsed (List.forall_mem_append.mpr ⟨hgiven, given⟩)
      (clientSafe_append.mpr ⟨hsafe, safe⟩)
  | stateFailed failed safe =>
    obtain ⟨event, hevent, hfailed⟩ := failed
    exact .stateFailed ⟨event, List.mem_append_right _ hevent, hfailed⟩
      (clientSafe_append.mpr ⟨hsafe, safe⟩)
  | panicked unsafe_text => exact .panicked fun h => unsafe_text (clientSafe_append.mp h).2

theorem Batch.goesOn {calls : List ToolCall} {results : List ToolResultBlock}
    (h : Batch lib planner intent calls events (.ok results)) :
    ClientSafe events ∧ (∀ event ∈ events, ¬ StateFailed event) ∧
      Performed lib planner intent calls events := by
  generalize hout : Except.ok results = out at h
  induction h generalizing results with
  | nil => exact ⟨clientSafe_nil, fun _ hevent => (List.not_mem_nil hevent).elim, .nil⟩
  | stop => cases hout
  | next answered following ih =>
    rename_i out
    cases out with
    | error outcome => cases hout
    | ok others =>
      obtain ⟨hsafe, hgiven, hperformed⟩ := ih rfl
      obtain ⟨hgoesOn, hfirst⟩ := performCall_goesOn answered
      refine ⟨clientSafe_append.mpr ⟨hfirst, hsafe⟩, ?_, ?_⟩
      · refine List.forall_mem_append.mpr ⟨fun event hevent hfailed => ?_, hgiven⟩
        exact hgoesOn (Or.inr ⟨event, hevent, hfailed⟩)
      · exact .next (performCall_ops answered) hgoesOn hperformed

theorem Batch.ending {calls : List ToolCall}
    (h : Batch lib planner intent calls events (.error outcome)) :
    (∃ call ∈ calls, Ending lib intent call events outcome) ∧
      (ClientSafe events → Performed lib planner intent calls events) := by
  generalize hout : Except.error outcome = out at h
  induction h with
  | nil => cases hout
  | stop ended =>
    cases hout
    have hending := performCall_ending ended
    refine ⟨⟨_, List.mem_cons_self, hending⟩, fun hsafe => .last (performCall_ops ended) ?_⟩
    cases hending with
    | plan name parsed => exact Or.inl ⟨name, _, parsed⟩
    | stateFailed failed => exact Or.inr failed
    | panicked unsafe_text => exact absurd hsafe unsafe_text
  | next answered following ih =>
    rename_i out
    cases out with
    | ok others => cases hout
    | error outcome' =>
      cases hout
      obtain ⟨⟨call, hcall, hending⟩, hperformed⟩ := ih rfl
      obtain ⟨hgoesOn, hfirst⟩ := performCall_goesOn answered
      have hgiven : ∀ event ∈ _, ¬ StateFailed event :=
        fun event hevent hfailed => hgoesOn (Or.inr ⟨event, hevent, hfailed⟩)
      refine ⟨⟨call, List.mem_cons_of_mem _ hcall, hending.append hfirst hgiven⟩, fun hsafe => ?_⟩
      exact .next (performCall_ops answered) hgoesOn (hperformed (clientSafe_append.mp hsafe).2)

/-! ## The events of a turn -/

theorem asked_safe {answer : Except ProviderError Completion} :
    ClientSafe (asked system messages answer ++ events) ↔ ClientSafe events := by
  rw [clientSafe_append]
  refine and_iff_right ?_
  intro event hevent text htext
  rcases List.mem_cons.mp hevent with rfl | hevent
  · cases htext
  · rw [List.mem_singleton.mp hevent] at htext
    cases htext

theorem asked_failed {answer : Except ProviderError Completion} :
    (∃ event ∈ asked system messages answer ++ events, StateFailed event) ↔
      ∃ event ∈ events, StateFailed event := by
  constructor
  · rintro ⟨event, hevent, e, rfl⟩
    rcases List.mem_append.mp hevent with hevent | hevent
    · rcases List.mem_cons.mp hevent with heq | hevent
      · cases heq
      · cases List.mem_singleton.mp hevent
    · exact ⟨_, hevent, e, rfl⟩
  · rintro ⟨event, hevent, hfailed⟩
    exact ⟨event, List.mem_append_right _ hevent, hfailed⟩

theorem toolOp_not_request {op : PlannerOp} (h : isToolOp op = true) : isRequest op = false := by
  cases op <;> first | rfl | cases h

theorem behind_append {first rest : List PlannerCall}
    (hfirst : ∀ event ∈ first, isToolOp event.op = true) (hrest : behind rest = []) :
    behind (first ++ rest) = first := by
  rw [behind, List.takeWhile_append_of_pos, ← behind, hrest, List.append_nil]
  intro event hevent
  have htool := hfirst event hevent
  split
  · next hop =>
    rw [hop] at htool
    cases htool
  · rfl

/-- A response within a turn and what follows is that of the turn, or it follows. -/
theorem asked_split {answer : Except ProviderError Completion}
    {first rest pre post : List PlannerCall} {system' : List Char} {messages' : List Message}
    {completion : Completion}
    (hfirst : ∀ event ∈ first, isToolOp event.op = true)
    (h : asked system messages answer ++ (first ++ rest) =
      pre ++ ⟨.complete system' messages', .ok completion⟩ :: post) :
    (answer = .ok completion ∧ post = first ++ rest) ∨
      ∃ mid, rest = mid ++ ⟨.complete system' messages', .ok completion⟩ :: post := by
  rcases split_append h with ⟨mid, hasked, rfl⟩ | ⟨mid, rfl, hrest⟩
  · rcases pre with _ | ⟨event, _ | ⟨event', pre⟩⟩
    · cases hasked
    · cases hasked
      exact Or.inl ⟨rfl, rfl⟩
    · have hlength := congrArg List.length hasked
      simp [asked] at hlength
  · rcases split_append hrest with ⟨mid', rfl, -⟩ | ⟨mid', -, hrest⟩
    · have hcomplete := hfirst _ (List.mem_append_right _ List.mem_cons_self)
      cases hcomplete
    · exact Or.inr ⟨mid', hrest⟩

/-! ## Runs -/

theorem GoesOn.toolOp {round : PlanRound} (h : GoesOn lib planner intent round events) :
    ∀ event ∈ events, isToolOp event.op = true := by
  cases h with
  | corrected => exact fun _ hevent => (List.not_mem_nil hevent).elim
  | answered reason calls => exact calls.toolOp

theorem GoesOn.clean {round : PlanRound} (h : GoesOn lib planner intent round events) :
    ClientSafe events ∧ ∀ event ∈ events, ¬ StateFailed event := by
  cases h with
  | corrected => exact ⟨clientSafe_nil, fun _ hevent => (List.not_mem_nil hevent).elim⟩
  | answered reason calls => exact ⟨calls.goesOn.1, calls.goesOn.2.1⟩

/-- A last turn ends without a plan, or with one of its calls. -/
theorem LastTurn.cases (h : LastTurn lib planner intent system messages events outcome) :
    (∃ answer e, events = asked system messages answer ∧ outcome = some (.error e) ∧
      ∀ completion, answer = .ok completion → completion.stopReason = .toolUse →
        completion.calls = []) ∨
    ∃ completion rest, events = asked system messages (.ok completion) ++ rest ∧
      Batch lib planner intent completion.calls rest (.error outcome) := by
  cases h with
  | provider => exact Or.inl ⟨_, _, rfl, rfl, fun _ hanswer => by cases hanswer⟩
  | noPlan idle =>
    refine Or.inl ⟨_, _, rfl, rfl, fun completion hanswer => ?_⟩
    cases hanswer
    exact idle
  | stopped reason calls => exact Or.inr ⟨_, _, rfl, calls⟩

theorem Finishes.bounded {turns : Nat}
    (h : Finishes lib planner intent system turns messages events outcome) :
    events.countP (fun event => isRequest event.op) ≤ turns := by
  have hquiet : ∀ {tail : List PlannerCall}, (∀ event ∈ tail, isToolOp event.op = true) →
      tail.countP (fun event => isRequest event.op) = 0 := by
    intro tail htail
    refine List.countP_eq_zero.mpr fun event hevent => ?_
    rw [toolOp_not_request (htail event hevent)]
    exact Bool.false_ne_true
  have hasked : ∀ {messages : List Message} {answer : Except ProviderError Completion},
      (asked system messages answer).countP (fun event => isRequest event.op) = 1 := rfl
  induction h with
  | stuck => exact Nat.le_refl 0
  | last turn =>
    rcases turn.cases with ⟨answer, e, rfl, -⟩ | ⟨completion, rest, rfl, hcalls⟩
    · rw [hasked]
      omega
    · rw [List.countP_append, hasked, hquiet hcalls.toolOp]
      omega
  | next turn following ih =>
    rw [List.countP_append, List.countP_append, hasked, hquiet turn.toolOp]
    omega

/-- A run returns exactly if `strip_ansi` does. -/
theorem Finishes.returns_iff {turns : Nat}
    (h : Finishes lib planner intent system turns messages events outcome) :
    (∃ result, outcome = some result) ↔ ClientSafe events := by
  induction h with
  | stuck => exact iff_of_true ⟨_, rfl⟩ clientSafe_nil
  | last turn =>
    rcases turn.cases with ⟨answer, e, rfl, rfl, -⟩ | ⟨completion, rest, rfl, hcalls⟩
    · rw [← List.append_nil (asked _ _ _), asked_safe]
      exact iff_of_true ⟨_, rfl⟩ clientSafe_nil
    · rw [asked_safe]
      obtain ⟨call, -, hending⟩ := hcalls.ending.1
      cases hending with
      | plan name parsed given safe => exact iff_of_true ⟨_, rfl⟩ safe
      | stateFailed failed safe => exact iff_of_true ⟨_, rfl⟩ safe
      | panicked unsafe_text =>
        refine iff_of_false ?_ unsafe_text
        rintro ⟨result, hresult⟩
        cases hresult
  | next turn following ih =>
    rw [asked_safe, clientSafe_append, and_iff_right turn.clean.1]
    exact ih

theorem Finishes.stateFailed {turns : Nat}
    (h : Finishes lib planner intent system turns messages events outcome)
    (hfailed : ∃ event ∈ events, StateFailed event) (hsafe : ClientSafe events) :
    ∃ e, outcome = some (.error e) := by
  induction h with
  | stuck => exact ⟨_, rfl⟩
  | last turn =>
    rcases turn.cases with ⟨answer, e, rfl, rfl, -⟩ | ⟨completion, rest, rfl, hcalls⟩
    · exact ⟨_, rfl⟩
    · rw [asked_safe] at hsafe
      rw [asked_failed] at hfailed
      obtain ⟨event, hevent, hfailed⟩ := hfailed
      obtain ⟨call, -, hending⟩ := hcalls.ending.1
      cases hending with
      | plan name parsed given => exact absurd hfailed (given event hevent)
      | stateFailed => exact ⟨_, rfl⟩
      | panicked unsafe_text => exact absurd hsafe unsafe_text
  | next turn following ih =>
    rw [asked_safe, clientSafe_append] at hsafe
    obtain ⟨event, hevent, hfailed⟩ := asked_failed.mp hfailed
    refine ih ?_ hsafe.2
    rcases List.mem_append.mp hevent with hevent | hevent
    · exact absurd hfailed (turn.clean.2 event hevent)
    · exact ⟨event, hevent, hfailed⟩

theorem Proposed.append {plan : Plan} (h : Proposed lib intent events plan)
    (first : List PlannerCall) : Proposed lib intent (first ++ events) plan := by
  obtain ⟨pre, system, messages, completion, post, call, rfl, hrest⟩ := h
  exact ⟨first ++ pre, system, messages, completion, post, call, (List.append_assoc ..).symm, hrest⟩

theorem Finishes.proposed {turns : Nat} {plan : Plan}
    (h : Finishes lib planner intent system turns messages events outcome)
    (hplan : outcome = some (.ok plan)) : Proposed lib intent events plan := by
  induction h with
  | stuck => cases hplan
  | last turn =>
    rcases turn.cases with ⟨answer, e, rfl, rfl, -⟩ | ⟨completion, rest, rfl, hcalls⟩
    · cases hplan
    · obtain ⟨call, hcall, hending⟩ := hcalls.ending.1
      cases hending with
      | plan name parsed =>
        cases hplan
        refine ⟨[⟨.emit .thinking, ()⟩], _, _, completion, rest, call, rfl, ?_, hcall, name, parsed⟩
        exact fun event hevent => toolOp_not_request (hcalls.toolOp event hevent)
      | stateFailed | panicked => cases hplan
  | next turn following ih =>
    exact ((ih hplan).append _).append _

/-- Behind a turn is nothing or another one. -/
theorem Finishes.behind_nil {turns : Nat}
    (h : Finishes lib planner intent system turns messages events outcome) :
    behind events = [] := by
  cases h with
  | stuck => rfl
  | last turn =>
    rcases turn.cases with ⟨answer, e, rfl, -⟩ | ⟨completion, rest, rfl, -⟩ <;> rfl
  | next => rfl

theorem Finishes.performed {turns : Nat}
    (h : Finishes lib planner intent system turns messages events outcome)
    (hsafe : ClientSafe events) {pre post : List PlannerCall} {system' : List Char}
    {messages' : List Message} {completion : Completion}
    (hsplit : events = pre ++ ⟨.complete system' messages', .ok completion⟩ :: post)
    (hreason : completion.stopReason = .toolUse) :
    Performed lib planner intent completion.calls (behind post) := by
  induction h generalizing pre with
  | stuck => cases List.append_eq_nil_iff.mp hsplit.symm |>.2
  | last turn =>
    rcases turn.cases with ⟨answer, e, rfl, -, hidle⟩ | ⟨answered, rest, rfl, hcalls⟩
    · rw [← List.append_nil (asked _ _ _), ← List.append_nil []] at hsplit
      rcases asked_split (fun _ hevent => (List.not_mem_nil hevent).elim) hsplit with
        ⟨hanswer, rfl⟩ | ⟨mid, hmid⟩
      · rw [hidle completion hanswer hreason]
        exact .nil
      · cases (List.append_eq_nil_iff.mp hmid.symm).2
    · rw [← List.append_nil rest] at hsplit
      rcases asked_split hcalls.toolOp hsplit with ⟨hanswer, rfl⟩ | ⟨mid, hmid⟩
      · cases hanswer
        rw [behind_append hcalls.toolOp rfl]
        exact hcalls.ending.2 (asked_safe.mp hsafe)
      · cases (List.append_eq_nil_iff.mp hmid.symm).2
  | next turn following ih =>
    rw [asked_safe, clientSafe_append] at hsafe
    rcases asked_split turn.toolOp hsplit with ⟨hanswer, rfl⟩ | ⟨mid, hmid⟩
    · rw [behind_append turn.toolOp following.behind_nil]
      cases turn with
      | corrected reason =>
        cases hanswer
        cases reason.symm.trans hreason
      | answered reason calls =>
        cases hanswer
        exact calls.goesOn.2.2
    · exact ih hsafe.2 hmid

theorem Finishes.not_limited {turns : Nat}
    (h : Finishes lib planner intent system turns messages events outcome) :
    ∀ event ∈ events, event.op ≠ .checkAndConsume := by
  have htool : ∀ {tail : List PlannerCall}, (∀ event ∈ tail, isToolOp event.op = true) →
      ∀ event ∈ tail, event.op ≠ .checkAndConsume := by
    intro tail htail event hevent heq
    have hop := htail event hevent
    rw [heq] at hop
    cases hop
  have hasked : ∀ {messages : List Message} {answer : Except ProviderError Completion},
      ∀ event ∈ asked system messages answer, event.op ≠ .checkAndConsume := by
    intro messages answer event hevent heq
    rcases List.mem_cons.mp hevent with rfl | hevent
    · cases heq
    · rw [List.mem_singleton.mp hevent] at heq
      cases heq
  induction h with
  | stuck => exact fun _ hevent => (List.not_mem_nil hevent).elim
  | last turn =>
    rcases turn.cases with ⟨answer, e, rfl, -⟩ | ⟨completion, rest, rfl, hcalls⟩
    · exact hasked
    · exact List.forall_mem_append.mpr ⟨hasked, htool hcalls.toolOp⟩
  | next turn following ih =>
    exact List.forall_mem_append.mpr
      ⟨hasked, List.forall_mem_append.mpr ⟨htool turn.toolOp, ih⟩⟩

/-! ## From the intent on -/

theorem opening_plain {front : List PlannerCall} (h : ∀ event ∈ front, Opening event) :
    ∀ event ∈ front, isRequest event.op = false ∧ ¬ AsksClient event.op := by
  rintro ⟨op, answer⟩ hevent
  rcases h _ hevent with heq | hop
  · cases heq
    exact ⟨rfl, id⟩
  · obtain rfl : op = .readPrefs := hop
    exact ⟨rfl, id⟩

theorem stateFailed_asks {event : PlannerCall} (h : StateFailed event) : AsksClient event.op := by
  obtain ⟨e, rfl⟩ := h
  trivial

/-- A run that the checks have ended. -/
theorem runSafe_of_refused {e : PlanningError}
    (h : ∀ event ∈ events, ∃ answer, event = ⟨.checkAndConsume, answer⟩) :
    RunSafe lib planner intent events (some (.error e)) ∧ ClientSafe events := by
  have hplain : ∀ event ∈ events, isRequest event.op = false ∧ ¬ AsksClient event.op := by
    intro event hevent
    obtain ⟨answer, rfl⟩ := h event hevent
    exact ⟨rfl, id⟩
  refine ⟨⟨fun _ event hevent => (hplain event hevent).1, ?_, ⟨_, rfl⟩, ?_, fun _ => ⟨_, rfl⟩, ?_⟩,
    clientSafe_quiet fun event hevent => (hplain event hevent).2⟩
  · rw [List.countP_eq_zero.mpr fun event hevent => by rw [(hplain event hevent).1]; decide]
    exact Nat.zero_le _
  · intro plan hplan
    cases hplan
  · rintro pre system messages completion post rfl -
    cases (hplain _ (List.mem_append_right _ List.mem_cons_self)).1

/-- A run past the checks is as it should be exactly if the texts of the state client are. -/
theorem runSafe_iff_of_finishes {front rest : List PlannerCall}
    (hfront : ∀ event ∈ front, Opening event) (hpassed : ¬ Refused lib intent [])
    (h : Finishes lib planner (trimmed intent) system planner.maxTurns messages rest outcome) :
    RunSafe lib planner intent (front ++ rest) outcome ↔ ClientSafe (front ++ rest) := by
  have hplain := opening_plain hfront
  have hsafe : ClientSafe (front ++ rest) ↔ ClientSafe rest := by
    rw [clientSafe_append]
    exact and_iff_right (clientSafe_quiet fun event hevent => (hplain event hevent).2)
  rw [hsafe]
  constructor
  · intro hrun
    exact h.returns_iff.mp hrun.returns
  · intro hrest
    refine ⟨?_, ?_, h.returns_iff.mpr hrest, ?_, ?_, ?_⟩
    · rintro (hno | hno | hno | hno)
      · exact absurd (.empty hno) hpassed
      · exact absurd (.tooLong hno) hpassed
      · exact absurd (.sensitive hno) hpassed
      · rcases List.mem_append.mp hno with hno | hno
        · rcases hfront _ hno with heq | hop
          · cases heq
          · cases hop
        · exact absurd rfl (h.not_limited _ hno)
    · rw [List.countP_append, List.countP_eq_zero.mpr fun event hevent => by
        rw [(hplain event hevent).1]; decide, Nat.zero_add]
      exact h.bounded
    · intro plan hplan
      have hproposed := h.proposed hplan
      obtain ⟨pre, system, messages, completion, post, call, -, -, -, -, hparsed⟩ := hproposed
      obtain ⟨hintent, hsteps⟩ := parseProposedPlan_ok _ _ _ _ _ hparsed
      exact ⟨(h.proposed hplan).append front, hintent, plan.steps_ne, fun step hstep =>
        ⟨hsteps step hstep, step.summary_ne⟩⟩
    · rintro ⟨event, hevent, hfailed⟩
      rcases List.mem_append.mp hevent with hevent | hevent
      · exact absurd (stateFailed_asks hfailed) (hplain event hevent).2
      · exact h.stateFailed ⟨event, hevent, hfailed⟩ hrest
    · intro pre system messages completion post hsplit hreason
      rcases split_append hsplit with ⟨mid, rfl, -⟩ | ⟨mid, -, hsplit⟩
      · cases (hplain _ (List.mem_append_right _ List.mem_cons_self)).1
      · exact h.performed hrest hsplit hreason

end Safety

/-- With any answers a run ends, and it is as it should be exactly if `strip_ansi` returns
for each text that the state client has given for the user or for a query. -/
theorem planIntent_safe_iff (lib : PlannerLib) (planner : LlmPlanner) (intent : String)
    (answers : List PlannerCall → (op : PlannerOp) → op.Resp) :
    ∃ outcome events,
      (planIntent lib planner intent).runIn (fun log op => some (answers log op)) [] =
        (some outcome, events) ∧
      (RunSafe lib planner intent events outcome ↔ ClientSafe events) := by
  obtain ⟨outcome, events, hrun⟩ := runIn_returns answers (planIntent lib planner intent) []
  refine ⟨outcome, events, hrun, ?_⟩
  obtain ⟨events, rfl, htrace⟩ := trace_of_runIn hrun
  rcases planIntent_cases htrace with ⟨e, hq, hlimited⟩ | ⟨op, k, hq, -⟩ |
    ⟨front, prefs, rest, rfl, hfront, hpassed, hloop⟩
  · cases hq
    have hrefused : RunSafe lib planner intent events (some (.error e)) ∧ ClientSafe events :=
      runSafe_of_refused hlimited
    exact iff_of_true hrefused.1 hrefused.2
  · cases hq
  · exact runSafe_iff_of_finishes hfront hpassed (planTurns_finishes hloop)

/-- A response that asks for the disks. -/
def askDisks : Completion := ⟨[.toolUse "call_1" none "query_disk_usage" (.object [])], .toolUse⟩

/-- The daemon's output has an escape character before a letter of two bytes. -/
def escapedTurn : List PlannerCall :=
  asked plainSystem [.userText "show disks"] (.ok askDisks) ++
    [⟨.emit (.queryingTool "query disk usage"), ()⟩,
      ⟨.queryAction "GetDiskUsage" (.object []), .ok "\x1bé"⟩]

theorem escape_panics :
    Trace (planIntent plainLib plainPlanner "show disks") escapedTurn (.ret none) ∧
      ¬ RunSafe plainLib plainPlanner "show disks" escapedTurn none := by
  have hsanitized : sanitizeToolOutput plainLib.nfc "query_disk_usage" "\x1bé".toList = none := by
    decide +kernel
  have hcall : Trace (performCall plainLib plainPlanner "show disks"
      ⟨"call_1", none, "query_disk_usage", .object []⟩)
      [⟨.emit (.queryingTool "query disk usage"), ()⟩,
        ⟨.queryAction "GetDiskUsage" (.object []), .ok "\x1bé"⟩]
      (.ret (.error none)) := by
    rw [performCall]
    refine trace_ask (trace_ask ?_)
    show Trace (pure (ToolCall.sanitized _ _ _ _ _)) _ _
    rw [ToolCall.sanitized, hsanitized]
    exact .done _
  have hcalls := performCalls_single hcall
  refine ⟨?_, ?_⟩
  · rw [plainRun]
    exact planTurns_ends (planTurn_performs askDisks rfl rfl hcalls)
  · intro hrun
    obtain ⟨result, hresult⟩ := hrun.returns
    cases hresult

end Sysknife
