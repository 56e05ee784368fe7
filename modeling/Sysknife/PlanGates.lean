import Sysknife.McpExecute
import Sysknife.Runner

/-!
# What a plan run sends

The run of a plan is followed step by step: which execute requests go out, which
steps were asked about, and how it ends. Two promises are judged from that: a
failed step stops the plan, and the approval gate binds the daemon's risk.
-/

namespace Sysknife

open Interaction

/-! ## Reading a log -/

/-- The execute request of an event, when it went out. -/
def sentExecute : ClientEvent → Option ClientRequest
  | ⟨.request (.execute actionName params approvalHash), .ok ()⟩ =>
      some (.execute actionName params approvalHash)
  | _ => none

def sentExecutes (log : List ClientEvent) : List ClientRequest := log.filterMap sentExecute

/-- A yes to the question about a step, asked before its preview. -/
def ConfirmedStep (log : List ClientEvent) (i : Nat) : Prop :=
  ∃ pre step line post, log = pre ++ ⟨.readLine (.step step), some line⟩ :: post ∧
    previewsIn pre = i ∧ confirms line = true

/-- A yes to the question about the whole plan. -/
def ConfirmedPlan (log : List ClientEvent) : Prop :=
  ∃ steps highest line, (⟨.readLine (.plan steps highest), some line⟩ : ClientEvent) ∈ log ∧
    confirms line = true

theorem sentExecutes_append (log evs : List ClientEvent) :
    sentExecutes (log ++ evs) = sentExecutes log ++ sentExecutes evs := List.filterMap_append

theorem previewsIn_append (log evs : List ClientEvent) :
    previewsIn (log ++ evs) = previewsIn log + previewsIn evs := List.countP_append

theorem confirmedPlan_append {log evs : List ClientEvent} :
    ConfirmedPlan (log ++ evs) ↔ ConfirmedPlan log ∨ ConfirmedPlan evs := by
  unfold ConfirmedPlan
  simp only [List.mem_append]
  constructor
  · intro h
    rcases h with ⟨steps, highest, line, hmem | hmem, hyes⟩
    · exact Or.inl ⟨steps, highest, line, hmem, hyes⟩
    · exact Or.inr ⟨steps, highest, line, hmem, hyes⟩
  · intro h
    rcases h with ⟨steps, highest, line, hmem, hyes⟩ | ⟨steps, highest, line, hmem, hyes⟩
    · exact ⟨steps, highest, line, Or.inl hmem, hyes⟩
    · exact ⟨steps, highest, line, Or.inr hmem, hyes⟩

theorem confirmedStep_append {log evs : List ClientEvent} {i : Nat} :
    ConfirmedStep (log ++ evs) i ↔
      ConfirmedStep log i ∨ ∃ j, i = previewsIn log + j ∧ ConfirmedStep evs j := by
  constructor
  · intro h
    obtain ⟨pre, step, line, post, hsplit, hi, hyes⟩ := h
    rcases split_append hsplit with ⟨mid, hlog, -⟩ | ⟨mid, rfl, hevs⟩
    · exact Or.inl ⟨pre, step, line, mid, hlog, hi, hyes⟩
    · rw [previewsIn_append] at hi
      exact Or.inr ⟨previewsIn mid, hi.symm, mid, step, line, post, hevs, rfl, hyes⟩
  · intro h
    rcases h with ⟨pre, step, line, post, rfl, hi, hyes⟩ |
      ⟨j, rfl, pre, step, line, post, rfl, rfl, hyes⟩
    · exact ⟨pre, step, line, post ++ evs, by simp, hi, hyes⟩
    · exact ⟨log ++ pre, step, line, post, by simp, previewsIn_append log pre, hyes⟩

/-- Questions and output only. -/
def Quiet (evs : List ClientEvent) : Prop := ∀ e ∈ evs, ∀ request, e.op ≠ .request request

theorem quiet_append {evs evs' : List ClientEvent} :
    Quiet (evs ++ evs') ↔ Quiet evs ∧ Quiet evs' := List.forall_mem_append

theorem Quiet.sentExecutes_nil {evs : List ClientEvent} (h : Quiet evs) :
    sentExecutes evs = [] := by
  unfold sentExecutes
  rw [List.filterMap_eq_nil_iff]
  rintro ⟨o, answer⟩ he
  cases o with
  | request request => exact absurd rfl (h _ he request)
  | _ => rfl

theorem Quiet.previewsIn_zero {evs : List ClientEvent} (h : Quiet evs) : previewsIn evs = 0 := by
  unfold previewsIn
  rw [List.countP_eq_zero]
  rintro ⟨o, answer⟩ he
  cases o with
  | request request => exact absurd rfl (h _ he request)
  | _ => simp [ClientOp.isPreview]

/-! ## One round -/

section Round
variable (text : ClientText) (opts : RunOpts) (w : ClientWorld)

/-- The policy, or the person it asks, lets the step at position `i` pass. -/
def StepApproved (i : Nat) (step : PlanStep) : Prop :=
  opts.stepByStep = true →
    opts.approvalPolicy.decideStep step.riskLevel = .autoApproved ∨
    (opts.approvalPolicy.decideStep step.riskLevel = .requiresPrompt ∧
      ∃ line, w.stepAnswer i = some (some line) ∧ confirms line = true)

/-- The daemon answers the preview of the step at position `i` with `preview`. -/
def PreviewedAs (i : Nat) (preview : PreviewEnvelope) : Prop :=
  ∃ replies, (w.preview i).answered = some replies ∧ previewOf text replies = .ok preview

/-- The daemon answers the execution of the step at position `i` with `result`. -/
def CompletedAs (i : Nat) (result : ResultEnvelope) : Prop :=
  ∃ replies, (w.execute i).answered = some replies ∧ resultOf text replies = .ok result

/-- An approved step is executed: it has a preview, and its request goes out. -/
def Sendable (i : Nat) : Prop :=
  (∃ preview, PreviewedAs text w i preview) ∧ (w.execute i).sent = some (.ok ())

/-- A step that the loop comes to is executed. -/
def GoesOut (i : Nat) (step : PlanStep) : Prop := StepApproved opts w i step ∧ Sendable text w i

/-- What one round of the loop adds to the log. -/
structure Round (i : Nat) (step : PlanStep) (out : Option (Except CliError Unit))
    (evs : List ClientEvent) : Prop where
  done : out = some (.ok ()) ↔ GoesOut text opts w i step ∧ ∃ result, CompletedAs text w i result
  sent : GoesOut text opts w i step →
    ∃ approvalHash, sentExecutes evs = [.execute step.actionName step.params approvalHash]
  held : ¬ GoesOut text opts w i step → sentExecutes evs = []
  previews : out = some (.ok ()) → previewsIn evs = 1
  asked : ∀ j, ConfirmedStep evs j → j = 0 ∧ opts.stepByStep = true ∧
    opts.approvalPolicy.decideStep step.riskLevel = .requiresPrompt
  confirmed : GoesOut text opts w i step → opts.stepByStep = true →
    opts.approvalPolicy.decideStep step.riskLevel = .requiresPrompt → ConfirmedStep evs 0
  plan : ¬ ConfirmedPlan evs

variable {text opts w}

theorem settleDecision_runIn (opts : RunOpts) (highest : PlanRiskLevel)
    (decision : ApprovalDecision) {log : List ClientEvent} {question : Question}
    {answer : Option (Option String)} (hw : w.answers log (.readLine question) = answer) :
    ∃ out evs, (settleDecision opts question highest decision).runIn w.answers log =
        (out, log ++ evs) ∧
      (out = some (.ok ()) ↔ decision = .autoApproved ∨
        (decision = .requiresPrompt ∧ ∃ line, answer = some (some line) ∧ confirms line = true)) ∧
      (evs = [] ∨ decision = .requiresPrompt ∧ ∃ line, evs = [⟨.readLine question, line⟩]) ∧
      (decision = .requiresPrompt → out = some (.ok ()) →
        ∃ line, evs = [⟨.readLine question, some line⟩] ∧ confirms line = true) := by
  have hquiet (e : Except CliError Unit) : (Prog.ret e : ClientProg _).runIn w.answers log =
      (some e, log ++ []) := by
    rw [List.append_nil]
    rfl
  cases decision with
  | autoApproved => exact ⟨_, [], hquiet (.ok ()), by simp, Or.inl rfl, by simp⟩
  | requiresInteraction =>
    exact ⟨_, [], hquiet (.error .nonInteractive), by simp, Or.inl rfl, by simp⟩
  | exceedsCeiling => exact ⟨_, [], hquiet (.error _), by simp, Or.inl rfl, by simp⟩
  | requiresPrompt =>
    unfold settleDecision promptConfirm
    rw [clientOp_bind]
    cases answer with
    | none =>
      exact ⟨none, [], by rw [Prog.op_bind, runIn_op_none hw, List.append_nil], by simp,
        Or.inl rfl, by simp⟩
    | some line =>
      rw [Prog.op_bind, runIn_op_some hw]
      refine ⟨_, _, rfl, ?_, Or.inr ⟨rfl, line, rfl⟩, ?_⟩
      · cases line with
        | none => simp
        | some line => by_cases hyes : confirms line = true <;> simp [hyes]
      · intro _ hout
        cases line with
        | none => simp at hout
        | some line =>
          refine ⟨line, rfl, ?_⟩
          by_contra hno
          simp [hno] at hout

/-- Output and replies only: nothing is sent or asked. -/
def Silent (evs : List ClientEvent) : Prop :=
  ∀ e ∈ evs, e.op = .replies ∨ ∃ output, e.op = .print output

theorem silent_cons {e : ClientEvent} {evs : List ClientEvent}
    (he : e.op = .replies ∨ ∃ output, e.op = .print output) (h : Silent evs) :
    Silent (e :: evs) := List.forall_mem_cons.mpr ⟨he, h⟩

theorem Silent.quiet {evs : List ClientEvent} (h : Silent evs) : Quiet evs := by
  intro e he request ho
  rcases h e he with hreplies | ⟨output, hprint⟩
  · cases hreplies.symm.trans ho
  · cases hprint.symm.trans ho

theorem print_runIn {log : List ClientEvent} (output : CliOutput) :
    (clientOp (.print output)).runIn w.answers log = (some (), log ++ [⟨.print output, ()⟩]) := rfl

theorem printLines_runIn (json : Bool) (lines : List String) (log : List ClientEvent) :
    ∃ evs, (printLines json lines).runIn w.answers log = (some (), log ++ evs) ∧ Silent evs := by
  induction lines generalizing log with
  | nil => exact ⟨[], by rw [List.append_nil]; rfl, by simp [Silent]⟩
  | cons line rest ih =>
    obtain ⟨evs, hrun, hsilent⟩ := ih (log ++ [⟨.print (.outputLine json line), ()⟩])
    refine ⟨⟨.print (.outputLine json line), ()⟩ :: evs, ?_, ?_⟩
    · rw [printLines, runIn_bind_some (print_runIn _), hrun, List.append_assoc]
      rfl
    · exact silent_cons (Or.inr ⟨_, rfl⟩) hsilent

/-- A preview gives an envelope, or it ends the step. -/
theorem preview_outcome (text : ClientText) (w : ClientWorld) (log : List ClientEvent)
    (actionName : String) (params : Json) :
    (∃ preview replies, PreviewedAs text w (previewsIn log) preview ∧
      (DaemonClient.preview text actionName params).runIn w.answers log =
        (some (.ok preview), log ++
          [⟨.request (.preview actionName params), .ok ()⟩, ⟨.replies, replies⟩])) ∨
    (¬ ∃ preview, PreviewedAs text w (previewsIn log) preview) ∧
      ∃ out evs, (DaemonClient.preview text actionName params).runIn w.answers log =
          (out, log ++ evs) ∧ (∀ preview, out ≠ some (.ok preview)) ∧
        ∀ e ∈ evs, e.op = .replies ∨ e.op = .request (.preview actionName params) := by
  have hrun : (DaemonClient.preview text actionName params).runIn w.answers log = _ :=
    preview_runIn actionName params
  unfold PreviewedAs Conversation.answered
  rcases Conversation.outcome_cases (w.preview (previewsIn log)) (.preview actionName params) with
    ⟨hsent, hout⟩ | ⟨e, hsent, hout⟩ | ⟨hsent, hreplies, hout⟩ | ⟨replies, hsent, hreplies, hout⟩
  · rw [hout] at hrun
    exact Or.inr ⟨by simp [hsent], _, _, hrun, by simp, by simp⟩
  · rw [hout] at hrun
    exact Or.inr ⟨by simp [hsent], _, _, hrun, by simp, by simp⟩
  · rw [hout] at hrun
    exact Or.inr ⟨by simp [hsent, hreplies], _, _, hrun, by simp, by simp⟩
  · rw [hout] at hrun
    cases hof : previewOf text replies with
    | error e =>
      exact Or.inr ⟨by simp [hsent, hreplies, hof], _, _, hrun, by simp [hof], by simp⟩
    | ok preview =>
      refine Or.inl ⟨preview, replies, ⟨replies, ?_, hof⟩, ?_⟩
      · rw [hsent]
        exact hreplies
      · rw [← hof]
        exact hrun

/-- An execute request goes out and is answered or not, or it ends the step. -/
theorem execute_outcome (text : ClientText) (w : ClientWorld) (log : List ClientEvent)
    (actionName : String) (params : Json) (approvalHash : String) :
    (w.execute (previewsIn log - 1)).sent = some (.ok ()) ∧
      ((w.execute (previewsIn log - 1)).answered = none ∧
        (DaemonClient.execute text actionName params approvalHash).runIn w.answers log =
          (none, log ++ [⟨.request (.execute actionName params approvalHash), .ok ()⟩]) ∨
      ∃ replies, (w.execute (previewsIn log - 1)).answered = some replies ∧
        (DaemonClient.execute text actionName params approvalHash).runIn w.answers log =
          (some (executeOf text replies.lost replies.frames), log ++
            [⟨.request (.execute actionName params approvalHash), .ok ()⟩,
              ⟨.replies, replies⟩])) ∨
    (w.execute (previewsIn log - 1)).sent ≠ some (.ok ()) ∧
      ∃ out evs, (DaemonClient.execute text actionName params approvalHash).runIn w.answers log =
          (out, log ++ evs) ∧ (out = none ∨ ∃ e, out = some ([], .error e)) ∧
        ∀ e ∈ evs, ∃ reason,
          e = ⟨.request (.execute actionName params approvalHash), .error reason⟩ := by
  have hrun : (DaemonClient.execute text actionName params approvalHash).runIn w.answers log = _ :=
    execute_runIn actionName params approvalHash
  unfold Conversation.answered
  rcases Conversation.outcome_cases (w.execute (previewsIn log - 1))
      (.execute actionName params approvalHash) with
    ⟨hsent, hout⟩ | ⟨reason, hsent, hout⟩ | ⟨hsent, hreplies, hout⟩ |
      ⟨replies, hsent, hreplies, hout⟩
  · rw [hout] at hrun
    exact Or.inr ⟨by simp [hsent], _, _, hrun, by simp, by simp⟩
  · rw [hout] at hrun
    exact Or.inr ⟨by simp [hsent], _, _, hrun, Or.inr ⟨_, rfl⟩, by simp⟩
  · rw [hout] at hrun
    exact Or.inl ⟨hsent, Or.inl ⟨by simp [hsent, hreplies], hrun⟩⟩
  · rw [hout] at hrun
    exact Or.inl ⟨hsent, Or.inr ⟨replies, by simp [hsent, hreplies], hrun⟩⟩

/-- What `executeStep` adds to the log at position `i`. -/
structure Executed (text : ClientText) (w : ClientWorld) (i : Nat) (step : PlanStep)
    (out : Option (Except CliError Unit)) (evs : List ClientEvent) : Prop where
  done : out = some (.ok ()) ↔ Sendable text w i ∧ ∃ result, CompletedAs text w i result
  sent : Sendable text w i →
    ∃ approvalHash, sentExecutes evs = [.execute step.actionName step.params approvalHash]
  held : ¬ Sendable text w i → sentExecutes evs = []
  previews : out = some (.ok ()) → previewsIn evs = 1
  unasked : ∀ e ∈ evs, ∀ question, e.op ≠ .readLine question

/-- The events up to an execute request that goes out. -/
def sending (step : PlanStep) (replies : Replies) (output : CliOutput) (approvalHash : String) :
    List ClientEvent :=
  [⟨.request (.preview step.actionName step.params), .ok ()⟩, ⟨.replies, replies⟩,
    ⟨.print output, ()⟩, ⟨.request (.execute step.actionName step.params approvalHash), .ok ()⟩]

theorem executed_of_sent {i : Nat} {step : PlanStep} {out : Option (Except CliError Unit)}
    {replies : Replies} {output : CliOutput} {approvalHash : String} {tail : List ClientEvent}
    (hsend : Sendable text w i) (htail : Silent tail)
    (hdone : out = some (.ok ()) ↔ ∃ result, CompletedAs text w i result) :
    Executed text w i step out (sending step replies output approvalHash ++ tail) := by
  refine ⟨hdone.trans (by simp [hsend]), fun _ => ⟨approvalHash, ?_⟩, fun h => absurd hsend h,
    fun _ => ?_, ?_⟩
  · rw [sentExecutes_append, htail.quiet.sentExecutes_nil]
    rfl
  · rw [previewsIn_append, htail.quiet.previewsIn_zero]
    rfl
  · intro e he question hq
    rcases List.mem_append.mp he with he | he
    · simp only [sending, List.mem_cons, List.not_mem_nil, or_false] at he
      rcases he with rfl | rfl | rfl | rfl <;> cases hq
    · rcases htail e he with ho | ⟨output, ho⟩ <;> rw [ho] at hq <;> cases hq

/-- A step that ends before its execute request goes out. -/
theorem executed_of_held {i : Nat} {step : PlanStep} {out : Option (Except CliError Unit)}
    {evs : List ClientEvent} (hsend : ¬ Sendable text w i) (hnone : sentExecutes evs = [])
    (hunasked : ∀ e ∈ evs, ∀ question, e.op ≠ .readLine question) (hout : out ≠ some (.ok ())) :
    Executed text w i step out evs :=
  ⟨iff_of_false hout fun h => hsend h.1, fun h => absurd h hsend, fun _ => hnone,
    fun h => absurd h hout, hunasked⟩

theorem executed_of_unpreviewed {i : Nat} {step : PlanStep}
    {out : Option (Except CliError Unit)} {evs : List ClientEvent}
    (hsend : ¬ Sendable text w i)
    (hevs : ∀ e ∈ evs, e.op = .replies ∨
      e.op = .request (.preview step.actionName step.params))
    (hout : out ≠ some (.ok ())) : Executed text w i step out evs := by
  refine executed_of_held hsend ?_ ?_ hout
  · unfold sentExecutes
    rw [List.filterMap_eq_nil_iff]
    rintro ⟨o, answer⟩ he
    rcases hevs _ he with rfl | rfl <;> rfl
  · intro e he question hq
    rcases hevs e he with h | h <;> rw [h] at hq <;> cases hq

theorem executed_of_unsent {i : Nat} {step : PlanStep} {out : Option (Except CliError Unit)}
    {replies : Replies} {output : CliOutput} {approvalHash : String} {evs : List ClientEvent}
    (hsend : ¬ Sendable text w i)
    (hevs : ∀ e ∈ evs, ∃ reason,
      e = ⟨.request (.execute step.actionName step.params approvalHash), .error reason⟩)
    (hout : out ≠ some (.ok ())) :
    Executed text w i step out ([⟨.request (.preview step.actionName step.params), .ok ()⟩,
      ⟨.replies, replies⟩, ⟨.print output, ()⟩] ++ evs) := by
  refine executed_of_held hsend ?_ ?_ hout
  · rw [sentExecutes_append]
    show sentExecutes evs = []
    unfold sentExecutes
    rw [List.filterMap_eq_nil_iff]
    intro e he
    obtain ⟨reason, rfl⟩ := hevs e he
    rfl
  · intro e he question hq
    rcases List.mem_append.mp he with he | he
    · simp only [List.mem_cons, List.not_mem_nil, or_false] at he
      rcases he with rfl | rfl | rfl <;> cases hq
    · obtain ⟨reason, rfl⟩ := hevs e he
      cases hq

/-- What an execution has given is printed. -/
theorem shown_runIn (json : Bool) (executed : List String × Except CliError ResultEnvelope)
    (log : List ClientEvent) :
    ∃ out evs,
      (printLines json executed.1 >>= fun _ => match executed.2 with
        | .error e => (return .error e : ClientProg (Except CliError Unit))
        | .ok result => do
          clientOp (.print (if json then .resultJson result else .stepDone result))
          return .ok ()).runIn w.answers log = (some out, log ++ evs) ∧
      Silent evs ∧ (out = .ok () ↔ ∃ result, executed.2 = .ok result) := by
  obtain ⟨lines, hlines, hsilent⟩ := printLines_runIn (w := w) json executed.1 log
  rw [runIn_bind_some hlines]
  cases executed.2 with
  | error e => exact ⟨.error e, lines, rfl, hsilent, by simp⟩
  | ok result =>
    dsimp only
    rw [runIn_bind_some (print_runIn _)]
    generalize (if json = true then CliOutput.resultJson result
      else CliOutput.stepDone result) = output
    refine ⟨.ok (), lines ++ [⟨.print output, ()⟩], ?_, ?_, by simp⟩
    · rw [List.append_assoc]
      rfl
    · intro e he
      rcases List.mem_append.mp he with he | he
      · exact hsilent e he
      · obtain rfl := List.mem_singleton.mp he
        exact Or.inr ⟨_, rfl⟩

theorem executeStep_runIn (text : ClientText) (opts : RunOpts) (w : ClientWorld)
    (log : List ClientEvent) (step : PlanStep) :
    ∃ out evs, (executeStep text opts step).runIn w.answers log = (out, log ++ evs) ∧
      Executed text w (previewsIn log) step out evs := by
  unfold executeStep
  rcases preview_outcome text w log step.actionName step.params with
    ⟨preview, replies, hpreview, hrun⟩ | ⟨hno, out, evs, hrun, hout, hevs⟩
  · rw [runIn_bind_some hrun]
    dsimp only
    rw [runIn_bind_some (print_runIn _)]
    generalize (if opts.json = true then CliOutput.previewJson preview
      else CliOutput.stepHeader step.actionName preview) = output
    generalize hlog : log ++ [⟨.request (.preview step.actionName step.params), .ok ()⟩,
        ⟨.replies, replies⟩] ++ [⟨.print output, ()⟩] = log₁
    have hindex : previewsIn log₁ - 1 = previewsIn log := by
      rw [← hlog, previewsIn_append, previewsIn_append]
      show previewsIn log + 1 + 0 - 1 = previewsIn log
      omega
    have hsending (approvalHash : String) (tail : List ClientEvent) :
        log₁ ++ ⟨.request (.execute step.actionName step.params approvalHash), .ok ()⟩ :: tail =
          log ++ (sending step replies output approvalHash ++ tail) := by
      rw [← hlog]
      simp [sending]
    have hexecute := execute_outcome text w log₁ step.actionName step.params preview.requestHash
    rw [hindex] at hexecute
    rcases hexecute with ⟨hsent, ⟨hanswered, hrun'⟩ | ⟨replies', hanswered, hrun'⟩⟩ |
      ⟨hsent, out, evs, hrun', hout, hevs⟩
    · rw [runIn_bind_none hrun', hsending]
      refine ⟨_, _, rfl, executed_of_sent ⟨⟨preview, hpreview⟩, hsent⟩ (by simp [Silent]) ?_⟩
      simp [CompletedAs, hanswered]
    · obtain ⟨out, evs, hshown, hsilent, hout⟩ := shown_runIn (w := w) opts.json
        (executeOf text replies'.lost replies'.frames)
        (log₁ ++ [⟨.request (.execute step.actionName step.params preview.requestHash), .ok ()⟩,
          ⟨.replies, replies'⟩])
      rw [runIn_bind_some hrun']
      refine ⟨some out, sending step replies output preview.requestHash ++
        ⟨.replies, replies'⟩ :: evs, ?_, executed_of_sent ⟨⟨preview, hpreview⟩, hsent⟩
          (silent_cons (Or.inl rfl) hsilent) ?_⟩
      · refine hshown.trans ?_
        rw [← hsending, List.append_assoc]
        rfl
      · rw [Option.some_inj, hout]
        simp [CompletedAs, hanswered, resultOf]
    · have hfacts : ∀ out' : Option (Except CliError Unit), out' ≠ some (.ok ()) →
          Executed text w (previewsIn log) step out'
            ([⟨.request (.preview step.actionName step.params), .ok ()⟩, ⟨.replies, replies⟩,
              ⟨.print output, ()⟩] ++ evs) :=
        fun out' => executed_of_unsent (fun h => hsent h.2) hevs
      have hsplit : log₁ ++ evs = log ++
          ([⟨.request (.preview step.actionName step.params), .ok ()⟩, ⟨.replies, replies⟩,
            ⟨.print output, ()⟩] ++ evs) := by
        rw [← hlog]
        simp
      rcases hout with rfl | ⟨e, rfl⟩
      · rw [runIn_bind_none hrun', hsplit]
        exact ⟨none, _, rfl, hfacts none (by simp)⟩
      · rw [runIn_bind_some hrun', hsplit]
        exact ⟨some (.error e), _, rfl, hfacts _ (by simp)⟩
  · have hfacts : ∀ out' : Option (Except CliError Unit), out' ≠ some (.ok ()) →
        Executed text w (previewsIn log) step out' evs :=
      fun out' => executed_of_unpreviewed (fun h => hno h.1) hevs
    match out with
    | none => exact ⟨none, evs, runIn_bind_none hrun, hfacts none (by simp)⟩
    | some (.error e) =>
      exact ⟨some (.error e), evs, runIn_bind_some hrun, hfacts _ (by simp)⟩
    | some (.ok preview) => exact absurd rfl (hout preview)

/-- What `approveStep` adds to the log at position `i`. -/
structure StepAsked (opts : RunOpts) (w : ClientWorld) (i : Nat) (step : PlanStep)
    (out : Option (Except CliError Unit)) (evs : List ClientEvent) : Prop where
  passes : out = some (.ok ()) ↔ StepApproved opts w i step
  events : evs = [] ∨ (opts.stepByStep = true ∧
    opts.approvalPolicy.decideStep step.riskLevel = .requiresPrompt) ∧
      ∃ line, evs = [⟨.readLine (.step step), line⟩]
  confirmed : opts.stepByStep = true →
    opts.approvalPolicy.decideStep step.riskLevel = .requiresPrompt → out = some (.ok ()) →
      ∃ line, evs = [⟨.readLine (.step step), some line⟩] ∧ confirms line = true

theorem approveStep_runIn (opts : RunOpts) (w : ClientWorld) (log : List ClientEvent)
    (step : PlanStep) :
    ∃ out evs, (approveStep opts step).runIn w.answers log = (out, log ++ evs) ∧
      StepAsked opts w (previewsIn log) step out evs := by
  unfold approveStep
  by_cases hstep : opts.stepByStep = true
  · rw [if_pos hstep]
    obtain ⟨out, evs, hrun, hout, hevs, hyes⟩ :=
      settleDecision_runIn opts step.riskLevel (opts.approvalPolicy.decideStep step.riskLevel)
        (rfl : w.answers log (.readLine (.step step)) = w.stepAnswer (previewsIn log))
    exact ⟨out, evs, hrun, hout.trans ⟨fun h _ => h, fun h => h hstep⟩,
      hevs.imp_right fun h => ⟨⟨hstep, h.1⟩, h.2⟩, fun _ => hyes⟩
  · rw [if_neg hstep]
    exact ⟨some (.ok ()), [], by rw [List.append_nil]; rfl, by simp [StepApproved, hstep],
      Or.inl rfl, fun h => absurd h hstep⟩

section StepAsked
variable {i : Nat} {step : PlanStep} {out : Option (Except CliError Unit)}
  {evs : List ClientEvent}

theorem StepAsked.question (h : StepAsked opts w i step out evs) :
    ∀ e ∈ evs, ∃ line, e = ⟨.readLine (.step step), line⟩ := by
  intro e he
  rcases h.events with rfl | ⟨-, line, rfl⟩
  · cases he
  · exact ⟨line, List.mem_singleton.mp he⟩

theorem StepAsked.quiet (h : StepAsked opts w i step out evs) : Quiet evs := by
  intro e he request ho
  obtain ⟨line, rfl⟩ := h.question e he
  cases ho

theorem StepAsked.asked (h : StepAsked opts w i step out evs) {j : Nat}
    (hj : ConfirmedStep evs j) : j = 0 ∧ opts.stepByStep = true ∧
      opts.approvalPolicy.decideStep step.riskLevel = .requiresPrompt := by
  obtain ⟨pre, s, line, post, hsplit, rfl, -⟩ := hj
  rcases h.events with rfl | ⟨hprompt, line', rfl⟩
  · simp at hsplit
  · obtain rfl : pre = [] := by
      cases pre with
      | nil => rfl
      | cons e pre => simp at hsplit
    exact ⟨rfl, hprompt⟩

theorem StepAsked.unplanned (h : StepAsked opts w i step out evs) : ¬ ConfirmedPlan evs := by
  intro h
  obtain ⟨steps, highest, line, hmem, -⟩ := h
  obtain ⟨line', he⟩ := h.question _ hmem
  cases he

/-- A round that ends with the question. -/
theorem StepAsked.round_held (h : StepAsked opts w i step out evs)
    (hout : out ≠ some (.ok ())) : Round text opts w i step out evs := by
  have hheld : ¬ GoesOut text opts w i step := fun hgo => hout (h.passes.mpr hgo.1)
  exact ⟨iff_of_false hout fun hgo => hheld hgo.1, fun hgo => absurd hgo hheld,
    fun _ => h.quiet.sentExecutes_nil, fun hok => absurd hok hout, fun _ => h.asked,
    fun hgo => absurd hgo hheld, h.unplanned⟩

/-- A round that goes on to the execution. -/
theorem StepAsked.round (h : StepAsked opts w i step (some (.ok ())) evs)
    {out' : Option (Except CliError Unit)} {evs' : List ClientEvent}
    (hexec : Executed text w i step out' evs') : Round text opts w i step out' (evs ++ evs') := by
  have happroved := h.passes.mp rfl
  refine ⟨hexec.done.trans (by simp [GoesOut, happroved]), ?_, ?_, ?_, ?_, ?_, ?_⟩
  · intro hgo
    rw [sentExecutes_append, h.quiet.sentExecutes_nil]
    exact hexec.sent hgo.2
  · intro hheld
    rw [sentExecutes_append, h.quiet.sentExecutes_nil]
    exact hexec.held fun hsend => hheld ⟨happroved, hsend⟩
  · intro hok
    rw [previewsIn_append, h.quiet.previewsIn_zero, hexec.previews hok]
  · intro j hj
    rcases confirmedStep_append.mp hj with hj | ⟨k, -, pre, s, line, post, rfl, -⟩
    · exact h.asked hj
    · exact absurd rfl (hexec.unasked ⟨.readLine (.step s), some line⟩ (by simp) _)
  · intro _ hstep hprompt
    obtain ⟨line, rfl, hline⟩ := h.confirmed hstep hprompt rfl
    exact ⟨[], step, line, evs', rfl, rfl, hline⟩
  · intro hplan
    rcases confirmedPlan_append.mp hplan with hplan | ⟨steps, highest, line, hmem, -⟩
    · exact h.unplanned hplan
    · exact hexec.unasked _ hmem _ rfl

end StepAsked

theorem runStep_runIn (text : ClientText) (opts : RunOpts) (w : ClientWorld)
    (log : List ClientEvent) (step : PlanStep) :
    ∃ out evs, (runStep text opts step).runIn w.answers log = (out, log ++ evs) ∧
      Round text opts w (previewsIn log) step out evs := by
  obtain ⟨out, evs, hrun, hasked⟩ := approveStep_runIn opts w log step
  unfold runStep
  match out with
  | none => exact ⟨none, evs, runIn_bind_none hrun, hasked.round_held (by simp)⟩
  | some (.error e) =>
    exact ⟨some (.error e), evs, runIn_bind_some hrun, hasked.round_held (by simp)⟩
  | some (.ok ()) =>
    obtain ⟨out', evs', hrun', hexec⟩ := executeStep_runIn text opts w (log ++ evs) step
    rw [previewsIn_append, hasked.quiet.previewsIn_zero, Nat.add_zero] at hexec
    rw [runIn_bind_some hrun]
    dsimp only
    rw [hrun', List.append_assoc]
    exact ⟨out', evs ++ evs', rfl, hasked.round hexec⟩

end Round

/-! ## The whole loop -/

section Loop
variable (text : ClientText) (opts : RunOpts) (w : ClientWorld)

/-- The step `k` places after `start` is executed: all steps before it complete,
and none up to it is held back. -/
def Executes (start : Nat) (steps : List PlanStep) (k : Nat) : Prop :=
  k < steps.length ∧ (∀ j < k, ∃ result, CompletedAs text w (start + j) result) ∧
    ∀ j ≤ k, ∀ step, steps[j]? = some step → GoesOut text opts w (start + j) step

/-- What the loop adds to the log when it starts at position `start`. -/
structure Loop (start : Nat) (steps : List PlanStep) (out : Option (Except CliError Unit))
    (evs : List ClientEvent) : Prop where
  sent : ∀ k, k < (sentExecutes evs).length ↔ Executes text opts w start steps k
  order : ∀ (k : Nat) (request : ClientRequest), (sentExecutes evs)[k]? = some request →
    ∃ (step : PlanStep) (approvalHash : String), steps[k]? = some step ∧
      request = .execute step.actionName step.params approvalHash
  asked : ∀ k < (sentExecutes evs).length, ConfirmedStep evs k ↔
    opts.stepByStep = true ∧ ∃ step, steps[k]? = some step ∧
      opts.approvalPolicy.decideStep step.riskLevel = .requiresPrompt
  done : out = some (.ok ()) ↔ ∀ k step, steps[k]? = some step →
    GoesOut text opts w (start + k) step ∧ ∃ result, CompletedAs text w (start + k) result
  plan : ¬ ConfirmedPlan evs

variable {text opts w}

theorem executes_zero {start : Nat} {step : PlanStep} {rest : List PlanStep} :
    Executes text opts w start (step :: rest) 0 ↔ GoesOut text opts w start step := by
  constructor
  · intro h
    exact h.2.2 0 (Nat.le_refl 0) step rfl
  · intro h
    refine ⟨Nat.zero_lt_succ _, fun j hj => absurd hj (Nat.not_lt_zero j), ?_⟩
    intro j hj s hs
    obtain rfl : j = 0 := by omega
    obtain rfl := Option.some.inj hs
    exact h

theorem executes_succ {start k : Nat} {step : PlanStep} {rest : List PlanStep} :
    Executes text opts w start (step :: rest) (k + 1) ↔
      (GoesOut text opts w start step ∧ ∃ result, CompletedAs text w start result) ∧
        Executes text opts w (start + 1) rest k := by
  constructor
  · intro h
    obtain ⟨hlen, hcompleted, hgo⟩ := h
    refine ⟨⟨hgo 0 (Nat.zero_le _) step rfl, hcompleted 0 (Nat.succ_pos k)⟩, ?_, ?_, ?_⟩
    · simpa using hlen
    · intro j hj
      have h := hcompleted (j + 1) (by omega)
      rwa [Nat.add_comm j 1, ← Nat.add_assoc] at h
    · intro j hj s hs
      have h := hgo (j + 1) (by omega) s hs
      rwa [Nat.add_comm j 1, ← Nat.add_assoc] at h
  · intro h
    obtain ⟨⟨hfirst, hresult⟩, hlen, hcompleted, hgo⟩ := h
    refine ⟨by simpa using hlen, ?_, ?_⟩
    · intro j hj
      cases j with
      | zero => exact hresult
      | succ j =>
        have h := hcompleted j (by omega)
        rwa [Nat.add_assoc, Nat.add_comm 1 j] at h
    · intro j hj s hs
      cases j with
      | zero =>
        obtain rfl := Option.some.inj hs
        exact hfirst
      | succ j =>
        have h := hgo j (by omega) s hs
        rwa [Nat.add_assoc, Nat.add_comm 1 j] at h

theorem loop_nil (start : Nat) : Loop text opts w start [] (some (.ok ())) [] := by
  refine ⟨?_, ?_, ?_, ?_, ?_⟩
  · intro k
    exact iff_of_false (Nat.not_lt_zero k) fun h => Nat.not_lt_zero k h.1
  · intro k request h
    cases h
  · intro k hk
    exact absurd hk (Nat.not_lt_zero k)
  · simp
  · intro h
    obtain ⟨_, _, _, hmem, -⟩ := h
    cases hmem

section Round
variable {start : Nat} {step : PlanStep} {rest : List PlanStep}
  {out out' : Option (Except CliError Unit)} {evs evs' : List ClientEvent}

theorem Round.confirmed_iff (h : Round text opts w start step out evs)
    (hgo : GoesOut text opts w start step) : ConfirmedStep evs 0 ↔
      opts.stepByStep = true ∧ ∃ s, (step :: rest)[0]? = some s ∧
        opts.approvalPolicy.decideStep s.riskLevel = .requiresPrompt := by
  constructor
  · intro hc
    exact ⟨(h.asked 0 hc).2.1, step, rfl, (h.asked 0 hc).2.2⟩
  · intro h
    obtain ⟨hstep, s, hs, hprompt⟩ := h
    obtain rfl := Option.some.inj hs
    exact h.confirmed hgo hstep hprompt

/-- A round that completes, and the loop behind it. -/
theorem Round.loop_cons (h : Round text opts w start step (some (.ok ())) evs)
    (hloop : Loop text opts w (start + 1) rest out evs') :
    Loop text opts w start (step :: rest) out (evs ++ evs') := by
  have hfirst := h.done.mp rfl
  have hpreviews := h.previews rfl
  obtain ⟨approvalHash, hsent⟩ := h.sent hfirst.1
  have hlist : sentExecutes (evs ++ evs') =
      .execute step.actionName step.params approvalHash :: sentExecutes evs' := by
    rw [sentExecutes_append, hsent]
    rfl
  refine ⟨?_, ?_, ?_, ?_, ?_⟩
  · intro k
    rw [hlist, List.length_cons]
    cases k with
    | zero => exact iff_of_true (Nat.zero_lt_succ _) (executes_zero.mpr hfirst.1)
    | succ k =>
      rw [Nat.succ_lt_succ_iff, hloop.sent k, executes_succ]
      exact ⟨fun hrest => ⟨hfirst, hrest⟩, fun hboth => hboth.2⟩
  · intro k request hk
    rw [hlist] at hk
    cases k with
    | zero => exact ⟨step, approvalHash, rfl, (Option.some.inj hk).symm⟩
    | succ k =>
      obtain ⟨s, hash, hs, hr⟩ := hloop.order k request hk
      exact ⟨s, hash, hs, hr⟩
  · intro k hk
    rw [hlist, List.length_cons] at hk
    rw [confirmedStep_append, hpreviews]
    cases k with
    | zero =>
      rw [← h.confirmed_iff hfirst.1]
      refine or_iff_left ?_
      intro h
      obtain ⟨j, hj, -⟩ := h
      omega
    | succ k =>
      have hk' : k < (sentExecutes evs').length := by omega
      rw [List.getElem?_cons_succ, ← hloop.asked k hk']
      constructor
      · intro h
        rcases h with hc | ⟨j, hj, hc⟩
        · exact absurd (h.asked _ hc).1 (Nat.succ_ne_zero k)
        · obtain rfl : j = k := by omega
          exact hc
      · intro hc
        exact Or.inr ⟨k, Nat.add_comm k 1, hc⟩
  · rw [hloop.done]
    constructor
    · intro hrest k s hs
      cases k with
      | zero =>
        obtain rfl := Option.some.inj hs
        exact hfirst
      | succ k =>
        have hk := hrest k s hs
        rwa [Nat.add_assoc, Nat.add_comm 1 k] at hk
    · intro hall k s hs
      have hk := hall (k + 1) s hs
      rwa [Nat.add_comm k 1, ← Nat.add_assoc] at hk
  · intro hc
    rcases confirmedPlan_append.mp hc with hc | hc
    · exact h.plan hc
    · exact hloop.plan hc

/-- A round that ends the loop. -/
theorem Round.loop_stop (h : Round text opts w start step out evs)
    (hout : out ≠ some (.ok ())) : Loop text opts w start (step :: rest) out evs := by
  have hlast : ¬ (GoesOut text opts w start step ∧ ∃ result, CompletedAs text w start result) :=
    fun hdone => hout (h.done.mpr hdone)
  have hend : ¬ ∀ k s, (step :: rest)[k]? = some s →
      GoesOut text opts w (start + k) s ∧ ∃ result, CompletedAs text w (start + k) result :=
    fun hall => hlast (hall 0 step rfl)
  by_cases hgo : GoesOut text opts w start step
  · obtain ⟨approvalHash, hsent⟩ := h.sent hgo
    refine ⟨?_, ?_, ?_, iff_of_false hout hend, h.plan⟩
    · intro k
      rw [hsent]
      cases k with
      | zero => exact iff_of_true Nat.one_pos (executes_zero.mpr hgo)
      | succ k => exact iff_of_false (by simp) fun hk => hlast (executes_succ.mp hk).1
    · intro k request hk
      rw [hsent] at hk
      cases k with
      | zero => exact ⟨step, approvalHash, rfl, (Option.some.inj hk).symm⟩
      | succ k => cases hk
    · intro k hk
      rw [hsent] at hk
      obtain rfl : k = 0 := by simpa using hk
      exact h.confirmed_iff hgo
  · have hnone : ∀ k, ¬ k < (sentExecutes evs).length := by
      rw [h.held hgo]
      exact Nat.not_lt_zero
    refine ⟨?_, ?_, ?_, iff_of_false hout hend, h.plan⟩
    · intro k
      exact iff_of_false (hnone k) fun hk => hgo (hk.2.2 0 (Nat.zero_le k) step rfl)
    · intro k request hk
      rw [h.held hgo] at hk
      cases hk
    · intro k hk
      exact absurd hk (hnone k)

end Round

theorem runSteps_runIn (text : ClientText) (opts : RunOpts) (w : ClientWorld)
    (steps : List PlanStep) (log : List ClientEvent) :
    ∃ out evs, (runSteps text opts steps).runIn w.answers log = (out, log ++ evs) ∧
      Loop text opts w (previewsIn log) steps out evs := by
  induction steps generalizing log with
  | nil => exact ⟨some (.ok ()), [], by rw [List.append_nil]; rfl, loop_nil _⟩
  | cons step rest ih =>
    obtain ⟨out, evs, hrun, hround⟩ := runStep_runIn text opts w log step
    rw [runSteps]
    match out with
    | none => exact ⟨none, evs, runIn_bind_none hrun, hround.loop_stop (by simp)⟩
    | some (.error e) =>
      exact ⟨some (.error e), evs, runIn_bind_some hrun, hround.loop_stop (by simp)⟩
    | some (.ok ()) =>
      obtain ⟨out', evs', hrun', hloop⟩ := ih (log ++ evs)
      rw [previewsIn_append, hround.previews rfl] at hloop
      rw [runIn_bind_some hrun]
      dsimp only
      rw [hrun', List.append_assoc]
      exact ⟨out', evs ++ evs', rfl, hround.loop_cons hloop⟩

end Loop

/-! ## The whole run -/

section Run
variable (text : ClientText) (opts : RunOpts) (w : ClientWorld)

/-- The policy, or the person it asks, lets the plan pass. -/
def PlanApproved (plan : Plan) : Prop :=
  opts.stepByStep = true ∨ opts.approvalPolicy.decidePlan plan = .autoApproved ∨
    (opts.approvalPolicy.decidePlan plan = .requiresPrompt ∧
      ∃ line, w.planAnswer = some (some line) ∧ confirms line = true)

/-- The step loop is entered with this plan. -/
structure Starts (plan : Plan) : Prop where
  planned : w.plan = some (.ok plan)
  wet : opts.dryRun = false
  approved : PlanApproved opts w plan
  fits : checkPlanDistro w.distro plan.steps = .ok ()

/-- What a run that enters the loop has done at its end. -/
structure PlanRun (plan : Plan) (out : Option (Except CliError Unit))
    (log : List ClientEvent) : Prop where
  sent : ∀ k, k < (sentExecutes log).length ↔ Executes text opts w 0 plan.steps k
  order : ∀ (k : Nat) (request : ClientRequest), (sentExecutes log)[k]? = some request →
    ∃ (step : PlanStep) (approvalHash : String), plan.steps[k]? = some step ∧
      request = .execute step.actionName step.params approvalHash
  askedStep : ∀ k < (sentExecutes log).length, ConfirmedStep log k ↔
    opts.stepByStep = true ∧ ∃ step, plan.steps[k]? = some step ∧
      opts.approvalPolicy.decideStep step.riskLevel = .requiresPrompt
  askedPlan : ConfirmedPlan log ↔
    opts.stepByStep = false ∧ opts.approvalPolicy.decidePlan plan = .requiresPrompt
  done : out = some (.ok ()) ↔ ∀ k step, plan.steps[k]? = some step →
    GoesOut text opts w k step ∧ ∃ result, CompletedAs text w k result

variable {text opts w}

theorem approvePlan_runIn (opts : RunOpts) (w : ClientWorld) (plan : Plan)
    (log : List ClientEvent) :
    ∃ out evs, (approvePlan opts plan).runIn w.answers log = (out, log ++ evs) ∧
      (out = some (.ok ()) ↔ PlanApproved opts w plan) ∧
      (∀ e ∈ evs, ∃ steps highest line, e = ⟨.readLine (.plan steps highest), line⟩) ∧
      (out = some (.ok ()) → (ConfirmedPlan evs ↔
        opts.stepByStep = false ∧ opts.approvalPolicy.decidePlan plan = .requiresPrompt)) := by
  unfold approvePlan PlanApproved
  by_cases hstep : opts.stepByStep = true
  · rw [if_pos hstep]
    refine ⟨some (.ok ()), [], by rw [List.append_nil]; rfl, by simp [hstep], by simp, ?_⟩
    intro _
    refine iff_of_false ?_ (by simp [hstep])
    intro h
    obtain ⟨_, _, _, hmem, -⟩ := h
    cases hmem
  · rw [if_neg hstep]
    have hstep' : opts.stepByStep = false := by simpa using hstep
    obtain ⟨out, evs, hrun, hout, hevs, hyes⟩ :=
      settleDecision_runIn opts ((highestRisk plan.steps).getD .low)
        (opts.approvalPolicy.decidePlan plan)
        (rfl : w.answers log (.readLine (.plan plan.steps.length
          ((highestRisk plan.steps).getD .low))) = w.planAnswer)
    refine ⟨out, evs, hrun, hout.trans ⟨Or.inr, fun h => h.resolve_left hstep⟩, ?_, ?_⟩
    · intro e he
      rcases hevs with rfl | ⟨-, line, rfl⟩
      · cases he
      · exact ⟨_, _, line, List.mem_singleton.mp he⟩
    · intro hok
      constructor
      · intro h
        obtain ⟨steps, highest, line, hmem, -⟩ := h
        rcases hevs with rfl | ⟨hprompt, -⟩
        · cases hmem
        · exact ⟨hstep', hprompt⟩
      · intro h
        obtain ⟨-, hprompt⟩ := h
        obtain ⟨line, rfl, hline⟩ := hyes hprompt hok
        exact ⟨_, _, line, List.mem_singleton_self _, hline⟩

/-- From an approved plan on. -/
theorem runApproved_runIn (text : ClientText) (opts : RunOpts) (w : ClientWorld) (plan : Plan)
    (log : List ClientEvent) :
    ∃ out evs, (runApproved text opts plan w.distro).runIn w.answers log = (out, log ++ evs) ∧
      ((∃ message, checkPlanDistro w.distro plan.steps = .error message) ∧ evs = [] ∨
        checkPlanDistro w.distro plan.steps = .ok () ∧
          ∃ loopEvs last, evs = loopEvs ++ last ∧ Silent last ∧
            Loop text opts w (previewsIn log) plan.steps out loopEvs) := by
  unfold runApproved
  cases hfits : checkPlanDistro w.distro plan.steps with
  | error message =>
    exact ⟨_, [], by rw [List.append_nil]; rfl, Or.inl ⟨⟨message, rfl⟩, rfl⟩⟩
  | ok u =>
    obtain ⟨out, evs, hrun, hloop⟩ := runSteps_runIn text opts w plan.steps log
    dsimp only
    cases out with
    | none =>
      exact ⟨none, evs, runIn_bind_none hrun, Or.inr ⟨rfl, evs, [], by simp, by simp [Silent],
        hloop⟩⟩
    | some result =>
      rw [runIn_bind_some hrun]
      cases result with
      | error e =>
        exact ⟨_, evs, rfl, Or.inr ⟨rfl, evs, [], by simp, by simp [Silent], hloop⟩⟩
      | ok v =>
        cases hjson : opts.json with
        | true =>
          exact ⟨_, evs, rfl, Or.inr ⟨rfl, evs, [], by simp, by simp [Silent], hloop⟩⟩
        | false =>
          refine ⟨some (.ok ()), evs ++ [⟨.print .success, ()⟩], ?_, Or.inr ⟨rfl, evs, _, rfl, ?_,
            hloop⟩⟩
          · rw [← List.append_assoc]
            rfl
          · exact silent_cons (Or.inr ⟨_, rfl⟩) (by simp [Silent])

theorem Loop.planRun {plan : Plan} {out : Option (Except CliError Unit)}
    {pre evs last : List ClientEvent} (h : Loop text opts w 0 plan.steps out evs)
    (hpre : Quiet pre) (hsteps : ∀ i, ¬ ConfirmedStep pre i)
    (hplan : ConfirmedPlan pre ↔
      opts.stepByStep = false ∧ opts.approvalPolicy.decidePlan plan = .requiresPrompt)
    (hlast : Silent last) : PlanRun text opts w plan out (pre ++ (evs ++ last)) := by
  have hsent : sentExecutes (pre ++ (evs ++ last)) = sentExecutes evs := by
    rw [sentExecutes_append, sentExecutes_append, hpre.sentExecutes_nil,
      hlast.quiet.sentExecutes_nil, List.nil_append, List.append_nil]
  have hunasked : ∀ question line, (⟨.readLine question, line⟩ : ClientEvent) ∉ last := by
    intro question line hmem
    rcases hlast _ hmem with h | ⟨_, h⟩ <;> cases h
  refine ⟨?_, ?_, ?_, ?_, ?_⟩
  · intro k
    rw [hsent, h.sent]
  · rw [hsent]
    exact h.order
  · intro k hk
    rw [hsent] at hk
    rw [← h.asked k hk]
    simp only [confirmedStep_append, hpre.previewsIn_zero]
    constructor
    · intro h
      rcases h with hc | ⟨j, hj, hc | ⟨j', -, _, _, _, _, rfl, -⟩⟩
      · exact absurd hc (hsteps k)
      · obtain rfl : k = j := by omega
        exact hc
      · exact absurd (List.mem_append_right _ List.mem_cons_self) (hunasked _ _)
    · intro hc
      exact Or.inr ⟨k, (Nat.zero_add k).symm, Or.inl hc⟩
  · rw [confirmedPlan_append, confirmedPlan_append, ← hplan]
    constructor
    · intro h
      rcases h with hc | hc | ⟨_, _, _, hmem, -⟩
      · exact hc
      · exact absurd hc h.plan
      · exact absurd hmem (hunasked _ _)
    · exact Or.inl
  · simpa only [Nat.zero_add] using h.done

/-- The question about the plan, and the loop behind it. -/
theorem Loop.planRun_asked {plan : Plan} {out : Option (Except CliError Unit)}
    {log evs loopEvs last : List ClientEvent} (h : Loop text opts w 0 plan.steps out loopEvs)
    (hlog : Quiet log) (hunasked : ∀ e ∈ log, ∀ question, e.op ≠ .readLine question)
    (hevs : ∀ e ∈ evs, ∃ steps highest line, e = ⟨.readLine (.plan steps highest), line⟩)
    (hplan : ConfirmedPlan evs ↔
      opts.stepByStep = false ∧ opts.approvalPolicy.decidePlan plan = .requiresPrompt)
    (hlast : Silent last) : PlanRun text opts w plan out (log ++ evs ++ (loopEvs ++ last)) := by
  refine h.planRun (quiet_append.mpr ⟨hlog, ?_⟩) ?_ ?_ hlast
  · intro e he request hr
    obtain ⟨_, _, _, rfl⟩ := hevs e he
    cases hr
  · intro i h
    obtain ⟨pre, step, line, post, hsplit, -⟩ := h
    have hmem : (⟨.readLine (.step step), some line⟩ : ClientEvent) ∈ log ++ evs := by
      rw [hsplit]
      exact List.mem_append_right _ List.mem_cons_self
    rcases List.mem_append.mp hmem with hmem | hmem
    · exact hunasked _ hmem _ rfl
    · obtain ⟨_, _, _, he⟩ := hevs _ hmem
      cases he
  · rw [confirmedPlan_append, ← hplan]
    refine or_iff_right ?_
    intro h
    obtain ⟨_, _, _, hmem, -⟩ := h
    exact hunasked _ hmem _ rfl

/-- From a plan that is to be executed on. -/
theorem runPlanned_runIn {plan : Plan} (text : ClientText) (hplan : w.plan = some (.ok plan))
    (hwet : opts.dryRun = false) {log : List ClientEvent} (hlog : Quiet log)
    (hunasked : ∀ e ∈ log, ∀ question, e.op ≠ .readLine question) :
    ∃ out log', (do
        match ← approvePlan opts plan with
        | .error e => return .error e
        | .ok () => runApproved text opts plan w.distro : ClientProg _).runIn w.answers log =
          (out, log') ∧
      (¬ Starts opts w plan ∧ sentExecutes log' = [] ∨
        Starts opts w plan ∧ PlanRun text opts w plan out log') := by
  obtain ⟨out, evs, hrun, hout, hevs, hyes⟩ := approvePlan_runIn opts w plan log
  have hquiet : Quiet (log ++ evs) := by
    refine quiet_append.mpr ⟨hlog, fun e he request hr => ?_⟩
    obtain ⟨_, _, _, rfl⟩ := hevs e he
    cases hr
  match out with
  | none =>
    exact ⟨none, _, runIn_bind_none hrun,
      Or.inl ⟨fun h => (nomatch hout.mpr h.approved), hquiet.sentExecutes_nil⟩⟩
  | some (.error e) =>
    exact ⟨_, _, runIn_bind_some hrun,
      Or.inl ⟨fun h => (nomatch hout.mpr h.approved), hquiet.sentExecutes_nil⟩⟩
  | some (.ok ()) =>
    rw [runIn_bind_some hrun]
    dsimp only
    obtain ⟨out', evs', hrun', hcase⟩ := runApproved_runIn text opts w plan (log ++ evs)
    refine ⟨out', _, hrun', ?_⟩
    rcases hcase with ⟨⟨message, hunfit⟩, rfl⟩ | ⟨hfits, loopEvs, last, rfl, hlast, hloop⟩
    · refine Or.inl ⟨fun h => (nomatch hunfit.symm.trans h.fits), ?_⟩
      rw [List.append_nil, hquiet.sentExecutes_nil]
    · rw [hquiet.previewsIn_zero] at hloop
      exact Or.inr ⟨⟨hplan, hwet, hout.mp rfl, hfits⟩,
        hloop.planRun_asked hlog hunasked hevs (hyes rfl) hlast⟩

/-- A run either never sends an execute request, or it is a run of the loop. -/
theorem runIntent_runIn (text : ClientText) (opts : RunOpts) (w : ClientWorld) (intent : String) :
    ∃ out log, (runIntent text opts intent).runIn w.answers [] = (out, log) ∧
      ((¬ ∃ plan, Starts opts w plan) ∧ sentExecutes log = [] ∨
        ∃ plan, Starts opts w plan ∧ PlanRun text opts w plan out log) := by
  unfold runIntent
  rw [clientOp_bind, runIn_op_some (rfl : w.answers [] .detectDistro = some w.distro),
    clientOp_bind]
  generalize hstart : ([] : List ClientEvent) ++ [⟨.detectDistro, w.distro⟩] = log₀
  have hquiet₀ : Quiet log₀ := by
    rw [← hstart]
    simp [Quiet]
  cases hplan : w.plan with
  | none =>
    rw [runIn_op_none (show w.answers log₀ (.planIntent intent) = none from hplan)]
    refine ⟨none, log₀, rfl, Or.inl ⟨?_, hquiet₀.sentExecutes_nil⟩⟩
    intro h
    obtain ⟨plan, h⟩ := h
    cases hplan.symm.trans h.planned
  | some planned =>
    rw [runIn_op_some (show w.answers log₀ (.planIntent intent) = some planned from hplan)]
    cases planned with
    | error e =>
      refine ⟨_, _, rfl, Or.inl ⟨?_, ?_⟩⟩
      · intro h
        obtain ⟨plan, h⟩ := h
        cases hplan.symm.trans h.planned
      · rw [← hstart]
        rfl
    | ok plan =>
      dsimp only
      rw [runIn_bind_some (print_runIn _)]
      generalize (if opts.json = true then CliOutput.planJson plan
        else CliOutput.printPlan plan) = output
      generalize hlog : log₀ ++ [⟨.planIntent intent, .ok plan⟩] ++ [⟨.print output, ()⟩] = log₁
      have hquiet₁ : Quiet log₁ := by
        rw [← hlog, ← hstart]
        simp [Quiet]
      have hunasked : ∀ e ∈ log₁, ∀ question, e.op ≠ .readLine question := by
        rw [← hlog, ← hstart]
        simp
      by_cases hdry : opts.dryRun = true
      · have hnone : ¬ ∃ plan, Starts opts w plan := by
          intro h
          obtain ⟨plan', h⟩ := h
          cases hdry.symm.trans h.wet
        rw [if_pos hdry]
        by_cases hstep : opts.stepByStep = true
        · rw [if_pos hstep]
          refine ⟨_, _, runIn_bind_some (print_runIn _), Or.inl ⟨hnone, ?_⟩⟩
          rw [sentExecutes_append, hquiet₁.sentExecutes_nil]
          rfl
        · rw [if_neg hstep]
          exact ⟨_, _, rfl, Or.inl ⟨hnone, hquiet₁.sentExecutes_nil⟩⟩
      · rw [if_neg hdry]
        obtain ⟨out, log', hrun, hcase⟩ :=
          runPlanned_runIn text hplan (by simpa using hdry) hquiet₁ hunasked
        refine ⟨out, log', hrun, ?_⟩
        rcases hcase with ⟨hnone, hsent⟩ | hplanRun
        · refine Or.inl ⟨?_, hsent⟩
          intro h
          obtain ⟨plan', h⟩ := h
          cases hplan.symm.trans h.planned
          exact hnone h
        · exact Or.inr ⟨plan, hplanRun⟩

theorem Starts.planRun {plan : Plan} (h : Starts opts w plan) (text : ClientText)
    (intent : String) :
    ∃ out log, (runIntent text opts intent).runIn w.answers [] = (out, log) ∧
      PlanRun text opts w plan out log := by
  obtain ⟨out, log, hrun, ⟨hnone, -⟩ | ⟨plan', h', hplan⟩⟩ := runIntent_runIn text opts w intent
  · exact absurd ⟨plan, h⟩ hnone
  · cases h.planned.symm.trans h'.planned
    exact ⟨out, log, hrun, hplan⟩

theorem planRun_of_sent {intent : String} {out : Option (Except CliError Unit)}
    {log : List ClientEvent} (hrun : (runIntent text opts intent).runIn w.answers [] = (out, log))
    {i : Nat} (hi : i < (sentExecutes log).length) :
    ∃ plan, Starts opts w plan ∧ PlanRun text opts w plan out log := by
  obtain ⟨out', log', hrun', hcase⟩ := runIntent_runIn text opts w intent
  cases hrun.symm.trans hrun'
  rcases hcase with ⟨-, hnone⟩ | hplan
  · rw [hnone] at hi
    exact absurd hi (Nat.not_lt_zero i)
  · exact hplan

end Run

/-! ## A failed step -/

/-- A job that completed without success. -/
def Failing (result : ResultEnvelope) : Prop :=
  result.status = .failed ∨ result.status = .rolledBack

/-- Nothing is executed after a failed step, and the run is no success. -/
def FailureStops (text : ClientText) (opts : RunOpts) (w : ClientWorld) (intent : String) : Prop :=
  ∀ out log, (runIntent text opts intent).runIn w.answers [] = (out, log) →
    ∀ i < (sentExecutes log).length, ∀ result, CompletedAs text w i result → Failing result →
      (sentExecutes log).length = i + 1 ∧ out ≠ some (.ok ())

/-- The loop ends behind a completed step exactly when the next one is held back. -/
theorem PlanRun.ends_at {text : ClientText} {opts : RunOpts} {w : ClientWorld} {plan : Plan}
    {out : Option (Except CliError Unit)} {log : List ClientEvent} {i : Nat}
    {result : ResultEnvelope} (h : PlanRun text opts w plan out log)
    (hi : Executes text opts w 0 plan.steps i) (hresult : CompletedAs text w i result) :
    ((sentExecutes log).length = i + 1 ∧ out ≠ some (.ok ())) ↔
      ∃ step, plan.steps[i + 1]? = some step ∧ ¬ GoesOut text opts w (i + 1) step := by
  have hcompleted : ∀ j ≤ i, ∃ result, CompletedAs text w j result := by
    intro j hj
    rcases Nat.lt_or_eq_of_le hj with hlt | rfl
    · simpa only [Nat.zero_add] using hi.2.1 j hlt
    · exact ⟨result, hresult⟩
  have hgo : ∀ j ≤ i, ∀ step, plan.steps[j]? = some step → GoesOut text opts w j step := by
    simpa only [Nat.zero_add] using hi.2.2
  constructor
  · intro h
    obtain ⟨hlength, hout⟩ := h
    have hnext : ¬ Executes text opts w 0 plan.steps (i + 1) := by
      rw [← h.sent]
      omega
    by_cases hlast : i + 1 < plan.steps.length
    · refine ⟨plan.steps[i + 1], List.getElem?_eq_getElem hlast, fun hstep => hnext ?_⟩
      refine ⟨hlast, fun j hj => ?_, fun j hj s hs => ?_⟩
      · rw [Nat.zero_add]
        exact hcompleted j (by omega)
      · rw [Nat.zero_add]
        rcases Nat.lt_or_eq_of_le hj with hlt | rfl
        · exact hgo j (by omega) s hs
        · rw [List.getElem?_eq_getElem hlast] at hs
          obtain rfl := Option.some.inj hs
          exact hstep
    · refine absurd (h.done.mpr fun k s hs => ?_) hout
      obtain ⟨hk, -⟩ := List.getElem?_eq_some_iff.mp hs
      exact ⟨hgo k (by omega) s hs, hcompleted k (by omega)⟩
  · intro h
    obtain ⟨step, hstep, hheld⟩ := h
    refine ⟨?_, fun hout => hheld (h.done.mp hout (i + 1) step hstep).1⟩
    have hthis : i < (sentExecutes log).length := (h.sent i).mpr hi
    have hnext : ¬ i + 1 < (sentExecutes log).length := by
      rw [h.sent]
      intro hex
      have hout := hex.2.2 (i + 1) (Nat.le_refl _) step hstep
      rw [Nat.zero_add] at hout
      exact hheld hout
    omega

theorem FailureStops.next_held {text : ClientText} {opts : RunOpts} {w : ClientWorld}
    {intent : String} (h : FailureStops text opts w intent) {plan : Plan}
    (hstarts : Starts opts w plan) {i : Nat} {result : ResultEnvelope}
    (hi : Executes text opts w 0 plan.steps i) (hresult : CompletedAs text w i result)
    (hfailing : Failing result) :
    ∃ step, plan.steps[i + 1]? = some step ∧ ¬ GoesOut text opts w (i + 1) step := by
  obtain ⟨out, log, hrun, hplan⟩ := hstarts.planRun text intent
  exact (hplan.ends_at hi hresult).mp
    (h out log hrun i ((hplan.sent i).mpr hi) result hresult hfailing)

/-- A failed step stops the plan exactly when there is a next step that is held
back for a reason of its own. -/
theorem failureStops_iff (text : ClientText) (opts : RunOpts) (w : ClientWorld)
    (intent : String) :
    FailureStops text opts w intent ↔
      ∀ plan, Starts opts w plan → ∀ i result, Executes text opts w 0 plan.steps i →
        CompletedAs text w i result → Failing result →
          ∃ step, plan.steps[i + 1]? = some step ∧ ¬ GoesOut text opts w (i + 1) step := by
  constructor
  · intro h plan hstarts i result hi hresult hfailing
    exact h.next_held hstarts hi hresult hfailing
  · intro h out log hrun i hi result hresult hfailing
    obtain ⟨plan, hstarts, hplan⟩ := planRun_of_sent hrun hi
    have hex := (hplan.sent i).mp hi
    exact (hplan.ends_at hex hresult).mpr (h plan hstarts i result hex hresult hfailing)

/-- A plan that the flags `--yes` and `--max-risk low` approve. -/
def upgradePlan : Plan where
  intent := "upgrade the system"
  summary := "Refresh and upgrade"
  explanation := "Two steps."
  steps := [⟨"AptUpdate", "Refresh", .low, .object [], by decide⟩,
    ⟨"AptUpgrade", "Upgrade", .low, .object [], by decide⟩]
  intent_ne := by decide
  summary_ne := by decide
  explanation_ne := by decide
  steps_ne := by decide

def unattended : RunOpts where
  yes := true
  maxRisk := some .low
  nonInteractive := false
  dryRun := false
  json := false
  stepByStep := false

theorem upgradePlan_starts (risk : Nat → RiskLevel) (status : Nat → JobState) :
    Starts unattended (answeringWorld (some (.ok upgradePlan)) risk status) upgradePlan :=
  ⟨rfl, rfl, Or.inr (Or.inl rfl), rfl⟩

theorem unattended_goesOut (plan : Option (Except CliError Plan)) (risk : Nat → RiskLevel)
    (status : Nat → JobState) (i : Nat) (step : PlanStep) :
    GoesOut plainText unattended (answeringWorld plan risk status) i step :=
  ⟨fun h => (nomatch h), ⟨⟨shortPreview (risk i), ⟨previewReplies (risk i), rfl,
    previewOf_previewReplies (risk i)⟩⟩, rfl⟩⟩

/-- The refresh fails, and the upgrade is executed. -/
theorem failureStops_upgradePlan :
    ¬ FailureStops plainText unattended
        (answeringWorld (some (.ok upgradePlan)) (fun _ => .low) fun _ => .failed)
        "upgrade the system" := by
  intro h
  have hfirst : Executes plainText unattended
      (answeringWorld (some (.ok upgradePlan)) (fun _ => .low) fun _ => .failed) 0
        upgradePlan.steps 0 :=
    ⟨by decide, by simp, fun j _ s _ => unattended_goesOut _ _ _ _ s⟩
  obtain ⟨step, -, hheld⟩ := h.next_held (upgradePlan_starts _ _) hfirst
    ⟨executeReplies .failed, rfl, resultOf_executeReplies .failed⟩ (Or.inl rfl)
  exact hheld (unattended_goesOut _ _ _ _ step)

/-! ## The risk the daemon reports -/

/-- No execute request goes out for a step that the daemon calls high without a
yes, or for one above the ceiling. -/
def GateBinds (text : ClientText) (opts : RunOpts) (w : ClientWorld) (intent : String) : Prop :=
  ∀ out log, (runIntent text opts intent).runIn w.answers [] = (out, log) →
    ∀ i < (sentExecutes log).length, ∀ preview, PreviewedAs text w i preview →
      (preview.riskLevel = .high → ConfirmedPlan log ∨ ConfirmedStep log i) ∧
      ∀ ceiling, opts.maxRisk = some ceiling → riskLevelOrd preview.riskLevel ≤ ceiling.rank

/-- The policy asks about the step at position `i`, or about the plan. -/
def Asks (opts : RunOpts) (plan : Plan) (i : Nat) : Prop :=
  if opts.stepByStep then ∃ step, plan.steps[i]? = some step ∧
    opts.approvalPolicy.decideStep step.riskLevel = .requiresPrompt
  else opts.approvalPolicy.decidePlan plan = .requiresPrompt

theorem PlanRun.confirmed_iff {text : ClientText} {opts : RunOpts} {w : ClientWorld} {plan : Plan}
    {out : Option (Except CliError Unit)} {log : List ClientEvent} {i : Nat}
    (h : PlanRun text opts w plan out log) (hi : i < (sentExecutes log).length) :
    (ConfirmedPlan log ∨ ConfirmedStep log i) ↔ Asks opts plan i := by
  rw [h.askedPlan, h.askedStep i hi, Asks]
  cases opts.stepByStep <;> simp

theorem GateBinds.bounds {text : ClientText} {opts : RunOpts} {w : ClientWorld} {intent : String}
    (h : GateBinds text opts w intent) {plan : Plan} (hstarts : Starts opts w plan) {i : Nat}
    {preview : PreviewEnvelope} (hi : Executes text opts w 0 plan.steps i)
    (hpreview : PreviewedAs text w i preview) :
    (preview.riskLevel = .high → Asks opts plan i) ∧
      ∀ ceiling, opts.maxRisk = some ceiling → riskLevelOrd preview.riskLevel ≤ ceiling.rank := by
  obtain ⟨out, log, hrun, hplan⟩ := hstarts.planRun text intent
  have hsent := (hplan.sent i).mpr hi
  rw [← hplan.confirmed_iff hsent]
  exact h out log hrun i hsent preview hpreview

/-- The gate binds exactly when no executed step has a daemon risk above the
ceiling, and the policy asked, going by the planner's label, about each step that
the daemon calls high. -/
theorem gateBinds_iff (text : ClientText) (opts : RunOpts) (w : ClientWorld) (intent : String) :
    GateBinds text opts w intent ↔
      ∀ plan, Starts opts w plan → ∀ i preview, Executes text opts w 0 plan.steps i →
        PreviewedAs text w i preview →
          (preview.riskLevel = .high → Asks opts plan i) ∧
          ∀ ceiling, opts.maxRisk = some ceiling →
            riskLevelOrd preview.riskLevel ≤ ceiling.rank := by
  constructor
  · intro h plan hstarts i preview hi hpreview
    exact h.bounds hstarts hi hpreview
  · intro h out log hrun i hi preview hpreview
    obtain ⟨plan, hstarts, hplan⟩ := planRun_of_sent hrun hi
    rw [hplan.confirmed_iff hi]
    exact h plan hstarts i preview ((hplan.sent i).mp hi) hpreview

/-- The planner calls the upgrade low, the daemon high, and nobody is asked. -/
theorem gateBinds_upgradePlan :
    ¬ GateBinds plainText unattended
        (answeringWorld (some (.ok upgradePlan)) (fun _ => .high) fun _ => .succeeded)
        "upgrade the system" := by
  intro h
  have hfirst : Executes plainText unattended
      (answeringWorld (some (.ok upgradePlan)) (fun _ => .high) fun _ => .succeeded) 0
        upgradePlan.steps 0 :=
    ⟨by decide, by simp, fun j _ s _ => unattended_goesOut _ _ _ _ s⟩
  have hbound := h.bounds (upgradePlan_starts _ _) hfirst
    ⟨previewReplies .high, rfl, previewOf_previewReplies .high⟩
  have hasks : unattended.approvalPolicy.decidePlan upgradePlan = .requiresPrompt := hbound.1 rfl
  exact absurd hasks (by decide)

end Sysknife
