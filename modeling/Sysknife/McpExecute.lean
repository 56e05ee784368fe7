import Sysknife.Wire

/-!
# `sysknife_execute` of the MCP server

The loop that previews a step, holds its risk against the ceiling and executes
it, one step after the other.
-/

namespace Sysknife

open Interaction

structure StepToExecute where
  actionName : String
  params : Json

structure StepResult where
  actionName : String
  status : String
  summary : String
  output : List String
  warnings : List String
  needsReboot : Bool
  transactionId : String

structure ExecuteOutput where
  steps : List StepResult
  needsReboot : Bool

def outputLineLimit : Nat := 500

def truncateOutput (lines : List String) : List String :=
  if lines.length > outputLineLimit then
    lines.take outputLineLimit ++
      ["[truncated: " ++ toString (lines.length - outputLineLimit) ++ " more lines omitted]"]
  else lines

def toAsciiLowercase (s : String) : String := String.ofList (s.toList.map Char.toLower)

section Ceiling
variable (text : ClientText)

def parseMaxRisk (s : Option String) : Except String Nat :=
  let raw := s.getD "medium"
  match toAsciiLowercase raw with
  | "low" => .ok 0
  | "medium" => .ok 1
  | "high" => .error ("max_risk=\"high\" is not allowed via MCP — high-risk plans must " ++
      "be approved via the CLI or GUI confirmation flow")
  | _ => .error ("invalid max_risk " ++ text.debugStr raw ++ ": expected \"low\" or \"medium\"")

def riskLevelOrd : RiskLevel → Nat
  | .low => 0
  | .medium => 1
  | .high => 2

def checkRiskCeiling (risk : RiskLevel) (ceiling : Nat) : Except Unit Unit :=
  if riskLevelOrd risk > ceiling then .error () else .ok ()

theorem parseMaxRisk_le {s : Option String} {ceiling : Nat}
    (h : parseMaxRisk text s = .ok ceiling) : ceiling ≤ 1 := by
  unfold parseMaxRisk at h
  dsimp only at h
  split at h <;> cases h <;> omega

theorem checkRiskCeiling_ok {risk : RiskLevel} {ceiling : Nat} {u : Unit}
    (h : checkRiskCeiling risk ceiling = .ok u) : riskLevelOrd risk ≤ ceiling := by
  unfold checkRiskCeiling at h
  split at h
  · cases h
  · omega

end Ceiling

/-- `{:?}` of a `RiskLevel`. -/
def RiskLevel.debug : RiskLevel → String
  | .low => "Low"
  | .medium => "Medium"
  | .high => "High"

def ceilingMessage (step : StepToExecute) (risk : RiskLevel) (maxRisk : Option String) : String :=
  "step '" ++ step.actionName ++ "' has risk '" ++ risk.debug ++
    "' which exceeds max_risk ceiling '" ++ maxRisk.getD "medium" ++ "'"

def stepResult (step : StepToExecute) (lines : List String) (result : ResultEnvelope) :
    StepResult where
  actionName := step.actionName
  status := UnitEnum.variantName result.status
  summary := result.summary
  output := truncateOutput lines
  warnings := result.warnings
  needsReboot := result.needsReboot
  transactionId := result.transactionId

section Loop
variable (text : ClientText) (maxRisk : Option String) (ceiling : Nat)

/-- The loop of `execute_steps_inner`. -/
def executeSteps : List StepToExecute → List StepResult → Bool →
    ClientProg (Except String ExecuteOutput)
  | [], results, planNeedsReboot => return .ok ⟨results, planNeedsReboot⟩
  | step :: rest, results, planNeedsReboot => do
    match ← DaemonClient.preview text step.actionName step.params with
    | .error e => return .error ("preview error for " ++ step.actionName ++ ": " ++ e.display)
    | .ok preview =>
      match checkRiskCeiling preview.riskLevel ceiling with
      | .error () => return .error (ceilingMessage step preview.riskLevel maxRisk)
      | .ok () => do
        let executed ← DaemonClient.execute text step.actionName step.params preview.requestHash
        match executed.2 with
        | .error e =>
          return .error ("execute error for " ++ step.actionName ++ ": " ++ e.display)
        | .ok result =>
          let results := results ++ [stepResult step executed.1 result]
          let planNeedsReboot := planNeedsReboot || result.needsReboot
          if result.status = .succeeded then executeSteps rest results planNeedsReboot
          else return .ok ⟨results, planNeedsReboot⟩

end Loop

/-- `execute_steps_inner`. -/
def executeStepsInner (text : ClientText) (steps : List StepToExecute)
    (maxRisk : Option String) : ClientProg (Except String ExecuteOutput) :=
  match parseMaxRisk text maxRisk with
  | .error e => return .error e
  | .ok ceiling => executeSteps text maxRisk ceiling steps [] false

/-! ## What the loop has sent by any moment -/

section Discipline
variable {text : ClientText} {maxRisk : Option String} {ceiling : Nat}

/-- The accepted preview of a step and the request that follows it. -/
def previewEvents (step : StepToExecute) (replies : Replies) : List ClientEvent :=
  [⟨.request (.preview step.actionName step.params), .ok ()⟩, ⟨.replies, replies⟩]

def executing (step : StepToExecute) (preview : PreviewEnvelope) (answer : Except String Unit) :
    ClientEvent :=
  ⟨.request (.execute step.actionName step.params preview.requestHash), answer⟩

theorem DaemonClient.preview_trace_quiet {actionName : String} {params : Json}
    {evs : List ClientEvent} {q : ClientProg (Except CliError PreviewEnvelope)}
    (h : Trace (DaemonClient.preview text actionName params) evs q) :
    ∀ e ∈ evs, e.op.isExecute = false := by
  rcases DaemonClient.call_trace h with ⟨rfl, -⟩ | ⟨e, rfl, -⟩ | ⟨rfl, -⟩ | ⟨replies, rfl, -⟩ <;>
    simp [ClientOp.isExecute]

/-- A preview that returned an envelope got it from its replies. -/
theorem DaemonClient.preview_returned {actionName : String} {params : Json}
    {evs : List ClientEvent} {preview : PreviewEnvelope}
    (h : Trace (DaemonClient.preview text actionName params) evs (.ret (.ok preview))) :
    ∃ replies, evs = [⟨.request (.preview actionName params), .ok ()⟩, ⟨.replies, replies⟩] ∧
      previewOf text replies = .ok preview := by
  rcases DaemonClient.call_trace h with ⟨-, hq⟩ | ⟨e, -, hq⟩ | ⟨-, hq⟩ | ⟨replies, rfl, hq⟩
  · cases hq
  · cases hq
  · cases hq
  · exact ⟨replies, rfl, (Prog.ret.inj hq).symm⟩

/-- One round of the loop: nothing is executed, or the step is, after a preview
within the ceiling, and the loop goes on only after a success. -/
theorem executeSteps_cons_trace {step : StepToExecute} {rest : List StepToExecute}
    {results : List StepResult} {reboot : Bool} {evs : List ClientEvent}
    {q : ClientProg (Except String ExecuteOutput)}
    (h : Trace (executeSteps text maxRisk ceiling (step :: rest) results reboot) evs q) :
    (∀ e ∈ evs, e.op.isExecute = false) ∨
    ∃ replies preview answer tail, previewOf text replies = .ok preview ∧
      riskLevelOrd preview.riskLevel ≤ ceiling ∧
      evs = previewEvents step replies ++ executing step preview answer :: tail ∧
      (tail = [] ∨ (∃ replies', tail = [⟨.replies, replies'⟩]) ∨
        ∃ replies' result later results' reboot', answer = .ok () ∧
          tail = ⟨.replies, replies'⟩ :: later ∧ resultOf text replies' = .ok result ∧
          result.status = .succeeded ∧
          Trace (executeSteps text maxRisk ceiling rest results' reboot') later q) := by
  rw [executeSteps] at h
  rcases trace_bind h with ⟨p', hp', -⟩ | ⟨outcome, pre, post, rfl, hpre, hpost⟩
  · exact Or.inl (DaemonClient.preview_trace_quiet hp')
  have hquiet := DaemonClient.preview_trace_quiet hpre
  cases outcome with
  | error e =>
    obtain ⟨rfl, -⟩ := trace_ret hpost
    rw [List.append_nil]
    exact Or.inl hquiet
  | ok preview =>
    dsimp only at hpost
    cases hrisk : checkRiskCeiling preview.riskLevel ceiling with
    | error u =>
      rw [hrisk] at hpost
      obtain ⟨rfl, -⟩ := trace_ret hpost
      rw [List.append_nil]
      exact Or.inl hquiet
    | ok u =>
      rw [hrisk] at hpost
      dsimp only at hpost
      obtain ⟨replies, rfl, hreplies⟩ := DaemonClient.preview_returned hpre
      have hle := checkRiskCeiling_ok hrisk
      rcases trace_bind hpost with ⟨p', hp', -⟩ | ⟨executed, evs₁, evs₂, rfl, hrun, hnext⟩
      · rcases DaemonClient.call_trace hp' with ⟨rfl, -⟩ | ⟨e, rfl, -⟩ | ⟨rfl, -⟩ |
          ⟨replies', rfl, -⟩
        · rw [List.append_nil]
          exact Or.inl hquiet
        · exact Or.inr ⟨replies, preview, .error e, [], hreplies, hle, rfl, Or.inl rfl⟩
        · exact Or.inr ⟨replies, preview, .ok (), [], hreplies, hle, rfl, Or.inl rfl⟩
        · exact Or.inr ⟨replies, preview, .ok (), [⟨.replies, replies'⟩], hreplies, hle, rfl,
            Or.inr (Or.inl ⟨replies', rfl⟩)⟩
      · rcases DaemonClient.call_trace hrun with ⟨-, hq⟩ | ⟨e, rfl, hq⟩ | ⟨-, hq⟩ |
          ⟨replies', rfl, hq⟩
        · cases hq
        · cases hq
          obtain ⟨rfl, -⟩ := trace_ret hnext
          exact Or.inr ⟨replies, preview, .error e, [], hreplies, hle, rfl, Or.inl rfl⟩
        · cases hq
        · obtain rfl := Prog.ret.inj hq
          refine Or.inr ⟨replies, preview, .ok (), ⟨.replies, replies'⟩ :: evs₂, hreplies, hle,
            rfl, Or.inr ?_⟩
          cases hres : (executeOf text replies'.lost replies'.frames).2 with
          | error e =>
            rw [hres] at hnext
            obtain ⟨rfl, -⟩ := trace_ret hnext
            exact Or.inl ⟨replies', rfl⟩
          | ok result =>
            rw [hres] at hnext
            dsimp only at hnext
            by_cases hstatus : result.status = .succeeded
            · rw [if_pos hstatus] at hnext
              exact Or.inr ⟨replies', result, evs₂, _, _, rfl, rfl, hres, hstatus, hnext⟩
            · rw [if_neg hstatus] at hnext
              obtain ⟨rfl, -⟩ := trace_ret hnext
              exact Or.inl ⟨replies', rfl⟩

/-- A step whose preview is within the ceiling is executed. -/
theorem executeSteps_executes {step : StepToExecute} {rest : List StepToExecute}
    {results : List StepResult} {reboot : Bool} {replies : Replies} {preview : PreviewEnvelope}
    (hpreview : previewOf text replies = .ok preview)
    (hle : riskLevelOrd preview.riskLevel ≤ ceiling) (answer : Except String Unit) :
    ∃ q, Trace (executeSteps text maxRisk ceiling (step :: rest) results reboot)
      (previewEvents step replies ++ [executing step preview answer]) q := by
  have hcheck : checkRiskCeiling preview.riskLevel ceiling = .ok () := if_neg (by omega)
  rw [executeSteps]
  refine Exists.imp (fun q hq => .bind (DaemonClient.call_answered replies) hq) ?_
  rw [hpreview]
  dsimp only
  rw [hcheck]
  exact ⟨_, Trace.cons _ (.done _)⟩

/-- Behind a step that has succeeded the loop goes on with the others. -/
theorem executeSteps_goesOn {step : StepToExecute} {rest : List StepToExecute}
    {results : List StepResult} {reboot : Bool} {replies replies' : Replies}
    {preview : PreviewEnvelope} {result : ResultEnvelope} {evs : List ClientEvent}
    (hpreview : previewOf text replies = .ok preview)
    (hle : riskLevelOrd preview.riskLevel ≤ ceiling)
    (hresult : resultOf text replies' = .ok result) (hstatus : result.status = .succeeded)
    (hrest : ∀ results' reboot',
      ∃ q, Trace (executeSteps text maxRisk ceiling rest results' reboot') evs q) :
    ∃ q, Trace (executeSteps text maxRisk ceiling (step :: rest) results reboot)
      (previewEvents step replies ++
        ([executing step preview (.ok ()), ⟨.replies, replies'⟩] ++ evs)) q := by
  have hcheck : checkRiskCeiling preview.riskLevel ceiling = .ok () := if_neg (by omega)
  rw [executeSteps]
  refine Exists.imp (fun q hq => .bind (DaemonClient.call_answered replies) hq) ?_
  rw [hpreview]
  dsimp only
  rw [hcheck]
  refine Exists.imp (fun q hq => .bind (DaemonClient.call_answered replies') hq) ?_
  have hdone : (executeOf text replies'.lost replies'.frames).2 = .ok result := hresult
  rw [hdone]
  dsimp only
  rw [if_pos hstatus]
  exact hrest _ _

/-- What has been checked when a step's execute request goes out. -/
structure Cleared (text : ClientText) (ceiling : Nat) (steps : List StepToExecute)
    (before : List ClientEvent) (actionName : String) (params : Json) (approvalHash : String) :
    Prop where
  next : ∃ step, steps[executesIn before]? = some step ∧ step.actionName = actionName ∧
    step.params = params
  approved : ∃ earlier replies preview,
    before = earlier ++
      [⟨.request (.preview actionName params), .ok ()⟩, ⟨.replies, replies⟩] ∧
    previewOf text replies = .ok preview ∧ riskLevelOrd preview.riskLevel ≤ ceiling ∧
    preview.riskLevel ≠ .high ∧ approvalHash = preview.requestHash
  succeeded : ∀ earlier later e, before = earlier ++ e :: later → e.op.isExecute = true →
    ∃ replies result later', later = ⟨.replies, replies⟩ :: later' ∧
      resultOf text replies = .ok result ∧ result.status = .succeeded

/-- A round that succeeded in front of the others. -/
theorem Cleared.after_round {steps : List StepToExecute} {before : List ClientEvent}
    {actionName : String} {params : Json} {approvalHash : String}
    (h : Cleared text ceiling steps before actionName params approvalHash) {step : StepToExecute}
    {replies replies' : Replies} {preview : PreviewEnvelope} {result : ResultEnvelope}
    (hresult : resultOf text replies' = .ok result) (hstatus : result.status = .succeeded) :
    Cleared text ceiling (step :: steps)
      (previewEvents step replies ++ executing step preview (.ok ()) :: ⟨.replies, replies'⟩ :: before)
      actionName params approvalHash := by
  have hcount : executesIn (previewEvents step replies ++
      executing step preview (.ok ()) :: ⟨.replies, replies'⟩ :: before) =
        executesIn before + 1 := by
    simp [executesIn, previewEvents, executing, ClientOp.isExecute]
  refine ⟨?_, ?_, ?_⟩
  · obtain ⟨s, hs, hname, hparams⟩ := h.next
    exact ⟨s, by rw [hcount, List.getElem?_cons_succ]; exact hs, hname, hparams⟩
  · obtain ⟨earlier, rs, p, rfl, hrest⟩ := h.approved
    exact ⟨previewEvents step replies ++
      executing step preview (.ok ()) :: ⟨.replies, replies'⟩ :: earlier, rs, p,
      by simp, hrest⟩
  · intro earlier later e hsplit hexec
    rcases split_append hsplit with ⟨mid, hmid, -⟩ | ⟨mid, rfl, hrest⟩
    · have hmem : e ∈ previewEvents step replies := by
        rw [hmid]
        simp
      have hno : e.op.isExecute = false := by
        simp only [previewEvents, List.mem_cons, List.not_mem_nil, or_false] at hmem
        rcases hmem with rfl | rfl <;> rfl
      rw [hno] at hexec
      cases hexec
    · match mid with
      | [] =>
        rw [List.nil_append, List.cons.injEq] at hrest
        exact ⟨replies', result, before, hrest.2.symm, hresult, hstatus⟩
      | [x] =>
        simp only [List.cons_append, List.nil_append, List.cons.injEq] at hrest
        obtain ⟨-, rfl, -⟩ := hrest
        cases hexec
      | x :: y :: mid =>
        simp only [List.cons_append, List.cons.injEq] at hrest
        exact h.succeeded mid later e hrest.2.2 hexec

/-- Every execute request of the loop was cleared. -/
theorem executeSteps_cleared {steps : List StepToExecute} {results : List StepResult}
    {reboot : Bool} {evs pre post : List ClientEvent}
    {q : ClientProg (Except String ExecuteOutput)} {actionName : String} {params : Json}
    {approvalHash : String} {answer : Except String Unit}
    (h : Trace (executeSteps text maxRisk ceiling steps results reboot) evs q)
    (he : evs = pre ++ ⟨.request (.execute actionName params approvalHash), answer⟩ :: post)
    (hceiling : ceiling ≤ 1) :
    Cleared text ceiling steps pre actionName params approvalHash := by
  induction steps generalizing results reboot evs pre with
  | nil =>
    obtain ⟨rfl, -⟩ := trace_ret h
    simp at he
  | cons step rest ih =>
    rcases executeSteps_cons_trace h with hquiet | ⟨replies, preview, first, tail, hpreview, hle,
      rfl, htail⟩
    · have hmem : (⟨.request (.execute actionName params approvalHash), answer⟩ : ClientEvent) ∈
          evs := by
        rw [he]
        simp
      exact absurd (hquiet _ hmem) (by simp [ClientOp.isExecute])
    rcases split_append he with ⟨mid, hmid, -⟩ | ⟨mid, rfl, hrest⟩
    · have hmem : (⟨.request (.execute actionName params approvalHash), answer⟩ : ClientEvent) ∈
          previewEvents step replies := by
        rw [hmid]
        simp
      simp [previewEvents] at hmem
    match mid with
    | [] =>
      simp only [executing, List.nil_append, List.cons.injEq, Event.mk.injEq,
        ClientOp.request.injEq, ClientRequest.execute.injEq] at hrest
      obtain ⟨⟨⟨rfl, rfl, rfl⟩, -⟩, -⟩ := hrest
      have hhigh : preview.riskLevel ≠ .high := by
        intro hh
        rw [hh, riskLevelOrd] at hle
        omega
      refine ⟨⟨step, ?_, rfl, rfl⟩, ⟨[], replies, preview, rfl, hpreview, hle, hhigh, rfl⟩, ?_⟩
      · simp [executesIn, previewEvents, ClientOp.isExecute]
      · intro earlier later e hsplit hexec
        have hmem : e ∈ previewEvents step replies := by
          rw [List.append_nil] at hsplit
          rw [hsplit]
          simp
        simp only [previewEvents, List.mem_cons, List.not_mem_nil, or_false] at hmem
        rcases hmem with rfl | rfl <;> cases hexec
    | x :: mid =>
      rw [List.cons_append, List.cons.injEq] at hrest
      obtain ⟨rfl, hrest⟩ := hrest
      rcases htail with rfl | ⟨replies', rfl⟩ |
        ⟨replies', result, later, results', reboot', rfl, rfl, hresult, hstatus, hloop⟩
      · simp at hrest
      · have hmem : (⟨.request (.execute actionName params approvalHash), answer⟩ :
            ClientEvent) ∈ [⟨.replies, replies'⟩] := by
          rw [hrest]
          simp
        simp at hmem
      · match mid with
        | [] => simp at hrest
        | y :: mid =>
          rw [List.cons_append, List.cons.injEq] at hrest
          obtain ⟨rfl, hrest⟩ := hrest
          exact (ih hloop hrest).after_round hresult hstatus

end Discipline

/-- At any moment of any call, under any replies: each execute request is for the
next step of the list, right after a preview of it whose risk was within the
ceiling and whose hash it carries, and all earlier ones were answered with a
success. -/
theorem executions_cleared {text : ClientText} {steps : List StepToExecute}
    {maxRisk : Option String} {evs pre post : List ClientEvent}
    {q : ClientProg (Except String ExecuteOutput)} {actionName : String} {params : Json}
    {approvalHash : String} {answer : Except String Unit}
    (h : Trace (executeStepsInner text steps maxRisk) evs q)
    (he : evs = pre ++ ⟨.request (.execute actionName params approvalHash), answer⟩ :: post) :
    ∃ ceiling, parseMaxRisk text maxRisk = .ok ceiling ∧
      Cleared text ceiling steps pre actionName params approvalHash := by
  unfold executeStepsInner at h
  cases hc : parseMaxRisk text maxRisk with
  | error e =>
    rw [hc] at h
    obtain ⟨rfl, -⟩ := trace_ret h
    simp at he
  | ok ceiling =>
    rw [hc] at h
    exact ⟨ceiling, rfl, executeSteps_cleared h he (parseMaxRisk_le text hc)⟩

/-- A step that has succeeded, and the next one. -/
def twoSteps : List StepToExecute := [⟨"GetDiskUsage", .object []⟩, ⟨"ListServices", .object []⟩]

theorem executions_cleared_diskUsage :
    ∃ ceiling, parseMaxRisk plainText none = .ok ceiling ∧
      Cleared plainText ceiling twoSteps
        [⟨.request (.preview "GetDiskUsage" (.object [])), .ok ()⟩,
          ⟨.replies, previewReplies .low⟩,
          ⟨.request (.execute "GetDiskUsage" (.object []) "3a7b"), .ok ()⟩,
          ⟨.replies, executeReplies .succeeded⟩,
          ⟨.request (.preview "ListServices" (.object [])), .ok ()⟩,
          ⟨.replies, previewReplies .medium⟩] "ListServices" (.object []) "3a7b" := by
  have hc : parseMaxRisk plainText none = .ok 1 := by decide +kernel
  have hrun : ∃ q, Trace (executeStepsInner plainText twoSteps none)
      (previewEvents ⟨"GetDiskUsage", .object []⟩ (previewReplies .low) ++
        ([executing ⟨"GetDiskUsage", .object []⟩ (shortPreview .low) (.ok ()),
          ⟨.replies, executeReplies .succeeded⟩] ++
        (previewEvents ⟨"ListServices", .object []⟩ (previewReplies .medium) ++
          [executing ⟨"ListServices", .object []⟩ (shortPreview .medium) (.ok ())]))) q := by
    rw [executeStepsInner, hc]
    refine executeSteps_goesOn (previewOf_previewReplies .low) (by decide)
      (resultOf_executeReplies .succeeded) rfl fun results reboot => ?_
    exact executeSteps_executes (previewOf_previewReplies .medium) (by decide) (.ok ())
  obtain ⟨q, hq⟩ := hrun
  exact executions_cleared hq rfl

/-! ## All or nothing -/

section AllOrNothing
variable (text : ClientText) (w : ClientWorld)

/-- The daemon's preview puts some step above the ceiling. -/
def Offends (steps : List StepToExecute) (maxRisk : Option String) : Prop :=
  ∃ i < steps.length, ∃ replies preview, (w.preview i).answered = some replies ∧
    previewOf text replies = .ok preview ∧
    ∀ ceiling, parseMaxRisk text maxRisk = .ok ceiling → ceiling < riskLevelOrd preview.riskLevel

/-- An error comes back and no execute request has gone out. -/
def RefusedUntouched (p : ClientProg (Except String ExecuteOutput)) : Prop :=
  ∃ e log, p.runIn w.answers [] = (some (.error e), log) ∧
    ∀ actionName params approvalHash,
      (⟨.request (.execute actionName params approvalHash), .ok ()⟩ : ClientEvent) ∉ log

def AllOrNothing (steps : List StepToExecute) (maxRisk : Option String) : Prop :=
  Offends text w steps maxRisk → RefusedUntouched w (executeStepsInner text steps maxRisk)

/-- The very first step comes to an end before its execute request is out. -/
def FirstStepStops (ceiling : Nat) : Prop :=
  (∃ e, (w.preview 0).sent = some (.error e)) ∨
  ∃ replies, (w.preview 0).answered = some replies ∧
    ((∃ e, previewOf text replies = .error e) ∨
      ∃ preview, previewOf text replies = .ok preview ∧
        (ceiling < riskLevelOrd preview.riskLevel ∨ ∃ e, (w.execute 0).sent = some (.error e)))

variable {text w}

theorem not_refused_of_waits {p : ClientProg (Except String ExecuteOutput)}
    {log : List ClientEvent} (h : p.runIn w.answers [] = (none, log)) : ¬ RefusedUntouched w p := by
  rintro ⟨e, log', hrun, -⟩
  rw [h] at hrun
  cases hrun

/-- What the first step's execute request comes to, after a preview within the
ceiling. -/
theorem executeSteps_sent_iff {maxRisk : Option String} {ceiling : Nat}
    {step : StepToExecute} {rest : List StepToExecute} {replies : Replies}
    {preview : PreviewEnvelope}
    (hpreview : (DaemonClient.preview text step.actionName step.params).runIn w.answers [] =
      (some (.ok preview), previewEvents step replies))
    (hrisk : ¬ riskLevelOrd preview.riskLevel > ceiling) :
    RefusedUntouched w (executeSteps text maxRisk ceiling (step :: rest) [] false) ↔
      ∃ e, (w.execute 0).sent = some (.error e) := by
  have hexecute : (DaemonClient.execute text step.actionName step.params
      preview.requestHash).runIn w.answers (previewEvents step replies) = _ :=
    execute_runIn step.actionName step.params preview.requestHash
  rw [show previewsIn (previewEvents step replies) - 1 = 0 from rfl] at hexecute
  unfold RefusedUntouched
  rw [executeSteps, runIn_bind_some hpreview]
  dsimp only
  rw [show checkRiskCeiling preview.riskLevel ceiling = .ok () from if_neg hrisk]
  dsimp only
  rcases Conversation.outcome_cases (w.execute 0)
      (.execute step.actionName step.params preview.requestHash) with
    ⟨hsent, hout⟩ | ⟨e, hsent, hout⟩ | ⟨hsent, hreplies, hout⟩ | ⟨replies', hsent, hreplies, hout⟩
  · rw [hout] at hexecute
    refine iff_of_false ?_ (by simp [hsent])
    rintro ⟨e, log, hrun, -⟩
    cases (runIn_bind_none hexecute).symm.trans hrun
  · rw [hout] at hexecute
    refine iff_of_true ?_ ⟨e, hsent⟩
    exact ⟨_, _, runIn_bind_some hexecute, by simp [previewEvents]⟩
  · rw [hout] at hexecute
    refine iff_of_false ?_ (by simp [hsent])
    rintro ⟨e, log, hrun, -⟩
    cases (runIn_bind_none hexecute).symm.trans hrun
  · rw [hout] at hexecute
    refine iff_of_false ?_ (by simp [hsent])
    rintro ⟨e, log, hrun, hquiet⟩
    -- the request is in the log by now, and stays there
    have hrest := (runIn_bind_some hexecute).symm.trans hrun
    refine hquiet step.actionName step.params preview.requestHash ((log_grows hrest).subset ?_)
    simp [previewEvents]

theorem executeSteps_refused_iff {maxRisk : Option String} {ceiling : Nat}
    {step : StepToExecute} {rest : List StepToExecute} :
    RefusedUntouched w (executeSteps text maxRisk ceiling (step :: rest) [] false) ↔
      FirstStepStops text w ceiling := by
  have hpreview : (DaemonClient.preview text step.actionName step.params).runIn w.answers [] = _ :=
    preview_runIn step.actionName step.params
  rw [show previewsIn [] = 0 from rfl] at hpreview
  unfold FirstStepStops Conversation.answered
  rcases Conversation.outcome_cases (w.preview 0) (.preview step.actionName step.params) with
    ⟨hsent, hout⟩ | ⟨e, hsent, hout⟩ | ⟨hsent, hreplies, hout⟩ | ⟨replies, hsent, hreplies, hout⟩
  · rw [hout] at hpreview
    rw [executeSteps]
    exact iff_of_false (not_refused_of_waits (runIn_bind_none hpreview)) (by simp [hsent])
  · rw [hout] at hpreview
    rw [executeSteps]
    refine iff_of_true ?_ (Or.inl ⟨e, hsent⟩)
    exact ⟨_, _, runIn_bind_some hpreview, by simp⟩
  · rw [hout] at hpreview
    rw [executeSteps]
    exact iff_of_false (not_refused_of_waits (runIn_bind_none hpreview)) (by simp [hsent, hreplies])
  · rw [hout] at hpreview
    cases hof : previewOf text replies with
    | error e =>
      rw [hof] at hpreview
      unfold RefusedUntouched
      rw [executeSteps, runIn_bind_some hpreview]
      exact iff_of_true ⟨_, _, rfl, by simp⟩
        (Or.inr ⟨replies, by simp [hsent, hreplies], Or.inl ⟨e, hof⟩⟩)
    | ok preview =>
      rw [hof] at hpreview
      by_cases hrisk : riskLevelOrd preview.riskLevel > ceiling
      · unfold RefusedUntouched
        rw [executeSteps, runIn_bind_some hpreview]
        dsimp only
        rw [show checkRiskCeiling preview.riskLevel ceiling = .error () from if_pos hrisk]
        exact iff_of_true ⟨_, _, rfl, by simp⟩
          (Or.inr ⟨replies, by simp [hsent, hreplies], Or.inr ⟨preview, hof, Or.inl hrisk⟩⟩)
      · rw [executeSteps_sent_iff hpreview hrisk]
        simp [hsent, hreplies, hof, hrisk]

/-- The call is all or nothing exactly when it has no step above the ceiling, no
ceiling at all, or a first step that never gets as far as its execute request. -/
theorem allOrNothing_iff (text : ClientText) (w : ClientWorld) (steps : List StepToExecute)
    (maxRisk : Option String) :
    AllOrNothing text w steps maxRisk ↔
      (Offends text w steps maxRisk → ∀ ceiling, parseMaxRisk text maxRisk = .ok ceiling →
        FirstStepStops text w ceiling) := by
  unfold AllOrNothing executeStepsInner
  refine imp_congr_right fun hoffends => ?_
  cases hc : parseMaxRisk text maxRisk with
  | error e => exact iff_of_true ⟨e, [], rfl, by simp⟩ (by simp)
  | ok ceiling =>
    obtain ⟨i, hi, -⟩ := hoffends
    cases steps with
    | nil => exact absurd hi (Nat.not_lt_zero i)
    | cons step rest =>
      refine executeSteps_refused_iff.trans ⟨?_, fun h => h ceiling rfl⟩
      intro hstops c hcc
      obtain rfl := Except.ok.inj hcc
      exact hstops

/-- A low-risk step, executed before the high-risk step after it is refused. -/
theorem allOrNothing_upgradeLast :
    ¬ AllOrNothing plainText
        (answeringWorld none (fun i => if i = 1 then .high else .low) fun _ => .succeeded)
        [⟨"GetDiskUsage", .object []⟩, ⟨"AptUpgrade", .object []⟩] none := by
  intro h
  have hc : parseMaxRisk plainText none = .ok 1 := by decide +kernel
  have hrefused := h ⟨1, by decide, previewReplies .high, shortPreview .high, rfl,
    previewOf_previewReplies .high, fun c hcc => by
      obtain rfl := Except.ok.inj (hc.symm.trans hcc)
      decide⟩
  rw [executeStepsInner, hc] at hrefused
  rcases executeSteps_refused_iff.mp hrefused with ⟨e, he⟩ | ⟨replies, hreplies, hstop⟩
  · cases he
  · obtain rfl : previewReplies .low = replies := Option.some.inj hreplies
    rw [previewOf_previewReplies] at hstop
    rcases hstop with ⟨e, he⟩ | ⟨preview, hp, habove | ⟨e, he⟩⟩
    · cases he
    · obtain rfl := Except.ok.inj hp
      exact absurd habove (by decide)
    · cases he

end AllOrNothing

end Sysknife
