import Sysknife.Actions.Spec
import Sysknife.Approval
import Sysknife.Lib.Fallible

/-!
# Proposed plans

`parse_proposed_plan`: the input of a `propose_plan` call on its way to a plan, and the
constructors that plans and their steps are made with.
-/

namespace Sysknife

open Fallible

inductive PlanningError where
  | emptyIntent
  | intentTooLong (len max : Nat)
  | intentContainsSensitiveData
  | rateLimitExceeded (retryAfterSecs : Nat)
  | stateUnavailable (message : String)
  | plannerStuck
  | noPlanProposed
  | provider (message : String)
  | invalidPlanOutput (message : String)

def PlanningError.text : PlanningError → String
  | .emptyIntent => "intent must not be empty"
  | .intentTooLong len max => "intent exceeds maximum length of " ++ toString max ++
      " bytes (got " ++ toString len ++
      "); shorten the request or split it into multiple commands"
  | .intentContainsSensitiveData => "intent contains sensitive data (API keys, passwords, " ++
      "or tokens must not be forwarded to LLM providers)"
  | .rateLimitExceeded retryAfterSecs => "rate limit exceeded; too many planning requests in " ++
      "the last 60 seconds (retry after " ++ toString retryAfterSecs ++ "s)"
  | .stateUnavailable message => "state unavailable: " ++ message
  | .plannerStuck => "planner did not propose a plan within the allowed turns"
  | .noPlanProposed => "planner ended without proposing a plan"
  | .provider message => "provider error: " ++ message
  | .invalidPlanOutput message => "invalid plan output: " ++ message

/-! ## Constructors -/

/-- `PlanStep::new`; the error is the text of a `PlanValidationError`. -/
def PlanStep.new (actionName : ActionName) (summary : String) (riskLevel : PlanRiskLevel)
    (params : Json) : Except String PlanStep :=
  if h : summary = "" then .error "PlanStep summary must not be empty"
  else .ok ⟨actionName.text, summary, riskLevel, params, h⟩

/-- `Plan::new`. -/
def Plan.new (intent summary explanation : String) (steps : List PlanStep) : Except String Plan :=
  if hintent : intent = "" then .error "Plan intent must not be empty"
  else if hsummary : summary = "" then .error "Plan summary must not be empty"
  else if hexplanation : explanation = "" then .error "Plan explanation must not be empty"
  else if hsteps : steps = [] then .error "Plan must have at least one step"
  else .ok ⟨intent, summary, explanation, steps, hintent, hsummary, hexplanation, hsteps⟩

/-! ## The parser -/

section Parser

-- `parseJson` is `serde_json::from_str`, `debugStr` the text of a string under `{:?}`
variable (parseJson : String → Except String Json) (debugStr : String → String)

/-- The text under a key, if there is one that is not empty. -/
def filledStr (input : Json) (key : String) : Option String :=
  ((input.get key).bind Json.asStr).filter fun s => s != ""

def required {α : Type} (value : Option α) (message : String) : Except PlanningError α :=
  match value with
  | some a => .ok a
  | none => .error (.invalidPlanOutput message)

/-- `From<PlanValidationError>`. -/
def orInvalidPlan {α : Type} (result : Except String α) : Except PlanningError α :=
  match result with
  | .ok a => .ok a
  | .error message => .error (.invalidPlanOutput message)

def stepLabel (i : Nat) : String := "step " ++ toString i ++ ": "

def PlanRiskLevel.parse : String → Option PlanRiskLevel
  | "low" => some .low
  | "medium" => some .medium
  | "high" => some .high
  | _ => none

def stepParams (i : Nat) : Option Json → Except PlanningError Json
  | some (.string s) =>
    if s = "" then .ok (.object [])
    else match parseJson s with
      | .ok params => .ok params
      | .error _ => .error (.invalidPlanOutput (stepLabel i ++ "'params' is not valid JSON: " ++
          debugStr s))
  | some params => .ok params
  | none => .ok (.object [])

def parseStep (i : Nat) (stepVal : Json) : Except PlanningError PlanStep := do
  let name ← required (filledStr stepVal "action_name") (stepLabel i ++ "missing 'action_name'")
  let actionName ← required (ActionName.ofText name)
    (stepLabel i ++ "unknown action_name '" ++ name ++ "'")
  let summary ← required (filledStr stepVal "summary") (stepLabel i ++ "missing 'summary'")
  let risk ← required ((stepVal.get "risk_level").bind Json.asStr)
    (stepLabel i ++ "missing 'risk_level'")
  let riskLevel ← required (PlanRiskLevel.parse risk)
    (stepLabel i ++ "invalid risk_level '" ++ risk ++ "'")
  let params ← stepParams parseJson debugStr i (stepVal.get "params")
  orInvalidPlan (PlanStep.new actionName summary riskLevel params)

/-- The steps from number `i` on. -/
def parseSteps : Nat → List Json → Except PlanningError (List PlanStep)
  | _, [] => .ok []
  | i, stepVal :: stepVals => do
    let step ← parseStep parseJson debugStr i stepVal
    let steps ← parseSteps (i + 1) stepVals
    .ok (step :: steps)

def parseProposedPlan (intent : String) (input : Json) : Except PlanningError Plan := do
  let summary ← required (filledStr input "summary") "missing or empty 'summary'"
  let explanation ← required (filledStr input "explanation") "missing or empty 'explanation'"
  let stepVals ← required ((input.get "steps").bind Json.asArray) "'steps' must be an array"
  if stepVals.isEmpty then .error (.invalidPlanOutput "'steps' must not be empty")
  else do
    let steps ← parseSteps parseJson debugStr 0 stepVals
    orInvalidPlan (Plan.new intent summary explanation steps)

end Parser

/-! ## What a plan is made of -/

theorem invalidPlan_ok_iff {α : Type} {result : Except String α} {a : α} :
    orInvalidPlan result = .ok a ↔ result = .ok a := by
  cases result <;> simp [orInvalidPlan]

theorem PlanStep.new_ok {actionName : ActionName} {summary : String} {riskLevel : PlanRiskLevel}
    {params : Json} {step : PlanStep}
    (h : PlanStep.new actionName summary riskLevel params = .ok step) :
    step.actionName = actionName.text := by
  rw [PlanStep.new] at h
  split at h
  · cases h
  · cases h
    rfl

theorem Plan.new_ok {intent summary explanation : String} {steps : List PlanStep} {plan : Plan}
    (h : Plan.new intent summary explanation steps = .ok plan) :
    plan.intent = intent ∧ plan.steps = steps := by
  unfold Plan.new at h
  split_ifs at h
  cases h
  exact ⟨rfl, rfl⟩

/-- A step whose name is in the catalogue. -/
def InCatalogue (step : PlanStep) : Prop := ∃ action : ActionName, step.actionName = action.text

theorem parseStep_inCatalogue (parseJson : String → Except String Json)
    (debugStr : String → String) (i : Nat) (stepVal : Json) :
    Ensures (parseStep parseJson debugStr i stepVal) InCatalogue := by
  refine ensures_bind_any fun _ => ensures_bind_any fun action => ensures_bind_any fun _ =>
    ensures_bind_any fun _ => ensures_bind_any fun _ => ensures_bind_any fun _ => ?_
  intro step hstep
  exact ⟨action, PlanStep.new_ok (invalidPlan_ok_iff.mp hstep)⟩

theorem parseSteps_inCatalogue (parseJson : String → Except String Json)
    (debugStr : String → String) (i : Nat) (stepVals : List Json) :
    Ensures (parseSteps parseJson debugStr i stepVals) fun steps =>
      ∀ step ∈ steps, InCatalogue step := by
  induction stepVals generalizing i with
  | nil => exact ensures_ok fun _ hstep => by cases hstep
  | cons stepVal stepVals ih =>
    refine ensures_bind fun step hstep => ensures_bind fun steps hsteps => ensures_ok ?_
    rw [List.forall_mem_cons]
    exact ⟨parseStep_inCatalogue parseJson debugStr i stepVal step hstep, ih (i + 1) steps hsteps⟩

theorem parseProposedPlan_ok (parseJson : String → Except String Json)
    (debugStr : String → String) (intent : String) (input : Json) :
    Ensures (parseProposedPlan parseJson debugStr intent input) fun plan =>
      plan.intent = intent ∧ ∀ step ∈ plan.steps, InCatalogue step := by
  refine ensures_bind_any fun _ => ensures_bind_any fun _ => ensures_bind_any fun stepVals =>
    ensures_ite (fun _ => ensures_error) fun _ => ensures_bind fun steps hsteps => ?_
  intro plan hplan
  obtain ⟨hintent, hplan⟩ := Plan.new_ok (invalidPlan_ok_iff.mp hplan)
  refine ⟨hintent, ?_⟩
  rw [hplan]
  exact parseSteps_inCatalogue parseJson debugStr 0 stepVals steps hsteps

end Sysknife
