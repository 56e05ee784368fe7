import Sysknife.Json

/-!
# Plans and the approval policy

The plan the planner hands to the command line client, and the pure policy that
says which steps run without a question, with one, or not at all.
-/

namespace Sysknife

inductive PlanRiskLevel where
  | low | medium | high
  deriving DecidableEq, Repr

def PlanRiskLevel.asStr : PlanRiskLevel → String
  | .low => "low"
  | .medium => "medium"
  | .high => "high"

/-- A step of a plan. Any text may stand where the planner puts a catalogue name. -/
structure PlanStep where
  actionName : String
  summary : String
  riskLevel : PlanRiskLevel
  params : Json
  summary_ne : summary ≠ ""

structure Plan where
  intent : String
  summary : String
  explanation : String
  steps : List PlanStep
  intent_ne : intent ≠ ""
  summary_ne : summary ≠ ""
  explanation_ne : explanation ≠ ""
  steps_ne : steps ≠ []

inductive MaxRisk where
  | low | medium | high
  deriving DecidableEq, Repr

namespace MaxRisk

def asStr : MaxRisk → String
  | .low => "low"
  | .medium => "medium"
  | .high => "high"

/-- The derived order. -/
def rank : MaxRisk → Nat
  | .low => 0
  | .medium => 1
  | .high => 2

def min (a b : MaxRisk) : MaxRisk := if a.rank ≤ b.rank then a else b

def includes : MaxRisk → PlanRiskLevel → Bool
  | .low, risk => risk == .low
  | .medium, risk => risk == .low || risk == .medium
  | .high, _ => true

end MaxRisk

def hardcodedMaxAutoApprove : MaxRisk := .medium

structure ApprovalPolicy where
  yes : Bool
  maxRisk : Option MaxRisk
  nonInteractive : Bool
  dryRun : Bool

inductive ApprovalDecision where
  | autoApproved
  | requiresPrompt
  | requiresInteraction
  | exceedsCeiling
  deriving DecidableEq, Repr

namespace ApprovalPolicy

def effectiveAutoCeiling (policy : ApprovalPolicy) : Option MaxRisk :=
  if policy.yes then some ((policy.maxRisk.getD .low).min hardcodedMaxAutoApprove) else none

def decideStep (policy : ApprovalPolicy) (risk : PlanRiskLevel) : ApprovalDecision :=
  if policy.dryRun then .autoApproved
  else if policy.maxRisk.any fun ceiling => !ceiling.includes risk then .exceedsCeiling
  else if policy.effectiveAutoCeiling.any fun ceiling => ceiling.includes risk then .autoApproved
  else if policy.nonInteractive then .requiresInteraction
  else .requiresPrompt

/-- The loop of `decide_plan`. -/
def decideSteps (policy : ApprovalPolicy) (worst : ApprovalDecision) :
    List PlanStep → ApprovalDecision
  | [] => worst
  | step :: rest =>
    match policy.decideStep step.riskLevel with
    | .exceedsCeiling => .exceedsCeiling
    | .requiresInteraction => .requiresInteraction
    | .requiresPrompt => decideSteps policy .requiresPrompt rest
    | .autoApproved => decideSteps policy worst rest

def decidePlan (policy : ApprovalPolicy) (plan : Plan) : ApprovalDecision :=
  policy.decideSteps .autoApproved plan.steps

/-- No flags approve a step labelled high without a person. -/
theorem decideStep_high {policy : ApprovalPolicy} (h : policy.dryRun = false) :
    policy.decideStep .high ≠ .autoApproved := by
  have hauto : policy.effectiveAutoCeiling.any (fun ceiling => ceiling.includes .high) = false := by
    unfold effectiveAutoCeiling
    by_cases hy : policy.yes = true
    · rw [if_pos hy]
      cases policy.maxRisk with
      | none => rfl
      | some ceiling => cases ceiling <;> rfl
    · rw [if_neg hy]
      rfl
  rw [decideStep, if_neg (by simp [h]), hauto]
  by_cases hc : (policy.maxRisk.any fun ceiling => !ceiling.includes .high) = true
  · rw [if_pos hc]
    simp
  · rw [if_neg hc]
    cases policy.nonInteractive <;> simp

/-- A step only exceeds a ceiling that is set. -/
theorem decideStep_ceiling_set {policy : ApprovalPolicy} {risk : PlanRiskLevel}
    (h : policy.decideStep risk = .exceedsCeiling) : ∃ ceiling, policy.maxRisk = some ceiling := by
  cases hm : policy.maxRisk with
  | some ceiling => exact ⟨ceiling, rfl⟩
  | none =>
    unfold decideStep at h
    rw [hm] at h
    split at h
    · cases h
    · rw [Option.any_none, if_neg (by simp)] at h
      split at h
      · cases h
      · split at h <;> cases h

theorem decideSteps_ceiling {policy : ApprovalPolicy} {worst : ApprovalDecision}
    {steps : List PlanStep} (h : policy.decideSteps worst steps = .exceedsCeiling)
    (hworst : worst ≠ .exceedsCeiling) :
    ∃ step ∈ steps, policy.decideStep step.riskLevel = .exceedsCeiling := by
  induction steps generalizing worst with
  | nil => exact absurd h hworst
  | cons step rest ih =>
    cases hd : policy.decideStep step.riskLevel with
    | exceedsCeiling => exact ⟨step, List.mem_cons_self, hd⟩
    | requiresInteraction =>
      rw [decideSteps, hd] at h
      cases h
    | requiresPrompt =>
      rw [decideSteps, hd] at h
      obtain ⟨s, hs, hsd⟩ := ih h (by simp)
      exact ⟨s, List.mem_cons_of_mem _ hs, hsd⟩
    | autoApproved =>
      rw [decideSteps, hd] at h
      obtain ⟨s, hs, hsd⟩ := ih h hworst
      exact ⟨s, List.mem_cons_of_mem _ hs, hsd⟩

theorem decidePlan_ceiling_set {policy : ApprovalPolicy} {plan : Plan}
    (h : policy.decidePlan plan = .exceedsCeiling) : ∃ ceiling, policy.maxRisk = some ceiling := by
  obtain ⟨step, -, hstep⟩ := decideSteps_ceiling h (by simp)
  exact decideStep_ceiling_set hstep

end ApprovalPolicy

end Sysknife
