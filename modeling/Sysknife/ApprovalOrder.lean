import Mathlib.Data.List.Perm.Basic
import Sysknife.Approval

/-!
# The order of the steps

`decide_plan` beside its documentation, which gives a ceiling that is exceeded the first
say and a prompt that nobody answers the second, wherever the steps stand.
-/

namespace Sysknife

namespace ApprovalPolicy

/-- The step is above `--max-risk`. Nothing is in a dry run. -/
def exceeds (policy : ApprovalPolicy) (risk : PlanRiskLevel) : Bool :=
  !policy.dryRun && policy.maxRisk.any fun ceiling => !ceiling.includes risk

/-- The step is neither above the ceiling nor approved without a person. -/
def needsPrompt (policy : ApprovalPolicy) (risk : PlanRiskLevel) : Bool :=
  !policy.dryRun && !policy.exceeds risk &&
    !policy.effectiveAutoCeiling.any fun ceiling => ceiling.includes risk

/-- The documentation of `decide_plan`. -/
def documentedDecision (policy : ApprovalPolicy) (plan : Plan) : ApprovalDecision :=
  if plan.steps.any fun step => policy.exceeds step.riskLevel then .exceedsCeiling
  else if policy.nonInteractive && plan.steps.any fun step => policy.needsPrompt step.riskLevel
  then .requiresInteraction
  else if plan.steps.any fun step => policy.needsPrompt step.riskLevel then .requiresPrompt
  else .autoApproved

/-- The plan has a step for each of the two decisions that end the loop. -/
def BothEndings (policy : ApprovalPolicy) (plan : Plan) : Prop :=
  policy.nonInteractive = true ∧ (∃ step ∈ plan.steps, policy.exceeds step.riskLevel = true) ∧
    ∃ step ∈ plan.steps, policy.needsPrompt step.riskLevel = true

theorem decideStep_eq (policy : ApprovalPolicy) (risk : PlanRiskLevel) :
    policy.decideStep risk =
      if policy.exceeds risk then .exceedsCeiling
      else if policy.needsPrompt risk then
        if policy.nonInteractive then .requiresInteraction else .requiresPrompt
      else .autoApproved := by
  unfold decideStep needsPrompt exceeds
  cases policy.dryRun with
  | true => rfl
  | false =>
    cases policy.maxRisk.any fun ceiling => !ceiling.includes risk with
    | true => rfl
    | false =>
      cases policy.effectiveAutoCeiling.any fun ceiling => ceiling.includes risk <;> rfl

/-- The loop over steps that do not have both endings. -/
theorem decideSteps_eq {policy : ApprovalPolicy} {steps : List PlanStep}
    (h : policy.nonInteractive = true → (∃ step ∈ steps, policy.exceeds step.riskLevel = true) →
      ∀ step ∈ steps, policy.needsPrompt step.riskLevel = false)
    (worst : ApprovalDecision) :
    policy.decideSteps worst steps =
      if steps.any fun step => policy.exceeds step.riskLevel then .exceedsCeiling
      else if steps.any fun step => policy.needsPrompt step.riskLevel then
        if policy.nonInteractive then .requiresInteraction else .requiresPrompt
      else worst := by
  induction steps generalizing worst with
  | nil => rfl
  | cons step rest ih =>
    have hrest := ih fun hnon hexceeds s hs => h hnon
      (hexceeds.imp fun t ht => ⟨List.mem_cons_of_mem step ht.1, ht.2⟩) s
      (List.mem_cons_of_mem step hs)
    rw [decideSteps, decideStep_eq, List.any_cons, List.any_cons]
    cases hexceeds : policy.exceeds step.riskLevel with
    | true => rfl
    | false =>
      cases hprompt : policy.needsPrompt step.riskLevel with
      | false =>
        rw [if_neg Bool.false_ne_true, if_neg Bool.false_ne_true, Bool.false_or, Bool.false_or]
        exact hrest worst
      | true =>
        rw [if_neg Bool.false_ne_true, if_pos rfl, Bool.false_or, Bool.true_or, if_pos rfl]
        cases hnon : policy.nonInteractive with
        | false =>
          have hloop := hrest .requiresPrompt
          rw [hnon] at hloop
          simpa using hloop
        | true =>
          -- the loop ends here, so no later step may exceed the ceiling
          have hnone : (rest.any fun s => policy.exceeds s.riskLevel) = false := by
            rw [List.any_eq_false]
            intro s hs hs'
            have hnot := h hnon ⟨s, List.mem_cons_of_mem step hs, hs'⟩ step
              (List.mem_cons_self ..)
            rw [hprompt] at hnot
            cases hnot
          rw [hnone]
          rfl

theorem decidePlan_documented {policy : ApprovalPolicy} {plan : Plan}
    (h : ¬ policy.BothEndings plan) : policy.decidePlan plan = policy.documentedDecision plan := by
  have hloop := @decideSteps_eq policy plan.steps (fun hnon hexceeds s hs => by
    rw [← Bool.not_eq_true]
    exact fun hprompt => h ⟨hnon, hexceeds, s, hs, hprompt⟩) .autoApproved
  rw [decidePlan, hloop, documentedDecision]
  cases policy.nonInteractive with
  | true =>
    rw [Bool.true_and]
    split
    · rfl
    · split <;> rfl
  | false => rfl

theorem documentedDecision_perm {policy : ApprovalPolicy} {plan other : Plan}
    (h : other.steps.Perm plan.steps) :
    policy.documentedDecision other = policy.documentedDecision plan := by
  unfold documentedDecision
  rw [h.any_eq, h.any_eq]

/-- The plan with one of its steps in front of the others. -/
theorem exists_front {plan : Plan} {step : PlanStep} (h : step ∈ plan.steps) :
    ∃ (other : Plan) (rest : List PlanStep), other.steps = step :: rest ∧
      other.steps.Perm plan.steps := by
  obtain ⟨before, after, hsteps⟩ := List.append_of_mem h
  refine ⟨{ plan with steps := step :: (before ++ after), steps_ne := List.cons_ne_nil _ _ },
    before ++ after, rfl, ?_⟩
  rw [hsteps]
  exact List.perm_middle.symm

/-- The decision does not depend on the order of the steps, and is the documented one, if
and only if the plan does not have both endings. -/
theorem decidePlan_ordered_iff (policy : ApprovalPolicy) (plan : Plan) :
    ((∀ other : Plan, other.steps.Perm plan.steps →
          policy.decidePlan other = policy.decidePlan plan) ∧
        policy.decidePlan plan = policy.documentedDecision plan) ↔
      ¬ policy.BothEndings plan := by
  constructor
  · rintro ⟨hperm, -⟩ ⟨hnon, ⟨high, hhigh, hexceeds⟩, ⟨asked, hasked, hprompt⟩⟩
    obtain ⟨first, rest, hfirst, hfirstPerm⟩ := exists_front hhigh
    obtain ⟨second, rest', hsecond, hsecondPerm⟩ := exists_front hasked
    have hnot : policy.exceeds asked.riskLevel = false := by
      unfold needsPrompt at hprompt
      simp only [Bool.and_eq_true, Bool.not_eq_true'] at hprompt
      exact hprompt.1.2
    have hceiling : policy.decidePlan first = .exceedsCeiling := by
      rw [decidePlan, hfirst, decideSteps, decideStep_eq, if_pos hexceeds]
    have hinteraction : policy.decidePlan second = .requiresInteraction := by
      rw [decidePlan, hsecond, decideSteps, decideStep_eq, if_neg (by simp [hnot]),
        if_pos hprompt, if_pos hnon]
    have hsame := (hperm first hfirstPerm).trans (hperm second hsecondPerm).symm
    rw [hceiling, hinteraction] at hsame
    cases hsame
  · intro h
    have hself := decidePlan_documented h
    refine ⟨fun other hother => ?_, hself⟩
    have hnone : ¬ policy.BothEndings other := by
      rintro ⟨hnon, ⟨high, hhigh, hexceeds⟩, ⟨asked, hasked, hprompt⟩⟩
      exact h ⟨hnon, ⟨high, hother.mem_iff.mp hhigh, hexceeds⟩,
        ⟨asked, hother.mem_iff.mp hasked, hprompt⟩⟩
    rw [decidePlan_documented hnone, documentedDecision_perm hother, hself]

/-- `--max-risk low --non-interactive`. -/
def lowUnattended : ApprovalPolicy := ⟨false, some .low, true, false⟩

/-- A step to look and a step to change. -/
def lookAndUpgrade : Plan where
  intent := "upgrade"
  summary := "upgrade"
  explanation := "upgrade"
  steps := [⟨"AptListUpgradable", "look", .low, .object [], by decide⟩,
    ⟨"AptUpgrade", "change", .high, .object [], by decide⟩]
  intent_ne := by decide
  summary_ne := by decide
  explanation_ne := by decide
  steps_ne := by simp

theorem decidePlan_notOrdered : ¬ ∀ (policy : ApprovalPolicy) (plan : Plan),
    (∀ other : Plan, other.steps.Perm plan.steps →
        policy.decidePlan other = policy.decidePlan plan) ∧
      policy.decidePlan plan = policy.documentedDecision plan := by
  intro hall
  have hdocumented := (hall lowUnattended lookAndUpgrade).2
  exact absurd hdocumented (by decide)

end ApprovalPolicy

end Sysknife
