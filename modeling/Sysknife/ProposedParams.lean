import Sysknife.ProposePlan

/-!
# The parameters of proposed steps

What of a `propose_plan` input stands in the plan that is made of it, and when the
parameters of its steps are the objects that the comment in the parser promises.
-/

namespace Sysknife

open Fallible

section Params

-- `parseJson` is `serde_json::from_str`
variable (parseJson : String → Except String Json)

/-- The parameters are the given object, the one in the given text, or `{}` for none. -/
def ParamsGiven (stepVal params : Json) : Prop :=
  (∃ fields, stepVal.get "params" = some (.object fields) ∧ params = .object fields) ∨
    (∃ s fields, stepVal.get "params" = some (.string s) ∧ parseJson s = .ok (.object fields) ∧
      params = .object fields) ∨
    (stepVal.get "params" = none ∨ stepVal.get "params" = some (.string "")) ∧ params = .object []

/-- The step is the one that was given. -/
structure StepGiven (stepVal : Json) (step : PlanStep) : Prop where
  actionName : stepVal.get "action_name" = some (.string step.actionName)
  summary : stepVal.get "summary" = some (.string step.summary)
  riskLevel : stepVal.get "risk_level" = some (.string step.riskLevel.asStr)
  params : ParamsGiven parseJson stepVal step.params

/-- The plan has the steps that were given, in their order. -/
def PlanGiven (input : Json) (plan : Plan) : Prop :=
  ∃ stepVals, input.get "steps" = some (.array stepVals) ∧
    List.Forall₂ (StepGiven parseJson) stepVals plan.steps

/-- Nothing is given, an object, an empty text, or a text that is a JSON object. -/
def ObjectParams (stepVal : Json) : Prop :=
  ∀ params, stepVal.get "params" = some params →
    (∃ fields, params = .object fields) ∨ params = .string "" ∨
      ∃ s fields, params = .string s ∧ parseJson s = .ok (.object fields)

end Params

theorem required_ok_iff {α : Type} {value : Option α} {message : String} {a : α} :
    required value message = .ok a ↔ value = some a := by
  cases value <;> simp [required]

theorem filledStr_some {input : Json} {key s : String} (h : filledStr input key = some s) :
    input.get key = some (.string s) := by
  rw [filledStr, Option.filter_eq_some_iff, Option.bind_eq_some_iff] at h
  obtain ⟨⟨v, hv, hs⟩, -⟩ := h
  cases v with
  | string t =>
    obtain rfl := Option.some.inj hs
    exact hv
  | _ => cases hs

theorem asStr_some {value : Option Json} {s : String} (h : value.bind Json.asStr = some s) :
    value = some (.string s) := by
  obtain ⟨v, hv, hs⟩ := Option.bind_eq_some_iff.mp h
  cases v with
  | string t =>
    obtain rfl := Option.some.inj hs
    exact hv
  | _ => cases hs

theorem PlanRiskLevel.parse_some {s : String} {risk : PlanRiskLevel}
    (h : PlanRiskLevel.parse s = some risk) : s = risk.asStr := by
  unfold PlanRiskLevel.parse at h
  split at h
  · cases h
    rfl
  · cases h
    rfl
  · cases h
    rfl
  · cases h

section Steps
variable {parseJson : String → Except String Json} {debugStr : String → String}

/-- Everything but the parameters is as it was given. -/
theorem parseStep_given (i : Nat) (stepVal : Json) :
    Ensures (parseStep parseJson debugStr i stepVal) fun step =>
      stepVal.get "action_name" = some (.string step.actionName) ∧
        stepVal.get "summary" = some (.string step.summary) ∧
        stepVal.get "risk_level" = some (.string step.riskLevel.asStr) ∧
        stepParams parseJson debugStr i (stepVal.get "params") = .ok step.params := by
  refine ensures_bind fun name hname => ensures_bind fun action haction =>
    ensures_bind fun summary hsummary => ensures_bind fun risk hrisk =>
    ensures_bind fun riskLevel hlevel => ensures_bind fun params hparams => ?_
  intro step hstep
  rw [invalidPlan_ok_iff, PlanStep.new] at hstep
  split at hstep
  · cases hstep
  · cases hstep
    have htext := ActionName.ofText_eq_some_iff.mp (required_ok_iff.mp haction)
    have hword := PlanRiskLevel.parse_some (required_ok_iff.mp hlevel)
    rw [← htext, ← hword]
    exact ⟨filledStr_some (required_ok_iff.mp hname), filledStr_some (required_ok_iff.mp hsummary),
      asStr_some (required_ok_iff.mp hrisk), hparams⟩

/-- Parameters in a text are what the text parses to. -/
theorem paramsGiven_text_iff {stepVal v : Json} {s : String}
    (hgiven : stepVal.get "params" = some (.string s)) (hs : s ≠ "")
    (hparsed : parseJson s = .ok v) :
    ParamsGiven parseJson stepVal v ↔ ObjectParams parseJson stepVal := by
  unfold ParamsGiven ObjectParams
  rw [hgiven]
  constructor
  · rintro (⟨fields, hobject, -⟩ | ⟨t, fields, ht, hfields, -⟩ | ⟨hnone | hempty, -⟩)
    · cases hobject
    · intro w hw
      exact Or.inr (Or.inr ⟨t, fields, Option.some.inj (hw.symm.trans ht), hfields⟩)
    · cases hnone
    · cases hempty
      exact absurd rfl hs
  · intro hobject
    obtain ⟨fields, hfields⟩ | hempty | ⟨t, fields, ht, hfields⟩ := hobject _ rfl
    · cases hfields
    · cases hempty
      exact absurd rfl hs
    · cases ht
      rw [hparsed] at hfields
      exact Or.inr (Or.inl ⟨s, fields, rfl, hparsed.trans hfields, Except.ok.inj hfields⟩)

theorem paramsGiven_iff {i : Nat} {stepVal params : Json}
    (h : stepParams parseJson debugStr i (stepVal.get "params") = .ok params) :
    ParamsGiven parseJson stepVal params ↔ ObjectParams parseJson stepVal := by
  unfold ParamsGiven ObjectParams
  cases hgiven : stepVal.get "params" with
  | none =>
    rw [hgiven] at h
    cases h
    exact iff_of_true (Or.inr (Or.inr ⟨Or.inl rfl, rfl⟩)) nofun
  | some v =>
    rw [hgiven] at h
    cases v with
    | string s =>
      by_cases hs : s = ""
      · rw [stepParams, if_pos hs] at h
        cases h
        subst hs
        refine iff_of_true (Or.inr (Or.inr ⟨Or.inr rfl, rfl⟩)) fun v hv => Or.inr (Or.inl ?_)
        exact (Option.some.inj hv).symm
      · cases hparsed : parseJson s with
        | error e =>
          simp only [stepParams, if_neg hs, hparsed] at h
          cases h
        | ok v =>
          simp only [stepParams, if_neg hs, hparsed] at h
          cases h
          have htext := paramsGiven_text_iff hgiven hs hparsed
          unfold ParamsGiven ObjectParams at htext
          rwa [hgiven] at htext
    | object fields =>
      cases h
      exact iff_of_true (Or.inl ⟨fields, rfl, rfl⟩) fun v hv => Or.inl ⟨fields,
        (Option.some.inj hv).symm⟩
    | _ =>
      cases h
      refine iff_of_false ?_ ?_
      · rintro (⟨fields, hobject, -⟩ | ⟨t, fields, ht, -, -⟩ | ⟨hnone | hempty, -⟩)
        · cases hobject
        · cases ht
        · cases hnone
        · cases hempty
      · intro hobject
        obtain ⟨fields, hfields⟩ | hempty | ⟨t, fields, ht, hfields⟩ := hobject _ rfl
        · cases hfields
        · cases hempty
        · cases ht

theorem stepGiven_iff {i : Nat} {stepVal : Json} {step : PlanStep}
    (h : parseStep parseJson debugStr i stepVal = .ok step) :
    StepGiven parseJson stepVal step ↔ ObjectParams parseJson stepVal := by
  obtain ⟨hname, hsummary, hrisk, hparams⟩ := parseStep_given i stepVal step h
  rw [← paramsGiven_iff hparams]
  exact ⟨fun hgiven => hgiven.params, fun hgiven => ⟨hname, hsummary, hrisk, hgiven⟩⟩

/-- Step by step, by induction on the given steps. -/
theorem parseSteps_given (i : Nat) (stepVals : List Json) :
    Ensures (parseSteps parseJson debugStr i stepVals) fun steps =>
      List.Forall₂ (StepGiven parseJson) stepVals steps ↔
        ∀ stepVal ∈ stepVals, ObjectParams parseJson stepVal := by
  induction stepVals generalizing i with
  | nil => exact ensures_ok (iff_of_true .nil nofun)
  | cons stepVal stepVals ih =>
    refine ensures_bind fun step hstep => ensures_bind fun steps hsteps => ensures_ok ?_
    have hrest : List.Forall₂ (StepGiven parseJson) stepVals steps ↔
        ∀ stepVal ∈ stepVals, ObjectParams parseJson stepVal := ih (i + 1) steps hsteps
    rw [List.forall₂_cons, List.forall_mem_cons, stepGiven_iff hstep, hrest]

/-- An accepted plan has the steps of the input in their order, and every step's parameters
as an object, if and only if no step gives parameters of another kind. -/
theorem parseProposedPlan_given_iff {intent : String} {input : Json} {plan : Plan}
    (h : parseProposedPlan parseJson debugStr intent input = .ok plan) :
    PlanGiven parseJson input plan ↔
      ∀ stepVals, input.get "steps" = some (.array stepVals) →
        ∀ stepVal ∈ stepVals, ObjectParams parseJson stepVal := by
  have hparsed : ∃ stepVals, input.get "steps" = some (.array stepVals) ∧
      parseSteps parseJson debugStr 0 stepVals = .ok plan.steps := by
    refine (?_ : Ensures (parseProposedPlan parseJson debugStr intent input) fun plan =>
      ∃ stepVals, input.get "steps" = some (.array stepVals) ∧
        parseSteps parseJson debugStr 0 stepVals = .ok plan.steps) plan h
    refine ensures_bind_any fun _ => ensures_bind_any fun _ => ensures_bind fun stepVals hvals =>
      ensures_ite (fun _ => ensures_error) fun _ => ensures_bind fun steps hsteps => ?_
    intro plan hplan
    rw [(Plan.new_ok (invalidPlan_ok_iff.mp hplan)).2]
    refine ⟨stepVals, ?_, hsteps⟩
    obtain ⟨v, hv, hitems⟩ := Option.bind_eq_some_iff.mp (required_ok_iff.mp hvals)
    cases v with
    | array items =>
      cases hitems
      exact hv
    | _ => cases hitems
  obtain ⟨stepVals, hget, hsteps⟩ := hparsed
  have hgiven := parseSteps_given 0 stepVals plan.steps hsteps
  constructor
  · rintro ⟨other, hother, hforall⟩ vals hvals
    cases hget.symm.trans hother
    cases hget.symm.trans hvals
    exact hgiven.mp hforall
  · intro hobjects
    exact ⟨stepVals, hget, hgiven.mpr (hobjects stepVals hget)⟩

end Steps

/-- A parser that reads `{}` and `7`. -/
def readsTwo (s : String) : Except String Json :=
  if s = "{}" then .ok (.object [])
  else if s = "7" then .ok (.number (.posInt 7))
  else .error "expected value"

/-- A step with the text of its parameters. -/
def stateStep (params : String) : Json :=
  .object [("action_name", .string "GetSystemState"), ("summary", .string "look"),
    ("risk_level", .string "low"), ("params", .string params)]

/-- A `propose_plan` input of this step. -/
def statePlanInput (params : String) : Json :=
  .object [("summary", .string "look"), ("explanation", .string "look"),
    ("steps", .array [stateStep params])]

theorem look_ne : "look" ≠ "" := by decide

def statePlan (params : Json) : Plan where
  intent := "look"
  summary := "look"
  explanation := "look"
  steps := [⟨"GetSystemState", "look", .low, params, look_ne⟩]
  intent_ne := look_ne
  summary_ne := look_ne
  explanation_ne := look_ne
  steps_ne := by simp

theorem statePlanInput_parsed {s : String} {params : Json}
    (hparams : stepParams readsTwo id 0 (some (.string s)) = .ok params) :
    parseProposedPlan readsTwo id "look" (statePlanInput s) = .ok (statePlan params) := by
  have hname : filledStr (stateStep s) "action_name" = some "GetSystemState" := rfl
  have hget : (stateStep s).get "params" = some (.string s) := rfl
  have hstep : parseStep readsTwo id 0 (stateStep s) =
      .ok ⟨"GetSystemState", "look", .low, params, by decide⟩ := by
    rw [parseStep, hname, hget, hparams]
    rfl
  have hsteps : parseSteps readsTwo id 0 [stateStep s] = .ok (statePlan params).steps := by
    rw [parseSteps, hstep]
    rfl
  calc parseProposedPlan readsTwo id "look" (statePlanInput s)
      = (parseSteps readsTwo id 0 [stateStep s] >>= fun steps =>
          orInvalidPlan (Plan.new "look" "look" "look" steps)) := rfl
    _ = .ok (statePlan params) := by
      rw [hsteps]
      rfl

/-- Parameters in a text that is an object. -/
theorem statePlanInput_given :
    PlanGiven readsTwo (statePlanInput "{}") (statePlan (.object [])) := by
  refine (parseProposedPlan_given_iff (statePlanInput_parsed rfl)).mpr fun stepVals hvals => ?_
  cases hvals
  rw [List.forall_mem_singleton]
  exact fun params hparams => Or.inr (Or.inr ⟨"{}", [], (Option.some.inj hparams).symm, rfl⟩)

/-- A text that is a number makes the number the parameters. -/
theorem numberParams_notGiven : ¬ ∀ (parseJson : String → Except String Json)
    (debugStr : String → String) (intent : String) (input : Json) (plan : Plan),
    parseProposedPlan parseJson debugStr intent input = .ok plan →
      PlanGiven parseJson input plan := by
  intro hall
  have hparsed : parseProposedPlan readsTwo id "look" (statePlanInput "7") =
      .ok (statePlan (.number (.posInt 7))) := statePlanInput_parsed rfl
  obtain ⟨stepVals, hget, hgiven⟩ := hall _ _ _ _ _ hparsed
  cases hget
  obtain ⟨hstep, -⟩ := List.forall₂_cons.mp hgiven
  obtain ⟨fields, hobject, -⟩ | ⟨s, fields, hs, hfields, -⟩ | ⟨hnone | hempty, -⟩ := hstep.params
  · cases hobject
  · cases hs
    cases hfields
  · cases hnone
  · exact absurd hempty (by simp [stateStep, Json.get, List.lookup_cons])

end Sysknife
