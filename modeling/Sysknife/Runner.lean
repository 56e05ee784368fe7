import Sysknife.Wire

/-!
# `run_intent`

The command line runs a plan: it shows it, asks where the policy says so, checks
that the actions fit the distribution, and then previews and executes step by
step.
-/

namespace Sysknife

open Interaction

/-! ## Distribution routing -/

def debianOnlyActions : List String :=
  ["AptUpdate", "AptUpgrade", "AptInstall", "AptRemove", "AptPurge", "AptAutoremove", "AptHold",
   "AptUnhold", "AptSearch", "AptListInstalled", "AptShow", "SnapInstall", "SnapRemove",
   "SnapRefresh", "SnapHold", "SnapUnhold", "SnapList", "SnapInfo", "UfwEnable", "UfwDisable",
   "UfwAllow", "UfwDeny", "UfwReset", "UfwStatus", "DistroboxList", "DistroboxCreate",
   "DistroboxRemove", "NetplanGetConfig", "NetplanApply"]

def fedoraOnlyActions : List String :=
  ["RebaseSystem", "AddLayeredPackage", "RemoveLayeredPackage", "ReplaceLayeredPackage",
   "RemoveBasePackage", "ResetLayeredPackageOverride", "GetLayeredPackages",
   "GetDeploymentHistory", "ListDeployments", "CleanupDeployments", "RollbackDeployment",
   "PinDeployment", "UnpinDeployment", "GetKernelArguments", "SetKernelArguments"]

namespace DistroId

def family : DistroId → DistroFamily
  | .fedora _ | .fedoraSilverblue _ => .fedora
  | .ubuntu .. | .ubuntuCore .. | .debian _ => .debian
  | .other id _ => if "fedora".toList <:+: id.toList then .fedora else .other

/-- `{major}.{minor:02}`. -/
def release (major minor : Nat) : String :=
  toString major ++ "." ++ (if minor < 10 then "0" else "") ++ toString minor

def display : DistroId → String
  | .fedora version => "Fedora " ++ toString version
  | .fedoraSilverblue version => "FedoraSilverblue " ++ toString version
  | .ubuntu major minor => "Ubuntu " ++ release major minor
  | .ubuntuCore major minor => "UbuntuCore " ++ release major minor
  | .debian (some version) => "Debian " ++ toString version
  | .debian none => "Debian (unknown version)"
  | .other id (some version) => id ++ " " ++ version
  | .other id none => id

end DistroId

def familyLabel : DistroFamily → String
  | .fedora => "Fedora family"
  | .debian => "Debian family"
  | .other => "unknown family"

def checkActionDistro (actionName : String) : Option DistroId → Except String Unit
  | none => .ok ()
  | some distro =>
    if debianOnlyActions.contains actionName && distro.family != .debian then
      .error (actionName ++ " is only valid on Debian-family distros (apt/snap/ufw); " ++
        "current distro is " ++ distro.display ++ " (" ++ familyLabel distro.family ++ ")")
    else if fedoraOnlyActions.contains actionName && distro.family != .fedora then
      .error (actionName ++ " is only valid on Fedora-family distros (rpm-ostree/dnf); " ++
        "current distro is " ++ distro.display ++ " (" ++ familyLabel distro.family ++ ")")
    else .ok ()

/-- The routing guard over a whole plan. -/
def checkPlanDistro (distro : Option DistroId) : List PlanStep → Except String Unit
  | [] => .ok ()
  | step :: rest => do
    checkActionDistro step.actionName distro
    checkPlanDistro distro rest

/-! ## Options and questions -/

structure RunOpts where
  yes : Bool
  maxRisk : Option MaxRisk
  nonInteractive : Bool
  dryRun : Bool
  json : Bool
  stepByStep : Bool

def RunOpts.approvalPolicy (opts : RunOpts) : ApprovalPolicy :=
  ⟨opts.yes, opts.maxRisk, opts.nonInteractive, opts.dryRun⟩

def PlanRiskLevel.rank : PlanRiskLevel → Nat
  | .low => 0
  | .medium => 1
  | .high => 2

/-- `highest_risk`: the last step of the highest risk. -/
def highestRisk (steps : List PlanStep) : Option PlanRiskLevel :=
  steps.foldl (fun best step => match best with
    | none => some step.riskLevel
    | some risk => if risk.rank ≤ step.riskLevel.rank then some step.riskLevel else some risk) none

/-- The answers that `prompt_confirm` takes for a yes. -/
def confirms (line : String) : Bool :=
  let answer := String.ofList ((trim line.toList).map Char.toLower)
  answer == "y" || answer == "yes"

def promptConfirm (question : Question) : ClientProg Bool := do
  let line ← clientOp (.readLine question)
  return (line.map confirms).getD false

/-- What follows from a decision; `highest` is the risk in the error. -/
def settleDecision (opts : RunOpts) (question : Question) (highest : PlanRiskLevel) :
    ApprovalDecision → ClientProg (Except CliError Unit)
  | .autoApproved => return .ok ()
  | .requiresPrompt => do
    let confirmed ← promptConfirm question
    return if confirmed then .ok () else .error .rejected
  | .requiresInteraction => return .error .nonInteractive
  | .exceedsCeiling =>
    -- a ceiling is set whenever this is decided
    return .error (.riskCeilingExceeded highest (opts.maxRisk.getD .high))

def approvePlan (opts : RunOpts) (plan : Plan) : ClientProg (Except CliError Unit) :=
  if opts.stepByStep then return .ok ()
  else
    let highest := (highestRisk plan.steps).getD .low
    settleDecision opts (.plan plan.steps.length highest) highest
      (opts.approvalPolicy.decidePlan plan)

def approveStep (opts : RunOpts) (step : PlanStep) : ClientProg (Except CliError Unit) :=
  if opts.stepByStep then
    settleDecision opts (.step step) step.riskLevel (opts.approvalPolicy.decideStep step.riskLevel)
  else return .ok ()

/-! ## The run -/

def printLines (json : Bool) : List String → ClientProg Unit
  | [] => return ()
  | line :: rest => do
    clientOp (.print (.outputLine json line))
    printLines json rest

section Run
variable (text : ClientText) (opts : RunOpts)

/-- The body of the step loop, once the step is approved. -/
def executeStep (step : PlanStep) : ClientProg (Except CliError Unit) := do
  match ← DaemonClient.preview text step.actionName step.params with
  | .error e => return .error e
  | .ok preview => do
    clientOp (.print (if opts.json then .previewJson preview
      else .stepHeader step.actionName preview))
    let executed ← DaemonClient.execute text step.actionName step.params preview.requestHash
    printLines opts.json executed.1
    match executed.2 with
    | .error e => return .error e
    | .ok result => do
      clientOp (.print (if opts.json then .resultJson result else .stepDone result))
      return .ok ()

def runStep (step : PlanStep) : ClientProg (Except CliError Unit) := do
  match ← approveStep opts step with
  | .error e => return .error e
  | .ok () => executeStep text opts step

/-- The step loop. -/
def runSteps : List PlanStep → ClientProg (Except CliError Unit)
  | [] => return .ok ()
  | step :: rest => do
    match ← runStep text opts step with
    | .error e => return .error e
    | .ok () => runSteps rest

/-- `run_intent` from an approved plan on. -/
def runApproved (plan : Plan) (distro : Option DistroId) : ClientProg (Except CliError Unit) :=
  match checkPlanDistro distro plan.steps with
  | .error message => return .error (.configOrDaemon message)
  | .ok () => do
    match ← runSteps text opts plan.steps with
    | .error e => return .error e
    | .ok () => do
      if !opts.json then clientOp (.print .success)
      return .ok ()

def runIntent (intent : String) : ClientProg (Except CliError Unit) := do
  let distro ← clientOp .detectDistro
  match ← clientOp (.planIntent intent) with
  | .error e => return .error e
  | .ok plan => do
    clientOp (.print (if opts.json then .planJson plan else .printPlan plan))
    if opts.dryRun then do
      if opts.stepByStep then clientOp (.print .stepByStepWarning)
      return .ok ()
    else
      match ← approvePlan opts plan with
      | .error e => return .error e
      | .ok () => runApproved text opts plan distro

end Run

end Sysknife
