import Sysknife.Actions.Spec
import Sysknife.Lib.IntegerText
import Sysknife.OsRelease
import Sysknife.PlanGates

/-!
# The distribution guard of a plan run

`run_intent` holds a plan against the detected distribution before it speaks to the
daemon. The guard goes by a list of names. It is judged by the families the list is
meant to cover: every action of apt, snap, ufw, distrobox and netplan.
-/

namespace Sysknife

open Interaction
open IntegerText (parseUnsigned)

/-! ## Detection -/

namespace OsRelease
variable (release : OsRelease)

def unknown : DistroId := .other release.id release.versionId

def detectFedora : DistroId :=
  let isImmutable := release.variantId == some "silverblue" ||
    release.variantId == some "kinoite" || release.variantId == some "sericea"
  match release.versionId.bind fun v => parseUnsigned (2 ^ 32) v.toList with
  | some v => if isImmutable then .fedoraSilverblue v else .fedora v
  | none => release.unknown

def parseUbuntuVersion (v : List Char) : Option (Nat × Nat) :=
  match splitn 2 '.' v with
  | major :: minor :: _ => do
    let major ← parseUnsigned (2 ^ 32) major
    let minor ← parseUnsigned (2 ^ 32) minor
    return (major, minor)
  | _ => none

def detectUbuntu : DistroId :=
  match release.versionId.bind fun v => parseUbuntuVersion v.toList with
  | some (major, minor) =>
    if release.variantId == some "core" then .ubuntuCore major minor else .ubuntu major minor
  | none => release.unknown

def detectDebian : DistroId :=
  .debian (release.versionId.bind fun v => parseUnsigned (2 ^ 32) v.toList)

def detectDistro : DistroId :=
  match release.id with
  | "fedora" => release.detectFedora
  | "ubuntu" => release.detectUbuntu
  | "debian" => release.detectDebian
  | _ => release.unknown

theorem unknown_family_ne : release.unknown.family ≠ .debian := by
  dsimp only [unknown, DistroId.family]
  split_ifs <;> exact nofun

/-- An `ID` of Debian's is enough; Ubuntu's needs a version that can be read. -/
theorem detectDistro_family_iff :
    release.detectDistro.family = .debian ↔
      release.id = "debian" ∨ release.id = "ubuntu" ∧
        ∃ version, (release.versionId.bind fun v => parseUbuntuVersion v.toList) =
          some version := by
  have hunknown := release.unknown_family_ne
  unfold detectDistro
  split
  · next hid =>
    refine iff_of_false ?_ (by simp [hid])
    unfold detectFedora
    dsimp only
    split
    · split_ifs <;> exact nofun
    · exact hunknown
  · next hid =>
    unfold detectUbuntu
    split
    · next major minor hversion =>
      refine iff_of_true ?_ (Or.inr ⟨hid, _, hversion⟩)
      split_ifs <;> rfl
    · next hversion =>
      refine iff_of_false hunknown ?_
      simp [hid, hversion]
  · next hid => exact iff_of_true rfl (Or.inl hid)
  · next hfedora hubuntu hdebian =>
    refine iff_of_false hunknown ?_
    intro h
    rcases h with hid | ⟨hid, -⟩
    · exact hdebian hid
    · exact hubuntu hid

end OsRelease

/-! ## The families and the lists -/

/-- The tools that the guard is about, as the names of their actions begin. -/
def debianFamilies : List String := ["Apt", "Snap", "Ufw", "Distrobox", "Netplan"]

namespace ActionName

def InDebianFamilies (action : ActionName) : Prop :=
  ∃ family ∈ debianFamilies, family.toList <+: action.text.toList

instance (action : ActionName) : Decidable action.InDebianFamilies :=
  inferInstanceAs (Decidable (∃ family ∈ debianFamilies, family.toList <+: action.text.toList))

end ActionName

/-- What the list of the guard leaves out of the families. -/
def unlistedActions : List ActionName :=
  [.aptListUpgradable, .aptHistoryList, .snapRevert, .snapClassicInstall, .netplanSet,
   .netplanGenerate, .ufwDeleteRule, .ufwLimit]

/-- The copy of the list beside the prompts. -/
def debianOnlyActionNames : List String :=
  ["AptUpdate", "AptUpgrade", "AptInstall", "AptRemove", "AptPurge", "AptAutoremove", "AptHold",
   "AptUnhold", "AptSearch", "AptListInstalled", "AptShow", "AptListUpgradable", "AptHistoryList",
   "AddPpa", "RemovePpa", "SnapInstall", "SnapRemove", "SnapRefresh", "SnapHold", "SnapUnhold",
   "SnapList", "SnapInfo", "SnapRevert", "SnapClassicInstall", "UfwEnable", "UfwDisable",
   "UfwAllow", "UfwDeny", "UfwReset", "UfwStatus", "DistroboxList", "DistroboxCreate",
   "DistroboxRemove", "NetplanGetConfig", "NetplanApply", "NetplanSet", "NetplanGenerate",
   "GrubGetKargs", "GrubSetKargs", "CheckPendingReboot", "AppArmorStatus", "AppArmorEnforce",
   "AppArmorComplain", "CloudInitStatus", "UbuntuInstallFlatpak", "UbuntuRemoveFlatpak",
   "UbuntuUpdateFlatpak", "UbuntuListFlatpaks", "Fail2banStatus", "Fail2banBanIp",
   "Fail2banUnbanIp", "UbuntuReleaseUpgrade", "ProStatus", "ProAttach", "ProDetach",
   "LivepatchStatus", "MultipassList", "UfwDeleteRule", "UfwLimit"]

/-- The actions that the list of the guard names. -/
def guardedActions : List ActionName :=
  [.aptUpdate, .aptUpgrade, .aptInstall, .aptRemove, .aptPurge, .aptAutoremove, .aptHold,
   .aptUnhold, .aptSearch, .aptListInstalled, .aptShow, .snapInstall, .snapRemove,
   .snapRefresh, .snapHold, .snapUnhold, .snapList, .snapInfo, .ufwEnable, .ufwDisable,
   .ufwAllow, .ufwDeny, .ufwReset, .ufwStatus, .distroboxList, .distroboxCreate,
   .distroboxRemove, .netplanGetConfig, .netplanApply]

theorem debianOnlyActions_eq : debianOnlyActions = guardedActions.map ActionName.text := rfl

theorem text_injective : Function.Injective ActionName.text := by
  intro a b h
  have ha : ActionName.ofText a.text = some a := ActionName.ofText_eq_some_iff.mpr rfl
  have hb : ActionName.ofText b.text = some b := ActionName.ofText_eq_some_iff.mpr rfl
  rw [h, hb] at ha
  exact (Option.some.inj ha).symm

section Lists
set_option maxRecDepth 20000

theorem mem_guardedActions_iff (action : ActionName) :
    action ∈ guardedActions ↔ action.InDebianFamilies ∧ action ∉ unlistedActions := by
  -- the bytes of a literal are computed faster than its characters
  have hall : ∀ a ∈ ActionName.all,
      a ∈ guardedActions ↔
        (∃ family ∈ debianFamilies, utf8 family <+: utf8 a.text) ∧ a ∉ unlistedActions := by
    decide +kernel
  have haction := hall action (ActionName.mem_all action)
  simp only [← toList_prefix_iff] at haction
  exact haction

theorem mem_debianOnlyActions_text (action : ActionName) :
    action.text ∈ debianOnlyActions ↔ action.InDebianFamilies ∧ action ∉ unlistedActions := by
  rw [debianOnlyActions_eq, List.mem_map_of_injective text_injective]
  exact mem_guardedActions_iff action

/-- The other copy misses nothing. -/
theorem mem_debianOnlyActionNames {action : ActionName} (h : action.InDebianFamilies) :
    action.text ∈ debianOnlyActionNames := by
  have hlisted : debianOnlyActions.Sublist debianOnlyActionNames := by decide +kernel
  have hunlisted : (unlistedActions.map ActionName.text).Sublist debianOnlyActionNames := by
    decide +kernel
  by_cases hmem : action ∈ unlistedActions
  · exact hunlisted.subset (List.mem_map_of_mem hmem)
  · exact hlisted.subset ((mem_debianOnlyActions_text action).mpr ⟨h, hmem⟩)

end Lists

theorem mem_debianOnlyActions_iff {name : String} :
    name ∈ debianOnlyActions ↔
      ∃ action : ActionName, name = action.text ∧ action.InDebianFamilies ∧
        action ∉ unlistedActions := by
  constructor
  · intro h
    rw [debianOnlyActions_eq] at h
    obtain ⟨action, -, rfl⟩ := List.mem_map.mp h
    exact ⟨action, rfl, (mem_debianOnlyActions_text action).mp h⟩
  · intro h
    obtain ⟨action, rfl, h⟩ := h
    exact (mem_debianOnlyActions_text action).mpr h

/-! ## What the guard turns away -/

theorem checkActionDistro_error_iff {name : String} {distro : DistroId} :
    (∃ e, checkActionDistro name (some distro) = .error e) ↔
      name ∈ debianOnlyActions ∧ distro.family ≠ .debian ∨
        name ∈ fedoraOnlyActions ∧ distro.family ≠ .fedora := by
  unfold checkActionDistro
  dsimp only
  split_ifs with hdebian hfedora
  · refine iff_of_true ⟨_, rfl⟩ (Or.inl ?_)
    simpa using hdebian
  · refine iff_of_true ⟨_, rfl⟩ (Or.inr ?_)
    simpa using hfedora
  · refine iff_of_false ?_ ?_
    · intro h
      obtain ⟨e, he⟩ := h
      cases he
    · intro h
      rcases h with h | h
      · exact hdebian (by simpa using h)
      · exact hfedora (by simpa using h)

theorem checkActionDistro_cases (name : String) (distro : Option DistroId) :
    checkActionDistro name distro = .ok () ∨ ∃ e, checkActionDistro name distro = .error e := by
  cases checkActionDistro name distro with
  | ok u => exact Or.inl rfl
  | error e => exact Or.inr ⟨e, rfl⟩

/-- The guard goes over the whole plan. -/
theorem checkPlanDistro_cases (distro : Option DistroId) (steps : List PlanStep) :
    (checkPlanDistro distro steps = .ok () ∧
        ∀ step ∈ steps, checkActionDistro step.actionName distro = .ok ()) ∨
      ∃ e, checkPlanDistro distro steps = .error e ∧
        ∃ step ∈ steps, checkActionDistro step.actionName distro = .error e := by
  induction steps with
  | nil => exact Or.inl ⟨rfl, nofun⟩
  | cons step rest ih =>
    rcases checkActionDistro_cases step.actionName distro with hstep | ⟨e, hstep⟩
    · rw [checkPlanDistro, hstep]
      rcases ih with ⟨hrest, hall⟩ | ⟨e, hrest, bad, hbad, he⟩
      · exact Or.inl ⟨hrest, List.forall_mem_cons.mpr ⟨hstep, hall⟩⟩
      · exact Or.inr ⟨e, hrest, bad, List.mem_cons_of_mem step hbad, he⟩
    · rw [checkPlanDistro, hstep]
      exact Or.inr ⟨e, rfl, step, List.mem_cons_self .., hstep⟩

/-- Some step's name is on a list that is not for this distribution. -/
def TurnedAway (distro : DistroId) (steps : List PlanStep) : Prop :=
  ∃ step ∈ steps, step.actionName ∈ debianOnlyActions ∧ distro.family ≠ .debian ∨
    step.actionName ∈ fedoraOnlyActions ∧ distro.family ≠ .fedora

theorem checkPlanDistro_error_iff {distro : DistroId} {steps : List PlanStep} :
    (∃ e, checkPlanDistro (some distro) steps = .error e) ↔ TurnedAway distro steps := by
  rcases checkPlanDistro_cases (some distro) steps with ⟨hok, hall⟩ | ⟨e, he, step, hstep, hbad⟩
  · refine iff_of_false (by simp [hok]) ?_
    intro h
    obtain ⟨step, hstep, hlisted⟩ := h
    obtain ⟨e, he⟩ := checkActionDistro_error_iff.mpr hlisted
    rw [hall step hstep] at he
    cases he
  · exact iff_of_true ⟨e, he⟩ ⟨step, hstep, checkActionDistro_error_iff.mp ⟨e, hbad⟩⟩

/-! ## Before the first request -/

/-- The policy lets it pass, or asks. -/
def ApprovalDecision.mayPass : ApprovalDecision → Bool
  | .autoApproved | .requiresPrompt => true
  | .requiresInteraction | .exceedsCeiling => false

/-- The policy ends the run on its own, before anything is sent. -/
def EndsUnapproved (opts : RunOpts) (plan : Plan) : Prop :=
  if opts.stepByStep then
    ∃ step rest, plan.steps = step :: rest ∧
      (opts.approvalPolicy.decideStep step.riskLevel).mayPass = false
  else (opts.approvalPolicy.decidePlan plan).mayPass = false

/-- Everyone answers: the planner, the person and the daemon. -/
abbrev ClientAnswers := List ClientEvent → (o : ClientOp) → o.Answer

def ClientAnswers.world (answers : ClientAnswers) : World ClientOp ClientOp.Answer :=
  fun log o => some (answers log o)

/-- The run ends with an error, and no request has gone out. -/
def RefusedUnsent (answers : ClientAnswers) (p : ClientProg (Except CliError Unit))
    (log : List ClientEvent) : Prop :=
  ∃ e log', p.runIn answers.world log = (some (.error e), log') ∧
    ∀ request, (⟨.request request, .ok ()⟩ : ClientEvent) ∉ log'

/-- Whatever they answer, once the distribution and the plan are these. -/
def StopsBeforeDaemon (text : ClientText) (opts : RunOpts) (intent : String) (distro : DistroId)
    (plan : Plan) : Prop :=
  ∀ answers : ClientAnswers, (∀ log, answers log .detectDistro = some distro) →
    (∀ log, answers log (.planIntent intent) = .ok plan) →
    RefusedUnsent answers (runIntent text opts intent) []

section Run
variable {text : ClientText} {opts : RunOpts} {answers : ClientAnswers} {log : List ClientEvent}

theorem Quiet.unsent {evs : List ClientEvent} (h : Quiet evs) (request : ClientRequest) :
    (⟨.request request, .ok ()⟩ : ClientEvent) ∉ evs := fun hmem => h _ hmem request rfl

theorem refusedUnsent_ret (e : CliError) (h : Quiet log) :
    RefusedUnsent answers (.ret (.error e)) log := ⟨e, log, rfl, h.unsent⟩

variable (answers) in
theorem promptConfirm_run (question : Question) (hlog : Quiet log) :
    ∃ confirmed log', (promptConfirm question).runIn answers.world log = (some confirmed, log') ∧
      Quiet log' := by
  refine ⟨_, _, rfl, quiet_append.mpr ⟨hlog, ?_⟩⟩
  intro e he request ho
  rw [List.mem_singleton.mp he] at ho
  cases ho

variable (opts answers) in
/-- A question at most, then a yes or an error. -/
theorem settleDecision_run (question : Question) (highest : PlanRiskLevel)
    (decision : ApprovalDecision) (hlog : Quiet log) :
    ∃ out log', (settleDecision opts question highest decision).runIn answers.world log =
        (some out, log') ∧ Quiet log' ∧
      ((∃ e, out = .error e) ∨ out = .ok () ∧ decision.mayPass = true) := by
  cases decision with
  | autoApproved => exact ⟨_, log, rfl, hlog, Or.inr ⟨rfl, rfl⟩⟩
  | requiresInteraction => exact ⟨_, log, rfl, hlog, Or.inl ⟨_, rfl⟩⟩
  | exceedsCeiling => exact ⟨_, log, rfl, hlog, Or.inl ⟨_, rfl⟩⟩
  | requiresPrompt =>
    obtain ⟨confirmed, log', hask, hquiet⟩ := promptConfirm_run answers question hlog
    refine ⟨_, log', (runIn_bind_some hask).trans rfl, hquiet, ?_⟩
    cases confirmed with
    | true => exact Or.inr ⟨rfl, rfl⟩
    | false => exact Or.inl ⟨_, rfl⟩

variable (opts answers) in
theorem approvePlan_run (plan : Plan) (hlog : Quiet log) :
    ∃ out log', (approvePlan opts plan).runIn answers.world log = (some out, log') ∧ Quiet log' ∧
      ((∃ e, out = .error e) ∨ out = .ok () ∧
        (opts.stepByStep = false → (opts.approvalPolicy.decidePlan plan).mayPass = true)) := by
  unfold approvePlan
  cases hmode : opts.stepByStep with
  | true => exact ⟨_, log, rfl, hlog, Or.inr ⟨rfl, nofun⟩⟩
  | false =>
    obtain ⟨out, log', hrun, hquiet, hout⟩ :=
      settleDecision_run opts answers
        (.plan plan.steps.length ((highestRisk plan.steps).getD .low))
        ((highestRisk plan.steps).getD .low) (opts.approvalPolicy.decidePlan plan) hlog
    exact ⟨out, log', hrun, hquiet, hout.imp_right fun h => ⟨h.1, fun _ => h.2⟩⟩

theorem runApproved_turnedAway {plan : Plan} {distro : DistroId} (hlog : Quiet log)
    (h : TurnedAway distro plan.steps) :
    RefusedUnsent answers (runApproved text opts plan (some distro)) log := by
  obtain ⟨e, he⟩ := checkPlanDistro_error_iff.mpr h
  rw [runApproved, he]
  exact refusedUnsent_ret _ hlog

/-- Step by step, the policy may refuse the first step: the guard has spoken by then, or
has nothing to say. -/
theorem runApproved_firstRefused {plan : Plan} {distro : Option DistroId} {step : PlanStep}
    {rest : List PlanStep} (hlog : Quiet log) (hmode : opts.stepByStep = true)
    (hsteps : plan.steps = step :: rest)
    (hrefused : (opts.approvalPolicy.decideStep step.riskLevel).mayPass = false) :
    RefusedUnsent answers (runApproved text opts plan distro) log := by
  rcases checkPlanDistro_cases distro plan.steps with ⟨hok, -⟩ | ⟨e, he, -⟩
  · obtain ⟨out, log', hrun, hquiet, hout⟩ :=
      settleDecision_run opts answers (.step step) step.riskLevel
        (opts.approvalPolicy.decideStep step.riskLevel) hlog
    rcases hout with ⟨e, rfl⟩ | ⟨-, hpass⟩
    · have happrove : (approveStep opts step).runIn answers.world log =
          (some (.error e), log') := by
        rw [approveStep, if_pos hmode]
        exact hrun
      have hstep : (runStep text opts step).runIn answers.world log = (some (.error e), log') :=
        (runIn_bind_some happrove).trans rfl
      have hsteps' : (runSteps text opts plan.steps).runIn answers.world log =
          (some (.error e), log') := by
        rw [hsteps]
        exact (runIn_bind_some hstep).trans rfl
      rw [runApproved, hok]
      exact ⟨e, log', (runIn_bind_some hsteps').trans rfl, hquiet.unsent⟩
    · rw [hrefused] at hpass
      cases hpass
  · rw [runApproved, he]
    exact refusedUnsent_ret _ hlog

/-- The events in front of the approval. -/
def shownEvents (opts : RunOpts) (intent : String) (distro : DistroId) (plan : Plan) :
    List ClientEvent :=
  [⟨.detectDistro, some distro⟩, ⟨.planIntent intent, .ok plan⟩,
   ⟨.print (if opts.json then .planJson plan else .printPlan plan), ()⟩]

theorem shownEvents_quiet (intent : String) (distro : DistroId) (plan : Plan) :
    Quiet (shownEvents opts intent distro plan) := by
  intro e he request ho
  simp only [shownEvents, List.mem_cons, List.not_mem_nil, or_false] at he
  rcases he with rfl | rfl | rfl <;> cases ho

/-- What `run_intent` does once the plan is on the screen. -/
def afterShown (text : ClientText) (opts : RunOpts) (plan : Plan) (distro : DistroId) :
    ClientProg (Except CliError Unit) := do
  match ← approvePlan opts plan with
  | .error e => return .error e
  | .ok () => runApproved text opts plan (some distro)

variable (text opts) in
theorem runIntent_run {intent : String} {distro : DistroId} {plan : Plan}
    (hdistro : ∀ log, answers log .detectDistro = some distro)
    (hplan : ∀ log, answers log (.planIntent intent) = .ok plan) (hdry : opts.dryRun = false) :
    (runIntent text opts intent).runIn answers.world [] =
      (afterShown text opts plan distro).runIn answers.world
        (shownEvents opts intent distro plan) := by
  have hask : answers.world [] .detectDistro = some (some distro) := congrArg some (hdistro [])
  have hintent : ∀ log, answers.world log (.planIntent intent) = some (.ok plan) :=
    fun log => congrArg some (hplan log)
  rw [runIntent, clientOp_bind, runIn_op_some hask, clientOp_bind, runIn_op_some (hintent _)]
  dsimp only
  rw [clientOp_bind, hdry, if_neg Bool.false_ne_true]
  rfl

/-- A plan that is turned away, or that the policy refuses, is an error before the first
request. -/
theorem afterShown_refused {plan : Plan} {distro : DistroId} (hlog : Quiet log)
    (h : TurnedAway distro plan.steps ∨ EndsUnapproved opts plan) :
    RefusedUnsent answers (afterShown text opts plan distro) log := by
  obtain ⟨out, log', hrun, hquiet, hout⟩ :=
    approvePlan_run opts answers plan hlog
  rcases hout with ⟨e, rfl⟩ | ⟨rfl, hpass⟩
  · exact ⟨e, log', (runIn_bind_some hrun).trans rfl, hquiet.unsent⟩
  · have hrest : RefusedUnsent answers (runApproved text opts plan (some distro)) log' := by
      rcases h with hturned | hends
      · exact runApproved_turnedAway hquiet hturned
      · unfold EndsUnapproved at hends
        split_ifs at hends with hmode
        · obtain ⟨step, rest, hsteps, hrefused⟩ := hends
          exact runApproved_firstRefused hquiet hmode hsteps hrefused
        · rw [hpass (by simpa using hmode)] at hends
          cases hends
    obtain ⟨e, log'', hend, hunsent⟩ := hrest
    exact ⟨e, log'', (runIn_bind_some hrun).trans hend, hunsent⟩

end Run

/-! ## A plan that reaches the daemon -/

/-- A person who says yes to everything, and a daemon that takes every request. -/
def yesAnswers (distro : DistroId) (plan : Plan) : ClientAnswers := fun _ o =>
  match o with
  | .request _ => .ok ()
  | .replies => ⟨[], "closed"⟩
  | .readLine _ => some "y"
  | .print _ => ()
  | .planIntent _ => .ok plan
  | .detectDistro => some distro

section Yes
variable {text : ClientText} {opts : RunOpts} {distro : DistroId} {plan : Plan}
  {log : List ClientEvent}

/-- The events of a run are events of what goes on behind it. -/
theorem mem_runIn_bind {α β : Type} {answers : ClientAnswers} {p : ClientProg α}
    {f : α → ClientProg β} {e : ClientEvent} (h : e ∈ (p.runIn answers.world log).2) :
    e ∈ ((p >>= f).runIn answers.world log).2 := by
  obtain ⟨a, log', hrun⟩ := runIn_returns answers p log
  have hrun' : p.runIn answers.world log = (some a, log') := hrun
  rw [hrun'] at h
  rw [runIn_bind_some hrun']
  exact (log_grows rfl).subset h

theorem settleDecision_yes (question : Question) (highest : PlanRiskLevel)
    {decision : ApprovalDecision} (h : decision.mayPass = true) :
    ∃ log', (settleDecision opts question highest decision).runIn (yesAnswers distro plan).world
        log = (some (.ok ()), log') := by
  cases decision with
  | autoApproved => exact ⟨log, rfl⟩
  | requiresPrompt =>
    have hask : (promptConfirm question).runIn (yesAnswers distro plan).world log =
        (some true, log ++ [⟨.readLine question, some "y"⟩]) :=
      congrArg (fun b => (some b, _)) (by decide : ((some "y").map confirms).getD false = true)
    exact ⟨_, (runIn_bind_some hask).trans rfl⟩
  | requiresInteraction => cases h
  | exceedsCeiling => cases h

theorem runStep_sends {step : PlanStep} (h : opts.stepByStep = true →
      (opts.approvalPolicy.decideStep step.riskLevel).mayPass = true) :
    (⟨.request (.preview step.actionName step.params), .ok ()⟩ : ClientEvent) ∈
      ((runStep text opts step).runIn (yesAnswers distro plan).world log).2 := by
  obtain ⟨log', happrove⟩ : ∃ log', (approveStep opts step).runIn (yesAnswers distro plan).world
      log = (some (.ok ()), log') := by
    unfold approveStep
    split_ifs with hmode
    · exact settleDecision_yes _ _ (h hmode)
    · exact ⟨log, rfl⟩
  rw [runStep, runIn_bind_some happrove]
  apply mem_runIn_bind
  unfold DaemonClient.preview DaemonClient.call
  rw [clientOp_bind]
  have hsent : (⟨.request (.preview step.actionName step.params), .ok ()⟩ : ClientEvent) ∈
      log' ++ [⟨.request (.preview step.actionName step.params), .ok ()⟩] :=
    List.mem_append_right _ (List.mem_singleton_self _)
  have hanswer : (yesAnswers distro plan).world log'
      (.request (.preview step.actionName step.params)) = some (.ok ()) := rfl
  rw [runIn_op_some hanswer]
  exact (log_grows rfl).subset hsent

variable (text log) in
/-- Nothing on the lists and nothing against it in the policy: the first preview is sent. -/
theorem afterShown_sends (hturned : ¬ TurnedAway distro plan.steps)
    (hends : ¬ EndsUnapproved opts plan) :
    ∃ actionName params, (⟨.request (.preview actionName params), .ok ()⟩ : ClientEvent) ∈
      ((afterShown text opts plan distro).runIn (yesAnswers distro plan).world log).2 := by
  obtain ⟨step, rest, hsteps⟩ := List.exists_cons_of_ne_nil plan.steps_ne
  unfold EndsUnapproved at hends
  obtain ⟨log', happrove⟩ : ∃ log', (approvePlan opts plan).runIn (yesAnswers distro plan).world
      log = (some (.ok ()), log') := by
    unfold approvePlan
    split_ifs at hends ⊢ with hmode
    · exact ⟨log, rfl⟩
    · exact settleDecision_yes _ _ (by simpa using hends)
  have hguard : checkPlanDistro (some distro) plan.steps = .ok () := by
    rcases checkPlanDistro_cases (some distro) plan.steps with ⟨hok, -⟩ | ⟨e, he, -⟩
    · exact hok
    · exact absurd (checkPlanDistro_error_iff.mp ⟨e, he⟩) hturned
  have hfirst : opts.stepByStep = true →
      (opts.approvalPolicy.decideStep step.riskLevel).mayPass = true := by
    intro hmode
    rw [if_pos hmode] at hends
    rw [← Bool.not_eq_false]
    exact fun hrefused => hends ⟨step, rest, hsteps, hrefused⟩
  refine ⟨step.actionName, step.params, ?_⟩
  rw [afterShown, runIn_bind_some happrove]
  dsimp only
  rw [runApproved, hguard]
  apply mem_runIn_bind
  rw [hsteps, runSteps]
  exact mem_runIn_bind (runStep_sends hfirst)

end Yes

/-- The daemon hears nothing of a plan exactly when a list or the policy stops it. -/
theorem stopsBeforeDaemon_iff_stopped {text : ClientText} {opts : RunOpts} {intent : String}
    {distro : DistroId} {plan : Plan} (hdry : opts.dryRun = false) :
    StopsBeforeDaemon text opts intent distro plan ↔
      TurnedAway distro plan.steps ∨ EndsUnapproved opts plan := by
  constructor
  · intro h
    by_contra hnone
    rw [not_or] at hnone
    have hrun : (runIntent text opts intent).runIn (yesAnswers distro plan).world [] = _ :=
      runIntent_run text opts (fun _ => rfl) (fun _ => rfl) hdry
    obtain ⟨e, log', hrefused, hunsent⟩ := h (yesAnswers distro plan) (fun _ => rfl) fun _ => rfl
    obtain ⟨actionName, params, hsent⟩ := afterShown_sends text
      (shownEvents opts intent distro plan) hnone.1 hnone.2
    rw [← hrun, hrefused] at hsent
    exact hunsent _ hsent
  · intro h answers hdistro hplan
    unfold RefusedUnsent
    rw [runIntent_run text opts hdistro hplan hdry]
    exact afterShown_refused (shownEvents_quiet intent distro plan) h

/-- On a distribution that is not of Debian's family the daemon hears nothing of a plan
exactly when the plan has a family action that is on the list, an action of Fedora's that is
not for this distribution either, or no leave from the policy. -/
theorem stopsBeforeDaemon_iff (text : ClientText) (opts : RunOpts) (intent : String)
    (distro : DistroId) (plan : Plan) (hdistro : distro.family ≠ .debian)
    (hdry : opts.dryRun = false) :
    StopsBeforeDaemon text opts intent distro plan ↔
      (∃ step ∈ plan.steps, ∃ action : ActionName, step.actionName = action.text ∧
          action.InDebianFamilies ∧ action ∉ unlistedActions) ∨
        (distro.family ≠ .fedora ∧ ∃ step ∈ plan.steps, step.actionName ∈ fedoraOnlyActions) ∨
        EndsUnapproved opts plan := by
  rw [stopsBeforeDaemon_iff_stopped hdry, ← or_assoc]
  refine or_congr_left ?_
  simp only [TurnedAway, ← mem_debianOnlyActions_iff]
  constructor
  · intro h
    rcases h with ⟨step, hstep, ⟨hlisted, -⟩ | ⟨hlisted, hfedora⟩⟩
    · exact Or.inl ⟨step, hstep, hlisted⟩
    · exact Or.inr ⟨hfedora, step, hstep, hlisted⟩
  · intro h
    rcases h with ⟨step, hstep, hlisted⟩ | ⟨hfedora, step, hstep, hlisted⟩
    · exact ⟨step, hstep, Or.inl ⟨hlisted, hdistro⟩⟩
    · exact ⟨step, hstep, Or.inr ⟨hlisted, hfedora⟩⟩

/-- A snap is to be put back to its last revision. -/
def revertPlan : Plan where
  intent := "undo the last update of firefox"
  summary := "Revert the snap"
  explanation := "One step."
  steps := [⟨"SnapRevert", "Revert firefox", .low, .object [("name", .string "firefox")],
    by decide⟩]
  intent_ne := by decide
  summary_ne := by decide
  explanation_ne := by decide
  steps_ne := by decide

/-- Fedora's daemon is asked for a preview of it. -/
theorem stopsBeforeDaemon_revertPlan : ¬ ∀ (text : ClientText) (opts : RunOpts) (intent : String)
    (distro : DistroId) (plan : Plan), distro.family ≠ .debian → opts.dryRun = false →
      (∃ step ∈ plan.steps, ∃ action : ActionName,
        step.actionName = action.text ∧ action.InDebianFamilies) →
      StopsBeforeDaemon text opts intent distro plan := by
  intro hall
  have hfamily : ∃ step ∈ revertPlan.steps, ∃ action : ActionName,
      step.actionName = action.text ∧ action.InDebianFamilies :=
    ⟨_, List.mem_singleton_self _, .snapRevert, rfl, by decide⟩
  have hstops := hall plainText unattended revertPlan.intent (.fedora 41) revertPlan (by decide)
    rfl hfamily
  rcases (stopsBeforeDaemon_iff_stopped rfl).mp hstops with ⟨step, hstep, hlisted⟩ | hends
  · obtain rfl := List.mem_singleton.mp hstep
    revert hlisted
    decide
  · rw [EndsUnapproved, if_neg (by decide)] at hends
    exact absurd hends (by decide)

theorem stopsBeforeDaemon_upgradePlan :
    StopsBeforeDaemon plainText unattended upgradePlan.intent (.fedora 41) upgradePlan := by
  refine (stopsBeforeDaemon_iff plainText unattended upgradePlan.intent (.fedora 41) upgradePlan
    (by decide) rfl).mpr (Or.inl ⟨_, List.mem_cons_self .., .aptUpdate, rfl, ?_⟩)
  decide

end Sysknife
