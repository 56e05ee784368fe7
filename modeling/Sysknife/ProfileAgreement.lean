import Sysknife.ActionTraits
import Sysknife.Preview

/-!
# Preview, executor and rollback tables

Where the profile an operator approves under agrees with the spec that is run
and stored, and with the rollback table. The actions on which they disagree are
listed by what goes wrong.
-/

namespace Sysknife

/-- A preview of an action says what its spec says, and a promised rollback
exists. -/
structure TablesAgree (actionName : String) (preview : PreviewEnvelope) (spec : ActionSpec) :
    Prop where
  riskLevel : preview.riskLevel = spec.riskLevel
  rebootRequired : preview.rebootRequired = spec.rebootRequired
  rollbackAvailable : preview.rollbackAvailable = spec.rollbackAvailable
  rollbackDefined : preview.rollbackAvailable = true ∨ spec.rollbackAvailable = true →
    (rollbackSpecFor actionName).isSome = true

def PreviewProfile.traits (profile : PreviewProfile) : Traits :=
  ⟨profile.riskLevel, profile.rebootRequired, profile.rollbackAvailable⟩

/-- The executor and the policy know these, the preview table does not: they are
shown as high-risk. -/
def unprofiled : List ActionName :=
  [.aptUpdate, .aptAutoremove, .aptListUpgradable, .aptHistoryList, .addPpa, .removePpa,
    .snapRevert, .snapClassicInstall, .grubGetKargs, .grubSetKargs, .checkPendingReboot,
    .resolvectlStatus, .resolvectlSetDns, .appArmorStatus, .appArmorComplain, .cloudInitStatus,
    .ubuntuInstallFlatpak, .ubuntuRemoveFlatpak, .ubuntuUpdateFlatpak, .ubuntuListFlatpaks,
    .fail2banStatus, .fail2banUnbanIp]

/-- Shown as medium-risk, run and stored as high-risk. -/
def understated : List ActionName :=
  [.configureFirewall, .setDnsServers, .maskService, .createUser, .addPackageRepository]

/-- Shown as high-risk, run and stored as medium-risk. -/
def overstated : List ActionName := [.addAuthorizedKey, .removeAuthorizedKey]

/-- Shown with a rollback that `rollback_spec_for` does not define. -/
def unsupportedRollback : List ActionName :=
  [.rollbackDeployment, .netplanSet, .proAttach, .proDetach]

def disagreeing : List ActionName :=
  unprofiled ++ understated ++ overstated ++ unsupportedRollback

/-- The agreement of the tables themselves, action by action. -/
theorem profileFor_agrees_iff (action : ActionName) :
    ((profileFor action).traits = specTraits action ∧
      ((specTraits action).rollbackAvailable = true → (rollbackFor action).isSome = true)) ↔
      action ∉ disagreeing := by
  cases action <;> decide

theorem tablesAgree_iff_traits {action : ActionName} {request : RequestEnvelope}
    {currentState proposedChange : Json} {spec : ActionSpec}
    (haction : ActionName.ofText request.actionName = some action)
    (htraits : spec.traits = specTraits action) :
    TablesAgree request.actionName (previewAction request currentState proposedChange) spec ↔
      (profileFor action).traits = specTraits action ∧
        ((specTraits action).rollbackAvailable = true → (rollbackFor action).isSome = true) := by
  have hprofile : previewProfile request.actionName = profileFor action := by
    simp [previewProfile, haction]
  have hrollback : rollbackSpecFor request.actionName = rollbackFor action := by
    simp [rollbackSpecFor, haction]
  rw [← htraits]
  constructor
  · intro h
    have hrisk : (profileFor action).riskLevel = spec.riskLevel := by
      rw [← hprofile]
      exact h.riskLevel
    have hreboot : (profileFor action).rebootRequired = spec.rebootRequired := by
      rw [← hprofile]
      exact h.rebootRequired
    have hflag : (profileFor action).rollbackAvailable = spec.rollbackAvailable := by
      rw [← hprofile]
      exact h.rollbackAvailable
    refine ⟨?_, fun hspec => ?_⟩
    · simp only [PreviewProfile.traits, ActionSpec.traits, hrisk, hreboot, hflag]
    · rw [← hrollback]
      exact h.rollbackDefined (Or.inr hspec)
  · rintro ⟨hsame, hdefined⟩
    simp only [PreviewProfile.traits, ActionSpec.traits, Traits.mk.injEq] at hsame
    obtain ⟨hrisk, hreboot, hflag⟩ := hsame
    rw [← hprofile] at hrisk hreboot hflag
    refine ⟨hrisk, hreboot, hflag, ?_⟩
    rintro (hpreview | hspec)
    · rw [hrollback]
      exact hdefined (hflag.symm.trans hpreview)
    · rw [hrollback]
      exact hdefined hspec

/-- The tables agree on every accepted request except those for the listed
actions. -/
theorem tables_agree_iff (request : RequestEnvelope) (currentState proposedChange : Json)
    (spec : ActionSpec) (hspec : buildActionSpec request.actionName request.params = .ok spec) :
    TablesAgree request.actionName (previewAction request currentState proposedChange) spec ↔
      ∀ action ∈ disagreeing, request.actionName ≠ action.text := by
  obtain ⟨haction, htraits⟩ := buildActionSpec_written hspec
  rw [tablesAgree_iff_traits haction htraits, profileFor_agrees_iff]
  have hname : request.actionName = spec.actionName.text :=
    ActionName.ofText_eq_some_iff.mp haction
  constructor
  · intro hnot action hmem htext
    rw [htext, ActionName.ofText_text] at haction
    cases haction
    exact hnot hmem
  · intro h hmem
    exact h spec.actionName hmem hname

/-- A request without parameters. -/
def bareRequest (actionName : String) : RequestEnvelope :=
  ⟨actionName, "r1", .null, .admin, ""⟩

theorem tables_agree_updateSystem :
    TablesAgree "UpdateSystem" (previewAction (bareRequest "UpdateSystem") .null .null)
        Actions.updateSystem ↔
      ∀ action ∈ disagreeing, "UpdateSystem" ≠ action.text :=
  tables_agree_iff (bareRequest "UpdateSystem") .null .null Actions.updateSystem
    (by decide +kernel)

/-- Masking a service: the operator sees a medium risk, the row stores a high one. -/
theorem tables_disagree_maskService :
    ¬ ∀ (request : RequestEnvelope) (currentState proposedChange : Json) (spec : ActionSpec),
      buildActionSpec request.actionName request.params = .ok spec →
      TablesAgree request.actionName (previewAction request currentState proposedChange) spec := by
  intro h
  have hspec : buildActionSpec "MaskService" (.object [("unit", .string "sshd.service")]) =
      .ok (Actions.maskService "sshd.service") := by decide +kernel
  have hagree := h ⟨"MaskService", "r1", .object [("unit", .string "sshd.service")], .admin, ""⟩
    .null .null _ hspec
  have hrisk : RiskLevel.medium = RiskLevel.high := by
    rw [← show (Actions.maskService "sshd.service").riskLevel = .high from rfl,
      ← hagree.riskLevel]
    decide +kernel
  cases hrisk

end Sysknife
