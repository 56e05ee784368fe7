import Sysknife.Executor
import Sysknife.Lib.Fallible

/-!
# What an accepted spec carries

The executor's constructors set the risk level and the two flags by the action
alone, whatever the parameters are.
-/

namespace Sysknife

open Actions Fallible

/-- The part of a spec that a preview reports as well. -/
structure Traits where
  riskLevel : RiskLevel
  rebootRequired : Bool
  rollbackAvailable : Bool
  deriving DecidableEq

def ActionSpec.traits (spec : ActionSpec) : Traits :=
  ⟨spec.riskLevel, spec.rebootRequired, spec.rollbackAvailable⟩

/-- What every constructor of an action writes. `ListJobHistory` has none. -/
def specTraits : ActionName → Traits
  | .getSystemState | .collectDiagnostics | .getDeploymentHistory | .listDeployments
  | .getKernelArguments | .listFlatpakRemotes | .searchFlatpakApps | .getFlatpakAppInfo
  | .listInstalledFlatpaks | .listContainers | .getContainerInfo | .getLayeredPackages
  | .getPendingUpdates | .listPackageRepositories | .listServices | .getServiceLogs
  | .getServiceStatus | .listTimers | .listToolboxes | .getDateTime | .getDiskUsage
  | .listProcesses | .getMemoryInfo | .getFirewallState | .getNetworkStatus | .listUsers
  | .listGroups | .getAuthorizedKeys | .aptUpdate | .aptAutoremove | .aptSearch
  | .aptListInstalled | .aptShow | .aptListUpgradable | .aptHistoryList | .snapList | .snapInfo
  | .grubGetKargs | .checkPendingReboot | .ufwStatus | .distroboxList | .netplanGetConfig
  | .proStatus | .livepatchStatus | .multipassList | .resolvectlStatus | .appArmorStatus
  | .cloudInitStatus | .ubuntuListFlatpaks | .fail2banStatus
  | .listJobHistory =>
    ⟨.low, false, false⟩
  | .updateSystem | .rebaseSystem | .setKernelArguments | .resetLayeredPackageOverride
  | .installPackages | .removePackages | .addLayeredPackage | .removeLayeredPackage
  | .replaceLayeredPackage | .removeBasePackage | .grubSetKargs =>
    ⟨.high, true, true⟩
  | .cleanupDeployments | .pinDeployment | .unpinDeployment | .addPackageRepository
  | .maskService | .setDnsServers | .configureFirewall | .createUser | .deleteUser
  | .addUserToGroup | .removeUserFromGroup | .aptUpgrade | .ufwEnable | .ufwDisable | .ufwAllow
  | .ufwDeny | .ufwReset | .netplanApply | .ufwDeleteRule | .ufwLimit | .appArmorEnforce
  | .fail2banBanIp =>
    ⟨.high, false, false⟩
  | .rebootSystem | .rollbackDeployment | .ubuntuReleaseUpgrade =>
    ⟨.high, true, false⟩
  | .installFlatpak | .removeFlatpak | .addFlatpakRemote | .removeFlatpakRemote | .updateFlatpak
  | .createContainer | .startContainer | .stopContainer | .removeContainer
  | .removePackageRepository | .enablePackageRepository | .disablePackageRepository
  | .startService | .stopService | .restartService | .setServiceEnabled | .unmaskService
  | .reloadService | .reloadDaemon | .createToolbox | .removeToolbox | .setHostname
  | .setTimezone | .setLocale | .setNtp | .configureWifi | .addAuthorizedKey
  | .removeAuthorizedKey | .aptInstall | .aptRemove | .aptPurge | .aptHold | .aptUnhold
  | .snapInstall | .snapRemove | .snapRefresh | .snapHold | .snapUnhold | .snapRevert
  | .snapClassicInstall | .distroboxCreate | .distroboxRemove | .netplanGenerate
  | .resolvectlSetDns | .appArmorComplain | .ubuntuInstallFlatpak | .ubuntuRemoveFlatpak
  | .ubuntuUpdateFlatpak | .fail2banUnbanIp =>
    ⟨.medium, false, false⟩
  | .addPpa | .removePpa =>
    ⟨.medium, false, true⟩
  | .netplanSet | .proAttach | .proDetach =>
    ⟨.high, false, true⟩

/-- A spec as the constructors of `action` write it. -/
def WrittenFor (action : ActionName) (spec : ActionSpec) : Prop :=
  spec.actionName = action ∧ spec.traits = specTraits action

theorem snapInstall_written (name : String) (channel : Option String) (autoUpdate : Bool) :
    WrittenFor .snapInstall (snapInstall name channel autoUpdate) := by
  cases autoUpdate <;> exact ⟨rfl, rfl⟩

theorem snapRefresh_written (name : Option String) :
    WrittenFor .snapRefresh (snapRefresh name) := by
  cases name <;> exact ⟨rfl, rfl⟩

theorem fail2banStatus_written (jail : Option String) :
    WrittenFor .fail2banStatus (fail2banStatus jail) := by
  cases jail <;> exact ⟨rfl, rfl⟩

theorem grubSetKargs_written {append delete : List String} {spec : ActionSpec}
    (h : grubSetKargs append delete = some spec) : WrittenFor .grubSetKargs spec := by
  unfold grubSetKargs at h
  split at h
  · cases h
  · cases h
    exact ⟨rfl, rfl⟩

theorem ufwDeleteRule_written {ruleNumber : UInt32} {spec : ActionSpec}
    (h : ufwDeleteRule ruleNumber = some spec) : WrittenFor .ufwDeleteRule spec := by
  unfold ufwDeleteRule at h
  split at h
  · cases h
  · cases h
    exact ⟨rfl, rfl⟩

/-- The fail2ban checks hand the spec on as it is. -/
theorem fail2banChecked_ensures {jail ip : String} {spec : ActionSpec} {P : ActionSpec → Prop}
    (h : P spec) : Ensures (fail2banResult (fail2banChecked jail ip spec)) P := by
  unfold fail2banChecked
  split
  · exact ensures_error
  split
  · exact ensures_error
  · exact ensures_ok h

theorem specFor_written (action : ActionName) (params : Json) :
    Ensures (specFor action params) (WrittenFor action) := by
  cases action
  all_goals dsimp only [specFor]
  all_goals repeat refine ensures_bind_any fun _ => ?_
  case snapInstall => exact ensures_ok (snapInstall_written _ _ _)
  case snapRefresh => exact ensures_ok (snapRefresh_written _)
  case fail2banStatus => exact ensures_ok (fail2banStatus_written _)
  case fail2banBanIp => exact fail2banChecked_ensures ⟨rfl, rfl⟩
  case fail2banUnbanIp => exact fail2banChecked_ensures ⟨rfl, rfl⟩
  case listJobHistory => exact ensures_error
  case grubSetKargs =>
    split
    · next spec hspec => exact ensures_ok (grubSetKargs_written hspec)
    · exact ensures_error
  case ufwDeleteRule =>
    split
    · next spec hspec => exact ensures_ok (ufwDeleteRule_written hspec)
    · exact ensures_error
  case resolvectlSetDns =>
    refine ensures_ite (fun _ => ensures_error) fun _ => ?_
    exact ensures_bind_any fun _ => ensures_ok ⟨rfl, rfl⟩
  all_goals exact ensures_ok ⟨rfl, rfl⟩

/-- The name a spec was built from, and what its constructor wrote. -/
theorem buildActionSpec_text (action : ActionName) (params : Json) :
    buildActionSpec action.text params = specFor action params := by
  unfold buildActionSpec
  rw [ActionName.ofText_text]

theorem buildActionSpec_written {actionName : String} {params : Json} {spec : ActionSpec}
    (h : buildActionSpec actionName params = .ok spec) :
    ActionName.ofText actionName = some spec.actionName ∧
      spec.traits = specTraits spec.actionName := by
  unfold buildActionSpec at h
  split at h
  · next action haction =>
    obtain ⟨hname, htraits⟩ := (specFor_written action params).apply h
    rw [haction, hname]
    exact ⟨rfl, htraits⟩
  · cases h

end Sysknife
