import Mathlib.Data.List.Basic
import Sysknife.Types

/-!
# Action names and action specs

Every action name the daemon's tables mention, and the `ActionSpec` record the
executor builds for one. The tables match on texts in the source; here a text is
looked up once and the tables match on the name.
-/

namespace Sysknife

inductive ActionName where
  | getSystemState | collectDiagnostics | getDeploymentHistory | listDeployments | updateSystem
  | cleanupDeployments | rebootSystem | rollbackDeployment | getKernelArguments | pinDeployment
  | unpinDeployment | rebaseSystem | setKernelArguments | listFlatpakRemotes | installFlatpak
  | removeFlatpak | searchFlatpakApps | addFlatpakRemote | removeFlatpakRemote
  | getFlatpakAppInfo | listInstalledFlatpaks | updateFlatpak | listContainers | createContainer
  | startContainer | stopContainer | removeContainer | getContainerInfo | getLayeredPackages
  | resetLayeredPackageOverride | installPackages | removePackages | addLayeredPackage
  | removeLayeredPackage | replaceLayeredPackage | removeBasePackage | getPendingUpdates
  | listPackageRepositories | addPackageRepository | removePackageRepository
  | enablePackageRepository | disablePackageRepository | listServices | startService
  | stopService | restartService | setServiceEnabled | maskService | unmaskService
  | getServiceLogs | getServiceStatus | reloadService | listTimers | reloadDaemon | listToolboxes
  | createToolbox | removeToolbox | getDateTime | setHostname | setTimezone | setLocale | setNtp
  | getDiskUsage | listProcesses | getMemoryInfo | getFirewallState | getNetworkStatus
  | configureWifi | setDnsServers | configureFirewall | listUsers | listGroups | createUser
  | deleteUser | addUserToGroup | removeUserFromGroup | getAuthorizedKeys | addAuthorizedKey
  | removeAuthorizedKey | aptUpdate | aptUpgrade | aptInstall | aptRemove | aptPurge
  | aptAutoremove | aptHold | aptUnhold | aptSearch | aptListInstalled | aptShow
  | aptListUpgradable | aptHistoryList | addPpa | removePpa | snapInstall | snapRemove
  | snapRefresh | snapHold | snapUnhold | snapList | snapInfo | snapRevert | snapClassicInstall
  | grubGetKargs | grubSetKargs | checkPendingReboot | ufwEnable | ufwDisable | ufwAllow
  | ufwDeny | ufwReset | ufwStatus | distroboxList | distroboxCreate | distroboxRemove
  | netplanGetConfig | netplanApply | netplanSet | netplanGenerate | ufwDeleteRule | ufwLimit
  | proStatus | proAttach | proDetach | livepatchStatus | multipassList | ubuntuReleaseUpgrade
  | resolvectlStatus | resolvectlSetDns | appArmorStatus | appArmorEnforce | appArmorComplain
  | cloudInitStatus | ubuntuInstallFlatpak | ubuntuRemoveFlatpak | ubuntuUpdateFlatpak
  | ubuntuListFlatpaks | fail2banStatus | fail2banBanIp | fail2banUnbanIp | listJobHistory
  deriving DecidableEq, Repr

namespace ActionName

/-- The spelling a request carries. -/
def text : ActionName → String
  | .getSystemState => "GetSystemState"
  | .collectDiagnostics => "CollectDiagnostics"
  | .getDeploymentHistory => "GetDeploymentHistory"
  | .listDeployments => "ListDeployments"
  | .updateSystem => "UpdateSystem"
  | .cleanupDeployments => "CleanupDeployments"
  | .rebootSystem => "RebootSystem"
  | .rollbackDeployment => "RollbackDeployment"
  | .getKernelArguments => "GetKernelArguments"
  | .pinDeployment => "PinDeployment"
  | .unpinDeployment => "UnpinDeployment"
  | .rebaseSystem => "RebaseSystem"
  | .setKernelArguments => "SetKernelArguments"
  | .listFlatpakRemotes => "ListFlatpakRemotes"
  | .installFlatpak => "InstallFlatpak"
  | .removeFlatpak => "RemoveFlatpak"
  | .searchFlatpakApps => "SearchFlatpakApps"
  | .addFlatpakRemote => "AddFlatpakRemote"
  | .removeFlatpakRemote => "RemoveFlatpakRemote"
  | .getFlatpakAppInfo => "GetFlatpakAppInfo"
  | .listInstalledFlatpaks => "ListInstalledFlatpaks"
  | .updateFlatpak => "UpdateFlatpak"
  | .listContainers => "ListContainers"
  | .createContainer => "CreateContainer"
  | .startContainer => "StartContainer"
  | .stopContainer => "StopContainer"
  | .removeContainer => "RemoveContainer"
  | .getContainerInfo => "GetContainerInfo"
  | .getLayeredPackages => "GetLayeredPackages"
  | .resetLayeredPackageOverride => "ResetLayeredPackageOverride"
  | .installPackages => "InstallPackages"
  | .removePackages => "RemovePackages"
  | .addLayeredPackage => "AddLayeredPackage"
  | .removeLayeredPackage => "RemoveLayeredPackage"
  | .replaceLayeredPackage => "ReplaceLayeredPackage"
  | .removeBasePackage => "RemoveBasePackage"
  | .getPendingUpdates => "GetPendingUpdates"
  | .listPackageRepositories => "ListPackageRepositories"
  | .addPackageRepository => "AddPackageRepository"
  | .removePackageRepository => "RemovePackageRepository"
  | .enablePackageRepository => "EnablePackageRepository"
  | .disablePackageRepository => "DisablePackageRepository"
  | .listServices => "ListServices"
  | .startService => "StartService"
  | .stopService => "StopService"
  | .restartService => "RestartService"
  | .setServiceEnabled => "SetServiceEnabled"
  | .maskService => "MaskService"
  | .unmaskService => "UnmaskService"
  | .getServiceLogs => "GetServiceLogs"
  | .getServiceStatus => "GetServiceStatus"
  | .reloadService => "ReloadService"
  | .listTimers => "ListTimers"
  | .reloadDaemon => "ReloadDaemon"
  | .listToolboxes => "ListToolboxes"
  | .createToolbox => "CreateToolbox"
  | .removeToolbox => "RemoveToolbox"
  | .getDateTime => "GetDateTime"
  | .setHostname => "SetHostname"
  | .setTimezone => "SetTimezone"
  | .setLocale => "SetLocale"
  | .setNtp => "SetNtp"
  | .getDiskUsage => "GetDiskUsage"
  | .listProcesses => "ListProcesses"
  | .getMemoryInfo => "GetMemoryInfo"
  | .getFirewallState => "GetFirewallState"
  | .getNetworkStatus => "GetNetworkStatus"
  | .configureWifi => "ConfigureWifi"
  | .setDnsServers => "SetDnsServers"
  | .configureFirewall => "ConfigureFirewall"
  | .listUsers => "ListUsers"
  | .listGroups => "ListGroups"
  | .createUser => "CreateUser"
  | .deleteUser => "DeleteUser"
  | .addUserToGroup => "AddUserToGroup"
  | .removeUserFromGroup => "RemoveUserFromGroup"
  | .getAuthorizedKeys => "GetAuthorizedKeys"
  | .addAuthorizedKey => "AddAuthorizedKey"
  | .removeAuthorizedKey => "RemoveAuthorizedKey"
  | .aptUpdate => "AptUpdate"
  | .aptUpgrade => "AptUpgrade"
  | .aptInstall => "AptInstall"
  | .aptRemove => "AptRemove"
  | .aptPurge => "AptPurge"
  | .aptAutoremove => "AptAutoremove"
  | .aptHold => "AptHold"
  | .aptUnhold => "AptUnhold"
  | .aptSearch => "AptSearch"
  | .aptListInstalled => "AptListInstalled"
  | .aptShow => "AptShow"
  | .aptListUpgradable => "AptListUpgradable"
  | .aptHistoryList => "AptHistoryList"
  | .addPpa => "AddPpa"
  | .removePpa => "RemovePpa"
  | .snapInstall => "SnapInstall"
  | .snapRemove => "SnapRemove"
  | .snapRefresh => "SnapRefresh"
  | .snapHold => "SnapHold"
  | .snapUnhold => "SnapUnhold"
  | .snapList => "SnapList"
  | .snapInfo => "SnapInfo"
  | .snapRevert => "SnapRevert"
  | .snapClassicInstall => "SnapClassicInstall"
  | .grubGetKargs => "GrubGetKargs"
  | .grubSetKargs => "GrubSetKargs"
  | .checkPendingReboot => "CheckPendingReboot"
  | .ufwEnable => "UfwEnable"
  | .ufwDisable => "UfwDisable"
  | .ufwAllow => "UfwAllow"
  | .ufwDeny => "UfwDeny"
  | .ufwReset => "UfwReset"
  | .ufwStatus => "UfwStatus"
  | .distroboxList => "DistroboxList"
  | .distroboxCreate => "DistroboxCreate"
  | .distroboxRemove => "DistroboxRemove"
  | .netplanGetConfig => "NetplanGetConfig"
  | .netplanApply => "NetplanApply"
  | .netplanSet => "NetplanSet"
  | .netplanGenerate => "NetplanGenerate"
  | .ufwDeleteRule => "UfwDeleteRule"
  | .ufwLimit => "UfwLimit"
  | .proStatus => "ProStatus"
  | .proAttach => "ProAttach"
  | .proDetach => "ProDetach"
  | .livepatchStatus => "LivepatchStatus"
  | .multipassList => "MultipassList"
  | .ubuntuReleaseUpgrade => "UbuntuReleaseUpgrade"
  | .resolvectlStatus => "ResolvectlStatus"
  | .resolvectlSetDns => "ResolvectlSetDns"
  | .appArmorStatus => "AppArmorStatus"
  | .appArmorEnforce => "AppArmorEnforce"
  | .appArmorComplain => "AppArmorComplain"
  | .cloudInitStatus => "CloudInitStatus"
  | .ubuntuInstallFlatpak => "UbuntuInstallFlatpak"
  | .ubuntuRemoveFlatpak => "UbuntuRemoveFlatpak"
  | .ubuntuUpdateFlatpak => "UbuntuUpdateFlatpak"
  | .ubuntuListFlatpaks => "UbuntuListFlatpaks"
  | .fail2banStatus => "Fail2banStatus"
  | .fail2banBanIp => "Fail2banBanIp"
  | .fail2banUnbanIp => "Fail2banUnbanIp"
  | .listJobHistory => "ListJobHistory"

def all : List ActionName :=
  [.getSystemState, .collectDiagnostics, .getDeploymentHistory, .listDeployments, .updateSystem,
  .cleanupDeployments, .rebootSystem, .rollbackDeployment, .getKernelArguments, .pinDeployment,
  .unpinDeployment, .rebaseSystem, .setKernelArguments, .listFlatpakRemotes, .installFlatpak,
  .removeFlatpak, .searchFlatpakApps, .addFlatpakRemote, .removeFlatpakRemote,
  .getFlatpakAppInfo, .listInstalledFlatpaks, .updateFlatpak, .listContainers, .createContainer,
  .startContainer, .stopContainer, .removeContainer, .getContainerInfo, .getLayeredPackages,
  .resetLayeredPackageOverride, .installPackages, .removePackages, .addLayeredPackage,
  .removeLayeredPackage, .replaceLayeredPackage, .removeBasePackage, .getPendingUpdates,
  .listPackageRepositories, .addPackageRepository, .removePackageRepository,
  .enablePackageRepository, .disablePackageRepository, .listServices, .startService,
  .stopService, .restartService, .setServiceEnabled, .maskService, .unmaskService,
  .getServiceLogs, .getServiceStatus, .reloadService, .listTimers, .reloadDaemon, .listToolboxes,
  .createToolbox, .removeToolbox, .getDateTime, .setHostname, .setTimezone, .setLocale, .setNtp,
  .getDiskUsage, .listProcesses, .getMemoryInfo, .getFirewallState, .getNetworkStatus,
  .configureWifi, .setDnsServers, .configureFirewall, .listUsers, .listGroups, .createUser,
  .deleteUser, .addUserToGroup, .removeUserFromGroup, .getAuthorizedKeys, .addAuthorizedKey,
  .removeAuthorizedKey, .aptUpdate, .aptUpgrade, .aptInstall, .aptRemove, .aptPurge,
  .aptAutoremove, .aptHold, .aptUnhold, .aptSearch, .aptListInstalled, .aptShow,
  .aptListUpgradable, .aptHistoryList, .addPpa, .removePpa, .snapInstall, .snapRemove,
  .snapRefresh, .snapHold, .snapUnhold, .snapList, .snapInfo, .snapRevert, .snapClassicInstall,
  .grubGetKargs, .grubSetKargs, .checkPendingReboot, .ufwEnable, .ufwDisable, .ufwAllow,
  .ufwDeny, .ufwReset, .ufwStatus, .distroboxList, .distroboxCreate, .distroboxRemove,
  .netplanGetConfig, .netplanApply, .netplanSet, .netplanGenerate, .ufwDeleteRule, .ufwLimit,
  .proStatus, .proAttach, .proDetach, .livepatchStatus, .multipassList, .ubuntuReleaseUpgrade,
  .resolvectlStatus, .resolvectlSetDns, .appArmorStatus, .appArmorEnforce, .appArmorComplain,
  .cloudInitStatus, .ubuntuInstallFlatpak, .ubuntuRemoveFlatpak, .ubuntuUpdateFlatpak,
  .ubuntuListFlatpaks, .fail2banStatus, .fail2banBanIp, .fail2banUnbanIp, .listJobHistory]

theorem mem_all (action : ActionName) : action ∈ all := by
  cases action <;> decide

/-- The name a text spells, if any table knows it. -/
def ofText (actionName : String) : Option ActionName :=
  all.find? fun action => action.text == actionName

theorem text_of_ofText {actionName : String} {action : ActionName}
    (h : ofText actionName = some action) : action.text = actionName := by
  have hfound := List.find?_some h
  exact eq_of_beq hfound

set_option maxRecDepth 20000 in
/-- No two names share a spelling. -/
theorem ofText_text (action : ActionName) : ofText action.text = some action := by
  -- the bytes of two literals are compared faster than the literals
  have hall : ∀ a ∈ all, all.find? (fun b => utf8 b.text == utf8 a.text) = some a := by
    decide +kernel
  have hsame : (fun b : ActionName => utf8 b.text == utf8 action.text) =
      fun b => b.text == action.text := by
    funext b
    rw [Bool.eq_iff_iff, beq_iff_eq, beq_iff_eq, utf8_injective.eq_iff]
  rw [ofText, ← hsame]
  exact hall action (mem_all action)

theorem ofText_eq_some_iff {actionName : String} {action : ActionName} :
    ofText actionName = some action ↔ actionName = action.text := by
  constructor
  · intro h
    exact (text_of_ofText h).symm
  · intro rfl
    exact ofText_text action

end ActionName

/-! ## Specs -/

inductive ActionMechanism where
  | command (program : String) (args : List String)
  | fileScan (path : String)
  | fileWrite (path content : String)
  | filePatch (path search replace : String)
  | fileDelete (path : String)
  deriving DecidableEq, Repr

structure ActionSpec where
  actionName : ActionName
  mechanism : ActionMechanism
  riskLevel : RiskLevel
  rebootRequired : Bool
  rollbackAvailable : Bool
  deriving DecidableEq, Repr

end Sysknife
