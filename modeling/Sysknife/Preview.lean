import Sysknife.Actions.Spec
import Sysknife.Transactions

/-!
# Preview profiles

`preview_action` and the table of safety profiles it reports from. The table
knows actions by name; anything it does not list is unclassified.
-/

namespace Sysknife

structure PreviewProfile where
  riskLevel : RiskLevel
  expectedSideEffects : List String
  rebootRequired : Bool
  rollbackAvailable : Bool
  warnings : List String

/-- The wildcard arm. -/
def unclassified : PreviewProfile :=
  ⟨.high, ["unclassified action"], false, false, ["action profile not recognized"]⟩

/-- The arms of `preview_profile`. -/
def profileFor : ActionName → PreviewProfile
  | .getSystemState | .collectDiagnostics | .getDeploymentHistory | .listDeployments
  | .getKernelArguments | .getPendingUpdates | .searchFlatpakApps | .listFlatpakRemotes
  | .listInstalledFlatpaks | .getFlatpakAppInfo | .listToolboxes | .listServices
  | .getServiceLogs | .getServiceStatus | .listTimers | .getFirewallState | .listUsers
  | .listGroups | .listPackageRepositories | .listContainers | .getContainerInfo
  | .getLayeredPackages | .getDiskUsage | .listProcesses | .getMemoryInfo | .getNetworkStatus
  | .getAuthorizedKeys | .getDateTime | .listJobHistory | .aptSearch | .aptListInstalled
  | .aptShow | .snapList | .snapInfo | .ufwStatus | .distroboxList | .netplanGetConfig
  | .proStatus | .livepatchStatus | .multipassList =>
    ⟨.low, [], false, false, []⟩
  | .aptInstall | .aptRemove | .aptPurge | .aptHold | .aptUnhold =>
    ⟨.medium,
      ["package state will change", "services may be restarted by needrestart"],
      false, false,
      ["approval required"]⟩
  | .snapInstall | .snapRemove | .snapRefresh | .snapHold | .snapUnhold =>
    ⟨.medium,
      ["snap state will change"],
      false, false,
      ["approval required", "snap auto-refresh: install is paired with --hold by default"]⟩
  | .distroboxCreate | .distroboxRemove =>
    ⟨.medium, ["container lifecycle will change"], false, false, ["approval required"]⟩
  | .aptUpgrade =>
    ⟨.high,
      ["all packages will be upgraded",
       "packages may be removed to resolve dependency conflicts",
       "services may be restarted by needrestart"],
      false, false,
      ["dist-upgrade may remove packages", "exact approval required"]⟩
  | .ufwEnable | .ufwDisable | .ufwAllow | .ufwDeny | .ufwReset =>
    ⟨.high,
      ["firewall rules will change", "network access may be immediately affected"],
      false, false,
      ["misconfigured rules can lock out SSH access", "exact approval required"]⟩
  | .netplanApply =>
    ⟨.high,
      ["network interfaces will be reconfigured immediately", "SSH session may be disconnected"],
      false, false,
      ["can disconnect the current SSH session if config is wrong", "exact approval required"]⟩
  | .netplanGenerate =>
    ⟨.medium,
      ["backend network config files will be regenerated"],
      false, false,
      ["approval required"]⟩
  | .netplanSet =>
    ⟨.high,
      ["netplan configuration will be modified",
       "network may be affected when NetplanApply is run"],
      false, true,
      ["run NetplanApply to activate the change", "exact approval required"]⟩
  | .ufwDeleteRule | .ufwLimit =>
    ⟨.high,
      ["firewall rules will change", "network access may be immediately affected"],
      false, false,
      ["misconfigured rules can lock out SSH access", "exact approval required"]⟩
  | .proAttach =>
    ⟨.high,
      ["Ubuntu Pro subscription will be attached",
       "Pro services (ESM, Livepatch, FIPS) may be enabled"],
      false, true,
      ["exact approval required",
       "token is redacted from the preview, audit log, and diagnostic output"]⟩
  | .proDetach =>
    ⟨.high,
      ["Ubuntu Pro subscription will be released",
       "ESM, Livepatch, and FIPS services will be disabled"],
      false, true,
      ["exact approval required",
       "after detach, this machine no longer receives Pro security patches"]⟩
  | .ubuntuReleaseUpgrade =>
    ⟨.high,
      ["entire OS will be upgraded to the next Ubuntu release",
       "takes 20–45 minutes; system will be rebooted to complete",
       "third-party PPAs may be disabled or break during upgrade"],
      true, false,
      ["reboot required to complete the upgrade",
       "long-running operation — configure timeout >= 3600 seconds",
       "exact approval required"]⟩
  | .reloadService =>
    ⟨.medium,
      ["service config will be reloaded"],
      false, false,
      ["approval required",
       "requires ExecReload= to be defined in the unit file; if not defined, use RestartService instead"]⟩
  | .restartService | .reloadDaemon | .setServiceEnabled | .startService | .stopService
  | .configureWifi | .setDnsServers | .configureFirewall | .createToolbox | .removeToolbox
  | .installFlatpak | .removeFlatpak | .updateFlatpak | .addFlatpakRemote | .removeFlatpakRemote
  | .maskService | .unmaskService | .setHostname | .setTimezone | .setLocale | .setNtp
  | .createUser =>
    ⟨.medium, ["service interruption"], false, false, ["approval required"]⟩
  | .addUserToGroup | .removeUserFromGroup | .deleteUser | .addAuthorizedKey
  | .removeAuthorizedKey =>
    ⟨.high,
      ["access control will change"],
      false, false,
      ["privilege change", "exact approval required"]⟩
  | .addPackageRepository | .removePackageRepository | .enablePackageRepository
  | .disablePackageRepository =>
    ⟨.medium,
      ["package repository configuration will change"],
      false, false,
      ["approval required"]⟩
  | .createContainer | .startContainer | .stopContainer | .removeContainer =>
    ⟨.medium, ["container lifecycle will change"], false, false, ["approval required"]⟩
  | .updateSystem | .installPackages | .removePackages | .rebaseSystem | .rollbackDeployment
  | .addLayeredPackage | .removeLayeredPackage | .replaceLayeredPackage
  | .resetLayeredPackageOverride | .removeBasePackage =>
    ⟨.high,
      ["system deployment will change", "reboot may be required"],
      true, true,
      ["reboot required", "exact approval required"]⟩
  | .setKernelArguments =>
    ⟨.high,
      ["boot arguments will change"],
      true, true,
      ["reboot required", "exact approval required"]⟩
  | .rebootSystem =>
    ⟨.high,
      ["system reboot will interrupt running work"],
      true, false,
      ["reboot required", "exact approval required"]⟩
  | .cleanupDeployments =>
    ⟨.high, ["old deployments may be removed"], false, false, ["exact approval required"]⟩
  | .pinDeployment | .unpinDeployment =>
    ⟨.high, ["deployment pin state will change"], false, false, ["exact approval required"]⟩
  | _ => unclassified

/-- `preview_profile`. -/
def previewProfile (actionName : String) : PreviewProfile :=
  match ActionName.ofText actionName with
  | some action => profileFor action
  | none => unclassified

def previewSummary (actionName : String) (riskLevel : RiskLevel) : String :=
  let risk := match riskLevel with
    | .low => "low-risk"
    | .medium => "medium-risk"
    | .high => "high-risk"
  actionName ++ " preview (" ++ risk ++ ")"

structure RequestEnvelope where
  actionName : String
  requestId : String
  params : Json
  callerRole : CallerRole
  requestHash : String

/-- `preview_action`. -/
def previewAction (request : RequestEnvelope) (currentState proposedChange : Json) :
    PreviewEnvelope :=
  let profile := previewProfile request.actionName
  { summary := previewSummary request.actionName profile.riskLevel
    riskLevel := profile.riskLevel
    currentState
    proposedChange
    expectedSideEffects := profile.expectedSideEffects
    rebootRequired := profile.rebootRequired
    rollbackAvailable := profile.rollbackAvailable
    warnings := profile.warnings
    requestHash := request.requestHash }

/-- Only a low-risk profile comes without a warning. -/
theorem profileFor_warnings (action : ActionName) :
    (profileFor action).warnings.isEmpty = decide ((profileFor action).riskLevel = .low) := by
  cases action <;> rfl

end Sysknife
