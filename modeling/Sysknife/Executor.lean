import Sysknife.Actions.Host
import Sysknife.Actions.Packages
import Sysknife.Actions.Workloads

/-!
# Building action specs

`build_action_spec` and `rollback_spec_for` of the executor.
-/

namespace Sysknife

open Actions

/-- A required parameter under `validate`. -/
def validStr (validate : String → String → Except ExecutorError String) (params : Json)
    (key : String) : Except ExecutorError String := do
  let s ← requireStr params key
  validate s key

/-- The user name parameter, validated. -/
def validUser (params : Json) : Except ExecutorError String := do
  let s ← resolveUsername params
  validatedUsername s "username"

def validatedSafeKernelArgs : List String → Except ExecutorError Unit
  | [] => .ok ()
  | arg :: rest => do
      validatedSafeKernelArg arg
      validatedSafeKernelArgs rest

/-- Every server text as an address. -/
def parsedServers : List String → Except ExecutorError (List IpAddr)
  | [] => .ok []
  | s :: rest => do
      let addr ← match IpAddr.fromStr s with
        | some addr => .ok addr
        | none => .error (.invalidIpAddress "servers" s)
      let addrs ← parsedServers rest
      .ok (addr :: addrs)

/-- How the executor reports what the fail2ban constructors reject. -/
def fail2banResult : Except Fail2banError ActionSpec → Except ExecutorError ActionSpec
  | .ok spec => .ok spec
  | .error (.invalidIpAddress v) => .error (.invalidIpAddress "ip" v)
  | .error (.invalidJail _) => .error (.invalidParam "jail")

/-- The arms of `build_action_spec`. -/
def specFor (action : ActionName) (params : Json) : Except ExecutorError ActionSpec :=
  match action with
  -- deployment, no parameters
  | .getSystemState => .ok getSystemState
  | .collectDiagnostics => .ok collectDiagnostics
  | .getDeploymentHistory => .ok getDeploymentHistory
  | .listDeployments => .ok listDeployments
  | .updateSystem => .ok updateSystem
  | .cleanupDeployments => .ok cleanupDeployments
  | .rebootSystem => .ok rebootSystem
  | .rollbackDeployment => .ok rollbackDeployment
  | .getKernelArguments => .ok getKernelArguments
  -- deployment, parameterised
  | .pinDeployment => do
      let index ← requireU32 params "index"
      .ok (pinDeployment index)
  | .unpinDeployment => do
      let index ← requireU32 params "index"
      .ok (unpinDeployment index)
  | .rebaseSystem => do
      let targetRef ← validStr validatedSafeArg params "target_ref"
      .ok (rebaseSystem targetRef)
  | .setKernelArguments => do
      let add ← strArrayOrEmpty params "add"
      let remove ← strArrayOrEmpty params "remove"
      -- only added arguments can be dangerous
      validatedSafeKernelArgs add
      .ok (setKernelArguments add remove)
  -- flatpak
  | .listFlatpakRemotes => do
      let username ← validUser params
      .ok (listFlatpakRemotes username)
  | .installFlatpak => do
      let username ← validUser params
      let appId ← validStr validatedSafeArg params "app_id"
      let remote ← validatedSafeArg ((optStr params "remote").getD "flathub") "remote"
      .ok (installFlatpak username appId remote)
  | .removeFlatpak => do
      let username ← validUser params
      let appId ← validStr validatedSafeArg params "app_id"
      .ok (removeFlatpak username appId)
  | .searchFlatpakApps => do
      let term ← validStr validatedSafeArg params "term"
      .ok (searchFlatpakApps term)
  | .addFlatpakRemote => do
      let username ← validUser params
      let remote ← validStr validatedSafeArg params "remote"
      let url ← validStr validatedSafeArg params "url"
      .ok (addFlatpakRemote username remote url)
  | .removeFlatpakRemote => do
      let username ← validUser params
      let remote ← validStr validatedSafeArg params "remote"
      .ok (removeFlatpakRemote username remote)
  | .getFlatpakAppInfo => do
      let username ← validUser params
      let appId ← validStr validatedSafeArg params "app_id"
      .ok (getFlatpakAppInfo username appId)
  | .listInstalledFlatpaks => do
      let username ← validUser params
      .ok (listInstalledFlatpaks username)
  | .updateFlatpak => do
      let username ← validUser params
      let appId ← validatedOpt (optNonEmptyStr params "app_id") "app_id"
      .ok (updateFlatpak username appId)
  -- containers
  | .listContainers => do
      let username ← validUser params
      .ok (listContainers username)
  | .createContainer => do
      let username ← validUser params
      let name ← validStr validatedSafeArg params "name"
      let image ← validStr validatedSafeArg params "image"
      .ok (createContainer username name image)
  | .startContainer => do
      let username ← validUser params
      let name ← validStr validatedSafeArg params "name"
      .ok (startContainer username name)
  | .stopContainer => do
      let username ← validUser params
      let name ← validStr validatedSafeArg params "name"
      .ok (stopContainer username name)
  | .removeContainer => do
      let username ← validUser params
      let name ← validStr validatedSafeArg params "name"
      .ok (removeContainer username name)
  | .getContainerInfo => do
      let username ← validUser params
      let name ← validStr validatedSafeArg params "name"
      .ok (getContainerInfo username name)
  -- layering
  | .getLayeredPackages => .ok getLayeredPackages
  | .resetLayeredPackageOverride => .ok resetLayeredPackageOverride
  | .installPackages => do
      let pkgs ← strArrayOrEmpty params "packages"
      let pkgs ← validatedAll "packages" pkgs
      .ok (installPackages pkgs)
  | .removePackages => do
      let pkgs ← strArrayOrEmpty params "packages"
      let pkgs ← validatedAll "packages" pkgs
      .ok (removePackages pkgs)
  | .addLayeredPackage => do
      let package ← validStr validatedSafeArg params "package"
      .ok (addLayeredPackage package)
  | .removeLayeredPackage => do
      let package ← validStr validatedSafeArg params "package"
      .ok (removeLayeredPackage package)
  | .replaceLayeredPackage => do
      let old ← validStr validatedSafeArg params "old"
      let new ← validStr validatedSafeArg params "new"
      .ok (replaceLayeredPackage old new)
  | .removeBasePackage => do
      let package ← validStr validatedSafeArg params "package"
      .ok (removeBasePackage package)
  | .getPendingUpdates => .ok getPendingUpdates
  -- package repositories
  | .listPackageRepositories => .ok listPackageRepositories
  | .addPackageRepository => do
      let repoId ← validatedRepoId params
      let repoUrl ← validatedNoNewline params "repo_url"
      .ok (addPackageRepository repoId repoUrl)
  | .removePackageRepository => do
      let repoId ← validatedRepoId params
      .ok (removePackageRepository repoId)
  | .enablePackageRepository => do
      let repoId ← validatedRepoId params
      .ok (enablePackageRepository repoId)
  | .disablePackageRepository => do
      let repoId ← validatedRepoId params
      .ok (disablePackageRepository repoId)
  -- services
  | .listServices => .ok listServices
  | .startService => do
      let unit ← validStr validatedUnitName params "unit"
      .ok (startService unit)
  | .stopService => do
      let unit ← validStr validatedUnitName params "unit"
      .ok (stopService unit)
  | .restartService => do
      let unit ← validStr validatedUnitName params "unit"
      .ok (restartService unit)
  | .setServiceEnabled => do
      let unit ← validStr validatedUnitName params "unit"
      let enabled ← requireBool params "enabled"
      .ok (setServiceEnabled unit enabled)
  | .maskService => do
      let unit ← validStr validatedUnitName params "unit"
      .ok (maskService unit)
  | .unmaskService => do
      let unit ← validStr validatedUnitName params "unit"
      .ok (unmaskService unit)
  | .getServiceLogs => do
      let unit ← validStr validatedUnitName params "unit"
      .ok (getServiceLogs unit)
  | .getServiceStatus => do
      let unit ← validStr validatedUnitName params "unit"
      .ok (getServiceStatus unit)
  | .reloadService => do
      let unit ← validStr validatedUnitName params "unit"
      .ok (reloadService unit)
  | .listTimers => .ok listTimers
  | .reloadDaemon => .ok reloadDaemon
  -- toolbox
  | .listToolboxes => do
      let username ← validUser params
      .ok (listToolboxes username)
  | .createToolbox => do
      let username ← validUser params
      let name ← validStr validatedSafeArg params "name"
      let image ← validatedOpt (optStr params "image") "image"
      let release ← validatedOpt (optStr params "release") "release"
      .ok (createToolbox username name release image)
  | .removeToolbox => do
      let username ← validUser params
      let name ← validStr validatedSafeArg params "name"
      .ok (removeToolbox username name)
  -- identity
  | .getDateTime => .ok getDatetime
  | .setHostname => do
      let hostname ← validStr validatedHostname params "hostname"
      .ok (setHostname hostname)
  | .setTimezone => do
      let timezone ← validStr validatedTimezone params "timezone"
      .ok (setTimezone timezone)
  | .setLocale => do
      let locale ← validStr validatedLocale params "locale"
      .ok (setLocale locale)
  | .setNtp => do
      let enabled ← requireBool params "enabled"
      .ok (setNtp enabled)
  -- filesystem, processes, system information
  | .getDiskUsage => .ok diskUsageSpec
  | .listProcesses => .ok listProcessesSpec
  | .getMemoryInfo => .ok getMemoryInfoSpec
  -- network
  | .getFirewallState => .ok getFirewallState
  | .getNetworkStatus => .ok getNetworkStatus
  | .configureWifi => do
      let ssid ← validStr validatedSafeArg params "ssid"
      let password ← validatedOpt (optNonEmptyStr params "password") "password"
      .ok (configureWifi ssid password)
  | .setDnsServers => do
      let interface ← validStr validatedSafeArg params "interface"
      let servers ← strArrayOrEmpty params "servers"
      let servers ← validatedAll "servers" servers
      .ok (setDnsServers interface servers)
  | .configureFirewall => do
      let zone ← validStr validatedSafeArg params "zone"
      let service ← validStr validatedSafeArg params "service"
      let enabled ← requireBool params "enabled"
      .ok (configureFirewall zone service enabled)
  -- users
  | .listUsers => .ok listUsers
  | .listGroups => .ok listGroups
  | .createUser => do
      let username ← validUser params
      let shell ← validatedOpt (optStr params "shell") "shell"
      let home ← validatedOpt (optStr params "home") "home"
      .ok (createUser username shell home)
  | .deleteUser => do
      let username ← validUser params
      .ok (deleteUser username)
  | .addUserToGroup => do
      let username ← validUser params
      let group ← validStr validatedGroup params "group"
      .ok (addUserToGroup username group)
  | .removeUserFromGroup => do
      let username ← validUser params
      let group ← validStr validatedGroup params "group"
      .ok (removeUserFromGroup username group)
  -- ssh
  | .getAuthorizedKeys => do
      let username ← validUser params
      .ok (getAuthorizedKeys username)
  | .addAuthorizedKey => do
      let username ← validUser params
      let publicKey ← requireStr params "public_key"
      let publicKey ← validatedPublicKey publicKey
      .ok (addAuthorizedKey username publicKey)
  | .removeAuthorizedKey => do
      let username ← validUser params
      let publicKey ← requireStr params "public_key"
      let publicKey ← validatedPublicKey publicKey
      .ok (removeAuthorizedKey username publicKey)
  -- apt
  | .aptUpdate => .ok aptUpdate
  | .aptUpgrade => .ok aptUpgrade
  | .aptInstall => do
      let package ← validStr validatedSafeArg params "package"
      .ok (aptInstall package)
  | .aptRemove => do
      let package ← validStr validatedSafeArg params "package"
      .ok (aptRemove package)
  | .aptPurge => do
      let package ← validStr validatedSafeArg params "package"
      .ok (aptPurge package)
  | .aptAutoremove => .ok aptAutoremove
  | .aptHold => do
      let package ← validStr validatedSafeArg params "package"
      .ok (aptHold package)
  | .aptUnhold => do
      let package ← validStr validatedSafeArg params "package"
      .ok (aptUnhold package)
  | .aptSearch => do
      let term ← validStr validatedSafeArg params "term"
      .ok (aptSearch term)
  | .aptListInstalled => .ok aptListInstalled
  | .aptShow => do
      let package ← validStr validatedSafeArg params "package"
      .ok (aptShow package)
  | .aptListUpgradable => .ok aptListUpgradable
  | .aptHistoryList => .ok aptHistoryList
  -- ppa
  | .addPpa => do
      let name ← validStr validatedPpaName params "name"
      .ok (addPpa name)
  | .removePpa => do
      let name ← validStr validatedPpaName params "name"
      .ok (removePpa name)
  -- snap
  | .snapInstall => do
      let name ← validStr validatedSafeArg params "name"
      let channel ← validatedOpt (optNonEmptyStr params "channel") "channel"
      .ok (snapInstall name channel (((params.get "auto_update").bind Json.asBool).getD false))
  | .snapRemove => do
      let name ← validStr validatedSafeArg params "name"
      .ok (snapRemove name)
  | .snapRefresh => do
      let name ← validatedOpt (optNonEmptyStr params "name") "name"
      .ok (snapRefresh name)
  | .snapHold => do
      let name ← validStr validatedSafeArg params "name"
      .ok (snapHold name)
  | .snapUnhold => do
      let name ← validStr validatedSafeArg params "name"
      .ok (snapUnhold name)
  | .snapList => .ok snapList
  | .snapInfo => do
      let name ← validStr validatedSafeArg params "name"
      .ok (snapInfo name)
  | .snapRevert => do
      let name ← validStr validatedSafeArg params "name"
      .ok (snapRevert name)
  | .snapClassicInstall => do
      let name ← validStr validatedSafeArg params "name"
      .ok (snapClassicInstall name)
  -- grub and reboot
  | .grubGetKargs => .ok grubGetKargs
  | .grubSetKargs => do
      let append := strItemsOrEmpty params "append"
      let delete := strItemsOrEmpty params "delete"
      let _ ← validatedAll "append" append
      let _ ← validatedAll "delete" delete
      match grubSetKargs append delete with
      | some spec => .ok spec
      | none => .error (.missingParam "append or delete")
  | .checkPendingReboot => .ok checkPendingReboot
  -- ufw
  | .ufwEnable => .ok ufwEnable
  | .ufwDisable => .ok ufwDisable
  | .ufwAllow => do
      let portOrService ← validStr validatedPortOrService params "port_or_service"
      .ok (ufwAllow portOrService)
  | .ufwDeny => do
      let portOrService ← validStr validatedPortOrService params "port_or_service"
      .ok (ufwDeny portOrService)
  | .ufwReset => .ok ufwReset
  | .ufwStatus => .ok ufwStatus
  -- distrobox
  | .distroboxList => .ok distroboxList
  | .distroboxCreate => do
      let name ← validStr validatedSafeArg params "name"
      let image ← validStr validatedSafeArg params "image"
      .ok (distroboxCreate name image)
  | .distroboxRemove => do
      let name ← validStr validatedSafeArg params "name"
      .ok (distroboxRemove name)
  -- netplan
  | .netplanGetConfig => .ok netplanGetConfig
  | .netplanApply => .ok netplanApply
  | .netplanSet => do
      let key ← validStr validatedSafeArg params "key"
      let value ← validStr validatedSafeArg params "value"
      .ok (netplanSet key value)
  | .netplanGenerate => .ok netplanGenerate
  -- ufw, third tier
  | .ufwDeleteRule => do
      let ruleNumber ← requirePositiveU32 params "rule_number"
      match ufwDeleteRule ruleNumber with
      | some spec => .ok spec
      | none => .error (.invalidParam "rule_number")
  | .ufwLimit => do
      let target ← validStr validatedPortOrService params "target"
      .ok (ufwLimit target)
  -- subscriptions, virtual machines, release upgrade
  | .proStatus => .ok proStatus
  | .proAttach => do
      let token ← validStr validatedSafeArg params "token"
      .ok (proAttach token)
  | .proDetach => .ok proDetach
  | .livepatchStatus => .ok livepatchStatus
  | .multipassList => .ok multipassList
  | .ubuntuReleaseUpgrade => .ok ubuntuReleaseUpgrade
  -- resolvectl
  | .resolvectlStatus => .ok resolvectlStatus
  | .resolvectlSetDns => do
      let interface ← validStr validatedSafeArg params "interface"
      let rawServers := strItemsOrEmpty params "servers"
      if rawServers.isEmpty then .error (.missingParam "servers")
      else do
        let servers ← parsedServers rawServers
        .ok (resolvectlSetDns interface servers)
  -- apparmor and cloud-init
  | .appArmorStatus => .ok apparmorStatus
  | .appArmorEnforce => do
      let profilePath ← validStr validatedApparmorProfile params "profile_path"
      .ok (apparmorEnforce profilePath)
  | .appArmorComplain => do
      let profilePath ← validStr validatedApparmorProfile params "profile_path"
      .ok (apparmorComplain profilePath)
  | .cloudInitStatus => .ok cloudInitStatus
  -- flatpak on Ubuntu
  | .ubuntuInstallFlatpak => do
      let username ← validUser params
      let appId ← validStr validatedSafeArg params "app_id"
      let remote ← validStr validatedSafeArg params "remote"
      .ok (ubuntuInstallFlatpak username appId remote)
  | .ubuntuRemoveFlatpak => do
      let username ← validUser params
      let appId ← validStr validatedSafeArg params "app_id"
      .ok (ubuntuRemoveFlatpak username appId)
  | .ubuntuUpdateFlatpak => do
      let username ← validUser params
      let appId ← validatedOpt (optNonEmptyStr params "app_id") "app_id"
      .ok (ubuntuUpdateFlatpak username appId)
  | .ubuntuListFlatpaks => do
      let username ← validUser params
      .ok (ubuntuListFlatpaks username)
  -- fail2ban
  | .fail2banStatus => do
      let jail ← validatedOpt (optNonEmptyStr params "jail") "jail"
      .ok (fail2banStatus jail)
  | .fail2banBanIp => do
      let jail ← validStr validatedSafeArg params "jail"
      let ip ← requireStr params "ip"
      fail2banResult (fail2banBanIp jail ip)
  | .fail2banUnbanIp => do
      let jail ← validStr validatedSafeArg params "jail"
      let ip ← requireStr params "ip"
      fail2banResult (fail2banUnbanIp jail ip)
  -- the executor has no arm for it
  | .listJobHistory => .error (.unknownAction "ListJobHistory")

/-- `build_action_spec`. -/
def buildActionSpec (actionName : String) (params : Json) : Except ExecutorError ActionSpec :=
  match ActionName.ofText actionName with
  | some action => specFor action params
  | none => .error (.unknownAction actionName)

/-- The arms of `rollback_spec_for`: the layered-deployment actions, and nothing else. -/
def rollbackFor : ActionName → Option ActionSpec
  | .updateSystem | .installPackages | .removePackages | .rebaseSystem | .setKernelArguments
  | .addLayeredPackage | .removeLayeredPackage | .replaceLayeredPackage
  | .resetLayeredPackageOverride | .removeBasePackage =>
      some ⟨.rollbackDeployment, .command "rpm-ostree" ["rollback"], .high, true, false⟩
  | _ => none

/-- `rollback_spec_for`. -/
def rollbackSpecFor (actionName : String) : Option ActionSpec :=
  match ActionName.ofText actionName with
  | some action => rollbackFor action
  | none => none

end Sysknife
