import Sysknife.Actions.Spec

/-!
# Action constructors: the operating system and its packages

`deployment.rs`, `layering.rs`, `package_repos.rs`, `grub.rs`, `reboot.rs`,
`release_upgrade.rs`, `apt.rs`, `ppa.rs`, `snap.rs`, `ubuntu_pro.rs` and
`livepatch.rs`. A spec is written as its name, its mechanism, its risk level,
whether it requires a reboot and whether it can be rolled back.
-/

namespace Sysknife.Actions

/-! ## Deployments -/

def getSystemState : ActionSpec :=
  ⟨.getSystemState, .command "rpm-ostree" ["status", "--json"], .low, false, false⟩

def collectDiagnostics : ActionSpec :=
  ⟨.collectDiagnostics, .command "journalctl" ["-b", "-n", "500", "--no-pager"], .low,
    false, false⟩

def getDeploymentHistory : ActionSpec :=
  ⟨.getDeploymentHistory, .command "rpm-ostree" ["status", "--json"], .low, false, false⟩

def listDeployments : ActionSpec :=
  ⟨.listDeployments, .command "rpm-ostree" ["status", "--json"], .low, false, false⟩

def updateSystem : ActionSpec :=
  ⟨.updateSystem, .command "sudo" ["rpm-ostree", "upgrade"], .high, true, true⟩

def pinDeployment (index : UInt32) : ActionSpec :=
  ⟨.pinDeployment, .command "sudo" ["ostree", "admin", "pin", toString index.toNat], .high,
    false, false⟩

def unpinDeployment (index : UInt32) : ActionSpec :=
  ⟨.unpinDeployment,
    .command "sudo" ["ostree", "admin", "pin", "--unpin", toString index.toNat], .high,
    false, false⟩

def rebaseSystem (targetRef : String) : ActionSpec :=
  ⟨.rebaseSystem, .command "sudo" ["rpm-ostree", "rebase", targetRef], .high, true, true⟩

def cleanupDeployments : ActionSpec :=
  ⟨.cleanupDeployments, .command "sudo" ["rpm-ostree", "cleanup", "--rollback", "--pending"],
    .high, false, false⟩

def rebootSystem : ActionSpec :=
  ⟨.rebootSystem, .command "sudo" ["systemctl", "reboot"], .high, true, false⟩

def rollbackDeployment : ActionSpec :=
  ⟨.rollbackDeployment, .command "sudo" ["rpm-ostree", "rollback"], .high, true, false⟩

def getKernelArguments : ActionSpec :=
  ⟨.getKernelArguments, .command "rpm-ostree" ["kargs"], .low, false, false⟩

def setKernelArguments (argsToAdd argsToRemove : List String) : ActionSpec :=
  ⟨.setKernelArguments,
    .command "sudo" (["rpm-ostree", "kargs"] ++ argsToAdd.map (fun a => "--append=" ++ a) ++
      argsToRemove.map (fun a => "--delete=" ++ a)),
    .high, true, true⟩

/-! ## Layered packages -/

def installPackages (packages : List String) : ActionSpec :=
  ⟨.installPackages, .command "sudo" (["rpm-ostree", "install", "--idempotent"] ++ packages),
    .high, true, true⟩

def removePackages (packages : List String) : ActionSpec :=
  ⟨.removePackages, .command "sudo" (["rpm-ostree", "uninstall"] ++ packages), .high,
    true, true⟩

def getLayeredPackages : ActionSpec :=
  ⟨.getLayeredPackages, .command "rpm-ostree" ["status", "--json"], .low, false, false⟩

def addLayeredPackage (package : String) : ActionSpec :=
  ⟨.addLayeredPackage, .command "sudo" ["rpm-ostree", "install", "--idempotent", package],
    .high, true, true⟩

def removeLayeredPackage (package : String) : ActionSpec :=
  ⟨.removeLayeredPackage, .command "sudo" ["rpm-ostree", "uninstall", package], .high,
    true, true⟩

def replaceLayeredPackage (old new : String) : ActionSpec :=
  ⟨.replaceLayeredPackage,
    .command "sudo" ["rpm-ostree", "install", new, "--uninstall", old], .high, true, true⟩

def removeBasePackage (package : String) : ActionSpec :=
  ⟨.removeBasePackage, .command "sudo" ["rpm-ostree", "override", "remove", package], .high,
    true, true⟩

def getPendingUpdates : ActionSpec :=
  ⟨.getPendingUpdates, .command "rpm-ostree" ["upgrade", "--check"], .low, false, false⟩

def resetLayeredPackageOverride : ActionSpec :=
  ⟨.resetLayeredPackageOverride,
    .command "sudo" ["rpm-ostree", "override", "reset", "--all"], .high, true, true⟩

/-! ## Package repositories -/

def repoPath (repoId : String) : String := "/etc/yum.repos.d/" ++ repoId ++ ".repo"

def listPackageRepositories : ActionSpec :=
  ⟨.listPackageRepositories, .fileScan "/etc/yum.repos.d", .low, false, false⟩

def addPackageRepository (repoId repoUrl : String) : ActionSpec :=
  ⟨.addPackageRepository,
    .fileWrite (repoPath repoId) ("[" ++ repoId ++ "]\nbaseurl=" ++ repoUrl ++ "\nenabled=1\n"),
    .high, false, false⟩

def removePackageRepository (repoId : String) : ActionSpec :=
  ⟨.removePackageRepository, .fileDelete (repoPath repoId), .medium, false, false⟩

def enablePackageRepository (repoId : String) : ActionSpec :=
  ⟨.enablePackageRepository, .filePatch (repoPath repoId) "enabled=0" "enabled=1", .medium,
    false, false⟩

def disablePackageRepository (repoId : String) : ActionSpec :=
  ⟨.disablePackageRepository, .filePatch (repoPath repoId) "enabled=1" "enabled=0", .medium,
    false, false⟩

/-! ## Boot configuration -/

/-- `GRUB_KARGS_HELPER`. -/
def grubKargsHelper : String := "/usr/lib/sysknife/grub-kargs-edit"

def grubGetKargs : ActionSpec :=
  ⟨.grubGetKargs, .command "grep" ["-E", "^GRUB_CMDLINE_LINUX", "/etc/default/grub"], .low,
    false, false⟩

/-- `None` is `KargsError::BothEmpty`. -/
def grubSetKargs (append delete : List String) : Option ActionSpec :=
  if append.isEmpty && delete.isEmpty then none
  else some ⟨.grubSetKargs,
    .command "sudo" [grubKargsHelper, "--append", ",".intercalate append, "--delete",
      ",".intercalate delete],
    .high, true, true⟩

/-- `REBOOT_REQUIRED_FILE`. -/
def rebootRequiredFile : String := "/var/run/reboot-required"

/-- `REBOOT_REQUIRED_PKGS_FILE`. -/
def rebootRequiredPkgsFile : String := "/var/run/reboot-required-pkgs"

def checkPendingReboot : ActionSpec :=
  ⟨.checkPendingReboot,
    .command "bash" ["-c", "if test -f " ++ rebootRequiredFile ++ "; then cat " ++
      rebootRequiredFile ++ "; cat " ++ rebootRequiredPkgsFile ++
      " 2>/dev/null; else echo 'No reboot required.'; fi"],
    .low, false, false⟩

def ubuntuReleaseUpgrade : ActionSpec :=
  ⟨.ubuntuReleaseUpgrade,
    .command "sudo" ["do-release-upgrade", "-f", "DistUpgradeViewNonInteractive"], .high,
    true, false⟩

/-! ## apt -/

/-- The words every `apt-get` call starts with: `env`, the two variables that
keep it from asking, and `APT_GET`. -/
def aptGet (args : List String) : ActionMechanism :=
  .command "sudo" (["env", "DEBIAN_FRONTEND=noninteractive", "NEEDRESTART_MODE=a", "apt-get"] ++
    args)

def aptUpdate : ActionSpec := ⟨.aptUpdate, aptGet ["update"], .low, false, false⟩

def aptUpgrade : ActionSpec :=
  ⟨.aptUpgrade, aptGet ["dist-upgrade", "-y"], .high, false, false⟩

def aptInstall (package : String) : ActionSpec :=
  ⟨.aptInstall, aptGet ["install", "-y", package], .medium, false, false⟩

def aptRemove (package : String) : ActionSpec :=
  ⟨.aptRemove, aptGet ["remove", "-y", package], .medium, false, false⟩

def aptPurge (package : String) : ActionSpec :=
  ⟨.aptPurge, aptGet ["purge", "-y", package], .medium, false, false⟩

def aptAutoremove : ActionSpec :=
  ⟨.aptAutoremove, aptGet ["autoremove", "-y"], .low, false, false⟩

def aptHold (package : String) : ActionSpec :=
  ⟨.aptHold, .command "sudo" ["apt-mark", "hold", package], .medium, false, false⟩

def aptUnhold (package : String) : ActionSpec :=
  ⟨.aptUnhold, .command "sudo" ["apt-mark", "unhold", package], .medium, false, false⟩

def aptSearch (term : String) : ActionSpec :=
  ⟨.aptSearch, .command "apt-cache" ["search", term], .low, false, false⟩

def aptListInstalled : ActionSpec :=
  ⟨.aptListInstalled, .command "dpkg" ["-l"], .low, false, false⟩

def aptShow (package : String) : ActionSpec :=
  ⟨.aptShow, .command "apt-cache" ["show", package], .low, false, false⟩

def aptListUpgradable : ActionSpec :=
  ⟨.aptListUpgradable, .command "bash" ["-c", "apt list --upgradable 2>/dev/null"], .low,
    false, false⟩

def aptHistoryList : ActionSpec :=
  ⟨.aptHistoryList,
    .command "bash" ["-c", "grep -A 4 '^Start-Date' /var/log/apt/history.log | tail -n 80"],
    .low, false, false⟩

/-- `ppa_arg`. -/
def ppaArg (name : String) : String := "ppa:" ++ name

def addPpa (name : String) : ActionSpec :=
  ⟨.addPpa, .command "sudo" ["add-apt-repository", "-y", ppaArg name], .medium, false, true⟩

def removePpa (name : String) : ActionSpec :=
  ⟨.removePpa, .command "sudo" ["add-apt-repository", "-y", "--remove", ppaArg name], .medium,
    false, true⟩

/-! ## snap -/

/-- With `autoUpdate` a plain install, otherwise an install and a hold in one
shell fragment. -/
def snapInstall (name : String) (channel : Option String) (autoUpdate : Bool) : ActionSpec :=
  if autoUpdate then
    ⟨.snapInstall,
      .command "sudo" (["snap", "install"] ++
        (match channel with
          | some ch => ["--channel=" ++ ch]
          | none => []) ++ [name]),
      .medium, false, false⟩
  else
    ⟨.snapInstall,
      .command "sudo" ["sh", "-c", "snap install --channel=" ++ channel.getD "stable" ++ " " ++
        name ++ " && snap refresh --hold " ++ name],
      .medium, false, false⟩

def snapRemove (name : String) : ActionSpec :=
  ⟨.snapRemove, .command "sudo" ["snap", "remove", name], .medium, false, false⟩

def snapRefresh : Option String → ActionSpec
  | some name => ⟨.snapRefresh, .command "sudo" ["snap", "refresh", name], .medium, false, false⟩
  | none => ⟨.snapRefresh, .command "sudo" ["snap", "refresh"], .medium, false, false⟩

def snapHold (name : String) : ActionSpec :=
  ⟨.snapHold, .command "sudo" ["snap", "refresh", "--hold", name], .medium, false, false⟩

def snapUnhold (name : String) : ActionSpec :=
  ⟨.snapUnhold, .command "sudo" ["snap", "refresh", "--unhold", name], .medium, false, false⟩

def snapList : ActionSpec := ⟨.snapList, .command "snap" ["list"], .low, false, false⟩

def snapInfo (name : String) : ActionSpec :=
  ⟨.snapInfo, .command "snap" ["info", name], .low, false, false⟩

def snapRevert (name : String) : ActionSpec :=
  ⟨.snapRevert, .command "sudo" ["snap", "revert", name], .medium, false, false⟩

def snapClassicInstall (name : String) : ActionSpec :=
  ⟨.snapClassicInstall, .command "sudo" ["snap", "install", "--classic", name], .medium,
    false, false⟩

/-! ## Subscriptions -/

def proStatus : ActionSpec := ⟨.proStatus, .command "pro" ["status", "--all"], .low, false, false⟩

def proAttach (token : String) : ActionSpec :=
  ⟨.proAttach, .command "sudo" ["pro", "attach", token], .high, false, true⟩

def proDetach : ActionSpec :=
  ⟨.proDetach, .command "sudo" ["pro", "detach", "--assume-yes"], .high, false, true⟩

def livepatchStatus : ActionSpec :=
  ⟨.livepatchStatus, .command "sudo" ["canonical-livepatch", "status", "--verbose"], .low,
    false, false⟩

end Sysknife.Actions
