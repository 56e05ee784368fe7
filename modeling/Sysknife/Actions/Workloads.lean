import Sysknife.Actions.Spec

/-!
# Action constructors: services, applications and containers

`services.rs`, `flatpak.rs`, `containers.rs`, `toolbox.rs`, `distrobox.rs` and
`multipass.rs`.
-/

namespace Sysknife.Actions

/-! ## Services -/

def listServices : ActionSpec :=
  ⟨.listServices,
    .command "systemctl" ["list-units", "--type=service", "--all", "--no-legend", "--no-pager"],
    .low, false, false⟩

def startService (unit : String) : ActionSpec :=
  ⟨.startService, .command "sudo" ["systemctl", "start", unit], .medium, false, false⟩

def stopService (unit : String) : ActionSpec :=
  ⟨.stopService, .command "sudo" ["systemctl", "stop", unit], .medium, false, false⟩

def restartService (unit : String) : ActionSpec :=
  ⟨.restartService, .command "sudo" ["systemctl", "restart", unit], .medium, false, false⟩

def setServiceEnabled (unit : String) (enabled : Bool) : ActionSpec :=
  ⟨.setServiceEnabled,
    .command "sudo" ["systemctl", if enabled then "enable" else "disable", unit], .medium,
    false, false⟩

def maskService (unit : String) : ActionSpec :=
  ⟨.maskService, .command "sudo" ["systemctl", "mask", unit], .high, false, false⟩

def unmaskService (unit : String) : ActionSpec :=
  ⟨.unmaskService, .command "sudo" ["systemctl", "unmask", unit], .medium, false, false⟩

def getServiceStatus (unit : String) : ActionSpec :=
  ⟨.getServiceStatus, .command "systemctl" ["status", unit, "--no-pager"], .low, false, false⟩

def reloadService (unit : String) : ActionSpec :=
  ⟨.reloadService, .command "sudo" ["systemctl", "reload", unit], .medium, false, false⟩

def listTimers : ActionSpec :=
  ⟨.listTimers, .command "systemctl" ["list-timers", "--all", "--no-legend", "--no-pager"],
    .low, false, false⟩

def reloadDaemon : ActionSpec :=
  ⟨.reloadDaemon, .command "sudo" ["systemctl", "daemon-reload"], .medium, false, false⟩

def getServiceLogs (unit : String) : ActionSpec :=
  ⟨.getServiceLogs, .command "journalctl" ["-u", unit, "-n", "200", "--no-pager"], .low,
    false, false⟩

/-! ## Flatpak -/

/-- `flatpak_as`: run as the target user, with no shell in between. -/
def flatpakAs (username : String) (args : List String) : ActionMechanism :=
  .command "sudo" (["runuser", "-u", username, "--", "flatpak"] ++ args)

def installFlatpak (username appId remote : String) : ActionSpec :=
  ⟨.installFlatpak, flatpakAs username ["install", "--user", "-y", remote, appId], .medium,
    false, false⟩

def removeFlatpak (username appId : String) : ActionSpec :=
  ⟨.removeFlatpak, flatpakAs username ["uninstall", "--user", "-y", appId], .medium,
    false, false⟩

def searchFlatpakApps (term : String) : ActionSpec :=
  ⟨.searchFlatpakApps, .command "flatpak" ["search", term], .low, false, false⟩

def listFlatpakRemotes (username : String) : ActionSpec :=
  ⟨.listFlatpakRemotes, flatpakAs username ["remotes", "--user", "--columns=name,url"], .low,
    false, false⟩

def addFlatpakRemote (username remote url : String) : ActionSpec :=
  ⟨.addFlatpakRemote,
    flatpakAs username ["remote-add", "--user", "--if-not-exists", remote, url], .medium,
    false, false⟩

def removeFlatpakRemote (username remote : String) : ActionSpec :=
  ⟨.removeFlatpakRemote, flatpakAs username ["remote-delete", "--user", remote], .medium,
    false, false⟩

def listInstalledFlatpaks (username : String) : ActionSpec :=
  ⟨.listInstalledFlatpaks,
    flatpakAs username ["list", "--user", "--app", "--columns=application,name,version,origin"],
    .low, false, false⟩

def updateFlatpak (username : String) (appId : Option String) : ActionSpec :=
  ⟨.updateFlatpak,
    match appId with
    | some id => flatpakAs username ["update", "--user", "-y", id]
    | none => flatpakAs username ["update", "--user", "-y"],
    .medium, false, false⟩

def getFlatpakAppInfo (username appId : String) : ActionSpec :=
  ⟨.getFlatpakAppInfo, flatpakAs username ["info", "--user", appId], .low, false, false⟩

def ubuntuInstallFlatpak (username appId remote : String) : ActionSpec :=
  ⟨.ubuntuInstallFlatpak, flatpakAs username ["install", "--user", "-y", remote, appId],
    .medium, false, false⟩

def ubuntuRemoveFlatpak (username appId : String) : ActionSpec :=
  ⟨.ubuntuRemoveFlatpak, flatpakAs username ["uninstall", "--user", "-y", appId], .medium,
    false, false⟩

def ubuntuUpdateFlatpak (username : String) (appId : Option String) : ActionSpec :=
  ⟨.ubuntuUpdateFlatpak,
    match appId with
    | some id => flatpakAs username ["update", "--user", "-y", id]
    | none => flatpakAs username ["update", "--user", "-y"],
    .medium, false, false⟩

def ubuntuListFlatpaks (username : String) : ActionSpec :=
  ⟨.ubuntuListFlatpaks,
    flatpakAs username ["list", "--user", "--app", "--columns=application,name,version,origin"],
    .low, false, false⟩

/-! ## Containers -/

/-- A text between single quotes. -/
def quoted (s : String) : String := "'" ++ s ++ "'"

/-- `podman_as`: a shell string in the login shell of the target user. -/
def podmanAs (username podmanCmd : String) : ActionMechanism :=
  .command "sudo" ["runuser", "-l", username, "-c", podmanCmd]

def listContainers (username : String) : ActionSpec :=
  ⟨.listContainers,
    .command "sudo" ["runuser", "-l", username, "-c", "podman ps --all --format json"], .low,
    false, false⟩

def createContainer (username name image : String) : ActionSpec :=
  ⟨.createContainer,
    podmanAs username ("podman create --name " ++ quoted name ++ " " ++ quoted image), .medium,
    false, false⟩

def startContainer (username name : String) : ActionSpec :=
  ⟨.startContainer, podmanAs username ("podman start " ++ quoted name), .medium, false, false⟩

def stopContainer (username name : String) : ActionSpec :=
  ⟨.stopContainer, podmanAs username ("podman stop " ++ quoted name), .medium, false, false⟩

def removeContainer (username name : String) : ActionSpec :=
  ⟨.removeContainer, podmanAs username ("podman rm " ++ quoted name), .medium, false, false⟩

def getContainerInfo (username name : String) : ActionSpec :=
  ⟨.getContainerInfo, podmanAs username ("podman inspect " ++ quoted name), .low, false, false⟩

/-- `toolbox_as`. -/
def toolboxAs (username toolboxCmd : String) : ActionMechanism :=
  .command "sudo"
    ["runuser", "-l", username, "-c", "XDG_RUNTIME_DIR=/run/user/$(id -u) " ++ toolboxCmd]

def listToolboxes (username : String) : ActionSpec :=
  ⟨.listToolboxes, toolboxAs username "toolbox list", .low, false, false⟩

def createToolbox (username name : String) (release image : Option String) : ActionSpec :=
  ⟨.createToolbox,
    toolboxAs username ("toolbox create --container " ++ quoted name ++
      (match release with
        | some release => " --release " ++ quoted release
        | none => "") ++
      (match image with
        | some image => " --image " ++ quoted image
        | none => "")),
    .medium, false, false⟩

def removeToolbox (username name : String) : ActionSpec :=
  ⟨.removeToolbox, toolboxAs username ("toolbox rm " ++ quoted name), .medium, false, false⟩

def distroboxList : ActionSpec :=
  ⟨.distroboxList, .command "distrobox" ["list"], .low, false, false⟩

def distroboxCreate (name image : String) : ActionSpec :=
  ⟨.distroboxCreate,
    .command "distrobox" ["create", "--yes", "--name", name, "--image", image], .medium,
    false, false⟩

def distroboxRemove (name : String) : ActionSpec :=
  ⟨.distroboxRemove, .command "distrobox" ["rm", "--force", name], .medium, false, false⟩

def multipassList : ActionSpec :=
  ⟨.multipassList, .command "multipass" ["list"], .low, false, false⟩

end Sysknife.Actions
