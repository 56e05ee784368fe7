import Sysknife.Actions.IpAddr
import Sysknife.Actions.Spec
import Sysknife.Actions.Validate

/-!
# Action constructors: the host, its accounts and its network

`identity.rs`, `filesystem.rs`, `processes.rs`, `system_info.rs`, `users.rs`,
`ssh.rs`, `network.rs`, `resolvectl.rs`, `ufw.rs`, `netplan.rs`, `fail2ban.rs`,
`apparmor.rs` and `cloudinit.rs`.
-/

namespace Sysknife.Actions

/-! ## Identity and system information -/

def getDatetime : ActionSpec := ⟨.getDateTime, .command "timedatectl" [], .low, false, false⟩

def setHostname (hostname : String) : ActionSpec :=
  ⟨.setHostname, .command "sudo" ["hostnamectl", "set-hostname", hostname], .medium,
    false, false⟩

def setTimezone (timezone : String) : ActionSpec :=
  ⟨.setTimezone, .command "sudo" ["timedatectl", "set-timezone", timezone], .medium,
    false, false⟩

def setLocale (locale : String) : ActionSpec :=
  ⟨.setLocale, .command "sudo" ["localectl", "set-locale", locale], .medium, false, false⟩

def setNtp (enabled : Bool) : ActionSpec :=
  ⟨.setNtp, .command "sudo" ["timedatectl", "set-ntp", if enabled then "true" else "false"],
    .medium, false, false⟩

def diskUsageSpec : ActionSpec :=
  ⟨.getDiskUsage,
    .command "df" ["-h", "--output=source,fstype,size,used,avail,pcent,target",
      "--exclude-type=composefs", "--exclude-type=tmpfs", "--exclude-type=devtmpfs",
      "--exclude-type=efivarfs"],
    .low, false, false⟩

def listProcessesSpec : ActionSpec :=
  ⟨.listProcesses, .command "ps" ["aux", "--sort=-%mem"], .low, false, false⟩

def getMemoryInfoSpec : ActionSpec :=
  ⟨.getMemoryInfo, .command "free" ["-h"], .low, false, false⟩

def cloudInitStatus : ActionSpec :=
  ⟨.cloudInitStatus, .command "cloud-init" ["status", "--long"], .low, false, false⟩

/-! ## Accounts -/

def listUsers : ActionSpec := ⟨.listUsers, .command "getent" ["passwd"], .low, false, false⟩

def listGroups : ActionSpec := ⟨.listGroups, .command "getent" ["group"], .low, false, false⟩

def createUser (username : String) (shell home : Option String) : ActionSpec :=
  ⟨.createUser,
    .command "sudo" (["useradd", "--create-home"] ++
      (match home with
        | some home => ["--home-dir", home]
        | none => []) ++
      (match shell with
        | some shell => ["--shell", shell]
        | none => []) ++ [username]),
    .high, false, false⟩

def deleteUser (username : String) : ActionSpec :=
  ⟨.deleteUser, .command "sudo" ["userdel", username], .high, false, false⟩

/-- The start of both group scripts: copy the group entry into `/etc/group` when
it is missing there. -/
def ensureGroup (group : String) : String :=
  "grep -q '^" ++ group ++ ":' /etc/group || getent group '" ++ group ++ "' >> /etc/group; "

def addUserToGroup (username group : String) : ActionSpec :=
  ⟨.addUserToGroup,
    .command "sudo" ["sh", "-c",
      ensureGroup group ++ "usermod --append --groups '" ++ group ++ "' '" ++ username ++ "'"],
    .high, false, false⟩

def removeUserFromGroup (username group : String) : ActionSpec :=
  ⟨.removeUserFromGroup,
    .command "sudo" ["sh", "-c",
      ensureGroup group ++ "gpasswd --delete '" ++ username ++ "' '" ++ group ++ "'"],
    .high, false, false⟩

def keysPath (username : String) : String := "/home/" ++ username ++ "/.ssh/authorized_keys"

def getAuthorizedKeys (username : String) : ActionSpec :=
  ⟨.getAuthorizedKeys, .command "cat" [keysPath username], .low, false, false⟩

def addAuthorizedKey (username publicKey : String) : ActionSpec :=
  ⟨.addAuthorizedKey,
    .command "sudo" ["sh", "-c", "grep -Fxq '" ++ publicKey ++ "' '" ++ keysPath username ++
      "' 2>/dev/null || echo '" ++ publicKey ++ "' >> '" ++ keysPath username ++ "'"],
    .medium, false, false⟩

def removeAuthorizedKey (username publicKey : String) : ActionSpec :=
  ⟨.removeAuthorizedKey,
    .command "sudo" ["sh", "-c",
      "sed -i '\\|^" ++ publicKey ++ "$|d' '" ++ keysPath username ++ "'"],
    .medium, false, false⟩

/-! ## Network -/

def configureWifi (ssid : String) (password : Option String) : ActionSpec :=
  ⟨.configureWifi,
    .command "sudo" (["nmcli", "device", "wifi", "connect", ssid] ++
      (match password with
        | some pw => ["password", pw]
        | none => [])),
    .medium, false, false⟩

def setDnsServers (interface : String) (servers : List String) : ActionSpec :=
  ⟨.setDnsServers, .command "sudo" (["resolvectl", "dns", interface] ++ servers), .high,
    false, false⟩

def configureFirewall (zone service : String) (enabled : Bool) : ActionSpec :=
  ⟨.configureFirewall,
    .command "sudo" ["sh", "-c", "firewall-cmd --permanent --zone='" ++ zone ++ "' --" ++
      (if enabled then "add-service" else "remove-service") ++ "='" ++ service ++
      "' && firewall-cmd --reload"],
    .high, false, false⟩

def getFirewallState : ActionSpec :=
  ⟨.getFirewallState, .command "firewall-cmd" ["--list-all"], .low, false, false⟩

def getNetworkStatus : ActionSpec :=
  ⟨.getNetworkStatus, .command "ip" ["-brief", "addr"], .low, false, false⟩

def resolvectlStatus : ActionSpec :=
  ⟨.resolvectlStatus, .command "resolvectl" ["status"], .low, false, false⟩

def resolvectlSetDns (interface : String) (servers : List IpAddr) : ActionSpec :=
  ⟨.resolvectlSetDns,
    .command "sudo" (["resolvectl", "dns", interface] ++ servers.map IpAddr.display), .medium,
    false, false⟩

/-! ## Firewall -/

def ufwEnable : ActionSpec :=
  ⟨.ufwEnable, .command "sudo" ["ufw", "--force", "enable"], .high, false, false⟩

def ufwDisable : ActionSpec :=
  ⟨.ufwDisable, .command "sudo" ["ufw", "disable"], .high, false, false⟩

def ufwAllow (portOrService : String) : ActionSpec :=
  ⟨.ufwAllow, .command "sudo" ["ufw", "allow", portOrService], .high, false, false⟩

def ufwDeny (portOrService : String) : ActionSpec :=
  ⟨.ufwDeny, .command "sudo" ["ufw", "deny", portOrService], .high, false, false⟩

def ufwReset : ActionSpec :=
  ⟨.ufwReset, .command "sudo" ["ufw", "--force", "reset"], .high, false, false⟩

def ufwStatus : ActionSpec :=
  ⟨.ufwStatus, .command "sudo" ["ufw", "status", "verbose"], .low, false, false⟩

/-- `None` for the rule number zero. -/
def ufwDeleteRule (ruleNumber : UInt32) : Option ActionSpec :=
  if ruleNumber = 0 then none
  else some ⟨.ufwDeleteRule,
    .command "sudo" ["ufw", "--force", "delete", toString ruleNumber.toNat], .high,
    false, false⟩

def ufwLimit (target : String) : ActionSpec :=
  ⟨.ufwLimit, .command "sudo" ["ufw", "limit", target], .high, false, false⟩

/-! ## Netplan -/

def netplanGetConfig : ActionSpec :=
  ⟨.netplanGetConfig,
    .command "find" ["/etc/netplan", "-maxdepth", "1", "-name", "*.yaml", "-print", "-exec",
      "cat", "\x7b\x7d", "+"],
    .low, false, false⟩

def netplanSet (key value : String) : ActionSpec :=
  ⟨.netplanSet, .command "sudo" ["netplan", "set", key ++ "=" ++ value], .high, false, true⟩

def netplanGenerate : ActionSpec :=
  ⟨.netplanGenerate, .command "sudo" ["netplan", "generate"], .medium, false, false⟩

def netplanApply : ActionSpec :=
  ⟨.netplanApply, .command "sudo" ["netplan", "apply"], .high, false, false⟩

/-! ## Intrusion prevention and access control -/

inductive Fail2banError where
  | invalidIpAddress (value : String)
  | invalidJail (value : String)
  deriving DecidableEq, Repr

/-- `jail_is_valid`. -/
def jailIsValid (jail : String) : Bool :=
  !(jail.isEmpty || jail.utf8ByteSize > 64) && !startsWithChar jail '-' &&
    onlyChars ['_', '-', '.'] jail.toList

def fail2banStatus : Option String → ActionSpec
  | some jail =>
      ⟨.fail2banStatus, .command "sudo" ["fail2ban-client", "status", jail], .low, false, false⟩
  | none => ⟨.fail2banStatus, .command "sudo" ["fail2ban-client", "status"], .low, false, false⟩

/-- The checks that banning and unbanning make before they build `spec`. -/
def fail2banChecked (jail ip : String) (spec : ActionSpec) : Except Fail2banError ActionSpec :=
  if !jailIsValid jail then .error (.invalidJail jail)
  else if (IpAddr.fromStr ip).isNone then .error (.invalidIpAddress ip)
  else .ok spec

def fail2banBanIp (jail ip : String) : Except Fail2banError ActionSpec :=
  fail2banChecked jail ip
    ⟨.fail2banBanIp, .command "sudo" ["fail2ban-client", "set", jail, "banip", ip], .high,
      false, false⟩

def fail2banUnbanIp (jail ip : String) : Except Fail2banError ActionSpec :=
  fail2banChecked jail ip
    ⟨.fail2banUnbanIp, .command "sudo" ["fail2ban-client", "set", jail, "unbanip", ip], .medium,
      false, false⟩

def apparmorStatus : ActionSpec :=
  ⟨.appArmorStatus, .command "sudo" ["aa-status"], .low, false, false⟩

def apparmorEnforce (profilePath : String) : ActionSpec :=
  ⟨.appArmorEnforce, .command "sudo" ["aa-enforce", profilePath], .high, false, false⟩

def apparmorComplain (profilePath : String) : ActionSpec :=
  ⟨.appArmorComplain, .command "sudo" ["aa-complain", profilePath], .medium, false, false⟩

end Sysknife.Actions
