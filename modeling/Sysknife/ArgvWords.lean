import Sysknife.ShellScripts

/-!
# The words of a command line

Where the words come from that an accepted request puts on the command line of its
action: `argWords` has them with the parameters of the request. The theorem says which
requests put a parameter there that the program would take for an option.
-/

namespace Sysknife

open Actions Fallible

/-! ## Words -/

inductive ArgWord where
  | fixed (text : String)
  /-- A value of the caller and nothing else. -/
  | value (text : String)
  /-- A word with something of the caller's in it. -/
  | built (text : String)

def ArgWord.text : ArgWord → String
  | .fixed text | .value text | .built text => text

/-- A value that does not begin like an option. -/
def ArgWord.Plain : ArgWord → Prop
  | .value text => startsWithChar text '-' = false
  | _ => True

def AllPlain (words : List ArgWord) : Prop := ∀ word ∈ words, word.Plain

def fixedWords (texts : List String) : List ArgWord := texts.map .fixed

def paramText (params : Json) (key : String) : String := (optStr params key).getD ""

/-- The user name, under either of its keys. -/
def userText (params : Json) : String :=
  (((params.get "username").or (params.get "user")).bind Json.asStr).getD ""

def numberText (params : Json) (key : String) : String :=
  match (params.get key).bind Json.asU64 with
  | some n => toString n
  | none => ""

def arrayTexts (params : Json) (key : String) : List String :=
  match strArrayOrEmpty params key with
  | .ok texts => texts
  | .error _ => []

/-- An address as the parser has read it. -/
def addressText (s : String) : String := ((IpAddr.fromStr s).map IpAddr.display).getD s

section Words
variable (params : Json)

def param (key : String) : ArgWord := .value (paramText params key)

def user : ArgWord := .value (userText params)

/-- The words of an optional parameter behind the ones of its flag. -/
def optWords (flag : List String) : Option String → List ArgWord
  | some s => fixedWords flag ++ [.value s]
  | none => []

/-- `flatpak_as`. -/
def flatpakWords (args : List ArgWord) : List ArgWord :=
  fixedWords ["runuser", "-u"] ++ user params :: fixedWords ["--", "flatpak"] ++ args

/-- The script of a spec in the login shell of the user. -/
def loginWords (spec : ActionSpec) : List ArgWord :=
  fixedWords ["runuser", "-l"] ++ [user params, .fixed "-c", .built (spec.mechanism.script.getD "")]

def shWords (spec : ActionSpec) : List ArgWord :=
  fixedWords ["sh", "-c"] ++ [.built (spec.mechanism.script.getD "")]

def aptWords (args : List ArgWord) : List ArgWord :=
  fixedWords ["env", "DEBIAN_FRONTEND=noninteractive", "NEEDRESTART_MODE=a", "apt-get"] ++ args

def ActionMechanism.args : ActionMechanism → List String
  | .command _ args => args
  | _ => []

/-- The arguments of an action that reads no parameter. -/
def constantArgs (action : ActionName) : List String :=
  match specFor action .null with
  | .ok spec => spec.mechanism.args
  | .error _ => []

/-- The words behind the program, for each action that puts a parameter among them. -/
def argWords : ActionName → List ArgWord
  -- deployments and packages
  | .pinDeployment => fixedWords ["ostree", "admin", "pin"] ++ [.value (numberText params "index")]
  | .unpinDeployment =>
      fixedWords ["ostree", "admin", "pin", "--unpin"] ++ [.value (numberText params "index")]
  | .rebaseSystem => fixedWords ["rpm-ostree", "rebase"] ++ [param params "target_ref"]
  | .setKernelArguments =>
      fixedWords ["rpm-ostree", "kargs"] ++
        (arrayTexts params "add").map (fun a => .built ("--append=" ++ a)) ++
        (arrayTexts params "remove").map fun a => .built ("--delete=" ++ a)
  | .installPackages =>
      fixedWords ["rpm-ostree", "install", "--idempotent"] ++
        (arrayTexts params "packages").map .value
  | .removePackages =>
      fixedWords ["rpm-ostree", "uninstall"] ++ (arrayTexts params "packages").map .value
  | .addLayeredPackage =>
      fixedWords ["rpm-ostree", "install", "--idempotent"] ++ [param params "package"]
  | .removeLayeredPackage => fixedWords ["rpm-ostree", "uninstall"] ++ [param params "package"]
  | .replaceLayeredPackage =>
      fixedWords ["rpm-ostree", "install"] ++
        [param params "new", .fixed "--uninstall", param params "old"]
  | .removeBasePackage =>
      fixedWords ["rpm-ostree", "override", "remove"] ++ [param params "package"]
  | .grubSetKargs =>
      fixedWords [grubKargsHelper, "--append"] ++
        [.value (",".intercalate (strItemsOrEmpty params "append")), .fixed "--delete",
          .value (",".intercalate (strItemsOrEmpty params "delete"))]
  | .aptInstall => aptWords (fixedWords ["install", "-y"] ++ [param params "package"])
  | .aptRemove => aptWords (fixedWords ["remove", "-y"] ++ [param params "package"])
  | .aptPurge => aptWords (fixedWords ["purge", "-y"] ++ [param params "package"])
  | .aptHold => fixedWords ["apt-mark", "hold"] ++ [param params "package"]
  | .aptUnhold => fixedWords ["apt-mark", "unhold"] ++ [param params "package"]
  | .aptSearch => fixedWords ["search"] ++ [param params "term"]
  | .aptShow => fixedWords ["show"] ++ [param params "package"]
  | .addPpa =>
      fixedWords ["add-apt-repository", "-y"] ++ [.built (ppaArg (paramText params "name"))]
  | .removePpa =>
      fixedWords ["add-apt-repository", "-y", "--remove"] ++
        [.built (ppaArg (paramText params "name"))]
  | .snapInstall =>
      if ((params.get "auto_update").bind Json.asBool).getD false then
        fixedWords ["snap", "install"] ++
          ((optNonEmptyStr params "channel").toList.map fun ch => .built ("--channel=" ++ ch)) ++
          [param params "name"]
      else shWords (snapInstall (paramText params "name") (optNonEmptyStr params "channel") false)
  | .snapRemove => fixedWords ["snap", "remove"] ++ [param params "name"]
  | .snapRefresh => fixedWords ["snap", "refresh"] ++ optWords [] (optNonEmptyStr params "name")
  | .snapHold => fixedWords ["snap", "refresh", "--hold"] ++ [param params "name"]
  | .snapUnhold => fixedWords ["snap", "refresh", "--unhold"] ++ [param params "name"]
  | .snapInfo => fixedWords ["info"] ++ [param params "name"]
  | .snapRevert => fixedWords ["snap", "revert"] ++ [param params "name"]
  | .snapClassicInstall => fixedWords ["snap", "install", "--classic"] ++ [param params "name"]
  | .proAttach => fixedWords ["pro", "attach"] ++ [param params "token"]
  -- services
  | .startService => fixedWords ["systemctl", "start"] ++ [param params "unit"]
  | .stopService => fixedWords ["systemctl", "stop"] ++ [param params "unit"]
  | .restartService => fixedWords ["systemctl", "restart"] ++ [param params "unit"]
  | .setServiceEnabled =>
      fixedWords ["systemctl", if isEnabled params then "enable" else "disable"] ++
        [param params "unit"]
  | .maskService => fixedWords ["systemctl", "mask"] ++ [param params "unit"]
  | .unmaskService => fixedWords ["systemctl", "unmask"] ++ [param params "unit"]
  | .getServiceLogs =>
      fixedWords ["-u"] ++ param params "unit" :: fixedWords ["-n", "200", "--no-pager"]
  | .getServiceStatus => fixedWords ["status"] ++ param params "unit" :: fixedWords ["--no-pager"]
  | .reloadService => fixedWords ["systemctl", "reload"] ++ [param params "unit"]
  -- applications and containers
  | .listFlatpakRemotes =>
      flatpakWords params (fixedWords ["remotes", "--user", "--columns=name,url"])
  | .installFlatpak =>
      flatpakWords params (fixedWords ["install", "--user", "-y"] ++
        [.value ((optStr params "remote").getD "flathub"), param params "app_id"])
  | .removeFlatpak | .ubuntuRemoveFlatpak =>
      flatpakWords params (fixedWords ["uninstall", "--user", "-y"] ++ [param params "app_id"])
  | .searchFlatpakApps => fixedWords ["search"] ++ [param params "term"]
  | .addFlatpakRemote =>
      flatpakWords params (fixedWords ["remote-add", "--user", "--if-not-exists"] ++
        [param params "remote", param params "url"])
  | .removeFlatpakRemote =>
      flatpakWords params (fixedWords ["remote-delete", "--user"] ++ [param params "remote"])
  | .getFlatpakAppInfo =>
      flatpakWords params (fixedWords ["info", "--user"] ++ [param params "app_id"])
  | .listInstalledFlatpaks | .ubuntuListFlatpaks =>
      flatpakWords params
        (fixedWords ["list", "--user", "--app", "--columns=application,name,version,origin"])
  | .updateFlatpak | .ubuntuUpdateFlatpak =>
      flatpakWords params
        (fixedWords ["update", "--user", "-y"] ++ optWords [] (optNonEmptyStr params "app_id"))
  | .ubuntuInstallFlatpak =>
      flatpakWords params (fixedWords ["install", "--user", "-y"] ++
        [param params "remote", param params "app_id"])
  | .listContainers => loginWords params (listContainers (userText params))
  | .createContainer =>
      loginWords params (createContainer (userText params) (paramText params "name")
        (paramText params "image"))
  | .startContainer =>
      loginWords params (startContainer (userText params) (paramText params "name"))
  | .stopContainer =>
      loginWords params (stopContainer (userText params) (paramText params "name"))
  | .removeContainer =>
      loginWords params (removeContainer (userText params) (paramText params "name"))
  | .getContainerInfo =>
      loginWords params (getContainerInfo (userText params) (paramText params "name"))
  | .listToolboxes => loginWords params (listToolboxes (userText params))
  | .createToolbox =>
      loginWords params (createToolbox (userText params) (paramText params "name")
        (optStr params "release") (optStr params "image"))
  | .removeToolbox =>
      loginWords params (removeToolbox (userText params) (paramText params "name"))
  | .distroboxCreate =>
      fixedWords ["create", "--yes", "--name"] ++
        [param params "name", .fixed "--image", param params "image"]
  | .distroboxRemove => fixedWords ["rm", "--force"] ++ [param params "name"]
  -- the host and its accounts
  | .setHostname => fixedWords ["hostnamectl", "set-hostname"] ++ [param params "hostname"]
  | .setTimezone => fixedWords ["timedatectl", "set-timezone"] ++ [param params "timezone"]
  | .setLocale => fixedWords ["localectl", "set-locale"] ++ [param params "locale"]
  | .setNtp =>
      fixedWords ["timedatectl", "set-ntp"] ++
        [.value (if isEnabled params then "true" else "false")]
  | .createUser =>
      fixedWords ["useradd", "--create-home"] ++ optWords ["--home-dir"] (optStr params "home") ++
        optWords ["--shell"] (optStr params "shell") ++ [user params]
  | .deleteUser => fixedWords ["userdel"] ++ [user params]
  | .addUserToGroup => shWords (addUserToGroup (userText params) (paramText params "group"))
  | .removeUserFromGroup =>
      shWords (removeUserFromGroup (userText params) (paramText params "group"))
  | .getAuthorizedKeys => [.built (keysPath (userText params))]
  | .addAuthorizedKey =>
      shWords (addAuthorizedKey (userText params) (paramText params "public_key"))
  | .removeAuthorizedKey =>
      shWords (removeAuthorizedKey (userText params) (paramText params "public_key"))
  -- network and protection
  | .configureWifi =>
      fixedWords ["nmcli", "device", "wifi", "connect"] ++
        param params "ssid" :: optWords ["password"] (optNonEmptyStr params "password")
  | .setDnsServers =>
      fixedWords ["resolvectl", "dns"] ++
        param params "interface" :: (arrayTexts params "servers").map .value
  | .resolvectlSetDns =>
      fixedWords ["resolvectl", "dns"] ++ param params "interface" ::
        (strItemsOrEmpty params "servers").map fun s => .value (addressText s)
  | .configureFirewall =>
      shWords (configureFirewall (paramText params "zone") (paramText params "service")
        (isEnabled params))
  | .ufwAllow => fixedWords ["ufw", "allow"] ++ [param params "port_or_service"]
  | .ufwDeny => fixedWords ["ufw", "deny"] ++ [param params "port_or_service"]
  | .ufwLimit => fixedWords ["ufw", "limit"] ++ [param params "target"]
  | .ufwDeleteRule =>
      fixedWords ["ufw", "--force", "delete"] ++ [.value (numberText params "rule_number")]
  | .netplanSet =>
      fixedWords ["netplan", "set"] ++
        [.built (paramText params "key" ++ "=" ++ paramText params "value")]
  | .fail2banStatus =>
      fixedWords ["fail2ban-client", "status"] ++ optWords [] (optNonEmptyStr params "jail")
  | .fail2banBanIp =>
      fixedWords ["fail2ban-client", "set"] ++
        [param params "jail", .fixed "banip", param params "ip"]
  | .fail2banUnbanIp =>
      fixedWords ["fail2ban-client", "set"] ++
        [param params "jail", .fixed "unbanip", param params "ip"]
  | .appArmorEnforce => fixedWords ["aa-enforce"] ++ [param params "profile_path"]
  | .appArmorComplain => fixedWords ["aa-complain"] ++ [param params "profile_path"]
  | action => fixedWords (constantArgs action)

end Words

/-- The parameter whose validator lets a leading dash through. -/
def dashKey : ActionName → Option String
  | .startService | .stopService | .restartService | .setServiceEnabled | .maskService
  | .unmaskService | .getServiceLogs | .getServiceStatus | .reloadService => some "unit"
  | .setHostname => some "hostname"
  | .setTimezone => some "timezone"
  | .setLocale => some "locale"
  | .appArmorEnforce | .appArmorComplain => some "profile_path"
  | _ => none

/-- The request does not use that gap. -/
def NoLeadingDash (params : Json) (action : ActionName) : Prop :=
  ∀ key, dashKey action = some key → startsWithChar (paramText params key) '-' = false

/-- The arguments of the spec are the words, and a value among them looks like an option only
through the gap. -/
def Worded (action : ActionName) (params : Json) (spec : ActionSpec) : Prop :=
  ∀ program args, spec.mechanism = .command program args →
    args = (argWords params action).map ArgWord.text ∧
      (AllPlain (argWords params action) ↔ NoLeadingDash params action)

/-! ## Values that do not begin with a dash -/

@[simp] theorem plain_value {s : String} :
    (ArgWord.value s).Plain ↔ startsWithChar s '-' = false := Iff.rfl

@[simp] theorem allPlain_nil : AllPlain [] := nofun

@[simp] theorem allPlain_cons {word : ArgWord} {words : List ArgWord} :
    AllPlain (word :: words) ↔ word.Plain ∧ AllPlain words := List.forall_mem_cons

@[simp] theorem allPlain_append {words more : List ArgWord} :
    AllPlain (words ++ more) ↔ AllPlain words ∧ AllPlain more := List.forall_mem_append

theorem allPlain_map {α : Type} {f : α → ArgWord} {values : List α}
    (h : ∀ a ∈ values, (f a).Plain) : AllPlain (values.map f) := List.forall_mem_map.mpr h

theorem allPlain_values {texts : List String} (h : ∀ s ∈ texts, startsWithChar s '-' = false) :
    AllPlain (texts.map .value) := allPlain_map h

@[simp] theorem plain_built (s : String) : (ArgWord.built s).Plain := trivial

@[simp] theorem plain_fixed (s : String) : (ArgWord.fixed s).Plain := trivial

@[simp] theorem allPlain_fixedWords (texts : List String) : AllPlain (fixedWords texts) :=
  allPlain_map fun s _ => plain_fixed s

theorem allPlain_optWords {flag : List String} {value : Option String}
    (h : ∀ s ∈ value, startsWithChar s '-' = false) : AllPlain (optWords flag value) := by
  cases value with
  | none => exact allPlain_nil
  | some s =>
    have hs := h s rfl
    simp [optWords, hs]

theorem fixedWords_text (texts : List String) : (fixedWords texts).map ArgWord.text = texts := by
  induction texts with
  | nil => rfl
  | cons text texts ih => exact congrArg (text :: ·) ih

theorem values_text (texts : List String) : (texts.map ArgWord.value).map ArgWord.text = texts := by
  induction texts with
  | nil => rfl
  | cons text texts ih => exact congrArg (text :: ·) ih

theorem noDash_of_notMem {s : String} (h : '-' ∉ s.toList) : startsWithChar s '-' = false := by
  rw [startsWithChar, beq_eq_false_iff_ne]
  intro hhead
  exact h (List.mem_of_mem_head? hhead)

theorem safeArg_noDash {s : String} (h : safeArgAccepts s = true) :
    startsWithChar s '-' = false := by
  simp only [safeArgAccepts, Bool.and_eq_true, Bool.not_eq_true'] at h
  exact h.1.2

theorem username_noDash {s : String} (h : usernameAccepts s = true) :
    startsWithChar s '-' = false := by
  simp only [usernameAccepts, Bool.and_eq_true, Bool.not_eq_true'] at h
  exact h.1.2

/-- A port is digits, a service begins with a letter. -/
theorem portOrService_noDash {s : String} (h : portOrServiceAccepts s = true) :
    startsWithChar s '-' = false := by
  rw [startsWithChar, beq_eq_false_iff_ne]
  intro hhead
  obtain ⟨rest, hs⟩ : ∃ rest, s.toList = '-' :: rest := List.head?_eq_some_iff.mp hhead
  have hport : ∀ digits, portAccepts ('-' :: digits) = false := by
    intro digits
    simp [portAccepts]
  have htake : ('-' :: rest).takeWhile (· != '/') = '-' :: rest.takeWhile (· != '/') := rfl
  simp only [portOrServiceAccepts, hs, htake, hport] at h
  split at h
  · cases h
  · split at h
    · simp at h
    · split at h
      · cases h
      · simp at h

/-- A list of values that are fine, with commas between them. -/
theorem intercalate_noDash {texts : List String} (h : ∀ s ∈ texts, safeArgAccepts s = true) :
    startsWithChar (",".intercalate texts) '-' = false := by
  cases texts with
  | nil => rfl
  | cons s texts =>
    have hs := h s (List.mem_cons_self ..)
    have hfirst := safeArg_noDash hs
    have hne : s.toList ≠ [] := by
      intro hnil
      have hempty : s = "" := String.toList_inj.mp hnil
      rw [hempty] at hs
      exact absurd hs (by decide)
    obtain ⟨c, rest, hc⟩ := List.exists_cons_of_ne_nil hne
    rw [startsWithChar, hc] at hfirst
    rw [startsWithChar, String.toList_intercalate]
    cases texts with
    | nil => simpa [List.intercalate, hc] using hfirst
    | cons t texts => simpa [List.intercalate, hc] using hfirst

/-! ## Numbers and addresses -/

theorem digitChar_ne_dash (n : Nat) : Nat.digitChar n ≠ '-' := by
  by_cases h : n < 16
  · have hall : ∀ k < 16, Nat.digitChar k ≠ '-' := by decide
    exact hall n h
  · rw [Nat.digitChar_eq_star.mpr (by omega)]
    decide

theorem toDigits_notMem {b : Nat} (hb : 1 < b) (n : Nat) : '-' ∉ Nat.toDigits b n := by
  induction n using Nat.strong_induction_on with
  | _ n ih =>
    by_cases hn : n < b
    · rw [Nat.toDigits_of_lt_base hn, List.mem_singleton]
      exact (digitChar_ne_dash n).symm
    · have hle : b ≤ n := by omega
      rw [Nat.toDigits_of_base_le hb hle, List.mem_append, List.mem_singleton, not_or]
      exact ⟨ih _ (Nat.div_lt_self (by omega) hb), (digitChar_ne_dash _).symm⟩

theorem number_noDash (n : Nat) : startsWithChar (toString n) '-' = false := by
  refine noDash_of_notMem ?_
  rw [Nat.toString_eq_ofList_toDigits, String.toList_ofList]
  exact toDigits_notMem (by decide) n

theorem intercalate_notMem {separator : String} {texts : List String}
    (hseparator : '-' ∉ separator.toList) (h : ∀ s ∈ texts, '-' ∉ s.toList) :
    '-' ∉ (separator.intercalate texts).toList := by
  rw [String.toList_intercalate]
  induction texts with
  | nil => exact List.not_mem_nil
  | cons s texts ih =>
    have hs := h s (List.mem_cons_self ..)
    have hrest := ih fun t ht => h t (List.mem_cons_of_mem _ ht)
    cases texts with
    | nil => simpa [List.intercalate] using hs
    | cons t texts =>
      have hjoin : separator.toList.intercalate ((s :: t :: texts).map String.toList) =
          s.toList ++ (separator.toList ++
            separator.toList.intercalate ((t :: texts).map String.toList)) := by
        simp [List.intercalate]
      rw [hjoin, List.mem_append, List.mem_append, not_or, not_or]
      exact ⟨hs, hseparator, hrest⟩

/-- Digits, dots and colons. -/
theorem display_notMem (addr : IpAddr) : '-' ∉ addr.display.toList := by
  have hoctets : ∀ octets, '-' ∉ (IpAddr.displayOctets octets).toList := by
    intro octets
    refine intercalate_notMem (by decide) fun s hs => ?_
    obtain ⟨octet, -, rfl⟩ := List.mem_map.mp hs
    rw [Nat.toString_eq_ofList_toDigits, String.toList_ofList]
    exact toDigits_notMem (by decide) _
  have hsegments : ∀ segments, '-' ∉ (IpAddr.fmtSubslice segments).toList := by
    intro segments
    refine intercalate_notMem (by decide) fun s hs => ?_
    obtain ⟨segment, -, rfl⟩ := List.mem_map.mp hs
    rw [String.toList_ofList]
    exact toDigits_notMem (by decide) _
  cases addr with
  | v4 octets => exact hoctets octets
  | v6 segments =>
    have hmapped : '-' ∉ "::ffff:".toList := by decide
    have hgap : '-' ∉ "::".toList := by decide
    simp only [IpAddr.display, IpAddr.displaySegments]
    split
    · rw [String.toList_append, List.mem_append, not_or]
      exact ⟨hmapped, hoctets _⟩
    · split
      · rw [String.toList_append, String.toList_append, List.mem_append, List.mem_append, not_or,
          not_or]
        exact ⟨⟨hsegments _, hgap⟩, hsegments _⟩
      · exact hsegments _

/-- A text that is read as an address does not begin with a dash. -/
theorem address_noDash {s : String} (h : (IpAddr.fromStr s).isSome = true) :
    startsWithChar s '-' = false := by
  rw [startsWithChar, beq_eq_false_iff_ne]
  intro hhead
  obtain ⟨rest, hs⟩ : ∃ rest, s.toList = '-' :: rest := List.head?_eq_some_iff.mp hhead
  have hnumber : ∀ radix maxDigits bound allowZeroPrefix, radix = 10 ∨ radix = 16 →
      IpAddr.readNumber radix maxDigits bound allowZeroPrefix ('-' :: rest) = none := by
    intro radix maxDigits bound allowZeroPrefix hradix
    have hdigit : (IpAddr.toDigit radix '-').isSome = false := by
      rcases hradix with rfl | rfl <;> decide
    simp [IpAddr.readNumber, hdigit]
  have hipv4 : IpAddr.readIpv4Addr ('-' :: rest) = none := by
    simp [IpAddr.readIpv4Addr, IpAddr.readOctets, IpAddr.readSeparator, hnumber]
  have hgroups : IpAddr.readGroups 0 8 ('-' :: rest) = ([], false, '-' :: rest) := by
    simp [IpAddr.readGroups, IpAddr.readTrailingIpv4, IpAddr.readSeparator, hipv4, hnumber]
  have hread : IpAddr.readIpAddr ('-' :: rest) = none := by
    simp [IpAddr.readIpAddr, hipv4, IpAddr.readIpv6Addr, hgroups, IpAddr.readGivenChar]
  simp [IpAddr.fromStr, hs, hread] at h

theorem addressText_noDash {s : String} (h : (IpAddr.fromStr s).isSome = true) :
    startsWithChar (addressText s) '-' = false := by
  obtain ⟨addr, haddr⟩ := Option.isSome_iff_exists.mp h
  rw [addressText, haddr]
  exact noDash_of_notMem (display_notMem addr)

/-! ## What a validated parameter gives -/

section Rules
variable {params : Json} {key : String} {β : Type} {Q : β → Prop}

theorem optStr_of_requireStr {s : String} (h : requireStr params key = .ok s) :
    optStr params key = some s := by
  unfold requireStr at h
  unfold optStr
  cases hget : params.get key with
  | none =>
    rw [hget] at h
    cases h
  | some v =>
    rw [hget] at h
    cases hv : v.asStr with
    | none =>
      simp only [hv] at h
      cases h
    | some t =>
      simp only [hv] at h
      cases h
      exact hv

theorem paramText_of_requireStr {s : String} (h : requireStr params key = .ok s) :
    s = paramText params key := by
  rw [paramText, optStr_of_requireStr h]
  rfl

/-- A required parameter is its text, and accepted. -/
theorem ensures_param {accepts : String → Bool} {f : String → Except ExecutorError β}
    (h : accepts (paramText params key) = true → Ensures (f (paramText params key)) Q) :
    Ensures (validStr (validated accepts) params key >>= f) Q := by
  refine ensures_bind fun t ht => ?_
  cases hs : requireStr params key with
  | error e =>
    rw [validStr, hs] at ht
    cases ht
  | ok s =>
    rw [validStr, hs] at ht
    obtain ⟨haccepts, rfl⟩ := validated_ok_iff.mp ht
    rw [paramText_of_requireStr hs] at haccepts ⊢
    exact h haccepts

theorem ensures_safe {f : String → Except ExecutorError β}
    (h : startsWithChar (paramText params key) '-' = false →
      Ensures (f (paramText params key)) Q) :
    Ensures (validStr validatedSafeArg params key >>= f) Q :=
  ensures_param fun haccepts => h (safeArg_noDash haccepts)

theorem ensures_require {f : String → Except ExecutorError β}
    (h : Ensures (f (paramText params key)) Q) : Ensures (requireStr params key >>= f) Q := by
  refine ensures_bind fun s hs => ?_
  rw [paramText_of_requireStr hs]
  exact h

theorem ensures_user {f : String → Except ExecutorError β}
    (h : startsWithChar (userText params) '-' = false → Ensures (f (userText params)) Q) :
    Ensures (validUser params >>= f) Q := by
  refine ensures_bind fun s hs => ?_
  obtain ⟨hresolved, haccepts⟩ := validUser_ok hs
  have htext : s = userText params := by
    unfold resolveUsername at hresolved
    unfold userText
    cases hget : (params.get "username").or (params.get "user") with
    | none =>
      rw [hget] at hresolved
      cases hresolved
    | some v =>
      rw [hget] at hresolved
      cases hv : v.asStr with
      | none =>
        simp only [hv] at hresolved
        cases hresolved
      | some t =>
        simp only [hv] at hresolved
        cases hresolved
        simp [hv]
  rw [htext] at haccepts ⊢
  exact h (username_noDash haccepts)

theorem ensures_opt {value : Option String} {f : Option String → Except ExecutorError β}
    (h : (∀ s ∈ value, startsWithChar s '-' = false) → Ensures (f value) Q) :
    Ensures (validatedOpt value key >>= f) Q := by
  refine ensures_bind fun t ht => ?_
  cases value with
  | none =>
    cases ht
    exact h nofun
  | some s =>
    cases hs : validatedSafeArg s key with
    | error e =>
      rw [validatedOpt, hs] at ht
      cases ht
    | ok s' =>
      rw [validatedOpt, hs] at ht
      obtain ⟨haccepts, rfl⟩ := validated_ok_iff.mp hs
      cases ht
      refine h fun u hu => ?_
      rw [← Option.some.inj hu]
      exact safeArg_noDash haccepts

theorem ensures_array {f : List String → Except ExecutorError β}
    (h : Ensures (f (arrayTexts params key)) Q) : Ensures (strArrayOrEmpty params key >>= f) Q := by
  refine ensures_bind fun texts htexts => ?_
  have heq : arrayTexts params key = texts := by rw [arrayTexts, htexts]
  rwa [heq] at h

theorem ensures_all {texts : List String} {f : List String → Except ExecutorError β}
    (h : (∀ s ∈ texts, safeArgAccepts s = true) → Ensures (f texts) Q) :
    Ensures (validatedAll key texts >>= f) Q := by
  refine ensures_bind fun t ht => ?_
  obtain ⟨rfl, hall⟩ := validatedAll_ok ht
  exact h hall

theorem ensures_enabled {f : Bool → Except ExecutorError β}
    (h : Ensures (f (isEnabled params)) Q) :
    Ensures (requireBool params "enabled" >>= f) Q := by
  refine ensures_bind fun enabled henabled => ?_
  rwa [← enabled_ok henabled]

theorem numberText_of_requireU32 {n : UInt32} (h : requireU32 params key = .ok n) :
    toString n.toNat = numberText params key := by
  unfold requireU32 at h
  unfold numberText
  cases hget : params.get key with
  | none =>
    rw [hget] at h
    cases h
  | some v =>
    rw [hget] at h
    cases hv : v.asU64 with
    | none =>
      simp only [hv] at h
      cases h
    | some m =>
      simp only [hv] at h
      split at h
      · next hm =>
        cases h
        have hvalue : (UInt32.ofNat m).toNat = m := UInt32.toNat_ofNat_of_lt' hm
        simp [hv, hvalue]
      · cases h

theorem requireU32_of_positive {n : UInt32} (h : requirePositiveU32 params key = .ok n) :
    requireU32 params key = .ok n := by
  unfold requirePositiveU32 at h
  cases hread : requireU32 params key with
  | error e =>
    rw [hread] at h
    cases h
  | ok m =>
    rw [hread] at h
    have hpositive : (if m = 0 then .error (.invalidParam key) else .ok m) =
        (.ok n : Except ExecutorError UInt32) := h
    split at hpositive
    · cases hpositive
    · exact hpositive

theorem numberText_noDash (params : Json) (key : String) :
    startsWithChar (numberText params key) '-' = false := by
  unfold numberText
  split
  · exact number_noDash _
  · rfl

/-- The servers come back as addresses that print as their words. -/
theorem parsedServers_ok {texts : List String} {addrs : List IpAddr}
    (h : parsedServers texts = .ok addrs) :
    addrs.map IpAddr.display = texts.map addressText ∧
      ∀ s ∈ texts, startsWithChar (addressText s) '-' = false := by
  induction texts generalizing addrs with
  | nil =>
    cases h
    exact ⟨rfl, nofun⟩
  | cons s texts ih =>
    cases hs : IpAddr.fromStr s with
    | none =>
      simp only [parsedServers, hs] at h
      cases h
    | some addr =>
      cases hrest : parsedServers texts with
      | error e =>
        simp only [parsedServers, hs, hrest] at h
        cases h
      | ok rest =>
        simp only [parsedServers, hs, hrest] at h
        cases h
        obtain ⟨hmap, hall⟩ := ih hrest
        have hfirst := addressText_noDash (Option.isSome_iff_exists.mpr ⟨addr, hs⟩)
        refine ⟨?_, List.forall_mem_cons.mpr ⟨hfirst, hall⟩⟩
        rw [List.map_cons, List.map_cons, hmap, addressText, hs]
        rfl

/-- Banning and unbanning go on with an address. -/
theorem ensures_address {jail ip : String} {spec : ActionSpec} {P : ActionSpec → Prop}
    (h : (IpAddr.fromStr ip).isSome = true → P spec) :
    Ensures (fail2banResult (fail2banChecked jail ip spec)) P := by
  unfold fail2banChecked
  refine fun built hbuilt => ?_
  split at hbuilt
  · cases hbuilt
  · split at hbuilt
    · cases hbuilt
    · next haddress =>
      cases hbuilt
      rw [Bool.not_eq_true, Option.isNone_eq_false_iff] at haddress
      exact h haddress

end Rules

/-! ## The arms -/

section Arms
variable {action : ActionName} {params : Json} {spec : ActionSpec}

theorem worded_of_plain (hkey : dashKey action = none)
    (hargs : spec.mechanism.args = (argWords params action).map ArgWord.text)
    (hplain : AllPlain (argWords params action)) : Worded action params spec := by
  intro program args hcommand
  rw [hcommand] at hargs
  refine ⟨hargs, iff_of_true hplain fun key h => ?_⟩
  rw [hkey] at h
  cases h

/-- An arm whose only value is the parameter with the gap. -/
theorem worded_of_gap {key : String} {before : List String} (after : List String)
    (hkey : dashKey action = some key)
    (hwords : argWords params action = fixedWords before ++ param params key :: fixedWords after)
    (hargs : spec.mechanism.args = (argWords params action).map ArgWord.text) :
    Worded action params spec := by
  intro program args hcommand
  rw [hcommand] at hargs
  refine ⟨hargs, ?_⟩
  rw [hwords, NoLeadingDash, hkey]
  simp [param]

theorem worded_of_file (h : ∀ program args, spec.mechanism ≠ .command program args) :
    Worded action params spec := fun program args hcommand => absurd hcommand (h program args)

end Arms

/-! ## The arms with a list or a choice -/

section Choices
variable (params : Json)

theorem setDnsServers_worded :
    Ensures (specFor .setDnsServers params) (Worded .setDnsServers params) := by
  refine ensures_safe fun hinterface => ensures_array (ensures_all fun hall => ?_)
  refine ensures_ok (worded_of_plain rfl ?_ ?_)
  · simp only [argWords.eq_def]
    rw [List.map_append, fixedWords_text, List.map_cons, values_text]
    rfl
  · have hplain := allPlain_values fun s hs => safeArg_noDash (hall s hs)
    simp [argWords.eq_def, param, hinterface, hplain]

theorem resolvectlSetDns_worded :
    Ensures (specFor .resolvectlSetDns params) (Worded .resolvectlSetDns params) := by
  refine ensures_safe fun hinterface => ensures_ite (fun _ => ensures_error) fun hsome => ?_
  refine ensures_bind fun servers hservers => ?_
  obtain ⟨hprinted, hall⟩ := parsedServers_ok hservers
  refine ensures_ok (worded_of_plain rfl ?_ ?_)
  · simp only [argWords.eq_def]
    rw [List.map_append, fixedWords_text, List.map_cons, List.map_map]
    exact congrArg (["resolvectl", "dns"] ++ paramText params "interface" :: ·) hprinted
  · have hplain : AllPlain ((strItemsOrEmpty params "servers").map fun s =>
        .value (addressText s)) := allPlain_map hall
    simp [argWords.eq_def, param, hinterface, hplain]

theorem setKernelArguments_worded :
    Ensures (specFor .setKernelArguments params) (Worded .setKernelArguments params) := by
  refine ensures_array (ensures_array (ensures_bind_any fun _ => ?_))
  refine ensures_ok (worded_of_plain rfl ?_ ?_)
  · simp only [argWords.eq_def]
    rw [List.map_append, List.map_append, fixedWords_text, List.map_map, List.map_map]
    rfl
  · have hadd : AllPlain ((arrayTexts params "add").map fun a => .built ("--append=" ++ a)) :=
      allPlain_map fun a _ => plain_built _
    have hremove : AllPlain ((arrayTexts params "remove").map fun a =>
        .built ("--delete=" ++ a)) := allPlain_map fun a _ => plain_built _
    simp [argWords.eq_def, hadd, hremove]

theorem grubSetKargs_worded :
    Ensures (specFor .grubSetKargs params) (Worded .grubSetKargs params) := by
  refine ensures_all fun happend => ensures_all fun hdelete => ?_
  unfold grubSetKargs
  split
  · next spec hspec =>
    split at hspec
    · cases hspec
    · cases hspec
      refine ensures_ok (worded_of_plain rfl rfl ?_)
      simp [argWords.eq_def, intercalate_noDash happend, intercalate_noDash hdelete]
  · exact ensures_error

theorem snapInstall_worded :
    Ensures (specFor .snapInstall params) (Worded .snapInstall params) := by
  refine ensures_safe fun hname => ensures_opt fun hchannel => ?_
  cases hauto : ((params.get "auto_update").bind Json.asBool).getD false with
  | true =>
    refine ensures_ok (worded_of_plain rfl ?_ ?_)
    · simp only [argWords.eq_def]
      rw [hauto]
      cases optNonEmptyStr params "channel" <;> rfl
    · simp only [argWords.eq_def]
      rw [hauto]
      cases optNonEmptyStr params "channel" <;> simp [param, hname]
  | false =>
    refine ensures_ok (worded_of_plain rfl ?_ ?_)
    · simp only [argWords.eq_def]
      rw [hauto]
      rfl
    · simp only [argWords.eq_def]
      rw [hauto]
      simp [shWords]

theorem ufwDeleteRule_worded :
    Ensures (specFor .ufwDeleteRule params) (Worded .ufwDeleteRule params) := by
  refine ensures_bind fun ruleNumber hnumber => ?_
  have hread := requireU32_of_positive hnumber
  unfold ufwDeleteRule
  split
  · next spec hspec =>
    split at hspec
    · cases hspec
    · cases hspec
      refine ensures_ok (worded_of_plain rfl ?_ ?_)
      · simp only [argWords.eq_def]
        rw [← numberText_of_requireU32 hread]
        rfl
      · simp [argWords.eq_def, numberText_noDash]
  · exact ensures_error

end Choices

theorem specFor_worded (action : ActionName) (params : Json) :
    Ensures (specFor action params) (Worded action params) := by
  cases action
  all_goals dsimp only [specFor]
  -- one parameter
  case rebaseSystem | searchFlatpakApps | addLayeredPackage | removeLayeredPackage
      | removeBasePackage | aptInstall | aptRemove | aptPurge | aptHold | aptUnhold | aptSearch
      | aptShow | snapRemove | snapHold | snapUnhold | snapInfo | snapRevert | snapClassicInstall
      | distroboxRemove | proAttach =>
    refine ensures_safe fun hparam => ensures_ok (worded_of_plain rfl rfl ?_)
    simp [argWords.eq_def, aptWords, param, hparam]
  case ufwAllow | ufwDeny | ufwLimit =>
    refine ensures_param fun haccepts => ensures_ok (worded_of_plain rfl rfl ?_)
    simp [argWords.eq_def, param, portOrService_noDash haccepts]
  case addPpa | removePpa =>
    refine ensures_param fun haccepts => ensures_ok (worded_of_plain rfl rfl ?_)
    simp [argWords.eq_def]
  case pinDeployment | unpinDeployment =>
    refine ensures_bind fun index hindex => ensures_ok (worded_of_plain rfl ?_ ?_)
    · simp only [argWords.eq_def]
      rw [← numberText_of_requireU32 hindex]
      rfl
    · simp [argWords.eq_def, numberText_noDash]
  case startService | stopService | restartService | maskService | unmaskService | reloadService
      | setHostname | setTimezone | setLocale | appArmorEnforce | appArmorComplain =>
    refine ensures_param fun haccepts => ensures_ok ?_
    exact worded_of_gap [] rfl rfl rfl
  case getServiceLogs | getServiceStatus =>
    refine ensures_param fun haccepts => ensures_ok ?_
    exact worded_of_gap _ rfl rfl rfl
  case setServiceEnabled =>
    refine ensures_param fun haccepts => ensures_enabled (ensures_ok ?_)
    exact worded_of_gap [] rfl rfl rfl
  case setNtp =>
    refine ensures_enabled (ensures_ok (worded_of_plain rfl rfl ?_))
    have hflag : startsWithChar (if isEnabled params then "true" else "false") '-' = false := by
      cases isEnabled params <;> rfl
    simp [argWords.eq_def, hflag]
  -- two parameters
  case replaceLayeredPackage | distroboxCreate | netplanSet =>
    refine ensures_safe fun hfirst => ensures_safe fun hsecond => ?_
    refine ensures_ok (worded_of_plain rfl rfl ?_)
    simp [argWords.eq_def, param, hfirst, hsecond]
  case configureFirewall =>
    refine ensures_safe fun hzone => ensures_safe fun hservice => ensures_enabled ?_
    refine ensures_ok (worded_of_plain rfl rfl ?_)
    simp [argWords.eq_def, shWords]
  -- a user and what comes with the user
  case listFlatpakRemotes | listInstalledFlatpaks | ubuntuListFlatpaks | listContainers
      | listToolboxes | deleteUser | getAuthorizedKeys =>
    refine ensures_user fun huser => ensures_ok (worded_of_plain rfl rfl ?_)
    simp [argWords.eq_def, flatpakWords, loginWords, user, huser]
  case removeFlatpak | ubuntuRemoveFlatpak | removeFlatpakRemote | getFlatpakAppInfo
      | startContainer | stopContainer | removeContainer | getContainerInfo | removeToolbox =>
    refine ensures_user fun huser => ensures_safe fun hparam => ?_
    refine ensures_ok (worded_of_plain rfl rfl ?_)
    simp [argWords.eq_def, flatpakWords, loginWords, user, param, huser, hparam]
  case addFlatpakRemote | ubuntuInstallFlatpak | createContainer =>
    refine ensures_user fun huser => ensures_safe fun hfirst => ensures_safe fun hsecond => ?_
    refine ensures_ok (worded_of_plain rfl rfl ?_)
    simp [argWords.eq_def, flatpakWords, loginWords, user, param, huser, hfirst, hsecond]
  case installFlatpak =>
    refine ensures_user fun huser => ensures_safe fun happ => ?_
    refine ensures_bind fun remote hremote => ?_
    obtain ⟨haccepts, rfl⟩ := validated_ok_iff.mp hremote
    refine ensures_ok (worded_of_plain rfl rfl ?_)
    simp [argWords.eq_def, flatpakWords, user, param, huser, happ, safeArg_noDash haccepts]
  case updateFlatpak | ubuntuUpdateFlatpak =>
    refine ensures_user fun huser => ensures_opt fun happ => ?_
    refine ensures_ok (worded_of_plain rfl ?_ ?_)
    · simp only [argWords.eq_def]
      cases optNonEmptyStr params "app_id" <;> rfl
    · simp [argWords.eq_def, flatpakWords, user, huser, allPlain_optWords happ]
  case createToolbox =>
    refine ensures_user fun huser => ensures_safe fun hname => ?_
    refine ensures_opt fun himage => ensures_opt fun hrelease => ?_
    refine ensures_ok (worded_of_plain rfl rfl ?_)
    simp [argWords.eq_def, loginWords, user, huser]
  case createUser =>
    refine ensures_user fun huser => ensures_opt fun hshell => ensures_opt fun hhome => ?_
    refine ensures_ok (worded_of_plain rfl ?_ ?_)
    · simp only [argWords.eq_def]
      cases optStr params "home" <;> cases optStr params "shell" <;> rfl
    · simp [argWords.eq_def, user, huser, allPlain_optWords hshell, allPlain_optWords hhome]
  case addUserToGroup | removeUserFromGroup =>
    refine ensures_user fun huser => ensures_param fun hgroup => ?_
    refine ensures_ok (worded_of_plain rfl rfl ?_)
    simp [argWords.eq_def, shWords]
  case addAuthorizedKey | removeAuthorizedKey =>
    refine ensures_user fun huser => ensures_require ?_
    refine ensures_bind fun publicKey hkey => ?_
    obtain ⟨-, rfl⟩ := validated_ok_iff.mp hkey
    refine ensures_ok (worded_of_plain rfl rfl ?_)
    simp [argWords.eq_def, shWords]
  -- lists
  case installPackages | removePackages =>
    refine ensures_array (ensures_all fun hall => ?_)
    refine ensures_ok (worded_of_plain rfl ?_ ?_)
    · simp only [argWords.eq_def]
      rw [List.map_append, fixedWords_text, values_text]
      rfl
    · have hplain := allPlain_values fun s hs => safeArg_noDash (hall s hs)
      simp [argWords.eq_def, hplain]
  case setDnsServers => exact setDnsServers_worded params
  case resolvectlSetDns => exact resolvectlSetDns_worded params
  case setKernelArguments => exact setKernelArguments_worded params
  case grubSetKargs => exact grubSetKargs_worded params
  -- the arms with a choice
  case snapInstall => exact snapInstall_worded params
  case snapRefresh | fail2banStatus =>
    refine ensures_opt fun hvalue => ensures_ok (worded_of_plain rfl ?_ ?_)
    · simp only [argWords.eq_def]
      cases optNonEmptyStr params _ <;> rfl
    · simp [argWords.eq_def, allPlain_optWords hvalue]
  case configureWifi =>
    refine ensures_safe fun hssid => ensures_opt fun hpassword => ?_
    refine ensures_ok (worded_of_plain rfl ?_ ?_)
    · simp only [argWords.eq_def]
      cases optNonEmptyStr params "password" <;> rfl
    · simp [argWords.eq_def, param, hssid, allPlain_optWords hpassword]
  case ufwDeleteRule => exact ufwDeleteRule_worded params
  case fail2banBanIp | fail2banUnbanIp =>
    refine ensures_safe fun hjail => ensures_require (ensures_address fun haddress => ?_)
    refine worded_of_plain rfl rfl ?_
    simp [argWords.eq_def, param, hjail, address_noDash haddress]
  case listJobHistory => exact ensures_error
  case listPackageRepositories =>
    exact ensures_ok (worded_of_file fun _ _ h => nomatch h)
  case addPackageRepository =>
    refine ensures_bind_any fun _ => ensures_bind_any fun _ => ensures_ok ?_
    exact worded_of_file fun _ _ h => nomatch h
  case removePackageRepository | enablePackageRepository | disablePackageRepository =>
    refine ensures_bind_any fun _ => ensures_ok ?_
    exact worded_of_file fun _ _ h => nomatch h
  -- the actions without a parameter
  all_goals exact ensures_ok (worded_of_plain rfl rfl (allPlain_fixedWords _))

/-- The command line of every accepted request is made of the words, and no value of the
caller among them begins with a dash unless the parameter that is not checked for it does. -/
theorem argv_plain_iff {actionName : String} {params : Json} {spec : ActionSpec}
    {program : String} {args : List String} (hspec : buildActionSpec actionName params = .ok spec)
    (hcommand : spec.mechanism = .command program args) :
    args = (argWords params spec.actionName).map ArgWord.text ∧
      (AllPlain (argWords params spec.actionName) ↔ NoLeadingDash params spec.actionName) := by
  have hwritten := (buildActionSpec_written hspec).1
  unfold buildActionSpec at hspec
  rw [hwritten] at hspec
  exact (specFor_worded spec.actionName params).apply hspec program args hcommand

def hostnameParams : Json := .object [("hostname", .string "web-1")]

theorem argv_plain_hostname :
    ["hostnamectl", "set-hostname", "web-1"] =
        (argWords hostnameParams .setHostname).map ArgWord.text ∧
      (AllPlain (argWords hostnameParams .setHostname) ↔
        NoLeadingDash hostnameParams .setHostname) := by
  have hspec : buildActionSpec "SetHostname" hostnameParams = .ok (setHostname "web-1") := by
    decide +kernel
  exact argv_plain_iff hspec rfl

/-- A unit that `systemctl` reads as an option. -/
def dashUnitParams : Json := .object [("unit", .string "--no-block")]

theorem argv_notPlain :
    ¬ ∀ (actionName : String) (params : Json) (spec : ActionSpec) (program : String)
        (args : List String), buildActionSpec actionName params = .ok spec →
      spec.mechanism = .command program args → AllPlain (argWords params spec.actionName) := by
  intro h
  have hspec : buildActionSpec "StopService" dashUnitParams = .ok (stopService "--no-block") := by
    decide +kernel
  have hplain := h "StopService" dashUnitParams _ _ _ hspec rfl
  have hmem : param dashUnitParams "unit" ∈ argWords dashUnitParams .stopService :=
    List.mem_append_right _ (List.mem_singleton_self _)
  have hunit : startsWithChar (paramText dashUnitParams "unit") '-' = false := hplain _ hmem
  exact absurd hunit (by decide)

end Sysknife
