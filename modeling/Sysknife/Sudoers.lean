import Sysknife.ActionTraits
import Sysknife.Lib.Codec
import Sysknife.Lib.Glob

/-!
# The sudoers fragment

The `NOPASSWD` rules of `packaging/sysknife-sudoers`, how sudo reads one, and
which of the executor's commands they permit. A command word without a slash is
resolved to the listed path that ends in it; a rule without arguments permits
any, a rule with arguments is a pattern for the arguments joined by blanks.
-/

namespace Sysknife

open Actions Codec Fallible

/-- One rule `sysknife ALL=(root) NOPASSWD: directory/command arguments`. -/
structure SudoRule where
  directory : String
  command : String
  arguments : Option String

def SudoRule.path (rule : SudoRule) : String := rule.directory ++ "/" ++ rule.command

/-- The rules in the order of the file. -/
def sudoersFragment : List SudoRule :=
  [⟨"/usr/sbin", "useradd", none⟩,
   ⟨"/usr/sbin", "userdel", none⟩,
   ⟨"/usr/sbin", "usermod", none⟩,
   ⟨"/usr/bin", "gpasswd", none⟩,
   ⟨"/usr/sbin", "groupadd", none⟩,
   ⟨"/usr/sbin", "groupdel", none⟩,
   ⟨"/usr/sbin", "groupmod", none⟩,
   ⟨"/usr/bin", "systemctl", none⟩,
   ⟨"/usr/bin", "hostnamectl", none⟩,
   ⟨"/usr/bin", "timedatectl", none⟩,
   ⟨"/usr/bin", "localectl", none⟩,
   ⟨"/usr/bin", "resolvectl", none⟩,
   ⟨"/usr/bin", "rpm-ostree", none⟩,
   ⟨"/usr/bin", "ostree", none⟩,
   ⟨"/usr/bin", "sh", none⟩,
   ⟨"/usr/bin", "env",
     some "DEBIAN_FRONTEND=noninteractive NEEDRESTART_MODE=a /usr/bin/apt-get *"⟩,
   ⟨"/usr/bin", "apt-mark", none⟩,
   ⟨"/usr/bin", "apt-get", none⟩,
   ⟨"/usr/bin", "add-apt-repository", none⟩,
   ⟨"/usr/bin", "snap", none⟩,
   ⟨"/usr/sbin", "ufw", none⟩,
   ⟨"/usr/sbin", "netplan", none⟩,
   ⟨"/usr/bin", "netplan", none⟩,
   ⟨"/usr/sbin", "aa-status", none⟩,
   ⟨"/usr/sbin", "aa-enforce", none⟩,
   ⟨"/usr/sbin", "aa-complain", none⟩,
   ⟨"/usr/bin", "fail2ban-client", none⟩,
   ⟨"/usr/bin", "pro", none⟩,
   ⟨"/usr/bin", "canonical-livepatch", none⟩,
   ⟨"/usr/bin", "do-release-upgrade", none⟩,
   ⟨"/usr/lib/sysknife", "grub-kargs-edit", some "*"⟩]

def SudoRule.isFor (rule : SudoRule) (word : String) : Bool :=
  word == rule.command || word == rule.path

/-- The arguments as sudo matches them. -/
def argumentString (args : List String) : List Char := joinWith ' ' (args.map String.toList)

def SudoRule.allowsArguments (rule : SudoRule) (args : List String) : Bool :=
  match rule.arguments with
  | none => true
  | some pattern => Glob.accepts (Glob.parse pattern.toList) (argumentString args)

/-- Whether `sudo` with this argument vector is permitted. -/
def permits (rules : List SudoRule) : List String → Bool
  | [] => false
  | word :: args => rules.any fun rule => rule.isFor word && rule.allowsArguments args

/-! ## Words with and without a rule -/

section Rules
variable {rules : List SudoRule} {word : String} {args : List String}

theorem permits_of_unrestricted
    (h : rules.any (fun rule => rule.isFor word && rule.arguments.isNone) = true) :
    permits rules (word :: args) = true := by
  obtain ⟨rule, hmem, hrule⟩ := List.any_eq_true.mp h
  simp only [Bool.and_eq_true, Option.isNone_iff_eq_none] at hrule
  refine List.any_eq_true.mpr ⟨rule, hmem, ?_⟩
  simp [hrule.1, SudoRule.allowsArguments, hrule.2]

theorem permits_of_unlisted (h : rules.all (fun rule => !rule.isFor word) = true) :
    permits rules (word :: args) = false := by
  rw [permits, List.any_eq_false]
  intro rule hmem
  have hnot := List.all_eq_true.mp h rule hmem
  simp_all

end Rules

theorem joinWith_head (sep : Char) (w : List Char) (words : List (List Char)) :
    ∃ t, joinWith sep (w :: words) = w ++ t := by
  cases words with
  | nil => exact ⟨[], by simp [joinWith]⟩
  | cons v words => exact ⟨_, by rw [joinWith]⟩

/-- The literal start of the only pattern for `env`. -/
def envPattern : List Char :=
  "DEBIAN_FRONTEND=noninteractive NEEDRESTART_MODE=a /usr/bin/apt-get ".toList

/-- The joined arguments of an `apt-get` call never start like the pattern. -/
theorem aptGet_not_envPattern {args : List String} {t : List Char}
    (h : argumentString
      ("DEBIAN_FRONTEND=noninteractive" :: "NEEDRESTART_MODE=a" :: "apt-get" :: args) =
        envPattern ++ t) : False := by
  obtain ⟨rest, hrest⟩ := joinWith_head ' ' "apt-get".toList (args.map String.toList)
  unfold argumentString envPattern at h
  rw [List.map_cons, List.map_cons, List.map_cons, joinWith, joinWith, hrest] at h
  simp at h

/-- `apt-get` by its bare name does not match the pattern, which has the full
path. -/
theorem not_permits_aptGet (args : List String) :
    permits sudoersFragment
      (["env", "DEBIAN_FRONTEND=noninteractive", "NEEDRESTART_MODE=a", "apt-get"] ++ args) =
        false := by
  have hparse : Glob.parse
      "DEBIAN_FRONTEND=noninteractive NEEDRESTART_MODE=a /usr/bin/apt-get *".toList =
        envPattern.map .literal ++ [.anySequence] := by
    unfold envPattern
    repeat rw [String.toList_ofList]
    decide +kernel
  have hother : ∀ rule ∈ sudoersFragment, rule.isFor "env" = true →
      rule.arguments =
        some "DEBIAN_FRONTEND=noninteractive NEEDRESTART_MODE=a /usr/bin/apt-get *" := by
    decide +kernel
  simp only [List.cons_append, List.nil_append, permits, List.any_eq_false,
    Bool.and_eq_true, not_and]
  intro rule hmem henv hallows
  simp only [SudoRule.allowsArguments, hother rule hmem henv, hparse] at hallows
  rw [Glob.accepts_literals_iff] at hallows
  obtain ⟨t, ht⟩ := hallows
  exact aptGet_not_envPattern ht.1

theorem permits_grubHelper (args : List String) :
    permits sudoersFragment (grubKargsHelper :: args) = true := by
  have hparse : Glob.parse "*".toList = [.anySequence] := by decide
  refine List.any_eq_true.mpr ⟨⟨"/usr/lib/sysknife", "grub-kargs-edit", some "*"⟩, ?_, ?_⟩
  · simp [sudoersFragment]
  · simp only [SudoRule.allowsArguments, hparse, Glob.accepts_star, Bool.and_true]
    decide +kernel

/-! ## The executor's commands -/

/-- Commands run through `sudo env .. apt-get`, whose rule names another path. -/
def mismatchedPath : List ActionName :=
  [.aptUpdate, .aptUpgrade, .aptInstall, .aptRemove, .aptPurge, .aptAutoremove]

/-- Commands run through `sudo runuser`, which has no rule. -/
def runuserActions : List ActionName :=
  [.listFlatpakRemotes, .installFlatpak, .removeFlatpak, .addFlatpakRemote,
    .removeFlatpakRemote, .getFlatpakAppInfo, .listInstalledFlatpaks, .updateFlatpak,
    .ubuntuInstallFlatpak, .ubuntuRemoveFlatpak, .ubuntuUpdateFlatpak, .ubuntuListFlatpaks,
    .listContainers, .createContainer, .startContainer, .stopContainer, .removeContainer,
    .getContainerInfo, .listToolboxes, .createToolbox, .removeToolbox]

/-- `ConfigureWifi` runs `sudo nmcli`, which has no rule either. -/
def ungranted : List ActionName := mismatchedPath ++ runuserActions ++ [.configureWifi]

/-- The fragment permits the command of `spec` exactly when the action is granted. -/
def GrantedAs (action : ActionName) (spec : ActionSpec) : Prop :=
  ∀ args, spec.mechanism = .command "sudo" args →
    (permits sudoersFragment args = true ↔ action ∉ ungranted)

section Grants
variable {action : ActionName} {spec : ActionSpec}

theorem granted_of_permits {argv : List String} (hmech : spec.mechanism = .command "sudo" argv)
    (hpermits : permits sudoersFragment argv = true) (haction : action ∉ ungranted) :
    GrantedAs action spec := by
  intro args hargs
  obtain ⟨-, rfl⟩ := ActionMechanism.command.inj (hmech.symm.trans hargs)
  exact iff_of_true hpermits haction

theorem granted_of_not_permits {argv : List String}
    (hmech : spec.mechanism = .command "sudo" argv)
    (hpermits : permits sudoersFragment argv = false) (haction : action ∈ ungranted) :
    GrantedAs action spec := by
  intro args hargs
  obtain ⟨-, rfl⟩ := ActionMechanism.command.inj (hmech.symm.trans hargs)
  exact iff_of_false (by simp [hpermits]) (fun hnot => hnot haction)

theorem granted_of_program {program : String} {argv : List String}
    (hmech : spec.mechanism = .command program argv) (hother : program ≠ "sudo") :
    GrantedAs action spec := by
  intro args hargs
  exact absurd (ActionMechanism.command.inj (hmech.symm.trans hargs)).1 hother

/-- File operations do not go through sudo. -/
theorem granted_of_file (hmech : ∀ program argv, spec.mechanism ≠ .command program argv) :
    GrantedAs action spec := by
  intro args hargs
  exact absurd hargs (hmech "sudo" args)

/-- A command whose word has a rule without arguments. -/
theorem granted_unrestricted {word : String} {rest : List String}
    (hmech : spec.mechanism = .command "sudo" (word :: rest))
    (hrule : sudoersFragment.any (fun rule => rule.isFor word && rule.arguments.isNone) = true)
    (haction : action ∉ ungranted) : GrantedAs action spec :=
  granted_of_permits hmech (permits_of_unrestricted hrule) haction

/-- A command whose word has no rule. -/
theorem granted_unlisted {word : String} {rest : List String}
    (hmech : spec.mechanism = .command "sudo" (word :: rest))
    (hrule : sudoersFragment.all (fun rule => !rule.isFor word) = true)
    (haction : action ∈ ungranted) : GrantedAs action spec :=
  granted_of_not_permits hmech (permits_of_unlisted hrule) haction

end Grants

theorem snapInstall_granted (name : String) (channel : Option String) (autoUpdate : Bool) :
    GrantedAs .snapInstall (snapInstall name channel autoUpdate) := by
  cases autoUpdate
  · exact granted_unrestricted rfl (by decide +kernel) (by decide)
  · exact granted_unrestricted rfl (by decide +kernel) (by decide)

theorem snapRefresh_granted (name : Option String) :
    GrantedAs .snapRefresh (snapRefresh name) := by
  cases name
  · exact granted_unrestricted rfl (by decide +kernel) (by decide)
  · exact granted_unrestricted rfl (by decide +kernel) (by decide)

theorem fail2banStatus_granted (jail : Option String) :
    GrantedAs .fail2banStatus (fail2banStatus jail) := by
  cases jail
  · exact granted_unrestricted rfl (by decide +kernel) (by decide)
  · exact granted_unrestricted rfl (by decide +kernel) (by decide)

theorem updateFlatpak_granted (username : String) (appId : Option String) :
    GrantedAs .updateFlatpak (updateFlatpak username appId) ∧
      GrantedAs .ubuntuUpdateFlatpak (ubuntuUpdateFlatpak username appId) := by
  have hrule : sudoersFragment.all (fun rule => !rule.isFor "runuser") = true := by
    decide +kernel
  cases appId
  · exact ⟨granted_unlisted rfl hrule (by decide), granted_unlisted rfl hrule (by decide)⟩
  · exact ⟨granted_unlisted rfl hrule (by decide), granted_unlisted rfl hrule (by decide)⟩

theorem grubSetKargs_granted {append delete : List String} {spec : ActionSpec}
    (h : grubSetKargs append delete = some spec) : GrantedAs .grubSetKargs spec := by
  unfold grubSetKargs at h
  split at h
  · cases h
  · cases h
    exact granted_of_permits rfl (permits_grubHelper _) (by decide)

theorem ufwDeleteRule_granted {ruleNumber : UInt32} {spec : ActionSpec}
    (h : ufwDeleteRule ruleNumber = some spec) : GrantedAs .ufwDeleteRule spec := by
  unfold ufwDeleteRule at h
  split at h
  · cases h
  · cases h
    exact granted_unrestricted rfl (by decide +kernel) (by decide)

theorem specFor_granted (action : ActionName) (params : Json) :
    Ensures (specFor action params) (GrantedAs action) := by
  have hrunuser : sudoersFragment.all (fun rule => !rule.isFor "runuser") = true := by
    decide +kernel
  have hnmcli : sudoersFragment.all (fun rule => !rule.isFor "nmcli") = true := by
    decide +kernel
  cases action
  all_goals dsimp only [specFor]
  all_goals repeat refine ensures_bind_any fun _ => ?_
  case snapInstall => exact ensures_ok (snapInstall_granted _ _ _)
  case snapRefresh => exact ensures_ok (snapRefresh_granted _)
  case fail2banStatus => exact ensures_ok (fail2banStatus_granted _)
  case updateFlatpak => exact ensures_ok (updateFlatpak_granted _ _).1
  case ubuntuUpdateFlatpak => exact ensures_ok (updateFlatpak_granted _ _).2
  case listJobHistory => exact ensures_error
  case fail2banBanIp | fail2banUnbanIp =>
    refine fail2banChecked_ensures ?_
    exact granted_unrestricted rfl (by decide +kernel) (by decide)
  case grubSetKargs =>
    split
    · next spec hspec => exact ensures_ok (grubSetKargs_granted hspec)
    · exact ensures_error
  case ufwDeleteRule =>
    split
    · next spec hspec => exact ensures_ok (ufwDeleteRule_granted hspec)
    · exact ensures_error
  case resolvectlSetDns =>
    refine ensures_ite (fun _ => ensures_error) fun _ => ?_
    refine ensures_bind_any fun _ => ensures_ok ?_
    exact granted_unrestricted rfl (by decide +kernel) (by decide)
  case aptUpdate | aptUpgrade | aptInstall | aptRemove | aptPurge | aptAutoremove =>
    exact ensures_ok (granted_of_not_permits rfl (not_permits_aptGet _) (by decide))
  case configureWifi => exact ensures_ok (granted_unlisted rfl hnmcli (by decide))
  case listFlatpakRemotes | installFlatpak | removeFlatpak | addFlatpakRemote
      | removeFlatpakRemote | getFlatpakAppInfo | listInstalledFlatpaks | ubuntuInstallFlatpak
      | ubuntuRemoveFlatpak | ubuntuListFlatpaks | listContainers | createContainer
      | startContainer | stopContainer | removeContainer | getContainerInfo | listToolboxes
      | createToolbox | removeToolbox =>
    exact ensures_ok (granted_unlisted rfl hrunuser (by decide))
  case listPackageRepositories | addPackageRepository | removePackageRepository
      | enablePackageRepository | disablePackageRepository =>
    exact ensures_ok (granted_of_file fun _ _ h => nomatch h)
  -- what is left does not use sudo, or its command has a rule of its own
  all_goals
    first
      | exact ensures_ok (granted_of_program rfl (by decide))
      | exact ensures_ok (granted_unrestricted rfl (by decide +kernel) (by decide))

/-- Every command run through sudo is permitted, except those of the listed
actions. -/
theorem sudo_permits_iff (actionName : String) (params : Json) (spec : ActionSpec)
    (args : List String) (hspec : buildActionSpec actionName params = .ok spec)
    (hsudo : spec.mechanism = .command "sudo" args) :
    permits sudoersFragment args = true ↔ ∀ action ∈ ungranted, actionName ≠ action.text := by
  unfold buildActionSpec at hspec
  split at hspec
  · next action haction =>
    rw [(specFor_granted action params).apply hspec args hsudo]
    have hname := ActionName.ofText_eq_some_iff.mp haction
    constructor
    · intro hnot other hmem rfl
      rw [ActionName.ofText_text] at haction
      cases haction
      exact hnot hmem
    · intro h hmem
      exact h action hmem hname
  · cases hspec

theorem sudo_permits_updateSystem :
    permits sudoersFragment ["rpm-ostree", "upgrade"] = true ↔
      ∀ action ∈ ungranted, "UpdateSystem" ≠ action.text :=
  sudo_permits_iff "UpdateSystem" .null updateSystem ["rpm-ostree", "upgrade"]
    (by decide +kernel) rfl

/-- Refreshing the package index is not permitted. -/
theorem sudo_refuses_aptUpdate :
    ¬ ∀ (actionName : String) (params : Json) (spec : ActionSpec) (args : List String),
      buildActionSpec actionName params = .ok spec → spec.mechanism = .command "sudo" args →
      permits sudoersFragment args = true := by
  intro h
  have hspec : buildActionSpec "AptUpdate" .null = .ok aptUpdate := by decide +kernel
  have hpermits := h "AptUpdate" .null aptUpdate _ hspec rfl
  rw [not_permits_aptGet ["update"]] at hpermits
  cases hpermits

end Sysknife
