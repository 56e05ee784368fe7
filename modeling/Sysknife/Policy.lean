import Sysknife.Actions.Spec

/-!
# Authorization policy

The minimum role of every action, the operator's overrides, which can only raise
it, and the freshness check of an approval.
-/

namespace Sysknife

/-- The arms of `min_role_for_action`. -/
def minRoleFor : ActionName → CallerRole
  | .getSystemState | .collectDiagnostics | .getDeploymentHistory | .listDeployments
  | .getKernelArguments | .getPendingUpdates | .listFlatpakRemotes | .searchFlatpakApps
  | .getFlatpakAppInfo | .listInstalledFlatpaks | .listContainers | .getContainerInfo
  | .getLayeredPackages | .listPackageRepositories | .listServices | .getServiceLogs
  | .getServiceStatus | .listTimers | .listToolboxes | .getFirewallState | .getNetworkStatus
  | .getDiskUsage | .getDateTime | .listProcesses | .getMemoryInfo | .getAuthorizedKeys
  | .listUsers | .listGroups | .listJobHistory | .aptUpdate | .aptSearch | .aptListInstalled
  | .aptShow | .aptListUpgradable | .aptHistoryList | .snapList | .snapInfo | .ufwStatus
  | .distroboxList | .netplanGetConfig | .grubGetKargs | .checkPendingReboot | .resolvectlStatus
  | .appArmorStatus | .cloudInitStatus | .ubuntuListFlatpaks | .fail2banStatus | .proStatus
  | .livepatchStatus | .multipassList => .observer
  | .installFlatpak | .removeFlatpak | .updateFlatpak | .addFlatpakRemote | .removeFlatpakRemote
  | .createContainer | .startContainer | .stopContainer | .removeContainer | .startService
  | .stopService | .restartService | .reloadService | .reloadDaemon | .setServiceEnabled
  | .unmaskService | .createToolbox | .removeToolbox | .setHostname | .setTimezone | .setLocale
  | .setNtp | .configureWifi | .removePackageRepository | .enablePackageRepository
  | .disablePackageRepository | .aptAutoremove | .aptInstall | .aptRemove | .aptPurge | .aptHold
  | .aptUnhold | .snapInstall | .snapRemove | .snapRefresh | .snapHold | .snapUnhold
  | .snapRevert | .snapClassicInstall | .distroboxCreate | .distroboxRemove | .addPpa
  | .removePpa | .resolvectlSetDns | .appArmorComplain | .ubuntuInstallFlatpak
  | .ubuntuRemoveFlatpak | .ubuntuUpdateFlatpak | .fail2banUnbanIp | .netplanGenerate => .dev
  | .updateSystem | .pinDeployment | .unpinDeployment | .rebaseSystem | .cleanupDeployments
  | .rebootSystem | .rollbackDeployment | .setKernelArguments | .installPackages
  | .removePackages | .addLayeredPackage | .removeLayeredPackage | .replaceLayeredPackage
  | .resetLayeredPackageOverride | .removeBasePackage | .addUserToGroup | .removeUserFromGroup
  | .deleteUser | .addAuthorizedKey | .removeAuthorizedKey | .createUser | .configureFirewall
  | .maskService | .addPackageRepository | .setDnsServers | .aptUpgrade | .ufwEnable
  | .ufwDisable | .ufwAllow | .ufwDeny | .ufwReset | .netplanApply | .grubSetKargs
  | .appArmorEnforce | .fail2banBanIp | .ufwDeleteRule | .ufwLimit | .netplanSet | .proAttach
  | .proDetach | .ubuntuReleaseUpgrade => .admin

/-- `policy::min_role_for_action`, the compile-time baseline. -/
def minRoleForAction (actionName : String) : Option CallerRole :=
  match ActionName.ofText actionName with
  | some action => some (minRoleFor action)
  | none => none

/-- `role_for_risk_level`. -/
def roleForRiskLevel : RiskLevel → CallerRole
  | .low => .observer
  | .medium => .dev
  | .high => .admin

/-- Unicode `White_Space`. -/
def isWhitespace (c : Char) : Bool :=
  (9 ≤ c.toNat && c.toNat ≤ 13) || (0x2000 ≤ c.toNat && c.toNat ≤ 0x200a) ||
    [0x20, 0x85, 0xa0, 0x1680, 0x2028, 0x2029, 0x202f, 0x205f, 0x3000].contains c.toNat

/-- `str::trim`. -/
def trim (s : List Char) : List Char :=
  ((s.dropWhile isWhitespace).reverse.dropWhile isWhitespace).reverse

/-- `parse_risk_level`. -/
def parseRiskLevel (s : String) : Option RiskLevel :=
  match String.ofList ((trim s.toList).map Char.toLower) with
  | "low" => some .low
  | "medium" => some .medium
  | "high" => some .high
  | _ => none

inductive PolicyValidationError where
  | unknownAction (action : String)
  | invalidRiskLevel (action value : String)
  | cannotLower (action : String) (baseline attempted : CallerRole)
  deriving DecidableEq

/-- `role` is no lower than the baseline of `action`. -/
def Raises (action : String) (role : CallerRole) : Prop :=
  ∃ baseline, minRoleForAction action = some baseline ∧ roleRank baseline ≤ roleRank role

/-- `PolicyTable`: the overrides, the latest one of an action first. -/
structure PolicyTable where
  overrides : List (String × CallerRole)
  raises : ∀ action role, overrides.lookup action = some role → Raises action role

namespace PolicyTable

def empty : PolicyTable := ⟨[], by simp⟩

/-- `overrides.insert(action, role)`. -/
def insert (table : PolicyTable) (action : String) (role : CallerRole)
    (h : Raises action role) : PolicyTable where
  overrides := (action, role) :: table.overrides
  raises := by
    intro other r hlookup
    by_cases hother : other = action
    · subst hother
      simp only [List.lookup_cons_self, Option.some.injEq] at hlookup
      subst hlookup
      exact h
    · have hne : (other == action) = false := by simpa using hother
      rw [List.lookup_cons, hne] at hlookup
      exact table.raises other r hlookup

/-- The loop of `from_overrides`, over the entries in the order of the map. -/
def addOverrides : List (String × String) → PolicyTable →
    Except PolicyValidationError PolicyTable
  | [], table => .ok table
  | (action, levelStr) :: rest, table =>
      match hbaseline : minRoleForAction action with
      | none => .error (.unknownAction action)
      | some baseline =>
        match parseRiskLevel levelStr with
        | none => .error (.invalidRiskLevel action levelStr)
        | some level =>
          let attempted := roleForRiskLevel level
          if hlow : roleRank attempted < roleRank baseline then
            .error (.cannotLower action baseline attempted)
          else
            addOverrides rest
              (table.insert action attempted ⟨baseline, hbaseline, Nat.not_lt.mp hlow⟩)

/-- `from_overrides`. -/
def fromOverrides (raw : List (String × String)) : Except PolicyValidationError PolicyTable :=
  addOverrides raw empty

/-- `PolicyTable::min_role_for_action`. -/
def minRoleForAction (table : PolicyTable) (actionName : String) : Option CallerRole :=
  match Sysknife.minRoleForAction actionName with
  | none => none
  | some baseline => some ((table.overrides.lookup actionName).getD baseline)

/-- `PolicyTable::action_allowed`. -/
def actionAllowed (table : PolicyTable) (caller : CallerRole) (actionName : String) : Bool :=
  match table.minRoleForAction actionName with
  | some required => decide (roleRank caller ≥ roleRank required)
  | none => false

end PolicyTable

/-! ## Approval freshness -/

/-- `ApprovalError::StaleApproval`. -/
structure StaleApproval where
  requestHash : String
  approvalHash : String

def StaleApproval.display (e : StaleApproval) : String :=
  "stale approval: approval_hash=" ++ e.approvalHash ++ " does not match current request_hash=" ++
    e.requestHash ++ " — re-prompt the operator"

/-- `require_fresh_approval`. The comparison runs in constant time over bytes. -/
def requireFreshApproval (requestHash approvalHash : String) : Except StaleApproval Unit :=
  if requestHash = approvalHash then .ok () else .error ⟨requestHash, approvalHash⟩

/-! ## Overrides only raise -/

/-- The `[policy.risk_overrides]` section: a map, in its iteration order. -/
structure RiskOverrides where
  entries : List (String × String)
  unique : (entries.map Prod.fst).Nodup

/-- The role an override asks for. -/
def RiskOverrides.role (raw : RiskOverrides) (actionName : String) : Option CallerRole :=
  ((raw.entries.lookup actionName).bind parseRiskLevel).map roleForRiskLevel

namespace PolicyTable

/-- Every entry of the map is in the table that was built from it. -/
theorem addOverrides_lookup {entries : List (String × String)} {start table : PolicyTable}
    (hunique : (entries.map Prod.fst).Nodup)
    (h : addOverrides entries start = .ok table) (actionName : String) :
    table.overrides.lookup actionName =
      match entries.lookup actionName with
      | some levelStr => (parseRiskLevel levelStr).map roleForRiskLevel
      | none => start.overrides.lookup actionName := by
  induction entries generalizing start with
  | nil =>
    cases h
    rfl
  | cons entry rest ih =>
    obtain ⟨action, levelStr⟩ := entry
    obtain ⟨hfresh, hrest⟩ := List.nodup_cons.mp hunique
    rw [addOverrides] at h
    split at h
    · cases h
    split at h
    · cases h
    next baseline hbaseline _ level hlevel =>
      simp only at h
      split_ifs at h with hlow
      rw [ih hrest h, List.lookup_cons]
      by_cases hname : actionName = action
      · subst hname
        have hnone : rest.lookup actionName = none := by
          rw [List.lookup_eq_none_iff]
          intro p hp
          rw [bne_iff_ne]
          intro rfl
          exact hfresh (List.mem_map.mpr ⟨p, hp, rfl⟩)
        simp [hnone, insert, hlevel]
      · have hne : (actionName == action) = false := by simpa using hname
        simp [hne, insert, List.lookup_cons]

theorem fromOverrides_lookup {raw : RiskOverrides} {table : PolicyTable}
    (h : fromOverrides raw.entries = .ok table) (actionName : String) :
    table.overrides.lookup actionName = raw.role actionName := by
  rw [addOverrides_lookup raw.unique h, RiskOverrides.role]
  cases raw.entries.lookup actionName with
  | none => rfl
  | some levelStr => rfl

end PolicyTable

/-- The rank of the stricter of the baseline and the override. -/
def RiskOverrides.requiredRank (raw : RiskOverrides) (action : ActionName) : Nat :=
  max (roleRank (minRoleFor action)) (((raw.role action.text).map roleRank).getD 0)

/-- The effective role of an action is the stricter of its two roles. -/
theorem minRoleForAction_rank {raw : RiskOverrides} {table : PolicyTable}
    (h : PolicyTable.fromOverrides raw.entries = .ok table) {actionName : String}
    {action : ActionName} (haction : ActionName.ofText actionName = some action) :
    ∃ role, table.minRoleForAction actionName = some role ∧
      roleRank role = raw.requiredRank action := by
  have hname : actionName = action.text := ActionName.ofText_eq_some_iff.mp haction
  have hbaseline : minRoleForAction actionName = some (minRoleFor action) := by
    simp [minRoleForAction, haction]
  have hlookup := PolicyTable.fromOverrides_lookup h actionName
  rw [PolicyTable.minRoleForAction, hbaseline]
  refine ⟨_, rfl, ?_⟩
  rw [RiskOverrides.requiredRank, ← hname, hlookup]
  cases hrole : raw.role actionName with
  | none => simp
  | some role =>
    obtain ⟨baseline, hb, hle⟩ := table.raises actionName role (hlookup.trans hrole)
    rw [hbaseline] at hb
    cases hb
    simp only [Option.getD_some, Option.map_some]
    omega

/-- Whoever is allowed has the required rank, and the action is known. -/
theorem actionAllowed_rank {raw : RiskOverrides} {table : PolicyTable}
    (h : PolicyTable.fromOverrides raw.entries = .ok table) {actionName : String}
    {action : ActionName} (haction : ActionName.ofText actionName = some action)
    {caller : CallerRole} (hallowed : table.actionAllowed caller actionName = true) :
    raw.requiredRank action ≤ roleRank caller := by
  obtain ⟨role, hrole, hrank⟩ := minRoleForAction_rank h haction
  rw [PolicyTable.actionAllowed, hrole] at hallowed
  have hge := of_decide_eq_true hallowed
  omega

end Sysknife
