import Sysknife.ActionTraits
import Sysknife.Dispatcher

/-!
# The planner's query tools

`query_tools` and `query_tool_to_action` of the planning tools: the tools that the
model can read the system with, their input schemas, and the daemon's actions that
they stand for.
-/

namespace Sysknife

open Fallible

/-! ## Tools and schemas -/

inductive PropertyType where
  | string | integer
  deriving DecidableEq, Repr

/-- An object schema with `additionalProperties: false`. -/
structure InputSchema where
  properties : List (String × PropertyType)
  required : List String

structure ToolDefinition where
  name : String
  inputSchema : InputSchema

def emptySchema : InputSchema := ⟨[], []⟩

def queryTools : List ToolDefinition := [
  ⟨"query_services", emptySchema⟩,
  ⟨"query_firewall", emptySchema⟩,
  ⟨"query_deployments", emptySchema⟩,
  ⟨"query_packages", emptySchema⟩,
  ⟨"query_containers", emptySchema⟩,
  ⟨"query_users", emptySchema⟩,
  ⟨"query_logs", ⟨[("unit", .string)], ["unit"]⟩⟩,
  ⟨"query_kernel_args", emptySchema⟩,
  ⟨"query_flatpak_remotes", emptySchema⟩,
  ⟨"query_toolboxes", emptySchema⟩,
  ⟨"query_groups", emptySchema⟩,
  ⟨"query_flatpak_info", ⟨[("app_id", .string)], ["app_id"]⟩⟩,
  ⟨"query_container_info", ⟨[("name", .string)], ["name"]⟩⟩,
  ⟨"query_package_repos", emptySchema⟩,
  ⟨"query_diagnostics", emptySchema⟩,
  ⟨"query_deployment_history", emptySchema⟩,
  ⟨"query_disk_usage", emptySchema⟩,
  ⟨"query_processes", emptySchema⟩,
  ⟨"query_memory", emptySchema⟩,
  ⟨"query_network", emptySchema⟩,
  ⟨"query_authorized_keys", ⟨[("username", .string)], ["username"]⟩⟩,
  ⟨"query_current_user", emptySchema⟩,
  ⟨"query_job_history", ⟨[("limit", .integer), ("status_filter", .string),
    ("action_filter", .string), ("since_hours", .integer)], []⟩⟩]

/-- A value of a type of the schema language, where `isWhole` tells of a number with a
fraction or an exponent whether it is an integer. -/
def PropertyType.accepts (isWhole : FloatText → Bool) : PropertyType → Json → Bool
  | .string, .string _ => true
  | .integer, .number (.float f) => isWhole f
  | .integer, .number _ => true
  | _, _ => false

/-- An input that is valid against a schema. -/
def InputSchema.accepts (isWhole : FloatText → Bool) (schema : InputSchema) : Json → Bool
  | .object fields =>
    fields.all (fun field => match schema.properties.lookup field.1 with
      | some type => type.accepts isWhole field.2
      | none => false) &&
    schema.required.all fun key => (fields.lookup key).isSome
  | _ => false

/-! ## Actions -/

def requireStrParam (input : Json) (key toolName : String) : Except String String :=
  match optNonEmptyStr input key with
  | some s => .ok s
  | none => .error (toolName ++ " requires '" ++ key ++ "' param")

/-- The keys of `keys` that `input` has, with their values. -/
def copiedFields (input : Json) (keys : List String) : List (String × Json) :=
  keys.filterMap fun key => (input.get key).map fun v => (key, v)

def queryToolToAction (toolName : String) (input : Json) :
    Except String (Option (String × Json)) :=
  match toolName with
  | "query_services" => .ok (some ("ListServices", .object []))
  | "query_firewall" => .ok (some ("GetFirewallState", .object []))
  | "query_deployments" => .ok (some ("ListDeployments", .object []))
  | "query_packages" => .ok (some ("GetLayeredPackages", .object []))
  | "query_containers" => .ok (some ("ListContainers", .object []))
  | "query_users" => .ok (some ("ListUsers", .object []))
  | "query_logs" => do
    let unit ← requireStrParam input "unit" toolName
    .ok (some ("GetServiceLogs", .object [("unit", .string unit)]))
  | "query_kernel_args" => .ok (some ("GetKernelArguments", .object []))
  | "query_flatpak_remotes" => .ok (some ("ListFlatpakRemotes", .object []))
  | "query_toolboxes" => .ok (some ("ListToolboxes", .object []))
  | "query_groups" => .ok (some ("ListGroups", .object []))
  | "query_flatpak_info" => do
    let appId ← requireStrParam input "app_id" toolName
    .ok (some ("GetFlatpakAppInfo", .object [("app_id", .string appId)]))
  | "query_container_info" => do
    let name ← requireStrParam input "name" toolName
    .ok (some ("GetContainerInfo", .object [("name", .string name)]))
  | "query_package_repos" => .ok (some ("ListPackageRepositories", .object []))
  | "query_diagnostics" => .ok (some ("CollectDiagnostics", .object []))
  | "query_deployment_history" => .ok (some ("GetDeploymentHistory", .object []))
  | "query_disk_usage" => .ok (some ("GetDiskUsage", .object []))
  | "query_processes" => .ok (some ("ListProcesses", .object []))
  | "query_memory" => .ok (some ("GetMemoryInfo", .object []))
  | "query_network" => .ok (some ("GetNetworkStatus", .object []))
  | "query_authorized_keys" => do
    let username ← requireStrParam input "username" toolName
    .ok (some ("GetAuthorizedKeys", .object [("username", .string username)]))
  | "query_job_history" => .ok (some ("ListJobHistory",
      .object (copiedFields input ["limit", "status_filter", "action_filter", "since_hours"])))
  | _ => .ok none

/-! ## The daemon's side -/

/-- The daemon's validator for the text under a key. Of the filters of the job history the
one for the status has a check, which the store makes; any action name is let pass. -/
def parameterAccepts : String → String → Bool
  | "unit", s => unitNameAccepts s
  | "username", s => usernameAccepts s
  | "app_id", s | "name", s => safeArgAccepts s
  | "status_filter", s => (parseStatusFilter s).isSome
  | _, _ => true

/-- The texts in an input are not empty, and the daemon's validators let them pass. -/
def ValidTexts (input : Json) : Prop :=
  ∀ key s, input.get key = some (.string s) → s ≠ "" ∧ parameterAccepts key s = true

/-- What the job history asks of its parameters: the handler reads the numbers, and the
store the status. -/
structure HistoryAccepted (params : Json) : Prop where
  limit : ∃ limit, historyNumber params "limit" = .ok limit
  sinceHours : ∃ sinceHours, historyNumber params "since_hours" = .ok sinceHours
  status : ∀ status, optStr params "status_filter" = some status →
    (parseStatusFilter status).isSome = true

/-- The daemon's query path takes the request. -/
def QueryAccepted (actionName : String) (params : Json) : Prop :=
  minRoleForAction actionName = some .observer ∧
    if actionName = "ListJobHistory" then HistoryAccepted params
    else ∃ spec, buildActionSpec actionName params = .ok spec

/-- The tool is mapped to a request that the daemon takes. -/
def ToolAccepted (toolName : String) (input : Json) : Prop :=
  ∃ actionName params, queryToolToAction toolName input = .ok (some (actionName, params)) ∧
    QueryAccepted actionName params

/-- The tools of the actions that run as a user whom the tool does not ask for. -/
def userlessTools : List String :=
  ["query_containers", "query_flatpak_remotes", "query_toolboxes", "query_flatpak_info",
    "query_container_info"]

theorem queryAccepted_iff {action : ActionName} (hrole : minRoleFor action = .observer)
    (hne : action.text ≠ "ListJobHistory") (params : Json) :
    QueryAccepted action.text params ↔ ∃ spec, specFor action params = .ok spec := by
  have hmin : minRoleForAction action.text = some .observer := by
    unfold minRoleForAction
    rw [ActionName.ofText_text]
    exact congrArg some hrole
  rw [QueryAccepted, if_neg hne, buildActionSpec_text]
  exact and_iff_right hmin

theorem copiedFields_lookup (input : Json) (keys : List String) (key : String) :
    (copiedFields input keys).lookup key = if key ∈ keys then input.get key else none := by
  induction keys with
  | nil => rfl
  | cons k keys ih =>
    rw [copiedFields, List.filterMap_cons]
    cases hk : input.get k with
    | none =>
      show (copiedFields input keys).lookup key = _
      rw [ih]
      by_cases hkey : key = k
      · rw [hkey, hk]
        simp
      · simp [hkey]
    | some v =>
      show ((k, v) :: copiedFields input keys).lookup key = _
      rw [List.lookup_cons, ih]
      by_cases hkey : key = k
      · rw [hkey, hk]
        simp
      · rw [beq_false_of_ne hkey]
        simp [hkey]

theorem copiedFields_get (input : Json) {keys : List String} {key : String} (h : key ∈ keys) :
    (Json.object (copiedFields input keys)).get key = input.get key :=
  (copiedFields_lookup input keys key).trans (if_pos h)

theorem historyNumber_ok_iff (params : Json) (key : String) :
    (∃ n, historyNumber params key = .ok n) ↔ ∀ v, params.get key = some v → v.asU64 ≠ none := by
  unfold historyNumber
  cases hget : params.get key with
  | none => simp
  | some v => cases hv : v.asU64 <;> simp [hv]

/-! ## The tools one by one -/

/-- What becomes of a tool. -/
inductive Served (tool : ToolDefinition) : Prop
  /-- A request without parameters. -/
  | fixed (hname : tool.name ∉ userlessTools) (hhistory : tool.name ≠ "query_job_history")
      (h : ∀ input, ToolAccepted tool.name input)
  /-- The tool hands a text on. -/
  | text (key : String) (hname : tool.name ∉ userlessTools)
      (hhistory : tool.name ≠ "query_job_history")
      (hschema : tool.inputSchema = ⟨[(key, .string)], [key]⟩)
      (h : ∀ input s, input.get key = some (.string s) → s ≠ "" → parameterAccepts key s = true →
        ToolAccepted tool.name input)
  /-- The request lacks the user. -/
  | userless (hname : tool.name ∈ userlessTools) (h : ∀ input, ¬ ToolAccepted tool.name input)
  | history (hname : tool.name = "query_job_history")

theorem toolAccepted_iff {toolName actionName : String} {input params : Json}
    (h : queryToolToAction toolName input = .ok (some (actionName, params))) :
    ToolAccepted toolName input ↔ QueryAccepted actionName params := by
  constructor
  · rintro ⟨actionName', params', h', haccepted⟩
    rw [h] at h'
    obtain ⟨rfl, rfl⟩ := Prod.mk.inj (Option.some.inj (Except.ok.inj h'))
    exact haccepted
  · exact fun haccepted => ⟨actionName, params, h, haccepted⟩

theorem served_fixed {tool : ToolDefinition} (action : ActionName) (spec : ActionSpec)
    (hmap : ∀ input, queryToolToAction tool.name input = .ok (some (action.text, .object [])))
    (hspec : specFor action (.object []) = .ok spec) (hrole : minRoleFor action = .observer)
    (hne : action.text ≠ "ListJobHistory" := by decide)
    (hname : tool.name ∉ userlessTools := by decide)
    (hhistory : tool.name ≠ "query_job_history" := by decide) : Served tool := by
  refine .fixed hname hhistory fun input => ?_
  rw [toolAccepted_iff (hmap input), queryAccepted_iff hrole hne]
  exact ⟨spec, hspec⟩

theorem requireStrParam_ok {input : Json} {key s toolName : String}
    (h : input.get key = some (.string s)) (hne : s ≠ "") :
    requireStrParam input key toolName = .ok s := by
  have hopt : optNonEmptyStr input key = some s := by
    simp [optNonEmptyStr, optStr, h, Json.asStr, hne]
  rw [requireStrParam, hopt]

theorem served_text {tool : ToolDefinition} (key : String) (action : ActionName)
    (hmap : ∀ input s, requireStrParam input key tool.name = .ok s →
      queryToolToAction tool.name input =
        .ok (some (action.text, .object [(key, .string s)])))
    (hspec : ∀ s, parameterAccepts key s = true →
      ∃ spec, specFor action (.object [(key, .string s)]) = .ok spec)
    (hrole : minRoleFor action = .observer)
    (hschema : tool.inputSchema = ⟨[(key, .string)], [key]⟩)
    (hne : action.text ≠ "ListJobHistory" := by decide)
    (hname : tool.name ∉ userlessTools := by decide)
    (hhistory : tool.name ≠ "query_job_history" := by decide) : Served tool := by
  refine .text key hname hhistory hschema fun input s hget hs haccepts => ?_
  rw [toolAccepted_iff (hmap input s (requireStrParam_ok hget hs)), queryAccepted_iff hrole hne]
  exact hspec s haccepts

/-- The parameters of the tools name no user. -/
theorem validUser_missing {params : Json} (h : params.get "username" = none)
    (h' : params.get "user" = none) : validUser params = .error (.missingParam "username") := by
  unfold validUser resolveUsername
  rw [h, h']
  rfl

theorem served_userless {tool : ToolDefinition} (action : ActionName)
    (hmap : ∀ input actionName params,
      queryToolToAction tool.name input = .ok (some (actionName, params)) →
      actionName = action.text ∧ params.get "username" = none ∧ params.get "user" = none)
    (hspec : ∀ params e, validUser params = .error e → specFor action params = .error e)
    (hrole : minRoleFor action = .observer) (hne : action.text ≠ "ListJobHistory" := by decide)
    (hname : tool.name ∈ userlessTools := by decide) : Served tool := by
  refine .userless hname ?_
  rintro input ⟨actionName, params, hq, haccepted⟩
  obtain ⟨rfl, husername, huser⟩ := hmap input actionName params hq
  rw [queryAccepted_iff hrole hne, hspec params _ (validUser_missing husername huser)] at haccepted
  obtain ⟨spec, hspec'⟩ := haccepted
  cases hspec'

/-- The text tools among them. -/
theorem requireStrParam_mapped {input : Json} {key toolName action actionName : String}
    {params : Json} (hkey : key ≠ "username") (hkey' : key ≠ "user")
    (h : (do
      let s ← requireStrParam input key toolName
      .ok (some (action, .object [(key, .string s)]))) =
        (.ok (some (actionName, params)) : Except String (Option (String × Json)))) :
    actionName = action ∧ params.get "username" = none ∧ params.get "user" = none := by
  cases hs : requireStrParam input key toolName with
  | error e =>
    rw [hs] at h
    cases h
  | ok s =>
    rw [hs] at h
    obtain ⟨rfl, rfl⟩ := Prod.mk.inj (Option.some.inj (Except.ok.inj h))
    simp [Json.get, List.lookup_cons, beq_false_of_ne hkey.symm, beq_false_of_ne hkey'.symm]

/-- A tool that is mapped to an action without parameters. -/
theorem fixed_mapped {action actionName : String} {params : Json}
    (h : (.ok (some (action, .object [])) : Except String (Option (String × Json))) =
      .ok (some (actionName, params))) :
    actionName = action ∧ params.get "username" = none ∧ params.get "user" = none := by
  obtain ⟨rfl, rfl⟩ := Prod.mk.inj (Option.some.inj (Except.ok.inj h))
  exact ⟨rfl, rfl, rfl⟩

theorem specFor_user {m : String → Except ExecutorError ActionSpec} {params : Json}
    {e : ExecutorError} (h : validUser params = .error e) : validUser params >>= m = .error e := by
  rw [h]
  rfl

theorem validStr_single {accepts : String → Bool} {key s : String} (h : accepts s = true) :
    validStr (validated accepts) (.object [(key, .string s)]) key = .ok s := by
  simp [validStr, requireStr, Json.get, Json.asStr, validated, h, bind, Except.bind]

theorem validUser_single {s : String} (h : usernameAccepts s = true) :
    validUser (.object [("username", .string s)]) = .ok s := by
  simp [validUser, resolveUsername, Json.get, Json.asStr, validatedUsername, validated, h, bind,
    Except.bind]

theorem text_mapped {input : Json} {key s toolName : String} (action : String)
    (h : requireStrParam input key toolName = .ok s) :
    (do
      let s ← requireStrParam input key toolName
      .ok (some (action, .object [(key, .string s)]))) =
        (.ok (some (action, .object [(key, .string s)])) :
          Except String (Option (String × Json))) := by
  rw [h]
  rfl

theorem getServiceLogs_accepted {s : String} (h : unitNameAccepts s = true) :
    ∃ spec, specFor .getServiceLogs (.object [("unit", .string s)]) = .ok spec := by
  refine ⟨Actions.getServiceLogs s, ?_⟩
  have hunit : validStr validatedUnitName (.object [("unit", .string s)]) "unit" = .ok s :=
    validStr_single h
  dsimp only [specFor]
  rw [hunit]
  rfl

theorem getAuthorizedKeys_accepted {s : String} (h : usernameAccepts s = true) :
    ∃ spec, specFor .getAuthorizedKeys (.object [("username", .string s)]) = .ok spec := by
  refine ⟨Actions.getAuthorizedKeys s, ?_⟩
  dsimp only [specFor]
  rw [validUser_single h]
  rfl

theorem queryTools_served {tool : ToolDefinition} (h : tool ∈ queryTools)
    (hne : tool.name ≠ "query_current_user") : Served tool := by
  simp only [queryTools, List.mem_cons, List.not_mem_nil, or_false] at h
  rcases h with rfl | rfl | rfl | rfl | rfl | rfl | rfl | rfl | rfl | rfl | rfl | rfl | rfl |
    rfl | rfl | rfl | rfl | rfl | rfl | rfl | rfl | rfl | rfl
  · exact served_fixed .listServices _ (fun _ => rfl) rfl rfl
  · exact served_fixed .getFirewallState _ (fun _ => rfl) rfl rfl
  · exact served_fixed .listDeployments _ (fun _ => rfl) rfl rfl
  · exact served_fixed .getLayeredPackages _ (fun _ => rfl) rfl rfl
  · exact served_userless .listContainers (fun _ _ _ => fixed_mapped) (fun _ _ => specFor_user) rfl
  · exact served_fixed .listUsers _ (fun _ => rfl) rfl rfl
  · exact served_text "unit" .getServiceLogs (fun _ _ => text_mapped _)
      (fun _ => getServiceLogs_accepted) rfl rfl
  · exact served_fixed .getKernelArguments _ (fun _ => rfl) rfl rfl
  · exact served_userless .listFlatpakRemotes (fun _ _ _ => fixed_mapped)
      (fun _ _ => specFor_user) rfl
  · exact served_userless .listToolboxes (fun _ _ _ => fixed_mapped) (fun _ _ => specFor_user) rfl
  · exact served_fixed .listGroups _ (fun _ => rfl) rfl rfl
  · exact served_userless .getFlatpakAppInfo
      (fun _ _ _ => requireStrParam_mapped (by decide) (by decide)) (fun _ _ => specFor_user) rfl
  · exact served_userless .getContainerInfo
      (fun _ _ _ => requireStrParam_mapped (by decide) (by decide)) (fun _ _ => specFor_user) rfl
  · exact served_fixed .listPackageRepositories _ (fun _ => rfl) rfl rfl
  · exact served_fixed .collectDiagnostics _ (fun _ => rfl) rfl rfl
  · exact served_fixed .getDeploymentHistory _ (fun _ => rfl) rfl rfl
  · exact served_fixed .getDiskUsage _ (fun _ => rfl) rfl rfl
  · exact served_fixed .listProcesses _ (fun _ => rfl) rfl rfl
  · exact served_fixed .getMemoryInfo _ (fun _ => rfl) rfl rfl
  · exact served_fixed .getNetworkStatus _ (fun _ => rfl) rfl rfl
  · exact served_text "username" .getAuthorizedKeys (fun _ _ => text_mapped _)
      (fun _ => getAuthorizedKeys_accepted) rfl rfl
  · exact absurd rfl hne
  · exact .history rfl

/-! ## Which tools the daemon accepts -/

/-- The numbers of the job history query are ones that the daemon reads. -/
def HistoryNumbers (input : Json) : Prop :=
  ∀ key ∈ ["limit", "since_hours"], ∀ v, input.get key = some v → v.asU64 ≠ none

theorem historyAccepted_iff (params : Json) :
    HistoryAccepted params ↔ HistoryNumbers params ∧
      ∀ status, optStr params "status_filter" = some status →
        (parseStatusFilter status).isSome = true := by
  have hnumbers : HistoryNumbers params ↔ (∃ limit, historyNumber params "limit" = .ok limit) ∧
      ∃ sinceHours, historyNumber params "since_hours" = .ok sinceHours := by
    rw [historyNumber_ok_iff, historyNumber_ok_iff]
    simp [HistoryNumbers]
  rw [hnumbers]
  exact ⟨fun h => ⟨⟨h.limit, h.sinceHours⟩, h.status⟩, fun h => ⟨h.1.1, h.1.2, h.2⟩⟩

theorem optStr_congr {a b : Json} {key : String} (h : a.get key = b.get key) :
    optStr a key = optStr b key := by
  rw [optStr, optStr, h]

theorem validTexts_optStr {input : Json} (h : ValidTexts input) {key s : String}
    (hs : optStr input key = some s) : s ≠ "" ∧ parameterAccepts key s = true := by
  refine h key s ?_
  rw [optStr, Option.bind_eq_some_iff] at hs
  obtain ⟨v, hget, hv⟩ := hs
  cases v with
  | string t => rw [hget, Option.some.inj hv]
  | _ => cases hv

theorem jobHistory_accepted_iff {input : Json} (htexts : ValidTexts input) :
    ToolAccepted "query_job_history" input ↔ HistoryNumbers input := by
  have hmap : queryToolToAction "query_job_history" input = .ok (some ("ListJobHistory",
      .object (copiedFields input
        ["limit", "status_filter", "action_filter", "since_hours"]))) := rfl
  have hrole : minRoleForAction "ListJobHistory" = some .observer := by decide +kernel
  have hstatus : ∀ status, optStr input "status_filter" = some status →
      (parseStatusFilter status).isSome = true := fun _ h => (validTexts_optStr htexts h).2
  have hcopied := fun key hkey => @copiedFields_get input
    ["limit", "status_filter", "action_filter", "since_hours"] key hkey
  rw [toolAccepted_iff hmap, QueryAccepted, if_pos rfl, and_iff_right hrole, historyAccepted_iff,
    optStr_congr (hcopied "status_filter" (by decide)), and_iff_left hstatus]
  simp [HistoryNumbers, hcopied]

/-- A required text of an input that is valid for the schema. -/
theorem accepts_text {isWhole : FloatText → Bool} {key : String} {input : Json}
    (h : InputSchema.accepts isWhole ⟨[(key, .string)], [key]⟩ input = true) :
    ∃ s, input.get key = some (.string s) := by
  cases input with
  | object fields =>
    simp only [InputSchema.accepts, Bool.and_eq_true, List.all_eq_true] at h
    obtain ⟨hfields, hrequired⟩ := h
    obtain ⟨v, hv⟩ := Option.isSome_iff_exists.mp (hrequired key (List.mem_singleton_self _))
    obtain ⟨before, after, rfl, -⟩ := List.lookup_eq_some_iff.mp hv
    have hfield := hfields (key, v) (by simp)
    simp only [List.lookup_cons_self] at hfield
    cases v with
    | string s => exact ⟨s, hv⟩
    | _ => cases hfield
  | _ => cases h

/-- The daemon takes the request of a query tool with valid texts exactly if the tool is
none of those that lack a user, and the numbers for the job history are unsigned. -/
theorem query_tool_accepted_iff {tool : ToolDefinition} {isWhole : FloatText → Bool}
    {input : Json} (htool : tool ∈ queryTools) (hne : tool.name ≠ "query_current_user")
    (hinput : tool.inputSchema.accepts isWhole input = true) (htexts : ValidTexts input) :
    ToolAccepted tool.name input ↔
      tool.name ∉ userlessTools ∧ (tool.name = "query_job_history" → HistoryNumbers input) := by
  cases queryTools_served htool hne with
  | fixed hname hhistory h => exact iff_of_true (h input) ⟨hname, fun heq => absurd heq hhistory⟩
  | text key hname hhistory hschema h =>
    rw [hschema] at hinput
    obtain ⟨s, hs⟩ := accepts_text hinput
    obtain ⟨hempty, haccepts⟩ := htexts key s hs
    exact iff_of_true (h input s hs hempty haccepts) ⟨hname, fun heq => absurd heq hhistory⟩
  | userless hname h => exact iff_of_false (h input) fun hcond => hcond.1 hname
  | history hname =>
    have huserless : "query_job_history" ∉ userlessTools := by decide
    rw [hname, jobHistory_accepted_iff htexts]
    simp [huserless]

def logsTool : ToolDefinition := ⟨"query_logs", ⟨[("unit", .string)], ["unit"]⟩⟩

def logsInput : Json := .object [("unit", .string "sshd.service")]

def historyTool : ToolDefinition := ⟨"query_job_history", ⟨[("limit", .integer),
  ("status_filter", .string), ("action_filter", .string), ("since_hours", .integer)], []⟩⟩

def failedInput : Json := .object [("status_filter", .string "failed")]

theorem validTexts_single {key s : String} (hne : s ≠ "") (h : parameterAccepts key s = true) :
    ValidTexts (.object [(key, .string s)]) := by
  intro key' s' hs
  by_cases hkey : key' = key
  · subst hkey
    obtain rfl : s = s' := by
      simpa [Json.get] using hs
    exact ⟨hne, h⟩
  · simp [Json.get, List.lookup_cons, beq_false_of_ne hkey] at hs

theorem query_tool_accepted_iff_logs :
    (ToolAccepted "query_logs" logsInput ↔
      "query_logs" ∉ userlessTools ∧
        ("query_logs" = "query_job_history" → HistoryNumbers logsInput)) ∧
      (ToolAccepted "query_job_history" failedInput ↔
        "query_job_history" ∉ userlessTools ∧
          ("query_job_history" = "query_job_history" → HistoryNumbers failedInput)) := by
  have hlogs : logsTool ∈ queryTools := by
    simp [logsTool, queryTools]
  have hhistory : historyTool ∈ queryTools := by
    simp [historyTool, queryTools]
  have hinput : logsTool.inputSchema.accepts (fun _ => false) logsInput = true := by decide
  have hfailed : historyTool.inputSchema.accepts (fun _ => false) failedInput = true := by decide
  exact ⟨query_tool_accepted_iff hlogs (by decide) hinput
      (validTexts_single (by decide) (by decide)),
    query_tool_accepted_iff hhistory (by decide) hfailed
      (validTexts_single (by decide) (by decide))⟩

/-- Listing the containers is refused on every call. -/
theorem containers_refused :
    ¬ ∀ (tool : ToolDefinition) (isWhole : FloatText → Bool) (input : Json), tool ∈ queryTools →
      tool.name ≠ "query_current_user" → tool.inputSchema.accepts isWhole input = true →
      ValidTexts input → ToolAccepted tool.name input := by
  intro h
  have htool : (⟨"query_containers", emptySchema⟩ : ToolDefinition) ∈ queryTools := by
    simp [queryTools]
  have haccepted := h _ (fun _ => false) (.object []) htool (by decide) (by decide)
    (fun key s hs => by cases hs)
  have hmap : queryToolToAction "query_containers" (.object []) =
      .ok (some ("ListContainers", .object [])) := rfl
  rw [toolAccepted_iff hmap] at haccepted
  have hspec : buildActionSpec "ListContainers" (.object []) =
      .error (.missingParam "username") := by
    decide +kernel
  rw [QueryAccepted, if_neg (by decide), hspec] at haccepted
  obtain ⟨-, spec, hok⟩ := haccepted
  cases hok

end Sysknife
