import Sysknife.Lib.PathNames
import Sysknife.ShellScripts

/-!
# Paths that are built from parameters

The files that the actions on authorized keys and package repositories name: each
path has one component that comes from the caller.
-/

namespace Sysknife

open Actions Fallible PathNames

/-! ## The paths of a spec -/

/-- Every other item, from the second on. -/
def everySecond {α : Type} : List α → List α
  | _ :: b :: rest => b :: everySecond rest
  | _ => []

/-- The paths among the quoted words of a script. -/
def quotedPaths (script : String) : List (List Char) :=
  (everySecond (script.toList.splitOn '\'')).filter fun word => word.head? = some '/'

/-- The paths in a spec that its constructor has put together. -/
def ActionSpec.builtPaths (spec : ActionSpec) : List (List Char) :=
  match spec.mechanism, spec.actionName with
  | .fileWrite path _, _ | .filePatch path _ _, _ | .fileDelete path, _ => [path.toList]
  | .command _ args, .getAuthorizedKeys => args.map String.toList
  | .command _ args, .addAuthorizedKey | .command _ args, .removeAuthorizedKey =>
    args.flatMap quotedPaths
  | _, _ => []

/-- The actions on the keys of a user. -/
def ActionName.onKeys : ActionName → Bool
  | .getAuthorizedKeys | .addAuthorizedKey | .removeAuthorizedKey => true
  | _ => false

/-- `path` is the one that is meant, with a single component that is the caller's name
for the user or for the repository. -/
inductive Confined (action : ActionName) (params : Json) (path : List Char) : Prop
  | keys (name : String) (haction : action.onKeys = true)
      (hname : resolveUsername params = .ok name) (hordinary : Ordinary name.toList)
      (hpath : normalize path =
        ["home".toList, name.toList, ".ssh".toList, "authorized_keys".toList])
  | repo (id : String) (haction : action.onKeys = false)
      (hid : requireStr params "repo_id" = .ok id)
      (hordinary : Ordinary (id ++ ".repo").toList)
      (hpath : normalize path = ["etc".toList, "yum.repos.d".toList, (id ++ ".repo").toList])

/-! ## Quoted words -/

/-- The words between the quotes of a script that is given by its parts. -/
theorem quotedPaths_of_parts {script : String} {parts : List (List Char)} (hne : parts ≠ [])
    (hparts : ∀ part ∈ parts, '\'' ∉ part) (hscript : script.toList = ['\''].intercalate parts) :
    quotedPaths script = (everySecond parts).filter fun word => word.head? = some '/' := by
  rw [quotedPaths, hscript, List.splitOn_intercalate '\'' hparts hne]

theorem quotedPaths_plain (s : String) (hs : '\'' ∉ s.toList) : quotedPaths s = [] := by
  rw [quotedPaths_of_parts (List.cons_ne_nil s.toList []) (by simpa using hs)
    (by simp [List.intercalate])]
  rfl

theorem username_chars {s : String} (h : usernameAccepts s = true) :
    s.toList ≠ [] ∧ '/' ∉ s.toList ∧ '\'' ∉ s.toList := by
  simp only [usernameAccepts, Bool.and_eq_true, Bool.not_eq_true', Bool.or_eq_false_iff] at h
  obtain ⟨⟨⟨hempty, -⟩, -⟩, hchars⟩ := h
  exact ⟨toList_ne_nil hempty, notMem_of_onlyChars hchars (by decide) (by decide),
    notMem_of_onlyChars hchars (by decide) (by decide)⟩

theorem noQuote_of_publicKey {s : String} (h : publicKeyAccepts s = true) : '\'' ∉ s.toList :=
  fun hmem => fits_publicKey h _ hmem rfl

theorem publicKey_head_ne {s : String} (h : publicKeyAccepts s = true) :
    s.toList.head? ≠ some '/' := by
  rcases publicKey_head h with hhead | hhead <;> rw [hhead] <;> decide

/-! ## The paths of accepted requests -/

theorem keysPath_toList (username : String) :
    (keysPath username).toList =
      absolute ["home".toList, username.toList, ".ssh".toList, "authorized_keys".toList] := by
  simp [keysPath, absolute, List.intercalate]

theorem toList_append_append (s t u : String) :
    (s ++ t ++ u).toList = s.toList ++ (t ++ u).toList := by
  simp only [String.toList_append, List.append_assoc]

theorem repoPath_toList (repoId : String) :
    (repoPath repoId).toList =
      absolute ["etc".toList, "yum.repos.d".toList, (repoId ++ ".repo").toList] := by
  unfold repoPath
  rw [toList_append_append]
  generalize (repoId ++ ".repo").toList = file
  simp [absolute, List.intercalate]

theorem keysPath_noQuote {username : String} (h : '\'' ∉ username.toList) :
    '\'' ∉ (keysPath username).toList := by
  simpa [keysPath] using h

theorem keysPath_head (username : String) : (keysPath username).toList.head? = some '/' := by
  simp [keysPath]

theorem addAuthorizedKey_paths {username publicKey : String}
    (huser : usernameAccepts username = true) (hkey : publicKeyAccepts publicKey = true) :
    (addAuthorizedKey username publicKey).builtPaths =
      [(keysPath username).toList, (keysPath username).toList] := by
  have hpath := keysPath_noQuote (username_chars huser).2.2
  have hscript : quotedPaths ("grep -Fxq '" ++ publicKey ++ "' '" ++ keysPath username ++
      "' 2>/dev/null || echo '" ++ publicKey ++ "' >> '" ++ keysPath username ++ "'") =
      (everySecond ["grep -Fxq ".toList, publicKey.toList, " ".toList,
        (keysPath username).toList, " 2>/dev/null || echo ".toList, publicKey.toList,
        " >> ".toList, (keysPath username).toList, []]).filter
        fun word => word.head? = some '/' := by
    apply quotedPaths_of_parts (List.cons_ne_nil _ _)
    · simp [noQuote_of_publicKey hkey, hpath]
    · simp [List.intercalate]
  simp only [ActionSpec.builtPaths, addAuthorizedKey, List.flatMap_cons, List.flatMap_nil,
    hscript, quotedPaths_plain "sh" (by decide), quotedPaths_plain "-c" (by decide), everySecond,
    List.filter_cons, publicKey_head_ne hkey, keysPath_head, decide_true, decide_false, if_true, if_false,
    List.filter_nil, List.nil_append, List.append_nil, Bool.false_eq_true]

theorem removeAuthorizedKey_paths {username publicKey : String}
    (huser : usernameAccepts username = true) (hkey : publicKeyAccepts publicKey = true) :
    (removeAuthorizedKey username publicKey).builtPaths = [(keysPath username).toList] := by
  have hpath := keysPath_noQuote (username_chars huser).2.2
  have hscript : quotedPaths ("sed -i '\\|^" ++ publicKey ++ "$|d' '" ++ keysPath username ++
      "'") =
      (everySecond ["sed -i ".toList, "\\|^".toList ++ publicKey.toList ++ "$|d".toList,
        " ".toList, (keysPath username).toList, []]).filter
        fun word => word.head? = some '/' := by
    apply quotedPaths_of_parts (List.cons_ne_nil _ _)
    · simp [noQuote_of_publicKey hkey, hpath]
    · simp [List.intercalate]
  have haddress : ("\\|^".toList ++ publicKey.toList ++ "$|d".toList).head? ≠ some '/' := by
    simp
  simp only [ActionSpec.builtPaths, removeAuthorizedKey, List.flatMap_cons, List.flatMap_nil,
    hscript, quotedPaths_plain "sh" (by decide), quotedPaths_plain "-c" (by decide), everySecond,
    List.filter_cons, haddress, keysPath_head, decide_true, decide_false, if_true, if_false,
    List.filter_nil, List.nil_append, List.append_nil, Bool.false_eq_true]

/-- The paths that an accepted request leads to, each with the caller's component. -/
inductive Located (params : Json) (spec : ActionSpec) : Prop
  | none (haction : spec.actionName.onKeys = false) (h : spec.builtPaths = [])
  | keys (name : String) (haction : spec.actionName.onKeys = true)
      (hname : resolveUsername params = .ok name) (haccepts : usernameAccepts name = true)
      (hne : spec.builtPaths ≠ [])
      (h : ∀ path ∈ spec.builtPaths, path = (keysPath name).toList)
  | repo (id : String) (haction : spec.actionName.onKeys = false)
      (hid : requireStr params "repo_id" = .ok id) (haccepts : repoIdAccepts id = true)
      (h : ∀ path ∈ spec.builtPaths, path = (repoPath id).toList)

theorem validatedRepoId_ok {params : Json} {id : String} (h : validatedRepoId params = .ok id) :
    requireStr params "repo_id" = .ok id ∧ repoIdAccepts id = true := by
  unfold validatedRepoId at h
  cases ht : requireStr params "repo_id" with
  | error e =>
    rw [ht] at h
    cases h
  | ok t =>
    rw [ht] at h
    obtain ⟨haccepts, rfl⟩ := validated_ok_iff.mp h
    exact ⟨rfl, haccepts⟩

theorem validatedPublicKey_ok {s t : String} (h : validatedPublicKey s = .ok t) :
    publicKeyAccepts t = true := by
  obtain ⟨haccepts, rfl⟩ := validated_ok_iff.mp h
  exact haccepts

theorem specFor_located (action : ActionName) (params : Json) :
    Ensures (specFor action params) (Located params) := by
  cases action
  all_goals dsimp only [specFor]
  case getAuthorizedKeys =>
    refine ensures_bind fun username huser => ensures_ok ?_
    obtain ⟨hname, haccepts⟩ := validUser_ok huser
    exact .keys username rfl hname haccepts (List.cons_ne_nil _ _)
      fun path hpath => List.mem_singleton.mp hpath
  case addAuthorizedKey =>
    refine ensures_bind fun username huser => ?_
    refine ensures_bind_any fun given => ?_
    refine ensures_bind fun publicKey hkey => ensures_ok ?_
    obtain ⟨hname, haccepts⟩ := validUser_ok huser
    have hpaths := addAuthorizedKey_paths haccepts (validatedPublicKey_ok hkey)
    refine .keys username rfl hname haccepts ?_ ?_ <;> rw [hpaths] <;> simp
  case removeAuthorizedKey =>
    refine ensures_bind fun username huser => ?_
    refine ensures_bind_any fun given => ?_
    refine ensures_bind fun publicKey hkey => ensures_ok ?_
    obtain ⟨hname, haccepts⟩ := validUser_ok huser
    have hpaths := removeAuthorizedKey_paths haccepts (validatedPublicKey_ok hkey)
    refine .keys username rfl hname haccepts ?_ ?_ <;> rw [hpaths] <;> simp
  case addPackageRepository =>
    refine ensures_bind fun id hrepo => ?_
    refine ensures_bind_any fun url => ensures_ok ?_
    obtain ⟨hid, haccepts⟩ := validatedRepoId_ok hrepo
    exact .repo id rfl hid haccepts fun path hpath => List.mem_singleton.mp hpath
  case removePackageRepository | enablePackageRepository | disablePackageRepository =>
    refine ensures_bind fun id hrepo => ensures_ok ?_
    obtain ⟨hid, haccepts⟩ := validatedRepoId_ok hrepo
    exact .repo id rfl hid haccepts fun path hpath => List.mem_singleton.mp hpath
  -- the others build no path
  all_goals repeat refine ensures_bind_any fun _ => ?_
  case snapInstall name channel =>
    refine ensures_ok (.none ?_ ?_) <;>
      unfold snapInstall <;>
      split <;> rfl
  case updateFlatpak appId => cases appId <;> exact ensures_ok (.none rfl rfl)
  case ubuntuUpdateFlatpak appId => cases appId <;> exact ensures_ok (.none rfl rfl)
  case snapRefresh name => cases name <;> exact ensures_ok (.none rfl rfl)
  case fail2banStatus jail => cases jail <;> exact ensures_ok (.none rfl rfl)
  case fail2banBanIp | fail2banUnbanIp => exact fail2banChecked_ensures (.none rfl rfl)
  case listJobHistory => exact ensures_error
  case grubSetKargs =>
    unfold grubSetKargs
    split
    · next spec hspec =>
      split at hspec
      · cases hspec
      · cases hspec
        exact ensures_ok (.none rfl rfl)
    · exact ensures_error
  case ufwDeleteRule =>
    unfold ufwDeleteRule
    split
    · next spec hspec =>
      split at hspec
      · cases hspec
      · cases hspec
        exact ensures_ok (.none rfl rfl)
    · exact ensures_error
  case resolvectlSetDns =>
    refine ensures_ite (fun _ => ensures_error) fun _ => ?_
    exact ensures_bind_any fun _ => ensures_ok (.none rfl rfl)
  all_goals exact ensures_ok (.none rfl rfl)

/-! ## Confinement -/

theorem username_ordinary {name : String} (h : usernameAccepts name = true)
    (hdot : name ≠ ".") (hdotDot : name ≠ "..") : Ordinary name.toList := by
  obtain ⟨hne, hslash, -⟩ := username_chars h
  refine ⟨hslash, hne, fun heq => hdot ?_, fun heq => hdotDot ?_⟩
  · exact String.toList_inj.mp (heq.trans (by decide))
  · exact String.toList_inj.mp (heq.trans (by decide))

theorem repoFile_ordinary {id : String} (h : repoIdAccepts id = true) :
    Ordinary (id ++ ".repo").toList := by
  simp only [repoIdAccepts, Bool.and_eq_true] at h
  have hslash : '/' ∉ id.toList := notMem_of_onlyChars h.2 (by decide) (by decide)
  have hlength : 5 ≤ (id ++ ".repo").toList.length := by simp
  refine ⟨by simpa using hslash, ?_, ?_, ?_⟩ <;>
    · intro heq
      rw [heq] at hlength
      exact absurd hlength (by decide)

theorem keysPath_normal {name : String} (h : Ordinary name.toList) :
    normalize (keysPath name).toList =
      ["home".toList, name.toList, ".ssh".toList, "authorized_keys".toList] := by
  rw [keysPath_toList, normalize_ordinary]
  simp only [List.forall_mem_cons, List.not_mem_nil, false_implies, implies_true, and_true]
  exact ⟨by decide, h, by decide, by decide⟩

theorem repoPath_normal {id : String} (h : Ordinary (id ++ ".repo").toList) :
    normalize (repoPath id).toList =
      ["etc".toList, "yum.repos.d".toList, (id ++ ".repo").toList] := by
  rw [repoPath_toList, normalize_ordinary]
  simp only [List.forall_mem_cons, List.not_mem_nil, false_implies, implies_true, and_true]
  exact ⟨by decide, by decide, h⟩

/-- The keys of a user named `.` or `..` are no user's keys. -/
theorem special_not_confined {spec : ActionSpec} {params : Json} {name : String}
    (hlocated : Located params spec) (haction : spec.actionName.onKeys = true)
    (hname : resolveUsername params = .ok name) (hspecial : ¬ Ordinary name.toList) :
    ¬ ∀ path ∈ spec.builtPaths, Confined spec.actionName params path := by
  intro hall
  cases hlocated with
  | none hkeys _ | repo _ hkeys _ _ _ =>
    rw [haction] at hkeys
    cases hkeys
  | keys _ _ _ _ hne _ =>
    obtain ⟨path, hpath⟩ := List.exists_mem_of_ne_nil _ hne
    cases hall path hpath with
    | keys other _ hother hordinary _ =>
      rw [hname] at hother
      obtain rfl := Except.ok.inj hother
      exact hspecial hordinary
    | repo _ hkeys _ _ _ =>
      rw [haction] at hkeys
      cases hkeys

theorem located_confined {spec : ActionSpec} {params : Json} (hlocated : Located params spec)
    (h : spec.actionName.onKeys = true →
      resolveUsername params ≠ .ok "." ∧ resolveUsername params ≠ .ok "..") :
    ∀ path ∈ spec.builtPaths, Confined spec.actionName params path := by
  intro path hpath
  cases hlocated with
  | none _ hnone =>
    rw [hnone] at hpath
    cases hpath
  | keys name haction hname haccepts _ hall =>
    obtain ⟨hdot, hdotDot⟩ := h haction
    rw [hname] at hdot hdotDot
    have hordinary := username_ordinary haccepts (fun heq => hdot (congrArg _ heq))
      (fun heq => hdotDot (congrArg _ heq))
    rw [hall path hpath]
    exact .keys name haction hname hordinary (keysPath_normal hordinary)
  | repo id haction hid haccepts hall =>
    rw [hall path hpath]
    exact .repo id haction hid (repoFile_ordinary haccepts)
      (repoPath_normal (repoFile_ordinary haccepts))

theorem buildActionSpec_located {actionName : String} {params : Json} {spec : ActionSpec}
    (h : buildActionSpec actionName params = .ok spec) : Located params spec := by
  unfold buildActionSpec at h
  split at h
  · exact (specFor_located _ params).apply h
  · cases h

/-- The paths of an accepted request are the ones that are meant, unless it is about
the keys of a user named `.` or `..`. -/
theorem paths_confined_iff {actionName : String} {params : Json} {spec : ActionSpec}
    (h : buildActionSpec actionName params = .ok spec) :
    (∀ path ∈ spec.builtPaths, Confined spec.actionName params path) ↔
      ¬ (spec.actionName.onKeys = true ∧
        (resolveUsername params = .ok "." ∨ resolveUsername params = .ok "..")) := by
  have hlocated := buildActionSpec_located h
  constructor
  · rintro hall ⟨haction, hname | hname⟩
    · exact special_not_confined hlocated haction hname (by decide) hall
    · exact special_not_confined hlocated haction hname (by decide) hall
  · intro hname
    refine located_confined hlocated fun haction => ⟨fun hdot => ?_, fun hdotDot => ?_⟩
    · exact hname ⟨haction, Or.inl hdot⟩
    · exact hname ⟨haction, Or.inr hdotDot⟩

/-- A request for the keys that lie beside the home directories. -/
def parentKeysParams : Json :=
  .object [("username", .string ".."), ("public_key", .string "ssh-ed25519 AAAA")]

theorem parentKeys_accepted : buildActionSpec "AddAuthorizedKey" parentKeysParams =
    .ok (addAuthorizedKey ".." "ssh-ed25519 AAAA") := by
  decide +kernel

theorem parentKeys_not_confined :
    ¬ ∀ (actionName : String) (params : Json) (spec : ActionSpec),
      buildActionSpec actionName params = .ok spec →
      ∀ path ∈ spec.builtPaths, Confined spec.actionName params path := fun h =>
  special_not_confined (buildActionSpec_located parentKeys_accepted) rfl rfl (by decide)
    (h _ _ _ parentKeys_accepted)

theorem paths_confined_iff_parentKeys :
    ¬ ∀ path ∈ (addAuthorizedKey ".." "ssh-ed25519 AAAA").builtPaths,
      Confined .addAuthorizedKey parentKeysParams path := by
  intro hall
  exact (paths_confined_iff parentKeys_accepted).mp hall ⟨rfl, Or.inr rfl⟩

end Sysknife
