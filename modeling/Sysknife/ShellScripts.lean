import Sysknife.ActionTraits
import Sysknife.Lib.PosixShell

/-!
# The scripts that go to a shell

Some actions pass a script to `sh -c` or, with `runuser -l`, to the login shell of
a user. `scriptShape` lists the tokens of each such script with a hole for each
parameter; the script of an accepted request has these tokens, the holes filled
with the caller's texts.
-/

namespace Sysknife

open Actions Fallible PosixShell

/-- The script in a command line that runs a shell. -/
def shellScript : List String → Option String
  | "sudo" :: rest => shellScript rest
  | ["sh", "-c", script] => some script
  | ["runuser", "-l", _, "-c", script] => some script
  | _ => none

def ActionMechanism.script : ActionMechanism → Option String
  | .command program args => shellScript (program :: args)
  | _ => none

/-! ## Parameters -/

/-- The text that the caller gives for a parameter. -/
def callerText (params : Json) (key : String) : List Char :=
  match if key = "username" then resolveUsername params else requireStr params key with
  | .ok s => s.toList
  | .error _ => []

/-- The caller gives a text for a parameter that can be left out. -/
def isGiven (params : Json) (key : String) : Bool := (optNonEmptyStr params key).isSome

def isEnabled (params : Json) : Bool := ((params.get "enabled").bind Json.asBool).getD false

/-! ## Templates -/

def text (s : String) : List (Symbol String) := fixed s.toList

def quotedHole (key : String) : List (Symbol String) :=
  text "'" ++ [.hole true key] ++ text "'"

def keysPathTemplate : List (Symbol String) :=
  text "/home/" ++ [.hole true "username"] ++ text "/.ssh/authorized_keys"

def ensureGroupTemplate : List (Symbol String) :=
  text "grep -q '^" ++ [.hole true "group"] ++ text ":' /etc/group || getent group '" ++
    [.hole true "group"] ++ text "' >> /etc/group; "

def toolboxTemplate (cmd : List (Symbol String)) : List (Symbol String) :=
  text "XDG_RUNTIME_DIR=/run/user/$(id -u) " ++ cmd

/-- The scripts as the constructors of the actions write them, with the optional
parameters that are given. -/
def scriptTemplate (given : String → Bool) (enabled : Bool) :
    ActionName → Option (List (Symbol String))
  | .configureFirewall => some (text "firewall-cmd --permanent --zone='" ++ [.hole true "zone"] ++
      text "' --" ++ text (if enabled then "add-service" else "remove-service") ++ text "='" ++
      [.hole true "service"] ++ text "' && firewall-cmd --reload")
  | .snapInstall => some (text "snap install --channel=" ++
      (if given "channel" then [.hole false "channel"] else text "stable") ++ text " " ++
      [.hole false "name"] ++ text " && snap refresh --hold " ++ [.hole false "name"])
  | .listContainers => some (text "podman ps --all --format json")
  | .createContainer =>
      some (text "podman create --name " ++ quotedHole "name" ++ text " " ++ quotedHole "image")
  | .startContainer => some (text "podman start " ++ quotedHole "name")
  | .stopContainer => some (text "podman stop " ++ quotedHole "name")
  | .removeContainer => some (text "podman rm " ++ quotedHole "name")
  | .getContainerInfo => some (text "podman inspect " ++ quotedHole "name")
  | .listToolboxes => some (toolboxTemplate (text "toolbox list"))
  | .createToolbox => some (toolboxTemplate (text "toolbox create --container " ++
      quotedHole "name" ++
      (if given "release" then text " --release " ++ quotedHole "release" else []) ++
      (if given "image" then text " --image " ++ quotedHole "image" else [])))
  | .removeToolbox => some (toolboxTemplate (text "toolbox rm " ++ quotedHole "name"))
  | .addUserToGroup => some (ensureGroupTemplate ++ text "usermod --append --groups '" ++
      [.hole true "group"] ++ text "' '" ++ [.hole true "username"] ++ text "'")
  | .removeUserFromGroup => some (ensureGroupTemplate ++ text "gpasswd --delete '" ++
      [.hole true "username"] ++ text "' '" ++ [.hole true "group"] ++ text "'")
  | .addAuthorizedKey => some (text "grep -Fxq '" ++ [.hole true "public_key"] ++ text "' '" ++
      keysPathTemplate ++ text "' 2>/dev/null || echo '" ++ [.hole true "public_key"] ++
      text "' >> '" ++ keysPathTemplate ++ text "'")
  | .removeAuthorizedKey => some (text "sed -i '\\|^" ++ [.hole true "public_key"] ++
      text "$|d' '" ++ keysPathTemplate ++ text "'")
  | _ => none

/-! ## Tokens -/

abbrev Pieces := List (Piece String)

def plainPieces (s : String) : Pieces := s.toList.map .plain

def quotedPieces (s : String) : Pieces := s.toList.map .quoted

def inQuotes (pieces : Pieces) : Pieces := .quote :: (pieces ++ [.quote])

def plainWord (s : String) : Token String := .word (plainPieces s)

/-- A word that is one parameter. -/
def holeWord (key : String) : Token String := .word (inQuotes [.hole true key])

def operator (s : String) : Token String := .operator s.toList

def keysPathWord : Token String :=
  .word (inQuotes (quotedPieces "/home/" ++ [.hole true "username"] ++
    quotedPieces "/.ssh/authorized_keys"))

def podmanShape (subcommand : String) : List (Token String) :=
  [plainWord "podman", plainWord subcommand, holeWord "name"]

/-- The assignment in front of the toolbox commands. -/
def runtimeDir : Token String :=
  .word (plainPieces "XDG_RUNTIME_DIR=/run/user/" ++ [.expansion false "$(id -u)".toList])

def ensureGroupShape : List (Token String) :=
  [plainWord "grep", plainWord "-q",
    .word (inQuotes (quotedPieces "^" ++ [.hole true "group"] ++ quotedPieces ":")),
    plainWord "/etc/group", operator "||", plainWord "getent", plainWord "group",
    holeWord "group", operator ">>", plainWord "/etc/group", operator ";"]

/-- The fixed words and operators of each action's script. -/
def scriptShape (given : String → Bool) (enabled : Bool) :
    ActionName → Option (List (Token String))
  | .configureFirewall => some
      [plainWord "firewall-cmd", plainWord "--permanent",
        .word (plainPieces "--zone=" ++ inQuotes [.hole true "zone"]),
        .word (plainPieces (if enabled then "--add-service=" else "--remove-service=") ++
          inQuotes [.hole true "service"]),
        operator "&&", plainWord "firewall-cmd", plainWord "--reload"]
  | .snapInstall => some
      [plainWord "snap", plainWord "install",
        .word (plainPieces "--channel=" ++
          (if given "channel" then [.hole false "channel"] else plainPieces "stable")),
        .word [.hole false "name"], operator "&&", plainWord "snap", plainWord "refresh",
        plainWord "--hold", .word [.hole false "name"]]
  | .listContainers => some
      [plainWord "podman", plainWord "ps", plainWord "--all", plainWord "--format",
        plainWord "json"]
  | .createContainer => some
      [plainWord "podman", plainWord "create", plainWord "--name", holeWord "name",
        holeWord "image"]
  | .startContainer => some (podmanShape "start")
  | .stopContainer => some (podmanShape "stop")
  | .removeContainer => some (podmanShape "rm")
  | .getContainerInfo => some (podmanShape "inspect")
  | .listToolboxes => some [runtimeDir, plainWord "toolbox", plainWord "list"]
  | .createToolbox => some
      ([runtimeDir, plainWord "toolbox", plainWord "create", plainWord "--container",
        holeWord "name"] ++
        (if given "release" then [plainWord "--release", holeWord "release"] else []) ++
        (if given "image" then [plainWord "--image", holeWord "image"] else []))
  | .removeToolbox => some [runtimeDir, plainWord "toolbox", plainWord "rm", holeWord "name"]
  | .addUserToGroup => some (ensureGroupShape ++
      [plainWord "usermod", plainWord "--append", plainWord "--groups", holeWord "group",
        holeWord "username"])
  | .removeUserFromGroup => some (ensureGroupShape ++
      [plainWord "gpasswd", plainWord "--delete", holeWord "username", holeWord "group"])
  | .addAuthorizedKey => some
      [plainWord "grep", plainWord "-Fxq", holeWord "public_key", keysPathWord, .ioNumber ['2'],
        operator ">", plainWord "/dev/null", operator "||", plainWord "echo",
        holeWord "public_key", operator ">>", keysPathWord]
  | .removeAuthorizedKey => some
      [plainWord "sed", plainWord "-i",
        .word (inQuotes (quotedPieces "\\|^" ++ [.hole true "public_key"] ++ quotedPieces "$|d")),
        keysPathWord]
  | _ => none

theorem recognize_scriptTemplate (given : String → Bool) (enabled : Bool) (action : ActionName) :
    (scriptTemplate given enabled action).bind recognize = scriptShape given enabled action := by
  cases action
  -- literal texts become lists of characters by a lemma: the kernel is slow at them
  all_goals
    dsimp only [scriptTemplate, scriptShape, quotedHole, keysPathTemplate, ensureGroupTemplate,
      toolboxTemplate, plainWord, holeWord, operator, keysPathWord, podmanShape, runtimeDir,
      ensureGroupShape, text, plainPieces, quotedPieces, -String.reduceToList]
  case configureFirewall =>
    cases enabled
    all_goals
      repeat rw [String.toList_ofList]
      decide +kernel
  case snapInstall =>
    generalize given "channel" = channel
    cases channel
    all_goals
      repeat rw [String.toList_ofList]
      decide +kernel
  case createToolbox =>
    generalize given "release" = release
    generalize given "image" = image
    cases release <;> cases image
    all_goals
      repeat rw [String.toList_ofList]
      decide +kernel
  case listContainers | createContainer | startContainer | stopContainer | removeContainer
      | getContainerInfo | listToolboxes | removeToolbox | addUserToGroup | removeUserFromGroup
      | addAuthorizedKey | removeAuthorizedKey =>
    repeat rw [String.toList_ofList]
    decide +kernel
  -- the others have no script
  all_goals rfl

theorem tokenize_scriptTemplate {given : String → Bool} {enabled : Bool} {action : ActionName}
    {template : List (Symbol String)} {shape : List (Token String)} {script : List Char}
    {v : String → List Char} (htemplate : scriptTemplate given enabled action = some template)
    (hshape : scriptShape given enabled action = some shape)
    (hrender : script = render v template)
    (hfits : ∀ quoted key, .hole quoted key ∈ template → Fits quoted (v key)) :
    tokenize script = some (shape.map (Token.fill v)) := by
  have hrecognize := recognize_scriptTemplate given enabled action
  rw [htemplate, hshape] at hrecognize
  rw [hrender]
  exact tokenize_render hrecognize hfits

/-! ## Accepted parameters -/

/-- The characters that are not inert. -/
def activeChars : List Char :=
  [' ', '\t', '\n', '&', '|', ';', '<', '>', '(', ')', '*', '?', '[', ']', '~', '\x7b', '\x7d',
    '!', '\x27', '"', '\\', '$', '\x60', '#']

theorem isInert_of_not_active {c : Char} (h : c ∉ activeChars) : isInert c = true := by
  simp only [activeChars, List.mem_cons, List.not_mem_nil, or_false, not_or] at h
  simp [isInert, isBlank, startsOperator, operators, isSpecial, isQuoting, h]

theorem isInert_of_alphanumeric {c : Char} (h : isAsciiAlphanumeric c = true) :
    isInert c = true := by
  apply isInert_of_not_active
  intro hactive
  have hnone : activeChars.any isAsciiAlphanumeric = false := by decide +kernel
  exact List.any_eq_false.mp hnone c hactive h

/-- An alphabet of letters, digits and inert characters is inert. -/
theorem isInert_of_onlyChars {extra cs : List Char} (hextra : extra.all isInert = true)
    (h : onlyChars extra cs = true) : ∀ c ∈ cs, isInert c = true := by
  intro c hc
  have hchar := List.all_eq_true.mp h c hc
  rw [Bool.or_eq_true, List.contains_iff_mem] at hchar
  rcases hchar with halnum | hmem
  · exact isInert_of_alphanumeric halnum
  · exact List.all_eq_true.mp hextra c hmem

theorem fits_of_inert {value : List Char} (hne : value ≠ []) (h : ∀ c ∈ value, isInert c = true)
    (quoted : Bool) : Fits quoted value := by
  cases quoted with
  | true =>
    show ∀ c ∈ value, c ≠ '\x27'
    intro c hc rfl
    have hquote := h _ hc
    revert hquote
    decide
  | false => exact ⟨hne, h⟩

theorem toList_ne_nil {s : String} (h : s.isEmpty = false) : s.toList ≠ [] := by
  intro hnil
  rw [String.toList_eq_nil_iff] at hnil
  subst hnil
  cases h

theorem fits_safeArg {s : String} (h : safeArgAccepts s = true) (quoted : Bool) :
    Fits quoted s.toList := by
  simp only [safeArgAccepts, Bool.and_eq_true, Bool.not_eq_true', Bool.or_eq_false_iff] at h
  obtain ⟨⟨⟨hempty, -⟩, -⟩, hchars⟩ := h
  exact fits_of_inert (toList_ne_nil hempty) (isInert_of_onlyChars (by decide +kernel) hchars)
    quoted

theorem fits_username {s : String} (h : usernameAccepts s = true) (quoted : Bool) :
    Fits quoted s.toList := by
  simp only [usernameAccepts, Bool.and_eq_true, Bool.not_eq_true', Bool.or_eq_false_iff] at h
  obtain ⟨⟨⟨hempty, -⟩, -⟩, hchars⟩ := h
  exact fits_of_inert (toList_ne_nil hempty) (isInert_of_onlyChars (by decide +kernel) hchars)
    quoted

/-- A public key has blanks and punctuation, but no quote. -/
theorem fits_publicKey {s : String} (h : publicKeyAccepts s = true) : Fits true s.toList := by
  simp only [publicKeyAccepts, Bool.and_eq_true, Bool.not_eq_true'] at h
  obtain ⟨-, hchars⟩ := h
  show ∀ c ∈ s.toList, c ≠ '\x27'
  intro c hc rfl
  have hquote := List.any_eq_false.mp hchars _ hc
  revert hquote
  decide

/-- A key begins with the name of its type. -/
theorem publicKey_head {s : String} (h : publicKeyAccepts s = true) :
    s.toList.head? = some 's' ∨ s.toList.head? = some 'e' := by
  simp only [publicKeyAccepts, Bool.and_eq_true, List.any_eq_true] at h
  obtain ⟨⟨-, p, hp, hpre⟩, -⟩ := h
  have hheads : publicKeyPrefixes.all (fun p => p.toList.head? == some 's' ||
      p.toList.head? == some 'e') = true := by
    decide +kernel
  have hhead := List.all_eq_true.mp hheads p hp
  obtain ⟨rest, hrest⟩ := List.isPrefixOf_iff_prefix.mp hpre
  rw [← hrest, List.head?_append]
  simp only [Bool.or_eq_true, beq_iff_eq] at hhead
  rcases hhead with hhead | hhead <;> rw [hhead] <;> simp

section Params
variable {params : Json} {key s : String}

theorem callerText_of_requireStr (hkey : key ≠ "username") (h : requireStr params key = .ok s) :
    callerText params key = s.toList := by
  unfold callerText
  rw [if_neg hkey, h]

theorem callerText_of_optStr (hkey : key ≠ "username") (h : optStr params key = some s) :
    callerText params key = s.toList := by
  apply callerText_of_requireStr hkey
  obtain ⟨v, hget, hv⟩ := Option.bind_eq_some_iff.mp h
  unfold requireStr
  rw [hget]
  simp only [hv]

/-- The parameter is the caller's text and fits, in quotes or not. -/
def Literal (params : Json) (key s : String) : Prop :=
  callerText params key = s.toList ∧ ∀ quoted, Fits quoted (callerText params key)

theorem validStr_ensures (accepts : String → Bool) (hkey : key ≠ "username")
    (hfits : ∀ s, accepts s = true → ∀ quoted, Fits quoted s.toList) :
    Ensures (validStr (validated accepts) params key) (Literal params key) := by
  refine ensures_bind fun t ht => ?_
  intro s hs
  obtain ⟨haccepts, rfl⟩ := validated_ok_iff.mp hs
  have htext := callerText_of_requireStr hkey ht
  refine ⟨htext, ?_⟩
  rw [htext]
  exact hfits s haccepts

theorem safeArg_literal (hkey : key ≠ "username")
    (h : validStr validatedSafeArg params key = .ok s) : Literal params key s :=
  (validStr_ensures safeArgAccepts hkey fun _ => fits_safeArg).apply h

theorem group_literal (hkey : key ≠ "username")
    (h : validStr validatedGroup params key = .ok s) : Literal params key s :=
  (validStr_ensures usernameAccepts hkey fun _ => fits_username).apply h

theorem validUser_ok (h : validUser params = .ok s) :
    resolveUsername params = .ok s ∧ usernameAccepts s = true := by
  unfold validUser at h
  cases ht : resolveUsername params with
  | error e =>
    rw [ht] at h
    cases h
  | ok t =>
    rw [ht] at h
    obtain ⟨haccepts, rfl⟩ := validated_ok_iff.mp h
    exact ⟨rfl, haccepts⟩

theorem user_literal (h : validUser params = .ok s) : Literal params "username" s := by
  obtain ⟨ht, haccepts⟩ := validUser_ok h
  have htext : callerText params "username" = s.toList := by
    unfold callerText
    rw [if_pos rfl, ht]
  refine ⟨htext, ?_⟩
  rw [htext]
  exact fits_username haccepts

/-- An optional parameter is given and literal, or left out. -/
def OptLiteral (params : Json) (key : String) : Option String → Prop
  | none => isGiven params key = false
  | some s => isGiven params key = true ∧ Literal params key s

theorem validatedOpt_ensures (hkey : key ≠ "username") {value : Option String}
    (hvalue : value = optStr params key ∨ value = optNonEmptyStr params key) :
    Ensures (validatedOpt value key) (OptLiteral params key) := by
  cases value with
  | none =>
    refine ensures_ok ?_
    show (optNonEmptyStr params key).isSome = false
    rcases hvalue with h | h
    · rw [optNonEmptyStr, ← h]
      rfl
    · rw [← h]
      rfl
  | some t =>
    refine ensures_bind fun s hs => ensures_ok ?_
    obtain ⟨haccepts, rfl⟩ := validated_ok_iff.mp hs
    have hempty : s.isEmpty = false := by
      simp only [safeArgAccepts, Bool.and_eq_true, Bool.not_eq_true', Bool.or_eq_false_iff]
        at haccepts
      exact haccepts.1.1.1
    have hopt : optStr params key = some s := by
      rcases hvalue with h | h
      · exact h.symm
      · exact (Option.filter_eq_some_iff.mp h.symm).1
    have htext := callerText_of_optStr hkey hopt
    refine ⟨?_, htext, ?_⟩
    · show (optNonEmptyStr params key).isSome = true
      rw [optNonEmptyStr, hopt, Option.filter_some, hempty]
      rfl
    · rw [htext]
      exact fits_safeArg haccepts

theorem publicKey_literal {t : String} (ht : requireStr params "public_key" = .ok t)
    (h : validatedPublicKey t = .ok s) :
    callerText params "public_key" = s.toList ∧ Fits true (callerText params "public_key") := by
  obtain ⟨haccepts, rfl⟩ := validated_ok_iff.mp h
  have htext := callerText_of_requireStr (by decide) ht
  refine ⟨htext, ?_⟩
  rw [htext]
  exact fits_publicKey haccepts

theorem enabled_ok {enabled : Bool} (h : requireBool params "enabled" = .ok enabled) :
    isEnabled params = enabled := by
  unfold requireBool at h
  unfold isEnabled
  cases hget : params.get "enabled" with
  | none =>
    rw [hget] at h
    cases h
  | some v =>
    rw [hget] at h
    cases hbool : v.asBool with
    | none =>
      simp only [hbool] at h
      cases h
    | some b =>
      simp only [hbool] at h
      cases h
      simp [hbool]

end Params

/-! ## The scripts of accepted requests -/

/-- The script of `spec`, if it has one, has the tokens of the action's script with
the caller's texts in their places. -/
def HasShape (action : ActionName) (params : Json) (spec : ActionSpec) : Prop :=
  ∀ script, spec.mechanism.script = some script →
    ∃ shape, scriptShape (isGiven params) (isEnabled params) action = some shape ∧
      tokenize script.toList = some (shape.map (Token.fill (callerText params)))

section Scripts
variable {action : ActionName} {params : Json} {spec : ActionSpec}

theorem hasShape_of_template {template : List (Symbol String)} {shape : List (Token String)}
    {script : String} (hmech : spec.mechanism.script = some script)
    (htemplate : scriptTemplate (isGiven params) (isEnabled params) action = some template)
    (hshape : scriptShape (isGiven params) (isEnabled params) action = some shape)
    (hrender : script.toList = render (callerText params) template)
    (hfits : ∀ quoted key, .hole quoted key ∈ template → Fits quoted (callerText params key)) :
    HasShape action params spec := by
  intro script' hscript
  obtain rfl : script = script' := Option.some.inj (hmech.symm.trans hscript)
  exact ⟨shape, hshape, tokenize_scriptTemplate htemplate hshape hrender hfits⟩

theorem hasShape_of_none (hmech : spec.mechanism.script = none) : HasShape action params spec := by
  intro script hscript
  rw [hmech] at hscript
  cases hscript

theorem shellScript_program {program : String} (args : List String)
    (h : program ∉ ["sudo", "sh", "runuser"]) : shellScript (program :: args) = none := by
  simp only [List.mem_cons, List.not_mem_nil, or_false, not_or] at h
  unfold shellScript
  split
  · next heq =>
    cases heq
    exact absurd rfl h.1
  · next heq =>
    cases heq
    exact absurd rfl h.2.1
  · next heq =>
    cases heq
    exact absurd rfl h.2.2
  · rfl

theorem hasShape_of_program {program : String} {args : List String}
    (hmech : spec.mechanism = .command program args)
    (h : program ∉ ["sudo", "sh", "runuser"]) : HasShape action params spec := by
  apply hasShape_of_none
  rw [hmech]
  exact shellScript_program args h

theorem hasShape_of_sudo {program : String} {args : List String}
    (hmech : spec.mechanism = .command "sudo" (program :: args))
    (h : program ∉ ["sudo", "sh", "runuser"]) : HasShape action params spec := by
  apply hasShape_of_none
  rw [hmech]
  exact shellScript_program args h

/-- `runuser -u` runs a program without a shell. -/
theorem hasShape_of_runuser {args : List String}
    (hmech : spec.mechanism = .command "sudo" ("runuser" :: "-u" :: args)) :
    HasShape action params spec := by
  apply hasShape_of_none
  rw [hmech]
  show shellScript ("runuser" :: "-u" :: args) = none
  simp [shellScript]

/-- A file operation. -/
theorem hasShape_of_file (hmech : ∀ program args, spec.mechanism ≠ .command program args) :
    HasShape action params spec := by
  apply hasShape_of_none
  unfold ActionMechanism.script
  split
  · next program args heq => exact absurd heq (hmech program args)
  · rfl

@[simp] theorem text_render (s : String) :
    render (callerText params) (text s) = s.toList := render_fixed _ _

@[simp] theorem mem_text (quoted : Bool) (key s : String) :
    ¬ .hole quoted key ∈ text s := hole_not_mem_fixed _ _ _

@[simp] theorem mem_quotedHole {quoted : Bool} {key key' : String} :
    .hole quoted key ∈ quotedHole key' ↔ quoted = true ∧ key = key' := by
  simp [quotedHole]

/-- The podman commands of one quoted parameter. -/
theorem containerCommand_ensures (spec : String → String → ActionSpec) (cmd : String)
    {shape : List (Token String)}
    (hmech : ∀ username name,
      (spec username name).mechanism = podmanAs username (cmd ++ quoted name))
    (htemplate : scriptTemplate (isGiven params) (isEnabled params) action =
      some (text cmd ++ quotedHole "name"))
    (hshape : scriptShape (isGiven params) (isEnabled params) action = some shape) :
    Ensures (do
      let username ← validUser params
      let name ← validStr validatedSafeArg params "name"
      .ok (spec username name)) (HasShape action params) := by
  refine ensures_bind_any fun username => ?_
  refine ensures_bind fun name hname => ensures_ok ?_
  have hname := safeArg_literal (by decide) hname
  have hscript : (spec username name).mechanism.script = some (cmd ++ quoted name) := by
    rw [hmech]
    rfl
  refine hasShape_of_template hscript htemplate hshape ?_ ?_
  · simp [quotedHole, quoted, hname.1, -String.reduceToList]
  · intro quoted key hhole
    obtain ⟨rfl, rfl⟩ : quoted = true ∧ key = "name" := by simpa using hhole
    exact hname.2 true

theorem listContainers_shape (username : String) :
    HasShape .listContainers params (listContainers username) := by
  refine hasShape_of_template rfl rfl rfl ?_ ?_
  · rw [text_render]
  · intro quoted key hhole
    exact absurd hhole (mem_text _ _ _)

theorem createContainer_shape {username name image : String} (hname : Literal params "name" name)
    (himage : Literal params "image" image) :
    HasShape .createContainer params (createContainer username name image) := by
  refine hasShape_of_template rfl rfl rfl ?_ ?_
  · simp [quotedHole, quoted, hname.1, himage.1, -String.reduceToList]
  · intro quoted key hhole
    obtain ⟨rfl, rfl | rfl⟩ : quoted = true ∧ (key = "name" ∨ key = "image") := by
      simpa [and_or_left] using hhole
    · exact hname.2 true
    · exact himage.2 true

theorem configureFirewall_shape {zone service : String} {enabled : Bool}
    (hzone : Literal params "zone" zone) (hservice : Literal params "service" service)
    (henabled : isEnabled params = enabled) :
    HasShape .configureFirewall params (configureFirewall zone service enabled) := by
  refine hasShape_of_template rfl rfl rfl ?_ ?_
  · simp [hzone.1, hservice.1, henabled, -String.reduceToList]
  · intro quoted key hhole
    obtain ⟨rfl, rfl | rfl⟩ : quoted = true ∧ (key = "zone" ∨ key = "service") := by
      simpa [and_or_left] using hhole
    · exact hzone.2 true
    · exact hservice.2 true

theorem addUserToGroup_shape {username group : String} (huser : Literal params "username" username)
    (hgroup : Literal params "group" group) :
    HasShape .addUserToGroup params (addUserToGroup username group) := by
  refine hasShape_of_template rfl rfl rfl ?_ ?_
  · simp [ensureGroup, ensureGroupTemplate, huser.1, hgroup.1, -String.reduceToList]
  · intro quoted key hhole
    obtain ⟨rfl, rfl | rfl⟩ : quoted = true ∧ (key = "group" ∨ key = "username") := by
      simpa [ensureGroupTemplate, and_or_left] using hhole
    · exact hgroup.2 true
    · exact huser.2 true

theorem removeUserFromGroup_shape {username group : String}
    (huser : Literal params "username" username) (hgroup : Literal params "group" group) :
    HasShape .removeUserFromGroup params (removeUserFromGroup username group) := by
  refine hasShape_of_template rfl rfl rfl ?_ ?_
  · simp [ensureGroup, ensureGroupTemplate, huser.1, hgroup.1, -String.reduceToList]
  · intro quoted key hhole
    obtain ⟨rfl, rfl | rfl⟩ : quoted = true ∧ (key = "group" ∨ key = "username") := by
      simp only [ensureGroupTemplate, List.mem_append, mem_text, List.mem_singleton,
        Symbol.hole.injEq, false_or, or_false] at hhole
      tauto
    · exact hgroup.2 true
    · exact huser.2 true

theorem addAuthorizedKey_shape {username publicKey : String}
    (huser : Literal params "username" username)
    (hkey : callerText params "public_key" = publicKey.toList ∧
      Fits true (callerText params "public_key")) :
    HasShape .addAuthorizedKey params (addAuthorizedKey username publicKey) := by
  refine hasShape_of_template rfl rfl rfl ?_ ?_
  · simp [keysPath, keysPathTemplate, huser.1, hkey.1, -String.reduceToList]
  · intro quoted key hhole
    obtain ⟨rfl, rfl | rfl⟩ : quoted = true ∧ (key = "public_key" ∨ key = "username") := by
      simp only [keysPathTemplate, List.mem_append, mem_text, List.mem_singleton,
        Symbol.hole.injEq, false_or, or_false] at hhole
      tauto
    · exact hkey.2
    · exact huser.2 true

theorem removeAuthorizedKey_shape {username publicKey : String}
    (huser : Literal params "username" username)
    (hkey : callerText params "public_key" = publicKey.toList ∧
      Fits true (callerText params "public_key")) :
    HasShape .removeAuthorizedKey params (removeAuthorizedKey username publicKey) := by
  refine hasShape_of_template rfl rfl rfl ?_ ?_
  · simp [keysPath, keysPathTemplate, huser.1, hkey.1, -String.reduceToList]
  · intro quoted key hhole
    obtain ⟨rfl, rfl | rfl⟩ : quoted = true ∧ (key = "public_key" ∨ key = "username") := by
      simpa [keysPathTemplate, and_or_left] using hhole
    · exact hkey.2
    · exact huser.2 true

/-- With `auto_update` there is no script; otherwise the parameters stand outside
of quotes. -/
theorem snapInstall_shape {name : String} {channel : Option String} (autoUpdate : Bool)
    (hname : Literal params "name" name)
    (hchannel : OptLiteral params "channel" channel) :
    HasShape .snapInstall params (snapInstall name channel autoUpdate) := by
  cases autoUpdate with
  | true => exact hasShape_of_sudo rfl (by decide)
  | false =>
    cases channel with
    | none =>
      have hchannel : isGiven params "channel" = false := hchannel
      refine hasShape_of_template rfl rfl rfl ?_ ?_
      · simp [hchannel, hname.1, -String.reduceToList, -String.reduceAppend]
      · intro quoted key hhole
        obtain ⟨rfl, rfl⟩ : quoted = false ∧ key = "name" := by
          simpa [hchannel] using hhole
        exact hname.2 false
    | some s =>
      obtain ⟨hgiven, hchannel⟩ := hchannel
      refine hasShape_of_template rfl rfl rfl ?_ ?_
      · simp [hgiven, hchannel.1, hname.1, -String.reduceToList]
      · intro quoted key hhole
        obtain ⟨rfl, rfl | rfl⟩ : quoted = false ∧ (key = "channel" ∨ key = "name") := by
          simpa [hgiven, and_or_left] using hhole
        · exact hchannel.2 false
        · exact hname.2 false

theorem listToolboxes_shape (username : String) :
    HasShape .listToolboxes params (listToolboxes username) := by
  refine hasShape_of_template rfl rfl rfl ?_ ?_
  · simp [toolboxTemplate, -String.reduceToList, -String.reduceAppend]
  · intro quoted key hhole
    simp [toolboxTemplate] at hhole

theorem removeToolbox_shape {username name : String} (hname : Literal params "name" name) :
    HasShape .removeToolbox params (removeToolbox username name) := by
  refine hasShape_of_template rfl rfl rfl ?_ ?_
  · simp [toolboxTemplate, quotedHole, quoted, hname.1, -String.reduceToList]
  · intro quoted key hhole
    obtain ⟨rfl, rfl⟩ : quoted = true ∧ key = "name" := by
      simpa [toolboxTemplate] using hhole
    exact hname.2 true

/-- What an optional parameter adds to the command. -/
def optionText (flag : String) : Option String → String
  | some s => flag ++ quoted s
  | none => ""

theorem optionTemplate_render {key flag : String} {value : Option String}
    (hvalue : OptLiteral params key value) :
    render (callerText params)
        (if isGiven params key then text flag ++ quotedHole key else []) =
      (optionText flag value).toList := by
  cases value with
  | none =>
    have hvalue : isGiven params key = false := hvalue
    rw [hvalue]
    rfl
  | some s =>
    obtain ⟨hgiven, hs⟩ := hvalue
    rw [hgiven]
    simp [optionText, quotedHole, quoted, hs.1, -String.reduceToList]

theorem optionTemplate_fits {key flag : String} {value : Option String}
    (hvalue : OptLiteral params key value) {quoted : Bool} {key' : String}
    (hhole : .hole quoted key' ∈
      (if isGiven params key then text flag ++ quotedHole key else [])) :
    Fits quoted (callerText params key') := by
  cases value with
  | none =>
    have hvalue : isGiven params key = false := hvalue
    rw [hvalue] at hhole
    cases hhole
  | some s =>
    obtain ⟨hgiven, hs⟩ := hvalue
    obtain ⟨rfl, rfl⟩ : quoted = true ∧ key' = key := by
      simpa [hgiven] using hhole
    exact hs.2 true

theorem createToolbox_shape {username name : String} {release image : Option String}
    (hname : Literal params "name" name)
    (hrelease : OptLiteral params "release" release) (himage : OptLiteral params "image" image) :
    HasShape .createToolbox params (createToolbox username name release image) := by
  have hscript : (createToolbox username name release image).mechanism.script =
      some ("XDG_RUNTIME_DIR=/run/user/$(id -u) " ++ ("toolbox create --container " ++
        quoted name ++ optionText " --release " release ++ optionText " --image " image)) := rfl
  refine hasShape_of_template hscript rfl rfl ?_ ?_
  · simp only [toolboxTemplate, render_append, optionTemplate_render hrelease,
      optionTemplate_render himage, text_render, String.toList_append]
    simp [quotedHole, quoted, hname.1, -String.reduceToList]
  · intro quoted key hhole
    simp only [toolboxTemplate, List.mem_append, mem_text, false_or] at hhole
    rcases hhole with (hhole | hhole) | hhole
    · obtain ⟨rfl, rfl⟩ := mem_quotedHole.mp hhole
      exact hname.2 true
    · exact optionTemplate_fits hrelease hhole
    · exact optionTemplate_fits himage hhole

end Scripts

theorem specFor_shape (action : ActionName) (params : Json) :
    Ensures (specFor action params) (HasShape action params) := by
  cases action
  all_goals dsimp only [specFor]
  case configureFirewall =>
    refine ensures_bind fun zone hzone => ?_
    refine ensures_bind fun service hservice => ?_
    refine ensures_bind fun enabled henabled => ensures_ok ?_
    exact configureFirewall_shape (safeArg_literal (by decide) hzone)
      (safeArg_literal (by decide) hservice) (enabled_ok henabled)
  case snapInstall =>
    refine ensures_bind fun name hname => ?_
    refine ensures_bind fun channel hchannel => ensures_ok ?_
    exact snapInstall_shape _ (safeArg_literal (by decide) hname)
      ((validatedOpt_ensures (by decide) (Or.inr rfl)).apply hchannel)
  case listContainers => exact ensures_bind_any fun _ => ensures_ok (listContainers_shape _)
  case createContainer =>
    refine ensures_bind_any fun username => ?_
    refine ensures_bind fun name hname => ?_
    refine ensures_bind fun image himage => ensures_ok ?_
    exact createContainer_shape (safeArg_literal (by decide) hname)
      (safeArg_literal (by decide) himage)
  case startContainer =>
    exact containerCommand_ensures startContainer "podman start " (fun _ _ => rfl) rfl rfl
  case stopContainer =>
    exact containerCommand_ensures stopContainer "podman stop " (fun _ _ => rfl) rfl rfl
  case removeContainer =>
    exact containerCommand_ensures removeContainer "podman rm " (fun _ _ => rfl) rfl rfl
  case getContainerInfo =>
    exact containerCommand_ensures getContainerInfo "podman inspect " (fun _ _ => rfl) rfl rfl
  case listToolboxes => exact ensures_bind_any fun _ => ensures_ok (listToolboxes_shape _)
  case createToolbox =>
    refine ensures_bind_any fun username => ?_
    refine ensures_bind fun name hname => ?_
    refine ensures_bind fun image himage => ?_
    refine ensures_bind fun release hrelease => ensures_ok ?_
    exact createToolbox_shape (safeArg_literal (by decide) hname)
      ((validatedOpt_ensures (by decide) (Or.inl rfl)).apply hrelease)
      ((validatedOpt_ensures (by decide) (Or.inl rfl)).apply himage)
  case removeToolbox =>
    refine ensures_bind_any fun username => ?_
    refine ensures_bind fun name hname => ensures_ok ?_
    exact removeToolbox_shape (safeArg_literal (by decide) hname)
  case addUserToGroup =>
    refine ensures_bind fun username huser => ?_
    refine ensures_bind fun group hgroup => ensures_ok ?_
    exact addUserToGroup_shape (user_literal huser) (group_literal (by decide) hgroup)
  case removeUserFromGroup =>
    refine ensures_bind fun username huser => ?_
    refine ensures_bind fun group hgroup => ensures_ok ?_
    exact removeUserFromGroup_shape (user_literal huser) (group_literal (by decide) hgroup)
  case addAuthorizedKey =>
    refine ensures_bind fun username huser => ?_
    refine ensures_bind fun given hgiven => ?_
    refine ensures_bind fun publicKey hkey => ensures_ok ?_
    exact addAuthorizedKey_shape (user_literal huser) (publicKey_literal hgiven hkey)
  case removeAuthorizedKey =>
    refine ensures_bind fun username huser => ?_
    refine ensures_bind fun given hgiven => ?_
    refine ensures_bind fun publicKey hkey => ensures_ok ?_
    exact removeAuthorizedKey_shape (user_literal huser) (publicKey_literal hgiven hkey)
  -- the others have no script
  all_goals repeat refine ensures_bind_any fun _ => ?_
  case snapRefresh name =>
    cases name
    · exact ensures_ok (hasShape_of_sudo rfl (by decide))
    · exact ensures_ok (hasShape_of_sudo rfl (by decide))
  case fail2banStatus jail =>
    cases jail
    · exact ensures_ok (hasShape_of_sudo rfl (by decide))
    · exact ensures_ok (hasShape_of_sudo rfl (by decide))
  case updateFlatpak appId =>
    cases appId
    · exact ensures_ok (hasShape_of_runuser rfl)
    · exact ensures_ok (hasShape_of_runuser rfl)
  case ubuntuUpdateFlatpak appId =>
    cases appId
    · exact ensures_ok (hasShape_of_runuser rfl)
    · exact ensures_ok (hasShape_of_runuser rfl)
  case listJobHistory => exact ensures_error
  case fail2banBanIp | fail2banUnbanIp =>
    exact fail2banChecked_ensures (hasShape_of_sudo rfl (by decide))
  case grubSetKargs =>
    unfold grubSetKargs
    split
    · next spec hspec =>
      split at hspec
      · cases hspec
      · cases hspec
        exact ensures_ok (hasShape_of_sudo rfl (by decide))
    · exact ensures_error
  case ufwDeleteRule =>
    unfold ufwDeleteRule
    split
    · next spec hspec =>
      split at hspec
      · cases hspec
      · cases hspec
        exact ensures_ok (hasShape_of_sudo rfl (by decide))
    · exact ensures_error
  case resolvectlSetDns =>
    refine ensures_ite (fun _ => ensures_error) fun _ => ?_
    exact ensures_bind_any fun _ => ensures_ok (hasShape_of_sudo rfl (by decide))
  case listPackageRepositories | addPackageRepository | removePackageRepository
      | enablePackageRepository | disablePackageRepository =>
    exact ensures_ok (hasShape_of_file fun _ _ h => nomatch h)
  case listFlatpakRemotes | installFlatpak | removeFlatpak | addFlatpakRemote
      | removeFlatpakRemote | getFlatpakAppInfo | listInstalledFlatpaks | ubuntuInstallFlatpak
      | ubuntuRemoveFlatpak | ubuntuListFlatpaks =>
    exact ensures_ok (hasShape_of_runuser rfl)
  all_goals
    first
      | exact ensures_ok (hasShape_of_program rfl (by decide))
      | exact ensures_ok (hasShape_of_sudo rfl (by decide))

/-- Every script that an accepted request passes to a shell consists of the fixed
words and operators of its action, with the caller's texts inside of the words as
they are. -/
theorem injectionFree {actionName : String} {params : Json} {spec : ActionSpec} {script : String}
    (hspec : buildActionSpec actionName params = .ok spec)
    (hscript : spec.mechanism.script = some script) :
    ∃ shape, scriptShape (isGiven params) (isEnabled params) spec.actionName = some shape ∧
      tokenize script.toList = some (shape.map (Token.fill (callerText params))) := by
  have hwritten := (buildActionSpec_written hspec).1
  unfold buildActionSpec at hspec
  rw [hwritten] at hspec
  exact (specFor_shape spec.actionName params).apply hspec script hscript

/-- A key with everything in its comment that a validator lets through. -/
def sampleKeyParams : Json :=
  .object [("username", .string "alice"),
    ("public_key", .string "ssh-ed25519 AAAA \"(#<>*?~ x=y) \x7b!\x7d\"")]

theorem injectionFree_authorizedKey :
    ∃ shape, scriptShape (isGiven sampleKeyParams) (isEnabled sampleKeyParams)
        .removeAuthorizedKey = some shape ∧
      tokenize ("sed -i '\\|^ssh-ed25519 AAAA \"(#<>*?~ x=y) \x7b!\x7d\"$|d' " ++
        "'/home/alice/.ssh/authorized_keys'").toList =
        some (shape.map (Token.fill (callerText sampleKeyParams))) := by
  have hspec : buildActionSpec "RemoveAuthorizedKey" sampleKeyParams =
      .ok (removeAuthorizedKey "alice" "ssh-ed25519 AAAA \"(#<>*?~ x=y) \x7b!\x7d\"") := by
    decide +kernel
  exact injectionFree hspec (by decide +kernel)

end Sysknife
