import Mathlib.Data.List.Basic
import Mathlib.Data.List.Infix
import Sysknife.Json

/-!
# Parameter validation

The validators of `actions/validate.rs` and the parameter readers of the
executor. A validator hands back the text it was given or names the parameter it
rejects, so each one is its acceptance test under `validated`.
-/

namespace Sysknife

/-- `ExecutorError`, the I/O variant by the text it prints. -/
inductive ExecutorError where
  | unknownAction (name : String)
  | missingParam (param : String)
  | invalidParam (param : String)
  | invalidIpAddress (param value : String)
  | io (message : String)
  deriving DecidableEq, Repr

def ExecutorError.display : ExecutorError → String
  | .unknownAction name => "unknown action: " ++ name
  | .missingParam param => "missing required param: " ++ param
  | .invalidParam param => "invalid param type for: " ++ param
  | .invalidIpAddress param value =>
      "invalid IP address for param '" ++ param ++ "': '" ++ value ++ "'"
  | .io message => "io error: " ++ message

/-- What every text validator does with its acceptance test. -/
def validated (accepts : String → Bool) (s param : String) : Except ExecutorError String :=
  if accepts s then .ok s else .error (.invalidParam param)

theorem validated_ok_iff {accepts : String → Bool} {s param t : String} :
    validated accepts s param = .ok t ↔ accepts s = true ∧ t = s := by
  unfold validated
  by_cases h : accepts s = true
  · simp [h, eq_comm]
  · simp [h]

/-- A rejection names the parameter that was checked. -/
theorem validated_error {accepts : String → Bool} {s param : String} {e : ExecutorError}
    (h : validated accepts s param = .error e) : e = .invalidParam param := by
  unfold validated at h
  by_cases ha : accepts s = true
  · simp [ha] at h
  · simp only [ha, Bool.false_eq_true, if_false, Except.error.injEq] at h
    exact h.symm

/-! ## Character classes -/

/-- `char::is_ascii_alphanumeric`. -/
def isAsciiAlphanumeric (c : Char) : Bool := c.isAlphanum

/-- `char::is_ascii_control`. -/
def isAsciiControl (c : Char) : Bool := c.toNat < 0x20 || c.toNat == 0x7f

/-- `char::is_ascii`. -/
def isAscii (c : Char) : Bool := c.toNat < 0x80

/-- Every character is alphanumeric or one of `extra`. -/
def onlyChars (extra : List Char) (s : List Char) : Bool :=
  s.all fun c => isAsciiAlphanumeric c || extra.contains c

theorem notMem_of_onlyChars {extra cs : List Char} {c : Char} (h : onlyChars extra cs = true)
    (hc : isAsciiAlphanumeric c = false) (hextra : c ∉ extra) : c ∉ cs := by
  intro hmem
  have hallowed := List.all_eq_true.mp h c hmem
  rw [hc, Bool.false_or, List.contains_iff_mem] at hallowed
  exact hextra hallowed

def startsWithChar (s : String) (c : Char) : Bool := s.toList.head? == some c

/-- `str::contains` with a text. -/
def containsText (s : String) (part : List Char) : Bool := decide (part <:+: s.toList)

/-! ## Text validators -/

def usernameAccepts (s : String) : Bool :=
  !(s.isEmpty || s.utf8ByteSize > 32) && !startsWithChar s '-' &&
    onlyChars ['.', '_', '-'] s.toList

def validatedUsername (s param : String) : Except ExecutorError String :=
  validated usernameAccepts s param

def validatedGroup (s param : String) : Except ExecutorError String :=
  validatedUsername s param

def unitNameAccepts (s : String) : Bool :=
  !s.isEmpty && onlyChars ['@', '.', '_', ':', '-'] s.toList

def validatedUnitName (s param : String) : Except ExecutorError String :=
  validated unitNameAccepts s param

def hostnameAccepts (s : String) : Bool :=
  !(s.isEmpty || s.utf8ByteSize > 253) && onlyChars ['.', '-'] s.toList &&
    (s.toList.splitOn '.').all fun label => !(label.isEmpty || label.length > 63)

def validatedHostname (s param : String) : Except ExecutorError String :=
  validated hostnameAccepts s param

def timezoneAccepts (s : String) : Bool :=
  !s.isEmpty && !containsText s ['.', '.'] && onlyChars ['/', '_', '+', '-'] s.toList

def validatedTimezone (s param : String) : Except ExecutorError String :=
  validated timezoneAccepts s param

def localeAccepts (s : String) : Bool := !s.isEmpty && onlyChars ['.', '_', '-'] s.toList

def validatedLocale (s param : String) : Except ExecutorError String :=
  validated localeAccepts s param

/-- `SAFE_ARG_MAX_BYTES`. -/
def safeArgMaxBytes : Nat := 254

/-- `s.splitn(3, '/')` has two parts exactly when the text has one slash. -/
def ppaNameAccepts (s : String) : Bool :=
  match s.toList.splitOn '/' with
  | [user, ppa] =>
      !(user.isEmpty || ppa.isEmpty) && onlyChars ['.', '_', '-'] user &&
        onlyChars ['.', '_', '-'] ppa && !decide (s.utf8ByteSize > safeArgMaxBytes)
  | _ => false

def validatedPpaName (s param : String) : Except ExecutorError String :=
  validated ppaNameAccepts s param

/-- `APPARMOR_PROFILE_NAME_MAX`. -/
def apparmorProfileNameMax : Nat := 128

def apparmorPrefix : List Char := "/etc/apparmor.d/".toList

def apparmorProfileAccepts (s : String) : Bool :=
  if s.isEmpty then false
  else if startsWithChar s '/' then
    -- the absolute path form
    apparmorPrefix.isPrefixOf s.toList && !containsText s ['.', '.'] &&
      !(s.toList.drop apparmorPrefix.length).isEmpty &&
      onlyChars ['.', '_', '-', '/'] (s.toList.drop apparmorPrefix.length)
  else
    -- the profile name form
    !s.toList.contains '/' && !startsWithChar s '.' &&
      !decide (s.utf8ByteSize > apparmorProfileNameMax) && onlyChars ['.', '_', '-'] s.toList

def validatedApparmorProfile (s param : String) : Except ExecutorError String :=
  validated apparmorProfileAccepts s param

/-- `UFW_APP_NAME_MAX`. -/
def ufwAppNameMax : Nat := 64

/-- `parse::<u32>` on a text of digits. -/
def parseU32 (digits : List Char) : Option Nat :=
  let value := digits.foldl (fun n c => 10 * n + (c.toNat - 48)) 0
  if digits.isEmpty || value ≥ 2 ^ 32 then none else some value

/-- Digits only, and a port number. -/
def portAccepts (digits : List Char) : Bool :=
  !digits.isEmpty && digits.all Char.isDigit &&
    match parseU32 digits with
    | some port => !(port == 0 || port > 65535)
    | none => false

def portOrServiceAccepts (s : String) : Bool :=
  if s.isEmpty then false
  else if s.toList.contains '/' then
    -- `port/protocol`, split at the first slash
    let portPart := s.toList.takeWhile (· != '/')
    let protoPart := s.toList.drop (portPart.length + 1)
    (protoPart == "tcp".toList || protoPart == "udp".toList) && portAccepts portPart
  else if s.toList.all Char.isDigit then portAccepts s.toList
  else
    -- an application profile name
    (s.toList.head?.any Char.isAlpha) && !decide (s.utf8ByteSize > ufwAppNameMax) &&
      onlyChars ['_', '-'] s.toList

def validatedPortOrService (s param : String) : Except ExecutorError String :=
  validated portOrServiceAccepts s param

def safeArgAccepts (s : String) : Bool :=
  !(s.isEmpty || s.utf8ByteSize > safeArgMaxBytes) && !startsWithChar s '-' &&
    onlyChars ['.', '_', ':', '/', '+', '@', '-'] s.toList

def validatedSafeArg (s param : String) : Except ExecutorError String :=
  validated safeArgAccepts s param

/-! ## Reading parameters -/

/-- `require_str`. -/
def requireStr (params : Json) (key : String) : Except ExecutorError String :=
  match params.get key with
  | none => .error (.missingParam key)
  | some v => match v.asStr with
    | some s => .ok s
    | none => .error (.invalidParam key)

/-- `resolve_username`: the key `username`, or `user` when there is none. -/
def resolveUsername (params : Json) : Except ExecutorError String :=
  match (params.get "username").or (params.get "user") with
  | none => .error (.missingParam "username")
  | some v => match v.asStr with
    | some s => .ok s
    | none => .error (.invalidParam "username")

def requireBool (params : Json) (key : String) : Except ExecutorError Bool :=
  match params.get key with
  | none => .error (.missingParam key)
  | some v => match v.asBool with
    | some b => .ok b
    | none => .error (.invalidParam key)

def requireU32 (params : Json) (key : String) : Except ExecutorError UInt32 :=
  match params.get key with
  | none => .error (.missingParam key)
  | some v => match v.asU64 with
    | some n => if n < 2 ^ 32 then .ok (UInt32.ofNat n) else .error (.invalidParam key)
    | none => .error (.invalidParam key)

def requirePositiveU32 (params : Json) (key : String) : Except ExecutorError UInt32 := do
  let n ← requireU32 params key
  if n = 0 then .error (.invalidParam key) else .ok n

/-- The elements of a JSON array of strings, or a rejection. -/
def strItems (key : String) : List Json → Except ExecutorError (List String)
  | [] => .ok []
  | item :: items => do
      let s ← match item.asStr with
        | some s => .ok s
        | none => .error (.invalidParam key)
      let rest ← strItems key items
      .ok (s :: rest)

def strArrayOrEmpty (params : Json) (key : String) : Except ExecutorError (List String) :=
  match params.get key with
  | none => .ok []
  | some .null => .ok []
  | some (.array items) => strItems key items
  | some _ => .error (.invalidParam key)

/-- `get(key).and_then(as_array)` with the elements that are strings. -/
def strItemsOrEmpty (params : Json) (key : String) : List String :=
  match (params.get key).bind Json.asArray with
  | some items => items.filterMap Json.asStr
  | none => []

/-- `get(key).and_then(as_str)`. -/
def optStr (params : Json) (key : String) : Option String := (params.get key).bind Json.asStr

/-- The same with the empty text taken as absent. -/
def optNonEmptyStr (params : Json) (key : String) : Option String :=
  (optStr params key).filter fun s => !s.isEmpty

/-- `map(validate).transpose()?`. -/
def validatedOpt (value : Option String) (param : String) :
    Except ExecutorError (Option String) :=
  match value with
  | none => .ok none
  | some s => do
      let s ← validatedSafeArg s param
      .ok (some s)

/-- `iter().map(validate).collect::<Result<_, _>>()`. -/
def validatedAll (param : String) : List String → Except ExecutorError (List String)
  | [] => .ok []
  | s :: rest => do
      let s ← validatedSafeArg s param
      let rest ← validatedAll param rest
      .ok (s :: rest)

/-- The texts come back as they are, each of them accepted. -/
theorem validatedAll_ok {param : String} {l t : List String} (h : validatedAll param l = .ok t) :
    t = l ∧ ∀ s ∈ l, safeArgAccepts s = true := by
  induction l generalizing t with
  | nil =>
    cases h
    exact ⟨rfl, nofun⟩
  | cons s l ih =>
    rw [validatedAll] at h
    cases hs : validatedSafeArg s param with
    | error e =>
      rw [hs] at h
      cases h
    | ok s' =>
      cases hrest : validatedAll param l with
      | error e =>
        rw [hs, hrest] at h
        cases h
      | ok rest =>
        rw [hs, hrest] at h
        obtain ⟨haccepts, rfl⟩ := validated_ok_iff.mp hs
        obtain ⟨rfl, hall⟩ := ih hrest
        cases h
        exact ⟨rfl, List.forall_mem_cons.mpr ⟨haccepts, hall⟩⟩

def repoIdAccepts (id : String) : Bool := !id.isEmpty && onlyChars ['-', '_'] id.toList

def validatedRepoId (params : Json) : Except ExecutorError String := do
  let id ← requireStr params "repo_id"
  validated repoIdAccepts id "repo_id"

def noNewlineAccepts (val : String) : Bool :=
  !(val.toList.contains '\n' || val.toList.contains '\r')

def validatedNoNewline (params : Json) (key : String) : Except ExecutorError String := do
  let val ← requireStr params key
  validated noNewlineAccepts val key

/-- `ALLOWED_PREFIXES` of `validated_public_key`. -/
def publicKeyPrefixes : List String :=
  ["ssh-rsa", "ssh-ed25519", "ssh-ed25519-sk", "ecdsa-sha2-nistp256", "ecdsa-sha2-nistp384",
    "ecdsa-sha2-nistp521", "sk-ssh-ed25519", "sk-ecdsa-sha2-nistp256"]

def publicKeyAccepts (s : String) : Bool :=
  !(s.isEmpty || s.utf8ByteSize > 8192) &&
    publicKeyPrefixes.any (fun p => p.toList.isPrefixOf s.toList) &&
    !s.toList.any fun c =>
      ['\n', '\r', '\x27', '|', ';', '\x60', '$', '\\', '&'].contains c || !isAscii c ||
        isAsciiControl c

def validatedPublicKey (s : String) : Except ExecutorError String :=
  validated publicKeyAccepts s "public_key"

/-! ## Kernel arguments -/

/-- `str::to_lowercase`, as far as a comparison with an ASCII text can tell: the
only non-ASCII letters with an ASCII lower case are the Kelvin sign and the
dotted capital I, whose lower case is `i` and a combining dot. -/
def lowercaseChar (c : Char) : List Char :=
  if c.toNat == 0x212a then ['k']
  else if c.toNat == 0x130 then ['i', Char.ofNat 0x307]
  else [c.toLower]

def toLowercase (s : String) : List Char := s.toList.flatMap lowercaseChar

def blockedKernelPrefixes : List String :=
  ["init=", "selinux=0", "enforcing=0", "security=", "module_blacklist="]

def blockedKernelExact : List String := ["single", "s", "1"]

def blockedUnitPrefixes : List String := ["emergency", "rescue", "single"]

/-- `validated_safe_kernel_arg`: false when the argument is blocked. -/
def safeKernelArgAccepts (arg : String) : Bool :=
  let lower := toLowercase arg
  let base := lower.takeWhile (· != '=')
  !blockedKernelPrefixes.any (fun p => p.toList.isPrefixOf lower) &&
    !blockedKernelExact.any (fun e => lower == e.toList) &&
    !("systemd.unit=".toList.isPrefixOf lower &&
      blockedUnitPrefixes.any fun u =>
        u.toList.isPrefixOf (lower.drop "systemd.unit=".toList.length)) &&
    !blockedKernelExact.any (fun e => base == e.toList)

def validatedSafeKernelArg (arg : String) : Except ExecutorError Unit :=
  if safeKernelArgAccepts arg then .ok () else .error (.invalidParam "add")

end Sysknife
