import Sysknife.CallerRoles
import Sysknife.Lib.Rfc5424
import Sysknife.PostgresStore

/-!
# Forwarding of the audit log

`format_rfc5424` makes a syslog message of an audit event. The names of actions, approvals
and callers are texts from outside; they end up as values of one element of the message.
The reader of the messages is the one of the standard. The facility is whatever byte the
configuration has, and the timestamp is the text that a store put into the row.
-/

namespace Sysknife

open Calendar IntegerText Rfc5424

structure AuditEvent where
  seq : UInt64
  transactionId : String
  actionName : String
  riskLevel : RiskLevel
  summary : String
  approvalId : Option String
  createdAt : String
  chainHash : String
  keyId : String
  callerRole : Option String
  finalStatus : Option String

/-! ## Formatting -/

def sdEscapeChar (ch : Char) : List Char :=
  if ch = '"' then ['\\', '"']
  else if ch = '\\' then ['\\', '\\']
  else if ch = ']' then ['\\', ']']
  else if 0x20 ≤ ch.toNat && ch.toNat ≤ 0x7E then [ch]
  else []

def sdEscape (value : String) : String := String.ofList (value.toList.flatMap sdEscapeChar)

/-- The kernel's host name, or `-` if a message could not have it. -/
def readHostname (file : Option (List UInt8)) : String :=
  let raw := ((readToString file).map trim).getD []
  let bytes := Utf8.encode raw
  if raw.isEmpty || decide (bytes.length > 255) || !bytes.all (fun b => 0x21 ≤ b && b ≤ 0x7E) then
    "-"
  else String.ofList raw

def AuditEvent.risk (event : AuditEvent) : String :=
  match event.riskLevel with
  | .low => "low"
  | .medium => "medium"
  | .high => "high"

def AuditEvent.terminalStatusParam (event : AuditEvent) : String :=
  match event.finalStatus with
  | some s => " terminal_status=\"" ++ sdEscape s ++ "\""
  | none => ""

def AuditEvent.sd (event : AuditEvent) : String :=
  "[sysknife@32473 " ++
    "seq=\"" ++ toString event.seq.toNat ++ "\" " ++
    "tx=\"" ++ sdEscape event.transactionId ++ "\" " ++
    "action=\"" ++ sdEscape event.actionName ++ "\" " ++
    "risk=\"" ++ event.risk ++ "\" " ++
    "approval=\"" ++ sdEscape (event.approvalId.getD "") ++ "\" " ++
    "role=\"" ++ sdEscape (event.callerRole.getD "") ++ "\" " ++
    "chain_hash=\"" ++ sdEscape event.chainHash ++ "\" " ++
    "key_id=\"" ++ sdEscape event.keyId ++ "\"" ++ event.terminalStatusParam ++ "]"

/-- `facility * 8 + severity`, the severity being 5. -/
def priority (facility : UInt8) : Nat := facility.toNat * 8 + 5

def formatRfc5424 (hostnameFile : Option (List UInt8)) (pid : UInt32) (event : AuditEvent)
    (facility : UInt8) : String :=
  "<" ++ toString (priority facility) ++ ">1 " ++ event.createdAt ++ " " ++
    readHostname hostnameFile ++ " " ++ "sysknife-daemon" ++ " " ++ toString pid.toNat ++ " " ++
    "AUDIT" ++ " " ++ event.sd ++ " " ++ "[" ++ event.actionName ++ "] " ++ event.summary

/-! ## Values -/

/-- Restricted to printable ASCII. -/
def printable (value : String) : List Char :=
  value.toList.filter fun c => 0x20 ≤ c.toNat && c.toNat ≤ 0x7E

theorem sdEscape_toList (value : String) : (sdEscape value).toList = escape (printable value) := by
  rw [sdEscape, String.toList_ofList, printable]
  induction value.toList with
  | nil => rfl
  | cons c s ih =>
    rw [List.flatMap_cons, ih]
    by_cases hquote : c = '"'
    · subst hquote
      rfl
    by_cases hbackslash : c = '\\'
    · subst hbackslash
      rfl
    by_cases hbracket : c = ']'
    · subst hbracket
      rfl
    have hplain : needsEscape c = false := by simp [needsEscape, hquote, hbackslash, hbracket]
    rw [sdEscapeChar, if_neg hquote, if_neg hbackslash, if_neg hbracket, List.filter_cons]
    split
    · rw [escape, hplain]
      rfl
    · rfl

/-- The parameters that a message is to have, with their values. -/
def AuditEvent.params (event : AuditEvent) : List Param :=
  [⟨"seq".toList, Nat.toDigits 10 event.seq.toNat⟩,
    ⟨"tx".toList, printable event.transactionId⟩,
    ⟨"action".toList, printable event.actionName⟩,
    ⟨"risk".toList, event.risk.toList⟩,
    ⟨"approval".toList, printable (event.approvalId.getD "")⟩,
    ⟨"role".toList, printable (event.callerRole.getD "")⟩,
    ⟨"chain_hash".toList, printable event.chainHash⟩,
    ⟨"key_id".toList, printable event.keyId⟩] ++
    (event.finalStatus.map fun s => ⟨"terminal_status".toList, printable s⟩).toList

/-- The names of the parameters, with the one of the terminal status. -/
def paramNames : List (List Char) :=
  ["seq", "tx", "action", "risk", "approval", "role", "chain_hash", "key_id",
    "terminal_status"].map String.toList

theorem params_names (event : AuditEvent) : event.params.map Param.name <+: paramNames := by
  rw [AuditEvent.params]
  cases event.finalStatus with
  | none => exact ⟨["terminal_status".toList], rfl⟩
  | some s => exact ⟨[], rfl⟩

/-- Every name is there at most once. -/
theorem params_nodup (event : AuditEvent) : (event.params.map Param.name).Nodup := by
  have hall : paramNames.Nodup := by decide
  exact hall.sublist (params_names event).sublist

theorem params_named (event : AuditEvent) :
    Element.Named ⟨"sysknife@32473".toList, event.params⟩ := by
  have hall : ∀ name ∈ paramNames, isName name = true := by decide
  refine ⟨(by decide : isName "sysknife@32473".toList = true), ?_⟩
  intro p hp
  exact hall p.name ((params_names event).subset (List.mem_map_of_mem hp))

/-! ## The message -/

/-- The message that is written. -/
def AuditEvent.message (event : AuditEvent) (hostnameFile : Option (List UInt8)) (pid : UInt32)
    (facility : UInt8) : Rfc5424.Message where
  pri := priority facility
  version := ['1']
  timestamp := event.createdAt.toList
  hostname := (readHostname hostnameFile).toList
  appName := "sysknife-daemon".toList
  procId := Nat.toDigits 10 pid.toNat
  msgId := "AUDIT".toList
  elements := [⟨"sysknife@32473".toList, event.params⟩]
  msg := some ('[' :: (event.actionName.toList ++ ']' :: ' ' :: event.summary.toList))

theorem escape_risk (event : AuditEvent) : escape event.risk.toList = event.risk.toList := by
  rw [AuditEvent.risk]
  cases event.riskLevel <;> rfl

theorem terminalStatusParam_toList (event : AuditEvent) :
    event.terminalStatusParam.toList = writeParams
      (event.finalStatus.map fun s => ⟨"terminal_status".toList, printable s⟩).toList := by
  rw [AuditEvent.terminalStatusParam]
  cases event.finalStatus with
  | none => rfl
  | some s =>
    simp [writeParams, Param.write, sdEscape_toList]

theorem sd_toList (event : AuditEvent) :
    event.sd.toList = Element.write ⟨"sysknife@32473".toList, event.params⟩ := by
  unfold AuditEvent.sd
  simp only [String.toList_append, terminalStatusParam_toList, sdEscape_toList,
    Nat.toString_eq_ofList_toDigits, String.toList_ofList]
  simp only [Element.write, AuditEvent.params, writeParams, List.cons_append, List.flatMap_cons,
    Param.write, escape_toDigits, escape_risk, List.nil_append, List.append_assoc]
  rfl

theorem formatRfc5424_toList (hostnameFile : Option (List UInt8)) (pid : UInt32)
    (event : AuditEvent) (facility : UInt8) :
    (formatRfc5424 hostnameFile pid event facility).toList =
      (event.message hostnameFile pid facility).write := by
  unfold formatRfc5424
  simp only [String.toList_append, sd_toList, Nat.toString_eq_ofList_toDigits, String.toList_ofList]
  simp only [AuditEvent.message, Rfc5424.Message.write, Rfc5424.Message.writeBody,
    writeStructuredData, writeMsg, List.flatMap_cons, List.flatMap_nil, List.append_nil,
    List.cons_append, List.append_assoc]
  rfl

/-! ## The header -/

/-- Printable bytes are those of printable characters. -/
theorem isPrintable_of_bytes {c : Char}
    (h : ∀ b ∈ String.utf8EncodeChar c, 0x21 ≤ b ∧ b ≤ 0x7E) : isPrintable c = true := by
  rcases Utf8.encodeChar_cases c with ⟨hsmall, heq⟩ | ⟨lead, tail, heq, -, hlead, -⟩
  · have hb := h (UInt8.ofNat c.toNat) (by rw [heq]; exact List.mem_singleton_self _)
    have hbyte : (UInt8.ofNat c.toNat).toNat = c.toNat := by
      rw [UInt8.toNat_ofNat', Nat.mod_eq_of_lt (by omega)]
    rw [UInt8.le_iff_toNat_le, UInt8.le_iff_toNat_le, hbyte] at hb
    rw [isPrintable, Bool.and_eq_true, decide_eq_true_eq, decide_eq_true_eq]
    exact hb
  · have hb := h lead (by rw [heq]; exact List.mem_cons_self)
    exact absurd (UInt8.le_trans hlead hb.2) (by decide)

theorem length_le_encode (s : List Char) : s.length ≤ (Utf8.encode s).length := by
  induction s with
  | nil => exact Nat.le_refl 0
  | cons c s ih =>
    have hpos : 0 < (String.utf8EncodeChar c).length := by
      rw [String.length_utf8EncodeChar]
      exact Char.utf8Size_pos c
    rw [Utf8.encode_cons, List.length_append, List.length_cons]
    omega

theorem readHostname_headerField (file : Option (List UInt8)) :
    IsHeaderField 255 (readHostname file).toList := by
  rw [readHostname]
  generalize ((readToString file).map trim).getD [] = raw
  split
  · exact ⟨by decide, by decide, List.all_eq_true.mp (by decide)⟩
  · rename_i hok
    rw [String.toList_ofList]
    simp only [Bool.or_eq_true, not_or, decide_eq_true_eq, Bool.not_eq_true',
      Bool.not_eq_false, List.all_eq_true, Bool.and_eq_true, List.isEmpty_iff] at hok
    obtain ⟨⟨hne, hlength⟩, hbytes⟩ := hok
    have hle := length_le_encode raw
    refine ⟨hne, by omega, ?_⟩
    intro c hc
    apply isPrintable_of_bytes
    intro b hb
    exact hbytes b (List.mem_flatMap.mpr ⟨c, hc, hb⟩)

theorem appName_headerField : IsHeaderField 48 "sysknife-daemon".toList :=
  ⟨by decide, by decide, List.all_eq_true.mp (by decide)⟩

theorem msgId_headerField : IsHeaderField 32 "AUDIT".toList :=
  ⟨by decide, by decide, List.all_eq_true.mp (by decide)⟩

theorem procId_headerField (pid : UInt32) : IsHeaderField 128 (Nat.toDigits 10 pid.toNat) := by
  have hlt : pid.toNat < 10 ^ 128 := pid.toNat_lt.trans (by decide)
  refine ⟨Nat.toDigits_ne_nil, (Nat.length_toDigits_le_iff (by decide) (by decide)).mpr hlt, ?_⟩
  intro c hc
  have hdigit : c.isDigit = true := toDigits_digit hc
  have hrange : 48 ≤ c.toNat ∧ c.toNat ≤ 57 := by
    simpa [Char.isDigit, UInt32.le_iff_toNat_le] using hdigit
  rw [isPrintable, Bool.and_eq_true, decide_eq_true_eq, decide_eq_true_eq]
  omega

/-- The stores of the audit log. -/
inductive AuditBackend where
  | sqlite
  | postgres
  deriving DecidableEq

/-- The text of a moment in a row of the store. -/
def AuditBackend.createdAt : AuditBackend → Clock → String
  | .sqlite, now => createdAtText now
  | .postgres, now => nowIso now

theorem hour_lt (millis : Nat) : millis % millisPerDay / millisPerHour < 24 := by
  simp only [millisPerDay, millisPerHour]
  omega

theorem sixtieth_lt (n : Nat) : n % 60 < 60 := Nat.mod_lt n (by decide)

theorem milli_digits {ds : List Char} {millis : Nat} (h : ds ∈ some (digits 3 (millis % 1000))) :
    isDigits ds = true ∧ ds.length ≤ 6 := by
  obtain rfl := Option.mem_some.mp h
  have hlength : (digits 3 (millis % 1000)).length = 3 := length_digits _ _
  exact ⟨isDigits_digits (by decide) _, by omega⟩

/-- The timestamp of a moment, to the millisecond. -/
def timestampOf (now : Clock) : Timestamp where
  date := civil (dayOf (calendarMillis now))
  hour := ⟨calendarMillis now % millisPerDay / millisPerHour, hour_lt _⟩
  minute := ⟨calendarMillis now % millisPerDay / 60000 % 60, sixtieth_lt _⟩
  second := ⟨calendarMillis now % millisPerDay / millisPerSecond % 60, sixtieth_lt _⟩
  fraction := some (digits 3 (calendarMillis now % 1000))
  offset := .utc
  date_valid := civil_valid _
  year_lt := four_digit_year now
  fraction_digits := fun _ h => milli_digits h

theorem timestampOf_text (now : Clock) : (createdAtText now).toList = (timestampOf now).text := by
  rw [createdAtText, String.toList_ofList, dateText, timeText]
  simp [Timestamp.text, Timestamp.front, timestampOf, fractionText, Offset.text, dayOf]

/-- Postgres has the point of the fraction where the second belongs. -/
theorem nowIso_not_isTimestamp (now : Clock) : ¬ IsTimestamp (nowIso now).toList := by
  intro h
  have hlength : (civil (calendarMillis now / millisPerDay)).text.length = 10 := Date.length_text _
  have hpoint : (nowIso now).toList[17]? = some '.' := by
    rw [nowIso, String.toList_ofList, dateText]
    simp [hlength]
  have hdigit := h.second_digit hpoint
  cases hdigit

theorem createdAt_isTimestamp_iff (backend : AuditBackend) (now : Clock) :
    IsTimestamp (backend.createdAt now).toList ↔ backend = .sqlite := by
  cases backend with
  | sqlite =>
    constructor
    · intro _
      rfl
    · intro _
      exact Or.inr ⟨timestampOf now, timestampOf_text now⟩
  | postgres =>
    constructor
    · intro h
      exact absurd h (nowIso_not_isTimestamp now)
    · nofun

theorem space_digits (k n : Nat) : ' ' ∉ digits k n := by
  intro hin
  cases k with
  | zero => cases hin
  | succ k =>
    have hdigit := (isDigits_iff.mp (isDigits_digits (Nat.succ_pos k) n)).2 ' ' hin
    cases hdigit

theorem space_createdAt (backend : AuditBackend) (now : Clock) :
    ' ' ∉ (backend.createdAt now).toList := by
  cases backend with
  | sqlite =>
    rw [AuditBackend.createdAt, createdAtText, String.toList_ofList, dateText, timeText, Date.text]
    simp [space_digits]
  | postgres =>
    rw [AuditBackend.createdAt, nowIso, String.toList_ofList, dateText, Date.text]
    simp [space_digits]

/-! ## What the receiver reads -/

/-- The event as a row of the store has it. -/
def AuditEvent.storedBy (event : AuditEvent) (backend : AuditBackend) (now : Clock) : AuditEvent :=
  { event with createdAt := backend.createdAt now }

/-- What the receiver makes of the message of an event. -/
def receive (hostnameFile : Option (List UInt8)) (pid : UInt32) (event : AuditEvent)
    (facility : UInt8) : Option Rfc5424.Message :=
  Rfc5424.parse (formatRfc5424 hostnameFile pid event facility).toList

section Receiver
variable (hostnameFile : Option (List UInt8)) (pid : UInt32) (event : AuditEvent)
  (backend : AuditBackend) (now : Clock) (facility : UInt8)

theorem message_writable :
    ((event.storedBy backend now).message hostnameFile pid facility).Writable where
  version := (by decide : ' ' ∉ ['1'])
  timestamp := space_createdAt backend now
  hostname := (readHostname_headerField hostnameFile).no_space
  appName := appName_headerField.no_space
  procId := (procId_headerField pid).no_space
  msgId := msgId_headerField.no_space
  elements := List.forall_mem_singleton.mpr (params_named _)

/-- The receiver reads the message that was written, whatever the texts of the event are, if
the priority has at most three digits. -/
theorem receive_eq :
    receive hostnameFile pid (event.storedBy backend now) facility =
      if priority facility < 1000 then
        some ((event.storedBy backend now).message hostnameFile pid facility)
      else none := by
  rw [receive, formatRfc5424_toList,
    parse_write (message_writable hostnameFile pid event backend now facility)]
  rfl

theorem priority_le_iff : priority facility ≤ 191 ↔ facility ≤ 23 := by
  rw [priority, UInt8.le_iff_toNat_le]
  show _ ↔ facility.toNat ≤ 23
  omega

theorem message_valid_iff :
    ((event.storedBy backend now).message hostnameFile pid facility).Valid ↔
      facility ≤ 23 ∧ backend = .sqlite := by
  constructor
  · intro h
    exact ⟨(priority_le_iff facility).mp h.pri,
      (createdAt_isTimestamp_iff backend now).mp h.timestamp⟩
  · intro h
    exact {
      pri := (priority_le_iff facility).mpr h.1
      version := rfl
      timestamp := (createdAt_isTimestamp_iff backend now).mpr h.2
      hostname := readHostname_headerField hostnameFile
      appName := appName_headerField
      procId := procId_headerField pid
      msgId := msgId_headerField
      ids := List.nodup_singleton _ }

/-- The receiver reads a priority of the standard, and one element with exactly the
parameters of the event, each once, if and only if the facility is one of the standard's
24. The message as a whole is one of the standard if moreover the row is one of SQLite. -/
theorem formatRfc5424_valid_iff :
    (event.params.map Param.name).Nodup ∧
    ((∃ m, receive hostnameFile pid (event.storedBy backend now) facility = some m ∧
        m.pri ≤ 191 ∧ m.elements = [⟨"sysknife@32473".toList, event.params⟩]) ↔
      facility ≤ 23) ∧
    ((∃ m, receive hostnameFile pid (event.storedBy backend now) facility = some m ∧
        m.Valid ∧ m.elements = [⟨"sysknife@32473".toList, event.params⟩]) ↔
      facility ≤ 23 ∧ backend = .sqlite) := by
  have hparse := receive_eq hostnameFile pid event backend now facility
  have hpri := priority_le_iff facility
  have hvalid := message_valid_iff hostnameFile pid event backend now facility
  -- A priority that is too large is read, or has more than three digits.
  have hread : ∀ m, receive hostnameFile pid (event.storedBy backend now) facility = some m →
      m = (event.storedBy backend now).message hostnameFile pid facility := by
    intro m hm
    rw [hparse] at hm
    split at hm
    · exact (Option.some.inj hm).symm
    · cases hm
  have hwritten : facility ≤ 23 → receive hostnameFile pid (event.storedBy backend now) facility =
        some ((event.storedBy backend now).message hostnameFile pid facility) := by
    intro h
    have hle := hpri.mpr h
    rw [hparse, if_pos (by omega)]
  refine ⟨params_nodup event, ?_, ?_⟩
  · constructor
    · intro h
      obtain ⟨m, hm, hle, -⟩ := h
      obtain rfl := hread m hm
      exact hpri.mp hle
    · intro h
      exact ⟨_, hwritten h, hpri.mpr h, rfl⟩
  · constructor
    · intro h
      obtain ⟨m, hm, hok, -⟩ := h
      obtain rfl := hread m hm
      exact hvalid.mp hok
    · intro h
      exact ⟨_, hwritten h.1, hvalid.mpr h, rfl⟩

end Receiver

/-- The event of a preview. -/
def installFirefox : AuditEvent where
  seq := 42
  transactionId := "tx-abc"
  actionName := "InstallFlatpak"
  riskLevel := .medium
  summary := "Install Firefox"
  approvalId := some "appr-xyz"
  createdAt := ""
  chainHash := "deadbeef"
  keyId := "v1"
  callerRole := some "Dev"
  finalStatus := none

/-- A configured facility of 24 gives the priority 197. -/
theorem formatRfc5424_facility24 :
    ¬ ∃ m, receive none 7 (installFirefox.storedBy .sqlite 0) 24 = some m ∧
      m.pri ≤ 191 ∧ m.elements = [⟨"sysknife@32473".toList, installFirefox.params⟩] := by
  intro h
  obtain ⟨m, hm, hle, -⟩ := h
  rw [receive_eq, if_pos (by decide)] at hm
  obtain rfl := Option.some.inj hm
  exact absurd hle (by decide)

end Sysknife
