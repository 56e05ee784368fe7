import Sysknife.AuditTime
import Sysknife.Lib.Fallible
import Sysknife.Lib.FieldRecords
import Sysknife.Lib.Utf8

/-!
# Security events for journald

`try_send` writes the fields of an entry into one datagram of journald's native protocol,
and the audit log of the safety fence sends its entries that way. The reader here is the
protocol's. Intents and reasons are texts of a user or of a model, with lines of their own.
-/

namespace Sysknife

open FieldRecords Fallible

/-! ## Sending -/

/-- `as_bytes`. -/
def asBytes (s : String) : List UInt8 := Utf8.encode s.toList

/-- One round of the loop in `try_send`. -/
def fieldBytes : String × String → List UInt8
  | (key, value) =>
    if '\n' ∈ value.toList then
      asBytes key ++ 0x0a :: (leBytes 8 (asBytes value).length ++ (asBytes value ++ [0x0a]))
    else
      asBytes key ++ 0x3d :: (asBytes value ++ [0x0a])

/-- `try_send`: the datagram that goes to the journal socket, if there is one. -/
def trySend (socketExists : Bool) (fields : List (String × String)) : Option (List UInt8) :=
  if socketExists then some (fields.flatMap fieldBytes) else none

/-- The entry of `log_rejection` when the file could not be written. -/
def writeFailureFields (e intent reason : String) : List (String × String) :=
  [("PRIORITY", "3"),
   ("SYSLOG_IDENTIFIER", "sysknife-brain"),
   ("MESSAGE", "SysKnife audit JSONL write failed: " ++ e),
   ("SYSKNIFE_EVENT", "audit_write_failure"),
   ("SYSKNIFE_INTENT", intent),
   ("SYSKNIFE_REASON", reason)]

def rejectionFields (intent reason timestamp : String) : List (String × String) :=
  [("PRIORITY", "4"),
   ("SYSLOG_IDENTIFIER", "sysknife-brain"),
   ("MESSAGE", "SysKnife safety fence rejection: " ++ reason),
   ("SYSKNIFE_EVENT", "safety_fence_rejection"),
   ("SYSKNIFE_INTENT", intent),
   ("SYSKNIFE_REASON", reason),
   ("SYSKNIFE_TIMESTAMP", timestamp)]

/-- The entries that `log_rejection` sends, with what became of the line in the file. -/
def logRejection (appended : Except String Unit) (intent reason : String) (now : Int) :
    List (List (String × String)) :=
  match appended with
  | .ok () => [rejectionFields intent reason (formatRfc3339 now)]
  | .error e => [writeFailureFields e intent reason,
      rejectionFields intent reason (formatRfc3339 now)]

/-! ## The native protocol -/

/-- `u64::to_le_bytes` and back. -/
def u64Le : Framing.LengthHeader UInt8 where
  width := 8
  capacity := 2 ^ 64 - 1
  encode := leBytes 8
  decode := leValue
  width_pos := by decide
  length_encode := length_leBytes 8
  decode_encode _ h := leValue_leBytes (Nat.lt_of_le_of_lt h (by decide))

/-- `[A-Z0-9_]`. -/
def isKeyChar (c : Char) : Bool := c.isUpper || c.isDigit || c == '_'

def isJournalKey (key : String) : Bool := !key.toList.isEmpty && key.toList.all isKeyChar

def decodeText (bytes : List UInt8) : Option String := (Utf8.decode bytes).map String.ofList

/-- A field as text, if its name is one. -/
def decodeField (field : List UInt8 × List UInt8) : Option (String × String) := do
  let key ← decodeText field.1
  let value ← decodeText field.2
  if isJournalKey key then some (key, value) else none

/-- The fields of a datagram. -/
def parseDatagram (datagram : List UInt8) : Option (List (String × String)) := do
  let fields ← parse 0x3d 0x0a u64Le (fun key => (decodeText key).any isJournalKey) datagram
  fields.mapM decodeField

/-- A field as its callers are asked to make it, with a length that fits the header. -/
structure JournalField (field : String × String) : Prop where
  key : isJournalKey field.1 = true
  length : (asBytes field.2).length < 2 ^ 64

theorem decodeText_asBytes (s : String) : decodeText (asBytes s) = some s := by
  have hdecode : Utf8.decode (asBytes s) = some s.toList := Utf8.decode_eq_some.mpr rfl
  rw [decodeText, hdecode, Option.map_some, String.ofList_toList]

/-- A character of one byte is in a text where its byte is in the bytes. -/
theorem mem_asBytes {s : String} {c : Char} (hc : c.toNat < 0x80) :
    UInt8.ofNat c.toNat ∈ asBytes s ↔ c ∈ s.toList := by
  have hbyte : (UInt8.ofNat c.toNat).toNat = c.toNat := by
    rw [UInt8.toNat_ofNat']
    omega
  have hlow : UInt8.ofNat c.toNat < 0x80 := by
    rw [UInt8.lt_iff_toNat_lt, hbyte]
    exact hc
  unfold asBytes Utf8.encode
  rw [List.mem_flatMap]
  constructor
  · intro h
    obtain ⟨d, hd, hmem⟩ := h
    have heq := (Utf8.eq_of_mem_encodeChar hlow hmem).2
    rw [hbyte] at heq
    have hdc : d = c := Char.toNat_inj.mp heq
    exact hdc ▸ hd
  · intro hmem
    exact ⟨c, hmem, by rw [Utf8.encodeChar_ascii hc]; exact List.mem_singleton_self _⟩

/-- What the loop writes is a field of the protocol. -/
theorem fieldBytes_eq (field : String × String) :
    fieldBytes field = writeField 0x3d 0x0a u64Le (asBytes field.1, asBytes field.2) := by
  obtain ⟨key, value⟩ := field
  have hline : (0x0a : UInt8) ∈ asBytes value ↔ '\n' ∈ value.toList :=
    mem_asBytes (c := '\n') (by decide)
  rw [fieldBytes, writeField]
  by_cases h : '\n' ∈ value.toList
  · rw [if_pos h, if_pos (hline.mpr h)]
    rfl
  · rw [if_neg h, if_neg (mt hline.mp h)]
    rfl

theorem isJournalKey_chars {key : String} (h : isJournalKey key = true) :
    ∀ c ∈ key.toList, isKeyChar c = true := by
  rw [isJournalKey, Bool.and_eq_true] at h
  exact List.all_eq_true.mp h.2

theorem JournalField.writable {field : String × String} (h : JournalField field) :
    Writable 0x3d 0x0a u64Le (fun key => (decodeText key).any isJournalKey)
      (asBytes field.1, asBytes field.2) := by
  have hchars := isJournalKey_chars h.key
  constructor
  · simp [decodeText_asBytes, h.key]
  · intro hmem
    have hassign := hchars '=' ((mem_asBytes (c := '=') (by decide)).mp hmem)
    exact absurd hassign (by decide)
  · intro hmem
    have hline := hchars '\n' ((mem_asBytes (c := '\n') (by decide)).mp hmem)
    exact absurd hline (by decide)
  · exact Nat.le_pred_of_lt h.length

theorem decodeField_asBytes {field : String × String} (h : isJournalKey field.1 = true) :
    decodeField (asBytes field.1, asBytes field.2) = some field := by
  simp [decodeField, decodeText_asBytes, h]

theorem parseDatagram_fields {fields : List (String × String)}
    (h : ∀ field ∈ fields, JournalField field) :
    parseDatagram (fields.flatMap fieldBytes) = some fields := by
  have hbytes : fields.flatMap fieldBytes =
      (fields.map fun field => (asBytes field.1, asBytes field.2)).flatMap
        (writeField 0x3d 0x0a u64Le) := by
    rw [List.flatMap_map, funext fieldBytes_eq]
  have hwritable : ∀ field ∈ fields.map (fun field => (asBytes field.1, asBytes field.2)),
      Writable 0x3d 0x0a u64Le (fun key => (decodeText key).any isJournalKey) field := by
    simp only [List.forall_mem_map]
    exact fun field hfield => (h field hfield).writable
  have hdecode : (fields.map fun field => (asBytes field.1, asBytes field.2)).mapM decodeField =
      some fields := by
    rw [mapM_some_iff, List.forall₂_map_left_iff, List.forall₂_same]
    exact fun field hfield => decodeField_asBytes (h field hfield).key
  rw [parseDatagram, hbytes, parse_writeFields (by decide) hwritable]
  exact hdecode

/-- The datagram of an entry is read as the fields of the entry. -/
theorem trySend_decodes (socketExists : Bool) (fields : List (String × String))
    (h : ∀ field ∈ fields, isJournalKey field.1 = true ∧ (asBytes field.2).length < 2 ^ 64)
    {datagram : List UInt8} (hsent : trySend socketExists fields = some datagram) :
    parseDatagram datagram = some fields := by
  rw [trySend] at hsent
  split_ifs at hsent
  rw [← Option.some.inj hsent]
  exact parseDatagram_fields fun field hfield => ⟨(h field hfield).1, (h field hfield).2⟩

/-- A reason with a line that looks like a field of its own. -/
theorem trySend_decodes_forged :
    parseDatagram ([("SYSKNIFE_REASON", "no\nSYSKNIFE_EVENT=ok"), ("PRIORITY", "4")].flatMap
      fieldBytes) = some [("SYSKNIFE_REASON", "no\nSYSKNIFE_EVENT=ok"), ("PRIORITY", "4")] :=
  trySend_decodes true _ (by decide) rfl

theorem writeFailureFields_keys (e intent reason : String) :
    ∀ field ∈ writeFailureFields e intent reason, isJournalKey field.1 = true := by
  simp only [writeFailureFields, List.forall_mem_cons, List.not_mem_nil, false_implies,
    implies_true]
  decide

theorem rejectionFields_keys (intent reason timestamp : String) :
    ∀ field ∈ rejectionFields intent reason timestamp, isJournalKey field.1 = true := by
  simp only [rejectionFields, List.forall_mem_cons, List.not_mem_nil, false_implies, implies_true]
  decide

theorem logRejection_keys {appended : Except String Unit} {intent reason : String} {now : Int}
    {fields : List (String × String)} (h : fields ∈ logRejection appended intent reason now) :
    ∀ field ∈ fields, isJournalKey field.1 = true := by
  cases appended with
  | ok _ =>
    obtain rfl := List.mem_singleton.mp h
    exact rejectionFields_keys intent reason _
  | error e =>
    rcases List.mem_cons.mp h with rfl | h
    · exact writeFailureFields_keys e intent reason
    · obtain rfl := List.mem_singleton.mp h
      exact rejectionFields_keys intent reason _

/-- No intent and no reason adds a field to an entry of the audit log. -/
theorem logRejection_decoded {appended : Except String Unit} {intent reason : String} {now : Int}
    {fields : List (String × String)} (h : fields ∈ logRejection appended intent reason now)
    (hlength : ∀ field ∈ fields, (asBytes field.2).length < 2 ^ 64) :
    parseDatagram (fields.flatMap fieldBytes) = some fields :=
  parseDatagram_fields fun field hfield => ⟨logRejection_keys h field hfield, hlength field hfield⟩

end Sysknife
