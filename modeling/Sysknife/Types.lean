import Mathlib.Algebra.Ring.Nat
import Mathlib.Data.List.Basic

/-!
# Shared wire and storage types

The enumerations of `sysknife-types` and the text form they take in a database
column. Every one of them is a unit-only enumeration with
`rename_all = "snake_case"`, so a column holds the variant name between quotes.
-/

namespace Sysknife

inductive CallerRole where
  | observer | dev | admin | boot
  deriving DecidableEq, Repr

inductive RiskLevel where
  | low | medium | high
  deriving DecidableEq, Repr

inductive JobState where
  | queued | running | succeeded | failed | canceled | rolledBack | needsReboot
  deriving DecidableEq, Repr

/-- `role_rank` of the daemon's `auth` module. -/
def roleRank : CallerRole → Nat
  | .observer => 0
  | .dev => 1
  | .admin => 2
  | .boot => 3

/-- A unit-only enumeration as serde sees it: finitely many variants, each with
its own name. -/
class UnitEnum (α : Type) where
  variants : List α
  variantName : α → String
  mem_variants : ∀ a, a ∈ variants
  variantName_inj : ∀ a b, variantName a = variantName b → a = b

instance : UnitEnum RiskLevel where
  variants := [.low, .medium, .high]
  variantName
    | .low => "low"
    | .medium => "medium"
    | .high => "high"
  mem_variants := by intro a; cases a <;> simp
  variantName_inj := by intro a b h; cases a <;> cases b <;> simp_all

instance : UnitEnum JobState where
  variants := [.queued, .running, .succeeded, .failed, .canceled, .rolledBack, .needsReboot]
  variantName
    | .queued => "queued"
    | .running => "running"
    | .succeeded => "succeeded"
    | .failed => "failed"
    | .canceled => "canceled"
    | .rolledBack => "rolled_back"
    | .needsReboot => "needs_reboot"
  mem_variants := by intro a; cases a <;> simp
  variantName_inj := by intro a b h; cases a <;> cases b <;> simp_all

/-- `serialize_field`: a variant is written as a JSON string. -/
def serializeField {α : Type} [UnitEnum α] (value : α) : String :=
  "\"" ++ UnitEnum.variantName value ++ "\""

/-- `deserialize_field` on a column. Columns are written by `serializeField`
only, so the other JSON spellings of a variant are not represented. -/
def deserializeField {α : Type} [UnitEnum α] (value : String) : Option α :=
  (UnitEnum.variants (α := α)).find? fun a => serializeField a == value

section Columns
variable {α : Type} [UnitEnum α]

theorem serializeField_inj {a b : α} (h : serializeField a = serializeField b) : a = b := by
  apply UnitEnum.variantName_inj
  have ht := congrArg String.toList h
  simp only [serializeField, String.toList_append, List.append_assoc] at ht
  have hb := List.append_cancel_right (List.append_cancel_left ht)
  exact String.toList_inj.mp hb

/-- What a column was written from is what it reads back as. -/
@[simp] theorem deserializeField_serializeField (a : α) :
    deserializeField (serializeField a) = some a := by
  unfold deserializeField
  cases hf : (UnitEnum.variants (α := α)).find? fun b => serializeField b == serializeField a with
  | none =>
    have hno := List.find?_eq_none.mp hf a (UnitEnum.mem_variants a)
    simp at hno
  | some b =>
    have hb := List.find?_some hf
    exact congrArg some (serializeField_inj (eq_of_beq hb))

end Columns

/-! ## Job states -/

/-- `allowed_transition` of the daemon's `jobs` module. -/
def allowedTransition : JobState → JobState → Bool
  | .queued, .running => true
  | .queued, .canceled => true
  | .running, .succeeded => true
  | .running, .failed => true
  | .running, .canceled => true
  | .running, .rolledBack => true
  | .running, .needsReboot => true
  | _, _ => false

/-- `JobStateMachine::is_terminal`. -/
def JobState.isTerminal : JobState → Bool
  | .succeeded | .failed | .canceled | .rolledBack | .needsReboot => true
  | .queued | .running => false

/-- Nothing leaves a terminal state. -/
theorem allowedTransition_terminal {current next : JobState} (h : current.isTerminal = true) :
    allowedTransition current next = false := by
  cases current <;> cases next <;> first | rfl | cases h

/-- Nothing enters `Queued`. -/
theorem allowedTransition_queued (current : JobState) :
    allowedTransition current .queued = false := by
  cases current <;> rfl

/-! ## Digests -/

/-- A 256-bit hash value. -/
abbrev Digest := Vector UInt8 32

def hexDigit (n : Nat) : Char := Nat.digitChar n

def hexValue (c : Char) : Nat := if c.isDigit then c.toNat - 48 else c.toNat - 87

theorem hexValue_hexDigit : ∀ n < 16, hexValue (hexDigit n) = n := by decide

/-- `{b:02x}`. -/
def hexByte (b : UInt8) : List Char := [hexDigit (b.toNat / 16), hexDigit (b.toNat % 16)]

/-- Lower-case hexadecimal, two digits a byte. -/
def hexEncode (digest : Digest) : String := String.ofList (digest.toList.flatMap hexByte)

/-- The hash functions of the `sha2` and `hmac` crates. -/
structure Crypto where
  sha256 : List UInt8 → Digest
  hmacSha256 : List UInt8 → List UInt8 → Digest

/-- The UTF-8 bytes of a text. -/
def utf8 (s : String) : List UInt8 := s.toByteArray.data.toList

theorem utf8_injective : Function.Injective utf8 := by
  intro s t h
  apply String.toByteArray_inj.mp
  exact ByteArray.ext (Array.toList_inj.mp h)

theorem utf8_ofList (cs : List Char) :
    utf8 (String.ofList cs) = cs.flatMap String.utf8EncodeChar := by
  show (cs.flatMap String.utf8EncodeChar).toByteArray.data.toList = _
  rw [List.data_toByteArray]

theorem utf8_append (s t : String) : utf8 (s ++ t) = utf8 s ++ utf8 t := by
  simp [utf8, String.toByteArray_append, ByteArray.data_append]

/-- A text begins with another exactly where its bytes do. -/
theorem toList_prefix_iff {s t : String} : s.toList <+: t.toList ↔ utf8 s <+: utf8 t := by
  constructor
  · rintro ⟨rest, h⟩
    have htext : t = s ++ String.ofList rest := by
      rw [← String.toList_inj, String.toList_append, String.toList_ofList, h]
    rw [htext, utf8_append]
    exact List.prefix_append ..
  · rintro ⟨rest, h⟩
    apply List.isPrefix_of_utf8Encode_append_eq_utf8Encode rest.toByteArray
    rw [String.utf8Encode_toList, String.utf8Encode_toList]
    ext1
    rw [ByteArray.data_append, List.data_toByteArray, ← Array.toList_inj, Array.toList_append]
    exact h

/-- The digest of a row is never the empty text that starts a chain. -/
theorem hexEncode_ne_empty (digest : Digest) : hexEncode digest ≠ "" := by
  intro h
  have hlen := congrArg (fun s => s.toList.length) h
  simp [hexEncode, hexByte, List.length_flatMap] at hlen

end Sysknife
