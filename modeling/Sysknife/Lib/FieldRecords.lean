import Sysknife.Lib.Framing
import Mathlib.Data.UInt

/-!
# Records of named fields

A stream of fields, each in one of two encodings: the name, `assign`, the value and the
end of the line, or the name on a line of its own, the length of the value in a header of
fixed width, the value and the end of a line. The first line of a field shows which of
the two it is, and a length is believed whatever the value has in it.
-/

namespace FieldRecords

open Framing

variable {γ : Type} [DecidableEq γ]

/-- What is in front of the first `x`, and what is behind it. -/
def cut (x : γ) : List γ → Option (List γ × List γ)
  | [] => none
  | c :: s => if c = x then some ([], s) else (cut x s).map fun p => (c :: p.1, p.2)

theorem cut_append {x : γ} {a : List γ} (h : x ∉ a) (b : List γ) :
    cut x (a ++ x :: b) = some (a, b) := by
  induction a with
  | nil => exact if_pos rfl
  | cons c a ih =>
    rw [List.mem_cons, not_or] at h
    rw [List.cons_append, cut, if_neg (Ne.symm h.1), ih h.2]
    rfl

theorem cut_none {x : γ} {a : List γ} (h : x ∉ a) : cut x a = none := by
  induction a with
  | nil => rfl
  | cons c a ih =>
    rw [List.mem_cons, not_or] at h
    rw [cut, if_neg (Ne.symm h.1), ih h.2]
    rfl

/-! ## Lengths -/

/-- The lowest `width` bytes of a number, the lowest first. -/
def leBytes : Nat → Nat → List UInt8
  | 0, _ => []
  | width + 1, n => UInt8.ofNat n :: leBytes width (n / 256)

def leValue (bytes : List UInt8) : Nat := bytes.foldr (fun b n => b.toNat + 256 * n) 0

theorem length_leBytes (width n : Nat) : (leBytes width n).length = width := by
  induction width generalizing n with
  | zero => rfl
  | succ width ih => rw [leBytes, List.length_cons, ih]

theorem leValue_leBytes {width n : Nat} (h : n < 256 ^ width) :
    leValue (leBytes width n) = n := by
  induction width generalizing n with
  | zero =>
    rw [Nat.pow_zero] at h
    rw [Nat.lt_one_iff.mp h]
    rfl
  | succ width ih =>
    rw [Nat.pow_succ] at h
    have hrest : leValue (leBytes width (n / 256)) = n / 256 := ih (Nat.div_lt_of_lt_mul (by omega))
    have hlow : (UInt8.ofNat n).toNat = n % 256 := UInt8.toNat_ofNat'
    show (UInt8.ofNat n).toNat + 256 * leValue (leBytes width (n / 256)) = n
    rw [hrest, hlow]
    omega

/-! ## Writing and reading -/

section Fields
variable (assign nl : γ) (header : LengthHeader γ) (isKey : List γ → Bool)

def textField (key value : List γ) : List γ := key ++ assign :: (value ++ [nl])

def binaryField (key value : List γ) : List γ :=
  key ++ nl :: (header.encode value.length ++ (value ++ [nl]))

/-- A value with an end of line in it goes out behind its length. -/
def writeField (field : List γ × List γ) : List γ :=
  if nl ∈ field.2 then binaryField nl header field.1 field.2
  else textField assign nl field.1 field.2

/-- A value of the length that stands in front of it, and the end of a line. -/
def readSized (s : List γ) : Option (List γ × List γ) :=
  let value := s.drop header.width
  let len := header.decode (s.take header.width)
  match value.drop len with
  | c :: rest => if c = nl then some (value.take len, rest) else none
  | [] => none

/-- The first field, and what is behind it. -/
def readField (s : List γ) : Option ((List γ × List γ) × List γ) := do
  let (line, rest) ← cut nl s
  match cut assign line with
  | some (key, value) => if isKey key then some ((key, value), rest) else none
  | none => do
    let (value, rest) ← readSized nl header rest
    if isKey line then some ((line, value), rest) else none

/-- All fields; every one takes a symbol at least. -/
def readFields : Nat → List γ → Option (List (List γ × List γ))
  | _, [] => some []
  | 0, _ :: _ => none
  | fuel + 1, s => do
    let (field, rest) ← readField assign nl header isKey s
    (field :: ·) <$> readFields fuel rest

/-- The fields of a record. -/
def parse (s : List γ) : Option (List (List γ × List γ)) :=
  readFields assign nl header isKey s.length s

variable {assign nl header isKey}

/-- Names are told from values, and values are no longer than a header can say. -/
structure Writable (assign nl : γ) (header : LengthHeader γ) (isKey : List γ → Bool)
    (field : List γ × List γ) : Prop where
  key : isKey field.1 = true
  assign : assign ∉ field.1
  nl : nl ∉ field.1
  length : field.2.length ≤ header.capacity

theorem readSized_append {value : List γ} (h : value.length ≤ header.capacity) (rest : List γ) :
    readSized nl header (header.encode value.length ++ (value ++ nl :: rest)) =
      some (value, rest) := by
  have hwidth := header.length_encode value.length
  have hvalue : (header.encode value.length ++ (value ++ nl :: rest)).drop header.width =
      value ++ nl :: rest := List.drop_left' hwidth
  have hlen : header.decode ((header.encode value.length ++ (value ++ nl :: rest)).take
      header.width) = value.length := by
    rw [List.take_left' hwidth, header.decode_encode _ h]
  simp only [readSized, hvalue, hlen, List.drop_left, List.take_left, if_true]

/-- A field is read back, whatever is behind it. -/
theorem readField_writeField (hne : assign ≠ nl) {field : List γ × List γ}
    (h : Writable assign nl header isKey field) (rest : List γ) :
    readField assign nl header isKey (writeField assign nl header field ++ rest) =
      some (field, rest) := by
  obtain ⟨key, value⟩ := field
  by_cases hvalue : nl ∈ value
  · have htext : writeField assign nl header (key, value) ++ rest =
        key ++ nl :: (header.encode value.length ++ (value ++ nl :: rest)) := by
      simp [writeField, hvalue, binaryField]
    have hline := cut_append h.nl (header.encode value.length ++ (value ++ nl :: rest))
    rw [htext, readField, hline]
    simp [cut_none h.assign, readSized_append h.length rest, h.key]
  · have htext : writeField assign nl header (key, value) ++ rest =
        (key ++ assign :: value) ++ nl :: rest := by
      simp [writeField, hvalue, textField]
    have hunbroken : nl ∉ key ++ assign :: value := by
      rw [List.mem_append, List.mem_cons]
      intro h
      rcases h with hkey | heq | hmem
      · exact h.nl hkey
      · exact hne heq.symm
      · exact hvalue hmem
    rw [htext, readField, cut_append hunbroken]
    simp [cut_append h.assign value, h.key]

theorem writeField_ne_nil (field : List γ × List γ) : writeField assign nl header field ≠ [] := by
  unfold writeField
  split <;> simp [binaryField, textField]

theorem readFields_writeFields (hne : assign ≠ nl) {fields : List (List γ × List γ)}
    (h : ∀ field ∈ fields, Writable assign nl header isKey field) {fuel : Nat}
    (hfuel : (fields.flatMap (writeField assign nl header)).length ≤ fuel) :
    readFields assign nl header isKey fuel (fields.flatMap (writeField assign nl header)) =
      some fields := by
  induction fields generalizing fuel with
  | nil => cases fuel <;> rfl
  | cons field fields ih =>
    rw [List.forall_mem_cons] at h
    rw [List.flatMap_cons] at hfuel ⊢
    have hne_nil : writeField assign nl header field ≠ [] := writeField_ne_nil field
    obtain ⟨c, front, hfront⟩ := List.exists_cons_of_ne_nil hne_nil
    have hread := readField_writeField hne h.1 (fields.flatMap (writeField assign nl header))
    rw [hfront] at hfuel hread ⊢
    simp only [List.cons_append, List.length_cons, List.length_append] at hfuel
    cases fuel with
    | zero => omega
    | succ fuel =>
      have hrest : readFields assign nl header isKey fuel
          (fields.flatMap (writeField assign nl header)) = some fields := ih h.2 (by omega)
      simp only [List.cons_append] at hread ⊢
      simp [readFields, hread, hrest]

/-- A record is read as the fields that were written, in their order. -/
theorem parse_writeFields (hne : assign ≠ nl) {fields : List (List γ × List γ)}
    (h : ∀ field ∈ fields, Writable assign nl header isKey field) :
    parse assign nl header isKey (fields.flatMap (writeField assign nl header)) = some fields :=
  readFields_writeFields hne h (le_refl _)

end Fields

end FieldRecords
