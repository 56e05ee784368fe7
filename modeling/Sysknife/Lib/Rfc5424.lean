import Mathlib.Data.List.Nodup
import Sysknife.Lib.DayCount
import Sysknife.Lib.FieldRecords
import Sysknife.Lib.IntegerText

/-!
# Syslog messages

The grammar of RFC 5424: the header fields between spaces, the elements of named
parameters in brackets, and the text. A value stands between quotes, and the quote, the
backslash and the closing bracket in it have a backslash in front. The reader takes a
written message apart into what was written.
-/

namespace Rfc5424

open Calendar FieldRecords IntegerText

structure Param where
  name : List Char
  value : List Char
  deriving DecidableEq

structure Element where
  id : List Char
  params : List Param
  deriving DecidableEq

/-- A message of no elements has `-` in their place. -/
structure Message where
  pri : Nat
  version : List Char
  timestamp : List Char
  hostname : List Char
  appName : List Char
  procId : List Char
  msgId : List Char
  elements : List Element
  msg : Option (List Char)
  deriving DecidableEq

/-! ## Values -/

def needsEscape (c : Char) : Bool := c == '"' || c == '\\' || c == ']'

def escape : List Char → List Char
  | [] => []
  | c :: s => if needsEscape c then '\\' :: c :: escape s else c :: escape s

/-- The value up to its quote, and what is behind it. A backslash in front of any other
character is a backslash. -/
def readValue : List Char → Option (List Char × List Char)
  | [] => none
  | '"' :: rest => some ([], rest)
  | ']' :: _ => none
  | '\\' :: c :: s =>
    (readValue s).map fun p => (if needsEscape c then c :: p.1 else '\\' :: c :: p.1, p.2)
  | c :: s => (readValue s).map fun p => (c :: p.1, p.2)

/-- A value is read back, whatever is behind its quote. -/
theorem readValue_escape (s rest : List Char) :
    readValue (escape s ++ '"' :: rest) = some (s, rest) := by
  induction s with
  | nil => rfl
  | cons c s ih =>
    by_cases hc : needsEscape c = true
    · rw [escape, if_pos hc, List.cons_append, List.cons_append, readValue, ih]
      simp only [Option.map_some, hc, if_true]
    · have hplain : c ≠ '"' ∧ c ≠ '\\' ∧ c ≠ ']' := by simpa [needsEscape, and_assoc] using hc
      obtain ⟨hquote, hbackslash, hbracket⟩ := hplain
      rw [escape, if_neg hc, List.cons_append, readValue, ih]
      · rfl
      · exact hquote
      · exact hbracket
      · intro d t heq
        exact absurd heq hbackslash

theorem escape_eq_self {s : List Char} (h : ∀ c ∈ s, needsEscape c = false) : escape s = s := by
  induction s with
  | nil => rfl
  | cons c s ih =>
    rw [List.forall_mem_cons] at h
    rw [escape, h.1, ih h.2]
    rfl

theorem escape_toDigits (n : Nat) : escape (Nat.toDigits 10 n) = Nat.toDigits 10 n := by
  refine escape_eq_self ?_
  intro c hc
  have hdigit : c.isDigit = true := Nat.isDigit_of_mem_toDigits (by decide) (by decide) hc
  rw [← Bool.not_eq_true, needsEscape]
  intro hspecial
  simp only [Bool.or_eq_true, beq_iff_eq] at hspecial
  rcases hspecial with (rfl | rfl) | rfl <;> cases hdigit

/-! ## Names -/

def isPrintable (c : Char) : Bool := 0x21 ≤ c.toNat && c.toNat ≤ 0x7e

def isNameChar (c : Char) : Bool := isPrintable c && c != '=' && c != ']' && c != '"'

def isName (s : List Char) : Bool := !s.isEmpty && decide (s.length ≤ 32) && s.all isNameChar

def readName (s : List Char) : Option (List Char × List Char) :=
  let name := s.takeWhile isNameChar
  if isName name then some (name, s.dropWhile isNameChar) else none

theorem readName_append {name : List Char} (h : isName name = true) {c : Char}
    (hc : isNameChar c = false) (rest : List Char) :
    readName (name ++ c :: rest) = some (name, c :: rest) := by
  have hall : ∀ d ∈ name, isNameChar d = true := by
    simp only [isName, Bool.and_eq_true, List.all_eq_true] at h
    exact h.2
  have htake : (name ++ c :: rest).takeWhile isNameChar = name := by
    rw [List.takeWhile_append_of_pos hall, List.takeWhile_cons_of_neg (by simp [hc]),
      List.append_nil]
  have hdrop : (name ++ c :: rest).dropWhile isNameChar = c :: rest := by
    rw [List.dropWhile_append_of_pos hall, List.dropWhile_cons_of_neg (by simp [hc])]
  simp only [readName, htake, hdrop, h, if_true]

/-! ## Elements -/

def readParam (s : List Char) : Option (Param × List Char) := do
  let (name, rest) ← readName s
  match rest with
  | '=' :: '"' :: rest => (readValue rest).map fun p => (⟨name, p.1⟩, p.2)
  | _ => none

/-- The parameters, each behind a space, and the bracket behind the last; every one takes
a character at least. -/
def readParams : Nat → List Char → Option (List Param × List Char)
  | fuel + 1, ' ' :: s => do
    let (param, rest) ← readParam s
    (readParams fuel rest).map fun p => (param :: p.1, p.2)
  | _, ']' :: rest => some ([], rest)
  | _, _ => none

/-- An element without its first bracket. -/
def readElement (s : List Char) : Option (Element × List Char) := do
  let (id, rest) ← readName s
  (readParams rest.length rest).map fun p => (⟨id, p.1⟩, p.2)

def readElements : Nat → List Char → Option (List Element × List Char)
  | fuel + 1, '[' :: s => do
    let (element, rest) ← readElement s
    (readElements fuel rest).map fun p => (element :: p.1, p.2)
  | _, s => some ([], s)

def readStructuredData : List Char → Option (List Element × List Char)
  | '-' :: rest => some ([], rest)
  | '[' :: s => readElements (s.length + 1) ('[' :: s)
  | _ => none

def Param.write (p : Param) : List Char := p.name ++ '=' :: '"' :: (escape p.value ++ ['"'])

def writeParams (params : List Param) : List Char := params.flatMap fun p => ' ' :: p.write

def Element.write (e : Element) : List Char := '[' :: (e.id ++ (writeParams e.params ++ [']']))

def writeStructuredData : List Element → List Char
  | [] => ['-']
  | elements => elements.flatMap Element.write

/-- The names of an element are names. -/
structure Element.Named (e : Element) : Prop where
  id : isName e.id = true
  params : ∀ p ∈ e.params, isName p.name = true

theorem readParam_write {p : Param} (h : isName p.name = true) (rest : List Char) :
    readParam (p.write ++ rest) = some (p, rest) := by
  have htext : p.write ++ rest = p.name ++ '=' :: ('"' :: (escape p.value ++ '"' :: rest)) := by
    simp [Param.write]
  have hname := readName_append h (by decide : isNameChar '=' = false)
    ('"' :: (escape p.value ++ '"' :: rest))
  rw [htext, readParam, hname]
  simp [readValue_escape]

theorem readParams_write {params : List Param} (h : ∀ p ∈ params, isName p.name = true)
    {fuel : Nat} (hfuel : params.length ≤ fuel) (rest : List Char) :
    readParams fuel (writeParams params ++ ']' :: rest) = some (params, rest) := by
  induction params generalizing fuel with
  | nil => cases fuel <;> rfl
  | cons p params ih =>
    rw [List.forall_mem_cons] at h
    rw [List.length_cons] at hfuel
    cases fuel with
    | zero => omega
    | succ fuel =>
      have hrest := @ih h.2 fuel (by omega)
      have htext : writeParams (p :: params) ++ ']' :: rest =
          ' ' :: (p.write ++ (writeParams params ++ ']' :: rest)) := by simp [writeParams]
      rw [htext, readParams, readParam_write h.1]
      simp [hrest]

theorem length_le_writeParams (params : List Param) :
    params.length ≤ (writeParams params).length := by
  induction params with
  | nil => exact Nat.le_refl 0
  | cons p params ih =>
    rw [writeParams, List.flatMap_cons, List.length_append, List.length_cons, List.length_cons]
    rw [writeParams] at ih
    omega

theorem readElement_write {e : Element} (h : e.Named) (rest : List Char) :
    readElement (e.id ++ (writeParams e.params ++ ']' :: rest)) = some (e, rest) := by
  obtain ⟨id, params⟩ := e
  have hfuel : params.length ≤ (writeParams params ++ ']' :: rest).length := by
    have hle := length_le_writeParams params
    rw [List.length_append]
    omega
  -- The name ends at the first space, or at the bracket if there are no parameters.
  have hname : readName (id ++ (writeParams params ++ ']' :: rest)) =
      some (id, writeParams params ++ ']' :: rest) := by
    cases params with
    | nil => exact readName_append h.id (by decide) rest
    | cons p params => exact readName_append h.id (by decide) _
  simp only [readElement, hname, Option.bind_eq_bind, Option.bind_some,
    readParams_write h.params hfuel rest, Option.map_some]

/-- Nothing that could be another element. -/
def EndsElements (rest : List Char) : Prop := rest.head? ≠ some '['

theorem readElements_end {rest : List Char} (h : EndsElements rest) (fuel : Nat) :
    readElements fuel rest = some ([], rest) := by
  cases fuel with
  | zero => rfl
  | succ fuel =>
    cases rest with
    | nil => rfl
    | cons c rest =>
      rw [readElements]
      intro _ s _ heq
      exact h (congrArg List.head? heq)

theorem readElements_write {elements : List Element} (h : ∀ e ∈ elements, e.Named) {fuel : Nat}
    (hfuel : elements.length ≤ fuel) {rest : List Char} (hrest : EndsElements rest) :
    readElements fuel (elements.flatMap Element.write ++ rest) = some (elements, rest) := by
  induction elements generalizing fuel with
  | nil => exact readElements_end hrest fuel
  | cons e elements ih =>
    rw [List.forall_mem_cons] at h
    rw [List.length_cons] at hfuel
    cases fuel with
    | zero => omega
    | succ fuel =>
      have hmore := @ih h.2 fuel (by omega)
      have htext : (e :: elements).flatMap Element.write ++ rest =
          '[' :: (e.id ++ (writeParams e.params ++
            ']' :: (elements.flatMap Element.write ++ rest))) := by simp [Element.write]
      rw [htext, readElements, readElement_write h.1]
      simp [hmore]

theorem length_le_writeElements (elements : List Element) :
    elements.length ≤ (elements.flatMap Element.write).length := by
  induction elements with
  | nil => exact Nat.le_refl 0
  | cons e elements ih =>
    rw [List.flatMap_cons, List.length_append, Element.write, List.length_cons, List.length_cons]
    omega

theorem readStructuredData_write {elements : List Element} (h : ∀ e ∈ elements, e.Named)
    {rest : List Char} (hrest : EndsElements rest) :
    readStructuredData (writeStructuredData elements ++ rest) = some (elements, rest) := by
  cases elements with
  | nil => rfl
  | cons e elements =>
    have hlength := length_le_writeElements (e :: elements)
    have hread := fun fuel hfuel => @readElements_write (e :: elements) h fuel hfuel rest hrest
    have htext : writeStructuredData (e :: elements) ++ rest =
        '[' :: ((e.id ++ (writeParams e.params ++ [']'])) ++
          elements.flatMap Element.write ++ rest) := by simp [writeStructuredData, Element.write]
    have hall : (e :: elements).flatMap Element.write ++ rest =
        '[' :: ((e.id ++ (writeParams e.params ++ [']'])) ++
          elements.flatMap Element.write ++ rest) := by simp [Element.write]
    rw [htext, readStructuredData, ← hall]
    apply hread
    have hsize := congrArg List.length hall
    rw [List.length_append, List.length_cons] at hsize
    omega

/-! ## Messages -/

/-- The digits of the priority. -/
def readPri (s : List Char) : Option Nat := if s.length ≤ 3 then parseDigits s else none

def readMsg : List Char → Option (Option (List Char))
  | [] => some none
  | ' ' :: msg => some (some msg)
  | _ => none

/-- The header behind the priority, the elements and the text. -/
def readBody (pri : Nat) (s : List Char) : Option Message := do
  let (version, s) ← cut ' ' s
  let (timestamp, s) ← cut ' ' s
  let (hostname, s) ← cut ' ' s
  let (appName, s) ← cut ' ' s
  let (procId, s) ← cut ' ' s
  let (msgId, s) ← cut ' ' s
  let (elements, s) ← readStructuredData s
  let msg ← readMsg s
  some ⟨pri, version, timestamp, hostname, appName, procId, msgId, elements, msg⟩

def parse : List Char → Option Message
  | '<' :: s => do
    let (pri, s) ← cut '>' s
    let pri ← readPri pri
    readBody pri s
  | _ => none

def writeMsg : Option (List Char) → List Char
  | none => []
  | some msg => ' ' :: msg

def Message.writeBody (m : Message) : List Char :=
  m.version ++ ' ' :: (m.timestamp ++ ' ' :: (m.hostname ++ ' ' :: (m.appName ++ ' ' ::
    (m.procId ++ ' ' :: (m.msgId ++ ' ' :: (writeStructuredData m.elements ++ writeMsg m.msg))))))

def Message.write (m : Message) : List Char :=
  '<' :: (Nat.toDigits 10 m.pri ++ '>' :: m.writeBody)

/-- The header fields have no spaces, and names are names. -/
structure Message.Writable (m : Message) : Prop where
  version : ' ' ∉ m.version
  timestamp : ' ' ∉ m.timestamp
  hostname : ' ' ∉ m.hostname
  appName : ' ' ∉ m.appName
  procId : ' ' ∉ m.procId
  msgId : ' ' ∉ m.msgId
  elements : ∀ e ∈ m.elements, e.Named

theorem readPri_toDigits (n : Nat) :
    readPri (Nat.toDigits 10 n) = if n < 1000 then some n else none := by
  have hlength : (Nat.toDigits 10 n).length ≤ 3 ↔ n < 10 ^ 3 :=
    Nat.length_toDigits_le_iff (by decide) (by decide)
  rw [readPri, parseDigits, if_pos (isDigits_toDigits n), value_toDigits]
  exact if_congr hlength rfl rfl

theorem readBody_writeBody {m : Message} (h : m.Writable) :
    readBody m.pri m.writeBody = some m := by
  obtain ⟨pri, version, timestamp, hostname, appName, procId, msgId, elements, msg⟩ := m
  have hend : EndsElements (writeMsg msg) := by
    cases msg with
    | none => nofun
    | some msg =>
      intro heq
      cases heq
  have hmsg : readMsg (writeMsg msg) = some msg := by
    cases msg <;> rfl
  simp only [readBody, Message.writeBody, cut_append h.version, cut_append h.timestamp,
    cut_append h.hostname, cut_append h.appName, cut_append h.procId, cut_append h.msgId,
    readStructuredData_write h.elements hend, hmsg, Option.bind_eq_bind, Option.bind_some]

/-- A written message is read back if its priority has at most three digits. -/
theorem parse_write {m : Message} (h : m.Writable) :
    parse m.write = if m.pri < 1000 then some m else none := by
  have hpri : '>' ∉ Nat.toDigits 10 m.pri := by
    intro hin
    exact absurd (Nat.isDigit_of_mem_toDigits (by decide) (by decide) hin) (by decide)
  rw [Message.write, parse, cut_append hpri]
  simp only [Option.bind_eq_bind, Option.bind_some, readPri_toDigits]
  by_cases hlt : m.pri < 1000
  · rw [if_pos hlt, if_pos hlt, Option.bind_some, readBody_writeBody h]
  · rw [if_neg hlt, if_neg hlt, Option.bind_none]

/-! ## Timestamps -/

/-- The offset of a local time: none, or hours and minutes ahead of UTC or behind. -/
inductive Offset where
  | utc
  | ahead (hour : Fin 24) (minute : Fin 60)
  | behind (hour : Fin 24) (minute : Fin 60)

def Offset.text : Offset → List Char
  | .utc => ['Z']
  | .ahead hour minute => '+' :: (digits 2 hour ++ ':' :: digits 2 minute)
  | .behind hour minute => '-' :: (digits 2 hour ++ ':' :: digits 2 minute)

/-- A timestamp with at most six digits of a second; no leap second. -/
structure Timestamp where
  date : Date
  hour : Fin 24
  minute : Fin 60
  second : Fin 60
  fraction : Option (List Char)
  offset : Offset
  date_valid : date.Valid
  year_lt : date.year < 10000
  fraction_digits : ∀ ds ∈ fraction, isDigits ds = true ∧ ds.length ≤ 6

def fractionText : Option (List Char) → List Char
  | none => []
  | some ds => '.' :: ds

/-- Up to the second. -/
def Timestamp.front (t : Timestamp) : List Char :=
  t.date.text ++ 'T' :: (digits 2 t.hour ++ ':' :: (digits 2 t.minute ++ ':' :: digits 2 t.second))

def Timestamp.text (t : Timestamp) : List Char :=
  t.front ++ (fractionText t.fraction ++ t.offset.text)

def IsTimestamp (s : List Char) : Prop := s = ['-'] ∨ ∃ t : Timestamp, s = t.text

/-- The second has its digits. -/
theorem IsTimestamp.second_digit {s : List Char} (h : IsTimestamp s) {c : Char}
    (hc : s[17]? = some c) : c.isDigit = true := by
  rcases h with rfl | ⟨t, rfl⟩
  · cases hc
  · have hdigits := (isDigits_iff.mp (isDigits_digits (by decide : 0 < 2) t.second)).2
    have hlength : t.date.text.length = 10 := Date.length_text _
    have hat : t.text[17]? = (digits 2 t.second)[0]? := by
      simp [Timestamp.text, Timestamp.front, List.getElem?_append, hlength]
    rw [hat] at hc
    exact hdigits c (List.mem_of_getElem? hc)

/-! ## Validity -/

/-- Printable characters, or `-` for no value. -/
def IsHeaderField (limit : Nat) (s : List Char) : Prop :=
  s ≠ [] ∧ s.length ≤ limit ∧ ∀ c ∈ s, isPrintable c = true

structure Message.Valid (m : Message) : Prop where
  pri : m.pri ≤ 191
  version : m.version = ['1']
  timestamp : IsTimestamp m.timestamp
  hostname : IsHeaderField 255 m.hostname
  appName : IsHeaderField 48 m.appName
  procId : IsHeaderField 128 m.procId
  msgId : IsHeaderField 32 m.msgId
  ids : (m.elements.map Element.id).Nodup

theorem IsHeaderField.no_space {limit : Nat} {s : List Char} (h : IsHeaderField limit s) :
    ' ' ∉ s := by
  intro hin
  have hprintable : isPrintable ' ' = true := h.2.2 ' ' hin
  cases hprintable

end Rfc5424
