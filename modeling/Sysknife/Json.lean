import Mathlib.Data.List.Basic
import Mathlib.Data.Fin.Basic
import Sysknife.Lib.Codec
import Sysknife.Types

/-!
# JSON values as `serde_json` holds and prints them

Object members are listed in some order; `UniqueKeys` is the map invariant. The
compact printer is the `Display` of `serde_json::Value`. A float is kept as the
text its printer gives it, since nothing here computes with floats.
-/

namespace Sysknife

open Codec

/-- The characters a JSON number is spelled with. -/
def isNumberChar (c : Char) : Bool := c.isDigit || c == '-' || c == '+' || c == '.' || c == 'e'

/-- A finite `f64`, spelled by the float printer: always with a point or an exponent. -/
structure FloatText where
  text : String
  digits : ∀ c ∈ text.toList, isNumberChar c = true
  point : '.' ∈ text.toList ∨ 'e' ∈ text.toList

/-- `serde_json::Number`. `negInt m` stands for `-(m + 1)`. -/
inductive Number where
  | posInt (n : Fin (2 ^ 64))
  | negInt (m : Fin (2 ^ 63))
  | float (f : FloatText)

instance posInt_neZero : NeZero (2 ^ 64) := ⟨by decide⟩

def Number.render : Number → List Char
  | .posInt n => Nat.toDigits 10 n.val
  | .negInt m => '-' :: Nat.toDigits 10 (m.val + 1)
  | .float f => f.text.toList

inductive Json where
  | null
  | bool (b : Bool)
  | number (n : Number)
  | string (s : String)
  | array (items : List Json)
  | object (fields : List (String × Json))

namespace Json

/-- `Value::get` with a string index: `None` on anything but an object. -/
def get : Json → String → Option Json
  | .object fields, key => fields.lookup key
  | _, _ => none

def asStr : Json → Option String
  | .string s => some s
  | _ => none

def asBool : Json → Option Bool
  | .bool b => some b
  | _ => none

def asU64 : Json → Option Nat
  | .number (.posInt n) => some n.val
  | _ => none

def asArray : Json → Option (List Json)
  | .array items => some items
  | _ => none

end Json

/-! ## Strings -/

/-- The escape table of `serde_json`. -/
def escapeChar (c : Char) : List Char :=
  if c = '"' then ['\\', '"']
  else if c = '\\' then ['\\', '\\']
  else if c = '\x08' then ['\\', 'b']
  else if c = '\x0c' then ['\\', 'f']
  else if c = '\n' then ['\\', 'n']
  else if c = '\r' then ['\\', 'r']
  else if c = '\t' then ['\\', 't']
  else if c.toNat < 0x20 then ['\\', 'u', '0', '0', hexDigit (c.toNat / 16), hexDigit (c.toNat % 16)]
  else [c]

/-- One character of a string body that `escapeChar` wrote, with the rest. -/
def readChar : List Char → Option (Char × List Char)
  | '\\' :: '"' :: rest => some ('"', rest)
  | '\\' :: '\\' :: rest => some ('\\', rest)
  | '\\' :: 'b' :: rest => some ('\x08', rest)
  | '\\' :: 'f' :: rest => some ('\x0c', rest)
  | '\\' :: 'n' :: rest => some ('\n', rest)
  | '\\' :: 'r' :: rest => some ('\r', rest)
  | '\\' :: 't' :: rest => some ('\t', rest)
  | '\\' :: 'u' :: '0' :: '0' :: h :: l :: rest =>
      some (Char.ofNat (16 * hexValue h + hexValue l), rest)
  | '\\' :: _ => none
  | '"' :: _ => none
  | c :: rest => some (c, rest)
  | [] => none

/-- A JSON string: the body escaped, between quotes. -/
def jsonString (s : String) : List Char := '"' :: (s.toList.flatMap escapeChar ++ ['"'])

theorem readChar_escapeChar (c : Char) (rest : List Char) :
    readChar (escapeChar c ++ rest) = some (c, rest) := by
  unfold escapeChar
  split
  · subst_vars; rfl
  split
  · subst_vars; rfl
  split
  · subst_vars; rfl
  split
  · subst_vars; rfl
  split
  · subst_vars; rfl
  split
  · subst_vars; rfl
  split
  · subst_vars; rfl
  split
  · -- a control character without a short escape
    have hh := hexValue_hexDigit (c.toNat / 16) (by omega)
    have hl := hexValue_hexDigit (c.toNat % 16) (by omega)
    have hval : 16 * (c.toNat / 16) + c.toNat % 16 = c.toNat := by omega
    simp only [List.cons_append, List.nil_append, readChar, hh, hl, hval, Char.ofNat_toNat]
  · rename_i hb _ _ _ _ _ _
    simp [readChar, hb]

theorem delimited_escapeChar : Delimited escapeChar := by
  intro a b s t he
  have hread := congrArg readChar he
  rw [readChar_escapeChar, readChar_escapeChar] at hread
  simpa using hread

theorem escapeChar_ne_quote (c : Char) (s t : List Char) : escapeChar c ++ s ≠ '"' :: t := by
  intro he
  have hread := congrArg readChar he
  rw [readChar_escapeChar] at hread
  simp [readChar] at hread

theorem delimited_jsonString : Delimited jsonString := by
  have hbody := delimited_escaped delimited_escapeChar escapeChar_ne_quote
  exact (hbody.comp (f := String.toList) (fun _ _ h => String.toList_inj.mp h)).header ['"']

theorem hexDigit_not_control : ∀ n < 16, ¬ (hexDigit n).toNat < 0x20 := by decide

theorem escapeChar_no_control (d : Char) : ∀ c ∈ escapeChar d, ¬ c.toNat < 0x20 := by
  unfold escapeChar
  split
  · simp
  split
  · simp
  split
  · simp
  split
  · simp
  split
  · simp
  split
  · simp
  split
  · simp
  split
  · have hh := hexDigit_not_control (d.toNat / 16) (by omega)
    have hl := hexDigit_not_control (d.toNat % 16) (by omega)
    simpa using ⟨by simpa using hh, by simpa using hl⟩
  · simpa using ‹¬ d.toNat < 0x20›

/-- No raw control character is left in a printed string. -/
theorem jsonString_no_control (s : String) : ∀ c ∈ jsonString s, ¬ c.toNat < 0x20 := by
  intro c hc
  simp only [jsonString, List.mem_cons, List.mem_append, List.mem_flatMap, List.not_mem_nil,
    or_false] at hc
  rcases hc with rfl | ⟨d, -, hd⟩ | rfl
  · decide
  · exact escapeChar_no_control d c hd
  · decide

/-! ## Numbers -/

theorem not_mem_toDigits {c : Char} (hc : c.isDigit = false) (n : Nat) :
    c ∉ Nat.toDigits 10 n := by
  intro hm
  rw [Nat.isDigit_of_mem_toDigits (by decide) (by decide) hm] at hc
  cases hc

theorem toDigits_inj {m n : Nat} (h : Nat.toDigits 10 m = Nat.toDigits 10 n) : m = n := by
  have hval := congrArg (fun ds => Nat.ofDigitChars 10 ds 0) h
  simpa [Nat.ofDigitChars_ten_toDigits] using hval

theorem FloatText.text_inj {f g : FloatText} (h : f.text.toList = g.text.toList) : f = g := by
  cases f
  cases g
  simpa [String.toList_inj] using h

/-- A float is never spelled like an integer. -/
theorem FloatText.ne_integer (f : FloatText) {ds : List Char} (hp : '.' ∉ ds) (he : 'e' ∉ ds) :
    f.text.toList ≠ ds := by
  intro rfl
  exact f.point.elim hp he

theorem Number.render_injective : Function.Injective Number.render := by
  intro a b h
  have hpoint := not_mem_toDigits (c := '.') (by decide)
  have hexp := not_mem_toDigits (c := 'e') (by decide)
  have hsign := not_mem_toDigits (c := '-') (by decide)
  cases a with
  | posInt m =>
    cases b with
    | posInt n => exact congrArg _ (Fin.ext (toDigits_inj h))
    | negInt n =>
      change Nat.toDigits 10 m.val = '-' :: _ at h
      exact absurd (h ▸ List.mem_cons_self) (hsign m.val)
    | float f => exact absurd h.symm (f.ne_integer (hpoint _) (hexp _))
  | negInt m =>
    have hm : '.' ∉ Number.render (.negInt m) ∧ 'e' ∉ Number.render (.negInt m) :=
      ⟨by simpa [Number.render] using hpoint _, by simpa [Number.render] using hexp _⟩
    cases b with
    | posInt n =>
      change '-' :: _ = Nat.toDigits 10 n.val at h
      exact absurd (h ▸ List.mem_cons_self) (hsign n.val)
    | negInt n =>
      simp only [Number.render, List.cons.injEq, true_and] at h
      have hmn := toDigits_inj h
      exact congrArg _ (Fin.ext (by omega))
    | float f => exact absurd h.symm (f.ne_integer hm.1 hm.2)
  | float f =>
    cases b with
    | posInt n => exact absurd h (f.ne_integer (hpoint _) (hexp _))
    | negInt n =>
      refine absurd h (f.ne_integer ?_ ?_)
      · simpa [Number.render] using hpoint _
      · simpa [Number.render] using hexp _
    | float g => exact congrArg _ (FloatText.text_inj h)

theorem isNumberChar_of_mem_toDigits {n : Nat} {c : Char} (hc : c ∈ Nat.toDigits 10 n) :
    isNumberChar c = true := by
  simp [isNumberChar, Nat.isDigit_of_mem_toDigits (by decide) (by decide) hc]

theorem Number.render_chars (n : Number) : ∀ c ∈ n.render, isNumberChar c = true := by
  intro c hc
  cases n with
  | posInt n => exact isNumberChar_of_mem_toDigits hc
  | negInt m =>
    rcases List.mem_cons.mp hc with rfl | hc
    · decide
    · exact isNumberChar_of_mem_toDigits hc
  | float f => exact f.digits c hc

theorem Number.render_ne_nil (n : Number) : n.render ≠ [] := by
  cases n with
  | posInt n => exact Nat.toDigits_ne_nil
  | negInt m => simp [Number.render]
  | float f =>
    intro h
    change f.text.toList = [] at h
    rcases f.point with hp | hp <;> simp [h] at hp

/-- A number is read up to the first character that cannot continue it. -/
theorem delimitedBefore_number :
    DelimitedBefore (fun s => ∀ c ∈ s.head?, ¬ isNumberChar c = true) Number.render :=
  delimitedBefore_span Number.render_injective Number.render_chars

/-! ## The compact printer -/

mutual

/-- `Display` of `serde_json::Value`. -/
def compact : Json → List Char
  | .null => ['n', 'u', 'l', 'l']
  | .bool true => ['t', 'r', 'u', 'e']
  | .bool false => ['f', 'a', 'l', 's', 'e']
  | .number n => n.render
  | .string s => jsonString s
  | .array items => '[' :: (joinWith ',' (compactItems items) ++ [']'])
  | .object fields => '{' :: (joinWith ',' (compactMembers fields) ++ ['}'])

def compactItems : List Json → List (List Char)
  | [] => []
  | v :: rest => compact v :: compactItems rest

def compactMembers : List (String × Json) → List (List Char)
  | [] => []
  | (k, v) :: rest => (jsonString k ++ ':' :: compact v) :: compactMembers rest

end

/-- One printed object member. -/
def compactMember (m : String × Json) : List Char := jsonString m.1 ++ ':' :: compact m.2

theorem compactItems_eq_map (items : List Json) : compactItems items = items.map compact := by
  induction items with
  | nil => rfl
  | cons v rest ih => rw [compactItems, ih, List.map_cons]

theorem compactMembers_eq_map (fields : List (String × Json)) :
    compactMembers fields = fields.map compactMember := by
  induction fields with
  | nil => rfl
  | cons m rest ih => rw [compactMembers, ih, List.map_cons, compactMember]

/-- Structural induction with the hypotheses at the elements and members. -/
theorem Json.induct {P : Json → Prop} (null : P .null) (bool : ∀ b, P (.bool b))
    (number : ∀ n, P (.number n)) (string : ∀ s, P (.string s))
    (array : ∀ items, (∀ v ∈ items, P v) → P (.array items))
    (object : ∀ fields, (∀ m ∈ fields, P m.2) → P (.object fields)) (v : Json) : P v :=
  @Json.rec P (fun items => ∀ v ∈ items, P v) (fun fields => ∀ m ∈ fields, P m.2) (fun m => P m.2)
    null bool number string array object
    (fun _ hv => absurd hv List.not_mem_nil)
    (fun _ _ hw hrest v hv => (List.mem_cons.mp hv).elim (fun he => he ▸ hw) (hrest v))
    (fun _ hm => absurd hm List.not_mem_nil)
    (fun _ _ hw hrest m hm => (List.mem_cons.mp hm).elim (fun he => he ▸ hw) (hrest m))
    (fun _ _ hv => hv) v

/-- The constructor of a value, as its first printed character shows it. -/
inductive Lead where
  | null | yes | no | number | string | array | object | other
  deriving DecidableEq

def leadOf (c : Char) : Lead :=
  if isNumberChar c then .number
  else if c = 'n' then .null
  else if c = 't' then .yes
  else if c = 'f' then .no
  else if c = '"' then .string
  else if c = '[' then .array
  else if c = '{' then .object
  else .other

def Json.lead : Json → Lead
  | .null => .null
  | .bool true => .yes
  | .bool false => .no
  | .number _ => .number
  | .string _ => .string
  | .array _ => .array
  | .object _ => .object

theorem compact_head (v : Json) : ∃ c rest, compact v = c :: rest ∧ leadOf c = v.lead := by
  match v with
  | .null => exact ⟨_, _, rfl, by decide⟩
  | .bool true => exact ⟨_, _, rfl, by decide⟩
  | .bool false => exact ⟨_, _, rfl, by decide⟩
  | .number n =>
    cases hn : n.render with
    | nil => exact absurd hn n.render_ne_nil
    | cons c rest =>
      have hc := n.render_chars c (by simp [hn])
      exact ⟨c, rest, by rw [compact, hn], by simp [leadOf, hc, Json.lead]⟩
  | .string s => exact ⟨'"', _, rfl, rfl⟩
  | .array items => exact ⟨'[', _, by rw [compact], rfl⟩
  | .object fields => exact ⟨'{', _, by rw [compact], rfl⟩

theorem lead_eq_of_compact {v w : Json} {s t : List Char}
    (he : compact v ++ s = compact w ++ t) : v.lead = w.lead := by
  obtain ⟨c, rest, hv, hc⟩ := compact_head v
  obtain ⟨d, rest', hw, hd⟩ := compact_head w
  rw [hv, hw] at he
  simp only [List.cons_append, List.cons.injEq] at he
  rw [← hc, ← hd, he.1]

/-- What may follow a value: nothing, or punctuation. -/
def Follows (s : List Char) : Prop := ∀ c ∈ s.head?, c = ',' ∨ c = ']' ∨ c = '}'

theorem Follows.not_number {s : List Char} (h : Follows s) :
    ∀ c ∈ s.head?, ¬ isNumberChar c = true := by
  intro c hc
  rcases h c hc with rfl | rfl | rfl <;> decide

theorem follows_cons {c : Char} (h : c = ',' ∨ c = ']' ∨ c = '}') (s : List Char) :
    Follows (c :: s) := by
  intro d hd
  simp only [List.head?_cons, Option.mem_def, Option.some.injEq] at hd
  exact hd ▸ h

theorem compact_ne_close {c : Char} (hc : leadOf c = .other) (v : Json) (s t : List Char) :
    compact v ++ s ≠ c :: t := by
  intro he
  obtain ⟨d, rest, hv, hd⟩ := compact_head v
  rw [hv] at he
  simp only [List.cons_append, List.cons.injEq] at he
  rw [he.1, hc] at hd
  cases v with
  | bool b => cases b <;> cases hd
  | _ => cases hd

theorem compactMember_ne_close (m : String × Json) (s t : List Char) :
    compactMember m ++ s ≠ '}' :: t := by
  simp [compactMember, jsonString]

/-- A printed value is uniquely decodable in front of punctuation. -/
theorem delimitedBefore_compact : DelimitedBefore Follows compact := by
  intro v
  induction v using Json.induct with
  | null =>
    intro w s t hs ht he
    have hlead := lead_eq_of_compact he
    match w with
    | .null => exact ⟨rfl, List.append_cancel_left he⟩
    | .bool true | .bool false | .number _ | .string _ | .array _ | .object _ => cases hlead
  | bool b =>
    intro w s t hs ht he
    have hlead := lead_eq_of_compact he
    match b, w with
    | true, .bool true | false, .bool false => exact ⟨rfl, List.append_cancel_left he⟩
    | true, .bool false | false, .bool true => cases hlead
    | b, .null | b, .number _ | b, .string _ | b, .array _ | b, .object _ =>
      cases b <;> cases hlead
  | number n =>
    intro w s t hs ht he
    have hlead := lead_eq_of_compact he
    match w with
    | .number m =>
      obtain ⟨rfl, hst⟩ := delimitedBefore_number n m s t hs.not_number ht.not_number he
      exact ⟨rfl, hst⟩
    | .null | .bool true | .bool false | .string _ | .array _ | .object _ => cases hlead
  | string x =>
    intro w s t hs ht he
    have hlead := lead_eq_of_compact he
    match w with
    | .string y =>
      obtain ⟨rfl, hst⟩ := delimited_jsonString x y s t he
      exact ⟨rfl, hst⟩
    | .null | .bool true | .bool false | .number _ | .array _ | .object _ => cases hlead
  | array items ih =>
    intro w s t hs ht he
    have hlead := lead_eq_of_compact he
    match w with
    | .array items' =>
      simp only [compact, compactItems_eq_map, List.cons_append, List.append_assoc,
        List.nil_append, List.cons.injEq, true_and] at he
      obtain ⟨rfl, hst⟩ := joinWith_unique (follows_cons (by simp)) (follows_cons (by simp))
        (by decide) (compact_ne_close (by decide)) items ih items' s t he
      exact ⟨rfl, hst⟩
    | .null | .bool true | .bool false | .number _ | .string _ | .object _ => cases hlead
  | object fields ih =>
    intro w s t hs ht he
    have hlead := lead_eq_of_compact he
    match w with
    | .object fields' =>
      simp only [compact, compactMembers_eq_map, List.cons_append, List.append_assoc,
        List.nil_append, List.cons.injEq, true_and] at he
      have hmember : ∀ m ∈ fields, ∀ m' s t, Follows s → Follows t →
          compactMember m ++ s = compactMember m' ++ t → m = m' ∧ s = t := by
        rintro ⟨k, v⟩ hm ⟨k', v'⟩ s t hs ht he
        simp only [compactMember, List.append_assoc, List.cons_append] at he
        obtain ⟨rfl, htail⟩ := delimited_jsonString k k' _ _ he
        obtain ⟨rfl, hst⟩ := ih (k, v) hm v' s t hs ht (List.cons.inj htail).2
        exact ⟨rfl, hst⟩
      obtain ⟨rfl, hst⟩ := joinWith_unique (follows_cons (by simp)) (follows_cons (by simp))
        (by decide) compactMember_ne_close fields hmember fields' s t he
      exact ⟨rfl, hst⟩
    | .null | .bool true | .bool false | .number _ | .string _ | .array _ => cases hlead

theorem compact_injective : Function.Injective compact := by
  intro v w h
  have hnil : Follows [] := by intro c hc; cases hc
  exact (delimitedBefore_compact v w [] [] hnil hnil (by rw [h])).1

theorem Number.render_no_control (n : Number) : ∀ c ∈ n.render, ¬ c.toNat < 0x20 := by
  intro c hc hlow
  have hnum := n.render_chars c hc
  simp only [isNumberChar, Char.isDigit, Bool.or_eq_true, Bool.and_eq_true, decide_eq_true_eq,
    beq_iff_eq] at hnum
  rcases hnum with (((⟨hdigit, -⟩ | rfl) | rfl) | rfl) | rfl
  · have hge : 48 ≤ c.toNat := hdigit
    omega
  all_goals exact absurd hlow (by decide)

theorem mem_joinWith {sep c : Char} {words : List (List Char)} (hc : c ∈ joinWith sep words) :
    c = sep ∨ ∃ w ∈ words, c ∈ w := by
  induction words with
  | nil => cases hc
  | cons w rest ih =>
    cases rest with
    | nil => exact Or.inr ⟨w, List.mem_cons_self, hc⟩
    | cons v rest =>
      rcases List.mem_append.mp hc with hw | hrest
      · exact Or.inr ⟨w, List.mem_cons_self, hw⟩
      rcases List.mem_cons.mp hrest with hsep | hrest
      · exact Or.inl hsep
      rcases ih hrest with hsep | ⟨u, hu, hcu⟩
      · exact Or.inl hsep
      · exact Or.inr ⟨u, List.mem_cons_of_mem _ hu, hcu⟩

/-- The compact form has no control character, so no NUL in particular. -/
theorem compact_no_control (v : Json) : ∀ c ∈ compact v, ¬ c.toNat < 0x20 := by
  induction v using Json.induct with
  | null => simp [compact]
  | bool b => cases b <;> simp [compact]
  | number n => exact n.render_no_control
  | string s => exact jsonString_no_control s
  | array items ih =>
    intro c hc
    simp only [compact, compactItems_eq_map, List.mem_cons, List.mem_append, List.not_mem_nil,
      or_false] at hc
    rcases hc with rfl | hc | rfl
    · decide
    · rcases mem_joinWith hc with rfl | ⟨w, hw, hcw⟩
      · decide
      · obtain ⟨v, hv, rfl⟩ := List.mem_map.mp hw
        exact ih v hv c hcw
    · decide
  | object fields ih =>
    intro c hc
    simp only [compact, compactMembers_eq_map, List.mem_cons, List.mem_append, List.not_mem_nil,
      or_false] at hc
    rcases hc with rfl | hc | rfl
    · decide
    · rcases mem_joinWith hc with rfl | ⟨w, hw, hcw⟩
      · decide
      · obtain ⟨m, hm, rfl⟩ := List.mem_map.mp hw
        simp only [compactMember, List.mem_append, List.mem_cons] at hcw
        rcases hcw with hk | rfl | hv
        · exact jsonString_no_control m.1 c hk
        · decide
        · exact ih m hm c hv
    · decide

/-! ## Arrays of strings in a column -/

/-- `serde_json::to_string` of a `Vec<String>`. -/
def serializeStrings (items : List String) : String :=
  String.ofList (compact (.array (items.map .string)))

/-- The body of a string up to its closing quote, with the rest. -/
def readString : Nat → List Char → Option (List Char × List Char)
  | 0, _ => none
  | _ + 1, '"' :: rest => some ([], rest)
  | fuel + 1, text => do
      let (c, rest) ← readChar text
      let (body, rest) ← readString fuel rest
      some (c :: body, rest)

/-- The elements of an array of strings, up to its closing bracket. -/
def readStrings : Nat → List Char → Option (List String)
  | fuel + 1, '"' :: text =>
      match readString fuel text with
      | some (body, [']']) => some [String.ofList body]
      | some (body, ',' :: rest) => (readStrings fuel rest).map (String.ofList body :: ·)
      | _ => none
  | _, _ => none

/-- `serde_json::from_str` of a `Vec<String>` column. As in `deserializeField`,
only the spelling `serializeStrings` gives is represented. -/
def deserializeStrings (text : String) : Option (List String) :=
  match text.toList with
  | ['[', ']'] => some []
  | '[' :: rest => readStrings (rest.length + 1) rest
  | _ => none

theorem readString_body (s rest : List Char) (fuel : Nat) (hf : s.length < fuel) :
    readString fuel (s.flatMap escapeChar ++ '"' :: rest) = some (s, rest) := by
  induction s generalizing fuel with
  | nil =>
    cases fuel with
    | zero => exact absurd hf (Nat.not_lt_zero _)
    | succ n => rfl
  | cons c s ih =>
    cases fuel with
    | zero => exact absurd hf (Nat.not_lt_zero _)
    | succ n =>
      rw [List.flatMap_cons, List.append_assoc]
      have hread := readChar_escapeChar c (s.flatMap escapeChar ++ '"' :: rest)
      have htail := ih n (by simpa using hf)
      rw [readString]
      · simp [hread, htail]
      · exact fun t he => escapeChar_ne_quote c _ t he

theorem escapeChar_length_pos (c : Char) : 1 ≤ (escapeChar c).length := by
  unfold escapeChar
  repeat' split
  all_goals simp

theorem length_le_flatMap_escape (s : List Char) : s.length ≤ (s.flatMap escapeChar).length := by
  induction s with
  | nil => simp
  | cons c s ih =>
    have hc := escapeChar_length_pos c
    simp only [List.flatMap_cons, List.length_append, List.length_cons]
    omega

/-- The text after the opening bracket of a printed array of strings. -/
def stringsTail (items : List String) : List Char := joinWith ',' (items.map jsonString) ++ [']']

theorem stringsTail_single (item : String) :
    stringsTail [item] = '"' :: (item.toList.flatMap escapeChar ++ '"' :: [']']) := by
  simp [stringsTail, joinWith, jsonString]

theorem stringsTail_cons (item next : String) (items : List String) :
    stringsTail (item :: next :: items) =
      '"' :: (item.toList.flatMap escapeChar ++ '"' :: ',' :: stringsTail (next :: items)) := by
  simp [stringsTail, joinWith, jsonString]

theorem readStrings_tail (item : String) (items : List String) (fuel : Nat)
    (hf : (stringsTail (item :: items)).length ≤ fuel) :
    readStrings fuel (stringsTail (item :: items)) = some (item :: items) := by
  have hbody := length_le_flatMap_escape item.toList
  induction items generalizing item fuel with
  | nil =>
    rw [stringsTail_single] at hf ⊢
    simp only [List.length_cons, List.length_append] at hf
    cases fuel with
    | zero => omega
    | succ n =>
      rw [readStrings, readString_body _ _ _ (by omega)]
      simp [String.ofList_toList]
  | cons next items ih =>
    rw [stringsTail_cons] at hf ⊢
    simp only [List.length_cons, List.length_append] at hf
    cases fuel with
    | zero => omega
    | succ n =>
      have htail := ih next n (by omega) (length_le_flatMap_escape _)
      rw [readStrings, readString_body _ _ _ (by omega)]
      simp [htail, String.ofList_toList]

/-- A column of strings reads back as it was written. -/
@[simp] theorem deserializeStrings_serializeStrings (items : List String) :
    deserializeStrings (serializeStrings items) = some items := by
  have htext : (serializeStrings items).toList = '[' :: stringsTail items := by
    simp [serializeStrings, stringsTail, compact, compactItems_eq_map, Function.comp_def]
  unfold deserializeStrings
  rw [htext]
  cases items with
  | nil => rfl
  | cons item rest =>
    have hread := readStrings_tail item rest _ (Nat.le_succ _)
    cases rest with
    | nil =>
      rw [stringsTail_single] at hread ⊢
      exact hread
    | cons next rest =>
      rw [stringsTail_cons] at hread ⊢
      exact hread

end Sysknife
