import Sysknife.Actions.Validate
import Sysknife.Lib.Words
import Sysknife.Prefs
import Sysknife.TextSplit

/-!
# The parser of os-release

`parse_os_release` goes through the lines once and keeps what the known keys are set to.
Over it stands the grammar of the file: assignments, one a line, whose values are bare or
between a pair of quotes.
-/

namespace Sysknife

/-! ## The parser -/

def maxOsReleaseBytes : Nat := 10 * 1024

inductive ParseError where
  | fileTooLarge
  | empty
  | invalidLine (line : String)
  | mismatchedQuotes (key : String)
  | invalidByte (key : String)
  deriving DecidableEq

structure OsRelease where
  id : String
  idLike : List String
  versionId : Option String
  codename : Option String
  variantId : Option String
  prettyName : Option String
  deriving DecidableEq

/-- The variables of the loop. -/
structure OsFields where
  id : Option String
  idLike : List String
  versionId : Option String
  codename : Option String
  variantId : Option String
  prettyName : Option String
  foundAny : Bool

def OsFields.init : OsFields := ⟨none, [], none, none, none, none, false⟩

/-- `char::is_ascii_whitespace`. -/
def isAsciiWhitespace (c : Char) : Bool :=
  c == ' ' || c == '\t' || c == '\n' || c == '\x0c' || c == '\r'

/-- `raw_split_whitespace`. -/
def rawSplitWhitespace (s : List Char) : List String :=
  (TextWords.words isAsciiWhitespace s).map String.ofList

def isValidKey : List Char → Bool
  | [] => false
  | first :: rest => first.isUpper && rest.all fun c => c.isUpper || c.isDigit || c == '_'

def isQuote (c : Char) : Bool := c == '"' || c == '\x27'

def stripQuotes (key : String) : List Char → Except ParseError (List Char)
  | [] => .ok []
  | first :: rest =>
    if isQuote first then
      if (first :: rest).getLast? ≠ some first ∨ (first :: rest).length < 2 then
        .error (.mismatchedQuotes key)
      else .ok rest.dropLast
    else .ok (first :: rest)

/-- Not allowed in a value. -/
def isDisallowed (c : Char) : Bool := c == '\x00' || (isAsciiControl c && c != '\t')

/-- The `match` on the key. -/
def OsFields.assign (s : OsFields) (key : String) (value : List Char) : OsFields :=
  let s := { s with foundAny := true }
  match key with
  | "ID" => { s with id := some (String.ofList value) }
  | "ID_LIKE" => { s with idLike := rawSplitWhitespace value }
  | "VERSION_ID" => { s with versionId := some (String.ofList value) }
  | "VERSION_CODENAME" => { s with codename := some (String.ofList value) }
  | "VARIANT_ID" => { s with variantId := some (String.ofList value) }
  | "PRETTY_NAME" => { s with prettyName := some (String.ofList value) }
  | _ => s

/-- One round of the loop. -/
def parseOsLine (s : OsFields) (line : List Char) : Except ParseError OsFields :=
  if line.isEmpty || line.head? == some '#' then .ok s
  else match splitOnce '=' line with
    | none => .error (.invalidLine (String.ofList line))
    | some (key, rawValue) =>
      if !isValidKey key then .error (.invalidLine (String.ofList line))
      else if rawValue.isEmpty then .error (.invalidLine (String.ofList line))
      else match stripQuotes (String.ofList key) rawValue with
        | .error e => .error e
        | .ok value =>
          if value.any isDisallowed then .error (.invalidByte (String.ofList key))
          else .ok (s.assign (String.ofList key) value)

def parseOsLines (s : OsFields) : List (List Char) → Except ParseError OsFields
  | [] => .ok s
  | line :: rest =>
    match parseOsLine s line with
    | .error e => .error e
    | .ok s => parseOsLines s rest

def parseOsRelease (contents : String) : Except ParseError OsRelease :=
  if contents.utf8ByteSize > maxOsReleaseBytes then .error .fileTooLarge
  else match parseOsLines .init (lines contents.toList) with
    | .error e => .error e
    | .ok s =>
      if !s.foundAny then .error .empty
      else match s.id with
        | none => .error .empty
        | some id => .ok ⟨id, s.idLike, s.versionId, s.codename, s.variantId, s.prettyName⟩

example : (parseOsRelease "# Fedora\nID=\"fedora\"\nVERSION_ID=41\nID='x'\n").toOption =
    some ⟨"x", [], some "41", none, none, none⟩ := by decide

/-! ## The grammar -/

/-- `[A-Z][A-Z0-9_]*`. -/
def IsOsKey (key : List Char) : Prop :=
  ∃ first rest, key = first :: rest ∧ first.isUpper = true ∧
    ∀ c ∈ rest, c.isUpper = true ∨ c.isDigit = true ∨ c = '_'

/-- A value as it is written: bare, or between a pair of quotes. -/
inductive Quoted : List Char → List Char → Prop
  | bare {c : Char} {rest : List Char} (h : isQuote c = false) : Quoted (c :: rest) (c :: rest)
  | pair {q : Char} {value : List Char} (h : isQuote q = true) : Quoted (q :: (value ++ [q])) value

/-- The line gives the key a value. -/
structure Assigns (line : List Char) (key : String) (value : List Char) : Prop where
  isKey : IsOsKey key.toList
  written : ∃ raw, line = key.toList ++ '=' :: raw ∧ Quoted raw value
  allowed : ∀ c ∈ value, isAsciiControl c = true → c = '\t'

/-- A line that says nothing. -/
def Skipped (line : List Char) : Prop := line = [] ∨ line.head? = some '#'

/-- What a file may be. -/
structure OsGrammar (contents : String) : Prop where
  size : contents.utf8ByteSize ≤ maxOsReleaseBytes
  lines : ∀ line ∈ lines contents.toList, Skipped line ∨ ∃ key value, Assigns line key value
  id : ∃ line ∈ Sysknife.lines contents.toList, ∃ value, Assigns line "ID" value

/-- No line gives the key a value. -/
def Unassigned (key : String) (ls : List (List Char)) : Prop :=
  ∀ line ∈ ls, ∀ value, ¬ Assigns line key value

/-- What the lines give a key: the value of the last line that gives it one. -/
inductive LastValue (key : String) : List (List Char) → Option (List Char) → Prop
  | absent {ls : List (List Char)} (h : Unassigned key ls) : LastValue key ls none
  | last {front back : List (List Char)} {line value : List Char} (h : Assigns line key value)
      (hback : Unassigned key back) : LastValue key (front ++ line :: back) (some value)

/-- The lines give a key this text, or none. -/
def LastText (key : String) (ls : List (List Char)) (text : Option String) : Prop :=
  ∃ value, LastValue key ls value ∧ text = value.map String.ofList

/-- The fields say what the lines do. -/
structure OsRelease.Describes (r : OsRelease) (ls : List (List Char)) : Prop where
  id : LastText "ID" ls (some r.id)
  idLike : ∃ value, LastValue "ID_LIKE" ls value ∧ r.idLike = rawSplitWhitespace (value.getD [])
  versionId : LastText "VERSION_ID" ls r.versionId
  codename : LastText "VERSION_CODENAME" ls r.codename
  variantId : LastText "VARIANT_ID" ls r.variantId
  prettyName : LastText "PRETTY_NAME" ls r.prettyName

/-! ## One line -/

theorem isValidKey_iff {key : List Char} : isValidKey key = true ↔ IsOsKey key := by
  cases key with
  | nil => simp [isValidKey, IsOsKey]
  | cons first rest => simp [isValidKey, IsOsKey, or_assoc]

theorem isDisallowed_iff (c : Char) :
    isDisallowed c = true ↔ isAsciiControl c = true ∧ c ≠ '\t' := by
  unfold isDisallowed
  rw [Bool.or_eq_true, Bool.and_eq_true, beq_iff_eq, bne_iff_ne]
  constructor
  · intro h
    rcases h with rfl | h
    · decide
    · exact h
  · exact Or.inr

theorem stripQuotes_ok_iff (key : String) {raw value : List Char} (hne : raw ≠ []) :
    stripQuotes key raw = .ok value ↔ Quoted raw value := by
  obtain ⟨first, rest, rfl⟩ := List.exists_cons_of_ne_nil hne
  rw [stripQuotes]
  by_cases hquote : isQuote first = true
  · rw [if_pos hquote]
    constructor
    · intro h
      split_ifs at h with hbad
      rw [not_or, not_not, Nat.not_lt] at hbad
      cases h
      obtain ⟨inner, last, hrest⟩ : ∃ inner last, rest = inner ++ [last] := by
        rcases List.eq_nil_or_concat rest with rfl | ⟨inner, last, rfl⟩
        · simp at hbad
        · exact ⟨inner, last, List.concat_eq_append ..⟩
      subst hrest
      have hend : (first :: (inner ++ [last])).getLast? = some last :=
        List.getLast?_concat (l := first :: inner)
      have hlast : last = first := Option.some.inj (hend.symm.trans hbad.1)
      rw [hlast, List.dropLast_concat]
      exact .pair hquote
    · intro h
      cases h with
      | bare hplain =>
        rw [hplain] at hquote
        cases hquote
      | pair h =>
        have hend : (first :: (value ++ [first])).getLast? = some first :=
          List.getLast?_concat (l := first :: value)
        rw [if_neg (by simp [hend]), List.dropLast_concat]
  · rw [Bool.not_eq_true] at hquote
    rw [if_neg (by simp [hquote])]
    constructor
    · intro h
      cases h
      exact .bare hquote
    · intro h
      cases h with
      | bare _ => rfl
      | pair hpair =>
        rw [hquote] at hpair
        cases hpair

theorem IsOsKey.no_equals {key : List Char} (h : IsOsKey key) : '=' ∉ key := by
  obtain ⟨first, rest, rfl, hfirst, hrest⟩ := h
  intro hmem
  rcases List.mem_cons.mp hmem with rfl | hmem
  · exact absurd hfirst (by decide)
  · rcases hrest _ hmem with h | h | h <;> exact absurd h (by decide)

theorem Quoted.ne_nil {raw value : List Char} (h : Quoted raw value) : raw ≠ [] := by
  cases h <;> exact List.cons_ne_nil _ _

theorem Quoted.unique {raw value value' : List Char} (h : Quoted raw value)
    (h' : Quoted raw value') : value = value' := by
  have hone := (stripQuotes_ok_iff "" h.ne_nil).mpr h
  rw [(stripQuotes_ok_iff "" h.ne_nil).mpr h'] at hone
  exact (Except.ok.inj hone).symm

/-- A line gives one key one value. -/
theorem Assigns.unique {line value value' : List Char} {key key' : String}
    (h : Assigns line key value) (h' : Assigns line key' value') : key = key' ∧ value = value' := by
  obtain ⟨raw, rfl, hraw⟩ := h.written
  obtain ⟨raw', heq, hraw'⟩ := h'.written
  have hsplit := splitOnce_first h.isKey.no_equals raw
  rw [heq, splitOnce_first h'.isKey.no_equals] at hsplit
  simp only [Option.some.injEq, Prod.mk.injEq] at hsplit
  obtain ⟨hkey, rfl⟩ := hsplit
  exact ⟨(String.toList_inj.mp hkey).symm, hraw.unique hraw'⟩

theorem Assigns.not_skipped {line value : List Char} {key : String} (h : Assigns line key value) :
    ¬ Skipped line := by
  obtain ⟨raw, rfl, -⟩ := h.written
  obtain ⟨first, rest, hkey, hfirst, -⟩ := h.isKey
  rw [hkey]
  intro h
  rcases h with hnil | hhead
  · cases hnil
  · rw [List.cons_append, List.head?_cons, Option.some.injEq] at hhead
    rw [hhead] at hfirst
    exact absurd hfirst (by decide)

/-- One round of the loop: a line that says nothing, or an assignment. -/
theorem parseOsLine_ok_iff {s s' : OsFields} {line : List Char} :
    parseOsLine s line = .ok s' ↔
      Skipped line ∧ s' = s ∨ ∃ key value, Assigns line key value ∧ s' = s.assign key value := by
  have hskipped : (line.isEmpty || line.head? == some '#') = true ↔ Skipped line := by
    rw [Bool.or_eq_true, List.isEmpty_iff, beq_iff_eq, Skipped]
  constructor
  · intro h
    unfold parseOsLine at h
    split at h
    · next hskip => exact Or.inl ⟨hskipped.mp hskip, (Except.ok.inj h).symm⟩
    · split at h
      · cases h
      · next key raw hsplit =>
        obtain ⟨rfl, -⟩ := splitOnce_iff.mp hsplit
        split_ifs at h with hkey hraw
        split at h
        · cases h
        · next value hvalue =>
          split_ifs at h with hbyte
          have hne : raw ≠ [] := by simpa using hraw
          rw [Bool.not_eq_true', Bool.not_eq_false] at hkey
          refine Or.inr ⟨String.ofList key, value, ⟨?_, ⟨raw, ?_, ?_⟩, ?_⟩, ?_⟩
          · rw [String.toList_ofList]
            exact isValidKey_iff.mp hkey
          · rw [String.toList_ofList]
          · exact (stripQuotes_ok_iff _ hne).mp hvalue
          · intro c hc hcontrol
            by_contra htab
            exact hbyte (List.any_eq_true.mpr ⟨c, hc, (isDisallowed_iff c).mpr ⟨hcontrol, htab⟩⟩)
          · exact (Except.ok.inj h).symm
  · intro h
    rcases h with ⟨hskip, rfl⟩ | ⟨key, value, h, rfl⟩
    · exact if_pos (hskipped.mpr hskip)
    · have hstay := mt hskipped.mp h.not_skipped
      obtain ⟨raw, rfl, hraw⟩ := h.written
      have hkey := isValidKey_iff.mpr h.isKey
      have hbytes : value.any isDisallowed = false := by
        rw [Bool.eq_false_iff]
        intro hany
        obtain ⟨c, hc, hbad⟩ := List.any_eq_true.mp hany
        obtain ⟨hcontrol, htab⟩ := (isDisallowed_iff c).mp hbad
        exact htab (h.allowed c hc hcontrol)
      have hvalue := (stripQuotes_ok_iff key hraw.ne_nil).mpr hraw
      rw [parseOsLine, if_neg hstay, splitOnce_first h.isKey.no_equals]
      simp [hkey, hraw.ne_nil, hvalue, hbytes]

/-! ## The last value -/

theorem unassigned_append {key : String} {a b : List (List Char)} :
    Unassigned key (a ++ b) ↔ Unassigned key a ∧ Unassigned key b := List.forall_mem_append

theorem unassigned_singleton {key : String} {line : List Char} :
    Unassigned key [line] ↔ ∀ value, ¬ Assigns line key value := List.forall_mem_singleton

/-- The last line decides, if it gives the key a value. -/
theorem lastValue_snoc_iff {key : String} {ls : List (List Char)} {line : List Char}
    {o : Option (List Char)} :
    LastValue key (ls ++ [line]) o ↔
      (∃ value, Assigns line key value ∧ o = some value) ∨
        (∀ value, ¬ Assigns line key value) ∧ LastValue key ls o := by
  constructor
  · intro h
    generalize hall : ls ++ [line] = all at h
    cases h with
    | absent hnone =>
      rw [← hall, unassigned_append, unassigned_singleton] at hnone
      exact Or.inr ⟨hnone.2, .absent hnone.1⟩
    | @last front back assigned value hassigned hback =>
      rcases List.eq_nil_or_concat back with rfl | ⟨back, final, rfl⟩
      · obtain ⟨rfl, hline⟩ := List.append_inj' hall rfl
        rw [List.cons.injEq] at hline
        exact Or.inl ⟨value, hline.1 ▸ hassigned, rfl⟩
      · rw [List.concat_eq_append] at hback hall
        rw [unassigned_append, unassigned_singleton] at hback
        rw [← List.cons_append, ← List.append_assoc] at hall
        obtain ⟨rfl, hline⟩ := List.append_inj' hall rfl
        rw [List.cons.injEq] at hline
        exact Or.inr ⟨hline.1 ▸ hback.2, .last hassigned hback.1⟩
  · intro h
    rcases h with ⟨value, hassigned, rfl⟩ | ⟨hnone, h⟩
    · exact .last hassigned nofun
    · cases h with
      | absent habsent =>
        exact .absent (unassigned_append.mpr ⟨habsent, unassigned_singleton.mpr hnone⟩)
      | last hassigned hback =>
        rw [List.append_assoc, List.cons_append]
        exact .last hassigned (unassigned_append.mpr ⟨hback, unassigned_singleton.mpr hnone⟩)

theorem LastValue.unique {key : String} {ls : List (List Char)} {o o' : Option (List Char)}
    (h : LastValue key ls o) (h' : LastValue key ls o') : o = o' := by
  induction ls using List.reverseRecOn with
  | nil =>
    have hnil : ∀ {o}, LastValue key [] o → o = none := by
      intro o h
      generalize hall : ([] : List (List Char)) = all at h
      cases h with
      | absent => rfl
      | last => simp at hall
    rw [hnil h, hnil h']
  | append_singleton ls line ih =>
    rcases lastValue_snoc_iff.mp h with ⟨value, hassigned, rfl⟩ | ⟨hnone, h⟩
    · rcases lastValue_snoc_iff.mp h' with ⟨value', hassigned', rfl⟩ | ⟨hnone', -⟩
      · rw [(hassigned.unique hassigned').2]
      · exact absurd hassigned (hnone' value)
    · rcases lastValue_snoc_iff.mp h' with ⟨value', hassigned', -⟩ | ⟨-, h'⟩
      · exact absurd hassigned' (hnone value')
      · exact ih h h'

theorem LastText.unique {key : String} {ls : List (List Char)} {text text' : Option String}
    (h : LastText key ls text) (h' : LastText key ls text') : text = text' := by
  obtain ⟨value, hvalue, rfl⟩ := h
  obtain ⟨value', hvalue', rfl⟩ := h'
  rw [hvalue.unique hvalue']

theorem OsRelease.Describes.unique {r r' : OsRelease} {ls : List (List Char)}
    (h : r.Describes ls) (h' : r'.Describes ls) : r = r' := by
  obtain ⟨value, hvalue, hlike⟩ := h.idLike
  obtain ⟨value', hvalue', hlike'⟩ := h'.idLike
  have hid := Option.some.inj (h.id.unique h'.id)
  have hversion := h.versionId.unique h'.versionId
  have hcodename := h.codename.unique h'.codename
  have hvariant := h.variantId.unique h'.variantId
  have hpretty := h.prettyName.unique h'.prettyName
  rw [hvalue.unique hvalue', ← hlike'] at hlike
  cases r
  cases r'
  simp_all

/-! ## The loop -/

/-- A key that the line does not assign keeps its value. -/
theorem LastValue.skip {key : String} {ls : List (List Char)} {line : List Char}
    {o : Option (List Char)} (h : LastValue key ls o) (hskip : Skipped line) :
    LastValue key (ls ++ [line]) o :=
  lastValue_snoc_iff.mpr (Or.inr ⟨fun _ hassigned => hassigned.not_skipped hskip, h⟩)

theorem LastValue.assign {key key' : String} {ls : List (List Char)} {line value : List Char}
    {o : Option (List Char)} (h : LastValue key ls o) (hassigned : Assigns line key' value) :
    LastValue key (ls ++ [line]) (if key' = key then some value else o) := by
  rw [lastValue_snoc_iff]
  by_cases hkey : key' = key
  · subst hkey
    exact Or.inl ⟨value, hassigned, if_pos rfl⟩
  · rw [if_neg hkey]
    exact Or.inr ⟨fun _ hother => hkey (hassigned.unique hother).1, h⟩

theorem LastText.assign {key key' : String} {ls : List (List Char)} {line value : List Char}
    {text : Option String} (h : LastText key ls text) (hassigned : Assigns line key' value) :
    LastText key (ls ++ [line]) (if key' = key then some (String.ofList value) else text) := by
  obtain ⟨o, ho, rfl⟩ := h
  refine ⟨_, ho.assign hassigned, ?_⟩
  split <;> rfl

theorem LastText.skip {key : String} {ls : List (List Char)} {line : List Char}
    {text : Option String} (h : LastText key ls text) (hskip : Skipped line) :
    LastText key (ls ++ [line]) text := by
  obtain ⟨o, ho, rfl⟩ := h
  exact ⟨o, ho.skip hskip, rfl⟩

/-- What the variables hold behind the lines that have been read. -/
structure OsFields.Tracks (s : OsFields) (ls : List (List Char)) : Prop where
  id : LastText "ID" ls s.id
  idLike : ∃ value, LastValue "ID_LIKE" ls value ∧ s.idLike = rawSplitWhitespace (value.getD [])
  versionId : LastText "VERSION_ID" ls s.versionId
  codename : LastText "VERSION_CODENAME" ls s.codename
  variantId : LastText "VARIANT_ID" ls s.variantId
  prettyName : LastText "PRETTY_NAME" ls s.prettyName
  foundAny : s.foundAny = true ↔ ∃ line ∈ ls, ∃ key value, Assigns line key value

theorem init_tracks : OsFields.init.Tracks [] := by
  have hnone : ∀ key, LastValue key [] none := fun key => .absent nofun
  have htext : ∀ key, LastText key [] none := fun key => ⟨none, hnone key, rfl⟩
  exact ⟨htext _, ⟨none, hnone _, rfl⟩, htext _, htext _, htext _, htext _, by simp [OsFields.init]⟩

section Assign
variable (s : OsFields) (key : String) (value : List Char)

theorem assign_id : (s.assign key value).id =
    if key = "ID" then some (String.ofList value) else s.id := by
  unfold OsFields.assign
  split <;> simp_all

theorem assign_idLike : (s.assign key value).idLike =
    if key = "ID_LIKE" then rawSplitWhitespace value else s.idLike := by
  unfold OsFields.assign
  split <;> simp_all

theorem assign_versionId : (s.assign key value).versionId =
    if key = "VERSION_ID" then some (String.ofList value) else s.versionId := by
  unfold OsFields.assign
  split <;> simp_all

theorem assign_codename : (s.assign key value).codename =
    if key = "VERSION_CODENAME" then some (String.ofList value) else s.codename := by
  unfold OsFields.assign
  split <;> simp_all

theorem assign_variantId : (s.assign key value).variantId =
    if key = "VARIANT_ID" then some (String.ofList value) else s.variantId := by
  unfold OsFields.assign
  split <;> simp_all

theorem assign_prettyName : (s.assign key value).prettyName =
    if key = "PRETTY_NAME" then some (String.ofList value) else s.prettyName := by
  unfold OsFields.assign
  split <;> simp_all

theorem assign_foundAny : (s.assign key value).foundAny = true := by
  unfold OsFields.assign
  split <;> rfl

end Assign

theorem OsFields.Tracks.skip {s : OsFields} {ls : List (List Char)} {line : List Char}
    (h : s.Tracks ls) (hskip : Skipped line) : s.Tracks (ls ++ [line]) where
  id := h.id.skip hskip
  idLike := h.idLike.imp fun _ hvalue => ⟨hvalue.1.skip hskip, hvalue.2⟩
  versionId := h.versionId.skip hskip
  codename := h.codename.skip hskip
  variantId := h.variantId.skip hskip
  prettyName := h.prettyName.skip hskip
  foundAny := by
    rw [h.foundAny]
    constructor
    · intro h
      obtain ⟨l, hl, hassigned⟩ := h
      exact ⟨l, List.mem_append_left _ hl, hassigned⟩
    · intro h
      obtain ⟨l, hl, key, value, hassigned⟩ := h
      rcases List.mem_append.mp hl with hl | hl
      · exact ⟨l, hl, key, value, hassigned⟩
      · obtain rfl := List.mem_singleton.mp hl
        exact absurd hskip hassigned.not_skipped

theorem OsFields.Tracks.assign {s : OsFields} {ls : List (List Char)} {line value : List Char}
    {key : String} (h : s.Tracks ls) (hassigned : Assigns line key value) :
    (s.assign key value).Tracks (ls ++ [line]) where
  id := assign_id s key value ▸ h.id.assign hassigned
  idLike := by
    obtain ⟨o, ho, hlike⟩ := h.idLike
    refine ⟨_, ho.assign hassigned, ?_⟩
    rw [assign_idLike, hlike]
    split <;> rfl
  versionId := assign_versionId s key value ▸ h.versionId.assign hassigned
  codename := assign_codename s key value ▸ h.codename.assign hassigned
  variantId := assign_variantId s key value ▸ h.variantId.assign hassigned
  prettyName := assign_prettyName s key value ▸ h.prettyName.assign hassigned
  foundAny := iff_of_true (assign_foundAny s key value)
    ⟨line, List.mem_append_right _ (List.mem_singleton_self _), key, value, hassigned⟩

/-- Every line that is read says nothing or is an assignment, and the variables follow. -/
theorem parseOsLines_ok {s s' : OsFields} {pre ls : List (List Char)} (h : s.Tracks pre)
    (hrun : parseOsLines s ls = .ok s') :
    (∀ line ∈ ls, Skipped line ∨ ∃ key value, Assigns line key value) ∧ s'.Tracks (pre ++ ls) := by
  induction ls generalizing s pre with
  | nil =>
    cases hrun
    rw [List.append_nil]
    exact ⟨nofun, h⟩
  | cons line ls ih =>
    rw [parseOsLines] at hrun
    split at hrun
    · cases hrun
    · next mid hmid =>
      have hstep : (Skipped line ∨ ∃ key value, Assigns line key value) ∧
          mid.Tracks (pre ++ [line]) := by
        rcases parseOsLine_ok_iff.mp hmid with ⟨hskip, rfl⟩ | ⟨key, value, hassigned, rfl⟩
        · exact ⟨Or.inl hskip, h.skip hskip⟩
        · exact ⟨Or.inr ⟨key, value, hassigned⟩, h.assign hassigned⟩
      obtain ⟨hlines, htracks⟩ := ih hstep.2 hrun
      rw [List.append_assoc] at htracks
      exact ⟨List.forall_mem_cons.mpr ⟨hstep.1, hlines⟩, htracks⟩

theorem exists_parseOsLines {ls : List (List Char)}
    (h : ∀ line ∈ ls, Skipped line ∨ ∃ key value, Assigns line key value) (s : OsFields) :
    ∃ s', parseOsLines s ls = .ok s' := by
  induction ls generalizing s with
  | nil => exact ⟨s, rfl⟩
  | cons line ls ih =>
    rw [List.forall_mem_cons] at h
    obtain ⟨mid, hmid⟩ : ∃ mid, parseOsLine s line = .ok mid := by
      rcases h.1 with hskip | ⟨key, value, hassigned⟩
      · exact ⟨s, parseOsLine_ok_iff.mpr (Or.inl ⟨hskip, rfl⟩)⟩
      · exact ⟨_, parseOsLine_ok_iff.mpr (Or.inr ⟨key, value, hassigned, rfl⟩)⟩
    obtain ⟨s', hrest⟩ := ih h.2 mid
    exact ⟨s', by rw [parseOsLines, hmid]; exact hrest⟩

theorem OsFields.Tracks.describes {s : OsFields} {ls : List (List Char)} (h : s.Tracks ls)
    {id : String} (hid : s.id = some id) :
    (OsRelease.mk id s.idLike s.versionId s.codename s.variantId s.prettyName).Describes ls where
  id := hid ▸ h.id
  idLike := h.idLike
  versionId := h.versionId
  codename := h.codename
  variantId := h.variantId
  prettyName := h.prettyName

theorem LastText.some_iff {key : String} {ls : List (List Char)} {text : Option String}
    (h : LastText key ls text) :
    (∃ t, text = some t) ↔ ∃ line ∈ ls, ∃ value, Assigns line key value := by
  obtain ⟨o, ho, rfl⟩ := h
  cases ho with
  | absent hnone =>
    refine iff_of_false ?_ ?_
    · intro h
      obtain ⟨_, h⟩ := h
      cases h
    · intro h
      obtain ⟨line, hline, value, hassigned⟩ := h
      exact hnone line hline value hassigned
  | @last front back line value hassigned =>
    exact iff_of_true ⟨_, rfl⟩
      ⟨line, List.mem_append_right _ (List.mem_cons_self ..), value, hassigned⟩

/-- What is read is a file of the grammar, and the fields say what its lines do. -/
theorem describes_of_parseOsRelease {contents : String} {r : OsRelease}
    (h : parseOsRelease contents = .ok r) :
    OsGrammar contents ∧ r.Describes (lines contents.toList) := by
  unfold parseOsRelease at h
  split_ifs at h with hsize
  split at h
  · cases h
  · next s hrun =>
    obtain ⟨hlines, htracks⟩ := parseOsLines_ok init_tracks hrun
    rw [List.nil_append] at htracks
    split_ifs at h
    split at h
    · cases h
    · next id hid =>
      cases h
      exact ⟨⟨Nat.le_of_not_lt hsize, hlines, htracks.id.some_iff.mp ⟨id, hid⟩⟩,
        htracks.describes hid⟩

theorem exists_parseOsRelease {contents : String} (h : OsGrammar contents) :
    ∃ r, parseOsRelease contents = .ok r := by
  obtain ⟨s, hrun⟩ := exists_parseOsLines h.lines .init
  have htracks := (parseOsLines_ok init_tracks hrun).2
  rw [List.nil_append] at htracks
  obtain ⟨id, hid⟩ := htracks.id.some_iff.mpr h.id
  have hany : s.foundAny = true := by
    obtain ⟨line, hline, value, hassigned⟩ := h.id
    exact htracks.foundAny.mpr ⟨line, hline, "ID", value, hassigned⟩
  refine ⟨⟨id, s.idLike, s.versionId, s.codename, s.variantId, s.prettyName⟩, ?_⟩
  rw [parseOsRelease, if_neg (Nat.not_lt.mpr h.size), hrun]
  simp [hany, hid]

/-- The parser accepts exactly the grammar, and what it gives is what the lines say. -/
theorem parseOsRelease_ok_iff (contents : String) :
    ((∃ r, parseOsRelease contents = .ok r) ↔ OsGrammar contents) ∧
      ∀ r, parseOsRelease contents = .ok r ↔
        OsGrammar contents ∧ r.Describes (lines contents.toList) := by
  constructor
  · constructor
    · intro h
      obtain ⟨r, h⟩ := h
      exact (describes_of_parseOsRelease h).1
    · exact exists_parseOsRelease
  · intro r
    constructor
    · exact describes_of_parseOsRelease
    · intro h
      obtain ⟨hgrammar, hr⟩ := h
      obtain ⟨r', h⟩ := exists_parseOsRelease hgrammar
      have hr' := (describes_of_parseOsRelease h).2
      rw [h, hr.unique hr']

end Sysknife
