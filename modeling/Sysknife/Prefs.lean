import Sysknife.Actions.Validate
import Sysknife.Policy

/-!
# The preferences file

`prefs.rs`: the file as the text that it has, `none` while there is none. The
operations take the file to the next one; failures of the file system are not
theirs.
-/

namespace Sysknife

def prefsMaxBytes : Nat := 10240

def sensitivePatterns : List String :=
  ["password", "passwd", "secret", "api_key", "apikey", "private_key", "token", "credential",
    "-----begin", "bearer ", "akia"]

def sensitivePrefixes : List String :=
  ["sk-", "ghp_", "github_pat_", "gho_", "xoxb-", "xoxp-", "sg.", "key_live_", "key_test_", "eyj",
    "hvs.", "hvb.", "npm_", "pypi-"]

/-- `contains_sensitive`; `lowercase` is `str::to_lowercase`. -/
def containsSensitive (lowercase : String → String) (fact : String) : Bool :=
  let lower := lowercase fact
  sensitivePatterns.any (fun p => containsText lower p.toList) ||
    sensitivePrefixes.any fun p => containsText lower p.toList

/-! ## Lines -/

/-- The end of a line that a line feed has closed. -/
def stripReturn (line : List Char) : List Char :=
  if line.getLast? = some '\r' then line.dropLast else line

/-- `str::lines` behind the text `line` of the line that is read. -/
def linesFrom (line : List Char) : List Char → List (List Char)
  | [] => if line.isEmpty then [] else [line]
  | c :: cs => if c = '\n' then stripReturn line :: linesFrom [] cs else linesFrom (line ++ [c]) cs

/-- `str::lines`. -/
def lines (s : List Char) : List (List Char) := linesFrom [] s

theorem linesFrom_line {a : List Char} (ha : '\n' ∉ a) (line rest : List Char) :
    linesFrom line (a ++ '\n' :: rest) = stripReturn (line ++ a) :: linesFrom [] rest := by
  induction a generalizing line with
  | nil => simp [linesFrom]
  | cons c a ih =>
    have hc : c ≠ '\n' := fun heq => ha (List.mem_cons.mpr (Or.inl heq.symm))
    have hrest : '\n' ∉ a := fun hin => ha (List.mem_cons_of_mem c hin)
    rw [List.cons_append, linesFrom, if_neg hc, ih hrest, List.append_assoc]
    rfl

theorem mem_stripReturn {c : Char} {line : List Char} (h : c ∈ stripReturn line) : c ∈ line := by
  unfold stripReturn at h
  split at h
  · exact List.dropLast_subset _ h
  · exact h

/-- No line has a line feed in it. -/
theorem unbroken_linesFrom {line s l : List Char} (hline : '\n' ∉ line)
    (h : l ∈ linesFrom line s) : '\n' ∉ l := by
  fun_induction linesFrom line s with
  | case1 line hempty => cases h
  | case2 line hempty =>
    obtain rfl := List.mem_singleton.mp h
    exact hline
  | case3 line s ih =>
    rcases List.mem_cons.mp h with rfl | h
    · exact fun hin => hline (mem_stripReturn hin)
    · exact ih List.not_mem_nil h
  | case4 line c s hc ih =>
    refine ih ?_ h
    intro hin
    rcases List.mem_append.mp hin with hin | hin
    · exact hline hin
    · exact hc (List.mem_singleton.mp hin).symm

theorem stripReturn_eq_self {line : List Char} (h : line.getLast? ≠ some '\r') :
    stripReturn line = line := if_neg h

theorem lines_line {a : List Char} (ha : '\n' ∉ a) (rest : List Char) :
    lines (a ++ '\n' :: rest) = stripReturn a :: lines rest := by
  rw [lines, linesFrom_line ha, List.nil_append]
  rfl

/-- The lines of a text that is written line by line. -/
theorem lines_flatMap {ls : List (List Char)} (h : ∀ l ∈ ls, '\n' ∉ l) :
    lines (ls.flatMap (· ++ ['\n'])) = ls.map stripReturn := by
  induction ls with
  | nil => rfl
  | cons l ls ih =>
    rw [List.forall_mem_cons] at h
    have htext : (l :: ls).flatMap (· ++ ['\n']) = l ++ '\n' :: ls.flatMap (· ++ ['\n']) := by
      rw [List.flatMap_cons, List.append_assoc]
      rfl
    rw [htext, lines_line h.1, ih h.2, List.map_cons]

/-- A complete text has its lines, whatever stands behind it. -/
theorem linesFrom_append (line a b : List Char) :
    linesFrom line (a ++ '\n' :: b) = linesFrom line (a ++ ['\n']) ++ lines b := by
  induction a generalizing line with
  | nil => rfl
  | cons c a ih =>
    rw [List.cons_append, List.cons_append, linesFrom, linesFrom]
    by_cases hc : c = '\n'
    · rw [if_pos hc, if_pos hc, ih, List.cons_append]
    · rw [if_neg hc, if_neg hc, ih]

theorem isWhitespace_of_isDigit {c : Char} (h : c.isDigit = true) : isWhitespace c = false := by
  have hrange : 48 ≤ c.toNat ∧ c.toNat ≤ 57 := by
    simpa [Char.isDigit, UInt32.le_iff_toNat_le] using h
  rw [← Bool.not_eq_true, isWhitespace]
  simp
  omega

theorem toDigits_digit {n : Nat} {c : Char} (h : c ∈ Nat.toDigits 10 n) : c.isDigit = true :=
  Nat.isDigit_of_mem_toDigits (by decide) (by decide) h

/-! ## Operations -/

/-- `read_prefs`. -/
def readPrefs (file : Option (List Char)) : Option (List Char) :=
  file.filter fun content => !(trim content).isEmpty

def sizeLimitMessage : String :=
  "preferences file exceeds size limit (" ++ toString prefsMaxBytes ++
    " bytes); remove unused preferences before adding new ones"

/-- `append_pref`. -/
def appendPref (file : Option (List Char)) (fact : List Char) :
    Except String Unit × Option (List Char) :=
  if fact.contains '\n' || fact.contains '\r' then
    (.error "preference must be a single line", file)
  else
    let existing := file.getD []
    if (lines existing).contains ("- ".toList ++ fact) then (.ok (), file)
    else
      let combined := existing ++ "- ".toList ++ fact ++ ['\n']
      if (combined.map Char.utf8Size).sum > prefsMaxBytes then (.error sizeLimitMessage, file)
      else (.ok (), some combined)

/-- `remove_pref`. -/
def removePref (file : Option (List Char)) (fact : List Char) : Bool × Option (List Char) :=
  match file with
  | none => (false, none)
  | some content =>
    let target := "- ".toList ++ fact
    if (lines content).contains target then
      (true, some (((lines content).filter fun line => line != target).flatMap (· ++ ['\n'])))
    else (false, some content)

end Sysknife
