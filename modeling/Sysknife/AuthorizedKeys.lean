import Mathlib.Data.Multiset.Filter
import Sysknife.ShellScripts
import Sysknife.Lib.ShellCommand

/-!
# The lines of an authorized_keys file

What the scripts of AddAuthorizedKey and RemoveAuthorizedKey do to the lines of the
file. Adding appends to the file, so that an incomplete last line grows instead;
removing reads the key as a pattern, which may match other lines or not the key.
-/

namespace Sysknife

open Actions PosixShell TextLines

/-- The values in the scripts for a user and a key. -/
def keyValues (username publicKey : String) (key : String) : List Char :=
  if key = "username" then username.toList else publicKey.toList

/-! ## The commands of the scripts -/

section Words
variable (v : String → List Char)

theorem fill_plainPieces (s : String) :
    (plainPieces s).flatMap (Piece.fill v) = s.toList.map .plain := by
  simp [plainPieces, List.flatMap_map, Piece.fill, ← List.map_eq_flatMap]

theorem fill_quotedPieces (s : String) :
    (quotedPieces s).flatMap (Piece.fill v) = s.toList.map .quoted := by
  simp [quotedPieces, List.flatMap_map, Piece.fill, ← List.map_eq_flatMap]

theorem literalText_plainPieces (s : String) :
    literalText ((plainPieces s).flatMap (Piece.fill v)) = some s.toList := by
  rw [fill_plainPieces, literalText_plain]

theorem literalText_hole (key : String) :
    literalText ((inQuotes [.hole true key]).flatMap (Piece.fill v)) = some (v key) := by
  simp [inQuotes, Piece.fill, literalText_append, literalText_quoted]

theorem literalText_around (a b key : String) :
    literalText ((inQuotes (quotedPieces a ++ [.hole true key] ++ quotedPieces b)).flatMap
      (Piece.fill v)) = some (a.toList ++ v key ++ b.toList) := by
  simp [inQuotes, Piece.fill, literalText_append, literalText_quoted, fill_quotedPieces]

end Words

section Commands
variable (username publicKey : String)

theorem literalText_publicKey :
    literalText ((inQuotes [.hole true "public_key"]).flatMap
      (Piece.fill (keyValues username publicKey))) = some publicKey.toList :=
  literalText_hole _ _

theorem literalText_keysPath :
    literalText ((inQuotes (quotedPieces "/home/" ++ [.hole true "username"] ++
      quotedPieces "/.ssh/authorized_keys")).flatMap
        (Piece.fill (keyValues username publicKey))) = some (keysPath username).toList := by
  rw [literalText_around]
  simp [keyValues, keysPath, -String.reduceToList]

/-- The script of `sed` for the key. -/
def removeScript (publicKey : String) : String := "\\|^" ++ publicKey ++ "$|d"

theorem literalText_removeScript :
    literalText ((inQuotes (quotedPieces "\\|^" ++ [.hole true "public_key"] ++
      quotedPieces "$|d")).flatMap (Piece.fill (keyValues username publicKey))) =
      some (removeScript publicKey).toList := by
  rw [literalText_around]
  simp [keyValues, removeScript, -String.reduceToList]

def addCommands : List Command :=
  [⟨["grep", "-Fxq", publicKey, keysPath username], some "/dev/null", none⟩,
    ⟨["echo", publicKey], none, some (keysPath username)⟩]

def removeCommands : List Command :=
  [⟨["sed", "-i", removeScript publicKey, keysPath username], none, none⟩]

theorem parse_addAuthorizedKey {given : String → Bool} {enabled : Bool}
    {shape : List (Token String)}
    (hshape : scriptShape given enabled .addAuthorizedKey = some shape) :
    parseOrList (shape.map (Token.fill (keyValues username publicKey))) =
      some (addCommands username publicKey) := by
  cases hshape
  have hword := literalText_plainPieces (keyValues username publicKey)
  have hkey := literalText_publicKey username publicKey
  have hpath := literalText_keysPath username publicKey
  have hend : parseOrList [] = some [⟨[], none, none⟩] := rfl
  have hecho := parseOrList_word (hword "echo")
    (parseOrList_word hkey (parseOrList_output hpath hend))
  have hgrep := parseOrList_word (hword "grep") (parseOrList_word (hword "-Fxq")
    (parseOrList_word hkey (parseOrList_word hpath
      (parseOrList_messages (hword "/dev/null") (parseOrList_or hecho)))))
  simpa [addCommands, plainWord, holeWord, keysPathWord, operator, Token.fill] using hgrep

theorem parse_removeAuthorizedKey {given : String → Bool} {enabled : Bool}
    {shape : List (Token String)}
    (hshape : scriptShape given enabled .removeAuthorizedKey = some shape) :
    parseOrList (shape.map (Token.fill (keyValues username publicKey))) =
      some (removeCommands username publicKey) := by
  cases hshape
  have hword := literalText_plainPieces (keyValues username publicKey)
  have hend : parseOrList [] = some [⟨[], none, none⟩] := rfl
  exact parseOrList_word (hword "sed") (parseOrList_word (hword "-i")
    (parseOrList_word (literalText_removeScript username publicKey)
      (parseOrList_word (literalText_keysPath username publicKey) hend)))

variable {username publicKey}
variable (utility : List String → Files → Option Outcome) (files : Files)

theorem keyValues_fit (huser : usernameAccepts username = true)
    (hkey : publicKeyAccepts publicKey = true) (key : String) :
    Fits true (keyValues username publicKey key) := by
  unfold keyValues
  split_ifs
  · exact fits_username huser true
  · exact fits_publicKey hkey

/-- A script is its commands, where the tokens of its action's shape are. -/
theorem runScript_of_shape {action : ActionName} {template : List (Symbol String)}
    {shape : List (Token String)} {script : List Char} {commands : List Command}
    (huser : usernameAccepts username = true) (hkey : publicKeyAccepts publicKey = true)
    (htemplate : scriptTemplate (fun _ => false) false action = some template)
    (hshape : scriptShape (fun _ => false) false action = some shape)
    (hrender : script = render (keyValues username publicKey) template)
    (hquoted : ∀ quoted key, .hole quoted key ∈ template → quoted = true)
    (hparse : parseOrList (shape.map (Token.fill (keyValues username publicKey))) =
      some commands) :
    runScript utility script files = runOrList utility commands files := by
  have htokens := tokenize_scriptTemplate htemplate hshape hrender (by
    intro quoted key hhole
    obtain rfl := hquoted quoted key hhole
    exact keyValues_fit huser hkey key)
  simp only [runScript, htokens, hparse, Option.bind_eq_bind, Option.bind_some]

theorem run_addAuthorizedKey {script : String} (huser : usernameAccepts username = true)
    (hkey : publicKeyAccepts publicKey = true)
    (hscript : (addAuthorizedKey username publicKey).mechanism.script = some script) :
    runScript utility script.toList files =
      runOrList utility (addCommands username publicKey) files := by
  cases hscript
  have hshape : scriptShape (fun _ => false) false .addAuthorizedKey = some _ := rfl
  refine runScript_of_shape utility files huser hkey rfl hshape ?_ ?_
    (parse_addAuthorizedKey username publicKey hshape)
  · simp [keyValues, keysPath, keysPathTemplate, text, -String.reduceToList]
  · intro quoted key hhole
    simp only [keysPathTemplate, List.mem_append, mem_text, List.mem_singleton,
      Symbol.hole.injEq, false_or, or_false] at hhole
    tauto

theorem run_removeAuthorizedKey {script : String} (huser : usernameAccepts username = true)
    (hkey : publicKeyAccepts publicKey = true)
    (hscript : (removeAuthorizedKey username publicKey).mechanism.script = some script) :
    runScript utility script.toList files =
      runOrList utility (removeCommands username publicKey) files := by
  cases hscript
  have hshape : scriptShape (fun _ => false) false .removeAuthorizedKey = some _ := rfl
  refine runScript_of_shape utility files huser hkey rfl hshape ?_ ?_
    (parse_removeAuthorizedKey username publicKey hshape)
  · simp [keyValues, keysPath, keysPathTemplate, text, -String.reduceToList]
  · intro quoted key hhole
    simp only [keysPathTemplate, List.mem_append, mem_text, List.mem_singleton,
      Symbol.hole.injEq, false_or, or_false] at hhole
    tauto

end Commands

/-! ## Characters of keys and paths -/

theorem keysPath_operand (username : String) : isOperand (keysPath username) = true := by
  simp [isOperand, keysPath]

/-- What the validator leaves out of a key. -/
theorem publicKey_chars {publicKey : String} (h : publicKeyAccepts publicKey = true) :
    ∀ c ∈ publicKey.toList, c ∉ ['\n', '|', '\\', '$', '\x00'] := by
  simp only [publicKeyAccepts, Bool.and_eq_true, Bool.not_eq_true'] at h
  obtain ⟨-, hchars⟩ := h
  intro c hc hmem
  have hallowed := List.any_eq_false.mp hchars c hc
  have hnone : ['\n', '|', '\\', '$', '\x00'].all (fun c =>
      ['\n', '\r', '\x27', '|', ';', '\x60', '$', '\\', '&'].contains c || !isAscii c ||
        isAsciiControl c) = true := by
    decide
  exact hallowed (List.all_eq_true.mp hnone c hmem)

theorem publicKey_operand {publicKey : String} (h : publicKeyAccepts publicKey = true) :
    isOperand publicKey = true := by
  unfold isOperand
  rcases publicKey_head h with hhead | hhead <;> rw [hhead] <;> decide

/-! ## Running the commands -/

section Runs
variable {username publicKey : String} (brackets : List Char → Option (Char → Bool))
  (files : Files)

/-- `grep` finds the key in the file. -/
def isListed (username publicKey : String) (files : Files) : Bool :=
  (files (keysPath username)).any fun content =>
    (TextLines.lines endsRecord content).contains publicKey.toList

theorem run_addCommands (hkey : publicKeyAccepts publicKey = true) :
    runOrList (utility brackets) (addCommands username publicKey) files =
      some (true, if isListed username publicKey files then files
        else files.append (keysPath username) (publicKey.toList ++ ['\n'])) := by
  have hchars := publicKey_chars hkey
  have hoperand := publicKey_operand hkey
  have hnewline : '\n' ∉ publicKey.toList := fun h => hchars _ h (by simp)
  have hbackslash : '\\' ∉ publicKey.toList := fun h => hchars _ h (by simp)
  have hgrep : utility brackets ["grep", "-Fxq", publicKey, keysPath username] files =
      some ⟨isListed username publicKey files, [], files⟩ :=
    if_pos ⟨hoperand, keysPath_operand username, hnewline⟩
  have hecho : utility brackets ["echo", publicKey] files =
      some ⟨true, publicKey.toList ++ ['\n'], files⟩ := by
    simp [utility, echo, hoperand, hbackslash, List.intercalate]
  have hfirst := runCommand_plain hgrep (Or.inr rfl)
  unfold addCommands
  cases hlisted : isListed username publicKey files with
  | true =>
    rw [hlisted] at hfirst
    exact runOrList_success hfirst
  | false =>
    rw [hlisted] at hfirst
    rw [runOrList_failure hfirst]
    exact runOrList_success (runCommand_append hecho)

/-- The key as a pattern for whole lines. -/
def keyPattern (publicKey : String) : List Char := '^' :: (publicKey.toList ++ ['$'])

theorem deletedPattern_removeScript (hkey : publicKeyAccepts publicKey = true) :
    deletedPattern (removeScript publicKey).toList = some (keyPattern publicKey) := by
  have hchars := publicKey_chars hkey
  have hnotMem : ∀ c ∈ ['\n', '|', '\\'], c ∉ keyPattern publicKey := by
    intro c hc hmem
    simp only [keyPattern, List.mem_cons, List.mem_append, List.not_mem_nil, or_false] at hc hmem
    rcases hmem with rfl | hmem | rfl
    · revert hc
      decide
    · refine hchars c hmem ?_
      rcases hc with rfl | rfl | rfl <;> simp
    · revert hc
      decide
  have hscript : (removeScript publicKey).toList =
      '\\' :: '|' :: (keyPattern publicKey ++ ['|', 'd']) := by
    simp [removeScript, keyPattern]
  rw [hscript]
  apply deletedPattern_of_script (List.cons_ne_nil _ _) (hnotMem _ (by simp))
  intro c hc
  rcases List.mem_pair.mp hc with rfl | rfl
  · exact ⟨by decide, hnotMem _ (by simp)⟩
  · exact ⟨by decide, hnotMem _ (by simp)⟩

theorem removeScript_operand (publicKey : String) : isOperand (removeScript publicKey) = true := by
  simp [isOperand, removeScript]

theorem run_removeCommands (hkey : publicKeyAccepts publicKey = true) :
    runOrList (utility brackets) (removeCommands username publicKey) files =
      match BasicRegex.parse brackets (keyPattern publicKey), files (keysPath username) with
      | some regex, some content => some (true, Function.update files (keysPath username)
          (some (deleteLines '\n' isNewline regex.matchesLine content)))
      | _, _ => some (false, files) := by
  have hsed : utility brackets ["sed", "-i", removeScript publicKey, keysPath username] files =
      some (match BasicRegex.parse brackets (keyPattern publicKey), files (keysPath username) with
        | some regex, some content => ⟨true, [], Function.update files (keysPath username)
            (some (deleteLines '\n' isNewline regex.matchesLine content))⟩
        | _, _ => ⟨false, [], files⟩) := by
    show sedInPlace brackets (removeScript publicKey) (keysPath username) files = _
    rw [sedInPlace, if_pos ⟨removeScript_operand publicKey, keysPath_operand username⟩,
      deletedPattern_removeScript hkey]
    rfl
  unfold removeCommands
  rw [runOrList_singleton (runCommand_plain hsed (Or.inl rfl))]
  split <;> rfl

end Runs

/-! ## Keys as a set of lines -/

/-- The lines of a file in any order. -/
def fileLines (content : List Char) : Multiset (List Char) := TextLines.lines isNewline content

/-- The lines with a key that is added. -/
def withKey (publicKey : String) (keys : Multiset (List Char)) : Multiset (List Char) :=
  if publicKey.toList ∈ keys then keys else publicKey.toList ::ₘ keys

/-- The lines without a key. -/
def withoutKey (publicKey : String) (keys : Multiset (List Char)) : Multiset (List Char) :=
  keys.filter (· ≠ publicKey.toList)

/-- The script of `spec` runs and leaves a file with the lines at the path. -/
def LeavesLines (brackets : List Char → Option (Char → Bool)) (files : Files) (spec : ActionSpec)
    (path : String) (wanted : Multiset (List Char)) : Prop :=
  ∃ script success files' content', spec.mechanism.script = some script ∧
    runScript (utility brackets) script.toList files = some (success, files') ∧
    files' path = some content' ∧ fileLines content' = wanted

/-- The line is a text of the key read as a pattern. -/
def KeyMatches (brackets : List Char → Option (Char → Bool)) (publicKey : String)
    (line : List Char) : Prop :=
  ∃ items, BasicRegex.parseItems brackets publicKey.toList = some items ∧
    line ∈ BasicRegex.language items

theorem isNewline_iff (c : Char) : isNewline c = true ↔ c = '\n' := beq_iff_eq

section Lines
variable {brackets : List Char → Option (Char → Bool)} {files : Files}
  {username publicKey : String} {content : List Char} {wanted : Multiset (List Char)}

/-- What a script leaves is what its run leaves. -/
theorem leavesLines_iff_of_run {spec : ActionSpec} {path script : String} {success : Bool}
    {files' : Files} (hscript : spec.mechanism.script = some script)
    (hrun : runScript (utility brackets) script.toList files = some (success, files'))
    (hafter : files' path = some content) :
    LeavesLines brackets files spec path wanted ↔ fileLines content = wanted := by
  constructor
  · rintro ⟨script', success', files'', content', hscript', hrun', hafter', hlines⟩
    obtain rfl := Option.some.inj (hscript.symm.trans hscript')
    rw [hrun] at hrun'
    cases hrun'
    rw [hafter] at hafter'
    cases hafter'
    exact hlines
  · intro h
    exact ⟨script, success, files', content, hscript, hrun, hafter, h⟩

theorem addAuthorizedKey_leaves_iff (huser : usernameAccepts username = true)
    (hkey : publicKeyAccepts publicKey = true)
    (hfile : files (keysPath username) = some content) :
    LeavesLines brackets files (addAuthorizedKey username publicKey) (keysPath username) wanted ↔
      fileLines (if publicKey.toList ∈ TextLines.lines endsRecord content then content
        else content ++ publicKey.toList ++ ['\n']) = wanted := by
  have hrun := run_addAuthorizedKey (utility brackets) files huser hkey rfl
  rw [run_addCommands brackets files hkey] at hrun
  refine leavesLines_iff_of_run rfl hrun ?_
  have hlisted : isListed username publicKey files =
      decide (publicKey.toList ∈ TextLines.lines endsRecord content) := by
    simp [isListed, hfile]
  by_cases hmem : publicKey.toList ∈ TextLines.lines endsRecord content
  · simp [hlisted, hmem, hfile]
  · simp [hlisted, hmem, hfile, Files.append]

/-- The lines that are deleted. -/
def isDeleted (brackets : List Char → Option (Char → Bool)) (publicKey : String)
    (line : List Char) : Bool :=
  (BasicRegex.parse brackets (keyPattern publicKey)).any (·.matchesLine line)

theorem isDeleted_iff {line : List Char} :
    isDeleted brackets publicKey line = true ↔ KeyMatches brackets publicKey line := by
  unfold isDeleted KeyMatches keyPattern
  rw [BasicRegex.parse_anchored]
  cases BasicRegex.parseItems brackets publicKey.toList with
  | none => simp
  | some items => simp [BasicRegex.matchesLine_anchored]

theorem removeAuthorizedKey_leaves_iff (huser : usernameAccepts username = true)
    (hkey : publicKeyAccepts publicKey = true)
    (hfile : files (keysPath username) = some content) :
    LeavesLines brackets files (removeAuthorizedKey username publicKey) (keysPath username)
        wanted ↔
      (fileLines content).filter (fun line => ¬ isDeleted brackets publicKey line = true) =
        wanted := by
  have hrun := run_removeAuthorizedKey (utility brackets) files huser hkey rfl
  rw [run_removeCommands brackets files hkey, hfile] at hrun
  cases hparse : BasicRegex.parse brackets (keyPattern publicKey) with
  | none =>
    rw [hparse] at hrun
    rw [leavesLines_iff_of_run rfl hrun hfile]
    have hnone : ∀ line, isDeleted brackets publicKey line = false := by
      intro line
      rw [isDeleted, hparse]
      rfl
    simp [hnone]
  | some regex =>
    rw [hparse] at hrun
    rw [leavesLines_iff_of_run rfl hrun (Function.update_self ..)]
    have hdeleted : isDeleted brackets publicKey = regex.matchesLine := by
      funext line
      rw [isDeleted, hparse]
      rfl
    rw [hdeleted]
    simp [fileLines, lines_deleteLines isNewline_iff]

/-! ## What is added and what is removed -/

theorem addAuthorizedKey_adds_iff (huser : usernameAccepts username = true)
    (hkey : publicKeyAccepts publicKey = true)
    (hfile : files (keysPath username) = some content) :
    LeavesLines brackets files (addAuthorizedKey username publicKey) (keysPath username)
        (withKey publicKey (fileLines content)) ↔
      publicKey.toList ∈ fileLines content ∨
        (content = [] ∨ content.getLast? = some '\n') ∧
          publicKey.toList ∉ TextLines.lines endsRecord content := by
  rw [addAuthorizedKey_leaves_iff huser hkey hfile]
  have hchars := publicKey_chars hkey
  by_cases hmem : publicKey.toList ∈ fileLines content
  · have hends : Unbroken endsRecord publicKey.toList := by
      intro c hc
      have hnot := hchars c hc
      simp only [List.mem_cons, List.not_mem_nil, or_false, not_or] at hnot
      simp [endsRecord, hnot.1, hnot.2.2.2.2]
    have hrecord := mem_lines_of_mem isNewline_iff (by decide) hmem hends
    rw [if_pos hrecord, withKey, if_pos hmem]
    exact iff_of_true rfl (Or.inl hmem)
  · have hline : Unbroken isNewline publicKey.toList := by
      intro c hc
      rw [← Bool.not_eq_true, isNewline_iff]
      rintro rfl
      exact hchars _ hc (by simp)
    rw [withKey, if_neg hmem, or_iff_right hmem]
    by_cases hrecord : publicKey.toList ∈ TextLines.lines endsRecord content
    · -- `grep` takes a part of another line for the key
      rw [if_pos hrecord]
      refine iff_of_false (Multiset.lt_cons_self _ _).ne ?_
      intro h
      exact h.2 hrecord
    · rw [if_neg hrecord, and_iff_left hrecord, ← lines_append_line_perm_iff isNewline_iff hline]
      exact Multiset.coe_eq_coe

/-- Two selections are the same if they agree on the members. -/
theorem filter_eq_filter_iff {α : Type} {p q : α → Prop} [DecidablePred p] [DecidablePred q]
    {s : Multiset α} : s.filter p = s.filter q ↔ ∀ a ∈ s, p a ↔ q a := by
  refine ⟨?_, Multiset.filter_congr⟩
  intro h a ha
  have hmem : a ∈ s.filter p ↔ a ∈ s.filter q := by rw [h]
  simpa [Multiset.mem_filter, ha] using hmem

theorem removeAuthorizedKey_removes_iff (huser : usernameAccepts username = true)
    (hkey : publicKeyAccepts publicKey = true)
    (hfile : files (keysPath username) = some content) :
    LeavesLines brackets files (removeAuthorizedKey username publicKey) (keysPath username)
        (withoutKey publicKey (fileLines content)) ↔
      ∀ line ∈ fileLines content,
        KeyMatches brackets publicKey line ↔ line = publicKey.toList := by
  rw [removeAuthorizedKey_leaves_iff huser hkey hfile, withoutKey, filter_eq_filter_iff]
  simp only [isDeleted_iff, ne_eq, not_iff_not]

/-- A key without a period, bracket or star matches itself and nothing else. -/
theorem keyMatches_plain (h : ∀ c ∈ publicKey.toList, BasicRegex.isSpecial c = false)
    (line : List Char) : KeyMatches brackets publicKey line ↔ line = publicKey.toList := by
  unfold KeyMatches
  rw [BasicRegex.parseItems_plain brackets h]
  simp only [Option.some.injEq, exists_eq_left', BasicRegex.mem_language_literals]

theorem removeAuthorizedKey_plain (huser : usernameAccepts username = true)
    (hkey : publicKeyAccepts publicKey = true)
    (hplain : ∀ c ∈ publicKey.toList, BasicRegex.isSpecial c = false)
    (hfile : files (keysPath username) = some content) :
    LeavesLines brackets files (removeAuthorizedKey username publicKey) (keysPath username)
      (withoutKey publicKey (fileLines content)) :=
  (removeAuthorizedKey_removes_iff huser hkey hfile).mpr fun line _ => keyMatches_plain hplain line

/-- Adding a key is adding a line where the file is complete and no part of a line
between NULs is the key; removing it is removing a line where the key, read as a
pattern, tells it from the other lines. A text is the list of the characters that the
locale makes of it, which are its bytes in the C locale. -/
theorem keysAreLines_iff (huser : usernameAccepts username = true)
    (hkey : publicKeyAccepts publicKey = true)
    (hfile : files (keysPath username) = some content) :
    (LeavesLines brackets files (addAuthorizedKey username publicKey) (keysPath username)
          (withKey publicKey (fileLines content)) ↔
        publicKey.toList ∈ fileLines content ∨
          (content = [] ∨ content.getLast? = some '\n') ∧
            publicKey.toList ∉ TextLines.lines endsRecord content) ∧
      (LeavesLines brackets files (removeAuthorizedKey username publicKey) (keysPath username)
          (withoutKey publicKey (fileLines content)) ↔
        ∀ line ∈ fileLines content,
          KeyMatches brackets publicKey line ↔ line = publicKey.toList) :=
  ⟨addAuthorizedKey_adds_iff huser hkey hfile, removeAuthorizedKey_removes_iff huser hkey hfile⟩

end Lines

/-- A list of characters without ranges and classes. -/
def listedChars (list : List Char) : Option (Char → Bool) := some list.contains

/-- Every file has the same text. -/
def sameText (text : String) : Files := fun _ => some text.toList

theorem keysAreLines_iff_plain :
    LeavesLines listedChars (sameText "ssh-rsa OLD\n")
        (addAuthorizedKey "alice" "ssh-ed25519 AAAA") (keysPath "alice")
        (withKey "ssh-ed25519 AAAA" (fileLines "ssh-rsa OLD\n".toList)) ∧
      LeavesLines listedChars (sameText "ssh-rsa OLD\n")
        (removeAuthorizedKey "alice" "ssh-ed25519 AAAA") (keysPath "alice")
        (withoutKey "ssh-ed25519 AAAA" (fileLines "ssh-rsa OLD\n".toList)) := by
  have huser : usernameAccepts "alice" = true := by decide +kernel
  have hkey : publicKeyAccepts "ssh-ed25519 AAAA" = true := by decide +kernel
  have hplain : ∀ c ∈ "ssh-ed25519 AAAA".toList, BasicRegex.isSpecial c = false := by
    simp [BasicRegex.isSpecial]
  refine ⟨(keysAreLines_iff huser hkey rfl).1.mpr (Or.inr ⟨Or.inr ?_, ?_⟩),
    (keysAreLines_iff huser hkey rfl).2.mpr fun line _ => keyMatches_plain hplain line⟩
  · decide +kernel
  · decide +kernel

/-- A key runs into an incomplete line, and one with a period takes another key away. -/
theorem keysAreLines_fails :
    (publicKeyAccepts "ssh-rsa NEW" = true ∧
      ¬ LeavesLines listedChars (sameText "ssh-rsa OLD") (addAuthorizedKey "alice" "ssh-rsa NEW")
        (keysPath "alice") (withKey "ssh-rsa NEW" (fileLines "ssh-rsa OLD".toList))) ∧
      publicKeyAccepts "ssh-rsa AAAA a.b" = true ∧
      ¬ LeavesLines listedChars (sameText "ssh-rsa AAAA axb\n")
        (removeAuthorizedKey "alice" "ssh-rsa AAAA a.b") (keysPath "alice")
        (withoutKey "ssh-rsa AAAA a.b" (fileLines "ssh-rsa AAAA axb\n".toList)) := by
  have huser : usernameAccepts "alice" = true := by decide +kernel
  have hnew : publicKeyAccepts "ssh-rsa NEW" = true := by decide +kernel
  have hperiod : publicKeyAccepts "ssh-rsa AAAA a.b" = true := by decide +kernel
  refine ⟨⟨hnew, ?_⟩, hperiod, ?_⟩
  · rw [addAuthorizedKey_adds_iff huser hnew rfl]
    decide +kernel
  · rw [removeAuthorizedKey_removes_iff huser hperiod rfl]
    intro h
    have hmem : "ssh-rsa AAAA axb".toList ∈ fileLines "ssh-rsa AAAA axb\n".toList := by
      decide +kernel
    have hdeleted : isDeleted listedChars "ssh-rsa AAAA a.b" "ssh-rsa AAAA axb".toList = true := by
      decide +kernel
    have heq := (h _ hmem).mp (isDeleted_iff.mp hdeleted)
    revert heq
    decide +kernel

end Sysknife
