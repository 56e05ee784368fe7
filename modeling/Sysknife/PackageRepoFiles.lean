import Mathlib.Tactic
import Sysknife.ActionTraits
import Sysknife.Dispatcher
import Sysknife.Lib.TextLines
import Sysknife.Lib.TextMatch

/-!
# Repository files under `EnablePackageRepository` and `DisablePackageRepository`

A repository file is written once, and then patched: the first occurrence of a text in
the whole file is replaced.
-/

namespace Sysknife

open Actions Fallible TextLines TextMatch

/-! ## File mechanisms -/

/-- The texts of the files that can be read. -/
abbrev FileTexts := String → Option (List Char)

def FileTexts.write (files : FileTexts) (path : String) (content : List Char) : FileTexts :=
  fun p => if p = path then some content else files p

def FileTexts.remove (files : FileTexts) (path : String) : FileTexts :=
  fun p => if p = path then none else files p

@[simp] theorem FileTexts.write_same (files : FileTexts) (path : String) (content : List Char) :
    files.write path content path = some content := if_pos rfl

/-- `execute_spec` for a mechanism that writes a file; `none` for the others, and where
the file cannot be read. -/
def executeFile (files : FileTexts) : ActionMechanism → Option (FileTexts × ExecutionOutput)
  | .fileWrite path content => some (files.write path content.toList, ⟨"", "", 0⟩)
  | .filePatch path search replace =>
    match files path with
    | none => none
    | some content =>
      let patched := replaceFirst search.toList replace.toList content
      if patched = content ∧ search ≠ "" then
        some (files, ⟨"", "search string not found in file: " ++ path, 1⟩)
      else some (files.write path patched, ⟨"", "", 0⟩)
  | .fileDelete path =>
    match files path with
    | none => none
    | some _ => some (files.remove path, ⟨"", "", 0⟩)
  | _ => none

/-- An execution that ends with success. -/
def FileExecuted (spec : ActionSpec) (files files' : FileTexts) : Prop :=
  ∃ output, executeFile files spec.mechanism = some (files', output) ∧ output.isSuccess = true

/-! ## Runs -/

/-- The specs of the two actions on one repository. -/
def toggle (repoId : String) (enable : Bool) : ActionSpec :=
  if enable then enablePackageRepository repoId else disablePackageRepository repoId

/-- Executions in a row, all with success. -/
inductive ToggleRun (repoId : String) : FileTexts → List Bool → FileTexts → Prop where
  | nil {files : FileTexts} : ToggleRun repoId files [] files
  | cons {files next files' : FileTexts} {op : Bool} {ops : List Bool} :
      FileExecuted (toggle repoId op) files next → ToggleRun repoId next ops files' →
      ToggleRun repoId files (op :: ops) files'

/-- The value of a key: what is behind `key=` in the first such line. -/
def iniValue (key : List Char) (content : List Char) : Option (List Char) :=
  (TextLines.lines (· == '\n') content).findSome? fun line =>
    if (key ++ ['=']).isPrefixOf line then some (line.drop (key.length + 1)) else none

/-- What a repository file keeps through the executions. -/
structure KeepsRepository (repoId : String) (repoUrl : List Char) (written : FileTexts) :
    Prop where
  keys : ∀ ops files, ToggleRun repoId written ops files →
    ∃ content, files (repoPath repoId) = some content ∧
      iniValue "baseurl".toList content = some repoUrl ∧
      iniValue "enabled".toList content = some [if ops.getLastD true then '1' else '0']
  restored : ∀ ops files files', ToggleRun repoId written ops files →
    ToggleRun repoId files [false, true] files' →
    files' (repoPath repoId) = files (repoPath repoId)

/-! ## The text of a file -/

/-- The key that the two actions replace, with its value. -/
def enabledKey (digit : Char) : List Char := "enabled=".toList ++ [digit]

def fileText (repoId url : List Char) (digit : Char) : List Char :=
  ('[' :: (repoId ++ "]\nbaseurl=".toList)) ++ (url ++ '\n' :: (enabledKey digit ++ ['\n']))

theorem enabled_eq : "enabled=".toList = ['e', 'n', 'a', 'b', 'l', 'e', 'd', '='] :=
  String.toList_ofList

theorem enabledKey_eq (digit : Char) :
    enabledKey digit = ['e', 'n', 'a', 'b', 'l', 'e', 'd', '=', digit] := by
  unfold enabledKey
  rw [enabled_eq]
  simp only [List.cons_append, List.nil_append]

theorem header_eq : "]\nbaseurl=".toList =
    [']', '\n', 'b', 'a', 's', 'e', 'u', 'r', 'l', '='] := String.toList_ofList

/-- The key begins nowhere in front of the address. -/
theorem header_noKey {repoId : List Char} (hid : '=' ∉ repoId) {digit : Char}
    (hdigit : digit ≠ ']') (u : List Char) :
    ∀ s, s ≠ [] → s <:+ '[' :: (repoId ++ "]\nbaseurl=".toList) →
      ¬ enabledKey digit <+: s ++ u := by
  rw [enabledKey_eq, header_eq]
  intro s hne hs hpre
  rcases List.suffix_cons_iff.mp hs with rfl | ⟨t, ht⟩
  · rw [List.cons_append, List.cons_prefix_cons] at hpre
    exact absurd hpre.1 (by decide)
  · rcases List.append_eq_append_iff.mp ht with ⟨part, hpart, rfl⟩ | ⟨part, rfl, hpart⟩
    · -- within the identifier, which has no equals sign
      rw [List.append_assoc, List.cons_append] at hpre
      have hshort := (prefix_append_cons_iff (by simp [Ne.symm hdigit])).mp hpre
      have hmem : '=' ∈ part := hshort.subset (by simp)
      exact hid (hpart ▸ List.mem_append_right t hmem)
    · have hsuffix : s <:+ [']', '\n', 'b', 'a', 's', 'e', 'u', 'r', 'l', '='] := ⟨part, hpart.symm⟩
      simp only [List.suffix_cons_iff, List.suffix_nil] at hsuffix
      rcases hsuffix with rfl | rfl | rfl | rfl | rfl | rfl | rfl | rfl | rfl | rfl | rfl
      all_goals simp [List.cons_prefix_cons] at hpre hne

/-- Replacing the key changes the address, where the address has the key. -/
theorem replace_fileText {repoId : List Char} (hid : '=' ∉ repoId) {old : Char}
    (hfrom : old ≠ ']') (hline : old ≠ '\n') (new digit : Char) (url : List Char) :
    replaceFirst (enabledKey old) (enabledKey new) (fileText repoId url digit) =
      if enabledKey old <:+: url then
        fileText repoId (replaceFirst (enabledKey old) (enabledKey new) url) digit
      else fileText repoId url (if digit = old then new else digit) := by
  have hne : enabledKey old ≠ [] := by
    rw [enabledKey_eq]
    exact List.cons_ne_nil _ _
  have hnewline : '\n' ∉ enabledKey old := by
    rw [enabledKey_eq]
    simp [Ne.symm hline]
  have hlast : replaceFirst (enabledKey old) (enabledKey new) (enabledKey digit ++ ['\n']) =
      enabledKey (if digit = old then new else digit) ++ ['\n'] := by
    by_cases h : digit = old
    · rw [if_pos h, h, replaceFirst_prefixed hne (List.prefix_append _ _), List.drop_left]
    · rw [if_neg h]
      apply replaceFirst_eq_self
      rw [enabledKey_eq, enabledKey_eq]
      simp only [List.cons_append, List.nil_append, List.infix_cons_iff, List.cons_prefix_cons,
        List.infix_nil]
      simp [Ne.symm h]
  rw [fileText, replaceFirst_append (header_noKey hid hfrom _),
    replaceFirst_append_cons hnewline hne, hlast]
  split_ifs <;> rfl

/-- The three lines of a file. -/
theorem lines_fileText {repoId url : List Char} (hid : '\n' ∉ repoId) (hurl : '\n' ∉ url)
    {digit : Char} (hdigit : digit ≠ '\n') :
    TextLines.lines (· == '\n') (fileText repoId url digit) =
      ['[' :: (repoId ++ [']']), "baseurl=".toList ++ url, enabledKey digit] := by
  have hbase : "baseurl=".toList = ['b', 'a', 's', 'e', 'u', 'r', 'l', '='] :=
    String.toList_ofList
  have hjoin : fileText repoId url digit =
      join '\n' ['[' :: (repoId ++ [']']), "baseurl=".toList ++ url, enabledKey digit] [] := by
    simp [fileText, join, header_eq, hbase]
  have hunbroken : ∀ line : List Char, '\n' ∉ line → Unbroken (· == '\n') line := by
    intro line hline c hc
    rw [beq_eq_false_iff_ne]
    rintro rfl
    exact hline hc
  rw [hjoin, TextLines.lines, split_join (by decide) _ unbroken_nil]
  · rfl
  · intro line hline
    simp only [List.mem_cons, List.not_mem_nil, or_false] at hline
    apply hunbroken
    rcases hline with rfl | rfl | rfl
    · simp [hid]
    · simp [hbase, hurl]
    · simp [enabledKey_eq, Ne.symm hdigit]

theorem iniValue_fileText {repoId url : List Char} (hid : '\n' ∉ repoId) (hurl : '\n' ∉ url)
    {digit : Char} (hdigit : digit ≠ '\n') :
    iniValue "baseurl".toList (fileText repoId url digit) = some url ∧
      iniValue "enabled".toList (fileText repoId url digit) = some [digit] := by
  have hbase : "baseurl=".toList = ['b', 'a', 's', 'e', 'u', 'r', 'l', '='] :=
    String.toList_ofList
  have hbaseKey : "baseurl".toList = ['b', 'a', 's', 'e', 'u', 'r', 'l'] :=
    String.toList_ofList
  have henabledKey : "enabled".toList = ['e', 'n', 'a', 'b', 'l', 'e', 'd'] :=
    String.toList_ofList
  unfold iniValue
  rw [lines_fileText hid hurl hdigit, hbase, hbaseKey, henabledKey, enabledKey_eq]
  constructor
  · simp [List.findSome?, List.isPrefixOf]
  · simp [List.findSome?, List.isPrefixOf]

/-! ## Single executions -/

def enabledDigit (enable : Bool) : Char := if enable then '1' else '0'

/-- The patch of one of the two actions. -/
theorem toggle_mechanism (repoId : String) (enable : Bool) :
    ∃ search replace : String, (toggle repoId enable).mechanism =
        .filePatch (repoPath repoId) search replace ∧ search ≠ "" ∧
      search.toList = enabledKey (enabledDigit !enable) ∧
      replace.toList = enabledKey (enabledDigit enable) := by
  have hzero : "enabled=0".toList = enabledKey '0' := by
    rw [enabledKey_eq]
    exact String.toList_ofList
  have hone : "enabled=1".toList = enabledKey '1' := by
    rw [enabledKey_eq]
    exact String.toList_ofList
  cases enable with
  | false => exact ⟨"enabled=1", "enabled=0", rfl, by decide, hone, hzero⟩
  | true => exact ⟨"enabled=0", "enabled=1", rfl, by decide, hzero, hone⟩

theorem executed_toggle_iff {repoId : String} {enable : Bool} {files files' : FileTexts} :
    FileExecuted (toggle repoId enable) files files' ↔
      ∃ content, files (repoPath repoId) = some content ∧
        replaceFirst (enabledKey (enabledDigit !enable)) (enabledKey (enabledDigit enable))
          content ≠ content ∧
        files' = files.write (repoPath repoId) (replaceFirst (enabledKey (enabledDigit !enable))
          (enabledKey (enabledDigit enable)) content) := by
  obtain ⟨search, replace, hmechanism, hsearch, hold, hnew⟩ := toggle_mechanism repoId enable
  rw [FileExecuted, hmechanism, executeFile, hold, hnew]
  cases files (repoPath repoId) with
  | none => simp
  | some content =>
    by_cases hsame : replaceFirst (enabledKey (enabledDigit !enable))
        (enabledKey (enabledDigit enable)) content = content
    · simp only [if_pos (And.intro hsame hsearch), Option.some.injEq, Prod.mk.injEq,
        ExecutionOutput.isSuccess]
      constructor
      · rintro ⟨output, ⟨-, rfl⟩, hsuccess⟩
        exact absurd hsuccess (by simp)
      · rintro ⟨other, rfl, hne, -⟩
        exact absurd hsame hne
    · simp only [if_neg (fun hboth => hsame (And.left hboth)), Option.some.injEq, Prod.mk.injEq,
        ExecutionOutput.isSuccess]
      constructor
      · rintro ⟨output, ⟨rfl, -⟩, -⟩
        exact ⟨content, rfl, hsame, rfl⟩
      · rintro ⟨other, rfl, -, rfl⟩
        exact ⟨_, ⟨rfl, rfl⟩, by simp⟩

/-- The address has neither of the two texts that are replaced. -/
def NoEnabledKey (url : List Char) : Prop :=
  ¬ enabledKey '0' <:+: url ∧ ¬ enabledKey '1' <:+: url

/-- What one execution does to a repository file. -/
theorem executed_fileText {repoId : String} {url : List Char} {digit enable : Bool}
    {files files' : FileTexts} (hid : '=' ∉ repoId.toList)
    (hfile : files (repoPath repoId) = some (fileText repoId.toList url (enabledDigit digit)))
    (hurl : NoEnabledKey url) (h : FileExecuted (toggle repoId enable) files files') :
    enable = !digit ∧
      files' (repoPath repoId) = some (fileText repoId.toList url (enabledDigit enable)) := by
  obtain ⟨content, hcontent, hne, rfl⟩ := executed_toggle_iff.mp h
  rw [hfile, Option.some.injEq] at hcontent
  subst hcontent
  have hfree : ¬ enabledKey (enabledDigit !enable) <:+: url := by
    cases enable with
    | false => exact hurl.2
    | true => exact hurl.1
  have hdigit : enabledDigit (!enable) ≠ ']' ∧ enabledDigit (!enable) ≠ '\n' := by
    cases enable <;> decide
  rw [replace_fileText hid hdigit.1 hdigit.2, if_neg hfree] at hne ⊢
  rw [FileTexts.write_same]
  by_cases hsame : enable = digit
  · subst hsame
    rw [if_neg (by cases enable <;> decide)] at hne
    exact absurd rfl hne
  · have hflip : enable = !digit := by
      cases enable <;> cases digit <;> simp_all
    subst hflip
    rw [Bool.not_not, if_pos rfl]
    exact ⟨rfl, rfl⟩

/-- What a run leaves in a repository file. -/
theorem run_fileText {repoId : String} {url : List Char} (hid : '=' ∉ repoId.toList)
    (hurl : NoEnabledKey url) {ops : List Bool} {files files' : FileTexts} {digit : Bool}
    (hfile : files (repoPath repoId) = some (fileText repoId.toList url (enabledDigit digit)))
    (h : ToggleRun repoId files ops files') :
    files' (repoPath repoId) =
      some (fileText repoId.toList url (enabledDigit (ops.getLastD digit))) := by
  induction h generalizing digit with
  | nil => exact hfile
  | @cons files next files' op ops hop hrest ih =>
    have hnext := (executed_fileText hid hfile hurl hop).2
    rw [ih hnext, List.getLastD_cons]

/-- An address with the key is what the execution changes. -/
theorem executed_spoils {repoId : String} {url : List Char} (digit : Char) (enable : Bool)
    {files : FileTexts} (hid : '=' ∉ repoId.toList) (hidLine : '\n' ∉ repoId.toList)
    (hurl : '\n' ∉ url) (hdigit : digit ≠ '\n')
    (hfile : files (repoPath repoId) = some (fileText repoId.toList url digit))
    (hkey : enabledKey (enabledDigit !enable) <:+: url) :
    ∃ files' url', FileExecuted (toggle repoId enable) files files' ∧
      files' (repoPath repoId) = some (fileText repoId.toList url' digit) ∧
      url' ≠ url ∧ '\n' ∉ url' := by
  have hold : enabledDigit (!enable) ≠ ']' ∧ enabledDigit (!enable) ≠ '\n' := by
    cases enable <;> decide
  have hdiffer : enabledDigit enable ≠ enabledDigit (!enable) := by
    cases enable <;> decide
  have hpatched := replace_fileText hid hold.1 hold.2 (enabledDigit enable) digit url
  rw [if_pos hkey] at hpatched
  have hurl' : replaceFirst (enabledKey (enabledDigit !enable)) (enabledKey (enabledDigit enable))
      url ≠ url := by
    refine replaceFirst_ne ?_ ?_ ?_ hkey
    · rw [enabledKey_eq]
      exact List.cons_ne_nil _ _
    · rw [enabledKey_eq, enabledKey_eq]
      simp [hdiffer]
    · rw [enabledKey_eq, enabledKey_eq]
      rfl
  have hline : '\n' ∉ replaceFirst (enabledKey (enabledDigit !enable))
      (enabledKey (enabledDigit enable)) url := by
    intro hmem
    rcases mem_replaceFirst hmem with hmem | hmem
    · exact hurl hmem
    · rw [enabledKey_eq] at hmem
      cases enable <;> exact absurd hmem (by decide)
  refine ⟨_, _, executed_toggle_iff.mpr ⟨_, hfile, ?_, rfl⟩, ?_, hurl', hline⟩
  · rw [hpatched]
    intro heq
    have hbase := (iniValue_fileText hidLine hline hdigit).1
    rw [heq, (iniValue_fileText hidLine hurl hdigit).1, Option.some.injEq] at hbase
    exact hurl' hbase.symm
  · rw [FileTexts.write_same, hpatched]

/-! ## Where the file is kept -/

theorem addPackageRepository_built (params : Json) :
    Ensures (specFor .addPackageRepository params) fun spec =>
      ∃ repoId repoUrl, requireStr params "repo_id" = .ok repoId ∧
        requireStr params "repo_url" = .ok repoUrl ∧ repoIdAccepts repoId = true ∧
        noNewlineAccepts repoUrl = true ∧ spec = addPackageRepository repoId repoUrl := by
  refine ensures_bind fun repoId hid => ensures_bind fun repoUrl hurl => ?_
  obtain ⟨s, hs, haccepts⟩ : ∃ s, requireStr params "repo_id" = .ok s ∧
      validated repoIdAccepts s "repo_id" = .ok repoId := by
    unfold validatedRepoId at hid
    cases hs : requireStr params "repo_id" with
    | error e =>
      rw [hs] at hid
      cases hid
    | ok s =>
      rw [hs] at hid
      exact ⟨s, rfl, hid⟩
  obtain ⟨t, ht, hline⟩ : ∃ t, requireStr params "repo_url" = .ok t ∧
      validated noNewlineAccepts t "repo_url" = .ok repoUrl := by
    unfold validatedNoNewline at hurl
    cases ht : requireStr params "repo_url" with
    | error e =>
      rw [ht] at hurl
      cases hurl
    | ok t =>
      rw [ht] at hurl
      exact ⟨t, rfl, hurl⟩
  obtain ⟨hid, rfl⟩ := validated_ok_iff.mp haccepts
  obtain ⟨hurl, rfl⟩ := validated_ok_iff.mp hline
  exact ensures_ok ⟨repoId, repoUrl, hs, ht, hid, hurl, rfl⟩

theorem written_fileText {repoId repoUrl : String} {before written : FileTexts}
    (h : FileExecuted (addPackageRepository repoId repoUrl) before written) :
    written (repoPath repoId) =
      some (fileText repoId.toList repoUrl.toList (enabledDigit true)) := by
  obtain ⟨output, houtput, -⟩ := h
  unfold addPackageRepository executeFile at houtput
  simp only [Option.some.injEq, Prod.mk.injEq] at houtput
  have hopen : "[".toList = ['['] := String.toList_ofList
  have hend : "\nenabled=1\n".toList = '\n' :: (enabledKey '1' ++ ['\n']) := by
    rw [enabledKey_eq]
    exact String.toList_ofList
  rw [← houtput.1, FileTexts.write_same, String.toList_append, String.toList_append,
    String.toList_append, String.toList_append, hopen, hend]
  simp [fileText, enabledDigit]

section Kept
variable {repoId repoUrl : String} {written : FileTexts}
variable (hequals : '=' ∉ repoId.toList) (hidLine : '\n' ∉ repoId.toList)
variable (hurlLine : '\n' ∉ repoUrl.toList)
variable (hfile : written (repoPath repoId) =
  some (fileText repoId.toList repoUrl.toList (enabledDigit true)))

include hidLine in
/-- A file that is kept has the address that was written. -/
theorem KeepsRepository.url_eq (hkept : KeepsRepository repoId repoUrl.toList written)
    {ops : List Bool} {files : FileTexts} {url : List Char} {digit : Char}
    (hrun : ToggleRun repoId written ops files) (hdigit : digit ≠ '\n')
    (hafter : files (repoPath repoId) = some (fileText repoId.toList url digit))
    (hline : '\n' ∉ url) : url = repoUrl.toList := by
  obtain ⟨content, hcontent, hbase, -⟩ := hkept.keys ops files hrun
  rw [hafter, Option.some.injEq] at hcontent
  rw [← hcontent, (iniValue_fileText hidLine hline hdigit).1, Option.some.injEq] at hbase
  exact hbase

include hequals hidLine hurlLine hfile

/-- An address without the key of an enabled file: the file is disabled. -/
theorem disabled_fileText (hnoOne : ¬ enabledKey '1' <:+: repoUrl.toList) :
    FileExecuted (toggle repoId false) written
      (written.write (repoPath repoId) (fileText repoId.toList repoUrl.toList '0')) := by
  have hone : '1' ≠ ']' ∧ '1' ≠ '\n' := by decide
  have hzero : '0' ≠ '\n' := by decide
  have hpatched := replace_fileText hequals hone.1 hone.2 '0' '1' repoUrl.toList
  rw [if_neg hnoOne, if_pos rfl] at hpatched
  refine executed_toggle_iff.mpr ⟨_, hfile, ?_, ?_⟩
  · intro heq
    have hsame : fileText repoId.toList repoUrl.toList '0' =
        fileText repoId.toList repoUrl.toList '1' := hpatched.symm.trans heq
    have henabled := (iniValue_fileText hidLine hurlLine hzero).2
    rw [hsame, (iniValue_fileText hidLine hurlLine hone.2).2] at henabled
    exact absurd henabled (by decide)
  · rw [← hpatched]
    rfl

theorem noEnabledKey_of_keeps (hkept : KeepsRepository repoId repoUrl.toList written) :
    NoEnabledKey repoUrl.toList := by
  have hnoOne : ¬ enabledKey '1' <:+: repoUrl.toList := by
    intro hkey
    obtain ⟨files, url, hexecuted, hafter, hne, hline⟩ :=
      executed_spoils '1' false hequals hidLine hurlLine (by decide) hfile hkey
    have hrun : ToggleRun repoId written [false] files := .cons hexecuted .nil
    exact hne (hkept.url_eq hidLine hrun (by decide) hafter hline)
  refine ⟨fun hkey => ?_, hnoOne⟩
  -- disabled first, the file is enabled again in the wrong place
  have hdisabled := disabled_fileText hequals hidLine hurlLine hfile hnoOne
  obtain ⟨files, url, hexecuted, hafter, hne, hline⟩ :=
    executed_spoils '0' true hequals hidLine hurlLine (by decide) (FileTexts.write_same ..) hkey
  have hrun : ToggleRun repoId written [false, true] files := .cons hdisabled (.cons hexecuted .nil)
  exact hne (hkept.url_eq hidLine hrun (by decide) hafter hline)

theorem keeps_of_noEnabledKey (hfree : NoEnabledKey repoUrl.toList) :
    KeepsRepository repoId repoUrl.toList written := by
  refine ⟨fun ops files hrun => ?_, fun ops files files' hrun hboth => ?_⟩
  · have hafter := run_fileText hequals hfree hfile hrun
    have hdigit : enabledDigit (ops.getLastD true) ≠ '\n' := by
      cases ops.getLastD true <;> decide
    obtain ⟨hbase, henabled⟩ := iniValue_fileText hidLine hurlLine hdigit
    exact ⟨_, hafter, hbase, henabled⟩
  · have hmiddle := run_fileText hequals hfree hfile hrun
    have hend := run_fileText hequals hfree hmiddle hboth
    cases hboth with
    | cons hdisable hrest =>
      -- the file was enabled, as it could be disabled
      have hflip := (executed_fileText hequals hmiddle hfree hdisable).1
      have hdigit : ops.getLastD true = true := by
        cases hlast : ops.getLastD true with
        | false =>
          rw [hlast] at hflip
          cases hflip
        | true => rfl
      rw [hend, hmiddle, hdigit]
      rfl

end Kept

theorem repository_kept_iff {params : Json} {spec : ActionSpec} {before written : FileTexts}
    (hspec : buildActionSpec ActionName.addPackageRepository.text params = .ok spec)
    (hwritten : FileExecuted spec before written) :
    ∃ repoId repoUrl, requireStr params "repo_id" = .ok repoId ∧
      requireStr params "repo_url" = .ok repoUrl ∧
      (KeepsRepository repoId repoUrl.toList written ↔ NoEnabledKey repoUrl.toList) := by
  rw [buildActionSpec_text] at hspec
  obtain ⟨repoId, repoUrl, hid, hurl, hidAccepts, hurlAccepts, rfl⟩ :=
    (addPackageRepository_built params).apply hspec
  refine ⟨repoId, repoUrl, hid, hurl, ?_⟩
  rw [repoIdAccepts, Bool.and_eq_true] at hidAccepts
  have hequals : '=' ∉ repoId.toList := notMem_of_onlyChars hidAccepts.2 (by decide) (by decide)
  have hidLine : '\n' ∉ repoId.toList := notMem_of_onlyChars hidAccepts.2 (by decide) (by decide)
  have hurlLine : '\n' ∉ repoUrl.toList := by
    simp only [noNewlineAccepts, Bool.not_eq_true', Bool.or_eq_false_iff] at hurlAccepts
    simpa using hurlAccepts.1
  have hfile := written_fileText hwritten
  exact ⟨noEnabledKey_of_keeps hequals hidLine hurlLine hfile,
    keeps_of_noEnabledKey hequals hidLine hurlLine hfile⟩

def fedoraRepository : Json :=
  .object [("repo_id", .string "fedora"), ("repo_url", .string "https://f.example/os")]

theorem fedora_kept : ∃ repoId repoUrl, requireStr fedoraRepository "repo_id" = .ok repoId ∧
    requireStr fedoraRepository "repo_url" = .ok repoUrl ∧
    (KeepsRepository repoId repoUrl.toList (FileTexts.write (fun _ => none) (repoPath "fedora")
      "[fedora]\nbaseurl=https://f.example/os\nenabled=1\n".toList) ↔
      NoEnabledKey repoUrl.toList) :=
  repository_kept_iff
    (by decide +kernel : buildActionSpec ActionName.addPackageRepository.text fedoraRepository =
      .ok (addPackageRepository "fedora" "https://f.example/os"))
    (⟨⟨"", "", 0⟩, rfl, rfl⟩ : FileExecuted (addPackageRepository "fedora" "https://f.example/os")
      (fun _ => none) _)

/-- An address whose query has the key. -/
def queryParams : Json :=
  .object [("repo_id", .string "f"), ("repo_url", .string "h://f/?enabled=1")]

theorem repository_not_kept : ¬ ∀ (params : Json) (spec : ActionSpec)
    (before written : FileTexts),
    buildActionSpec ActionName.addPackageRepository.text params = .ok spec →
    FileExecuted spec before written →
    ∃ repoId repoUrl, requireStr params "repo_id" = .ok repoId ∧
      requireStr params "repo_url" = .ok repoUrl ∧
      KeepsRepository repoId repoUrl.toList written := by
  intro hall
  have hspec : buildActionSpec ActionName.addPackageRepository.text queryParams =
      .ok (addPackageRepository "f" "h://f/?enabled=1") := by decide +kernel
  have hwritten : FileExecuted (addPackageRepository "f" "h://f/?enabled=1") (fun _ => none)
      (FileTexts.write (fun _ => none) (repoPath "f")
        ("[" ++ "f" ++ "]\nbaseurl=" ++ "h://f/?enabled=1" ++ "\nenabled=1\n").toList) :=
    ⟨⟨"", "", 0⟩, rfl, rfl⟩
  obtain ⟨repoId, repoUrl, hid, hurl, hkept⟩ := hall _ _ _ _ hspec hwritten
  obtain rfl : "f" = repoId := by
    have hread : requireStr queryParams "repo_id" = .ok "f" := rfl
    rw [hread, Except.ok.injEq] at hid
    exact hid
  obtain rfl : "h://f/?enabled=1" = repoUrl := by
    have hread : requireStr queryParams "repo_url" = .ok "h://f/?enabled=1" := rfl
    rw [hread, Except.ok.injEq] at hurl
    exact hurl
  have hidText : "f".toList = ['f'] := String.toList_ofList
  have hurlText : "h://f/?enabled=1".toList =
      ['h', ':', '/', '/', 'f', '/', '?', 'e', 'n', 'a', 'b', 'l', 'e', 'd', '=', '1'] :=
    String.toList_ofList
  have hkey : enabledKey '1' <:+: "h://f/?enabled=1".toList := by
    rw [enabledKey_eq, hurlText]
    decide
  have hidLine : '\n' ∉ "f".toList := by
    rw [hidText]
    decide
  have hurlLine : '\n' ∉ "h://f/?enabled=1".toList := by
    rw [hurlText]
    decide
  obtain ⟨files, url', hexecuted, hafter, hne, hline⟩ := executed_spoils '1' false
    (by rw [hidText]; decide) hidLine hurlLine (by decide) (written_fileText hwritten) hkey
  obtain ⟨content, hcontent, hbase, -⟩ := hkept.keys [false] files (.cons hexecuted .nil)
  rw [hafter, Option.some.injEq] at hcontent
  rw [← hcontent, (iniValue_fileText hidLine hline (by decide)).1, Option.some.injEq] at hbase
  exact hne hbase

end Sysknife
