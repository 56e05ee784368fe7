import Mathlib.Tactic
import Sysknife.Lib.TextLines

/-!
# The GRUB helper

`sysknife-grub-kargs-edit`: the edit of the lines of `/etc/default/grub`, and the run of
the helper from its arguments to its exit code. What can fail outside is a parameter.
-/

namespace Sysknife

open TextLines

/-! ## Text -/

/-- `str.isspace` of a character, which `\s` matches as well. -/
def isPythonSpace (c : Char) : Bool :=
  (9 ≤ c.toNat && c.toNat ≤ 13) || (0x1c ≤ c.toNat && c.toNat ≤ 0x20) ||
    (0x2000 ≤ c.toNat && c.toNat ≤ 0x200a) ||
    [0x85, 0xa0, 0x1680, 0x2028, 0x2029, 0x202f, 0x205f, 0x3000].contains c.toNat

/-- `str.strip`. -/
def strip (s : List Char) : List Char :=
  ((s.dropWhile isPythonSpace).reverse.dropWhile isPythonSpace).reverse

/-- What a file opened as text gives for the ends of its lines. -/
def universalNewlines : List Char → List Char
  | [] => []
  | c :: cs =>
    if c = '\r' then
      if cs.head? = some '\n' then universalNewlines cs else '\n' :: universalNewlines cs
    else c :: universalNewlines cs

/-- `readlines`, each line with its end. -/
def readlines (text : List Char) : List (List Char) :=
  (split (· == '\n') text).1.map (· ++ ['\n']) ++
    if (split (· == '\n') text).2.isEmpty then [] else [(split (· == '\n') text).2]

/-! ## The edit -/

/-- No character that is not white space follows. -/
def endsToken (rest : List Char) : Bool := rest.head?.all isPythonSpace

/-- `re.sub` of a token and the white space behind it, `skip` characters of which are
matched already; `inToken` is a character other than white space in front. -/
def removeFrom (token : List Char) : Nat → Bool → List Char → List Char
  | _, _, [] => []
  | skip + 1, _, c :: cs => removeFrom token skip (!isPythonSpace c) cs
  | 0, inToken, c :: cs =>
    if !inToken && token.isPrefixOf (c :: cs) && endsToken ((c :: cs).drop token.length) then
      let gap := (((c :: cs).drop token.length).takeWhile isPythonSpace).length
      removeFrom token (token.length - 1 + gap) (!isPythonSpace c) cs
    else c :: removeFrom token 0 (!isPythonSpace c) cs

def removeToken (token s : List Char) : List Char := removeFrom token 0 false s

/-- `" ".join`. -/
def joinSpace (tokens : List (List Char)) : List Char := [' '].intercalate tokens

def editValue (append delete : List (List Char)) (group : List Char) : List Char :=
  let value := strip (delete.foldl (fun value d => removeToken d value) (strip group))
  if append.isEmpty then value else strip (value ++ ' ' :: joinSpace append)

def grubVariable : List Char := "GRUB_CMDLINE_LINUX_DEFAULT=".toList

/-- The second group of the match, where the line matches. -/
def matchedValue (line : List Char) : Option (List Char) :=
  if (grubVariable ++ ['"']).isPrefixOf line then
    let rest := line.drop (grubVariable.length + 1)
    if rest.contains '"' then some (rest.takeWhile (· != '"')) else none
  else none

def editLine (append delete : List (List Char)) (line : List Char) : List Char :=
  match matchedValue line with
  | some group => grubVariable ++ '"' :: (editValue append delete group ++ ['"', '\n'])
  | none => line

def editGrubCmdline (lines append delete : List (List Char)) : List (List Char) :=
  lines.map (editLine append delete)

/-! ## The run -/

/-- `KARG_PATTERN`, whose last anchor also matches in front of a last line feed. -/
def kargAccepts (token : List Char) : Bool :=
  let body := if token.getLast? = some '\n' then token.dropLast else token
  !body.isEmpty && body.all fun c =>
    c.isAlphanum || ['_', '.', '+', '@', ':', '/', '=', '-'].contains c

/-- `[t for t in csv.split(",") if t]`. -/
def csvTokens (csv : List Char) : List (List Char) := (csv.splitOn ',').filter (!·.isEmpty)

/-- The content of `/etc/default/grub`. -/
inductive GrubFile where
  | text (s : List Char)
  /-- Bytes that do not decode. -/
  | undecodable (bytes : List UInt8)
  deriving DecidableEq

/-- What the helper meets outside. Restoring the backup succeeds. -/
structure GrubOutside where
  readFails : Bool
  backupFails : Bool
  /-- What a failed write leaves in the file. -/
  writeFails : Option GrubFile
  /-- The return code of `update-grub`; `none` where it cannot be started. -/
  updateGrub : Option Int

structure GrubState where
  file : GrubFile
  backup : Option GrubFile
  deriving DecidableEq

/-- `shutil.copy2` from the backup. -/
def GrubState.restore (s : GrubState) : GrubState := { s with file := s.backup.getD s.file }

/-- What `sys.exit` makes of a number. -/
def exitStatus (code : Int) : Int := code % 256

/-- `main` behind the argument parser: the exit code and the files. An exception that
nothing catches exits with 1. -/
def grubKargsEdit (appendCsv deleteCsv : List Char) (outside : GrubOutside) (s : GrubState) :
    Int × GrubState :=
  let append := csvTokens appendCsv
  let delete := csvTokens deleteCsv
  if append.isEmpty && delete.isEmpty then (2, s)
  else if !append.all kargAccepts then (1, s)
  else if !delete.all kargAccepts then (1, s)
  else if outside.readFails then (1, s)
  else match s.file with
    | .undecodable _ => (1, s)
    | .text content =>
      let lines := readlines (universalNewlines content)
      if outside.backupFails then (1, s)
      else
        let s := { s with backup := some s.file }
        let edited := (editGrubCmdline lines append delete).flatten
        match outside.writeFails with
        | some partly => (1, { s with file := partly }.restore)
        | none =>
          let s := { s with file := .text edited }
          match outside.updateGrub with
          -- an exception that is not caught
          | none => (1, s)
          | some code => if code ≠ 0 then (exitStatus code, s.restore) else (0, s)

/-- The edited text of a file. -/
def editedText (appendCsv deleteCsv content : List Char) : List Char :=
  (editGrubCmdline (readlines (universalNewlines content)) (csvTokens appendCsv)
    (csvTokens deleteCsv)).flatten

/-- Whether the helper comes to start `update-grub`, with the content that it has read. -/
def ComesToUpdate (appendCsv deleteCsv : List Char) (outside : GrubOutside) (file : GrubFile)
    (content : List Char) : Prop :=
  (csvTokens appendCsv ++ csvTokens deleteCsv ≠ []) ∧
    (∀ token ∈ csvTokens appendCsv ++ csvTokens deleteCsv, kargAccepts token = true) ∧
    outside.readFails = false ∧ file = .text content ∧ outside.backupFails = false ∧
    outside.writeFails = none

/-- The file is changed already, and `update-grub` cannot be started. -/
def LeftChanged (appendCsv deleteCsv : List Char) (outside : GrubOutside) (file : GrubFile) :
    Prop :=
  ∃ content, ComesToUpdate appendCsv deleteCsv outside file content ∧
    outside.updateGrub = none ∧ editedText appendCsv deleteCsv content ≠ content

/-- How a run ends that came to start `update-grub`. -/
def updateEnd (appendCsv deleteCsv content : List Char) (updateGrub : Option Int)
    (file : GrubFile) : Int × GrubState :=
  match updateGrub with
  | none => (1, ⟨.text (editedText appendCsv deleteCsv content), some file⟩)
  | some code =>
    if code ≠ 0 then (exitStatus code, ⟨file, some file⟩)
    else (0, ⟨.text (editedText appendCsv deleteCsv content), some file⟩)

theorem grubKargsEdit_comes {appendCsv deleteCsv content : List Char} {outside : GrubOutside}
    {s : GrubState} (h : ComesToUpdate appendCsv deleteCsv outside s.file content) :
    grubKargsEdit appendCsv deleteCsv outside s =
      updateEnd appendCsv deleteCsv content outside.updateGrub s.file := by
  obtain ⟨hsome, hvalid, hread, hfile, hbackup, hwrite⟩ := h
  have hnonempty : ((csvTokens appendCsv).isEmpty && (csvTokens deleteCsv).isEmpty) = false := by
    rw [← Bool.not_eq_true, Bool.and_eq_true, List.isEmpty_iff, List.isEmpty_iff]
    rintro ⟨happend, hdelete⟩
    exact hsome (by rw [happend, hdelete]; rfl)
  have happend : (csvTokens appendCsv).all kargAccepts = true :=
    List.all_eq_true.mpr fun t ht => hvalid t (List.mem_append_left _ ht)
  have hdelete : (csvTokens deleteCsv).all kargAccepts = true :=
    List.all_eq_true.mpr fun t ht => hvalid t (List.mem_append_right _ ht)
  simp only [grubKargsEdit, hnonempty, happend, hdelete, hread, hfile, hbackup, hwrite]
  cases outside.updateGrub <;> rfl

/-- Every other run fails before the file is written, or restores it. -/
theorem grubKargsEdit_early {appendCsv deleteCsv : List Char} {outside : GrubOutside}
    {s : GrubState}
    (h : ¬ ∃ content, ComesToUpdate appendCsv deleteCsv outside s.file content) :
    (grubKargsEdit appendCsv deleteCsv outside s).1 ≠ 0 ∧
      (grubKargsEdit appendCsv deleteCsv outside s).2.file = s.file := by
  have hone : (1 : Int) ≠ 0 := by decide
  have htwo : (2 : Int) ≠ 0 := by decide
  unfold grubKargsEdit
  dsimp only
  split
  · exact ⟨htwo, rfl⟩
  rename_i hempty
  split
  · exact ⟨hone, rfl⟩
  rename_i happend
  split
  · exact ⟨hone, rfl⟩
  rename_i hdelete
  split
  · exact ⟨hone, rfl⟩
  rename_i hread
  split
  · exact ⟨hone, rfl⟩
  rename_i content hfile
  split
  · exact ⟨hone, rfl⟩
  rename_i hbackup
  split
  · exact ⟨hone, rfl⟩
  rename_i hwrite
  -- nothing has failed
  simp only [Bool.not_eq_true, Bool.not_eq_false'] at happend hdelete hread hbackup
  refine absurd ⟨content, ?_, ?_, hread, hfile, hbackup, hwrite⟩ h
  · intro hnone
    rw [List.append_eq_nil_iff] at hnone
    exact hempty (by rw [hnone.1, hnone.2]; rfl)
  · intro t ht
    rcases List.mem_append.mp ht with ht | ht
    · exact List.all_eq_true.mp happend t ht
    · exact List.all_eq_true.mp hdelete t ht

/-- A run ends early with the file as it was, or comes to start `update-grub`. -/
theorem grubKargsEdit_cases (appendCsv deleteCsv : List Char) (outside : GrubOutside)
    (s : GrubState) :
    ((grubKargsEdit appendCsv deleteCsv outside s).1 ≠ 0 ∧
        (grubKargsEdit appendCsv deleteCsv outside s).2.file = s.file ∧
        ¬ ∃ content, ComesToUpdate appendCsv deleteCsv outside s.file content) ∨
      ∃ content, ComesToUpdate appendCsv deleteCsv outside s.file content ∧
        grubKargsEdit appendCsv deleteCsv outside s =
          updateEnd appendCsv deleteCsv content outside.updateGrub s.file := by
  by_cases hcomes : ∃ content, ComesToUpdate appendCsv deleteCsv outside s.file content
  · obtain ⟨content, hcomes⟩ := hcomes
    exact Or.inr ⟨content, hcomes, grubKargsEdit_comes hcomes⟩
  · obtain ⟨hcode, hfile⟩ := grubKargsEdit_early hcomes
    exact Or.inl ⟨hcode, hfile, hcomes⟩

/-- Every failure leaves the file as it was, save for an `update-grub` that cannot be
started on a file that is changed already. -/
theorem grubKargsEdit_restores_iff (appendCsv deleteCsv : List Char) (outside : GrubOutside)
    (s : GrubState) :
    ((grubKargsEdit appendCsv deleteCsv outside s).1 ≠ 0 →
        (grubKargsEdit appendCsv deleteCsv outside s).2.file = s.file) ↔
      ¬ LeftChanged appendCsv deleteCsv outside s.file := by
  rcases grubKargsEdit_cases appendCsv deleteCsv outside s with
    ⟨-, hfile, hearly⟩ | ⟨content, hcomes, hend⟩
  · refine ⟨?_, fun _ _ => hfile⟩
    rintro - ⟨content, hcomes, -⟩
    exact hearly ⟨content, hcomes⟩
  · have hcontent : s.file = .text content := hcomes.2.2.2.1
    rw [hend]
    unfold updateEnd
    cases hupdate : outside.updateGrub with
    | none =>
      dsimp only
      rw [hcontent]
      constructor
      · rintro hsame ⟨other, ⟨-, -, -, hother, -⟩, -, hchanged⟩
        cases hother
        have hequal := hsame (by decide)
        rw [GrubFile.text.injEq] at hequal
        exact hchanged hequal
      · intro hleft _
        by_contra hne
        refine hleft ⟨content, hcontent ▸ hcomes, hupdate, fun hequal => hne ?_⟩
        rw [hequal]
    | some code =>
      dsimp only
      constructor
      · rintro - ⟨other, -, hstart, -⟩
        rw [hupdate] at hstart
        cases hstart
      · intro _ hfail
        by_cases hcode : code ≠ 0
        · rw [if_pos hcode]
        · rw [if_neg hcode] at hfail
          exact absurd rfl hfail

/-- A machine without `update-grub`. -/
def noUpdateGrub : GrubOutside := ⟨false, false, none, none⟩

theorem grubKargsEdit_not_restored : ¬ ∀ (appendCsv deleteCsv : List Char)
    (outside : GrubOutside) (s : GrubState),
    (grubKargsEdit appendCsv deleteCsv outside s).1 ≠ 0 →
      (grubKargsEdit appendCsv deleteCsv outside s).2.file = s.file := by
  intro hall
  have hfile := hall ['a'] [] noUpdateGrub ⟨.text (grubVariable ++ ['"', '"', '\n']), none⟩
  exact absurd hfile (by decide +kernel)

end Sysknife
