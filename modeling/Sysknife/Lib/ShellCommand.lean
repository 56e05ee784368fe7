import Mathlib.Logic.Function.Basic
import Sysknife.Lib.PosixShell
import Sysknife.Lib.TextLines
import Sysknife.Lib.BasicRegex

/-!
# Commands on text files

The tokens of a script as commands with redirections, joined by `||`: a command is
run if the one in front of it fails. A command is known or it is not modelled; known
are `grep -Fxq`, `echo` and `sed -i` with one address that deletes lines. Files are
held in memory and can always be written.
-/

namespace PosixShell

open TextLines

abbrev Files := String → Option (List Char)

def Files.append (files : Files) (path : String) (text : List Char) : Files :=
  Function.update files path (some ((files path).getD [] ++ text))

/-! ## Commands -/

structure Command where
  words : List String
  /-- Where `2>` sends the messages. -/
  messagesTo : Option String
  /-- Where `>>` sends the output. -/
  outputTo : Option String

def Command.empty : Command := ⟨[], none, none⟩

def Command.addWord (word : String) (c : Command) : Option Command :=
  some ⟨word :: c.words, c.messagesTo, c.outputTo⟩

def Command.setMessages (path : String) (c : Command) : Option Command :=
  if c.messagesTo.isSome then none else some ⟨c.words, some path, c.outputTo⟩

def Command.setOutput (path : String) (c : Command) : Option Command :=
  if c.outputTo.isSome then none else some ⟨c.words, c.messagesTo, some path⟩

/-- The text of a word without its quotes; none if the shell expands it. -/
def literalText : List (Piece Empty) → Option (List Char)
  | [] => some []
  | .plain c :: pieces => (literalText pieces).map (c :: ·)
  | .quoted c :: pieces => (literalText pieces).map (c :: ·)
  | .quote :: pieces => literalText pieces
  | _ :: _ => none

/-- The first of the commands, changed with the text of a word. -/
def onFirst (change : String → Command → Option Command) (pieces : List (Piece Empty)) :
    List Command → Option (List Command)
  | [] => none
  | c :: cs => do
    let text ← literalText pieces
    let c ← change (String.ofList text) c
    some (c :: cs)

/-- The commands of tokens that are joined by `||`. -/
def parseOrList : List (Token Empty) → Option (List Command)
  | [] => some [.empty]
  | .operator ['|', '|'] :: rest => (parseOrList rest).map (.empty :: ·)
  | .operator ['>', '>'] :: .word pieces :: rest =>
    (parseOrList rest).bind (onFirst Command.setOutput pieces)
  | .ioNumber ['2'] :: .operator ['>'] :: .word pieces :: rest =>
    (parseOrList rest).bind (onFirst Command.setMessages pieces)
  | .word pieces :: rest => (parseOrList rest).bind (onFirst Command.addWord pieces)
  | _ => none

/-- What a command does without its redirections. -/
structure Outcome where
  success : Bool
  output : List Char
  files : Files

section Running
-- the commands by their words; none for one that is not modelled
variable (utility : List String → Files → Option Outcome)

def runCommand (c : Command) (files : Files) : Option (Bool × Files) :=
  if c.messagesTo = none ∨ c.messagesTo = some "/dev/null" then
    (utility c.words files).map fun outcome =>
      match c.outputTo with
      | none => (outcome.success, outcome.files)
      | some path => (outcome.success, outcome.files.append path outcome.output)
  else none

/-- Whether the last command that is run succeeds, and the files behind it. -/
def runOrList : List Command → Files → Option (Bool × Files)
  | [], files => some (false, files)
  | c :: cs, files => (runCommand utility c files).bind fun (success, files) =>
    if success then some (true, files) else runOrList cs files

def runScript (script : List Char) (files : Files) : Option (Bool × Files) := do
  let tokens ← tokenize script
  let commands ← parseOrList tokens
  runOrList utility commands files

end Running

/-! ## Utilities -/

def isNewline (c : Char) : Bool := c == '\n'

/-- A file with a NUL is binary for `grep`, and a NUL ends a line there too. -/
def endsRecord (c : Char) : Bool := c == '\n' || c == '\x00'

/-- The word is not an option. -/
def isOperand (s : String) : Bool := s.toList.head? != some '-'

/-- Whether a line is the text; a newline would part it into two texts. -/
def grepFxq (text path : String) (files : Files) : Option Outcome :=
  if isOperand text ∧ isOperand path ∧ '\n' ∉ text.toList then
    some ⟨(files path).any fun content => (lines endsRecord content).contains text.toList, [],
      files⟩
  else none

/-- Options and backslashes mean different things to different shells. -/
def echo (operands : List String) (files : Files) : Option Outcome :=
  if operands.all (fun s => isOperand s && !s.toList.contains '\\') then
    some ⟨true, [' '].intercalate (operands.map String.toList) ++ ['\n'], files⟩
  else none

-- The characters of the list are looked at, not all characters.
local instance decidableMembers (s : List Char) (p : Char → Prop) [DecidablePred p] :
    Decidable (∀ c ∈ s, p c) := List.decidableBAll p s

/-- The pattern in a script that is a context address with a delimiter of its own and
the command `d`. -/
def deletedPattern : List Char → Option (List Char)
  | '\\' :: delimiter :: rest =>
    let pattern := rest.takeWhile (· != delimiter)
    if rest.dropWhile (· != delimiter) = [delimiter, 'd'] ∧ pattern ≠ [] ∧
        ∀ c ∈ ['\\', '\n'], c ≠ delimiter ∧ c ∉ pattern then
      some pattern
    else none
  | _ => none

/-- With a pattern that is not valid or without a file nothing is done. -/
def sedInPlace (brackets : List Char → Option (Char → Bool)) (script path : String)
    (files : Files) : Option Outcome :=
  if isOperand script ∧ isOperand path then
    (deletedPattern script.toList).map fun pattern =>
      match BasicRegex.parse brackets pattern, files path with
      | some regex, some content =>
        ⟨true, [], Function.update files path
          (some (deleteLines '\n' isNewline regex.matchesLine content))⟩
      | _, _ => ⟨false, [], files⟩
  else none

def utility (brackets : List Char → Option (Char → Bool)) :
    List String → Files → Option Outcome
  | ["grep", "-Fxq", text, path], files => grepFxq text path files
  | "echo" :: operands, files => echo operands files
  | ["sed", "-i", script, path], files => sedInPlace brackets script path files
  | _, _ => none

/-! ## Parsing -/

section Parsing
variable {pieces : List (Piece Empty)} {rest : List (Token Empty)} {word : String}
  {words : List String} {messagesTo outputTo : Option String} {cs : List Command}

theorem onFirst_of_text {change : String → Command → Option Command} {c c' : Command}
    (htext : literalText pieces = some word.toList) (hchange : change word c = some c') :
    onFirst change pieces (c :: cs) = some (c' :: cs) := by
  simp [onFirst, htext, hchange]

theorem parseOrList_word (htext : literalText pieces = some word.toList)
    (hrest : parseOrList rest = some (⟨words, messagesTo, outputTo⟩ :: cs)) :
    parseOrList (.word pieces :: rest) =
      some (⟨word :: words, messagesTo, outputTo⟩ :: cs) := by
  simp only [parseOrList, hrest, Option.bind_some]
  exact onFirst_of_text htext rfl

theorem parseOrList_output (htext : literalText pieces = some word.toList)
    (hrest : parseOrList rest = some (⟨words, messagesTo, none⟩ :: cs)) :
    parseOrList (.operator ['>', '>'] :: .word pieces :: rest) =
      some (⟨words, messagesTo, some word⟩ :: cs) := by
  simp only [parseOrList, hrest, Option.bind_some]
  exact onFirst_of_text htext rfl

theorem parseOrList_messages (htext : literalText pieces = some word.toList)
    (hrest : parseOrList rest = some (⟨words, none, outputTo⟩ :: cs)) :
    parseOrList (.ioNumber ['2'] :: .operator ['>'] :: .word pieces :: rest) =
      some (⟨words, some word, outputTo⟩ :: cs) := by
  simp only [parseOrList, hrest, Option.bind_some]
  exact onFirst_of_text htext rfl

theorem parseOrList_or (hrest : parseOrList rest = some cs) :
    parseOrList (.operator ['|', '|'] :: rest) = some (.empty :: cs) := by
  simp only [parseOrList, hrest, Option.map_some]

end Parsing

/-! ## Running -/

section RunningRules
variable {utility : List String → Files → Option Outcome} {words : List String}
  {messagesTo : Option String} {path : String} {files : Files} {outcome : Outcome}
  {c : Command} {cs : List Command} {files' : Files}

theorem runCommand_plain (h : utility words files = some outcome)
    (hmessages : messagesTo = none ∨ messagesTo = some "/dev/null") :
    runCommand utility ⟨words, messagesTo, none⟩ files =
      some (outcome.success, outcome.files) := by
  simp only [runCommand, if_pos hmessages, h, Option.map_some]

theorem runCommand_append (h : utility words files = some outcome) :
    runCommand utility ⟨words, none, some path⟩ files =
      some (outcome.success, outcome.files.append path outcome.output) := by
  simp only [runCommand, true_or, if_true, h, Option.map_some]

theorem runOrList_success (h : runCommand utility c files = some (true, files')) :
    runOrList utility (c :: cs) files = some (true, files') := by
  simp only [runOrList, h, Option.bind_some, if_true]

theorem runOrList_failure (h : runCommand utility c files = some (false, files')) :
    runOrList utility (c :: cs) files = runOrList utility cs files' := by
  simp only [runOrList, h, Option.bind_some, Bool.false_eq_true, if_false]

theorem runOrList_singleton (h : runCommand utility c files = some (outcome.success, files')) :
    runOrList utility [c] files = some (outcome.success, files') := by
  cases hsuccess : outcome.success with
  | true => exact runOrList_success (hsuccess ▸ h)
  | false => exact runOrList_failure (hsuccess ▸ h)

end RunningRules

theorem deletedPattern_of_script {delimiter : Char} {pattern : List Char} (hne : pattern ≠ [])
    (hdelimiter : delimiter ∉ pattern)
    (hplain : ∀ c ∈ ['\\', '\n'], c ≠ delimiter ∧ c ∉ pattern) :
    deletedPattern ('\\' :: delimiter :: (pattern ++ [delimiter, 'd'])) = some pattern := by
  have hall : ∀ c ∈ pattern, (c != delimiter) = true := by
    intro c hc
    rw [bne_iff_ne]
    rintro rfl
    exact hdelimiter hc
  have htake : (pattern ++ [delimiter, 'd']).takeWhile (· != delimiter) = pattern := by
    rw [List.takeWhile_append_of_pos hall]
    simp
  have hdrop : (pattern ++ [delimiter, 'd']).dropWhile (· != delimiter) = [delimiter, 'd'] := by
    rw [List.dropWhile_append_of_pos hall]
    simp
  simp only [deletedPattern, htake, hdrop, true_and]
  exact if_pos ⟨hne, hplain⟩

/-! ## Words without expansions -/

section Words
variable (pieces : List (Piece Empty)) (c : Char)

@[simp] theorem literalText_nil : literalText [] = some [] := rfl

@[simp] theorem literalText_plain_cons :
    literalText (.plain c :: pieces) = (literalText pieces).map (c :: ·) := rfl

@[simp] theorem literalText_quoted_cons :
    literalText (.quoted c :: pieces) = (literalText pieces).map (c :: ·) := rfl

@[simp] theorem literalText_quote_cons :
    literalText (.quote :: pieces) = literalText pieces := rfl

theorem literalText_append (a b : List (Piece Empty)) :
    literalText (a ++ b) = (literalText a).bind fun s => (literalText b).map (s ++ ·) := by
  induction a with
  | nil => simp
  | cons p a ih =>
    cases p with
    | plain c => cases h : literalText a <;> simp [ih, h, Function.comp_def]
    | quoted c => cases h : literalText a <;> simp [ih, h, Function.comp_def]
    | quote => exact ih
    | special c => rfl
    | expansion inDouble text => rfl
    | hole inDouble key => rfl

theorem literalText_quoted (s : List Char) : literalText (s.map .quoted) = some s := by
  induction s with
  | nil => rfl
  | cons c s ih => simp [ih]

theorem literalText_plain (s : List Char) : literalText (s.map .plain) = some s := by
  induction s with
  | nil => rfl
  | cons c s ih => simp [ih]

end Words

end PosixShell
