import Sysknife.Actions.Validate
import Sysknife.Lib.TextMatch

/-!
# Tool output on its way to the model

`sanitize.rs` of the planner. Text that the system gave is normalised and put into an
envelope; the tags of the envelope cannot be forged from within. NFC normalisation is
a function on texts that is given.
-/

namespace Sysknife

open TextMatch

def maxOutputBytes : Nat := 8 * 1024

/-- `str::len` of a text. -/
def byteLength (s : List Char) : Nat := (s.map Char.utf8Size).sum

/-! ## Control sequences -/

/-- What `strip_ansi` is in the middle of. -/
inductive AnsiScan where
  | text | escape | csi | osc
  /-- An escape character within an OSC sequence. -/
  | oscEscape
  | charset

/-- `strip_ansi` goes by bytes; `none` is the panic of a slice that begins within a
character, because the sequence before it has taken the first byte of one. -/
def stripAnsiFrom : AnsiScan → List Char → Option (List Char)
  | _, [] => some []
  | .text, c :: cs =>
    if c = '\x1b' then stripAnsiFrom .escape cs else (stripAnsiFrom .text cs).map (c :: ·)
  | .escape, c :: cs =>
    if c = '[' then stripAnsiFrom .csi cs
    else if c = ']' then stripAnsiFrom .osc cs
    else if ['(', ')', '*', '+'].contains c then stripAnsiFrom .charset cs
    else if c.utf8Size = 1 then stripAnsiFrom .text cs
    else none
  | .csi, c :: cs =>
    -- the bytes of a longer character are none of the final bytes
    stripAnsiFrom (if 0x40 ≤ c.toNat ∧ c.toNat ≤ 0x7e then .text else .csi) cs
  | .osc, c :: cs =>
    stripAnsiFrom (if c = '\x07' then .text else if c = '\x1b' then .oscEscape else .osc) cs
  | .oscEscape, c :: cs =>
    stripAnsiFrom (if c = '\\' ∨ c = '\x07' then .text
      else if c = '\x1b' then .oscEscape else .osc) cs
  | .charset, c :: cs => if c.utf8Size = 1 then stripAnsiFrom .text cs else none

def stripAnsi (s : List Char) : Option (List Char) := stripAnsiFrom .text s

/-- Text without control sequences in front changes nothing about a panic. -/
theorem stripAnsi_append_isSome {pre s : List Char} (h : '\x1b' ∉ pre) :
    (stripAnsi (pre ++ s)).isSome = (stripAnsi s).isSome := by
  induction pre with
  | nil => rfl
  | cons c pre ih =>
    rw [List.mem_cons, not_or] at h
    rw [stripAnsi, List.cons_append, stripAnsiFrom, if_neg (Ne.symm h.1), Option.isSome_map]
    exact ih h.2

theorem stripAnsi_plain {s : List Char} (h : '\x1b' ∉ s) : (stripAnsi s).isSome = true := by
  rw [← List.append_nil s, stripAnsi_append_isSome h]
  rfl

theorem stripAnsi_eq_self {s : List Char} (h : '\x1b' ∉ s) : stripAnsi s = some s := by
  rw [stripAnsi]
  induction s with
  | nil => rfl
  | cons c cs ih =>
    rw [List.mem_cons, not_or] at h
    rw [stripAnsiFrom, if_neg (Ne.symm h.1), ih h.2, Option.map_some]

/-! ## Characters -/

/-- The ranges of code points that are removed. -/
def dangerousRanges : List (Nat × Nat) :=
  [(0x00, 0x08), (0x0b, 0x0b), (0x0c, 0x0c), (0x0e, 0x1f), (0x7f, 0x9f), (0x200b, 0x200f),
    (0x202a, 0x202e), (0x2066, 0x2069), (0xfeff, 0xfeff), (0xe0000, 0xe007f), (0xe000, 0xf8ff),
    (0xf0000, 0xffffd), (0x100000, 0x10fffd)]

def stripDangerousUnicode (s : List Char) : List Char :=
  s.filter fun c => !dangerousRanges.any fun range => range.1 ≤ c.toNat && c.toNat ≤ range.2

/-! ## The envelope -/

def openTag : List Char := "<untrusted_tool_output".toList

def closeTag : List Char := "</untrusted_tool_output>".toList

def neutraliseEnvelopeTags (s : List Char) : List Char :=
  replaceAll openTag "<untrusted_tool_output_BLOCKED".toList
    (replaceAll closeTag "</untrusted_tool_output_BLOCKED>".toList s)

/-- `collapse_blank_runs` behind `newlines` line feeds in a row. -/
def collapseFrom : Nat → List Char → List Char
  | _, [] => []
  | newlines, c :: cs =>
    if c = '\n' then
      if newlines + 1 ≤ 2 then c :: collapseFrom (newlines + 1) cs
      else collapseFrom (newlines + 1) cs
    else c :: collapseFrom 0 cs

def collapseBlankRuns (s : List Char) : List Char := collapseFrom 0 s

def truncationMarker : List Char := "\n[...truncated]".toList

/-- As many whole characters as `budget` bytes hold. -/
def takeBytes : Nat → List Char → List Char
  | _, [] => []
  | budget, c :: cs => if c.utf8Size ≤ budget then c :: takeBytes (budget - c.utf8Size) cs else []

def truncateWithMarker (s : List Char) (max : Nat) : List Char :=
  if byteLength s ≤ max then s
  else takeBytes (max - byteLength truncationMarker) s ++ truncationMarker

def normaliseFreeText (nfc : List Char → List Char) (raw : List Char) : Option (List Char) :=
  (stripAnsi raw).map fun s =>
    truncateWithMarker
      (collapseBlankRuns (neutraliseEnvelopeTags (nfc (stripDangerousUnicode s)))) maxOutputBytes

def isToolNameChar (c : Char) : Bool := isAsciiAlphanumeric c || c == '_' || c == '-'

def sanitiseToolName (name : List Char) : List Char :=
  if name.all isToolNameChar && !name.isEmpty then name
  else
    let cleaned := name.map fun c => if isToolNameChar c then c else '_'
    if cleaned.isEmpty then "unknown".toList else cleaned

def sanitizeToolOutput (nfc : List Char → List Char) (toolName : String) (raw : List Char) :
    Option (List Char) :=
  (normaliseFreeText nfc raw).map fun normalised =>
    "<untrusted_tool_output source=\"".toList ++ sanitiseToolName toolName.toList ++
      "\">\n".toList ++ normalised ++ "\n</untrusted_tool_output>".toList

/-! ## Containment -/

/-- Everything is between one opening tag at the start and one closing tag at the end. -/
structure Contained (content : List Char) : Prop where
  opened : ∃ source rest, content =
    "<untrusted_tool_output source=\"".toList ++ source ++ "\">".toList ++ rest
  closed : closeTag <:+ content
  closedOnce : ∀ pre post, content = pre ++ closeTag ++ post → post = []
  openedOnce : ∀ pre post, content = pre ++ (openTag ++ [' ']) ++ post → pre = []
  noBareOpen : ¬ openTag ++ ['>'] <:+: content

/-- A text with neither the closing tag nor an opening tag that is complete. -/
structure Neutral (s : List Char) : Prop where
  close : ¬ closeTag <:+: s
  openSpace : ¬ openTag ++ [' '] <:+: s
  openEnd : ¬ openTag ++ ['>'] <:+: s

theorem collapse_prefix {t s : List Char} (ht : '\n' ∉ t) (h : t <+: collapseFrom 0 s) :
    t <+: s := by
  induction s generalizing t with
  | nil => exact h
  | cons c cs ih =>
    cases t with
    | nil => exact List.nil_prefix
    | cons d t =>
      rw [List.mem_cons, not_or] at ht
      rw [collapseFrom] at h
      split at h
      · next hc =>
        rw [if_pos (by decide), List.cons_prefix_cons, hc] at h
        exact absurd h.1.symm ht.1
      · rw [List.cons_prefix_cons] at h ⊢
        exact ⟨h.1, ih ht.2 h.2⟩

/-- Leaving out line feeds makes no tag. -/
theorem infix_of_collapse {t s : List Char} {newlines : Nat} (ht : '\n' ∉ t)
    (h : t <:+: collapseFrom newlines s) : t <:+: s := by
  induction s generalizing newlines with
  | nil => exact h
  | cons c cs ih =>
    rw [collapseFrom] at h
    split at h
    · next hc =>
      split at h
      · rcases List.infix_cons_iff.mp h with h | h
        · cases t with
          | nil => exact List.nil_infix
          | cons d t =>
            rw [List.cons_prefix_cons, hc] at h
            exact absurd (h.1 ▸ List.mem_cons_self ..) ht
        · exact List.infix_cons (ih h)
      · exact List.infix_cons (ih h)
    · rcases List.infix_cons_iff.mp h with h | h
      · cases t with
        | nil => exact List.nil_infix
        | cons d t =>
          rw [List.mem_cons, not_or] at ht
          rw [List.cons_prefix_cons] at h
          exact (List.cons_prefix_cons.mpr ⟨h.1, collapse_prefix ht.2 h.2⟩).isInfix
      · exact List.infix_cons (ih h)

theorem takeBytes_isPrefix (budget : Nat) (s : List Char) : takeBytes budget s <+: s := by
  induction s generalizing budget with
  | nil => exact List.nil_prefix
  | cons c cs ih =>
    rw [takeBytes]
    split
    · exact List.cons_prefix_cons.mpr ⟨rfl, ih _⟩
    · exact List.nil_prefix

theorem closeTag_eq : closeTag = '<' :: "/untrusted_tool_output>".toList := by decide

theorem openTag_concat (c : Char) :
    openTag ++ [c] = '<' :: ("untrusted_tool_output".toList ++ [c]) := by
  rfl

theorem neutraliseEnvelopeTags_neutral (s : List Char) : Neutral (neutraliseEnvelopeTags s) := by
  have hclosed : closeTag = '<' :: "/untrusted_tool_output>".toList := by decide
  have hblocked : "</untrusted_tool_output_BLOCKED>".toList =
      '<' :: "/untrusted_tool_output_BLOCKED>".toList := by decide
  have hblockedOpen : "<untrusted_tool_output_BLOCKED".toList =
      '<' :: "untrusted_tool_output_BLOCKED".toList := by decide
  refine ⟨?_, ?_, ?_⟩
  · intro h
    rw [neutraliseEnvelopeTags, hblockedOpen, hclosed] at h
    have hinner := infix_of_replaceAll (by decide) (by decide) (by decide) (by decide) h
    rw [hblocked] at hinner
    exact not_infix_replaceAll (by decide) (by decide) (by decide) (by decide)
      List.prefix_rfl hinner
  · rw [neutraliseEnvelopeTags, hblockedOpen, openTag_concat]
    exact not_infix_replaceAll (by decide) (by decide) (by decide) (by decide) (by decide)
  · rw [neutraliseEnvelopeTags, hblockedOpen, openTag_concat]
    exact not_infix_replaceAll (by decide) (by decide) (by decide) (by decide) (by decide)

/-- A step that makes no tag out of other text. -/
theorem Neutral.of_infix {s s' : List Char} (h : Neutral s)
    (hsub : ∀ t, '\n' ∉ t → '<' :: t <:+: s' → '<' :: t <:+: s) : Neutral s' := by
  refine ⟨fun hin => h.close ?_, fun hin => h.openSpace ?_, fun hin => h.openEnd ?_⟩
  · rw [closeTag_eq] at hin ⊢
    exact hsub _ (by decide) hin
  · rw [openTag_concat] at hin ⊢
    exact hsub _ (by decide) hin
  · rw [openTag_concat] at hin ⊢
    exact hsub _ (by decide) hin

theorem collapseBlankRuns_neutral {s : List Char} (h : Neutral s) :
    Neutral (collapseBlankRuns s) := by
  apply h.of_infix
  intro t ht hin
  exact infix_of_collapse (by simpa using ht) hin

theorem truncateWithMarker_neutral {s : List Char} (h : Neutral s) (max : Nat) :
    Neutral (truncateWithMarker s max) := by
  rw [truncateWithMarker]
  split
  · exact h
  · apply h.of_infix
    intro t ht hin
    have hmarker : truncationMarker = '\n' :: "[...truncated]".toList := by decide
    rw [hmarker] at hin
    rcases infix_append_cons (by simpa using ht) hin with hin | hin
    · exact hin.trans (takeBytes_isPrefix _ s).isInfix
    · exact absurd (hin.subset (List.mem_cons_self ..)) (by decide)

theorem normaliseFreeText_neutral {nfc : List Char → List Char} {raw s : List Char}
    (h : normaliseFreeText nfc raw = some s) : Neutral s := by
  obtain ⟨stripped, -, rfl⟩ := Option.map_eq_some_iff.mp h
  exact truncateWithMarker_neutral
    (collapseBlankRuns_neutral (neutraliseEnvelopeTags_neutral _)) maxOutputBytes

theorem sanitiseToolName_chars (name : List Char) : (sanitiseToolName name).all isToolNameChar := by
  rw [sanitiseToolName]
  split
  · next h => exact (Bool.and_eq_true_iff.mp h).1
  · dsimp only
    split
    · decide
    · rw [List.all_map]
      apply List.all_eq_true.mpr
      intro c _
      by_cases hc : isToolNameChar c = true
      · simp [hc]
      · rw [Function.comp_apply, if_neg hc]
        decide

/-- The first line of the envelope has one bracket, at its start. -/
theorem header_notMem {name : List Char} {c : Char} (h : c ∈ ['<', '\n']) :
    c ∉ sanitiseToolName name := by
  intro hmem
  have hc := List.all_eq_true.mp (sanitiseToolName_chars name) c hmem
  simp only [List.mem_cons, List.not_mem_nil, or_false] at h
  rcases h with rfl | rfl <;> revert hc <;> decide

/-- The first line of an envelope, the text and the last line. -/
def envelope (source body : List Char) : List Char :=
  '<' :: ("untrusted_tool_output source=\"".toList ++ source ++ "\">".toList) ++
    '\n' :: (body ++ '\n' :: closeTag)

/-- A tag that the body lacks stands at the start of an envelope or in its last line. -/
theorem envelope_occurrence {source body t pre post : List Char} (hsource : '<' ∉ source)
    (ht : '\n' ∉ '<' :: t) (hbody : ¬ '<' :: t <:+: body)
    (h : envelope source body = pre ++ '<' :: t ++ post) :
    (pre = [] ∧ '<' :: t <+: '<' :: ("untrusted_tool_output source=\"".toList ++ source ++
      "\">".toList)) ∨ ∃ mid, closeTag = mid ++ '<' :: t ++ post := by
  have hhead : '<' ∉ "untrusted_tool_output source=\"".toList ++ source ++ "\">".toList := by
    simp [hsource]
  rcases split_at ht h with ⟨mid, hfirst, -⟩ | ⟨mid, -, h⟩
  · obtain rfl := pre_eq_nil hhead hfirst
    exact Or.inl ⟨rfl, mid, hfirst.symm⟩
  · rcases split_at ht h with ⟨mid', hin, -⟩ | ⟨mid', -, hlast⟩
    · exact absurd ⟨mid, mid', hin.symm⟩ hbody
    · exact Or.inr ⟨mid', hlast⟩

theorem envelope_contained {source body : List Char} (hsource : '<' ∉ source)
    (hbody : Neutral body) : Contained (envelope source body) := by
  refine ⟨⟨source, '\n' :: (body ++ '\n' :: closeTag), ?_⟩, ?_, ?_, ?_, ?_⟩
  · simp [envelope]
  · exact (((List.suffix_cons _ _).trans (List.suffix_append body _)).trans
      (List.suffix_cons _ _)).trans (List.suffix_append _ _)
  · intro pre post h
    rw [closeTag_eq] at h
    rcases envelope_occurrence hsource (by decide) (closeTag_eq ▸ hbody.close) h with
      ⟨-, hfirst⟩ | ⟨mid, hlast⟩
    · simp at hfirst
    · have hlength := congrArg List.length hlast
      rw [closeTag_eq] at hlength
      simp only [List.length_append] at hlength
      exact List.length_eq_zero_iff.mp (by omega)
  · intro pre post h
    rw [openTag_concat] at h
    rcases envelope_occurrence hsource (by decide) (openTag_concat ' ' ▸ hbody.openSpace) h with
      ⟨hpre, -⟩ | ⟨mid, hlast⟩
    · exact hpre
    · have hin : '<' :: ("untrusted_tool_output".toList ++ [' ']) <:+: closeTag :=
        ⟨mid, post, hlast.symm⟩
      exact absurd hin (by decide)
  · rintro ⟨pre, post, h⟩
    rw [openTag_concat] at h
    rcases envelope_occurrence hsource (by decide) (openTag_concat '>' ▸ hbody.openEnd) h.symm with
      ⟨-, hfirst⟩ | ⟨mid, hlast⟩
    · simp at hfirst
    · have hin : '<' :: ("untrusted_tool_output".toList ++ ['>']) <:+: closeTag :=
        ⟨mid, post, hlast.symm⟩
      exact absurd hin (by decide)

theorem envelope_eq (source body : List Char) :
    "<untrusted_tool_output source=\"".toList ++ source ++ "\">\n".toList ++ body ++
      "\n</untrusted_tool_output>".toList = envelope source body := by
  have hopen : "<untrusted_tool_output source=\"".toList =
      '<' :: "untrusted_tool_output source=\"".toList := by decide
  have hquote : "\">\n".toList = "\">".toList ++ ['\n'] := by decide
  have hclose : "\n</untrusted_tool_output>".toList = '\n' :: closeTag := by decide
  simp only [envelope, hopen, hquote, hclose, List.append_assoc, List.cons_append,
    List.nil_append]

theorem sanitizeToolOutput_isSome (nfc : List Char → List Char) (toolName : String)
    (raw : List Char) : (sanitizeToolOutput nfc toolName raw).isSome = (stripAnsi raw).isSome := by
  rw [sanitizeToolOutput, normaliseFreeText, Option.isSome_map, Option.isSome_map]

theorem sanitizeToolOutput_contained {nfc : List Char → List Char} {toolName : String}
    {raw content : List Char} (h : sanitizeToolOutput nfc toolName raw = some content) :
    Contained content := by
  obtain ⟨body, hbody, rfl⟩ := Option.map_eq_some_iff.mp h
  rw [envelope_eq]
  exact envelope_contained (header_notMem (by decide)) (normaliseFreeText_neutral hbody)

end Sysknife
