import Mathlib.Tactic
import Sysknife.Sanitize

/-!
# What normalised free text looks like

The last three passes of `normalise_free_text` one after another: the line feeds are
collapsed before the text is cut, and the marker of a cut text brings a line feed of
its own.
-/

namespace Sysknife

open TextMatch

/-! ## Lengths -/

theorem byteLength_cons (c : Char) (s : List Char) :
    byteLength (c :: s) = c.utf8Size + byteLength s := by
  simp [byteLength]

theorem byteLength_append (a b : List Char) :
    byteLength (a ++ b) = byteLength a + byteLength b := by
  simp [byteLength]

theorem length_le_byteLength (s : List Char) : s.length ≤ byteLength s := by
  induction s with
  | nil => exact Nat.zero_le _
  | cons c s ih =>
    have hpos := c.utf8Size_pos
    rw [byteLength_cons, List.length_cons]
    omega

theorem takeBytes_length_le (budget : Nat) (s : List Char) :
    byteLength (takeBytes budget s) ≤ budget := by
  induction s generalizing budget with
  | nil => exact Nat.zero_le _
  | cons c cs ih =>
    rw [takeBytes]
    split
    · next hfits =>
      rw [byteLength_cons]
      have hrest := ih (budget - c.utf8Size)
      omega
    · exact Nat.zero_le _

/-- The whole characters that fit, and why the next one does not. -/
theorem takeBytes_cut {budget : Nat} {s : List Char} (h : budget < byteLength s) :
    ∃ next post, s = takeBytes budget s ++ next :: post ∧
      budget < byteLength (takeBytes budget s) + next.utf8Size := by
  induction s generalizing budget with
  | nil => exact absurd h (Nat.not_lt_zero _)
  | cons c cs ih =>
    by_cases hfits : c.utf8Size ≤ budget
    · rw [takeBytes, if_pos hfits]
      rw [byteLength_cons] at h
      have hrest : budget - c.utf8Size < byteLength cs := by omega
      obtain ⟨next, post, hcs, hnext⟩ := ih hrest
      refine ⟨next, post, by rw [List.cons_append, ← hcs], ?_⟩
      rw [byteLength_cons]
      omega
    · rw [takeBytes, if_neg hfits]
      have hlength : byteLength [] = 0 := rfl
      exact ⟨c, cs, rfl, by omega⟩

theorem takeBytes_eq_of_cut {budget : Nat} {pre post : List Char} {next : Char}
    (hfits : byteLength pre ≤ budget) (hnext : budget < byteLength pre + next.utf8Size) :
    takeBytes budget (pre ++ next :: post) = pre := by
  induction pre generalizing budget with
  | nil =>
    have hlength : byteLength [] = 0 := rfl
    rw [List.nil_append, takeBytes, if_neg (by omega)]
  | cons c pre ih =>
    rw [byteLength_cons] at hfits hnext
    rw [List.cons_append, takeBytes, if_pos (by omega), ih (by omega) (by omega)]

theorem truncateWithMarker_length_le {max : Nat} (s : List Char)
    (hmarker : byteLength truncationMarker ≤ max) :
    byteLength (truncateWithMarker s max) ≤ max := by
  rw [truncateWithMarker]
  split
  · assumption
  · rw [byteLength_append]
    have hkept := takeBytes_length_le (max - byteLength truncationMarker) s
    omega

theorem byteLength_replicate (n : Nat) (c : Char) :
    byteLength (List.replicate n c) = n * c.utf8Size := by
  simp [byteLength]

/-! ## Line feeds -/

/-- Line feeds and nothing else. -/
def blankRun (n : Nat) : List Char := List.replicate n '\n'

theorem blankRun_succ (n : Nat) : blankRun (n + 1) = '\n' :: blankRun n := rfl

/-- Behind `newlines` line feeds no more follow than make two. -/
theorem collapseFrom_prefix (newlines : Nat) (s : List Char) :
    ¬ blankRun (3 - min newlines 2) <+: collapseFrom newlines s := by
  induction s generalizing newlines with
  | nil =>
    intro h
    have hlength := h.length_le
    rw [blankRun, List.length_replicate, collapseFrom, List.length_nil] at hlength
    omega
  | cons c cs ih =>
    intro h
    obtain ⟨n, hn⟩ : ∃ n, 3 - min newlines 2 = n + 1 := ⟨2 - min newlines 2, by omega⟩
    rw [collapseFrom] at h
    by_cases hc : c = '\n'
    · rw [if_pos hc] at h
      by_cases hfew : newlines + 1 ≤ 2
      · rw [if_pos hfew, hn, blankRun_succ, List.cons_prefix_cons] at h
        have hnext : 3 - min (newlines + 1) 2 = n := by omega
        exact ih (newlines + 1) (hnext ▸ h.2)
      · rw [if_neg hfew] at h
        have hnext : 3 - min (newlines + 1) 2 = 3 - min newlines 2 := by omega
        exact ih (newlines + 1) (hnext ▸ h)
    · rw [if_neg hc, hn, blankRun_succ, List.cons_prefix_cons] at h
      exact hc h.1.symm

theorem collapseFrom_noRun (newlines : Nat) (s : List Char) :
    ¬ blankRun 3 <:+: collapseFrom newlines s := by
  induction s generalizing newlines with
  | nil => rw [collapseFrom]; decide
  | cons c cs ih =>
    intro h
    have hpre := collapseFrom_prefix newlines (c :: cs)
    have hshort : blankRun (3 - min newlines 2) <+: blankRun 3 := by
      rw [blankRun, blankRun, List.prefix_replicate_iff]
      simp
    have hin : ∀ d k, collapseFrom newlines (c :: cs) = d :: collapseFrom k cs → False := by
      intro d k hcons
      rw [hcons] at h hpre
      rcases List.infix_cons_iff.mp h with h | h
      · exact hpre (hshort.trans h)
      · exact ih k h
    rw [collapseFrom] at h hin
    by_cases hc : c = '\n'
    · rw [if_pos hc] at h hin
      by_cases hfew : newlines + 1 ≤ 2
      · rw [if_pos hfew] at hin
        exact hin _ _ rfl
      · rw [if_neg hfew] at h
        exact ih _ h
    · rw [if_neg hc] at hin
      exact hin _ _ rfl

/-- Where no run of three is in the text, nothing is left out. -/
theorem collapseFrom_eq_self {newlines : Nat} {s : List Char}
    (h : ¬ blankRun 3 <:+: blankRun newlines ++ s) : collapseFrom newlines s = s := by
  induction s generalizing newlines with
  | nil => rfl
  | cons c cs ih =>
    rw [collapseFrom]
    by_cases hc : c = '\n'
    · subst hc
      have hnext : blankRun newlines ++ '\n' :: cs = blankRun (newlines + 1) ++ cs := by
        rw [blankRun, blankRun, List.replicate_succ', List.append_assoc]
        rfl
      rw [hnext] at h
      have hfew : newlines + 1 ≤ 2 := by
        by_contra hmany
        refine h (List.IsPrefix.isInfix (List.IsPrefix.trans ?_ (List.prefix_append _ cs)))
        rw [blankRun, blankRun, List.prefix_replicate_iff, List.length_replicate]
        exact ⟨by omega, rfl⟩
      rw [if_pos rfl, if_pos hfew, ih h]
    · have hrest : ¬ blankRun 3 <:+: blankRun 0 ++ cs := fun hrun =>
        h (hrun.trans ((List.suffix_cons c cs).trans (List.suffix_append _ _)).isInfix)
      rw [if_neg hc, ih hrest]

theorem collapseBlankRuns_eq_self {s : List Char} (h : ¬ blankRun 3 <:+: s) :
    collapseBlankRuns s = s := collapseFrom_eq_self h

theorem collapseBlankRuns_noRun (s : List Char) : ¬ blankRun 3 <:+: collapseBlankRuns s :=
  collapseFrom_noRun 0 s

theorem marker_eq : truncationMarker = '\n' :: "[...truncated]".toList := by decide

/-- The marker completes a run of three exactly behind a run of two. -/
theorem blankRun_marker_iff {s : List Char} (h : ¬ blankRun 3 <:+: s) :
    blankRun 3 <:+: s ++ truncationMarker ↔ blankRun 2 <:+ s := by
  constructor
  · intro hrun
    have hsplit : s ++ truncationMarker = (s ++ ['\n']) ++ '[' :: "...truncated]".toList := by
      rw [marker_eq]
      simp
    rw [hsplit] at hrun
    rcases infix_append_cons (by decide) hrun with hrun | hrun
    · rcases List.infix_concat_iff.mp hrun with ⟨pre, hpre⟩ | hrun
      · have hthree : blankRun 3 = blankRun 2 ++ ['\n'] := rfl
        rw [hthree, ← List.append_assoc] at hpre
        exact ⟨pre, List.append_cancel_right hpre⟩
      · exact absurd hrun h
    · exact absurd hrun (by decide)
  · rintro ⟨pre, rfl⟩
    exact ⟨pre, "[...truncated]".toList, by rw [marker_eq]; simp [blankRun]⟩

/-! ## Characters -/

/-- The code points that the comment of `strip_dangerous_unicode` lists: the tag block,
the private use areas, the bidirectional and zero-width formatting controls and the
control codes other than tab, line feed and carriage return. -/
def Unwanted (c : Char) : Prop :=
  (0xe0000 ≤ c.toNat ∧ c.toNat ≤ 0xe007f) ∨
    ((0xe000 ≤ c.toNat ∧ c.toNat ≤ 0xf8ff) ∨ (0xf0000 ≤ c.toNat ∧ c.toNat ≤ 0xffffd) ∨
      (0x100000 ≤ c.toNat ∧ c.toNat ≤ 0x10fffd)) ∨
    ((0x200b ≤ c.toNat ∧ c.toNat ≤ 0x200f) ∨ (0x202a ≤ c.toNat ∧ c.toNat ≤ 0x202e) ∨
      (0x2066 ≤ c.toNat ∧ c.toNat ≤ 0x2069) ∨ c.toNat = 0xfeff) ∨
    (c.toNat < 0x20 ∨ (0x7f ≤ c.toNat ∧ c.toNat ≤ 0x9f)) ∧ c ∉ ['\t', '\n', '\r']

/-- The characters of the literals that the passes put in. -/
def isGraphic (c : Char) : Bool := c == '\n' || 0x20 ≤ c.toNat && c.toNat < 0x7f

theorem isGraphic_harmless {c : Char} (h : isGraphic c = true) : ¬ Unwanted c := by
  rw [isGraphic, Bool.or_eq_true, beq_iff_eq, Bool.and_eq_true, decide_eq_true_eq,
    decide_eq_true_eq] at h
  rw [Unwanted]
  rcases h with rfl | h
  · decide
  · omega

/-- The ranges of `strip_dangerous_unicode` are the code points that it lists. -/
theorem dangerousRanges_iff (c : Char) :
    (dangerousRanges.any fun range => range.1 ≤ c.toNat && c.toNat ≤ range.2) = true ↔
      Unwanted c := by
  have hkept : c ∉ ['\t', '\n', '\r'] ↔ c.toNat ≠ 9 ∧ c.toNat ≠ 10 ∧ c.toNat ≠ 13 := by
    have hchars : ∀ d : Char, c = d ↔ c.toNat = d.toNat := fun d => Char.toNat_inj.symm
    simp only [List.mem_cons, List.not_mem_nil, or_false, not_or, hchars]
    rfl
  rw [Unwanted, hkept]
  simp only [dangerousRanges, List.any_cons, List.any_nil, Bool.or_false, Bool.or_eq_true,
    Bool.and_eq_true, decide_eq_true_eq]
  omega

theorem stripDangerousUnicode_cons {c : Char} (h : ¬ Unwanted c) (s : List Char) :
    stripDangerousUnicode (c :: s) = c :: stripDangerousUnicode s := by
  rw [← dangerousRanges_iff, Bool.not_eq_true] at h
  rw [stripDangerousUnicode, List.filter_cons, h, if_pos (by decide), stripDangerousUnicode]

theorem stripDangerousUnicode_unwanted {c : Char} (h : Unwanted c) (s : List Char) :
    stripDangerousUnicode (c :: s) = stripDangerousUnicode s := by
  rw [← dangerousRanges_iff] at h
  rw [stripDangerousUnicode, List.filter_cons, h, if_neg (by decide), stripDangerousUnicode]

theorem stripDangerousUnicode_eq_self {s : List Char} (h : ∀ c ∈ s, isGraphic c = true) :
    stripDangerousUnicode s = s := by
  induction s with
  | nil => rfl
  | cons c s ih =>
    obtain ⟨hc, hs⟩ := List.forall_mem_cons.mp h
    rw [stripDangerousUnicode_cons (isGraphic_harmless hc), ih hs]

theorem stripDangerousUnicode_harmless {s : List Char} {c : Char}
    (h : c ∈ stripDangerousUnicode s) : ¬ Unwanted c := by
  have hranges := (List.mem_filter.mp h).2
  rw [Bool.not_eq_true'] at hranges
  rw [← dangerousRanges_iff, hranges]
  exact Bool.false_ne_true

theorem collapseFrom_sublist (newlines : Nat) (s : List Char) :
    List.Sublist (collapseFrom newlines s) s := by
  induction s generalizing newlines with
  | nil => exact List.Sublist.refl _
  | cons c cs ih =>
    rw [collapseFrom]
    split
    · split
      · exact (ih _).cons_cons c
      · exact (ih _).cons c
    · exact (ih _).cons_cons c

theorem truncateWithMarker_subset {s : List Char} {max : Nat} {c : Char}
    (h : c ∈ truncateWithMarker s max) : c ∈ s ∨ c ∈ truncationMarker := by
  rw [truncateWithMarker] at h
  split at h
  · exact Or.inl h
  · rcases List.mem_append.mp h with h | h
    · exact Or.inl ((takeBytes_isPrefix _ s).subset h)
    · exact Or.inr h

theorem neutraliseEnvelopeTags_harmless {s : List Char} (h : ∀ c ∈ s, ¬ Unwanted c) :
    ∀ c ∈ neutraliseEnvelopeTags s, ¬ Unwanted c := by
  have hclose : ∀ c ∈ "</untrusted_tool_output_BLOCKED>".toList, isGraphic c = true :=
    List.all_eq_true.mp (by decide)
  have hopen : ∀ c ∈ "<untrusted_tool_output_BLOCKED".toList, isGraphic c = true :=
    List.all_eq_true.mp (by decide)
  intro c hc
  rcases mem_replaceAll hc with hc | hc
  · rcases mem_replaceAll hc with hc | hc
    · exact h c hc
    · exact isGraphic_harmless (hclose c hc)
  · exact isGraphic_harmless (hopen c hc)


/-! ## The postcondition -/

/-- The passes before the last one, behind `strip_ansi`. -/
def beforeTruncation (nfc : List Char → List Char) (raw : List Char) : Option (List Char) :=
  (stripAnsi raw).map fun s =>
    collapseBlankRuns (neutraliseEnvelopeTags (nfc (stripDangerousUnicode s)))

theorem normaliseFreeText_eq (nfc : List Char → List Char) (raw : List Char) :
    normaliseFreeText nfc raw =
      (beforeTruncation nfc raw).map fun s => truncateWithMarker s maxOutputBytes := by
  rw [normaliseFreeText, beforeTruncation, Option.map_map]
  rfl

/-- What `normalise_free_text` promises of the text that it makes out of `before`. -/
structure Normalised (before text : List Char) : Prop where
  bounded : byteLength text ≤ maxOutputBytes
  harmless : ∀ c ∈ text, ¬ Unwanted c
  noBlankRun : ¬ blankRun 3 <:+: text
  noCloseTag : ¬ closeTag <:+: text
  marked : text ≠ before → truncationMarker <:+ text

/-- The text is too long, and the last character that is kept of it ends a blank line. -/
def CutBehindBlankLine (s : List Char) : Prop :=
  maxOutputBytes < byteLength s ∧ ∃ pre next post, s = pre ++ blankRun 2 ++ next :: post ∧
    byteLength (pre ++ blankRun 2) ≤ maxOutputBytes - byteLength truncationMarker ∧
    maxOutputBytes - byteLength truncationMarker <
      byteLength (pre ++ blankRun 2) + next.utf8Size

theorem cutBehindBlankLine_iff {s : List Char} (h : maxOutputBytes < byteLength s) :
    CutBehindBlankLine s ↔
      blankRun 2 <:+ takeBytes (maxOutputBytes - byteLength truncationMarker) s := by
  constructor
  · rintro ⟨-, pre, next, post, rfl, hfits, hnext⟩
    rw [takeBytes_eq_of_cut hfits hnext]
    exact List.suffix_append pre _
  · rintro ⟨pre, hpre⟩
    have hbudget : maxOutputBytes - byteLength truncationMarker < byteLength s := by omega
    obtain ⟨next, post, hs, hnext⟩ := takeBytes_cut hbudget
    have hfits := takeBytes_length_le (maxOutputBytes - byteLength truncationMarker) s
    rw [← hpre] at hs hnext hfits
    exact ⟨h, pre, next, post, hs, hfits, hnext⟩

theorem truncateWithMarker_noRun_iff {s : List Char} (h : ¬ blankRun 3 <:+: s) :
    ¬ blankRun 3 <:+: truncateWithMarker s maxOutputBytes ↔ ¬ CutBehindBlankLine s := by
  rw [not_iff_not, truncateWithMarker]
  by_cases hlong : byteLength s ≤ maxOutputBytes
  · rw [if_pos hlong]
    exact ⟨fun hrun => absurd hrun h, fun hcut => absurd hcut.1 (Nat.not_lt.mpr hlong)⟩
  · have hkept := takeBytes_isPrefix (maxOutputBytes - byteLength truncationMarker) s
    have hkeptRun := fun hrun => h (List.IsInfix.trans hrun hkept.isInfix)
    rw [if_neg hlong, cutBehindBlankLine_iff (Nat.not_le.mp hlong), blankRun_marker_iff hkeptRun]

theorem truncateWithMarker_marked {s : List Char} {max : Nat}
    (h : truncateWithMarker s max ≠ s) : truncationMarker <:+ truncateWithMarker s max := by
  rw [truncateWithMarker] at h ⊢
  split at h
  · exact absurd rfl h
  · next hlong =>
    rw [if_neg hlong]
    exact List.suffix_append _ _

theorem beforeTruncation_harmless {nfc : List Char → List Char} {raw before : List Char}
    (hnfc : ∀ s, (∀ c ∈ s, ¬ Unwanted c) → ∀ c ∈ nfc s, ¬ Unwanted c)
    (h : beforeTruncation nfc raw = some before) : ∀ c ∈ before, ¬ Unwanted c := by
  obtain ⟨stripped, -, rfl⟩ := Option.map_eq_some_iff.mp h
  intro c hc
  have hmem := (collapseFrom_sublist 0 _).subset hc
  refine neutraliseEnvelopeTags_harmless (hnfc _ ?_) c hmem
  intro d hd
  exact stripDangerousUnicode_harmless hd

/-- A short plain text with nothing to take out or to replace stays as it is. -/
theorem beforeTruncation_plain {s : List Char} (hgraphic : ∀ c ∈ s, isGraphic c = true)
    (hopen : '<' ∉ s) (hrun : ¬ blankRun 3 <:+: s) : beforeTruncation id s = some s := by
  have hescape : '\x1b' ∉ s := by
    intro h
    exact absurd (hgraphic _ h) (by decide)
  have htags : neutraliseEnvelopeTags s = s := by
    have hreplaced : openTag = '<' :: "untrusted_tool_output".toList := by decide
    rw [neutraliseEnvelopeTags, closeTag_eq, replaceAll_eq_self hopen, hreplaced,
      replaceAll_eq_self hopen]
  rw [beforeTruncation, stripAnsi_eq_self hescape, Option.map_some,
    stripDangerousUnicode_eq_self hgraphic, id, htags, collapseBlankRuns_eq_self hrun]

end Sysknife
