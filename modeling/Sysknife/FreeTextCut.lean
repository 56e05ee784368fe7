import Sysknife.AnsiBytes
import Sysknife.FreeText

/-!
# Where `normalise_free_text` cuts

How long a text is behind the passes before the cut, counted on the text that goes into
them, and with it which raw texts are cut behind a blank line.
-/

namespace Sysknife

open TextMatch

/-! ## Lengths behind the passes -/

theorem blankRun_concat (n : Nat) (s : List Char) :
    blankRun n ++ '\n' :: s = blankRun (n + 1) ++ s := by
  rw [blankRun, blankRun, List.replicate_succ', List.append_assoc]
  rfl

/-- No run of three goes over another character. -/
theorem occurrences_blankRun {n : Nat} (hn : n ≤ 2) {c : Char} (hc : c ≠ '\n') (s : List Char) :
    occurrences (blankRun 3) (blankRun n ++ c :: s) = occurrences (blankRun 3) s := by
  have hnone : ∀ m, m < 3 → ¬ blankRun 3 <+: blankRun m ++ c :: s := by
    intro m hm h
    have hshort : blankRun 3 <+: blankRun m :=
      (prefix_append_cons_iff (by simpa [blankRun] using hc)).mp h
    have hlength := hshort.length_le
    rw [blankRun, blankRun, List.length_replicate, List.length_replicate] at hlength
    omega
  induction n with
  | zero => exact occurrences_cons (hnone 0 (by omega))
  | succ n ih =>
    have hhere : ¬ blankRun 3 <+: '\n' :: (blankRun n ++ c :: s) := hnone (n + 1) (by omega)
    rw [blankRun_succ n, List.cons_append, occurrences_cons hhere, ih (by omega)]

/-- Every run of three has one line feed that is left out. -/
theorem byteLength_collapseFrom (newlines : Nat) (s : List Char) :
    byteLength (collapseFrom newlines s) +
      occurrences (blankRun 3) (blankRun (min newlines 2) ++ s) = byteLength s := by
  induction s generalizing newlines with
  | nil =>
    have hnone : ∀ n, n ≤ 2 → occurrences (blankRun 3) (blankRun n ++ []) = 0 := by decide
    rw [hnone _ (Nat.min_le_right ..)]
    rfl
  | cons c s ih =>
    rw [collapseFrom]
    by_cases hc : c = '\n'
    · subst hc
      have hrest := ih (newlines + 1)
      by_cases hfew : newlines + 1 ≤ 2
      · have hboth : min newlines 2 + 1 = min (newlines + 1) 2 := by omega
        rw [if_pos rfl, if_pos hfew, blankRun_concat, hboth, byteLength_cons, byteLength_cons]
        omega
      · have hmany : min newlines 2 = 2 := by omega
        have hmany' : min (newlines + 1) 2 = 2 := by omega
        have hrun : blankRun 3 <+: '\n' :: (blankRun 2 ++ s) := List.prefix_append (blankRun 3) s
        have hsize : Char.utf8Size '\n' = 1 := rfl
        rw [hmany'] at hrest
        rw [if_pos rfl, if_neg hfew, hmany, blankRun_concat, blankRun_succ 2, List.cons_append,
          ← blankRun_succ 2, occurrences_prefixed hrun, byteLength_cons, hsize]
        omega
    · have hrest := ih 0
      rw [if_neg hc, occurrences_blankRun (Nat.min_le_right ..) hc, byteLength_cons,
        byteLength_cons]
      have hnothing : blankRun (min 0 2) ++ s = s := rfl
      rw [hnothing] at hrest
      omega

theorem collapseFrom_append_cons {c : Char} (hc : c ≠ '\n') (newlines : Nat) (a b : List Char) :
    collapseFrom newlines (a ++ c :: b) = collapseFrom newlines a ++ c :: collapseFrom 0 b := by
  induction a generalizing newlines with
  | nil =>
    rw [List.nil_append, collapseFrom.eq_2, if_neg hc]
    rfl
  | cons d a ih =>
    rw [List.cons_append, collapseFrom, collapseFrom, ih, ih]
    split
    · split
      · rfl
      · rfl
    · rfl

theorem split_of_collapseFrom {c : Char} (hc : c ≠ '\n') {newlines : Nat} {s u v : List Char}
    (h : collapseFrom newlines s = u ++ c :: v) :
    ∃ a b, s = a ++ c :: b ∧ collapseFrom newlines a = u := by
  induction s generalizing newlines u with
  | nil => exact absurd h.symm (by simp [collapseFrom])
  | cons d s ih =>
    rw [collapseFrom] at h
    by_cases hd : d = '\n'
    · subst hd
      rw [if_pos rfl] at h
      by_cases hfew : newlines + 1 ≤ 2
      · rw [if_pos hfew] at h
        cases u with
        | nil => exact absurd (List.cons.inj h).1.symm hc
        | cons e u =>
          obtain ⟨rfl, hrest⟩ := List.cons.inj h
          obtain ⟨a, b, rfl, ha⟩ := ih hrest
          exact ⟨'\n' :: a, b, rfl, by rw [collapseFrom, if_pos rfl, if_pos hfew, ha]⟩
      · rw [if_neg hfew] at h
        obtain ⟨a, b, rfl, ha⟩ := ih h
        exact ⟨'\n' :: a, b, rfl, by rw [collapseFrom, if_pos rfl, if_neg hfew, ha]⟩
    · rw [if_neg hd] at h
      cases u with
      | nil =>
        obtain ⟨rfl, -⟩ := List.cons.inj h
        exact ⟨[], s, rfl, rfl⟩
      | cons e u =>
        obtain ⟨rfl, hrest⟩ := List.cons.inj h
        obtain ⟨a, b, rfl, ha⟩ := ih hrest
        exact ⟨d :: a, b, rfl, by rw [collapseFrom, if_neg hd, ha]⟩

/-- A blank line at the end stays there. -/
theorem suffix_collapseFrom_iff (newlines : Nat) (s : List Char) :
    blankRun 2 <:+ blankRun (min newlines 2) ++ collapseFrom newlines s ↔
      blankRun 2 <:+ blankRun (min newlines 2) ++ s := by
  induction s generalizing newlines with
  | nil => rfl
  | cons c s ih =>
    rw [collapseFrom]
    by_cases hc : c = '\n'
    · subst hc
      have hrest := ih (newlines + 1)
      by_cases hfew : newlines + 1 ≤ 2
      · have hboth : min newlines 2 + 1 = min (newlines + 1) 2 := by omega
        rw [if_pos rfl, if_pos hfew, blankRun_concat, blankRun_concat, hboth, hrest]
      · have hmany : min newlines 2 = 2 := by omega
        have hmany' : min (newlines + 1) 2 = 2 := by omega
        rw [hmany'] at hrest
        have hlonger : blankRun 2 ≠ '\n' :: (blankRun 2 ++ s) := fun heq =>
          absurd (congrArg List.length heq) (by simp [blankRun])
        rw [if_pos rfl, if_neg hfew, hmany, hrest, blankRun_concat, blankRun_succ 2,
          List.cons_append, List.suffix_cons_iff, or_iff_right hlonger]
    · have hother : c ∉ blankRun 2 := by simpa [blankRun] using hc
      rw [if_neg hc, suffix_append_cons_iff hother, suffix_append_cons_iff hother]
      exact ih 0

/-! ## Tags -/

theorem openTag_eq : openTag = '<' :: "untrusted_tool_output".toList := by decide

/-- What stands in for the two tags. -/
theorem neutraliseEnvelopeTags_eq (s : List Char) :
    neutraliseEnvelopeTags s =
      replaceAll ('<' :: "untrusted_tool_output".toList)
        ('<' :: "untrusted_tool_output_BLOCKED".toList)
        (replaceAll ('<' :: "/untrusted_tool_output>".toList)
          ('<' :: "/untrusted_tool_output_BLOCKED>".toList) s) := by
  rfl

theorem neutraliseEnvelopeTags_append (a b : List Char) :
    neutraliseEnvelopeTags (a ++ '\n' :: b) =
      neutraliseEnvelopeTags a ++ '\n' :: neutraliseEnvelopeTags b := by
  rw [neutraliseEnvelopeTags, replaceAll_append_cons (by decide) (by decide),
    replaceAll_append_cons (by decide) (by decide)]
  rfl

theorem split_of_neutraliseEnvelopeTags {s u v : List Char}
    (h : neutraliseEnvelopeTags s = u ++ '\n' :: v) :
    ∃ a b, s = a ++ '\n' :: b ∧ neutraliseEnvelopeTags a = u ∧ neutraliseEnvelopeTags b = v := by
  obtain ⟨a', b', hs, rfl, rfl⟩ := split_of_replaceAll (by decide) (by decide) h
  obtain ⟨a, b, rfl, rfl, rfl⟩ := split_of_replaceAll (by decide) (by decide) hs
  exact ⟨a, b, rfl, rfl, rfl⟩

theorem head_neutraliseEnvelopeTags (s : List Char) :
    (neutraliseEnvelopeTags s).head? = s.head? := by
  rw [neutraliseEnvelopeTags_eq, head_replaceAll, head_replaceAll]

theorem byteLength_replaceAll {p : List Char} (rep : List Char) (hp : '<' ∉ p) (s : List Char) :
    byteLength (replaceAll ('<' :: p) rep s) + occurrences ('<' :: p) s * byteLength ('<' :: p) =
      byteLength s + occurrences ('<' :: p) s * byteLength rep :=
  weight_replaceAll Char.utf8Size hp s

/-- A tag does not begin in another whose second character differs. -/
theorem occurrences_other {c d : Char} {p q : List Char} (hq : c ≠ d) (hp : '<' ∉ d :: p)
    (s : List Char) :
    occurrences ('<' :: c :: q) ('<' :: d :: p ++ s) = occurrences ('<' :: c :: q) s := by
  have hhere : ¬ '<' :: c :: q <+: '<' :: (d :: p ++ s) := fun h =>
    hq (List.cons_prefix_cons.mp (List.cons_prefix_cons.mp h).2).1
  rw [List.cons_append, occurrences_cons hhere, occurrences_append hp]

/-- Every tag grows by `_BLOCKED`. -/
theorem byteLength_neutraliseEnvelopeTags (s : List Char) :
    byteLength (neutraliseEnvelopeTags s) =
      byteLength s + 8 * (occurrences openTag s + occurrences closeTag s) := by
  have hsame : occurrences openTag (replaceAll closeTag
      "</untrusted_tool_output_BLOCKED>".toList s) = occurrences openTag s :=
    occurrences_replaceAll (by decide) (occurrences_other (by decide) (by decide))
      (occurrences_other (by decide) (by decide)) s
  have hclose : byteLength (replaceAll closeTag "</untrusted_tool_output_BLOCKED>".toList s) +
      occurrences closeTag s * 24 = byteLength s + occurrences closeTag s * 32 :=
    byteLength_replaceAll _ (by decide) s
  have hopen := byteLength_replaceAll "<untrusted_tool_output_BLOCKED".toList
    (by decide : '<' ∉ "untrusted_tool_output".toList)
    (replaceAll closeTag "</untrusted_tool_output_BLOCKED>".toList s)
  have hsizes : byteLength openTag = 22 ∧
    byteLength "<untrusted_tool_output_BLOCKED".toList = 30 := by decide
  rw [← openTag_eq, hsame, hsizes.1, hsizes.2] at hopen
  rw [neutraliseEnvelopeTags]
  omega

/-- A text between the two tags has no line feed. -/
theorem occurrences_neutraliseEnvelopeTags (s : List Char) :
    occurrences (blankRun 3) (neutraliseEnvelopeTags s) = occurrences (blankRun 3) s := by
  have hinvisible : ∀ t ∈ [openTag, closeTag, "<untrusted_tool_output_BLOCKED".toList,
      "</untrusted_tool_output_BLOCKED>".toList], ∀ u,
      occurrences (blankRun 3) (t ++ u) = occurrences (blankRun 3) u := by
    intro t ht
    have hplain : ∀ t ∈ [openTag, closeTag, "<untrusted_tool_output_BLOCKED".toList,
      "</untrusted_tool_output_BLOCKED>".toList], '\n' ∉ t := by decide
    exact occurrences_append (hplain t ht)
  rw [neutraliseEnvelopeTags_eq]
  calc occurrences (blankRun 3) _ = occurrences (blankRun 3) _ :=
        occurrences_replaceAll (by decide) (hinvisible _ (by decide)) (hinvisible _ (by decide)) _
    _ = occurrences (blankRun 3) s :=
        occurrences_replaceAll (by decide) (hinvisible _ (by decide)) (hinvisible _ (by decide)) s

/-! ## The cut -/

/-- The bytes of a text with its two tags made harmless, each by `_BLOCKED`, and with one
line feed less at every place where three begin. -/
def outputBytes (s : List Char) : Nat :=
  byteLength s + 8 * (occurrences openTag s + occurrences closeTag s) -
    occurrences (blankRun 3) s

theorem byteLength_collapse_neutralise (s : List Char) :
    byteLength (collapseBlankRuns (neutraliseEnvelopeTags s)) = outputBytes s := by
  have hcollapse : byteLength (collapseBlankRuns (neutraliseEnvelopeTags s)) +
      occurrences (blankRun 3) (neutraliseEnvelopeTags s) =
        byteLength (neutraliseEnvelopeTags s) := byteLength_collapseFrom 0 _
  rw [occurrences_neutraliseEnvelopeTags, byteLength_neutraliseEnvelopeTags] at hcollapse
  rw [outputBytes]
  omega

/-- The text does not fit, and what fits of it together with the marker ends in a blank
line. -/
def EndsAtBlankLine (s : List Char) : Prop :=
  maxOutputBytes < outputBytes s ∧ ∃ pre next post, s = pre ++ blankRun 2 ++ next :: post ∧
    next ≠ '\n' ∧
    outputBytes (pre ++ blankRun 2) ≤ maxOutputBytes - byteLength truncationMarker ∧
    maxOutputBytes - byteLength truncationMarker <
      outputBytes (pre ++ blankRun 2) + next.utf8Size

theorem neutraliseEnvelopeTags_blankRun (s : List Char) :
    neutraliseEnvelopeTags (s ++ blankRun 2) = neutraliseEnvelopeTags s ++ blankRun 2 := by
  have hrest : neutraliseEnvelopeTags ('\n' :: []) = ['\n'] := by decide
  rw [blankRun_succ 1, neutraliseEnvelopeTags_append]
  exact congrArg (neutraliseEnvelopeTags s ++ '\n' :: ·) hrest

theorem eq_cons_of_head {s : List Char} {c : Char} {rest : List Char}
    (h : neutraliseEnvelopeTags s = c :: rest) : ∃ post, s = c :: post := by
  have hhead := head_neutraliseEnvelopeTags s
  rw [h, List.head?_cons] at hhead
  exact List.head?_eq_some_iff.mp hhead.symm

/-- A text with a blank line in it, behind the tags. -/
theorem neutraliseEnvelopeTags_cut (pre post : List Char) (next : Char) :
    ∃ rest, neutraliseEnvelopeTags (pre ++ blankRun 2 ++ next :: post) =
      neutraliseEnvelopeTags (pre ++ blankRun 2) ++ next :: rest := by
  have hhead := head_neutraliseEnvelopeTags (next :: post)
  rw [List.head?_cons] at hhead
  obtain ⟨rest, hrest⟩ := List.head?_eq_some_iff.mp hhead
  have hline := neutraliseEnvelopeTags_append [] (next :: post)
  rw [hrest] at hline
  refine ⟨rest, ?_⟩
  calc neutraliseEnvelopeTags (pre ++ blankRun 2 ++ next :: post)
      = neutraliseEnvelopeTags (pre ++ '\n' :: ([] ++ '\n' :: next :: post)) := by
        rw [List.append_assoc]
        rfl
    _ = neutraliseEnvelopeTags pre ++ '\n' :: ('\n' :: next :: rest) := by
        rw [neutraliseEnvelopeTags_append, hline]
        rfl
    _ = neutraliseEnvelopeTags (pre ++ blankRun 2) ++ next :: rest := by
        rw [neutraliseEnvelopeTags_blankRun, List.append_assoc]
        rfl

theorem cut_of_endsAtBlankLine {s : List Char} (h : EndsAtBlankLine s) :
    CutBehindBlankLine (collapseBlankRuns (neutraliseEnvelopeTags s)) := by
  obtain ⟨hlong, pre, next, post, rfl, hnext, hfits, hfull⟩ := h
  obtain ⟨rest, hrest⟩ := neutraliseEnvelopeTags_cut pre post next
  have hsplit : collapseBlankRuns (neutraliseEnvelopeTags (pre ++ blankRun 2 ++ next :: post)) =
      collapseBlankRuns (neutraliseEnvelopeTags (pre ++ blankRun 2)) ++
        next :: collapseFrom 0 rest := by
    rw [hrest]
    exact collapseFrom_append_cons hnext 0 _ _
  have hblank : blankRun 2 <:+ collapseBlankRuns (neutraliseEnvelopeTags (pre ++ blankRun 2)) := by
    refine (suffix_collapseFrom_iff 0 _).mpr ?_
    rw [neutraliseEnvelopeTags_blankRun]
    exact List.suffix_append _ _
  obtain ⟨kept, hkept⟩ := hblank
  rw [← byteLength_collapse_neutralise, ← hkept] at hfits hfull
  rw [← byteLength_collapse_neutralise] at hlong
  exact ⟨hlong, kept, next, collapseFrom 0 rest, by rw [hsplit, hkept], hfits, hfull⟩

theorem endsAtBlankLine_of_cut {s : List Char}
    (h : CutBehindBlankLine (collapseBlankRuns (neutraliseEnvelopeTags s))) :
    EndsAtBlankLine s := by
  obtain ⟨hlong, kept, next, post, heq, hfits, hfull⟩ := h
  have hnext : next ≠ '\n' := by
    rintro rfl
    refine collapseBlankRuns_noRun (neutraliseEnvelopeTags s) ?_
    rw [heq, List.append_assoc, blankRun_concat]
    exact (List.prefix_append _ _).isInfix.trans (List.suffix_append _ _).isInfix
  obtain ⟨read, rest, hread, hkept⟩ := split_of_collapseFrom hnext heq
  -- the blank line was there before the line feeds were collapsed
  have hblank : blankRun 2 <:+ read := by
    refine (suffix_collapseFrom_iff 0 read).mp ?_
    rw [hkept]
    exact List.suffix_append kept _
  obtain ⟨body, rfl⟩ := hblank
  rw [List.append_assoc] at hread
  obtain ⟨pre, line, rfl, rfl, hline⟩ := split_of_neutraliseEnvelopeTags hread
  obtain ⟨empty, last, rfl, hempty, hlast⟩ := split_of_neutraliseEnvelopeTags (u := []) hline
  obtain ⟨post, rfl⟩ := eq_cons_of_head hlast
  have hnil : empty = [] := by
    have hhead := head_neutraliseEnvelopeTags empty
    rw [hempty] at hhead
    exact List.head?_eq_none_iff.mp hhead.symm
  rw [← neutraliseEnvelopeTags_blankRun] at hkept
  rw [← hkept, ← collapseBlankRuns, byteLength_collapse_neutralise] at hfits hfull
  rw [byteLength_collapse_neutralise] at hlong
  refine ⟨hlong, pre, next, post, ?_, hnext, hfits, hfull⟩
  rw [hnil, List.append_assoc]
  rfl

theorem cut_iff (s : List Char) :
    CutBehindBlankLine (collapseBlankRuns (neutraliseEnvelopeTags s)) ↔ EndsAtBlankLine s :=
  ⟨endsAtBlankLine_of_cut, cut_of_endsAtBlankLine⟩

/-! ## What is shown -/

/-- What is left of a raw text without its control sequences, also one that the text ends
in, and without the unwanted code points. -/
inductive Shows : List Char → List Char → Prop where
  | nil : Shows [] []
  | unfinished {tail : List Char} : Unfinished tail → Shows tail []
  | sequence {sequence raw shown : List Char} : AnsiUnit ('\x1b' :: sequence) → Shows raw shown →
      Shows ('\x1b' :: sequence ++ raw) shown
  | unwanted {c : Char} {raw shown : List Char} : c ≠ '\x1b' → Unwanted c → Shows raw shown →
      Shows (c :: raw) shown
  | text {c : Char} {raw shown : List Char} : c ≠ '\x1b' → ¬ Unwanted c → Shows raw shown →
      Shows (c :: raw) (c :: shown)

theorem stripAnsi_unfinished {tail : List Char} (h : Unfinished tail) :
    stripAnsi tail = some [] := by
  cases h with
  | escape => rfl
  | @csi body hopen =>
    obtain ⟨used, rest, rfl, hchars, -, hend⟩ := csi_spec [] body
    rw [stripAnsi, stripAnsiFrom, if_pos rfl, stripAnsiFrom, if_pos rfl, hchars]
    rcases hend with ⟨rfl, -⟩ | ⟨start, final, rfl, -, hfinal⟩
    · rfl
    · have hlast := hopen final (by simp)
      rw [hfinal] at hlast
      cases hlast
  | @osc body hopen =>
    obtain ⟨used, rest, rfl, hchars, -, hend⟩ := osc_spec [] body
    rw [stripAnsi, stripAnsiFrom, if_pos rfl, stripAnsiFrom, if_neg (by decide), if_pos rfl,
      hchars]
    rcases hend with ⟨rfl, -⟩ | ⟨start, final, rfl, -, rfl | rfl⟩
    · rfl
    · exact absurd (by simp) hopen.1
    · exact absurd ⟨start, rest, by simp⟩ hopen.2
  | charset hd =>
    simp only [List.mem_cons, List.not_mem_nil, or_false] at hd
    rcases hd with rfl | rfl | rfl | rfl <;> rfl

theorem stripAnsi_of_shows {raw shown : List Char} (h : Shows raw shown) :
    (stripAnsi raw).map stripDangerousUnicode = some shown := by
  induction h with
  | nil => rfl
  | unfinished htail => rw [stripAnsi_unfinished htail]; rfl
  | sequence hunit _ ih => rw [stripAnsi_sequence hunit, ih]
  | @unwanted c raw shown hc hbad _ ih =>
    obtain ⟨s, hs, rfl⟩ := Option.map_eq_some_iff.mp ih
    rw [stripAnsi_text hc, hs]
    exact congrArg some (stripDangerousUnicode_unwanted hbad s)
  | @text c raw shown hc hgood _ ih =>
    obtain ⟨s, hs, rfl⟩ := Option.map_eq_some_iff.mp ih
    rw [stripAnsi_text hc, hs]
    exact congrArg some (stripDangerousUnicode_cons hgood s)

theorem shows_of_stripAnsi {raw s : List Char} (h : stripAnsi raw = some s) :
    Shows raw (stripDangerousUnicode s) := by
  induction hn : raw.length using Nat.strong_induction_on generalizing raw s with
  | _ n ih =>
    cases raw with
    | nil =>
      obtain rfl := Option.some.inj h
      exact .nil
    | cons c raw =>
      by_cases hc : c = '\x1b'
      · subst hc
        rcases escape_turn [] raw with ⟨used, rest, hturn⟩ | ⟨torn, rest, hturn⟩
        · obtain ⟨hsplit, hprogress, -, hchars, hunit⟩ := hturn
          have hsame : stripAnsi ('\x1b' :: raw) = stripAnsi rest := by
            rw [hchars]
            simp
          rcases hunit with ⟨rfl, hopen⟩ | hunit
          · rw [hsame] at h
            obtain rfl := Option.some.inj h
            rw [List.append_nil] at hsplit
            exact hsplit ▸ .unfinished hopen
          · cases used with
            | nil => exact absurd rfl hprogress
            | cons d sequence =>
              have hshorter : rest.length < n := by
                have hlength := congrArg List.length hsplit
                simp only [List.length_append, List.length_cons] at hlength hn
                omega
              obtain ⟨rfl, -⟩ := List.cons.inj hsplit
              rw [hsplit]
              exact .sequence hunit (ih rest.length hshorter (hsame ▸ h) rfl)
        · rw [hturn.chars] at h
          cases h
      · rw [stripAnsi_text hc] at h
        obtain ⟨t, ht, rfl⟩ := Option.map_eq_some_iff.mp h
        rw [List.length_cons] at hn
        have hrest := ih raw.length (by omega) ht rfl
        by_cases hbad : Unwanted c
        · rw [stripDangerousUnicode_unwanted hbad]
          exact .unwanted hc hbad hrest
        · rw [stripDangerousUnicode_cons hbad]
          exact .text hc hbad hrest

/-! ## The postcondition -/

/-- The text that is shown does not fit, and the cut is behind a blank line of it. -/
def BlankLineAtCut (nfc : List Char → List Char) (raw : List Char) : Prop :=
  ∃ shown, Shows raw shown ∧ EndsAtBlankLine (nfc shown)

theorem beforeTruncation_cut_iff {nfc : List Char → List Char} {raw before : List Char}
    (h : beforeTruncation nfc raw = some before) :
    CutBehindBlankLine before ↔ BlankLineAtCut nfc raw := by
  obtain ⟨stripped, hstripped, rfl⟩ := Option.map_eq_some_iff.mp h
  rw [cut_iff]
  constructor
  · exact fun hcut => ⟨_, shows_of_stripAnsi hstripped, hcut⟩
  · rintro ⟨shown, hshown, hcut⟩
    have hsame := stripAnsi_of_shows hshown
    rw [hstripped] at hsame
    exact Option.some.inj hsame ▸ hcut

/-- Where `nfc` brings in none of the unwanted code points, the text that comes back
keeps every promise, save for the run of line feeds that the marker completes where the
text is cut behind a blank line. -/
theorem normaliseFreeText_normalised_iff {nfc : List Char → List Char} {raw text : List Char}
    (hnfc : ∀ s, (∀ c ∈ s, ¬ Unwanted c) → ∀ c ∈ nfc s, ¬ Unwanted c)
    (h : normaliseFreeText nfc raw = some text) :
    ∃ before, beforeTruncation nfc raw = some before ∧
      (Normalised before text ↔ ¬ BlankLineAtCut nfc raw) := by
  have hneutral := normaliseFreeText_neutral h
  rw [normaliseFreeText_eq] at h
  obtain ⟨before, hbefore, rfl⟩ := Option.map_eq_some_iff.mp h
  have hrun : ¬ blankRun 3 <:+: before := by
    obtain ⟨stripped, -, rfl⟩ := Option.map_eq_some_iff.mp hbefore
    exact collapseBlankRuns_noRun _
  have hcuts := (truncateWithMarker_noRun_iff hrun).trans
    (not_congr (beforeTruncation_cut_iff hbefore))
  refine ⟨before, hbefore, fun hgood => hcuts.mp hgood.noBlankRun,
    fun hcut => ⟨?_, ?_, hcuts.mpr hcut, hneutral.close, truncateWithMarker_marked⟩⟩
  · exact truncateWithMarker_length_le before (by decide)
  · intro c hc
    rcases truncateWithMarker_subset hc with hc | hc
    · exact beforeTruncation_harmless hnfc hbefore c hc
    · have hmarker : ∀ c ∈ truncationMarker, isGraphic c = true :=
        List.all_eq_true.mp (by decide)
      exact isGraphic_harmless (hmarker c hc)

theorem normaliseFreeText_normalised_short :
    ∃ before, beforeTruncation id "a\n\n\n\nb".toList = some before ∧
      (Normalised before "a\n\nb".toList ↔ ¬ BlankLineAtCut id "a\n\n\n\nb".toList) :=
  normaliseFreeText_normalised_iff (fun _ h => h)
    (by decide : normaliseFreeText id "a\n\n\n\nb".toList = some "a\n\nb".toList)

/-- A blank line that ends where the marker begins, and more text behind it. -/
def longReport : List Char := List.replicate 8175 'a' ++ blankRun 2 ++ List.replicate 100 'b'

theorem longReport_cut : CutBehindBlankLine longReport := by
  refine ⟨?_, List.replicate 8175 'a', 'b', List.replicate 99 'b', rfl, ?_, ?_⟩
  · rw [longReport, byteLength_append, byteLength_append, byteLength_replicate,
      byteLength_replicate]
    decide
  · rw [byteLength_append, byteLength_replicate]
    decide
  · rw [byteLength_append, byteLength_replicate]
    decide

theorem normaliseFreeText_not_normalised :
    ¬ ∀ (nfc : List Char → List Char) (raw text : List Char),
      (∀ s, (∀ c ∈ s, ¬ Unwanted c) → ∀ c ∈ nfc s, ¬ Unwanted c) →
      normaliseFreeText nfc raw = some text →
      ∃ before, beforeTruncation nfc raw = some before ∧ Normalised before text := by
  intro hall
  have hgraphic : ∀ c ∈ longReport, isGraphic c = true ∧ c ≠ '<' := by
    intro c hc
    rw [longReport, blankRun, List.mem_append, List.mem_append, List.mem_replicate,
      List.mem_replicate, List.mem_replicate] at hc
    rcases hc with (⟨-, rfl⟩ | ⟨-, rfl⟩) | ⟨-, rfl⟩ <;> decide
  have hrun : ¬ blankRun 3 <:+: longReport := by
    intro h
    have hcount := h.sublist.count_le '\n'
    rw [longReport, List.count_append, List.count_append, blankRun, blankRun,
      List.count_replicate, List.count_replicate, List.count_replicate,
      List.count_replicate] at hcount
    revert hcount
    decide
  have hplain := beforeTruncation_plain (fun c hc => (hgraphic c hc).1)
    (fun h => (hgraphic _ h).2 rfl) hrun
  have htext : normaliseFreeText id longReport =
      some (truncateWithMarker longReport maxOutputBytes) := by
    rw [normaliseFreeText_eq, hplain]
    rfl
  obtain ⟨before, hbefore, hgood⟩ := hall id longReport _ (fun _ h => h) htext
  rw [hplain, Option.some.injEq] at hbefore
  subst hbefore
  exact (truncateWithMarker_noRun_iff hrun).mp hgood.noBlankRun longReport_cut

end Sysknife
