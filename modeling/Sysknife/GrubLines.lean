import Sysknife.GrubEdit

/-!
# The edit of the GRUB file

The lines of the file behind a run of the helper, and when the run does to the assignment
what its arguments say and leaves the rest of the file alone.
-/

namespace Sysknife

open TextLines TextWords TextTrim ShellAssignment

/-! ## Ends of lines -/

theorem universalNewlines_eq_self {s : List Char} (h : '\r' ∉ s) : universalNewlines s = s := by
  induction s with
  | nil => rfl
  | cons c s ih =>
    have hc : c ≠ '\r' := fun heq => h (List.mem_cons.mpr (Or.inl heq.symm))
    rw [universalNewlines, if_neg hc, ih fun hs => h (List.mem_cons_of_mem c hs)]

theorem return_not_mem_universalNewlines (s : List Char) : '\r' ∉ universalNewlines s := by
  induction s with
  | nil => exact List.not_mem_nil
  | cons c s ih =>
    rw [universalNewlines]
    split
    · split
      · exact ih
      · rw [List.mem_cons, not_or]
        exact ⟨by decide, ih⟩
    · next hc =>
      rw [List.mem_cons, not_or]
      exact ⟨Ne.symm hc, ih⟩

/-- The number of lines. -/
def lineCount (s : List Char) : Nat := (TextLines.lines (· == '\n') s).length

theorem lineCount_end (s : List Char) : lineCount ('\n' :: s) = lineCount s + 1 :=
  length_lines_end rfl s

theorem lineCount_other {c : Char} (hc : c ≠ '\n') (s : List Char) :
    lineCount (c :: s) = max 1 (lineCount s) := length_lines_other (by simpa using hc) s

theorem lineCount_pos (c : Char) (s : List Char) : 1 ≤ lineCount (c :: s) := by
  by_cases hc : c = '\n'
  · rw [hc, lineCount_end]
    omega
  · rw [lineCount_other hc]
    omega

theorem lineCount_universalNewlines (s : List Char) :
    lineCount s ≤ lineCount (universalNewlines s) := by
  induction s with
  | nil => exact Nat.le_refl _
  | cons c s ih =>
    by_cases hreturn : c = '\r'
    · have hplain : lineCount (c :: s) = max 1 (lineCount s) :=
        lineCount_other (by rw [hreturn]; decide) s
      rw [universalNewlines, if_pos hreturn, hplain]
      split
      · next hfeed =>
        obtain ⟨rest, rfl⟩ := List.head?_eq_some_iff.mp hfeed
        have hpos := lineCount_pos '\n' rest
        omega
      · rw [lineCount_end]
        omega
    · rw [universalNewlines, if_neg hreturn]
      by_cases hfeed : c = '\n'
      · rw [hfeed, lineCount_end, lineCount_end]
        omega
      · rw [lineCount_other hfeed, lineCount_other hfeed]
        omega

/-- A carriage return in the middle of a line becomes an end of its own. -/
theorem lineCount_return_lt {c : Char} (hc : c ≠ '\n') (a b : List Char) :
    lineCount (a ++ '\r' :: c :: b) < lineCount (universalNewlines (a ++ '\r' :: c :: b)) := by
  induction a with
  | nil =>
    have hle := lineCount_universalNewlines (c :: b)
    have hpos := lineCount_pos c b
    have hplain : lineCount ('\r' :: c :: b) = max 1 (lineCount (c :: b)) :=
      lineCount_other (by decide) _
    have hhead : (c :: b).head? ≠ some '\n' := by simpa using hc
    rw [List.nil_append, hplain, universalNewlines, if_pos rfl, if_neg hhead, lineCount_end]
    omega
  | cons d a ih =>
    have hpos : 1 ≤ lineCount (a ++ '\r' :: c :: b) := by
      cases a with
      | nil => exact lineCount_pos _ _
      | cons e a => exact lineCount_pos _ _
    rw [List.cons_append, universalNewlines]
    by_cases hreturn : d = '\r'
    · have hplain : lineCount (d :: (a ++ '\r' :: c :: b)) =
          max 1 (lineCount (a ++ '\r' :: c :: b)) :=
        lineCount_other (by rw [hreturn]; decide) _
      rw [if_pos hreturn, hplain]
      split
      · omega
      · rw [lineCount_end]
        omega
    · rw [if_neg hreturn]
      by_cases hfeed : d = '\n'
      · rw [hfeed, lineCount_end, lineCount_end]
        omega
      · rw [lineCount_other hfeed, lineCount_other hfeed]
        omega

/-! ## The lines of the edited text -/

/-- The edit of a line without its end. -/
def editBare (append delete : List (List Char)) (line : List Char) : List Char :=
  match matchedValue line with
  | some group => grubVariable ++ '"' :: (editValue append delete group ++ ['"'])
  | none => line

theorem matchedValue_quoted (s : List Char) :
    matchedValue (grubVariable ++ '"' :: s) =
      if s.contains '"' then some (s.takeWhile (· != '"')) else none := by
  have hpre : (grubVariable ++ ['"']).isPrefixOf (grubVariable ++ '"' :: s) = true := by
    rw [List.isPrefixOf_iff_prefix]
    exact ⟨s, by simp⟩
  have hdrop : (grubVariable ++ '"' :: s).drop (grubVariable.length + 1) = s := by
    rw [← List.drop_drop, List.drop_left]
    rfl
  rw [matchedValue, if_pos hpre, hdrop]

theorem takeWhile_quote {group : List Char} (hquote : '"' ∉ group) (rest : List Char) :
    (group ++ '"' :: rest).takeWhile (· != '"') = group := by
  have hall : ∀ c ∈ group, (c != '"') = true := by
    intro c hc
    rw [bne_iff_ne]
    rintro rfl
    exact hquote hc
  rw [List.takeWhile_append_of_pos hall]
  simp

theorem matchedValue_eq_some {line group : List Char} :
    matchedValue line = some group ↔
      '"' ∉ group ∧ ∃ rest, line = grubVariable ++ '"' :: (group ++ '"' :: rest) := by
  constructor
  · intro h
    by_cases hpre : (grubVariable ++ ['"']).isPrefixOf line = true
    · obtain ⟨s, rfl⟩ := List.isPrefixOf_iff_prefix.mp hpre
      rw [List.append_assoc, List.singleton_append] at h ⊢
      rw [matchedValue_quoted] at h
      split at h
      · next hquote =>
        obtain ⟨front, back, rfl, hfront⟩ :=
          List.eq_append_cons_of_mem (List.contains_iff_mem.mp hquote)
        rw [takeWhile_quote hfront, Option.some.injEq] at h
        subst h
        exact ⟨hfront, back, rfl⟩
      · cases h
    · rw [matchedValue, if_neg hpre] at h
      cases h
  · rintro ⟨hquote, rest, rfl⟩
    rw [matchedValue_quoted, takeWhile_quote hquote, if_pos (by simp)]

theorem matchedValue_end (line : List Char) :
    matchedValue (line ++ ['\n']) = matchedValue line := by
  refine Option.ext fun group => ?_
  rw [matchedValue_eq_some, matchedValue_eq_some]
  refine and_congr_right fun _ => ⟨?_, ?_⟩
  · rintro ⟨rest, hline⟩
    rcases List.eq_nil_or_concat rest with rfl | ⟨rest, c, rfl⟩
    · have hshape : grubVariable ++ '"' :: (group ++ ['"']) =
          (grubVariable ++ '"' :: group) ++ ['"'] := by simp
      rw [hshape] at hline
      have hlast := (List.append_inj' hline rfl).2
      exact absurd hlast (by decide)
    · have hshape : grubVariable ++ '"' :: (group ++ '"' :: (rest ++ [c])) =
          (grubVariable ++ '"' :: (group ++ '"' :: rest)) ++ [c] := by simp
      rw [List.concat_eq_append, hshape] at hline
      exact ⟨rest, (List.append_inj' hline rfl).1⟩
  · rintro ⟨rest, rfl⟩
    exact ⟨rest ++ ['\n'], by simp⟩

theorem editLine_end (append delete : List (List Char)) (line : List Char) :
    editLine append delete (line ++ ['\n']) = editBare append delete line ++ ['\n'] := by
  rw [editLine, editBare, matchedValue_end]
  cases matchedValue line with
  | none => rfl
  | some group => simp

/-- Nothing comes into a line but what comes into its value. -/
theorem mem_editBare {append delete : List (List Char)} {line : List Char} {c : Char}
    (h : c ∈ editBare append delete line) :
    c ∈ line ∨ c = ' ' ∨ ∃ token ∈ append, c ∈ token := by
  rw [editBare] at h
  cases hvalue : matchedValue line with
  | none =>
    rw [hvalue] at h
    exact Or.inl h
  | some group =>
    rw [hvalue] at h
    obtain ⟨-, rest, rfl⟩ := matchedValue_eq_some.mp hvalue
    simp only [List.mem_append, List.mem_cons, List.not_mem_nil, or_false] at h ⊢
    rcases h with h | rfl | h | rfl
    · exact Or.inl (Or.inl h)
    · exact Or.inl (Or.inr (Or.inl rfl))
    · rcases mem_editValue h with h | h | h
      · exact Or.inl (Or.inr (Or.inr (Or.inl h)))
      · exact Or.inr (Or.inl h)
      · exact Or.inr (Or.inr h)
    · exact Or.inl (Or.inr (Or.inl rfl))

section Edited
variable {append delete : List (List Char)} (happend : ∀ token ∈ append, '\n' ∉ token)
include happend

theorem editBare_unbroken {line : List Char} (hline : '\n' ∉ line) :
    Unbroken (· == '\n') (editBare append delete line) := by
  intro c hc
  rw [beq_eq_false_iff_ne]
  rintro rfl
  rcases mem_editBare hc with h | h | ⟨token, htoken, h⟩
  · exact hline h
  · exact absurd h (by decide)
  · exact happend token htoken h

omit happend in
theorem lines_join_feed {ls : List (List Char)} {rest : List Char}
    (hls : ∀ line ∈ ls, Unbroken (· == '\n') line) (hrest : Unbroken (· == '\n') rest) :
    TextLines.lines (· == '\n') (join '\n' ls rest) = joined ls rest :=
  lines_join (beq_self_eq_true '\n') hls hrest

omit happend in
theorem editLines_complete (append delete : List (List Char)) (ls : List (List Char)) :
    ((ls.map (· ++ ['\n'])).map (editLine append delete)).flatten =
      (ls.map (editBare append delete)).flatMap (· ++ ['\n']) := by
  simp only [List.map_map, List.flatMap_def]
  congr 1
  exact List.map_congr_left fun line _ => editLine_end append delete line

/-- The incomplete line at the end, which an edit completes. -/
theorem lines_edited_rest {ls : List (List Char)} {rest : List Char}
    (hls : ∀ line ∈ ls, Unbroken (· == '\n') line) (hrest : '\n' ∉ rest) (hne : rest ≠ []) :
    TextLines.lines (· == '\n') (ls.flatMap (· ++ ['\n']) ++ editLine append delete rest) =
      ls ++ [editBare append delete rest] := by
  have hbare := @editBare_unbroken append delete happend rest hrest
  cases hvalue : matchedValue rest with
  | none =>
    have hsame : editBare append delete rest = rest := by rw [editBare, hvalue]
    have hline : editLine append delete rest = rest := by rw [editLine, hvalue]
    rw [hsame] at hbare ⊢
    have hjoined := lines_join_feed hls hbare
    rw [join, joined, if_neg (by simpa using hne)] at hjoined
    rw [hline]
    exact hjoined
  | some group =>
    have hline : editLine append delete rest = editBare append delete rest ++ ['\n'] := by
      rw [editLine, editBare, hvalue]
      simp
    have hall : ∀ line ∈ ls ++ [editBare append delete rest], Unbroken (· == '\n') line := by
      intro line hmem
      rcases List.mem_append.mp hmem with hmem | hmem
      · exact hls line hmem
      · rw [List.mem_singleton.mp hmem]
        exact hbare
    have htext : ls.flatMap (· ++ ['\n']) ++ editLine append delete rest =
        join '\n' (ls ++ [editBare append delete rest]) [] := by
      rw [hline]
      simp [join]
    rw [htext]
    exact lines_join_feed hall unbroken_nil

theorem lines_edited (s : List Char) :
    TextLines.lines (· == '\n') (editGrubCmdline (readlines s) append delete).flatten =
      (TextLines.lines (· == '\n') s).map (editBare append delete) := by
  have hends : ∀ c : Char, (c == '\n') = true ↔ c = '\n' := fun c => beq_iff_eq
  have hnone : ∀ {line : List Char}, Unbroken (· == '\n') line → '\n' ∉ line :=
    fun h hmem => absurd (h _ hmem) (by decide)
  obtain ⟨ls, rest, hls, hrest, rfl⟩ := exists_join hends s
  have hedited : ∀ line ∈ ls.map (editBare append delete), Unbroken (· == '\n') line := by
    intro line hline
    obtain ⟨old, hold, rfl⟩ := List.mem_map.mp hline
    exact editBare_unbroken happend (hnone (hls old hold))
  have hread : readlines (join '\n' ls rest) =
      ls.map (· ++ ['\n']) ++ if rest.isEmpty then [] else [rest] := by
    rw [readlines, @split_join _ (· == '\n') '\n' ls rest rfl hls hrest]
  rw [hread, lines_join_feed hls hrest, editGrubCmdline, List.map_append, List.flatten_append,
    editLines_complete]
  by_cases hempty : rest = []
  · have hjoined := lines_join_feed hedited unbroken_nil
    rw [join, joined] at hjoined
    rw [hempty]
    exact hjoined
  · have hfull : rest.isEmpty = false := by simpa using hempty
    rw [joined, hfull, if_neg Bool.false_ne_true, if_neg Bool.false_ne_true, List.map_append,
      List.map_singleton, List.map_singleton, List.flatten_singleton]
    exact lines_edited_rest happend hedited (hnone hrest) hempty

end Edited

/-! ## Reading the edited line -/

def grubName : List Char := "GRUB_CMDLINE_LINUX_DEFAULT".toList

theorem readAssignment_grub (s : List Char) :
    readAssignment grubName (grubVariable ++ s) = (readWord s).filter fun r => isTail r.2 := by
  have hfront : declaration (grubVariable ++ s) = grubVariable ++ s := rfl
  have hassigns : assigns grubName (grubVariable ++ s) = true := by
    rw [assigns, hfront, List.isPrefixOf_iff_prefix]
    exact List.prefix_append grubVariable s
  have hdrop : (grubVariable ++ s).drop (grubName.length + 1) = s :=
    List.drop_left' (by decide)
  rw [readAssignment, if_pos hassigns, hfront, hdrop]

theorem append_quote_inj {v body tail : List Char} (hv : '"' ∉ v)
    (h : v ++ ['"'] = body ++ '"' :: tail) : body = v ∧ tail = [] := by
  rcases List.append_eq_append_iff.mp h with ⟨more, rfl, hmore⟩ | ⟨more, rfl, hmore⟩
  · have hlength := congrArg List.length hmore
    simp only [List.length_append, List.length_cons, List.length_nil] at hlength
    have hmore : more = [] := List.eq_nil_of_length_eq_zero (by omega)
    have htail : tail = [] := List.eq_nil_of_length_eq_zero (by omega)
    exact ⟨by rw [hmore, List.append_nil], htail⟩
  · cases more with
    | nil => exact ⟨(List.append_nil body).symm, (List.cons.inj hmore).2⟩
    | cons c more =>
      rw [← (List.cons.inj hmore).1] at hv
      exact absurd (by simp) hv

/-- A line that goes up to the closing quote. -/
theorem readAssignment_quoted {v value tail : List Char} (hv : '"' ∉ v) :
    readAssignment grubName (grubVariable ++ '"' :: (v ++ ['"'])) = some (value, tail) ↔
      isInertQuoted false v = true ∧ leavesOpen false v = false ∧ value = unescape false v ∧
        tail = [] := by
  rw [readAssignment_grub, Option.filter_eq_some_iff]
  constructor
  · rintro ⟨hread, -⟩
    obtain ⟨body, hbody, hinert, hclosed, hvalue⟩ := exists_of_readDouble hread
    obtain ⟨rfl, rfl⟩ := append_quote_inj hv hbody
    exact ⟨hinert, hclosed, hvalue, rfl⟩
  · rintro ⟨hinert, hclosed, rfl, rfl⟩
    exact ⟨readDouble_append hinert hclosed [], rfl⟩

section Main
variable {append delete : List (List Char)}
  (hdelete : ∀ token ∈ delete, kargAccepts token = true)
  (happend : ∀ token ∈ append, ValidKarg token)

theorem ValidKarg.noQuote {token : List Char} (h : ValidKarg token) : '"' ∉ token :=
  fun hmem => absurd (h.plain _ hmem) (by decide)

theorem editBare_quoted (s : List Char) (hquote : '"' ∈ s) :
    editBare append delete (grubVariable ++ '"' :: s) =
      grubVariable ++ '"' :: (editValue append delete (s.takeWhile (· != '"')) ++ ['"']) := by
  rw [editBare, matchedValue_quoted, if_pos (List.contains_iff_mem.mpr hquote)]

include happend in
theorem editValue_noQuote {v : List Char} (hv : '"' ∉ v) :
    '"' ∉ editValue append delete v := by
  intro h
  rcases mem_editValue h with h | h | ⟨token, htoken, h⟩
  · exact hv h
  · exact absurd h (by decide)
  · exact (happend token htoken).noQuote h

include hdelete happend in
/-- Where the helper takes the line apart, the text after the assignment has to be nothing,
the value without a quote in it and the closing quote to stay one. -/
theorem reads_edited_iff {body tail : List Char} (hbody : '\n' ∉ body)
    (hinert : isInertQuoted false body = true) :
    (∃ value, readAssignment grubName (editBare append delete
          (grubVariable ++ '"' :: (body ++ '"' :: tail))) = some (value, tail) ∧
        words isPythonSpace value =
          editedTokens append delete (words isPythonSpace (unescape false body))) ↔
      tail = [] ∧ '"' ∉ body ∧ ¬ EndsOpen append delete body := by
  have hquote : '"' ∈ body ++ '"' :: tail := by simp
  rw [editBare_quoted _ hquote]
  by_cases hinner : '"' ∈ body
  · refine iff_of_false ?_ fun h => h.2.1 hinner
    rintro ⟨value, hread, hwords⟩
    have hgroup : '"' ∉ (body ++ '"' :: tail).takeWhile (· != '"') := by
      intro h
      exact absurd (List.mem_takeWhile_imp h) (by decide)
    have hvalue := @editValue_noQuote append delete happend _ hgroup
    obtain ⟨-, -, rfl, -⟩ := (readAssignment_quoted hvalue).mp hread
    -- the quote of the old value is in one of its words, and no deleted token has one
    obtain ⟨word, hword, hmem⟩ := @exists_mem_words Char isPythonSpace _ '"' rfl
      (quote_mem_unescape hinert hinner)
    have hkept : word ∉ delete := by
      intro h
      rcases kargAccepts_cases (hdelete word h) with hvalid | hfeed
      · exact hvalid.noQuote hmem
      · exact absurd ((mem_words hword).2 _ hfeed) (by decide)
    have hnew : word ∈ words isPythonSpace (unescape false
        (editValue append delete ((body ++ '"' :: tail).takeWhile (· != '"')))) := by
      rw [hwords]
      exact List.mem_append_left _ (List.mem_filter.mpr ⟨hword, decide_eq_true hkept⟩)
    rcases mem_unescape ((word_infix_text hnew).subset hmem) with h | h
    · exact absurd h (by decide)
    · exact hvalue h
  · rw [takeWhile_quote hinner]
    have hvalue := @editValue_noQuote append delete happend _ hinner
    constructor
    · rintro ⟨value, hread, -⟩
      obtain ⟨-, hclosed, -, rfl⟩ := (readAssignment_quoted hvalue).mp hread
      refine ⟨rfl, hinner, ?_⟩
      rw [← editValue_open hdelete hbody happend, hclosed]
      exact Bool.false_ne_true
    · rintro ⟨rfl, -, hends⟩
      rw [← editValue_open hdelete hbody happend, Bool.not_eq_true] at hends
      exact ⟨_, (readAssignment_quoted hvalue).mpr
        ⟨editValue_inert hdelete hbody happend hinert, hends, rfl, rfl⟩,
        words_unescape_editValue hdelete hbody happend⟩

/-- What the line of the assignment has to be. -/
def LineFits (append delete : List (List Char)) (line value : List Char) : Prop :=
  if (grubVariable ++ ['"']).isPrefixOf line then
    ∃ body, line = grubVariable ++ '"' :: (body ++ ['"']) ∧ '"' ∉ body ∧
      ¬ EndsOpen append delete body
  else AlreadyEdited append delete (words isPythonSpace value)

include hdelete happend in
theorem line_edited_iff {line value tail : List Char} (hline : '\n' ∉ line)
    (hread : readAssignment grubName line = some (value, tail)) :
    (∃ value', readAssignment grubName (editBare append delete line) = some (value', tail) ∧
        words isPythonSpace value' = editedTokens append delete (words isPythonSpace value)) ↔
      LineFits append delete line value := by
  by_cases hpre : (grubVariable ++ ['"']).isPrefixOf line = true
  · rw [LineFits, if_pos hpre]
    obtain ⟨s, rfl⟩ := List.isPrefixOf_iff_prefix.mp hpre
    rw [List.append_assoc, List.singleton_append] at hread hline ⊢
    rw [readAssignment_grub, Option.filter_eq_some_iff] at hread
    obtain ⟨body, rfl, hinert, hclosed, rfl⟩ := exists_of_readDouble hread.1
    have hbody : '\n' ∉ body := fun h => hline (by simp [h])
    rw [reads_edited_iff hdelete happend hbody hinert]
    constructor
    · rintro ⟨rfl, hquote, hends⟩
      exact ⟨body, rfl, hquote, hends⟩
    · rintro ⟨other, hother, hquote, hends⟩
      have hsame : other ++ ['"'] = body ++ '"' :: tail := by simpa using hother.symm
      obtain ⟨rfl, rfl⟩ := append_quote_inj hquote hsame
      exact ⟨rfl, hquote, hends⟩
  · have hsame : editBare append delete line = line := by
      rw [editBare, matchedValue, if_neg hpre]
    rw [LineFits, if_neg hpre, hsame, hread, ← editedTokens_eq_self]
    constructor
    · rintro ⟨value', hvalue, hwords⟩
      obtain ⟨rfl, -⟩ := Prod.mk.inj (Option.some.inj hvalue)
      exact hwords
    · intro h
      exact ⟨value, rfl, h⟩

/-- A line that the helper does not change: no assignment with the value in double quotes,
or one with nothing behind it and nothing to do in its value. -/
def LeftAlone (append delete : List (List Char)) (line : List Char) : Prop :=
  ∀ value rest, '"' ∉ value → line = grubVariable ++ '"' :: (value ++ '"' :: rest) →
    rest = [] ∧ Settled append delete value

include hdelete happend in
theorem editBare_eq_self_iff {line : List Char} (hline : '\n' ∉ line) :
    editBare append delete line = line ↔ LeftAlone append delete line := by
  have htokens : ∀ token ∈ append, IsToken token := fun t ht => (happend t ht).isToken
  cases hvalue : matchedValue line with
  | none =>
    refine iff_of_true (by rw [editBare, hvalue]) ?_
    intro value rest hquote hshape
    rw [matchedValue_eq_some.mpr ⟨hquote, rest, hshape⟩] at hvalue
    cases hvalue
  | some group =>
    obtain ⟨hquote, rest, rfl⟩ := matchedValue_eq_some.mp hvalue
    have hgroup : '\n' ∉ group := fun h => hline (by simp [h])
    have hedited : editBare append delete (grubVariable ++ '"' :: (group ++ '"' :: rest)) =
        grubVariable ++ '"' :: (editValue append delete group ++ ['"']) := by
      rw [editBare, hvalue]
    rw [hedited]
    constructor
    · intro hsame value other hother hshape
      rw [matchedValue_eq_some.mpr ⟨hother, other, hshape⟩, Option.some.injEq] at hvalue
      subst hvalue
      have hnew := @editValue_noQuote append delete happend _ hquote
      rw [List.append_cancel_left_eq, List.cons.injEq] at hsame
      obtain ⟨hvalue, hrest⟩ := append_quote_inj hnew hsame.2
      rw [List.append_cancel_left_eq, List.cons.injEq, List.append_cancel_left_eq,
        List.cons.injEq] at hshape
      rw [← hshape.2.2]
      exact ⟨hrest, (editValue_eq_self_iff hdelete hgroup htokens).mp hvalue.symm⟩
    · intro hleft
      obtain ⟨rfl, hsettled⟩ := hleft group rest hquote rfl
      rw [(editValue_eq_self_iff hdelete hgroup htokens).mpr hsettled]

end Main

/-! ## The edit of the file -/

/-- The assignment is the edited one, with the text that was behind it, and every other
line is the old one. -/
def EditsAssignment (append delete : List (List Char)) (before : List (List Char))
    (after : List (List Char)) (value tail new : List Char) : Prop :=
  ∃ line' value', LastAssignment grubName new before line' after value' tail ∧
    words isPythonSpace value' = editedTokens append delete (words isPythonSpace value)

/-- When the helper does what its arguments say. -/
structure EditFits (append delete : List (List Char)) (content : List Char)
    (before : List (List Char)) (line value : List Char) : Prop where
  noReturn : '\r' ∉ content
  /-- `KARG_PATTERN` lets one through at the end. -/
  noFeed : ∀ token ∈ append, '\n' ∉ token
  before : ∀ l ∈ before, LeftAlone append delete l
  line : LineFits append delete line value

section File
variable {append delete : List (List Char)} {content line value tail : List Char}
  {before after : List (List Char)}
  (hdelete : ∀ token ∈ delete, kargAccepts token = true)
  (hlast : LastAssignment grubName content before line after value tail)

theorem after_same {l : List Char} (h : mentions grubName l = false) :
    editBare append delete l = l := by
  have hnone : (grubVariable ++ ['"']).isPrefixOf l = false := by
    rw [← Bool.not_eq_true, List.isPrefixOf_iff_prefix]
    rintro ⟨s, rfl⟩
    have hline : grubVariable ++ ['"'] ++ s = grubName ++ '=' :: '"' :: s := rfl
    have hhead : ((grubName ++ '=' :: '"' :: s).dropWhile PosixShell.isBlank).head? =
        some 'G' := rfl
    have hname : grubName.all PosixShell.isNameChar = true := by decide
    have hmentions : mentions grubName (grubVariable ++ ['"'] ++ s) = true := by
      rw [hline]
      refine mentions_assignment (by decide) (List.all_eq_true.mp hname) ?_
      rw [hhead]
      decide
    rw [hmentions] at h
    cases h
  rw [editBare, matchedValue, hnone]
  rfl

theorem return_not_mem_edited (happend : ∀ token ∈ append, ValidKarg token) (s : List Char) :
    '\r' ∉ (editGrubCmdline (readlines (universalNewlines s)) append delete).flatten := by
  have hfeed : ∀ token ∈ append, '\n' ∉ token :=
    fun t ht h => (kargChar_plain ((happend t ht).2 _ h)).2.2.1 rfl
  intro h
  obtain ⟨l, hl, hmem⟩ := @exists_mem_lines _ (· == '\n') _ '\r' rfl h
  rw [lines_edited hfeed] at hl
  obtain ⟨old, hold, rfl⟩ := List.mem_map.mp hl
  have hends : ∀ c : Char, (c == '\n') = true ↔ c = '\n' := fun c => beq_iff_eq
  rcases mem_editBare hmem with hmem | hmem | ⟨token, htoken, hmem⟩
  · exact return_not_mem_universalNewlines s ((mem_lines hends hold).2.subset hmem)
  · exact absurd hmem (by decide)
  · exact (kargChar_plain ((happend token htoken).2 _ hmem)).2.2.2 rfl

/-- A line with a carriage return in front of another character becomes more than one. -/
theorem lineCount_of_return {front back : List Char} {c : Char}
    (h : front ++ '\r' :: c :: back ∈ TextLines.lines (· == '\n') content) :
    lineCount content < lineCount (universalNewlines content) := by
  have hends : ∀ c : Char, (c == '\n') = true ↔ c = '\n' := fun c => beq_iff_eq
  obtain ⟨hunbroken, a, b, hcontent⟩ := mem_lines hends h
  have hc : c ≠ '\n' := by simpa using hunbroken c (by simp)
  have hshape : content = (a ++ front) ++ '\r' :: c :: (back ++ b) := by
    rw [← hcontent]
    simp
  rw [hshape]
  exact lineCount_return_lt hc (a ++ front) (back ++ b)

include hlast in
/-- A carriage return stands in front of another character of the assignment at most, where
it would become an end of a line of its own. -/
theorem return_not_mem_content (happend : ∀ token ∈ append, ValidKarg token)
    {line' value' : List Char}
    (hnew : LastAssignment grubName
      (editGrubCmdline (readlines (universalNewlines content)) append delete).flatten
      before line' after value' tail) : '\r' ∉ content := by
  have hfeed : ∀ token ∈ append, '\n' ∉ token :=
    fun t ht h => (kargChar_plain ((happend t ht).2 _ h)).2.2.1 rfl
  have hends : ∀ c : Char, (c == '\n') = true ↔ c = '\n' := fun c => beq_iff_eq
  have hgone : ∀ l ∈ before ++ line' :: after, '\r' ∉ l := by
    intro l hl h
    rw [← hnew.lines] at hl
    exact return_not_mem_edited happend content ((mem_lines hends hl).2.subset h)
  obtain ⟨head, hhead, hquote⟩ := exists_of_readAssignment hlast.read
  obtain ⟨head', hhead', -⟩ := exists_of_readAssignment hnew.read
  intro hreturn
  obtain ⟨l, hl, hmem⟩ := @exists_mem_lines _ (· == '\n') _ '\r' rfl hreturn
  rw [hlast.lines] at hl
  have hline : l = line := by
    by_contra hne
    refine hgone l ?_ hmem
    rcases List.mem_append.mp hl with hl | hl
    · exact List.mem_append_left _ hl
    · exact List.mem_append_right _
        (List.mem_cons_of_mem line' ((List.mem_cons.mp hl).resolve_left hne))
  rw [hline, hhead] at hmem
  have hinhead : '\r' ∈ head := by
    rcases List.mem_append.mp hmem with h | h
    · exact h
    · refine absurd ?_ (hgone line' (by simp))
      rw [hhead']
      exact List.mem_append_right _ h
  obtain ⟨front, back, rfl⟩ := List.append_of_mem hinhead
  cases back with
  | nil =>
    have hbare := hquote '\r' List.getLast?_concat
    revert hbare
    decide
  | cons c back =>
    have hsplit : line = front ++ '\r' :: c :: (back ++ tail) := by
      rw [hhead]
      simp
    have hmore : lineCount content < lineCount (universalNewlines content) := by
      refine @lineCount_of_return content front (back ++ tail) c ?_
      rw [hlast.lines, ← hsplit]
      exact List.mem_append_right before (List.mem_cons_self ..)
    have hold := congrArg List.length hlast.lines
    have hedited := congrArg List.length hnew.lines
    rw [lines_edited hfeed, List.length_map] at hedited
    simp only [List.length_append, List.length_cons] at hold hedited
    simp only [lineCount] at hmore
    omega

include hdelete hlast in
theorem edits_lines_iff (happend : ∀ token ∈ append, ValidKarg token) (hreturn : '\r' ∉ content) :
    EditsAssignment append delete before after value tail
        (editGrubCmdline (readlines (universalNewlines content)) append delete).flatten ↔
      (∀ l ∈ before, LeftAlone append delete l) ∧ LineFits append delete line value := by
  have hfeed : ∀ token ∈ append, '\n' ∉ token :=
    fun t ht h => (kargChar_plain ((happend t ht).2 _ h)).2.2.1 rfl
  have hends : ∀ c : Char, (c == '\n') = true ↔ c = '\n' := fun c => beq_iff_eq
  have hmem : ∀ l ∈ before ++ line :: after, '\n' ∉ l := by
    intro l hl h
    rw [← hlast.lines] at hl
    exact absurd ((mem_lines hends hl).1 _ h) (by decide)
  have hafter : after.map (editBare append delete) = after := by
    conv_rhs => rw [← List.map_id after]
    exact List.map_congr_left fun l hl => after_same (hlast.last l hl)
  have hlines : TextLines.lines (· == '\n')
      (editGrubCmdline (readlines (universalNewlines content)) append delete).flatten =
      before.map (editBare append delete) ++ editBare append delete line :: after := by
    rw [universalNewlines_eq_self hreturn, lines_edited hfeed, hlast.lines, List.map_append,
      List.map_cons, hafter]
  have hleft : (∀ l ∈ before, LeftAlone append delete l) ↔
      before.map (editBare append delete) = before := by
    have hmap : before.map (editBare append delete) = before ↔
        ∀ l ∈ before, editBare append delete l = l := by
      conv_lhs => rhs; rw [← List.map_id before]
      exact List.map_inj_left
    rw [hmap]
    refine forall₂_congr fun l hl => ?_
    exact (editBare_eq_self_iff hdelete happend (hmem l (List.mem_append_left _ hl))).symm
  rw [hleft, ← line_edited_iff hdelete happend (hmem line (by simp)) hlast.read]
  constructor
  · rintro ⟨line', value', hnew, hwords⟩
    have hsame := hnew.lines
    rw [hlines] at hsame
    obtain ⟨hbefore, hrest⟩ := List.append_inj hsame (List.length_map _)
    rw [(List.cons.inj hrest).1]
    exact ⟨hbefore, value', hnew.read, hwords⟩
  · rintro ⟨hbefore, value', hread, hwords⟩
    refine ⟨_, value', ⟨?_, hread, hlast.last⟩, hwords⟩
    rw [hlines, hbefore]

include hdelete hlast in
theorem edits_iff (haccepts : ∀ token ∈ append, kargAccepts token = true) :
    EditsAssignment append delete before after value tail
        (editGrubCmdline (readlines (universalNewlines content)) append delete).flatten ↔
      EditFits append delete content before line value := by
  have hvalid : (∀ token ∈ append, '\n' ∉ token) → ∀ token ∈ append, ValidKarg token :=
    fun h t ht => (kargAccepts_cases (haccepts t ht)).resolve_right (h t ht)
  constructor
  · intro hedits
    have hfeed : ∀ token ∈ append, '\n' ∉ token := by
      obtain ⟨line', value', -, hwords⟩ := hedits
      intro t ht h
      have hword : t ∈ words isPythonSpace value' := by
        rw [hwords]
        exact List.mem_append_right _ ht
      exact absurd ((mem_words hword).2 _ h) (by decide)
    have happend := hvalid hfeed
    have hreturn : '\r' ∉ content := by
      obtain ⟨line', value', hnew, -⟩ := hedits
      exact return_not_mem_content hlast happend hnew
    obtain ⟨hbefore, hline⟩ := (edits_lines_iff hdelete hlast happend hreturn).mp hedits
    exact ⟨hreturn, hfeed, hbefore, hline⟩
  · intro hfits
    exact (edits_lines_iff hdelete hlast (hvalid hfits.noFeed) hfits.noReturn).mpr
      ⟨hfits.before, hfits.line⟩

end File

/-! ## The run -/

/-- What a process returns: its exit status, or the number of the signal that ended it,
negated. -/
def IsReturnCode (code : Int) : Prop := -256 < code ∧ code < 256

theorem exitStatus_ne_zero {code : Int} (h : IsReturnCode code) (hne : code ≠ 0) :
    exitStatus code ≠ 0 := by
  obtain ⟨hlow, hhigh⟩ := h
  rw [exitStatus]
  omega

/-- A run that exits with 0 has written the edited text. -/
theorem grubKargsEdit_exit {appendCsv deleteCsv content : List Char} {outside : GrubOutside}
    {s : GrubState} (hcode : ∀ code, outside.updateGrub = some code → IsReturnCode code)
    (hfile : s.file = .text content)
    (hexit : (grubKargsEdit appendCsv deleteCsv outside s).1 = 0) :
    (∀ token ∈ csvTokens appendCsv ++ csvTokens deleteCsv, kargAccepts token = true) ∧
      (grubKargsEdit appendCsv deleteCsv outside s).2.file =
        .text (editedText appendCsv deleteCsv content) := by
  rcases grubKargsEdit_cases appendCsv deleteCsv outside s with
    ⟨hfailed, -⟩ | ⟨read, ⟨-, haccepts, -, hread, -⟩, hend⟩
  · exact absurd hexit hfailed
  · obtain rfl : content = read := GrubFile.text.inj (hfile ▸ hread)
    refine ⟨haccepts, ?_⟩
    rw [hend] at hexit ⊢
    unfold updateEnd at hexit ⊢
    cases hupdate : outside.updateGrub with
    | none => rfl
    | some code =>
      rw [hupdate] at hexit
      dsimp only at hexit ⊢
      by_cases hzero : code ≠ 0
      · rw [if_pos hzero] at hexit
        exact absurd hexit (exitStatus_ne_zero (hcode code hupdate) hzero)
      · rw [if_neg hzero]

/-- A run that exits with 0 has done to the assignment what its arguments say, and has left
the rest of the file alone, if and only if the file fits. -/
theorem grubKargsEdit_edits_iff {appendCsv deleteCsv content line value tail : List Char}
    {before after : List (List Char)} {outside : GrubOutside} {s : GrubState}
    (hcode : ∀ code, outside.updateGrub = some code → IsReturnCode code)
    (hfile : s.file = .text content)
    (hlast : LastAssignment grubName content before line after value tail)
    (hexit : (grubKargsEdit appendCsv deleteCsv outside s).1 = 0) :
    (∃ new, (grubKargsEdit appendCsv deleteCsv outside s).2.file = .text new ∧
        EditsAssignment (csvTokens appendCsv) (csvTokens deleteCsv) before after value tail new) ↔
      EditFits (csvTokens appendCsv) (csvTokens deleteCsv) content before line value := by
  obtain ⟨haccepts, hwritten⟩ := grubKargsEdit_exit hcode hfile hexit
  have hedits := edits_iff (fun t ht => haccepts t (List.mem_append_right _ ht)) hlast
    fun t ht => haccepts t (List.mem_append_left _ ht)
  rw [← hedits, hwritten]
  constructor
  · rintro ⟨new, hnew, hedited⟩
    rwa [← GrubFile.text.inj hnew] at hedited
  · intro hedited
    exact ⟨_, rfl, hedited⟩

/-- A machine where everything works. -/
def grubWorks : GrubOutside := ⟨false, false, none, some 0⟩

def quietLine (quote : Char) : List Char := grubVariable ++ quote :: ("quiet".toList ++ [quote])

theorem quietLine_edited :
    (∃ new, (grubKargsEdit "splash".toList [] grubWorks
          ⟨.text (quietLine '"' ++ ['\n']), none⟩).2.file = .text new ∧
        EditsAssignment (csvTokens "splash".toList) (csvTokens []) [] [] "quiet".toList [] new) ↔
      EditFits (csvTokens "splash".toList) (csvTokens []) (quietLine '"' ++ ['\n']) []
        (quietLine '"') "quiet".toList := by
  refine grubKargsEdit_edits_iff ?_ rfl ⟨?_, ?_, nofun⟩ ?_
  · intro code hcode
    obtain rfl := Option.some.inj hcode
    exact ⟨by decide, by decide⟩
  · decide +kernel
  · decide +kernel
  · decide +kernel

/-- A value in single quotes, which the helper does not find. -/
theorem quietLine_kept : ¬ ∀ (appendCsv deleteCsv content line value tail : List Char)
    (before after : List (List Char)) (outside : GrubOutside) (s : GrubState),
    (∀ code, outside.updateGrub = some code → IsReturnCode code) → s.file = .text content →
      LastAssignment grubName content before line after value tail →
      (grubKargsEdit appendCsv deleteCsv outside s).1 = 0 →
        ∃ new, (grubKargsEdit appendCsv deleteCsv outside s).2.file = .text new ∧
          EditsAssignment (csvTokens appendCsv) (csvTokens deleteCsv) before after value tail
            new := by
  intro hall
  have hcode : ∀ code, grubWorks.updateGrub = some code → IsReturnCode code := by
    intro code hcode
    obtain rfl := Option.some.inj hcode
    exact ⟨by decide, by decide⟩
  obtain ⟨new, hnew, line', value', hlast, hwords⟩ := hall "splash".toList []
    (quietLine '\x27' ++ ['\n']) (quietLine '\x27') "quiet".toList [] [] [] grubWorks
    ⟨.text (quietLine '\x27' ++ ['\n']), none⟩ hcode rfl
    ⟨by decide +kernel, by decide +kernel, nofun⟩ (by decide +kernel)
  have hsame : (grubKargsEdit "splash".toList [] grubWorks
      ⟨.text (quietLine '\x27' ++ ['\n']), none⟩).2.file =
      .text (quietLine '\x27' ++ ['\n']) := by decide +kernel
  obtain rfl := GrubFile.text.inj (hsame.symm.trans hnew)
  have hlines : TextLines.lines (· == '\n') (quietLine '\x27' ++ ['\n']) =
      [quietLine '\x27'] := by decide +kernel
  have hline := hlines.symm.trans hlast.lines
  obtain rfl := (List.cons.inj hline).1
  have hread : readAssignment grubName (quietLine '\x27') = some ("quiet".toList, []) := by
    decide +kernel
  obtain ⟨rfl, -⟩ := Prod.mk.inj (Option.some.inj (hread.symm.trans hlast.read))
  exact absurd hwords (by decide +kernel)

end Sysknife
