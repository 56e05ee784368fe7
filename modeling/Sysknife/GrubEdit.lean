import Sysknife.GrubKargs
import Sysknife.Lib.ShellAssignment

/-!
# The edit of the GRUB command line

What the helper makes of the value that a shell reads from
`GRUB_CMDLINE_LINUX_DEFAULT`, and of the rest of the file. Values are taken apart at what
Python calls white space, as the helper does it.
-/

namespace Sysknife

open TextLines TextWords TextTrim ShellAssignment

/-! ## Tokens -/

/-- A token of the allowed characters. `KARG_PATTERN` lets a line feed at the end through
as well, which no valid token has. -/
def ValidKarg (token : List Char) : Prop :=
  token ≠ [] ∧ ∀ c ∈ token,
    (c.isAlphanum || ['_', '.', '+', '@', ':', '/', '=', '-'].contains c) = true

/-- What a token has to be for its removal. -/
def IsToken (token : List Char) : Prop := token ≠ [] ∧ Unbroken isPythonSpace token

theorem kargChar_plain {c : Char}
    (h : (c.isAlphanum || ['_', '.', '+', '@', ':', '/', '=', '-'].contains c) = true) :
    isPythonSpace c = false ∧ isEscapable c = false ∧ c ≠ '\n' ∧ c ≠ '\r' := by
  have hcode : 0x2b ≤ c.toNat ∧ c.toNat < 0x7b ∧ c.toNat ≠ 0x5c ∧ c.toNat ≠ 0x60 := by
    rw [Bool.or_eq_true, List.contains_iff_mem] at h
    rcases h with h | h
    · have hupper : c.isUpper = decide (c.val ≥ 'A'.val ∧ c.val ≤ 'Z'.val) := rfl
      have hlower : c.isLower = (c.val ≥ 'a'.val && c.val ≤ 'z'.val) := rfl
      have halnum : c.isAlphanum = (c.isUpper || c.isLower || c.isDigit) := rfl
      simp only [halnum, hupper, hlower, Char.isDigit, Bool.or_eq_true, Bool.and_eq_true,
        decide_eq_true_eq, ge_iff_le, UInt32.le_iff_toNat_le] at h
      have hvalue : c.toNat = c.val.toNat := rfl
      have hletters : 'A'.toNat = 65 ∧ 'Z'.toNat = 90 ∧ 'a'.toNat = 97 ∧ 'z'.toNat = 122 := by
        decide
      have hdigits : '0'.toNat = 48 ∧ '9'.toNat = 57 := by decide
      norm_num at h
      omega
    · simp only [List.mem_cons, List.not_mem_nil, or_false] at h
      rcases h with rfl | rfl | rfl | rfl | rfl | rfl | rfl | rfl <;> decide
  obtain ⟨hlow, hhigh, hback, hgrave⟩ := hcode
  have hne : ∀ d : Char, d.toNat < 0x2b ∨ d.toNat = 0x5c ∨ d.toNat = 0x60 → c ≠ d := by
    rintro d hd rfl
    omega
  refine ⟨?_, ?_, hne _ (by decide), hne _ (by decide)⟩
  · simp only [isPythonSpace, Bool.or_eq_false_iff, Bool.and_eq_false_iff, decide_eq_false_iff_not,
      List.contains_eq_mem, List.mem_cons, List.not_mem_nil, or_false]
    omega
  · rw [isEscapable, ← Bool.not_eq_true, List.contains_iff_mem]
    simp only [List.mem_cons, List.not_mem_nil, or_false, not_or]
    exact ⟨hne _ (by decide), hne _ (by decide), hne _ (by decide), hne _ (by decide)⟩

theorem ValidKarg.isToken {token : List Char} (h : ValidKarg token) : IsToken token :=
  ⟨h.1, fun c hc => (kargChar_plain (h.2 c hc)).1⟩

/-! ## Removing a token -/

section Removing
variable {token : List Char} (htoken : IsToken token)

theorem removeFrom_unbroken {w : List Char} (hw : Unbroken isPythonSpace w) (s : List Char) :
    removeFrom token 0 true (w ++ s) = w ++ removeFrom token 0 true s := by
  induction w with
  | nil => rfl
  | cons c w ih =>
    have hc : isPythonSpace c = false := hw c (List.mem_cons_self ..)
    have hrest := ih fun d hd => hw d (List.mem_cons_of_mem c hd)
    simp [removeFrom, hc, hrest]

include htoken

theorem removeFrom_space {c : Char} (hc : isPythonSpace c = true) (inToken : Bool)
    (s : List Char) :
    removeFrom token 0 inToken (c :: s) = c :: removeFrom token 0 false s := by
  have hnot : token.isPrefixOf (c :: s) = false := by
    rw [← Bool.not_eq_true, List.isPrefixOf_iff_prefix]
    obtain ⟨d, t, rfl⟩ := List.exists_cons_of_ne_nil htoken.1
    rintro ⟨rest, hrest⟩
    have hd : isPythonSpace d = false := htoken.2 d (List.mem_cons_self ..)
    rw [(List.cons.inj hrest).1, hc] at hd
    cases hd
  simp [removeFrom, hnot, hc]

omit htoken in
theorem removeFrom_skip (skipped s : List Char) (inToken : Bool) :
    removeFrom token skipped.length inToken (skipped ++ s) =
      removeFrom token 0 (match skipped.getLast? with
        | some c => !isPythonSpace c
        | none => inToken) s := by
  induction skipped generalizing inToken with
  | nil => rfl
  | cons c skipped ih =>
    rw [List.length_cons, List.cons_append, removeFrom, ih]
    cases skipped with
    | nil => rfl
    | cons d skipped =>
      rw [List.getLast?_cons_cons]
      cases hlast : (d :: skipped).getLast? with
      | none => simp at hlast
      | some e => rfl

/-- The token itself goes, and the white space behind it. -/
theorem removeFrom_same {rest : List Char} (hends : endsToken rest = true) :
    removeFrom token 0 false (token ++ rest) =
      removeFrom token 0 false (rest.dropWhile isPythonSpace) := by
  obtain ⟨c, t, rfl⟩ := List.exists_cons_of_ne_nil htoken.1
  have hpre : (c :: t).isPrefixOf (c :: t ++ rest) = true :=
    List.isPrefixOf_iff_prefix.mpr (List.prefix_append ..)
  have hdrop : (c :: t ++ rest).drop (c :: t).length = rest := List.drop_left
  have hsplit : t ++ rest =
      (t ++ rest.takeWhile isPythonSpace) ++ rest.dropWhile isPythonSpace := by
    rw [List.append_assoc, List.takeWhile_append_dropWhile]
  have hskip : (c :: t).length - 1 + (rest.takeWhile isPythonSpace).length =
      (t ++ rest.takeWhile isPythonSpace).length := by
    simp
  rw [List.cons_append] at hpre hdrop ⊢
  rw [removeFrom, hpre, hdrop, hends]
  simp only [Bool.not_false, Bool.and_self, if_true]
  rw [hskip, hsplit, removeFrom_skip]
  cases rest with
  | nil => cases (t ++ List.takeWhile isPythonSpace []).getLast? <;> rfl
  | cons d rest =>
    have hd : isPythonSpace d = true := by simpa [endsToken] using hends
    have hlast : ∃ e, (t ++ (d :: rest).takeWhile isPythonSpace).getLast? = some e ∧
        isPythonSpace e = true := by
      have hne : (d :: rest).takeWhile isPythonSpace ≠ [] := by
        rw [List.takeWhile_cons_of_pos hd]
        exact List.cons_ne_nil _ _
      refine ⟨_, ?_, List.mem_takeWhile_imp (List.getLast_mem hne)⟩
      rw [List.getLast?_append_of_ne_nil _ hne, List.getLast?_eq_getLast_of_ne_nil hne]
    obtain ⟨e, he, hspace⟩ := hlast
    rw [he]
    simp [hspace]

/-- Any other word stays. -/
theorem removeFrom_other {w rest : List Char} (hw : Unbroken isPythonSpace w) (hwne : w ≠ [])
    (hends : endsToken rest = true) (hne : w ≠ token) :
    removeFrom token 0 false (w ++ rest) = w ++ removeFrom token 0 true rest := by
  have hnot : ¬ (token.isPrefixOf (w ++ rest) = true ∧
      endsToken ((w ++ rest).drop token.length) = true) := by
    rintro ⟨hpre, hbehind⟩
    rw [List.isPrefixOf_iff_prefix] at hpre
    rcases List.prefix_or_prefix_of_prefix hpre (List.prefix_append w rest) with
      ⟨left, rfl⟩ | ⟨more, rfl⟩
    · cases left with
      | nil => exact hne (List.append_nil token)
      | cons d left =>
        rw [List.append_assoc, List.drop_left] at hbehind
        have hd : isPythonSpace d = false := hw d (by simp)
        simp [endsToken, hd] at hbehind
    · cases more with
      | nil => exact hne (List.append_nil w).symm
      | cons d more =>
        rw [List.prefix_append_right_inj] at hpre
        obtain ⟨behind, rfl⟩ := hpre
        have hd : isPythonSpace d = false := htoken.2 d (by simp)
        simp [endsToken, hd] at hends
  obtain ⟨c, v, rfl⟩ := List.exists_cons_of_ne_nil hwne
  have hc : isPythonSpace c = false := hw c (List.mem_cons_self ..)
  have hv : Unbroken isPythonSpace v := fun d hd => hw d (List.mem_cons_of_mem c hd)
  rw [List.cons_append] at hnot ⊢
  rw [removeFrom, if_neg (by simpa using hnot), hc]
  exact congrArg (c :: ·) (removeFrom_unbroken hv rest)

theorem words_removeToken (s : List Char) :
    words isPythonSpace (removeToken token s) =
      (words isPythonSpace s).filter fun w => decide (w ≠ token) := by
  induction hn : s.length using Nat.strongRecOn generalizing s with
  | ind n ih =>
    unfold removeToken at ih ⊢
    rcases unbroken_or_split isPythonSpace s with hs | ⟨head, c, rest, rfl, hhead, hc⟩
    · by_cases hnil : s = []
      · rw [hnil]
        rfl
      · rw [words_word hnil hs]
        by_cases hsame : s = token
        · have hgone : removeFrom token 0 false (token ++ []) = [] :=
            (removeFrom_same htoken rfl).trans rfl
          rw [List.append_nil] at hgone
          rw [hsame, hgone, words_nil, List.filter_cons_of_neg (by simp)]
          rfl
        · have hstays : removeFrom token 0 false (s ++ []) = s ++ [] :=
            removeFrom_other htoken hs hnil rfl hsame
          rw [List.append_nil] at hstays
          rw [hstays, words_word hnil hs, List.filter_cons_of_pos (by simpa using hsame)]
          rfl
    · rw [List.length_append, List.length_cons] at hn
      have hends : endsToken (c :: rest) = true := by simp [endsToken, hc]
      rw [words_append hc]
      by_cases hnil : head = []
      · subst hnil
        rw [List.nil_append, removeFrom_space htoken hc, words_cons_space hc,
          ih rest.length (by simp at hn; omega) rest rfl]
        rfl
      · rw [words_word hnil hhead]
        by_cases hsame : head = token
        · have hshort := (List.dropWhile_suffix (l := rest) isPythonSpace).length_le
          rw [hsame, removeFrom_same htoken hends, List.dropWhile_cons_of_pos hc,
            ih _ (by omega) _ rfl]
          have hwords : words isPythonSpace (rest.dropWhile isPythonSpace) =
              words isPythonSpace rest := by
            conv_rhs => rw [← List.takeWhile_append_dropWhile (p := isPythonSpace) (l := rest)]
            exact (words_spaces_append (fun d hd => List.mem_takeWhile_imp hd) _).symm
          rw [hwords]
          simp
        · rw [removeFrom_other htoken hhead hnil hends hsame, removeFrom_space htoken hc,
            words_append hc, words_word hnil hhead, ih rest.length (by omega) rest rfl]
          simp [hsame]

/-- Nothing changes up to a separator in front of which the token is no word. -/
theorem removeToken_append {c : Char} (hc : isPythonSpace c = true) {a : List Char}
    (ha : token ∉ words isPythonSpace a) (b : List Char) :
    removeToken token (a ++ c :: b) = a ++ c :: removeToken token b := by
  induction hn : a.length using Nat.strongRecOn generalizing a b c with
  | ind n ih =>
    rcases unbroken_or_split isPythonSpace a with hs | ⟨head, d, rest, rfl, -, hd⟩
    · unfold removeToken
      by_cases hnil : a = []
      · rw [hnil]
        exact removeFrom_space htoken hc false b
      · have hends : endsToken (c :: b) = true := by simp [endsToken, hc]
        rw [words_word hnil hs, List.mem_singleton] at ha
        rw [removeFrom_other htoken hs hnil hends (Ne.symm ha), removeFrom_space htoken hc]
    · rw [words_append hd, List.mem_append, not_or] at ha
      rw [List.length_append, List.length_cons] at hn
      rw [List.append_assoc, List.cons_append, ih head.length (by omega) hd ha.1 _ rfl,
        ih rest.length (by omega) hc ha.2 b rfl, List.append_assoc, List.cons_append]

theorem removeToken_eq_self {s : List Char} (hs : token ∉ words isPythonSpace s) :
    removeToken token s = s := by
  induction hn : s.length using Nat.strongRecOn generalizing s with
  | ind n ih =>
    rcases unbroken_or_split isPythonSpace s with hunbroken | ⟨head, c, rest, rfl, -, hc⟩
    · by_cases hnil : s = []
      · rw [hnil]
        rfl
      · rw [words_word hnil hunbroken, List.mem_singleton] at hs
        have hstays : removeFrom token 0 false (s ++ []) = s ++ [] :=
          removeFrom_other htoken hunbroken hnil rfl (Ne.symm hs)
        rw [List.append_nil] at hstays
        exact hstays
    · rw [words_append hc, List.mem_append, not_or] at hs
      rw [List.length_append, List.length_cons] at hn
      rw [removeToken_append htoken hc hs.1, ih rest.length (by omega) hs.2 rfl]

end Removing

/-- Only characters of the text are left. -/
theorem removeFrom_sublist (token : List Char) (skip : Nat) (inToken : Bool) (s : List Char) :
    (removeFrom token skip inToken s).Sublist s := by
  induction s generalizing skip inToken with
  | nil => cases skip <;> exact List.Sublist.refl []
  | cons c s ih =>
    cases skip with
    | succ skip => exact (ih skip _).cons c
    | zero =>
      rw [removeFrom]
      split
      · exact (ih _ _).cons c
      · exact (ih _ _).cons_cons c

/-- A token with a line feed is in no line. -/
theorem removeToken_lineFeed {token s : List Char} (htoken : '\n' ∈ token) (hs : '\n' ∉ s) :
    removeToken token s = s := by
  have hstays : ∀ inToken, removeFrom token 0 inToken s = s := by
    induction s with
    | nil => exact fun _ => rfl
    | cons c s ih =>
      intro inToken
      have hnot : token.isPrefixOf (c :: s) = false := by
        rw [← Bool.not_eq_true, List.isPrefixOf_iff_prefix]
        exact fun hpre => hs (hpre.subset htoken)
      have hrest := ih (fun h => hs (List.mem_cons_of_mem c h)) (!isPythonSpace c)
      simp [removeFrom, hnot, hrest]
  exact hstays false

/-! ## The edit of a value -/

/-- The tokens without those to delete, and the appended ones behind them. -/
def editedTokens (append delete tokens : List (List Char)) : List (List Char) :=
  tokens.filter (fun t => decide (t ∉ delete)) ++ append

def removeTokens (delete : List (List Char)) (s : List Char) : List Char :=
  delete.foldl (fun value d => removeToken d value) s

theorem strip_eq_trim (s : List Char) : strip s = trim isPythonSpace s := rfl

theorem editValue_eq (append delete : List (List Char)) (group : List Char) :
    editValue append delete group =
      if append.isEmpty then
        trim isPythonSpace (removeTokens delete (trim isPythonSpace group))
      else trim isPythonSpace (trim isPythonSpace (removeTokens delete
        (trim isPythonSpace group)) ++ ' ' :: joinSpace append) := rfl

theorem kargAccepts_cases {token : List Char} (h : kargAccepts token = true) :
    ValidKarg token ∨ '\n' ∈ token := by
  by_cases hlast : token.getLast? = some '\n'
  · exact Or.inr (List.mem_of_getLast? hlast)
  · simp only [kargAccepts, if_neg hlast, Bool.and_eq_true, List.all_eq_true] at h
    exact Or.inl ⟨by simpa using h.1, h.2⟩

theorem removeTokens_sublist (delete : List (List Char)) (s : List Char) :
    (removeTokens delete s).Sublist s := by
  induction delete generalizing s with
  | nil => exact List.Sublist.refl s
  | cons d delete ih => exact (ih _).trans (removeFrom_sublist d 0 false s)

section Values
variable {append delete : List (List Char)}
  (hdelete : ∀ token ∈ delete, kargAccepts token = true)
include hdelete

theorem words_removeTokens {s : List Char} (hs : '\n' ∉ s) :
    words isPythonSpace (removeTokens delete s) =
      (words isPythonSpace s).filter fun w => decide (w ∉ delete) := by
  induction delete generalizing s with
  | nil => simp [removeTokens]
  | cons d delete ih =>
    have hstep : words isPythonSpace (removeToken d s) =
        (words isPythonSpace s).filter fun w => decide (w ≠ d) := by
      rcases kargAccepts_cases (hdelete d (List.mem_cons_self ..)) with hvalid | hfeed
      · exact words_removeToken hvalid.isToken s
      · rw [removeToken_lineFeed hfeed hs, eq_comm, List.filter_eq_self]
        intro w hw
        have hunbroken := (mem_words hw).2
        refine decide_eq_true ?_
        rintro rfl
        exact absurd (hunbroken _ hfeed) (by decide)
    have hgone : '\n' ∉ removeToken d s :=
      fun h => hs ((removeFrom_sublist d 0 false s).subset h)
    have hrest := ih (fun token htoken => hdelete token (List.mem_cons_of_mem d htoken)) hgone
    rw [removeTokens, List.foldl_cons]
    rw [removeTokens] at hrest
    rw [hrest, hstep, List.filter_filter]
    refine List.filter_congr fun w _ => ?_
    simp [Bool.and_comm]

theorem words_editValue {group : List Char} (hgroup : '\n' ∉ group)
    (happend : ∀ token ∈ append, IsToken token) :
    words isPythonSpace (editValue append delete group) =
      editedTokens append delete (words isPythonSpace group) := by
  have hblank : isPythonSpace ' ' = true := by decide
  have hfeed : '\n' ∉ trim isPythonSpace group := fun h => hgroup ((trim_infix_text group).subset h)
  have hkept : words isPythonSpace (trim isPythonSpace (removeTokens delete
      (trim isPythonSpace group))) =
      (words isPythonSpace group).filter fun w => decide (w ∉ delete) := by
    rw [words_trim, words_removeTokens hdelete hfeed, words_trim]
  rw [editValue_eq, editedTokens]
  split
  · next hnone =>
    rw [List.isEmpty_iff.mp hnone, List.append_nil]
    exact hkept
  · rw [words_trim, words_append hblank, hkept, joinSpace, words_intercalate hblank happend]

end Values

theorem mem_joinSpace {tokens : List (List Char)} {c : Char} (h : c ∈ joinSpace tokens) :
    c = ' ' ∨ ∃ token ∈ tokens, c ∈ token := by
  induction tokens with
  | nil => cases h
  | cons t tokens ih =>
    cases tokens with
    | nil =>
      have hone : joinSpace [t] = t := by simp [joinSpace, List.intercalate]
      rw [hone] at h
      exact Or.inr ⟨t, List.mem_cons_self .., h⟩
    | cons u tokens =>
      have hjoin : joinSpace (t :: u :: tokens) = t ++ ' ' :: joinSpace (u :: tokens) := by
        simp [joinSpace, List.intercalate]
      rw [hjoin, List.mem_append, List.mem_cons] at h
      rcases h with h | rfl | h
      · exact Or.inr ⟨t, List.mem_cons_self .., h⟩
      · exact Or.inl rfl
      · rcases ih h with rfl | ⟨token, htoken, hc⟩
        · exact Or.inl rfl
        · exact Or.inr ⟨token, List.mem_cons_of_mem t htoken, hc⟩

/-- Nothing comes into a value but blanks and what is appended. -/
theorem mem_editValue {append delete : List (List Char)} {group : List Char} {c : Char}
    (h : c ∈ editValue append delete group) :
    c ∈ group ∨ c = ' ' ∨ ∃ token ∈ append, c ∈ token := by
  have hkept : ∀ {s : List Char}, c ∈ trim isPythonSpace s → c ∈ s :=
    fun hc => (trim_infix_text _).subset hc
  have hgroup : c ∈ trim isPythonSpace (removeTokens delete (trim isPythonSpace group)) →
      c ∈ group :=
    fun hc => hkept ((removeTokens_sublist delete _).subset (hkept hc))
  rw [editValue_eq] at h
  split at h
  · exact Or.inl (hgroup h)
  · rcases List.mem_append.mp (hkept h) with h | h
    · exact Or.inl (hgroup h)
    · rcases List.mem_cons.mp h with rfl | h
      · exact Or.inr (Or.inl rfl)
      · exact Or.inr (mem_joinSpace h)

theorem editValue_trimmed (append delete : List (List Char)) (group : List Char) :
    Trimmed isPythonSpace (editValue append delete group) := by
  rw [editValue_eq]
  split
  · exact trim_trimmed _
  · exact trim_trimmed _

/-! ## Values that stay as they are -/

/-- A value that the edit leaves as it is: nothing in it is to be deleted but the appended
tokens themselves, which it ends in. -/
def Settled (append delete : List (List Char)) (value : List Char) : Prop :=
  (∀ t ∈ append, t ∈ delete) ∧ ∃ kept, Trimmed isPythonSpace kept ∧
    (∀ w ∈ words isPythonSpace kept, w ∉ delete) ∧
    value = if append = [] then kept else strip (kept ++ ' ' :: joinSpace append)

/-- The tokens are as they have to be, those to append behind the others. What is appended
and stands there already has to be deleted first. -/
def AlreadyEdited (append delete tokens : List (List Char)) : Prop :=
  (∀ t ∈ append, t ∈ delete) ∧ ∃ kept, tokens = kept ++ append ∧ ∀ t ∈ kept, t ∉ delete

theorem editedTokens_eq_self {append delete tokens : List (List Char)} :
    tokens = editedTokens append delete tokens ↔ AlreadyEdited append delete tokens := by
  constructor
  · intro h
    have hkept : ∀ t ∈ tokens.filter (fun t => decide (t ∉ delete)), t ∉ delete :=
      fun t ht => of_decide_eq_true (List.mem_filter.mp ht).2
    refine ⟨fun t ht => ?_, _, h, hkept⟩
    by_contra hnot
    -- there would be one more of the tokens that are kept
    have hfilter := congrArg (List.filter fun t => decide (t ∉ delete)) h
    have hlength := congrArg List.length hfilter
    rw [editedTokens, List.filter_append, List.filter_filter, List.length_append] at hlength
    simp only [Bool.and_self] at hlength
    have hmem : t ∈ append.filter fun t => decide (t ∉ delete) :=
      List.mem_filter.mpr ⟨ht, decide_eq_true hnot⟩
    have hpos := List.length_pos_of_mem hmem
    omega
  · rintro ⟨happended, kept, rfl, hkept⟩
    have hstays : kept.filter (fun t => decide (t ∉ delete)) = kept :=
      List.filter_eq_self.mpr fun t ht => decide_eq_true (hkept t ht)
    have hgone : append.filter (fun t => decide (t ∉ delete)) = [] := by
      rw [List.filter_eq_nil_iff]
      intro t ht
      simpa using happended t ht
    rw [editedTokens, List.filter_append, hstays, hgone, List.append_nil]

theorem joinSpace_last {tokens : List (List Char)} (hne : tokens ≠ [])
    (htokens : ∀ token ∈ tokens, IsToken token) :
    ∃ front c, joinSpace tokens = front ++ [c] ∧ isPythonSpace c = false := by
  induction tokens with
  | nil => exact absurd rfl hne
  | cons t tokens ih =>
    cases tokens with
    | nil =>
      have htoken := htokens t (List.mem_cons_self ..)
      have hone : joinSpace [t] = t := by simp [joinSpace, List.intercalate]
      refine ⟨t.dropLast, t.getLast htoken.1, ?_, htoken.2 _ (List.getLast_mem htoken.1)⟩
      rw [hone, List.dropLast_append_getLast]
    | cons u tokens =>
      have hjoin : joinSpace (t :: u :: tokens) = t ++ ' ' :: joinSpace (u :: tokens) := by
        simp [joinSpace, List.intercalate]
      obtain ⟨front, c, hfront, hc⟩ := ih (List.cons_ne_nil u tokens)
        fun token htoken => htokens token (List.mem_cons_of_mem t htoken)
      exact ⟨t ++ ' ' :: front, c, by rw [hjoin, hfront]; simp, hc⟩

section Settling
variable {append delete : List (List Char)}
  (hdelete : ∀ token ∈ delete, kargAccepts token = true)
include hdelete

theorem removeTokens_append {a : List Char} (ha : ∀ w ∈ words isPythonSpace a, w ∉ delete)
    {b : List Char} (hfeed : '\n' ∉ a ++ ' ' :: b) :
    removeTokens delete (a ++ ' ' :: b) = a ++ ' ' :: removeTokens delete b := by
  induction delete generalizing b with
  | nil => rfl
  | cons d delete ih =>
    have hfirst : removeToken d (a ++ ' ' :: b) = a ++ ' ' :: removeToken d b := by
      rcases kargAccepts_cases (hdelete d (List.mem_cons_self ..)) with hvalid | hmem
      · have hnot : d ∉ words isPythonSpace a := fun h => ha d h (List.mem_cons_self ..)
        exact removeToken_append hvalid.isToken (by decide) hnot b
      · have hb : '\n' ∉ b := fun h => hfeed (by simp [h])
        rw [removeToken_lineFeed hmem hfeed, removeToken_lineFeed hmem hb]
    have hrest : '\n' ∉ a ++ ' ' :: removeToken d b := by
      rw [← hfirst]
      exact fun h => hfeed ((removeFrom_sublist d 0 false _).subset h)
    rw [removeTokens, List.foldl_cons, hfirst]
    exact ih (fun token htoken => hdelete token (List.mem_cons_of_mem d htoken))
      (fun w hw h => ha w hw (List.mem_cons_of_mem d h)) hrest

theorem removeTokens_eq_self {s : List Char} (hs : ∀ w ∈ words isPythonSpace s, w ∉ delete)
    (hfeed : '\n' ∉ s) : removeTokens delete s = s := by
  induction delete with
  | nil => rfl
  | cons d delete ih =>
    have hfirst : removeToken d s = s := by
      rcases kargAccepts_cases (hdelete d (List.mem_cons_self ..)) with hvalid | hmem
      · exact removeToken_eq_self hvalid.isToken fun h => hs d h (List.mem_cons_self ..)
      · exact removeToken_lineFeed hmem hfeed
    rw [removeTokens, List.foldl_cons, hfirst]
    exact ih (fun token htoken => hdelete token (List.mem_cons_of_mem d htoken))
      fun w hw h => hs w hw (List.mem_cons_of_mem d h)

/-- Where every word is deleted, white space is left. -/
theorem removeTokens_spaces {s : List Char} (hs : ∀ w ∈ words isPythonSpace s, w ∈ delete)
    (hfeed : '\n' ∉ s) : ∀ c ∈ removeTokens delete s, isPythonSpace c = true := by
  have hnone : words isPythonSpace (removeTokens delete s) = [] := by
    rw [words_removeTokens hdelete hfeed, List.filter_eq_nil_iff]
    intro w hw
    simpa using hs w hw
  intro c hc
  by_contra hspace
  obtain ⟨w, hw, -⟩ := exists_mem_words (Bool.not_eq_true _ ▸ hspace) hc
  rw [hnone] at hw
  cases hw

/-- What is appended again is deleted, and the rest is left. -/
theorem trim_removeTokens_settled {kept value : List Char} (hnone : append ≠ [])
    (happend : ∀ token ∈ append, IsToken token) (happended : ∀ t ∈ append, t ∈ delete)
    (htrimmed : Trimmed isPythonSpace kept) (hkept : ∀ w ∈ words isPythonSpace kept, w ∉ delete)
    (hvalue : '\n' ∉ value) (hshape : value = strip (kept ++ ' ' :: joinSpace append)) :
    trim isPythonSpace (removeTokens delete value) = kept := by
  have hblank : isPythonSpace ' ' = true := by decide
  have hjoined : ∀ w ∈ words isPythonSpace (joinSpace append), w ∈ delete := by
    rw [joinSpace, words_intercalate hblank happend]
    exact happended
  by_cases hnil : kept = []
  · have hall : ∀ w ∈ words isPythonSpace value, w ∈ delete := by
      rw [hshape, hnil, strip_eq_trim, words_trim, List.nil_append, words_cons_space hblank]
      exact hjoined
    have hspaces := removeTokens_spaces hdelete hall hvalue
    rw [hnil] at htrimmed ⊢
    exact trim_append_right htrimmed hspaces
  · have hends : Trimmed isPythonSpace (kept ++ ' ' :: joinSpace append) := by
      obtain ⟨front, c, hfront, hc⟩ := joinSpace_last hnone happend
      have hend : kept ++ ' ' :: joinSpace append = (kept ++ ' ' :: front) ++ [c] := by
        rw [hfront]
        simp
      constructor
      · intro d hd
        obtain ⟨k, ks, rfl⟩ := List.exists_cons_of_ne_nil hnil
        exact htrimmed.1 d hd
      · intro d hd
        rw [hend, List.getLast?_concat, Option.mem_some_iff] at hd
        rwa [← hd]
    rw [hshape] at hvalue ⊢
    rw [strip_eq_trim, trim_of_trimmed hends] at hvalue ⊢
    have hfeed : '\n' ∉ joinSpace append := fun h => hvalue (by simp [h])
    rw [removeTokens_append hdelete hkept hvalue]
    refine trim_append_right htrimmed fun d hd => ?_
    rcases List.mem_cons.mp hd with rfl | hd
    · exact hblank
    · exact removeTokens_spaces hdelete hjoined hfeed d hd

theorem settled_of_editValue {value : List Char} (hvalue : '\n' ∉ value)
    (happend : ∀ token ∈ append, IsToken token) (h : editValue append delete value = value) :
    Settled append delete value := by
  have hwords := words_editValue hdelete hvalue happend
  rw [h, editedTokens_eq_self] at hwords
  have hfeed : '\n' ∉ trim isPythonSpace value :=
    fun hmem => hvalue ((trim_infix_text value).subset hmem)
  refine ⟨hwords.1, trim isPythonSpace (removeTokens delete (trim isPythonSpace value)),
    trim_trimmed _, ?_, ?_⟩
  · rw [words_trim, words_removeTokens hdelete hfeed]
    exact fun w hw => of_decide_eq_true (List.mem_filter.mp hw).2
  · rw [editValue_eq] at h
    simp only [List.isEmpty_iff] at h
    exact h.symm

theorem editValue_eq_self_iff {value : List Char} (hvalue : '\n' ∉ value)
    (happend : ∀ token ∈ append, IsToken token) :
    editValue append delete value = value ↔ Settled append delete value := by
  refine ⟨settled_of_editValue hdelete hvalue happend, ?_⟩
  rintro ⟨happended, kept, htrimmed, hkept, hshape⟩
  by_cases hnone : append = []
  · rw [if_pos hnone] at hshape
    subst hshape
    rw [editValue_eq, hnone, List.isEmpty_nil, if_pos rfl, trim_of_trimmed htrimmed,
      removeTokens_eq_self hdelete hkept hvalue, trim_of_trimmed htrimmed]
  · rw [if_neg hnone] at hshape
    have hself : trim isPythonSpace value = value := by
      rw [hshape]
      exact trim_of_trimmed (trim_trimmed _)
    rw [editValue_eq, if_neg (by simpa using hnone), hself,
      trim_removeTokens_settled hdelete hnone happend happended htrimmed hkept hvalue hshape]
    exact hshape.symm

end Settling

/-! ## Reading the edited value -/

theorem pythonSpace_plain (c : Char) (hc : isPythonSpace c = true) : isEscapable c = false := by
  rw [← Bool.not_eq_true, isEscapable, List.contains_iff_mem]
  intro h
  simp only [List.mem_cons, List.not_mem_nil, or_false] at h
  rcases h with rfl | rfl | rfl | rfl <;> exact absurd hc (by decide)

theorem ValidKarg.plain {token : List Char} (h : ValidKarg token) :
    ∀ c ∈ token, isEscapable c = false := fun c hc => (kargChar_plain (h.2 c hc)).2.1

section Reading
variable {append delete : List (List Char)}
  (hdelete : ∀ token ∈ delete, kargAccepts token = true)

include hdelete in
/-- A word between the quotes is to be deleted when its value is. -/
theorem mem_delete_unescape {w : List Char} (hfeed : '\n' ∉ w) :
    unescape false w ∈ delete ↔ w ∈ delete := by
  have hsame : ∀ d ∈ delete, unescape false w = d ↔ w = d := by
    intro d hd
    rcases kargAccepts_cases (hdelete d hd) with hvalid | hmem
    · exact unescape_eq_plain hvalid.plain
    · refine iff_of_false ?_ ?_
      · rintro rfl
        rcases mem_unescape hmem with h | h
        · exact absurd h (by decide)
        · exact hfeed h
      · rintro rfl
        exact hfeed hmem
  constructor
  · intro h
    rwa [(hsame _ h).mp rfl]
  · intro h
    rwa [(hsame w h).mpr rfl]

include hdelete in
/-- Deleting in the text that is between the quotes deletes in its value. -/
theorem map_unescape_editedTokens (happend : ∀ token ∈ append, ValidKarg token)
    {tokens : List (List Char)} (hfeed : ∀ token ∈ tokens, '\n' ∉ token) :
    (editedTokens append delete tokens).map (unescape false) =
      editedTokens append delete (tokens.map (unescape false)) := by
  rw [editedTokens, editedTokens, List.map_append, List.filter_map]
  congr 1
  · refine congrArg _ (List.filter_congr fun w hw => ?_)
    simp [mem_delete_unescape hdelete (hfeed w hw)]
  · conv_rhs => rw [← List.map_id append]
    refine List.map_congr_left fun t ht => ?_
    exact (unescape_eq_plain (happend t ht).plain).mpr rfl

theorem ValidKarg.inert {token : List Char} (h : ValidKarg token) :
    isInertQuoted false token = true ∧ leavesOpen false token = false := inert_plain h.plain

/-- A token that stays leaves the last quote of the line escaped. -/
def EndsOpen (append delete : List (List Char)) (body : List Char) : Prop :=
  append = [] ∧ ∃ word, ((words isPythonSpace body).filter fun w => decide (w ∉ delete)).getLast? =
    some word ∧ leavesOpen false word = true

section Body
variable {body : List Char} (hbody : '\n' ∉ body) (happend : ∀ token ∈ append, ValidKarg token)
include hdelete hbody happend

theorem editValue_inert (hinert : isInertQuoted false body = true) :
    isInertQuoted false (editValue append delete body) = true := by
  rw [isInertQuoted_words pythonSpace_plain] at hinert ⊢
  rw [words_editValue hdelete hbody fun t ht => (happend t ht).isToken]
  intro w hw
  rcases List.mem_append.mp hw with hw | hw
  · exact hinert w (List.mem_filter.mp hw).1
  · exact (happend w hw).inert.1

theorem editValue_open :
    leavesOpen false (editValue append delete body) = true ↔ EndsOpen append delete body := by
  rw [leavesOpen_words pythonSpace_plain (editValue_trimmed append delete body).2,
    words_editValue hdelete hbody fun t ht => (happend t ht).isToken, editedTokens]
  by_cases hnone : append = []
  · rw [hnone, List.append_nil, EndsOpen, Option.any_eq_true]
    simp
  · refine iff_of_false ?_ fun h => hnone h.1
    rw [List.getLast?_append_of_ne_nil _ hnone, List.getLast?_eq_getLast_of_ne_nil hnone,
      Option.any_some, (happend _ (List.getLast_mem hnone)).inert.2]
    exact Bool.false_ne_true

theorem words_unescape_editValue :
    words isPythonSpace (unescape false (editValue append delete body)) =
      editedTokens append delete (words isPythonSpace (unescape false body)) := by
  have hfeed : ∀ word ∈ words isPythonSpace body, '\n' ∉ word := by
    intro word hword h
    exact absurd ((mem_words hword).2 _ h) (by decide)
  rw [words_unescape pythonSpace_plain, words_unescape pythonSpace_plain,
    words_editValue hdelete hbody fun t ht => (happend t ht).isToken,
    map_unescape_editedTokens hdelete happend hfeed]

end Body

end Reading

end Sysknife
