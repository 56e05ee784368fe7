import Sysknife.FreeText
import Sysknife.Prefs

/-!
# The lines of the preferences file

What `append_pref` and `remove_pref` make of the lines of a file, which may have been
edited by hand: its last line may have no end, and a line may end in a carriage return
that `lines` does not take off.
-/

namespace Sysknife

/-- What is read of a file; there may be none. -/
def prefLines (file : Option (List Char)) : List (List Char) := lines (file.getD [])

/-- The line of a preference. -/
def prefLine (fact : List Char) : List Char := "- ".toList ++ fact

/-- The last line has its end. -/
def EndsComplete (content : List Char) : Prop := content = [] ∨ content.getLast? = some '\n'

/-- Written with an end behind it, each of the lines is read as it is. -/
def NoReturns (ls : List (List Char)) : Prop := ∀ line ∈ ls, line.getLast? ≠ some '\r'

theorem unbroken_prefLines {file : Option (List Char)} {line : List Char}
    (h : line ∈ prefLines file) : '\n' ∉ line :=
  unbroken_linesFrom List.not_mem_nil h

theorem lines_append_complete {content : List Char} (h : EndsComplete content)
    (rest : List Char) : lines (content ++ rest) = lines content ++ lines rest := by
  rcases h with rfl | hlast
  · rfl
  · obtain ⟨before, rfl⟩ := List.getLast?_eq_some_iff.mp hlast
    rw [List.append_assoc]
    exact linesFrom_append [] before rest

/-- A line that is written is read again. -/
theorem lines_written {ls : List (List Char)} (hunbroken : ∀ l ∈ ls, '\n' ∉ l)
    (hreturns : NoReturns ls) : lines (ls.flatMap (· ++ ['\n'])) = ls := by
  rw [lines_flatMap hunbroken]
  have hsame : ∀ l ∈ ls, stripReturn l = id l := fun l hl => stripReturn_eq_self (hreturns l hl)
  rw [List.map_congr_left hsame, List.map_id]

/-! ## Adding -/

/-- The three things that can come of adding a preference. -/
theorem appendPref_cases (file : Option (List Char)) (fact : List Char) :
    (∃ message, appendPref file fact = (.error message, file)) ∨
      prefLine fact ∈ prefLines file ∧ appendPref file fact = (.ok (), file) ∨
      (prefLine fact ∉ prefLines file ∧ '\n' ∉ fact ∧ '\r' ∉ fact ∧
        byteLength (file.getD [] ++ prefLine fact ++ ['\n']) ≤ prefsMaxBytes ∧
        appendPref file fact = (.ok (), some (file.getD [] ++ prefLine fact ++ ['\n']))) := by
  unfold appendPref
  split
  · exact Or.inl ⟨_, rfl⟩
  · rename_i hline
    rw [Bool.or_eq_true, not_or, List.contains_iff_mem, List.contains_iff_mem] at hline
    by_cases hpresent : (lines (file.getD [])).contains ("- ".toList ++ fact) = true
    · exact Or.inr (Or.inl ⟨List.contains_iff_mem.mp hpresent, if_pos hpresent⟩)
    · simp only [if_neg hpresent]
      split
      · exact Or.inl ⟨_, rfl⟩
      · rename_i hsize
        refine Or.inr (Or.inr ⟨mt List.contains_iff_mem.mpr hpresent, hline.1, hline.2, ?_, ?_⟩)
        · exact Nat.not_lt.mp (by simpa [byteLength, prefLine, List.append_assoc] using hsize)
        · simp [prefLine]

theorem prefLine_unbroken {fact : List Char} (h : '\n' ∉ fact) : '\n' ∉ prefLine fact := by
  intro hin
  rcases List.mem_append.mp hin with hin | hin
  · exact absurd hin (by decide)
  · exact h hin

theorem prefLine_last {fact : List Char} (h : '\r' ∉ fact) :
    (prefLine fact).getLast? ≠ some '\r' := by
  intro hlast
  rcases List.mem_append.mp (List.mem_of_getLast? hlast) with hin | hin
  · exact absurd hin (by decide)
  · exact h hin

theorem lines_with_pref {content fact : List Char} (hcontent : EndsComplete content)
    (hfeed : '\n' ∉ fact) (hreturn : '\r' ∉ fact) :
    lines (content ++ prefLine fact ++ ['\n']) = lines content ++ [prefLine fact] := by
  rw [List.append_assoc, lines_append_complete hcontent, lines_line (prefLine_unbroken hfeed),
    stripReturn_eq_self (prefLine_last hreturn)]
  rfl

/-! ## Removing -/

/-- The lines that stay. -/
def otherLines (file : Option (List Char)) (fact : List Char) : List (List Char) :=
  (prefLines file).filter fun line => line != prefLine fact

theorem removePref_present {file : Option (List Char)} {fact : List Char}
    (h : prefLine fact ∈ prefLines file) :
    removePref file fact = (true, some ((otherLines file fact).flatMap (· ++ ['\n']))) := by
  cases file with
  | none => cases h
  | some content => exact if_pos (List.contains_iff_mem.mpr h)

theorem removePref_absent {file : Option (List Char)} {fact : List Char}
    (h : prefLine fact ∉ prefLines file) : removePref file fact = (false, file) := by
  cases file with
  | none => rfl
  | some content => exact if_neg (mt List.contains_iff_mem.mp h)

theorem otherLines_absent {file : Option (List Char)} {fact : List Char}
    (h : prefLine fact ∉ prefLines file) : otherLines file fact = prefLines file := by
  refine List.filter_eq_self.mpr fun line hline => ?_
  rw [bne_iff_ne]
  rintro rfl
  exact h hline

theorem removePref_true_iff (file : Option (List Char)) (fact : List Char) :
    (removePref file fact).1 = true ↔ prefLine fact ∈ prefLines file := by
  by_cases h : prefLine fact ∈ prefLines file
  · rw [removePref_present h]
    exact iff_of_true rfl h
  · rw [removePref_absent h]
    exact iff_of_false nofun h

theorem prefLines_removePref {file : Option (List Char)} {fact : List Char}
    (h : NoReturns (otherLines file fact)) :
    prefLines (removePref file fact).2 = otherLines file fact := by
  by_cases hpresent : prefLine fact ∈ prefLines file
  · rw [removePref_present hpresent]
    refine lines_written (fun l hl => ?_) h
    exact unbroken_prefLines (List.mem_filter.mp hl).1
  · rw [removePref_absent hpresent, otherLines_absent hpresent]

/-! ## Both -/

/-- Adding a preference fails and leaves the file, or finds its line and leaves the file, or
leaves a file of bounded size that has its line behind the old ones where these were
complete. Removing says whether the line was there; it leaves the file where it was not, and
the other lines where none of them ends in a carriage return. So the one undoes the other. -/
theorem prefs_add_remove (file : Option (List Char)) (fact : List Char) :
    ((∃ message, appendPref file fact = (.error message, file)) ∨
        prefLine fact ∈ prefLines file ∧ appendPref file fact = (.ok (), file) ∨
        prefLine fact ∉ prefLines file ∧ (appendPref file fact).1 = .ok () ∧
          byteLength ((appendPref file fact).2.getD []) ≤ prefsMaxBytes ∧
          (EndsComplete (file.getD []) →
            prefLines (appendPref file fact).2 = prefLines file ++ [prefLine fact])) ∧
      ((removePref file fact).1 = true ↔ prefLine fact ∈ prefLines file) ∧
      (prefLine fact ∉ prefLines file → (removePref file fact).2 = file) ∧
      (NoReturns (otherLines file fact) →
        prefLines (removePref file fact).2 = otherLines file fact) ∧
      (prefLine fact ∉ prefLines file → (appendPref file fact).1 = .ok () →
        EndsComplete (file.getD []) → NoReturns (prefLines file) →
          prefLines (removePref (appendPref file fact).2 fact).2 = prefLines file) := by
  refine ⟨?_, removePref_true_iff file fact, fun habsent => ?_, prefLines_removePref, ?_⟩
  · obtain herror | hpresent | ⟨habsent, hfeed, hreturn, hsize, happend⟩ :=
      appendPref_cases file fact
    · exact Or.inl herror
    · exact Or.inr (Or.inl hpresent)
    · rw [happend]
      exact Or.inr (Or.inr ⟨habsent, rfl, hsize, fun hcomplete =>
        lines_with_pref hcomplete hfeed hreturn⟩)
  · rw [removePref_absent habsent]
  · intro habsent hok hcomplete hreturns
    obtain ⟨message, herror⟩ | ⟨hpresent, -⟩ | ⟨-, hfeed, hreturn, -, happend⟩ :=
      appendPref_cases file fact
    · rw [herror] at hok
      cases hok
    · exact absurd hpresent habsent
    · have hlines : prefLines (appendPref file fact).2 = prefLines file ++ [prefLine fact] := by
        rw [happend]
        exact lines_with_pref hcomplete hfeed hreturn
      have hothers : otherLines (appendPref file fact).2 fact = prefLines file := by
        rw [otherLines, hlines, List.filter_append]
        have hold : (prefLines file).filter (fun line => line != prefLine fact) =
            prefLines file := otherLines_absent habsent
        have hnew : [prefLine fact].filter (fun line => line != prefLine fact) = [] := by simp
        rw [hold, hnew, List.append_nil]
      rw [prefLines_removePref (hothers ▸ hreturns), hothers]

/-- A file of one preference. -/
def onePref : Option (List Char) := some "- a\n".toList

theorem onePref_returns : NoReturns (prefLines onePref) := by
  have hlines : prefLines onePref = ["- a".toList] := by decide
  intro line hline
  rw [hlines] at hline
  obtain rfl := List.mem_singleton.mp hline
  decide

theorem prefs_add_remove_one :
    prefLines (appendPref onePref "b".toList).2 = ["- a".toList, "- b".toList] ∧
      (removePref onePref "b".toList).2 = onePref ∧
      prefLines (removePref (appendPref onePref "b".toList).2 "b".toList).2 = ["- a".toList] ∧
      prefLines (removePref onePref "a".toList).2 = [] := by
  have hok : (appendPref onePref "b".toList).1 = .ok () := by decide
  have habsent : prefLine "b".toList ∉ prefLines onePref := by decide
  obtain ⟨hadd, -, hkept, -, hboth⟩ := prefs_add_remove onePref "b".toList
  obtain ⟨-, -, -, hremove, -⟩ := prefs_add_remove onePref "a".toList
  refine ⟨?_, hkept habsent, hboth habsent hok (Or.inr (by decide)) onePref_returns,
    hremove nofun⟩
  obtain ⟨message, herror⟩ | ⟨hpresent, -⟩ | ⟨-, -, -, hlines⟩ := hadd
  · rw [herror] at hok
    cases hok
  · exact absurd hpresent habsent
  · exact hlines (Or.inr (by decide))

/-- What the operations are for, with no look at how the file was written. -/
structure PrefsKept (file : Option (List Char)) (fact : List Char) : Prop where
  added : (∃ message, appendPref file fact = (.error message, file)) ∨
    (appendPref file fact).1 = .ok () ∧
      byteLength ((appendPref file fact).2.getD []) ≤ prefsMaxBytes ∧
      prefLines (appendPref file fact).2 =
        if prefLine fact ∈ prefLines file then prefLines file
        else prefLines file ++ [prefLine fact]
  found : (removePref file fact).1 = true ↔ prefLine fact ∈ prefLines file
  removed : prefLines (removePref file fact).2 = otherLines file fact
  restored : prefLine fact ∉ prefLines file → (appendPref file fact).1 = .ok () →
    prefLines (removePref (appendPref file fact).2 fact).2 = prefLines file

/-- A preference in a file over the limit. -/
def largeFile : List Char := "- a\n".toList ++ List.replicate prefsMaxBytes 'x'

theorem largeFile_present : prefLine "a".toList ∈ prefLines (some largeFile) := by
  have htext : largeFile = "- a".toList ++ '\n' :: List.replicate prefsMaxBytes 'x' := rfl
  have hlines : prefLines (some largeFile) =
      stripReturn "- a".toList :: lines (List.replicate prefsMaxBytes 'x') := by
    rw [htext]
    exact lines_line (by decide) _
  rw [hlines]
  exact List.mem_cons_self ..

theorem largeFile_length : prefsMaxBytes < byteLength largeFile := by
  rw [largeFile, byteLength_append, byteLength_replicate]
  decide

/-- Behind a last line without its end, in a file over the limit, and with a line that ends
in two carriage returns. -/
theorem prefs_notKept : ¬ PrefsKept (some "- a".toList) "b".toList ∧
    ¬ PrefsKept (some largeFile) "a".toList ∧
    ¬ PrefsKept (some "x\r\r\n- a\n".toList) "a".toList := by
  refine ⟨fun h => ?_, fun h => ?_, fun h => ?_⟩
  · exact absurd (h.restored (by decide) (by decide)) (by decide)
  · have hsame : appendPref (some largeFile) "a".toList = (.ok (), some largeFile) := by
      rw [appendPref, if_neg (by decide)]
      exact if_pos (List.contains_iff_mem.mpr largeFile_present)
    obtain ⟨message, herror⟩ | ⟨-, hsize, -⟩ := h.added
    · rw [hsame] at herror
      cases herror
    · rw [hsame] at hsize
      exact absurd hsize (Nat.not_le.mpr largeFile_length)
  · exact absurd h.removed (by decide)

end Sysknife
