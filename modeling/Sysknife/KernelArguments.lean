import Mathlib.Tactic
import Sysknife.ActionTraits
import Sysknife.Lib.Words

/-!
# Kernel arguments and the words of the kernel command line

The check of an added kernel argument looks at the whole text, and the command line is
taken apart at white space.
-/

namespace Sysknife

open Actions TextWords TextLines Fallible

/-- ASCII white space. -/
def isSpace (c : Char) : Bool := [' ', '\t', '\n', '\x0b', '\x0c', '\r'].contains c

def asciiLower (s : List Char) : List Char := s.map Char.toLower

/-! ## What must not be added -/

def forbiddenPrefixes : List (List Char) :=
  ["init=".toList, "selinux=0".toList, "enforcing=0".toList, "security=".toList,
    "module_blacklist=".toList]

/-- Words that boot into a single-user shell. -/
def singleUserWords : List (List Char) := ["single".toList, "s".toList, "1".toList]

def forbiddenUnits : List (List Char) :=
  ["systemd.unit=emergency".toList, "systemd.unit=rescue".toList, "systemd.unit=single".toList]

/-- The block list in the comment of `validated_safe_kernel_arg`. -/
def Forbidden (word : List Char) : Prop :=
  (∃ p ∈ forbiddenPrefixes ++ forbiddenUnits, p <+: asciiLower word) ∨
    asciiLower word ∈ singleUserWords

/-! ## What is added -/

/-- `--append=` in front of an added argument. -/
def appendFlag : List Char := "--append=".toList

/-- `--append=` and the text behind it, out of an argument. -/
def appendedText (arg : String) : Option (List Char) :=
  if appendFlag.isPrefixOf arg.toList then some (arg.toList.drop appendFlag.length) else none

/-- The texts that a command appends to the kernel command line. -/
def appendedTexts (spec : ActionSpec) : List (List Char) :=
  match spec.actionName, spec.mechanism with
  | .setKernelArguments, .command _ args =>
    args.filterMap appendedText
  | .grubSetKargs, .command _ [_, _, csv, _, _] => csv.toList.splitOn ','
  | _, _ => []

/-- The words that the kernel command line gains. -/
def gainedWords (spec : ActionSpec) : List (List Char) :=
  (appendedTexts spec).flatMap (words isSpace)

theorem appendedText_append (a : String) : appendedText ("--append=" ++ a) = some a.toList := by
  have harg : ("--append=" ++ a).toList = appendFlag ++ a.toList := String.toList_append
  rw [appendedText, harg, if_pos (List.isPrefixOf_iff_prefix.mpr (List.prefix_append ..)),
    List.drop_left]

theorem appendedText_delete (a : String) : appendedText ("--delete=" ++ a) = none := by
  have hflag : appendFlag = '-' :: '-' :: 'a' :: "ppend=".toList := by decide
  have hdelete : "--delete=".toList = '-' :: '-' :: 'd' :: "elete=".toList := by decide
  have harg : ("--delete=" ++ a).toList = "--delete=".toList ++ a.toList := String.toList_append
  rw [appendedText, harg, if_neg]
  rw [List.isPrefixOf_iff_prefix, hflag, hdelete]
  intro h
  simp only [List.cons_append, List.cons_prefix_cons, true_and] at h
  exact absurd h.1 (by decide)

theorem gainedWords_setKernelArguments (add remove : List String) :
    gainedWords (setKernelArguments add remove) = add.flatMap fun a => words isSpace a.toList := by
  have hadd : (add.map fun a => "--append=" ++ a).filterMap appendedText =
      add.map String.toList := by
    rw [List.filterMap_map]
    exact List.filterMap_eq_map' (f := String.toList) ▸
      List.filterMap_congr fun a _ => appendedText_append a
  have hremove : (remove.map fun a => "--delete=" ++ a).filterMap appendedText = [] := by
    rw [List.filterMap_map, List.filterMap_eq_nil_iff]
    intro a _
    exact appendedText_delete a
  have hcommand : ["rpm-ostree", "kargs"].filterMap appendedText = [] := by decide
  have htexts : appendedTexts (setKernelArguments add remove) = add.map String.toList := by
    rw [appendedTexts, setKernelArguments]
    dsimp only
    rw [List.filterMap_append, List.filterMap_append, hcommand, hadd, hremove, List.append_nil,
      List.nil_append]
  rw [gainedWords, htexts, List.flatMap_map]

theorem gainedWords_grubSetKargs {append delete : List String} {spec : ActionSpec}
    (h : grubSetKargs append delete = some spec) (hcomma : ∀ a ∈ append, ',' ∉ a.toList) :
    gainedWords spec = append.flatMap fun a => words isSpace a.toList := by
  unfold grubSetKargs at h
  split at h
  · cases h
  · rw [Option.some.injEq] at h
    subst h
    rw [gainedWords, appendedTexts]
    dsimp only
    rw [String.toList_intercalate]
    have hseparator : ",".toList = [','] := by decide
    cases append with
    | nil => rw [hseparator]; rfl
    | cons a append =>
      rw [hseparator, List.splitOn_intercalate, List.flatMap_map]
      · intro l hl
        obtain ⟨a, ha, rfl⟩ := List.mem_map.mp hl
        exact hcomma a ha
      · exact List.cons_ne_nil _ _

/-! ## What the check sees -/

theorem lowercaseChar_ascii {c : Char} (h : c.toLower.toNat < 0x80) :
    lowercaseChar c = [c.toLower] := by
  have hother : ∀ n, n = 0x212a ∨ n = 0x130 → c.toNat ≠ n := by
    intro n hn heq
    rw [← Char.ofNat_toNat c, heq] at h
    rcases hn with rfl | rfl <;> exact absurd h (by decide)
  rw [lowercaseChar, if_neg (by simpa using hother _ (Or.inl rfl)),
    if_neg (by simpa using hother _ (Or.inr rfl))]

/-- The two ways to take the lower case agree where the result is ASCII. -/
theorem prefix_toLowercase {p : List Char} (hp : ∀ c ∈ p, c.toNat < 0x80) {s : List Char}
    (h : p <+: asciiLower s) (rest : List Char) : p <+: (s ++ rest).flatMap lowercaseChar := by
  induction p generalizing s with
  | nil => exact List.nil_prefix
  | cons d p ih =>
    cases s with
    | nil => exact absurd h.length_le (by simp [asciiLower])
    | cons c s =>
      obtain ⟨hd, hrest⟩ := List.forall_mem_cons.mp hp
      rw [asciiLower, List.map_cons, List.cons_prefix_cons] at h
      rw [List.cons_append, List.flatMap_cons, lowercaseChar_ascii (h.1 ▸ hd),
        List.singleton_append, List.cons_prefix_cons]
      exact ⟨h.1, ih hrest h.2⟩

theorem toLowercase_eq {s : List Char} (h : ∀ c ∈ asciiLower s, c.toNat < 0x80) :
    s.flatMap lowercaseChar = asciiLower s := by
  induction s with
  | nil => rfl
  | cons c s ih =>
    rw [asciiLower, List.map_cons] at h
    obtain ⟨hc, hrest⟩ := List.forall_mem_cons.mp h
    rw [List.flatMap_cons, lowercaseChar_ascii hc, ih hrest]
    rfl

theorem forbidden_ascii : ∀ p ∈ forbiddenPrefixes ++ forbiddenUnits ++ singleUserWords,
    ∀ c ∈ p, c.toNat < 0x80 := by
  have hall : (forbiddenPrefixes ++ forbiddenUnits ++ singleUserWords).all
      (fun p => p.all fun c => c.toNat < 0x80) = true := by decide
  intro p hp c hc
  have hword := List.all_eq_true.mp hall p hp
  exact of_decide_eq_true (List.all_eq_true.mp hword c hc)

theorem accepts_noPrefix {arg : String} (h : safeKernelArgAccepts arg = true) :
    ∀ p ∈ forbiddenPrefixes ++ forbiddenUnits, ¬ p <+: toLowercase arg := by
  rw [safeKernelArgAccepts] at h
  simp only [Bool.and_eq_true, Bool.not_eq_true'] at h
  obtain ⟨⟨⟨hlist, -⟩, hunit⟩, -⟩ := h
  intro p hp hpre
  rcases List.mem_append.mp hp with hp | hp
  · have hblocked : forbiddenPrefixes = blockedKernelPrefixes.map String.toList := by decide
    rw [hblocked] at hp
    obtain ⟨q, hq, rfl⟩ := List.mem_map.mp hp
    have hany := List.any_eq_false.mp hlist q hq
    exact hany (List.isPrefixOf_iff_prefix.mpr hpre)
  · have hblocked : forbiddenUnits =
        blockedUnitPrefixes.map fun u => "systemd.unit=".toList ++ u.toList := by decide
    rw [hblocked] at hp
    obtain ⟨u, hu, rfl⟩ := List.mem_map.mp hp
    obtain ⟨rest, hrest⟩ := hpre
    rw [← hrest, List.append_assoc, List.drop_left] at hunit
    have hfirst : "systemd.unit=".toList.isPrefixOf
        ("systemd.unit=".toList ++ (u.toList ++ rest)) = true :=
      List.isPrefixOf_iff_prefix.mpr (List.prefix_append _ _)
    rw [hfirst, Bool.true_and] at hunit
    have hany := List.any_eq_false.mp hunit u hu
    exact hany (List.isPrefixOf_iff_prefix.mpr (List.prefix_append _ _))

theorem accepts_notSingle {arg : String} (h : safeKernelArgAccepts arg = true) :
    toLowercase arg ∉ singleUserWords := by
  rw [safeKernelArgAccepts] at h
  simp only [Bool.and_eq_true, Bool.not_eq_true'] at h
  obtain ⟨⟨⟨-, hexact⟩, -⟩, -⟩ := h
  have hblocked : singleUserWords = blockedKernelExact.map String.toList := by decide
  rw [hblocked]
  intro hmem
  obtain ⟨e, he, heq⟩ := List.mem_map.mp hmem
  have hany := List.any_eq_false.mp hexact e he
  exact hany (beq_iff_eq.mpr heq.symm)

/-- A word behind a gap is not looked at, and neither is a single-user word in front of
one. -/
def HidesWord (arg : List Char) : Prop :=
  ∃ head gap rest, arg = head ++ gap :: rest ∧ Unbroken isSpace head ∧ isSpace gap = true ∧
    (asciiLower head ∈ singleUserWords ∨ ∃ word ∈ words isSpace rest, Forbidden word)

/-- A text that the check lets through has a forbidden word only where it is hidden. -/
theorem forbidden_word_iff {arg : String} (h : safeKernelArgAccepts arg = true) :
    (∃ word ∈ words isSpace arg.toList, Forbidden word) ↔ HidesWord arg.toList := by
  constructor
  · rintro ⟨word, hword, hforbidden⟩
    rcases unbroken_or_split isSpace arg.toList with hone | ⟨head, gap, rest, heq, hhead, hgap⟩
    · -- the one word is the text that was checked
      rw [words_unbroken hone] at hword
      split at hword
      · cases hword
      · obtain rfl := List.mem_singleton.mp hword
        rcases hforbidden with ⟨p, hp, hpre⟩ | hsingle
        · have hlower := prefix_toLowercase
            (forbidden_ascii p (List.mem_append_left _ hp)) hpre []
          rw [List.append_nil] at hlower
          exact absurd hlower (accepts_noPrefix h p hp)
        · have hlower := toLowercase_eq
            (forbidden_ascii _ (List.mem_append_right _ hsingle))
          rw [← hlower] at hsingle
          exact absurd hsingle (accepts_notSingle h)
    · refine ⟨head, gap, rest, heq, hhead, hgap, ?_⟩
      rw [heq, words_append hgap, words_unbroken hhead, List.mem_append] at hword
      rcases hword with hword | hword
      · split at hword
        · cases hword
        · obtain rfl := List.mem_singleton.mp hword
          rcases hforbidden with ⟨p, hp, hpre⟩ | hsingle
          · have hlower := prefix_toLowercase
              (forbidden_ascii p (List.mem_append_left _ hp)) hpre (gap :: rest)
            rw [← heq] at hlower
            exact absurd hlower (accepts_noPrefix h p hp)
          · exact Or.inl hsingle
      · exact Or.inr ⟨word, hword, hforbidden⟩
  · rintro ⟨head, gap, rest, heq, hhead, hgap, hhidden⟩
    rw [heq, words_append hgap, words_unbroken hhead]
    rcases hhidden with hsingle | ⟨word, hword, hforbidden⟩
    · refine ⟨head, List.mem_append_left _ ?_, Or.inr hsingle⟩
      rw [if_neg]
      · exact List.mem_singleton_self head
      · intro hempty
        rw [List.isEmpty_iff.mp hempty] at hsingle
        exact absurd hsingle (by decide)
    · exact ⟨word, List.mem_append_right _ hword, hforbidden⟩

/-- Where the block list is not kept to. -/
def MissedBy (action : ActionName) (params : Json) : Prop :=
  match action with
  | .setKernelArguments =>
    ∃ args, strArrayOrEmpty params "add" = .ok args ∧ ∃ arg ∈ args, HidesWord arg.toList
  | .grubSetKargs => ∃ arg ∈ strItemsOrEmpty params "append",
    asciiLower arg.toList ∈ singleUserWords
  | _ => False

theorem validatedSafeKernelArgs_ok {args : List String} {u : Unit}
    (h : validatedSafeKernelArgs args = .ok u) : ∀ arg ∈ args, safeKernelArgAccepts arg = true := by
  induction args with
  | nil => exact nofun
  | cons arg args ih =>
    by_cases haccepts : safeKernelArgAccepts arg = true
    · rw [validatedSafeKernelArgs, validatedSafeKernelArg, if_pos haccepts] at h
      exact List.forall_mem_cons.mpr ⟨haccepts, ih h⟩
    · rw [validatedSafeKernelArgs, validatedSafeKernelArg, if_neg haccepts] at h
      cases h

theorem setKernelArguments_built (params : Json) :
    Ensures (specFor .setKernelArguments params) fun spec =>
      ∃ add remove, strArrayOrEmpty params "add" = .ok add ∧
        (∀ arg ∈ add, safeKernelArgAccepts arg = true) ∧ spec = setKernelArguments add remove := by
  refine ensures_bind fun add hadd => ensures_bind fun remove _ => ensures_bind fun _ hargs => ?_
  exact ensures_ok ⟨add, remove, hadd, validatedSafeKernelArgs_ok hargs, rfl⟩

theorem grubSetKargs_built (params : Json) :
    Ensures (specFor .grubSetKargs params) fun spec =>
      (∀ arg ∈ strItemsOrEmpty params "append", safeArgAccepts arg = true) ∧
        grubSetKargs (strItemsOrEmpty params "append") (strItemsOrEmpty params "delete") =
          some spec := by
  refine ensures_bind fun _ happend => ensures_bind fun _ _ => ?_
  split
  · next spec hspec => exact ensures_ok ⟨(validatedAll_ok happend).2, hspec⟩
  · exact ensures_error

theorem toLower_eq_equals {c : Char} (h : c.toLower = '=') : c = '=' := by
  by_cases hupper : c.val ≥ 'A'.val ∧ c.val ≤ 'Z'.val
  · have hval := congrArg (fun d : Char => d.val.toNat) h
    have hlow := UInt32.le_iff_toNat_le.mp hupper.1
    have hhigh := UInt32.le_iff_toNat_le.mp hupper.2
    have hlower : c.toLower.val = c.val + ('a'.val - 'A'.val) :=
      congrArg Char.val (dif_pos hupper : c.toLower = _)
    rw [hlower] at hval
    simp only [UInt32.toNat_add] at hval
    have hA : 'A'.val.toNat = 0x41 := rfl
    have hZ : 'Z'.val.toNat = 0x5a := rfl
    have hgap : ('a'.val - 'A'.val).toNat = 0x20 := rfl
    have hequals : '='.val.toNat = 0x3d := rfl
    omega
  · have hsame : c.toLower = c := dif_neg hupper
    rwa [hsame] at h

theorem safeArg_notMem {arg : String} (h : safeArgAccepts arg = true) {c : Char}
    (hc : isAsciiAlphanumeric c = false) (hextra : c ∉ ['.', '_', ':', '/', '+', '@', '-']) :
    c ∉ arg.toList := by
  rw [safeArgAccepts, Bool.and_eq_true] at h
  exact notMem_of_onlyChars h.2 hc hextra

/-- The other check lets neither a separator nor an equals sign through. -/
theorem forbidden_safeArg_iff {arg : String} (h : safeArgAccepts arg = true) :
    (∃ word ∈ words isSpace arg.toList, Forbidden word) ↔
      asciiLower arg.toList ∈ singleUserWords := by
  have hone : Unbroken isSpace arg.toList := by
    intro c hc
    rw [Bool.eq_false_iff]
    intro hspace
    rw [isSpace, List.contains_iff_mem] at hspace
    have hspaces : ∀ c ∈ [' ', '\t', '\n', '\x0b', '\x0c', '\r'], isAsciiAlphanumeric c = false ∧
        c ∉ ['.', '_', ':', '/', '+', '@', '-'] := by
      simp only [List.forall_mem_cons, List.not_mem_nil, false_imp_iff, implies_true, and_true]
      decide
    exact safeArg_notMem h (hspaces c hspace).1 (hspaces c hspace).2 hc
  have hequals : ∀ p ∈ forbiddenPrefixes ++ forbiddenUnits, '=' ∈ p := by decide
  rw [words_unbroken hone]
  constructor
  · rintro ⟨word, hword, hforbidden⟩
    split at hword
    · cases hword
    · obtain rfl := List.mem_singleton.mp hword
      rcases hforbidden with ⟨p, hp, hpre⟩ | hsingle
      · obtain ⟨c, hc, heq⟩ := List.mem_map.mp (hpre.subset (hequals p hp))
        rw [toLower_eq_equals heq] at hc
        exact absurd hc (safeArg_notMem h (by decide) (by decide))
      · exact hsingle
  · intro hsingle
    refine ⟨arg.toList, ?_, Or.inr hsingle⟩
    rw [if_neg]
    · exact List.mem_singleton_self _
    · intro hempty
      rw [List.isEmpty_iff.mp hempty] at hsingle
      exact absurd hsingle (by decide)

theorem blockList_kept_iff {action : ActionName} {params : Json} {spec : ActionSpec}
    (haction : action = .setKernelArguments ∨ action = .grubSetKargs)
    (h : buildActionSpec action.text params = .ok spec) :
    (∀ word ∈ gainedWords spec, ¬ Forbidden word) ↔ ¬ MissedBy action params := by
  -- the words are those of the texts, one text after the other
  have htexts : ∀ texts : List String,
      gainedWords spec = texts.flatMap (fun a => words isSpace a.toList) →
      ((∀ word ∈ gainedWords spec, ¬ Forbidden word) ↔
        ¬ ∃ a ∈ texts, ∃ word ∈ words isSpace a.toList, Forbidden word) := by
    intro texts heq
    rw [heq]
    constructor
    · rintro hnone ⟨a, ha, word, hword, hforbidden⟩
      exact hnone word (List.mem_flatMap.mpr ⟨a, ha, hword⟩) hforbidden
    · intro hnone word hword hforbidden
      obtain ⟨a, ha, hword⟩ := List.mem_flatMap.mp hword
      exact hnone ⟨a, ha, word, hword, hforbidden⟩
  rw [buildActionSpec_text] at h
  rcases haction with rfl | rfl
  · obtain ⟨add, remove, hadd, haccepts, rfl⟩ := (setKernelArguments_built params).apply h
    rw [htexts add (gainedWords_setKernelArguments add remove), MissedBy, not_iff_not]
    constructor
    · rintro ⟨a, ha, hword⟩
      exact ⟨add, hadd, a, ha, (forbidden_word_iff (haccepts a ha)).mp hword⟩
    · rintro ⟨args, hargs, a, ha, hhidden⟩
      rw [hadd, Except.ok.injEq] at hargs
      subst hargs
      exact ⟨a, ha, (forbidden_word_iff (haccepts a ha)).mpr hhidden⟩
  · obtain ⟨haccepts, hspec⟩ := (grubSetKargs_built params).apply h
    have hcomma : ∀ a ∈ strItemsOrEmpty params "append", ',' ∉ a.toList := fun a ha =>
      safeArg_notMem (haccepts a ha) (by decide) (by decide)
    rw [htexts _ (gainedWords_grubSetKargs hspec hcomma), MissedBy, not_iff_not]
    constructor
    · rintro ⟨a, ha, hword⟩
      exact ⟨a, ha, (forbidden_safeArg_iff (haccepts a ha)).mp hword⟩
    · rintro ⟨a, ha, hsingle⟩
      exact ⟨a, ha, (forbidden_safeArg_iff (haccepts a ha)).mpr hsingle⟩

def quietParams : Json := .object [("add", .array [.string "quiet"])]

theorem quietParams_kept :
    (∀ word ∈ gainedWords (setKernelArguments ["quiet"] []), ¬ Forbidden word) ↔
      ¬ MissedBy .setKernelArguments quietParams :=
  blockList_kept_iff (Or.inl rfl)
    (by decide : buildActionSpec ActionName.setKernelArguments.text quietParams =
      .ok (setKernelArguments ["quiet"] []))

/-- The second word of an argument replaces init. -/
def shellParams : Json := .object [("add", .array [.string "quiet init=/bin/sh"])]

theorem blockList_passed : ¬ ∀ (action : ActionName) (params : Json) (spec : ActionSpec),
    action = .setKernelArguments ∨ action = .grubSetKargs →
    buildActionSpec action.text params = .ok spec →
    ∀ word ∈ gainedWords spec, ¬ Forbidden word := by
  intro hall
  have hspec : buildActionSpec ActionName.setKernelArguments.text shellParams =
      .ok (setKernelArguments ["quiet init=/bin/sh"] []) := by decide
  have hwords : "init=/bin/sh".toList ∈ gainedWords (setKernelArguments ["quiet init=/bin/sh"] [])
    := by decide
  refine hall _ _ _ (Or.inl rfl) hspec _ hwords (Or.inl ⟨"init=".toList, by decide, ?_⟩)
  decide

end Sysknife
