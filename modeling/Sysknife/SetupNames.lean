import Mathlib.Tactic
import Sysknife.Actions.Validate
import Sysknife.Lib.IntegerText

/-!
# The names of the targets in the setup

`packages/setup/index.js`: the label of a target becomes a part of the name of its
server, a label that came before gets a suffix, and the servers are written under their
names into one object.
-/

namespace Sysknife

/-! ## Labels -/

/-- What `String.prototype.trim` takes away. -/
def isTrimmed (c : Char) : Bool :=
  (9 ≤ c.toNat && c.toNat ≤ 13) || (0x2000 ≤ c.toNat && c.toNat ≤ 0x200a) ||
    [0x20, 0xa0, 0x1680, 0x2028, 0x2029, 0x202f, 0x205f, 0x3000, 0xfeff].contains c.toNat

/-- The answer of `ask`, or the default. -/
def Setup.ask (answer default : List Char) : List Char :=
  let trimmed := ((answer.dropWhile isTrimmed).reverse.dropWhile isTrimmed).reverse
  if trimmed.isEmpty then default else trimmed

def isServerKeyChar (c : Char) : Bool := c.isLower || c.isDigit || c == '_' || c == '-'

/-- Each run of other characters is one dash; `inRun` is a character of one in front. -/
def dashRuns : Bool → List Char → List Char
  | _, [] => []
  | inRun, c :: cs =>
    if isServerKeyChar c then c :: dashRuns false cs
    else if inRun then dashRuns true cs
    else '-' :: dashRuns true cs

def sanitizeName (s : List Char) : List Char :=
  let dashed := dashRuns false (s.flatMap lowercaseChar)
  let stripped := ((dashed.dropWhile (· == '-')).reverse.dropWhile (· == '-')).reverse
  if stripped.isEmpty then ['v', 'm'] else stripped

structure SetupTarget where
  socket : List Char
  token : List Char
  name : List Char
  deriving DecidableEq

/-- The targets with the names that were asked for, `index` of them before. -/
def labelled : Nat → List (SetupTarget × List Char) → List SetupTarget
  | _, [] => []
  | index, (target, answer) :: entries =>
    let defaultName := ['v', 'm'] ++ (toString (index + 1)).toList
    { target with name := sanitizeName (Setup.ask answer defaultName) } ::
      labelled (index + 1) entries

/-! ## Deduplication -/

/-- The `Map` of the loop. -/
abbrev Seen := List Char → Option Nat

def Seen.set (seen : Seen) (name : List Char) (count : Nat) : Seen :=
  fun n => if n = name then some count else seen n

def noneSeen : Seen := fun _ => none

def suffixed (name : List Char) (count : Nat) : List Char :=
  name ++ '-' :: (toString (count + 1)).toList

/-- One turn of the loop, which keeps its count under the new name. -/
def dedupStep (seen : Seen) (t : SetupTarget) : SetupTarget × Seen :=
  let count := (seen t.name).getD 0
  let t := if count > 0 then { t with name := suffixed t.name count } else t
  (t, seen.set t.name (count + 1))

def dedupe : Seen → List SetupTarget → List SetupTarget × Seen
  | seen, [] => ([], seen)
  | seen, t :: ts =>
    let (t, seen) := dedupStep seen t
    let (ts, seen) := dedupe seen ts
    (t :: ts, seen)

/-- The targets and their labels, which are asked for where there are several. -/
def namedTargets (entries : List (SetupTarget × List Char)) : List SetupTarget :=
  if entries.length > 1 then (dedupe noneSeen (labelled 0 entries)).1 else entries.map (·.1)

/-! ## Servers -/

structure SetupServer where
  command : List Char
  args : List String
  env : List (String × List Char)

def makeServer (binaryPath : List Char) (sharedEnv : List (String × List Char))
    (target : SetupTarget) : SetupServer :=
  ⟨binaryPath, ["mcp-server"], ("SYSKNIFE_SOCKET", target.socket) :: sharedEnv ++
    if target.token.isEmpty then [] else [("SYSKNIFE_TOKEN", target.token)]⟩

section Servers
variable {β : Type}

local instance chars_lawful : LawfulBEq (List Char) := inferInstance

/-- Setting a property of an object. -/
def setEntry (entries : List (List Char × β)) (key : List Char) (value : β) :
    List (List Char × β) :=
  if key ∈ entries.map Prod.fst then
    entries.map fun entry => if entry.1 = key then (key, value) else entry
  else entries ++ [(key, value)]

def setEntries (entries : List (List Char × β)) (news : List (List Char × β)) :
    List (List Char × β) :=
  news.foldl (fun entries new => setEntry entries new.1 new.2) entries

end Servers

def serverKey (name : List Char) : List Char := "sysknife-".toList ++ name

def mcpServers (binaryPath : List Char) (sharedEnv : List (String × List Char))
    (targets : List SetupTarget) : List (List Char × SetupServer) :=
  match targets with
  | [target] => [("sysknife".toList, makeServer binaryPath sharedEnv target)]
  | targets => setEntries [] (targets.map fun t =>
      (serverKey t.name, makeServer binaryPath sharedEnv t))

/-! ## Series of labels -/

/-- What suffix after suffix makes of a label: `b`, `b-2`, `b-2-3` and so on. -/
def numbered (b : List Char) : Nat → List Char
  | 0 => b
  | n + 1 => suffixed (numbered b n) (n + 1)

def series (b : List Char) (n : Nat) : List (List Char) := (List.range (n + 1)).map (numbered b)

/-- The label `b` is given twice, and the next `n` labels of its series are given. -/
def GivesSeries (labels : List (List Char)) (b : List Char) (n : Nat) : Prop :=
  2 ≤ labels.count b ∧ ∀ k ≤ n, numbered b k ∈ labels

/-- Where a label `b` is given twice, the labels `b`, `b-2`, `b-2-3` and so on, up to the
first that is not given, stand in this order, `b` twice and each other once. -/
def SeriesInOrder (labels : List (List Char)) : Prop :=
  ∀ b n, GivesSeries labels b n → labels.filter (series b n).contains = b :: series b n

/-- The labels give this name, as they stand or with a suffix. -/
def IsTaken (labels : List (List Char)) (name : List Char) : Prop :=
  name ∈ labels ∨ ∃ b n, name = numbered b (n + 1) ∧ GivesSeries labels b n

/-! ### Names with suffixes -/

theorem suffixed_inj {a b : List Char} {m n : Nat} (h : suffixed a m = suffixed b n) :
    a = b ∧ m = n := by
  have hdigits : ∀ k : Nat, '-' ∉ (toString k).toList := by
    intro k hk
    rw [Nat.toString_eq_ofList_toDigits, String.toList_ofList] at hk
    exact absurd (Nat.isDigit_of_mem_toDigits (by decide) (by decide) hk) (by decide)
  obtain ⟨hname, hnumber⟩ := Codec.split_at_last (hdigits _) (hdigits _) h
  have hsame : m + 1 = n + 1 := by
    simp only [Nat.toString_eq_ofList_toDigits, String.toList_ofList] at hnumber
    have hvalue := congrArg IntegerText.value hnumber
    rwa [IntegerText.value_toDigits, IntegerText.value_toDigits] at hvalue
  exact ⟨hname, by omega⟩

theorem numbered_succ_inj {b c : List Char} {m n : Nat}
    (h : numbered b (m + 1) = numbered c (n + 1)) : b = c ∧ m = n := by
  obtain ⟨hname, hnumber⟩ := suffixed_inj h
  obtain rfl : m = n := by omega
  refine ⟨?_, rfl⟩
  clear h hnumber
  induction m with
  | zero => exact hname
  | succ m ih => exact ih (suffixed_inj hname).1

theorem numbered_injective (b : List Char) : Function.Injective (numbered b) := by
  have hlonger : StrictMono fun n => (numbered b n).length := by
    refine strictMono_nat_of_lt_succ fun n => ?_
    simp only [numbered, suffixed, List.length_append, List.length_cons]
    omega
  exact fun m n h => hlonger.injective (congrArg List.length h)

theorem mem_series {b name : List Char} {n : Nat} :
    name ∈ series b n ↔ ∃ k ≤ n, name = numbered b k := by
  simp only [series, List.mem_map, List.mem_range, Nat.lt_succ_iff, eq_comm]

theorem series_succ (b : List Char) (n : Nat) :
    series b (n + 1) = series b n ++ [numbered b (n + 1)] := by
  rw [series, List.range_succ, List.map_append]
  rfl

theorem series_nodup (b : List Char) (n : Nat) : (series b n).Nodup :=
  List.nodup_range.map (numbered_injective b)

section Series
variable {labels : List (List Char)} {b name : List Char} {n : Nat}

theorem GivesSeries.mem (h : GivesSeries labels b n) : b ∈ labels := h.2 0 (Nat.zero_le n)

theorem GivesSeries.mono (h : GivesSeries labels b n) {m : Nat} (hm : m ≤ n) :
    GivesSeries labels b m := ⟨h.1, fun k hk => h.2 k (hk.trans hm)⟩

theorem GivesSeries.concat (h : GivesSeries labels b n) (a : List Char) :
    GivesSeries (labels ++ [a]) b n := by
  refine ⟨?_, fun k hk => List.mem_append_left _ (h.2 k hk)⟩
  rw [List.count_append]
  exact Nat.le_add_right_of_le h.1

theorem givesSeries_zero (h : 2 ≤ labels.count b) : GivesSeries labels b 0 := by
  refine ⟨h, fun k hk => ?_⟩
  obtain rfl : k = 0 := by omega
  have hpos : 0 < labels.count b := by omega
  exact List.count_pos_iff.mp hpos

/-- The series is among the labels, with `b` twice. -/
theorem GivesSeries.count_le (h : GivesSeries labels b n) {k : Nat} (hk : k ≤ n) :
    (b :: series b n).count (numbered b k) ≤ labels.count (numbered b k) := by
  have hmem : numbered b k ∈ series b n := mem_series.mpr ⟨k, hk, rfl⟩
  rw [List.count_cons, List.count_eq_one_of_mem (series_nodup b n) hmem]
  cases k with
  | zero =>
    have hsame : (b == numbered b 0) = true := beq_self_eq_true b
    rw [if_pos hsame]
    exact h.1
  | succ k =>
    have hne : b ≠ numbered b (k + 1) := by
      intro heq
      have hzero : 0 = k + 1 := numbered_injective b heq
      omega
    rw [if_neg (by simpa using hne)]
    exact List.count_pos_iff.mpr (h.2 _ hk)

/-- What is in order stays so without its end. -/
theorem SeriesInOrder.front {a : List Char} (h : SeriesInOrder (labels ++ [a])) :
    SeriesInOrder labels := by
  intro b n hgives
  have hall := h b n (hgives.concat a)
  rw [List.filter_append] at hall
  by_cases ha : a ∈ series b n
  · obtain ⟨k, hk, rfl⟩ := mem_series.mp ha
    have hcount := congrArg (List.count (numbered b k)) hall
    have hle := hgives.count_le hk
    rw [List.count_append, List.count_filter (by simpa using ha)] at hcount
    rw [List.filter_cons_of_pos (by simpa using ha), List.filter_nil,
      List.count_singleton_self] at hcount
    omega
  · simpa [ha] using hall

/-! ### A new label -/

section New
variable {a : List Char} (hnew : ¬ IsTaken labels a)
include hnew

theorem GivesSeries.of_new (h : GivesSeries (labels ++ [a]) b n) : GivesSeries labels b n := by
  have hmem : a ∉ labels := fun hin => hnew (Or.inl hin)
  have htwice : 2 ≤ labels.count b := by
    have hcount := h.1
    rw [List.count_append, List.count_singleton] at hcount
    by_cases hb : a = b
    · rw [← hb, List.count_eq_zero_of_not_mem hmem] at hcount
      split at hcount <;> omega
    · rw [if_neg (by simpa using hb)] at hcount
      exact hcount
  induction n with
  | zero => exact givesSeries_zero htwice
  | succ n ih =>
    have hbefore := ih ⟨h.1, fun k hk => h.2 k (by omega)⟩
    refine ⟨htwice, fun k hk => ?_⟩
    rcases List.mem_append.mp (h.2 k hk) with hin | hin
    · exact hin
    · by_cases hlast : k = n + 1
      · rw [hlast, List.mem_singleton] at hin
        exact absurd (Or.inr ⟨b, n, hin.symm, hbefore⟩) hnew
      · exact hbefore.2 k (by omega)

theorem isTaken_new : IsTaken (labels ++ [a]) name ↔ IsTaken labels name ∨ name = a := by
  constructor
  · rintro (hin | ⟨b, n, rfl, hgives⟩)
    · rcases List.mem_append.mp hin with hin | hin
      · exact Or.inl (Or.inl hin)
      · exact Or.inr (List.mem_singleton.mp hin)
    · exact Or.inl (Or.inr ⟨b, n, rfl, hgives.of_new hnew⟩)
  · rintro ((hin | ⟨b, n, rfl, hgives⟩) | rfl)
    · exact Or.inl (List.mem_append_left _ hin)
    · exact Or.inr ⟨b, n, rfl, hgives.concat a⟩
    · exact Or.inl (List.mem_append_right _ (List.mem_singleton_self _))

theorem SeriesInOrder.new (h : SeriesInOrder labels) : SeriesInOrder (labels ++ [a]) := by
  intro b n hgives
  have hbefore := hgives.of_new hnew
  have ha : a ∉ series b n := by
    intro hin
    obtain ⟨k, hk, rfl⟩ := mem_series.mp hin
    exact hnew (Or.inl (hbefore.2 k hk))
  rw [List.filter_append, h b n hbefore]
  simp [ha]

end New

/-! ### A label that is taken -/

/-- The name `numbered b n` is there, and no other suffix has made it. -/
def HasName (labels : List (List Char)) (b : List Char) : Nat → Prop
  | 0 => b ∈ labels ∧ ∀ c n, b = numbered c (n + 1) → ¬ GivesSeries labels c n
  | n + 1 => GivesSeries labels b n

theorem IsTaken.exists_name (h : IsTaken labels name) :
    ∃ b n, name = numbered b n ∧ HasName labels b n := by
  by_cases hmade : ∃ b n, name = numbered b (n + 1) ∧ GivesSeries labels b n
  · obtain ⟨b, n, hname, hgives⟩ := hmade
    exact ⟨b, n + 1, hname, hgives⟩
  · refine ⟨name, 0, rfl, h.resolve_right hmade, fun c n hname hgives => hmade ?_⟩
    exact ⟨c, n, hname, hgives⟩

section Taken
variable (hname : HasName labels b n)
include hname

theorem HasName.isTaken : IsTaken labels (numbered b n) := by
  cases n with
  | zero => exact Or.inl hname.1
  | succ n => exact Or.inr ⟨b, n, rfl, hname⟩

/-- The next label makes the next name of the series. -/
theorem HasName.givesSeries : GivesSeries (labels ++ [numbered b n]) b n := by
  cases n with
  | zero =>
    refine givesSeries_zero ?_
    have hone : 1 ≤ labels.count b := List.count_pos_iff.mpr hname.1
    rw [List.count_append, numbered, List.count_singleton_self]
    omega
  | succ n =>
    have hgives : GivesSeries labels b n := hname
    refine ⟨(hgives.concat _).1, fun k hk => ?_⟩
    by_cases hlast : k = n + 1
    · rw [hlast]
      exact List.mem_append_right _ (List.mem_singleton_self _)
    · exact List.mem_append_left _ (hgives.2 k (by omega))

/-- In front of a series that is given, its next name is not new. -/
theorem HasName.not_mem_series (hfree : ¬ IsTaken labels (numbered b (n + 1))) {c : List Char}
    {m : Nat} (hgives : GivesSeries labels c m) : numbered b n ∉ series c m := by
  intro hin
  obtain ⟨k, hk, hsame⟩ := mem_series.mp hin
  refine hfree (Or.inr ⟨b, n, rfl, ?_⟩)
  cases n with
  | zero =>
    cases k with
    | zero =>
      obtain rfl : b = c := hsame
      exact hgives.mono (Nat.zero_le m)
    | succ k => exact absurd (hgives.mono (by omega)) (hname.2 c k hsame)
  | succ n =>
    have hbefore : GivesSeries labels b n := hname
    refine ⟨hbefore.1, fun j hj => ?_⟩
    by_cases hlast : j = n + 1
    · rw [hlast, hsame]
      exact hgives.2 k hk
    · exact hbefore.2 j (by omega)

/-- A label that is among the labels already has its name as it stands. -/
theorem HasName.eq_zero (hfree : ¬ IsTaken labels (numbered b (n + 1)))
    (hin : numbered b n ∈ labels) : n = 0 := by
  by_contra hne
  obtain ⟨n, rfl⟩ := Nat.exists_eq_succ_of_ne_zero hne
  have hbefore : GivesSeries labels b n := hname
  refine hfree (Or.inr ⟨b, n + 1, rfl, hbefore.1, fun k hk => ?_⟩)
  by_cases hlast : k = n + 1
  · rw [hlast]
    exact hin
  · exact hbefore.2 k (by omega)

/-- No other series comes up. -/
theorem HasName.givesSeries_cases (hfree : ¬ IsTaken labels (numbered b (n + 1))) {c : List Char}
    {m : Nat} (hgives : GivesSeries (labels ++ [numbered b n]) c m) :
    GivesSeries labels c m ∨ c = b ∧ m = n := by
  induction m with
  | zero =>
    by_cases htwice : 2 ≤ labels.count c
    · exact Or.inl (givesSeries_zero htwice)
    · have hcount := hgives.1
      rw [List.count_append, List.count_singleton] at hcount
      obtain ⟨hlabel, hin⟩ : numbered b n = c ∧ 0 < labels.count c := by
        split at hcount
        · next hsame => exact ⟨by simpa using hsame, by omega⟩
        · omega
      subst hlabel
      obtain rfl := hname.eq_zero hfree (List.count_pos_iff.mp hin)
      exact Or.inr ⟨rfl, rfl⟩
  | succ m ih =>
    have hlabel := hgives.2 (m + 1) (le_refl _)
    rw [List.mem_append, List.mem_singleton] at hlabel
    rcases ih (hgives.mono (Nat.le_succ m)) with hbefore | ⟨rfl, rfl⟩
    · rcases hlabel with hin | hsame
      · refine Or.inl ⟨hbefore.1, fun k hk => ?_⟩
        by_cases hlast : k = m + 1
        · rw [hlast]
          exact hin
        · exact hbefore.2 k (by omega)
      · cases n with
        | zero => exact absurd hbefore (hname.2 c m hsame.symm)
        | succ n =>
          obtain ⟨rfl, rfl⟩ := numbered_succ_inj hsame
          exact Or.inr ⟨rfl, rfl⟩
    · rcases hlabel with hin | hsame
      · exact absurd (Or.inl hin) hfree
      · exact absurd (numbered_injective c hsame) (Nat.succ_ne_self m)

theorem HasName.isTaken_concat (hfree : ¬ IsTaken labels (numbered b (n + 1))) :
    IsTaken (labels ++ [numbered b n]) name ↔
      IsTaken labels name ∨ name = numbered b (n + 1) := by
  constructor
  · rintro (hin | ⟨c, m, rfl, hgives⟩)
    · rcases List.mem_append.mp hin with hin | hin
      · exact Or.inl (Or.inl hin)
      · rw [List.mem_singleton.mp hin]
        exact Or.inl hname.isTaken
    · rcases hname.givesSeries_cases hfree hgives with hbefore | ⟨rfl, rfl⟩
      · exact Or.inl (Or.inr ⟨c, m, rfl, hbefore⟩)
      · exact Or.inr rfl
  · rintro ((hin | ⟨c, m, rfl, hgives⟩) | rfl)
    · exact Or.inl (List.mem_append_left _ hin)
    · exact Or.inr ⟨c, m, rfl, hgives.concat _⟩
    · exact Or.inr ⟨b, n, rfl, hname.givesSeries⟩

/-- The labels stay in order exactly where the next name of the series is new. -/
theorem HasName.seriesInOrder_iff (h : SeriesInOrder labels) :
    SeriesInOrder (labels ++ [numbered b n]) ↔ ¬ IsTaken labels (numbered b (n + 1)) := by
  constructor
  · rintro hall (hin | ⟨c, m, hsame, hgives⟩)
    · -- the series would end with the label before its last one
      have hlonger : GivesSeries (labels ++ [numbered b n]) b (n + 1) := by
        refine ⟨hname.givesSeries.1, fun k hk => ?_⟩
        by_cases hlast : k = n + 1
        · rw [hlast]
          exact List.mem_append_left _ hin
        · exact hname.givesSeries.2 k (by omega)
      have hlabel : numbered b n ∈ series b (n + 1) := mem_series.mpr ⟨n, by omega, rfl⟩
      have hfilter := congrArg List.getLast? (hall b (n + 1) hlonger)
      have hlast : b :: series b (n + 1) = (b :: series b n) ++ [numbered b (n + 1)] := by
        rw [series_succ, List.cons_append]
      rw [List.filter_append, hlast, List.getLast?_concat,
        List.filter_cons_of_pos (by simpa using hlabel), List.filter_nil, List.getLast?_concat,
        Option.some.injEq] at hfilter
      exact absurd (numbered_injective b hfilter) (by omega)
    · obtain ⟨rfl, rfl⟩ := numbered_succ_inj hsame
      have hlabel : numbered b n ∈ series b n := mem_series.mpr ⟨n, le_refl n, rfl⟩
      have hfilter := hall b n (hgives.concat _)
      rw [List.filter_append, h b n hgives,
        List.filter_cons_of_pos (by simpa using hlabel)] at hfilter
      have hlength := congrArg List.length hfilter
      simp at hlength
  · intro hfree c m hgives
    rcases hname.givesSeries_cases hfree hgives with hbefore | ⟨rfl, rfl⟩
    · have hout := hname.not_mem_series hfree hbefore
      rw [List.filter_append, h c m hbefore]
      simp [hout]
    · have hlabel : numbered c m ∈ series c m := mem_series.mpr ⟨m, le_refl m, rfl⟩
      rw [List.filter_append, List.filter_cons_of_pos (by simpa using hlabel), List.filter_nil]
      cases m with
      | zero =>
        have hone : labels.count c = 1 := by
          have hpos : 0 < labels.count c := List.count_pos_iff.mpr hname.1
          have hfew : ¬ 2 ≤ labels.count c := fun htwice =>
            hfree (Or.inr ⟨c, 0, rfl, givesSeries_zero htwice⟩)
          omega
        have hsingle : labels.filter (series c 0).contains = labels.filter (· == c) := by
          refine List.filter_congr fun x _ => ?_
          rw [Bool.eq_iff_iff]
          simp [mem_series, numbered]
        rw [hsingle, List.filter_beq, hone]
        rfl
      | succ m =>
        have hbefore : GivesSeries labels c m := hname
        have hnot : numbered c (m + 1) ∉ labels := fun hin =>
          absurd (hname.eq_zero hfree hin) (Nat.succ_ne_zero m)
        have hsame : labels.filter (series c (m + 1)).contains =
            labels.filter (series c m).contains := by
          refine List.filter_congr fun x hx => ?_
          have hne : x ≠ numbered c (m + 1) := by
            rintro rfl
            exact hnot hx
          simp [series_succ, hne]
        rw [hsame, h c m hbefore, series_succ, List.cons_append]

end Taken

end Series

/-! ## One server for each target -/

section Servers
variable {β : Type}

theorem setEntry_keys (entries : List (List Char × β)) (key : List Char) (value : β) :
    (setEntry entries key value).map Prod.fst =
      if key ∈ entries.map Prod.fst then entries.map Prod.fst
      else entries.map Prod.fst ++ [key] := by
  rw [setEntry]
  by_cases h : key ∈ entries.map Prod.fst
  · rw [if_pos h, if_pos h, List.map_map]
    apply List.map_congr_left
    intro entry _
    by_cases hkey : entry.1 = key
    · simp [hkey]
    · simp [hkey]
  · rw [if_neg h, if_neg h, List.map_append]
    rfl

theorem setEntries_length_le (entries news : List (List Char × β)) :
    (setEntries entries news).length ≤ entries.length + news.length := by
  induction news generalizing entries with
  | nil => exact le_refl _
  | cons new news ih =>
    have hstep : (setEntry entries new.1 new.2).length ≤ entries.length + 1 := by
      rw [← List.length_map Prod.fst, setEntry_keys, ← List.length_map Prod.fst]
      split
      · exact Nat.le_succ _
      · rw [List.length_append]
        rfl
    have hrest := ih (setEntry entries new.1 new.2)
    rw [setEntries, List.foldl_cons, ← setEntries, List.length_cons]
    omega

/-- No entry is lost exactly where the keys are distinct. -/
theorem setEntries_length_iff {entries : List (List Char × β)}
    (hentries : (entries.map Prod.fst).Nodup) (news : List (List Char × β)) :
    (setEntries entries news).length = entries.length + news.length ↔
      (entries.map Prod.fst ++ news.map Prod.fst).Nodup := by
  induction news generalizing entries with
  | nil => simpa [setEntries] using hentries
  | cons new news ih =>
    have hkeys := setEntry_keys entries new.1 new.2
    have hlength : (setEntry entries new.1 new.2).length =
        ((setEntry entries new.1 new.2).map Prod.fst).length := (List.length_map _).symm
    have hentriesLength : entries.length = (entries.map Prod.fst).length :=
      (List.length_map _).symm
    rw [setEntries, List.foldl_cons, ← setEntries, List.length_cons, List.map_cons]
    by_cases h : new.1 ∈ entries.map Prod.fst
    · rw [if_pos h] at hkeys
      rw [hkeys] at hlength
      have hbound := setEntries_length_le (setEntry entries new.1 new.2) news
      refine ⟨fun hall => by omega, fun hnodup => ?_⟩
      have hdisjoint := (List.nodup_append'.mp hnodup).2.2
      exact absurd (List.mem_cons_self ..) (hdisjoint h)
    · rw [if_neg h] at hkeys
      rw [hkeys, List.length_append, List.length_singleton] at hlength
      have hnodup : ((setEntry entries new.1 new.2).map Prod.fst).Nodup := by
        rw [hkeys, List.nodup_append']
        refine ⟨hentries, List.nodup_singleton _, ?_⟩
        intro key hkey hlast
        rw [List.mem_singleton.mp hlast] at hkey
        exact h hkey
      have hrest := ih hnodup
      rw [hkeys, List.append_assoc, List.singleton_append] at hrest
      rw [← hrest]
      constructor
      · intro hall
        omega
      · intro hall
        omega

end Servers

theorem mcpServers_length_iff (binaryPath : List Char) (sharedEnv : List (String × List Char))
    (targets : List SetupTarget) :
    (mcpServers binaryPath sharedEnv targets).length = targets.length ↔
      (targets.map SetupTarget.name).Nodup := by
  have hkeys : (targets.map fun t => (serverKey t.name, makeServer binaryPath sharedEnv t)).map
      Prod.fst = (targets.map SetupTarget.name).map serverKey := by
    simp
  have hinjective : Function.Injective serverKey := List.append_right_injective _
  have hempty : (([] : List (List Char × SetupServer)).map Prod.fst).Nodup := List.nodup_nil
  have hmany := setEntries_length_iff hempty
    (targets.map fun t => (serverKey t.name, makeServer binaryPath sharedEnv t))
  rw [hkeys, List.map_nil, List.nil_append, List.nodup_map_iff hinjective, List.length_nil,
    Nat.zero_add, List.length_map] at hmany
  match targets with
  | [] => exact hmany
  | [target] => simp [mcpServers]
  | first :: second :: rest => exact hmany

theorem labelled_length (index : Nat) (entries : List (SetupTarget × List Char)) :
    (labelled index entries).length = entries.length := by
  induction entries generalizing index with
  | nil => rfl
  | cons entry entries ih => rw [labelled, List.length_cons, List.length_cons, ih]

theorem dedupe_length (seen : Seen) (ts : List SetupTarget) :
    (dedupe seen ts).1.length = ts.length := by
  induction ts generalizing seen with
  | nil => rfl
  | cons t ts ih =>
    have hrest := ih (dedupStep seen t).2
    simpa [dedupe] using hrest

/-! ## Distinct names -/

/-- What the loop has made of the labels so far: its names, and the count that it keeps
under each. -/
structure Accounts (labels names : List (List Char)) (seen : Seen) : Prop where
  taken : ∀ name, name ∈ names ↔ IsTaken labels name
  free : ∀ name, ¬ IsTaken labels name → seen name = none
  count : ∀ b n, HasName labels b n → seen (numbered b n) = some (n + 1)

theorem accounts_none : Accounts [] [] noneSeen := by
  refine ⟨fun name => ⟨nofun, ?_⟩, fun _ _ => rfl, ?_⟩
  · rintro (hin | ⟨b, n, -, hgives⟩)
    · cases hin
    · cases hgives.mem
  · intro b n hname
    cases n with
    | zero => cases hname.1
    | succ n => exact absurd (GivesSeries.mem hname) List.not_mem_nil

section Turn
variable {labels names : List (List Char)} {seen : Seen} {t : SetupTarget}

theorem dedupStep_new (h : Accounts labels names seen) (hnew : ¬ IsTaken labels t.name) :
    dedupStep seen t = (t, seen.set t.name 1) := by
  simp [dedupStep, h.free t.name hnew]

theorem dedupStep_taken (h : Accounts labels names seen) {b : List Char} {n : Nat}
    (hname : HasName labels b n) (ht : t.name = numbered b n) :
    dedupStep seen t =
      ({ t with name := numbered b (n + 1) }, seen.set (numbered b (n + 1)) (n + 2)) := by
  have hcount := h.count b n hname
  rw [← ht] at hcount
  simp only [dedupStep, hcount, Option.getD_some, gt_iff_lt, Nat.succ_pos, if_true]
  rw [ht]
  rfl

theorem Accounts.new (h : Accounts labels names seen) (hnew : ¬ IsTaken labels t.name) :
    Accounts (labels ++ [t.name]) (names ++ [t.name]) (seen.set t.name 1) := by
  refine ⟨fun name => ?_, fun name hfree => ?_, fun b n hname => ?_⟩
  · rw [List.mem_append, List.mem_singleton, h.taken, isTaken_new hnew]
  · rw [isTaken_new hnew, not_or] at hfree
    rw [Seen.set, if_neg hfree.2]
    exact h.free name hfree.1
  · by_cases hsame : numbered b n = t.name
    · have hzero : n = 0 := by
        by_contra hne
        obtain ⟨n, rfl⟩ := Nat.exists_eq_succ_of_ne_zero hne
        exact hnew (Or.inr ⟨b, n, hsame.symm, GivesSeries.of_new hnew hname⟩)
      rw [Seen.set, if_pos hsame, hzero]
    · rw [Seen.set, if_neg hsame]
      refine h.count b n ?_
      cases n with
      | zero =>
        refine ⟨?_, fun c m hc hgives => hname.2 c m hc (hgives.concat _)⟩
        simpa [show b ≠ t.name from hsame] using hname.1
      | succ n => exact GivesSeries.of_new hnew hname

theorem Accounts.repeat (h : Accounts labels names seen) {b : List Char} {n : Nat}
    (hname : HasName labels b n) (hfree : ¬ IsTaken labels (numbered b (n + 1))) :
    Accounts (labels ++ [numbered b n]) (names ++ [numbered b (n + 1)])
      (seen.set (numbered b (n + 1)) (n + 2)) := by
  refine ⟨fun name => ?_, fun name hout => ?_, fun c m hother => ?_⟩
  · rw [List.mem_append, List.mem_singleton, h.taken, hname.isTaken_concat hfree]
  · rw [hname.isTaken_concat hfree, not_or] at hout
    rw [Seen.set, if_neg hout.2]
    exact h.free name hout.1
  · by_cases hsame : numbered c m = numbered b (n + 1)
    · rw [Seen.set, if_pos hsame]
      cases m with
      | zero => exact absurd hname.givesSeries (hother.2 b n hsame)
      | succ m => rw [(numbered_succ_inj hsame).2]
    · rw [Seen.set, if_neg hsame]
      refine h.count c m ?_
      cases m with
      | zero =>
        refine ⟨?_, fun d k hd hgives => hother.2 d k hd (hgives.concat _)⟩
        rcases List.mem_append.mp hother.1 with hin | hin
        · exact hin
        · rw [List.mem_singleton] at hin
          cases n with
          | zero =>
            rw [hin]
            exact hname.1
          | succ n => exact absurd (GivesSeries.concat hname _) (hother.2 b n hin)
      | succ m =>
        rcases hname.givesSeries_cases hfree hother with hbefore | ⟨rfl, rfl⟩
        · exact hbefore
        · exact absurd rfl hsame

end Turn

theorem dedupe_concat (seen : Seen) (ts : List SetupTarget) (t : SetupTarget) :
    dedupe seen (ts ++ [t]) =
      ((dedupe seen ts).1 ++ [(dedupStep (dedupe seen ts).2 t).1],
        (dedupStep (dedupe seen ts).2 t).2) := by
  induction ts generalizing seen with
  | nil => rfl
  | cons u ts ih => simp [dedupe, ih]

/-- The names are distinct exactly where the series of labels are in order, and the map has
then counted what it was to count. -/
theorem dedupe_spec (ts : List SetupTarget) :
    (((dedupe noneSeen ts).1.map SetupTarget.name).Nodup ↔
        SeriesInOrder (ts.map SetupTarget.name)) ∧
      (SeriesInOrder (ts.map SetupTarget.name) →
        Accounts (ts.map SetupTarget.name) ((dedupe noneSeen ts).1.map SetupTarget.name)
          (dedupe noneSeen ts).2) := by
  induction ts using List.reverseRecOn with
  | nil =>
    have horder : SeriesInOrder [] := fun b n hgives => absurd hgives.mem List.not_mem_nil
    exact ⟨iff_of_true List.nodup_nil horder, fun _ => accounts_none⟩
  | append_singleton ts t ih =>
    obtain ⟨hnodup, haccounts⟩ := ih
    rw [dedupe_concat, List.map_append, List.map_append, List.map_singleton, List.map_singleton]
    by_cases horder : SeriesInOrder (ts.map SetupTarget.name)
    · have hbefore := haccounts horder
      have hdistinct := hnodup.mpr horder
      have hlast : ∀ name, (((dedupe noneSeen ts).1.map SetupTarget.name) ++ [name]).Nodup ↔
          ¬ IsTaken (ts.map SetupTarget.name) name := by
        intro name
        rw [← hbefore.taken, List.nodup_append']
        simp [hdistinct]
      by_cases hnew : IsTaken (ts.map SetupTarget.name) t.name
      · obtain ⟨b, n, hsame, hname⟩ := hnew.exists_name
        rw [dedupStep_taken hbefore hname hsame, hsame, hlast, hname.seriesInOrder_iff horder]
        refine ⟨Iff.rfl, fun hall => ?_⟩
        exact hbefore.repeat hname hall
      · rw [dedupStep_new hbefore hnew, hlast]
        exact ⟨iff_of_true hnew (horder.new hnew), fun _ => hbefore.new hnew⟩
    · have hnot : ¬ SeriesInOrder (ts.map SetupTarget.name ++ [t.name]) := fun h => horder h.front
      refine ⟨iff_of_false (fun h => horder (hnodup.mp ?_)) hnot, fun h => absurd h hnot⟩
      exact (List.nodup_append'.mp h).1

/-- The names are distinct, and every target has its server, exactly where the series that
the labels give are in order. -/
theorem setup_names_distinct_iff (binaryPath : List Char) (sharedEnv : List (String × List Char))
    (entries : List (SetupTarget × List Char)) :
    (((namedTargets entries).map SetupTarget.name).Nodup ∧
        (mcpServers binaryPath sharedEnv (namedTargets entries)).length = entries.length) ↔
      SeriesInOrder ((labelled 0 entries).map SetupTarget.name) := by
  have hlength : (namedTargets entries).length = entries.length := by
    rw [namedTargets]
    split
    · rw [dedupe_length, labelled_length]
    · rw [List.length_map]
  rw [← hlength, mcpServers_length_iff, and_self]
  by_cases hmany : entries.length > 1
  · rw [namedTargets, if_pos hmany]
    exact (dedupe_spec (labelled 0 entries)).1
  · have horder : SeriesInOrder ((labelled 0 entries).map SetupTarget.name) := by
      intro b n hgives
      have hcount := hgives.1.trans (List.count_le_length)
      rw [List.length_map, labelled_length] at hcount
      omega
    rw [namedTargets, if_neg hmany]
    refine iff_of_true ?_ horder
    match entries with
    | [] => exact List.nodup_nil
    | [entry] => exact List.nodup_singleton _
    | first :: second :: rest => exact absurd (by simp) hmany


/-- Three targets with one label. -/
def sameLabels : List (SetupTarget × List Char) :=
  List.replicate 3 (⟨[], [], []⟩, ['a'])

theorem setup_names_collide : ¬ ∀ (binaryPath : List Char)
    (sharedEnv : List (String × List Char)) (entries : List (SetupTarget × List Char)),
    ((namedTargets entries).map SetupTarget.name).Nodup ∧
      (mcpServers binaryPath sharedEnv (namedTargets entries)).length = entries.length := by
  intro hall
  have hnodup := (hall [] [] sameLabels).1
  exact absurd hnodup (by decide)

end Sysknife
