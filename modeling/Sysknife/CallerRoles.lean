import Mathlib.Order.Bounds.Basic
import Sysknife.Lib.IntegerText
import Sysknife.Lib.LastWrite
import Sysknife.Lib.Utf8
import Sysknife.Lib.Words
import Sysknife.Prefs
import Sysknife.TextSplit
import Sysknife.Types

/-!
# The role of a caller

The kernel says who is on the other end of the socket: a process, its primary group and,
in its status, the groups it also has. `/etc/group` gives the numbers their names, and the
names decide the role. The role is compared with the highest one that a name in that file
grants.
-/

namespace Sysknife

open IntegerText (parseUnsigned)

/-! ## The roles of groups -/

theorem roleRank_injective : Function.Injective roleRank := by
  intro a b h
  cases a <;> cases b <;> first | rfl | cases h

instance : LinearOrder CallerRole := LinearOrder.lift' roleRank roleRank_injective

def roleForGroup : String → CallerRole
  | "sysknife-boot" => .boot
  | "sysknife-admin" | "wheel" => .admin
  | "sysknife-dev" => .dev
  | "sysknife-observer" => .observer
  | _ => .observer

def higherRole (current candidate : CallerRole) : CallerRole :=
  if roleRank candidate > roleRank current then candidate else current

def highestRoleFromGroups (groups : List String) : CallerRole :=
  (groups.map roleForGroup).foldl higherRole .observer

/-! ## The files -/

/-- `std::fs::read_to_string`. -/
def readToString (file : Option (List UInt8)) : Option (List Char) := file.bind Utf8.decode

/-- One line of `/etc/group`: the gid in its third field, and the name. -/
def groupEntry (line : List Char) : Option (Nat × String) :=
  match splitn 4 ':' line with
  | name :: _ :: gidStr :: _ =>
    (parseUnsigned (2 ^ 32) gidStr).map fun gid => (gid, String.ofList name)
  | _ => none

def readGidMap (file : Option (List UInt8)) : Nat → Option String :=
  match readToString file with
  | none => fun _ => none
  | some content => LastWrite.build groupEntry (lines content)

def groupsKey : List Char := "Groups:".toList

/-- The rounds of `trim_start_matches`. -/
def trimStartFrom (pat : List Char) : Nat → List Char → List Char
  | 0, s => s
  | n + 1, s => if pat.isPrefixOf s then trimStartFrom pat n (s.drop pat.length) else s

def trimStartMatches (pat s : List Char) : List Char := trimStartFrom pat s.length s

/-- The names of the gids in `/proc/{pid}/status`. -/
def groupsForPid (status : Option (List UInt8)) (gidMap : Nat → Option String) : List String :=
  match readToString status with
  | none => []
  | some status =>
    match (lines status).find? fun line => groupsKey.isPrefixOf line with
    | none => []
    | some line =>
      ((TextWords.words isWhitespace (trimStartMatches groupsKey line)).filterMap
        (parseUnsigned (2 ^ 32))).filterMap gidMap

/-- What `peer_cred` says about the other end. -/
structure PeerCred where
  pid : Option Int
  gid : Nat

def resolveCallerRole (peerCred : Except String PeerCred) (groupFile : Option (List UInt8))
    (procStatus : Nat → Option (List UInt8)) : CallerRole :=
  match peerCred with
  | .error _ => .observer
  | .ok cred =>
    match cred.pid with
    | none => .observer
    | some p =>
      if p < 0 then .observer
      else
        let gidMap := readGidMap groupFile
        let groups := groupsForPid (procStatus p.toNat) gidMap
        match gidMap cred.gid with
        | none => highestRoleFromGroups groups
        | some name =>
          highestRoleFromGroups (if groups.contains name then groups else groups ++ [name])

/-! ## The caller -/

/-- The line of the groups as the kernel writes it. -/
def groupsLine (gids : List Nat) : List Char :=
  groupsKey ++ '\t' :: ([' '].intercalate (gids.map (Nat.toDigits 10)) ++ [' '])

/-- A process on the other end. Its status has other lines around the one with its groups;
the first of them has the name that the process gave itself, which may be any bytes. -/
structure Peer where
  pid : Nat
  gid : Nat
  supplementary : List Nat
  front : List UInt8
  back : List UInt8
  gid_lt : gid < 2 ^ 32
  supplementary_lt : ∀ g ∈ supplementary, g < 2 ^ 32
  front_other : ∀ text, Utf8.encode text = front →
    ∀ line ∈ lines (text ++ ['\n']), ¬ groupsKey <+: line

namespace Peer
variable (peer : Peer) (file : List UInt8)

def status : List UInt8 :=
  peer.front ++ 10 :: (Utf8.encode (groupsLine peer.supplementary) ++ 10 :: peer.back)

def procStatus (pid : Nat) : Option (List UInt8) :=
  if pid = peer.pid then some peer.status else none

/-- The role the daemon gives the process when `/etc/group` holds these bytes. -/
def resolvedRole : CallerRole :=
  resolveCallerRole (.ok ⟨some peer.pid, peer.gid⟩) (some file) peer.procStatus

end Peer

/-! ## What the file grants -/

/-- The line gives the gid a name. Its last field may be missing. -/
structure GivesName (line : List Char) (gid : Nat) (name : String) : Prop where
  written : ∃ password gidText rest,
    line = name.toList ++ ':' :: (password ++ ':' :: (gidText ++ rest)) ∧ ':' ∉ name.toList ∧
      ':' ∉ password ∧ ':' ∉ gidText ∧ (rest = [] ∨ ∃ members, rest = ':' :: members) ∧
      parseUnsigned (2 ^ 32) gidText = some gid

/-- The lines of `/etc/group`; U+FFFD stands for what is no text. -/
def groupLines (file : List UInt8) : List (List Char) := lines (Utf8.decodeLossy file)

/-- The last line that gives the gid a name gives it this one. -/
def LastName (file : List UInt8) (gid : Nat) (name : String) : Prop :=
  ∃ front line back, groupLines file = front ++ line :: back ∧ GivesName line gid name ∧
    ∀ later ∈ back, ∀ other, ¬ GivesName later gid other

namespace Peer
variable (peer : Peer) (file : List UInt8)

def Holds (gid : Nat) : Prop := gid = peer.gid ∨ gid ∈ peer.supplementary

/-- The names that `/etc/group` gives to the gids of the process. -/
def grantedNames : Set String :=
  {name | ∃ gid, peer.Holds gid ∧ ∃ line ∈ groupLines file, GivesName line gid name}

/-- The daemon reads a gid: the primary one, or one in a status that is text. -/
def Read (gid : Nat) : Prop :=
  gid = peer.gid ∨ gid ∈ peer.supplementary ∧ Utf8.Valid peer.status

/-- The names that are left: the last one for each gid that is read, in a file that is text. -/
def keptNames : Set String :=
  {name | ∃ gid, peer.Read gid ∧ Utf8.Valid file ∧ LastName file gid name}

end Peer

/-! ## Reading the files -/

theorem groupEntry_eq_some_iff {line : List Char} {gid : Nat} {name : String} :
    groupEntry line = some (gid, name) ↔ GivesName line gid name := by
  constructor
  · intro h
    unfold groupEntry at h
    split at h
    · next first password gidStr rest hsplit =>
      obtain ⟨parsed, hparsed, heq⟩ := Option.map_eq_some_iff.mp h
      cases heq
      rcases split_cases ':' line with hone | ⟨a, s, rfl, ha⟩
      · rw [splitn_last hone] at hsplit
        cases hsplit
      rw [splitn_first ha] at hsplit
      rcases split_cases ':' s with htwo | ⟨b, s, rfl, hb⟩
      · rw [splitn_last htwo] at hsplit
        cases hsplit
      rw [splitn_first hb] at hsplit
      rcases split_cases ':' s with hthree | ⟨c, s, rfl, hc⟩
      · rw [splitn_last hthree] at hsplit
        cases hsplit
        refine ⟨password, gidStr, [], ?_, ?_, hb, hthree, Or.inl rfl, hparsed⟩
        · rw [String.toList_ofList, List.append_nil]
        · rwa [String.toList_ofList]
      · rw [splitn_first hc] at hsplit
        cases hsplit
        refine ⟨password, gidStr, ':' :: s, ?_, ?_, hb, hc, Or.inr ⟨s, rfl⟩, hparsed⟩
        · rw [String.toList_ofList]
        · rwa [String.toList_ofList]
    · cases h
  · intro h
    obtain ⟨password, gidText, rest, rfl, hname, hpassword, hgid, hrest, hparsed⟩ := h
    rw [groupEntry, splitn_first hname, splitn_first hpassword]
    have hentry : (parseUnsigned (2 ^ 32) gidText).map
        (fun gid => (gid, String.ofList name.toList)) = some (gid, name) := by
      rw [hparsed, String.ofList_toList]
      rfl
    rcases hrest with rfl | ⟨members, rfl⟩
    · rw [List.append_nil, splitn_last hgid]
      exact hentry
    · rw [splitn_first hgid]
      exact hentry

theorem isLast_groupEntry_iff {file : List UInt8} {gid : Nat} {name : String} :
    LastWrite.IsLast groupEntry (groupLines file) gid name ↔ LastName file gid name := by
  simp only [LastWrite.IsLast, LastName, ← groupEntry_eq_some_iff, ne_eq]

/-- The map has the last name of each gid, if the file is text. -/
theorem readGidMap_eq_some_iff {file : List UInt8} {gid : Nat} {name : String} :
    readGidMap (some file) gid = some name ↔ Utf8.Valid file ∧ LastName file gid name := by
  have hread : readToString (some file) = Utf8.decode file := rfl
  rw [readGidMap, hread]
  cases hdecode : Utf8.decode file with
  | none =>
    refine iff_of_false nofun ?_
    intro h
    obtain ⟨hvalid, -⟩ := h
    exact Utf8.decode_eq_none.mp hdecode hvalid
  | some content =>
    have hfile := Utf8.decode_eq_some.mp hdecode
    have hlines : groupLines file = lines content := by
      rw [groupLines, ← hfile, Utf8.decodeLossy_encode]
    rw [← isLast_groupEntry_iff, hlines]
    exact LastWrite.build_eq_some_iff.trans (and_iff_right ⟨content, hfile⟩).symm

theorem encodeChar_lineFeed {c : Char} (h : String.utf8EncodeChar c = [10]) : c = '\n' := by
  have hsame : Utf8.encode [c] = Utf8.encode ['\n'] := by
    rw [Utf8.encode_cons, h]
    decide
  have hc := Utf8.decode_eq_some.mpr hsame
  rw [Utf8.decode_eq_some.mpr rfl] at hc
  exact (List.cons.inj (Option.some.inj hc)).1.symm

theorem encode_injective {s t : List Char} (h : Utf8.encode s = Utf8.encode t) : s = t := by
  have hs := Utf8.decode_eq_some.mpr h
  rw [Utf8.decode_eq_some.mpr rfl] at hs
  exact (Option.some.inj hs).symm

theorem digits_unbroken (n : Nat) : TextLines.Unbroken isWhitespace (Nat.toDigits 10 n) :=
  fun _ hc => isWhitespace_of_isDigit (toDigits_digit hc)

/-- The numbers of the line come back. -/
theorem groupsLine_gids {gids : List Nat} (h : ∀ g ∈ gids, g < 2 ^ 32) :
    (TextWords.words isWhitespace (trimStartMatches groupsKey (groupsLine gids))).filterMap
      (parseUnsigned (2 ^ 32)) = gids := by
  have htrim : trimStartMatches groupsKey (groupsLine gids) =
      '\t' :: ([' '].intercalate (gids.map (Nat.toDigits 10)) ++ [' ']) := by
    rw [trimStartMatches]
    rfl
  have hspace : ∀ c ∈ [' '], isWhitespace c = true := List.forall_mem_singleton.mpr (by decide)
  have hwords : ∀ w ∈ gids.map (Nat.toDigits 10), w ≠ [] ∧ TextLines.Unbroken isWhitespace w := by
    intro w hw
    obtain ⟨n, -, rfl⟩ := List.mem_map.mp hw
    exact ⟨Nat.toDigits_ne_nil, digits_unbroken n⟩
  rw [htrim, TextWords.words_cons_space (by decide), TextWords.words_append_spaces hspace,
    TextWords.words_intercalate (by decide) hwords, List.filterMap_map]
  have hback : ∀ g ∈ gids, parseUnsigned (2 ^ 32) (Nat.toDigits 10 g) = some g :=
    fun g hg => IntegerText.parseUnsigned_toDigits (h g hg)
  exact (List.filterMap_congr hback).trans List.filterMap_some

theorem groupsLine_unbroken (gids : List Nat) : '\n' ∉ groupsLine gids := by
  intro hin
  rcases List.mem_append.mp hin with hin | hin
  · exact absurd hin (by decide)
  · rcases List.mem_cons.mp hin with hin | hin
    · exact absurd hin (by decide)
    · rcases List.mem_append.mp hin with hin | hin
      · rcases TextWords.mem_intercalate hin with heq | ⟨w, hw, hin⟩
        · exact absurd heq (by decide)
        · obtain ⟨n, -, rfl⟩ := List.mem_map.mp hw
          exact absurd (toDigits_digit hin) (by decide)
      · exact absurd hin (by decide)

theorem stripReturn_groupsLine (gids : List Nat) :
    stripReturn (groupsLine gids) = groupsLine gids := by
  refine stripReturn_eq_self ?_
  have hend : groupsLine gids =
      (groupsKey ++ '\t' :: [' '].intercalate (gids.map (Nat.toDigits 10))) ++ [' '] := by
    simp [groupsLine]
  rw [hend, List.getLast?_concat]
  decide

namespace Peer
variable (peer : Peer) {gidMap : Nat → Option String}

/-- A status that is text has a text in front of the line with the groups. -/
theorem status_text {text : List Char} (h : Utf8.encode text = peer.status) :
    ∃ front back, Utf8.encode front = peer.front ∧
      text = front ++ '\n' :: (groupsLine peer.supplementary ++ '\n' :: back) := by
  obtain ⟨front, c, rest, rfl, hfront, hc, hrest⟩ := Utf8.encode_eq_append (by decide) h
  obtain ⟨line, d, back, rfl, hline, hd, -⟩ := Utf8.encode_eq_append (by decide) hrest
  rw [encodeChar_lineFeed hc, encodeChar_lineFeed hd, encode_injective hline]
  exact ⟨front, back, hfront, rfl⟩

/-- The groups are read off their line, if the status is text. -/
theorem groupsForPid_status :
    groupsForPid (some peer.status) gidMap =
      if (Utf8.decode peer.status).isSome then peer.supplementary.filterMap gidMap else [] := by
  have hread : readToString (some peer.status) = Utf8.decode peer.status := rfl
  rw [groupsForPid, hread]
  cases hdecode : Utf8.decode peer.status with
  | none => rfl
  | some text =>
    obtain ⟨front, back, hfront, rfl⟩ := peer.status_text (Utf8.decode_eq_some.mp hdecode)
    have hfind : (lines (front ++ '\n' :: (groupsLine peer.supplementary ++ '\n' :: back))).find?
        (fun line => groupsKey.isPrefixOf line) = some (groupsLine peer.supplementary) := by
      have hother : (linesFrom [] (front ++ ['\n'])).find?
          (fun line => groupsKey.isPrefixOf line) = none := by
        rw [List.find?_eq_none]
        intro line hline hkey
        exact peer.front_other front hfront line hline (List.isPrefixOf_iff_prefix.mp hkey)
      have hkey : groupsKey.isPrefixOf (groupsLine peer.supplementary) = true :=
        List.isPrefixOf_iff_prefix.mpr (List.prefix_append ..)
      rw [lines, linesFrom_append, List.find?_append, hother, Option.none_or,
        lines_line (groupsLine_unbroken _), stripReturn_groupsLine, List.find?_cons, hkey]
    dsimp only
    rw [hfind]
    dsimp only
    rw [groupsLine_gids peer.supplementary_lt]
    rfl

/-- The names behind the role: one for each gid that is read and that the map knows. -/
theorem resolvedRole_eq (file : List UInt8) :
    ∃ names : List String, peer.resolvedRole file = highestRoleFromGroups names ∧
      ∀ name, name ∈ names ↔ name ∈ peer.keptNames file := by
  have hpid : ¬ (peer.pid : Int) < 0 := by omega
  have hstatus : peer.procStatus (peer.pid : Int).toNat = some peer.status := if_pos rfl
  have hgroups : ∀ name, name ∈ groupsForPid (some peer.status) (readGidMap (some file)) ↔
      ∃ gid ∈ peer.supplementary,
        Utf8.Valid peer.status ∧ readGidMap (some file) gid = some name := by
    intro name
    rw [groupsForPid_status]
    split_ifs with hvalid
    · rw [Utf8.decode_isSome] at hvalid
      simp [hvalid]
    · rw [Utf8.decode_isSome] at hvalid
      simp [hvalid]
  have hkept : ∀ name, name ∈ peer.keptNames file ↔
      readGidMap (some file) peer.gid = some name ∨
        name ∈ groupsForPid (some peer.status) (readGidMap (some file)) := by
    intro name
    rw [hgroups]
    simp only [keptNames, Read, Set.mem_ofPred_eq, ← readGidMap_eq_some_iff]
    constructor
    · intro h
      rcases h with ⟨gid, rfl | ⟨hgid, hvalid⟩, hname⟩
      · exact Or.inl hname
      · exact Or.inr ⟨gid, hgid, hvalid, hname⟩
    · intro h
      rcases h with hname | ⟨gid, hgid, hvalid, hname⟩
      · exact ⟨peer.gid, Or.inl rfl, hname⟩
      · exact ⟨gid, Or.inr ⟨hgid, hvalid⟩, hname⟩
  rw [resolvedRole, resolveCallerRole]
  dsimp only
  rw [if_neg hpid, hstatus]
  cases hprimary : readGidMap (some file) peer.gid with
  | none =>
    refine ⟨_, rfl, fun name => ?_⟩
    rw [hkept, hprimary]
    simp
  | some primary =>
    refine ⟨_, rfl, fun name => ?_⟩
    rw [hkept, hprimary, Option.some.injEq]
    split_ifs with hmem
    · rw [List.contains_iff_mem] at hmem
      constructor
      · exact Or.inr
      · intro h
        rcases h with rfl | h
        · exact hmem
        · exact h
    · rw [List.mem_append, List.mem_singleton, or_comm, eq_comm]

theorem kept_granted {file : List UInt8} {name : String} (h : name ∈ peer.keptNames file) :
    name ∈ peer.grantedNames file := by
  obtain ⟨gid, hread, -, hlast⟩ := h
  obtain ⟨line, hline, hentry⟩ := (isLast_groupEntry_iff.mpr hlast).written
  exact ⟨gid, hread.imp_right And.left, line, hline, groupEntry_eq_some_iff.mp hentry⟩

end Peer

/-! ## The highest role -/

theorem higherRole_eq_max (a b : CallerRole) : higherRole a b = max a b := by
  cases a <;> cases b <;> decide

theorem foldl_higherRole_isGreatest (roles : List CallerRole) (start : CallerRole) :
    IsGreatest (insert start {role | role ∈ roles}) (roles.foldl higherRole start) := by
  induction roles generalizing start with
  | nil => simp
  | cons role roles ih =>
    obtain ⟨hmem, hbound⟩ := ih (higherRole start role)
    rw [List.foldl_cons]
    have hstart : higherRole start role ≤ roles.foldl higherRole (higherRole start role) :=
      hbound (Set.mem_insert ..)
    rw [higherRole_eq_max, max_le_iff] at hstart
    rw [higherRole_eq_max] at hmem hbound ⊢
    constructor
    · rcases hmem with heq | hmem
      · rw [heq]
        rcases max_choice start role with hmax | hmax
        · rw [hmax]
          exact Set.mem_insert ..
        · rw [hmax]
          exact Or.inr (List.mem_cons_self ..)
      · exact Or.inr (List.mem_cons_of_mem role hmem)
    · intro other h
      rcases h with rfl | hother
      · exact hstart.1
      · rcases List.mem_cons.mp hother with rfl | hother
        · exact hstart.2
        · exact hbound (Or.inr hother)

theorem highestRoleFromGroups_isGreatest (groups : List String) :
    IsGreatest (insert .observer (roleForGroup '' {name | name ∈ groups}))
      (highestRoleFromGroups groups) := by
  have hset : roleForGroup '' {name | name ∈ groups} = {role | role ∈ groups.map roleForGroup} := by
    ext role
    simp
  rw [hset]
  exact foldl_higherRole_isGreatest _ _

theorem observer_le (role : CallerRole) : CallerRole.observer ≤ role := Nat.zero_le _

/-- The role is the highest that a name in the file grants, exactly when every name that
grants more than the least one is made up for by a name that the daemon has kept. -/
theorem resolvedRole_isGreatest_iff (peer : Peer) (file : List UInt8) :
    IsGreatest (insert .observer (roleForGroup '' peer.grantedNames file))
        (peer.resolvedRole file) ↔
      ∀ name ∈ peer.grantedNames file, roleForGroup name = .observer ∨
        ∃ kept ∈ peer.keptNames file, roleForGroup name ≤ roleForGroup kept := by
  obtain ⟨names, hrole, hnames⟩ := peer.resolvedRole_eq file
  have hset : {name | name ∈ names} = peer.keptNames file := Set.ext hnames
  have hgreatest := highestRoleFromGroups_isGreatest names
  rw [← hrole, hset] at hgreatest
  constructor
  · intro h name hname
    have hle := h.2 (Or.inr ⟨name, hname, rfl⟩)
    rcases hgreatest.1 with hleast | ⟨kept, hkept, heq⟩
    · rw [hleast] at hle
      exact Or.inl (le_antisymm hle (observer_le _))
    · rw [← heq] at hle
      exact Or.inr ⟨kept, hkept, hle⟩
  · intro h
    constructor
    · rcases hgreatest.1 with hleast | ⟨kept, hkept, heq⟩
      · exact Or.inl hleast
      · exact Or.inr ⟨kept, peer.kept_granted hkept, heq⟩
    · intro role h
      rcases h with rfl | ⟨name, hname, rfl⟩
      · exact observer_le _
      · rcases h name hname with hleast | ⟨kept, hkept, hle⟩
        · rw [hleast]
          exact observer_le _
        · exact hle.trans (hgreatest.2 (Or.inr ⟨kept, hkept, rfl⟩))

/-- Two groups share a number. -/
def sharedGid : List Char := "sysknife-admin:x:1000:alice\nusers:x:1000:\n".toList

def alice : Peer where
  pid := 42
  gid := 1000
  supplementary := []
  front := Utf8.encode "Name:\tbash".toList
  back := []
  gid_lt := by decide
  supplementary_lt := nofun
  front_other := by
    intro text htext
    rw [encode_injective htext]
    decide

theorem sharedGid_kept {name : String} (h : name ∈ alice.keptNames (Utf8.encode sharedGid)) :
    name = "users" := by
  obtain ⟨gid, hread, hkept⟩ := h
  obtain rfl : gid = 1000 := by
    rcases hread with hgid | ⟨hgid, -⟩
    · exact hgid
    · exact absurd hgid List.not_mem_nil
  have hmap := readGidMap_eq_some_iff.mpr hkept
  have hdecode : readToString (some (Utf8.encode sharedGid)) = some sharedGid := by
    show Utf8.decode (Utf8.encode sharedGid) = some sharedGid
    exact Utf8.decode_eq_some.mpr rfl
  have husers : LastWrite.build groupEntry (lines sharedGid) 1000 = some "users" := by decide
  rw [readGidMap, hdecode] at hmap
  exact (Option.some.inj (husers.symm.trans hmap)).symm

/-- The name that makes her an administrator is lost. -/
theorem resolvedRole_sharedGid : ¬ ∀ (peer : Peer) (file : List UInt8),
    IsGreatest (insert .observer (roleForGroup '' peer.grantedNames file))
      (peer.resolvedRole file) := by
  intro hall
  have hgranted : "sysknife-admin" ∈ alice.grantedNames (Utf8.encode sharedGid) := by
    refine ⟨1000, Or.inl rfl, "sysknife-admin:x:1000:alice".toList, ?_, ?_⟩
    · rw [groupLines, Utf8.decodeLossy_encode]
      decide
    · exact groupEntry_eq_some_iff.mp (by decide)
  have hadmin : CallerRole.admin ≤ alice.resolvedRole (Utf8.encode sharedGid) :=
    (hall alice (Utf8.encode sharedGid)).2 (Or.inr ⟨_, hgranted, rfl⟩)
  obtain ⟨names, hrole, hnames⟩ := alice.resolvedRole_eq (Utf8.encode sharedGid)
  rw [hrole] at hadmin
  rcases (highestRoleFromGroups_isGreatest names).1 with hleast | ⟨name, hname, hleast⟩
  · rw [hleast] at hadmin
    exact absurd hadmin (by decide)
  · rw [sharedGid_kept ((hnames name).mp hname)] at hleast
    rw [← hleast] at hadmin
    exact absurd hadmin (by decide)

end Sysknife
