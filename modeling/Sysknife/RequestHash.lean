import Mathlib.Data.List.Sort
import Mathlib.Data.String.Basic
import Sysknife.Json

/-!
# The request hash

`computeRequestHash` binds an approval to one action name and one parameter
value. The byte string it hashes is compared here up to the order of object
keys, which is all that `canonicalJson` may forget.
-/

namespace Sysknife

open Codec

mutual

/-- `canonical_json`: keys in sorted order at every depth. -/
def canonicalJson : Json → List Char
  | .object map =>
      let values := canonicalMembers map
      let keys := (map.map Prod.fst).insertionSort (· ≤ ·)
      let pairs := keys.map fun k => jsonString k ++ ':' :: (values.lookup k).getD []
      '{' :: (joinWith ',' pairs ++ ['}'])
  | .array arr => '[' :: (joinWith ',' (canonicalItems arr) ++ [']'])
  | v => compact v

def canonicalItems : List Json → List (List Char)
  | [] => []
  | v :: rest => canonicalJson v :: canonicalItems rest

def canonicalMembers : List (String × Json) → List (String × List Char)
  | [] => []
  | (k, v) :: rest => (k, canonicalJson v) :: canonicalMembers rest

end

/-- The bytes `compute_request_hash` feeds to SHA-256. -/
def requestHashInput (actionName : String) (params : Json) : List UInt8 :=
  utf8 actionName ++ utf8 "\x00" ++ utf8 (String.ofList (canonicalJson params))

def computeRequestHash (crypto : Crypto) (actionName : String) (params : Json) : String :=
  hexEncode (crypto.sha256 (requestHashInput actionName params))

/-! ## Values up to key order -/

mutual

/-- Every object lists each of its keys once. -/
def UniqueKeys : Json → Prop
  | .object fields => (fields.map Prod.fst).Nodup ∧ UniqueKeysMembers fields
  | .array items => UniqueKeysItems items
  | _ => True

def UniqueKeysItems : List Json → Prop
  | [] => True
  | v :: rest => UniqueKeys v ∧ UniqueKeysItems rest

def UniqueKeysMembers : List (String × Json) → Prop
  | [] => True
  | (_, v) :: rest => UniqueKeys v ∧ UniqueKeysMembers rest

end

/-- A `serde_json::Value`: its maps hold a key once. -/
def JsonValue := { v : Json // UniqueKeys v }

mutual

/-- Equality of values up to the order of object members at every depth. -/
def SameValue : Json → Json → Prop
  | .null, .null => True
  | .bool a, .bool b => a = b
  | .number m, .number n => m = n
  | .string s, .string t => s = t
  | .array xs, .array ys => SameItems xs ys
  | .object fs, .object gs => fs.length = gs.length ∧ SameMembers fs gs
  | _, _ => False

/-- Array order is significant. -/
def SameItems : List Json → List Json → Prop
  | [], [] => True
  | v :: vs, w :: ws => SameValue v w ∧ SameItems vs ws
  | _, _ => False

/-- Every member of the first list is in the second, under its key. -/
def SameMembers : List (String × Json) → List (String × Json) → Prop
  | [], _ => True
  | (k, v) :: rest, gs => (∃ w, (k, w) ∈ gs ∧ SameValue v w) ∧ SameMembers rest gs

end

theorem uniqueKeysItems_iff {items : List Json} :
    UniqueKeysItems items ↔ ∀ v ∈ items, UniqueKeys v := by
  induction items with
  | nil => simp [UniqueKeysItems]
  | cons v rest ih => simp [UniqueKeysItems, ih]

theorem uniqueKeysMembers_iff {fields : List (String × Json)} :
    UniqueKeysMembers fields ↔ ∀ m ∈ fields, UniqueKeys m.2 := by
  induction fields with
  | nil => simp [UniqueKeysMembers]
  | cons m rest ih => simp only [UniqueKeysMembers, ih, List.forall_mem_cons]

theorem sameMembers_iff {fs gs : List (String × Json)} :
    SameMembers fs gs ↔ ∀ m ∈ fs, ∃ w, (m.1, w) ∈ gs ∧ SameValue m.2 w := by
  induction fs with
  | nil => simp [SameMembers]
  | cons m rest ih => simp only [SameMembers, ih, List.forall_mem_cons]

/-! ## Sorting the keys -/

/-- Members in key order. -/
def sortByKey {α : Type} (fields : List (String × α)) : List (String × α) :=
  fields.insertionSort fun m n => m.1 ≤ n.1

mutual

def sortKeys : Json → Json
  | .object fields => .object (sortByKey (sortKeysMembers fields))
  | .array items => .array (sortKeysItems items)
  | v => v

def sortKeysItems : List Json → List Json
  | [] => []
  | v :: rest => sortKeys v :: sortKeysItems rest

def sortKeysMembers : List (String × Json) → List (String × Json)
  | [] => []
  | (k, v) :: rest => (k, sortKeys v) :: sortKeysMembers rest

end

/-- Apply a function below every key. -/
def mapMember {α β : Type} (f : α → β) (m : String × α) : String × β := (m.1, f m.2)

theorem sortKeysItems_eq_map (items : List Json) : sortKeysItems items = items.map sortKeys := by
  induction items with
  | nil => rfl
  | cons v rest ih => rw [sortKeysItems, ih, List.map_cons]

theorem sortKeysMembers_eq_map (fields : List (String × Json)) :
    sortKeysMembers fields = fields.map (mapMember sortKeys) := by
  induction fields with
  | nil => rfl
  | cons m rest ih => rw [sortKeysMembers, ih, List.map_cons, mapMember]

theorem canonicalItems_eq_map (items : List Json) :
    canonicalItems items = items.map canonicalJson := by
  induction items with
  | nil => rfl
  | cons v rest ih => rw [canonicalItems, ih, List.map_cons]

theorem canonicalMembers_eq_map (fields : List (String × Json)) :
    canonicalMembers fields = fields.map (mapMember canonicalJson) := by
  induction fields with
  | nil => rfl
  | cons m rest ih => rw [canonicalMembers, ih, List.map_cons, mapMember]

section SortByKey
variable {α β : Type}

@[simp] theorem mapMember_fst (f : α → β) (m : String × α) : (mapMember f m).1 = m.1 := rfl

theorem keys_mapMember (f : α → β) (fields : List (String × α)) :
    (fields.map (mapMember f)).map Prod.fst = fields.map Prod.fst := by
  simp [List.map_map, Function.comp_def]

theorem perm_sortByKey (fields : List (String × α)) : (sortByKey fields).Perm fields :=
  List.perm_insertionSort _ _

theorem keys_sortByKey (fields : List (String × α)) :
    (sortByKey fields).map Prod.fst = (fields.map Prod.fst).insertionSort (· ≤ ·) :=
  List.map_insertionSort _ _ _ _ fun _ _ _ _ => Iff.rfl

theorem sortByKey_map (f : α → β) (fields : List (String × α)) :
    sortByKey (fields.map (mapMember f)) = (sortByKey fields).map (mapMember f) :=
  (List.map_insertionSort _ _ (mapMember f) _ fun _ _ _ _ => Iff.rfl).symm

theorem pairwise_sortByKey (fields : List (String × α)) :
    (sortByKey fields).Pairwise fun m n => m.1 ≤ n.1 := by
  have : Std.Total fun m n : String × α => m.1 ≤ n.1 := ⟨fun m n => le_total m.1 n.1⟩
  have : IsTrans (String × α) fun m n => m.1 ≤ n.1 := ⟨fun _ _ _ => le_trans⟩
  exact List.pairwise_insertionSort _ fields

/-- With unique keys, a key has one value. -/
theorem value_unique {fields : List (String × α)} (hu : (fields.map Prod.fst).Nodup)
    {m n : String × α} (hm : m ∈ fields) (hn : n ∈ fields) (hk : m.1 = n.1) : m = n :=
  List.inj_on_of_nodup_map hu hm hn hk

theorem lookup_of_mem {fields : List (String × α)} (hu : (fields.map Prod.fst).Nodup)
    {m : String × α} (hm : m ∈ fields) : fields.lookup m.1 = some m.2 := by
  induction fields with
  | nil => cases hm
  | cons n rest ih =>
    obtain ⟨hnot, hrest⟩ := List.nodup_cons.mp hu
    by_cases hk : m.1 = n.1
    · have hmn := value_unique hu hm List.mem_cons_self hk
      rw [hmn, List.lookup_cons, beq_self_eq_true]
    · have hmr : m ∈ rest := (List.mem_cons.mp hm).resolve_left fun he => hk (by rw [he])
      rw [List.lookup_cons, beq_eq_false_iff_ne.mpr hk]
      exact ih hrest hmr

/-- Member lists with the same members sort to the same list. -/
theorem sortByKey_eq_of_perm {fs gs : List (String × α)} (hu : (fs.map Prod.fst).Nodup)
    (hp : fs.Perm gs) : sortByKey fs = sortByKey gs := by
  refine ((perm_sortByKey fs).trans (hp.trans (perm_sortByKey gs).symm)).eq_of_pairwise ?_
    (pairwise_sortByKey fs) (pairwise_sortByKey gs)
  intro m n hm hn hmn hnm
  have hm' := (perm_sortByKey fs).mem_iff.mp hm
  have hn' := hp.mem_iff.mpr ((perm_sortByKey gs).mem_iff.mp hn)
  exact value_unique hu hm' hn' (le_antisymm hmn hnm)

end SortByKey

/-! ## The canonical form prints the sorted value -/

/-- One object's worth of `canonicalJson`, its members already canonical. -/
theorem sorted_pairs_eq {fields : List (String × Json)} (hu : (fields.map Prod.fst).Nodup) :
    ((fields.map Prod.fst).insertionSort (· ≤ ·)).map
        (fun k => jsonString k ++ ':' :: ((canonicalMembers fields).lookup k).getD [])
      = (sortByKey fields).map fun m => jsonString m.1 ++ ':' :: canonicalJson m.2 := by
  rw [← keys_sortByKey, List.map_map]
  apply List.map_congr_left
  intro m hm
  have hmem : mapMember canonicalJson m ∈ canonicalMembers fields := by
    rw [canonicalMembers_eq_map]
    exact List.mem_map_of_mem ((perm_sortByKey fields).mem_iff.mp hm)
  have hkeys : ((canonicalMembers fields).map Prod.fst).Nodup := by
    rw [canonicalMembers_eq_map, keys_mapMember]
    exact hu
  have hlook := lookup_of_mem hkeys hmem
  simp only [mapMember_fst] at hlook
  simp only [Function.comp, hlook, Option.getD_some, mapMember]

theorem canonicalJson_eq_compact (v : Json) (hv : UniqueKeys v) :
    canonicalJson v = compact (sortKeys v) := by
  induction v using Json.induct with
  | null => rfl
  | bool b => rfl
  | number n => rfl
  | string s => rfl
  | array items ih =>
    have hitems := uniqueKeysItems_iff.mp hv
    have hmap : items.map canonicalJson = items.map fun v => compact (sortKeys v) :=
      List.map_congr_left fun v hm => ih v hm (hitems v hm)
    simp only [canonicalJson, sortKeys, compact, canonicalItems_eq_map, compactItems_eq_map,
      sortKeysItems_eq_map, List.map_map, hmap, Function.comp_def]
  | object fields ih =>
    obtain ⟨hu, hmembers⟩ := hv
    have hmembers := uniqueKeysMembers_iff.mp hmembers
    have hmap : (sortByKey fields).map (fun m => jsonString m.1 ++ ':' :: canonicalJson m.2)
        = (sortByKey fields).map fun m => compactMember (mapMember sortKeys m) := by
      apply List.map_congr_left
      intro m hm
      have hm' := (perm_sortByKey fields).mem_iff.mp hm
      rw [ih m hm' (hmembers m hm'), compactMember, mapMember]
    simp only [canonicalJson, sortKeys, compact, compactMembers_eq_map, sortKeysMembers_eq_map,
      sortByKey_map, List.map_map, sorted_pairs_eq hu, hmap, Function.comp_def]

theorem sameItems_iff {xs ys : List Json}
    (ih : ∀ v ∈ xs, ∀ w ∈ ys, sortKeys v = sortKeys w ↔ SameValue v w) :
    xs.map sortKeys = ys.map sortKeys ↔ SameItems xs ys := by
  induction xs generalizing ys with
  | nil => cases ys <;> simp [SameItems]
  | cons v vs ihl =>
    cases ys with
    | nil => simp [SameItems]
    | cons w ws =>
      have hhead := ih v List.mem_cons_self w List.mem_cons_self
      have htail := ihl fun v hv w hw =>
        ih v (List.mem_cons_of_mem _ hv) w (List.mem_cons_of_mem _ hw)
      simp only [List.map_cons, List.cons.injEq, SameItems, hhead, htail]

/-- Two objects sort to the same value when they have the same members. -/
theorem sorted_members_eq_iff {fs gs : List (String × Json)} (hf : (fs.map Prod.fst).Nodup)
    (ih : ∀ m ∈ fs, ∀ n ∈ gs, sortKeys m.2 = sortKeys n.2 ↔ SameValue m.2 n.2) :
    sortByKey (fs.map (mapMember sortKeys)) = sortByKey (gs.map (mapMember sortKeys))
      ↔ fs.length = gs.length ∧ SameMembers fs gs := by
  have hu : ((fs.map (mapMember sortKeys)).map Prod.fst).Nodup := by rwa [keys_mapMember]
  constructor
  · intro he
    have hp : (fs.map (mapMember sortKeys)).Perm (gs.map (mapMember sortKeys)) :=
      (perm_sortByKey _).symm.trans (he ▸ perm_sortByKey _)
    refine ⟨by simpa using hp.length_eq, sameMembers_iff.mpr fun m hm => ?_⟩
    obtain ⟨n, hn, hnm⟩ := List.mem_map.mp (hp.mem_iff.mp (List.mem_map_of_mem hm))
    obtain ⟨hk, hv⟩ := Prod.mk.inj hnm
    exact ⟨n.2, hk ▸ hn, (ih m hm n hn).mp hv.symm⟩
  · rintro ⟨hlen, hsame⟩
    have hsame := sameMembers_iff.mp hsame
    have hsub : fs.map (mapMember sortKeys) ⊆ gs.map (mapMember sortKeys) := by
      intro p hp
      obtain ⟨m, hm, rfl⟩ := List.mem_map.mp hp
      obtain ⟨w, hw, hmw⟩ := hsame m hm
      have hv := (ih m hm (m.1, w) hw).mpr hmw
      exact List.mem_map.mpr ⟨(m.1, w), hw, by rw [mapMember, mapMember, hv]⟩
    have hp := (List.subperm_of_subset hu.of_map hsub).perm_of_length_le (by simp [hlen])
    exact sortByKey_eq_of_perm hu hp

/-- Sorting keys forgets the key order and nothing else. -/
theorem sortKeys_eq_iff (v w : Json) (hv : UniqueKeys v) (hw : UniqueKeys w) :
    sortKeys v = sortKeys w ↔ SameValue v w := by
  induction v using Json.induct generalizing w with
  | null => cases w <;> simp [sortKeys, SameValue]
  | bool b => cases w <;> simp [sortKeys, SameValue]
  | number n => cases w <;> simp [sortKeys, SameValue]
  | string s => cases w <;> simp [sortKeys, SameValue]
  | array items ih =>
    cases w with
    | array items' =>
      have hx := uniqueKeysItems_iff.mp hv
      have hy := uniqueKeysItems_iff.mp hw
      simp only [sortKeys, SameValue, sortKeysItems_eq_map, Json.array.injEq]
      exact sameItems_iff fun v hv w hw => ih v hv w (hx v hv) (hy w hw)
    | _ => simp [sortKeys, SameValue]
  | object fields ih =>
    cases w with
    | object fields' =>
      have hx := uniqueKeysMembers_iff.mp hv.2
      have hy := uniqueKeysMembers_iff.mp hw.2
      simp only [sortKeys, SameValue, sortKeysMembers_eq_map, Json.object.injEq]
      exact sorted_members_eq_iff hv.1 fun m hm n hn => ih m hm n.2 (hx m hm) (hy n hn)
    | _ => simp [sortKeys, SameValue]

/-! ## The binding -/

theorem canonicalJson_no_nul (v : Json) (hv : UniqueKeys v) : '\x00' ∉ canonicalJson v := by
  intro hm
  rw [canonicalJson_eq_compact v hv] at hm
  exact compact_no_control _ _ hm (by decide)

theorem canonicalJson_eq_iff (v w : JsonValue) :
    canonicalJson v.1 = canonicalJson w.1 ↔ SameValue v.1 w.1 := by
  rw [canonicalJson_eq_compact _ v.2, canonicalJson_eq_compact _ w.2, compact_injective.eq_iff,
    sortKeys_eq_iff _ _ v.2 w.2]

/-- Two requests hash the same bytes exactly when they name the same action and
carry the same parameters up to key order. The separator is found from the end:
a name may hold a NUL, the canonical parameters never do. -/
theorem requestHashInput_eq_iff (a b : String) (v w : JsonValue) :
    requestHashInput a v.1 = requestHashInput b w.1 ↔ a = b ∧ SameValue v.1 w.1 := by
  rw [← canonicalJson_eq_iff]
  unfold requestHashInput
  rw [← utf8_append, ← utf8_append, ← utf8_append, ← utf8_append, utf8_injective.eq_iff]
  constructor
  · intro he
    have ht := congrArg String.toList he
    simp only [String.toList_append, String.toList_ofList, List.append_assoc] at ht
    obtain ⟨hab, hvw⟩ := split_at_last (canonicalJson_no_nul _ v.2) (canonicalJson_no_nul _ w.2) ht
    exact ⟨String.toList_inj.mp hab, hvw⟩
  · rintro ⟨rfl, hvw⟩
    rw [hvw]

end Sysknife
