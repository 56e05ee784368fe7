import Sysknife.ChainInvariant

/-!
# Tamper evidence

A list of rows that somebody made out of the stored chain, without being able
to make new HMAC values, passes the verifier only when it is a prefix of the
chain. Otherwise the verifier stops at the first row that differs.
-/

namespace Sysknife

open HashChain Interaction

variable {crypto : Crypto} {key : AuditKey}

/-- The bytes a row's hash authenticates. -/
def ChainRow.macInput (row : ChainRow) : List UInt8 :=
  Sysknife.macInput row.toChainContent row.prevChainHash

/-- The HMAC does not collide on the rows of a list. -/
def HmacInjectiveOn (crypto : Crypto) (key : AuditKey) (rows : List ChainRow) : Prop :=
  ∀ a ∈ rows, ∀ b ∈ rows,
    crypto.hmacSha256 key.keyBytes a.macInput = crypto.hmacSha256 key.keyBytes b.macInput →
      a.macInput = b.macInput

/-- Every row of `rows'` with a valid hash has the hash of a row of `rows`. -/
def NoForgedHash (crypto : Crypto) (key : AuditKey) (rows rows' : List ChainRow) : Prop :=
  ∀ row ∈ rows', row.chainHash = key.chainHash crypto row.toChainContent row.prevChainHash →
    row.chainHash ∈ rows.map fun r => r.chainHash

/-- Position `i` is the first at which `rows'` differs from `rows`, a missing
approval id counting as an empty one. -/
structure FirstDifference (rows rows' : List ChainRow) (i : Nat) : Prop where
  agree : (rows'.take i).map ChainRow.block = (rows.take i).map ChainRow.block
  differ : rows'[i]?.map ChainRow.block ≠ rows[i]?.map ChainRow.block

/-- Acceptance only looks at the blocks. -/
theorem accepted_iff {lastHash : String} {rows : List ChainRow} :
    Accepted crypto key lastHash rows ↔
      (∀ b ∈ rows.map ChainRow.block, b.content.keyId = key.keyId) ∧
        Linked (key.chainHash crypto) lastHash (rows.map ChainRow.block) := by
  constructor
  · rintro ⟨hkeys, hlinked⟩
    refine ⟨?_, hlinked⟩
    intro b hb
    obtain ⟨row, hrow, rfl⟩ := List.mem_map.mp hb
    exact hkeys row hrow
  · rintro ⟨hkeys, hlinked⟩
    exact ⟨fun row hrow => hkeys row.block (List.mem_map_of_mem hrow), hlinked⟩

theorem collisionFree_of_injective {rows xs ys : List ChainRow}
    (hinj : HmacInjectiveOn crypto key rows) (hx : xs ⊆ rows) (hy : ys ⊆ rows) :
    CollisionFree (key.chainHash crypto) (xs.map ChainRow.block) (ys.map ChainRow.block) := by
  intro b hb c hc he
  obtain ⟨x, hxm, rfl⟩ := List.mem_map.mp hb
  obtain ⟨y, hym, rfl⟩ := List.mem_map.mp hc
  have hmac := hinj x (hx hxm) y (hy hym) (hexEncode_injective he)
  exact macInput_unique hmac

/-- The hashes of a stored chain are pairwise different, and none is empty. -/
theorem hashes_nodup {db : Db} {rows : List ChainRow} (h : Represents crypto key db rows)
    (hinj : HmacInjectiveOn crypto key rows) :
    ("" :: (rows.map ChainRow.block).map Block.tag).Nodup := by
  have hlinked := h.accepted.linked
  refine List.nodup_cons.mpr ⟨?_, ?_⟩
  · intro hmem
    obtain ⟨b, hb, htag⟩ := List.mem_map.mp hmem
    rw [hlinked.tag_eq hb] at htag
    exact hexEncode_ne_empty _ htag
  · refine tags_nodup hlinked (collisionFree_of_injective hinj (List.Subset.refl _)
      (List.Subset.refl _)) (List.Nodup.of_map ChainContent.seq ?_)
    have hseq : ((rows.map ChainRow.block).map Block.content).map ChainContent.seq =
        rows.map fun r => r.seq := by
      simp only [List.map_map]
      rfl
    rw [hseq, h.numbered]
    exact List.nodup_range'

/-- A rewriting that the verifier accepts is a prefix of the chain. -/
theorem accepted_rewriting_prefix {db : Db} {rows rows' : List ChainRow}
    (h : Represents crypto key db rows) (hinj : HmacInjectiveOn crypto key (rows ++ rows'))
    (hforge : NoForgedHash crypto key rows rows') (ha : Accepted crypto key "" rows') :
    rows'.map ChainRow.block <+: rows.map ChainRow.block := by
  have hrows : HmacInjectiveOn crypto key rows := fun a ha b hb =>
    hinj a (List.mem_append_left _ ha) b (List.mem_append_left _ hb)
  refine prefix_of_linked h.accepted.linked ha.linked (hashes_nodup h hrows)
    (collisionFree_of_injective hinj (List.subset_append_right _ _)
      (List.subset_append_left _ _)) ?_
  intro b hb htag
  obtain ⟨row, hrow, rfl⟩ := List.mem_map.mp hb
  have hmem := hforge row hrow htag
  simpa [List.map_map, Function.comp_def, ChainRow.block] using hmem

/-- Lists that do not start alike have a first difference. -/
theorem exists_firstDifference {rows rows' : List ChainRow}
    (h : ¬ rows'.map ChainRow.block <+: rows.map ChainRow.block) :
    ∃ p row q, rows' = p ++ row :: q ∧ FirstDifference rows rows' p.length := by
  induction rows' generalizing rows with
  | nil => exact absurd List.nil_prefix h
  | cons row' rest ih =>
    cases rows with
    | nil => exact ⟨[], row', rest, rfl, rfl, by simp⟩
    | cons row rows =>
      by_cases hhead : row'.block = row.block
      · have hrest : ¬ rest.map ChainRow.block <+: rows.map ChainRow.block := fun hp =>
          h (by simpa [hhead] using hp)
        obtain ⟨p, r, q, rfl, hagree, hdiffer⟩ := ih hrest
        exact ⟨row' :: p, r, q, rfl, by simpa [hhead] using hagree, by simpa using hdiffer⟩
      · exact ⟨[], row', rest, rfl, rfl, by simpa using hhead⟩

/-- The chain a store wrote is tamper evident: whatever else a list of rows is,
unless it is a prefix of the chain the verifier does not call it intact, and
when it calls it broken it names the first row that differs. -/
theorem tamper_evident (crypto : Crypto) (key : AuditKey)
    (inputs : List (Input StoreEnv StoreCall)) (rows rows' : List ChainRow)
    (hrows : fetchChainRows ((storeSystem crypto ⟨some key⟩).run inputs).shared = .ok rows)
    (hinj : HmacInjectiveOn crypto key (rows ++ rows'))
    (hforge : NoForgedHash crypto key rows rows')
    (hnot : ¬ rows'.map ChainRow.block <+: rows.map ChainRow.block) :
    (∀ n, verifyChain crypto key rows' ≠ .intact n) ∧
      ∀ n seq id expected actual,
        verifyChain crypto key rows' = .broken n seq id expected actual →
          ∃ i row, FirstDifference rows rows' i ∧ rows'[i]? = some row ∧ seq = row.seq := by
  obtain ⟨ledger, h⟩ := run_represents crypto key inputs
  obtain rfl : ledger = rows := Except.ok.inj (h.fetchChainRows_eq.symm.trans hrows)
  obtain ⟨p, row, q, rfl, hdiff⟩ := exists_firstDifference hnot
  -- the rows before the first difference are rows of the chain
  have htake : (ledger.take p.length).map ChainRow.block = p.map ChainRow.block := by
    have hagree := hdiff.agree
    rw [List.take_left] at hagree
    exact hagree.symm
  have hp : Accepted crypto key "" p := by
    have hledger := (accepted_iff.mp h.accepted)
    rw [accepted_iff, ← htake]
    rw [List.map_take]
    exact ⟨fun b hb => hledger.1 b (List.mem_of_mem_take hb),
      hledger.2.initial (List.take_prefix _ _)⟩
  have hrow : ¬ Accepted crypto key (tip "" (p.map ChainRow.block)) [row] := by
    intro hone
    have hsub : p ++ [row] ⊆ p ++ row :: q := by simp
    have hall : ledger ++ (p ++ [row]) ⊆ ledger ++ (p ++ row :: q) := by
      intro r hr
      rcases List.mem_append.mp hr with hr | hr
      · exact List.mem_append_left _ hr
      · exact List.mem_append_right _ (hsub hr)
    have hpre : (p ++ [row]).map ChainRow.block <+: ledger.map ChainRow.block :=
      accepted_rewriting_prefix h (fun a ha b hb => hinj a (hall ha) b (hall hb))
        (fun r hr => hforge r (hsub hr)) (Accepted.append.mpr ⟨hp, hone⟩)
    obtain ⟨rest, hrest⟩ := hpre
    apply hdiff.differ
    have hat := congrArg (fun xs => xs[p.length]?) hrest
    simp only [List.map_append, List.append_assoc, List.getElem?_map] at hat
    rw [List.getElem?_append_right (by simp)] at hat
    simpa using hat
  have hverify : verifyChain crypto key (p ++ row :: q) =
      verifyLoop crypto key (tip "" (p.map ChainRow.block)) (0 + p.length) (row :: q) :=
    verifyLoop_accepted hp 0 (row :: q)
  obtain ⟨hintact, hbroken⟩ := verifyLoop_rejected hrow (0 + p.length) q
  rw [hverify]
  refine ⟨hintact, fun n seq id expected actual he => ?_⟩
  exact ⟨p.length, row, hdiff, by simp, hbroken n seq id expected actual he⟩

/-! ## One row, its summary rewritten -/

def sampleKey : AuditKey := ⟨currentKeyId, List.replicate 32 0x42, rfl⟩

def sampleEnv : StoreEnv := ⟨1700000000123, "4f5e1c2a-0000-4000-8000-000000000001", none⟩

def sampleTransaction : NewTransaction where
  requestId := "req-1"
  requestHash := ""
  actionName := "ListServices"
  riskLevel := .low
  approvalId := none
  summary := "List services"
  warnings := []

def sampleContent : ChainContent := newContent sampleEnv 1 sampleTransaction

/-- HMAC-SHA256 under `sampleKey`, of the two messages that occur below. -/
def sampleHmac (message : List UInt8) : Digest :=
  if message = macInput sampleContent "" then
   #v[91, 89, 92, 126, 140, 32, 221, 162, 212, 114, 97, 50, 240, 57, 84, 157,
    102, 250, 173, 28, 151, 81, 226, 93, 190, 213, 61, 101, 191, 100, 84, 162]
  else
   #v[32, 106, 205, 93, 87, 17, 131, 154, 21, 2, 228, 92, 115, 116, 235, 158,
    2, 90, 47, 65, 62, 68, 52, 108, 43, 97, 156, 248, 68, 102, 26, 219]

def sampleCrypto : Crypto := ⟨fun _ => Vector.replicate 32 0, fun _ => sampleHmac⟩

def sampleRow : ChainRow :=
  ⟨sampleContent, "", sampleKey.chainHash sampleCrypto sampleContent ""⟩

def rewrittenRow : ChainRow :=
  { sampleRow with summary := "Nothing to see" }

/-- One `record` call, run to its end. -/
def sampleInputs : List (Input StoreEnv StoreCall) :=
  [.start (.record sampleTransaction), .act 0 sampleEnv]

set_option maxRecDepth 100000 in
theorem tamper_evident_summary :
    ¬ [rewrittenRow].map ChainRow.block <+: [sampleRow].map ChainRow.block ∧
    (∀ n, verifyChain sampleCrypto sampleKey [rewrittenRow] ≠ .intact n) ∧
      ∀ n seq id expected actual,
        verifyChain sampleCrypto sampleKey [rewrittenRow] = .broken n seq id expected actual →
          ∃ i row, FirstDifference [sampleRow] [rewrittenRow] i ∧
            [rewrittenRow][i]? = some row ∧ seq = row.seq := by
  have hrows : fetchChainRows
      ((storeSystem sampleCrypto ⟨some sampleKey⟩).run sampleInputs).shared = .ok [sampleRow] := by
    decide +kernel
  have hinj : HmacInjectiveOn sampleCrypto sampleKey ([sampleRow] ++ [rewrittenRow]) := by
    intro a ha b hb he
    simp only [List.singleton_append, List.mem_cons, List.not_mem_nil, or_false] at ha hb
    rcases ha with rfl | rfl <;> rcases hb with rfl | rfl
    · rfl
    · exact absurd he (by decide +kernel)
    · exact absurd he (by decide +kernel)
    · rfl
  have hforge : NoForgedHash sampleCrypto sampleKey [sampleRow] [rewrittenRow] := by
    intro row hrow _
    obtain rfl := List.mem_singleton.mp hrow
    exact List.mem_singleton.mpr rfl
  have hnot : ¬ [rewrittenRow].map ChainRow.block <+: [sampleRow].map ChainRow.block := by
    rintro ⟨rest, he⟩
    have hsummary := congrArg (fun bs => bs.head?.map fun b => b.content.summary) he
    simp [ChainRow.block, rewrittenRow, sampleRow, sampleContent, newContent, sampleTransaction,
      ChainContent.normalise] at hsummary
  exact ⟨hnot, tamper_evident sampleCrypto sampleKey sampleInputs [sampleRow] [rewrittenRow]
    hrows hinj hforge hnot⟩

end Sysknife
