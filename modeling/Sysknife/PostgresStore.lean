import Sysknife.Lib.TipAppend
import Sysknife.StoreInvariant
import Sysknife.Tamper

/-!
# The Postgres transaction store

`record` and `record_previewed` of the Postgres store, each a database
transaction of single statements under READ COMMITTED: the select of the chain
tip `FOR UPDATE`, the insert, the insert of the preview, the commit. The
statements of any number of calls interleave in any order.
-/

namespace Sysknife

open Calendar TipAppend

/-- `now_iso`. The format string has no seconds: `%.3f` is the fraction alone. -/
def nowIso (now : Clock) : String :=
  let millis := calendarMillis now
  let ofDay := millis % millisPerDay
  String.ofList (dateText millis ++ 'T' :: (digits 2 (ofDay / millisPerHour) ++
    ':' :: (digits 2 (ofDay / 60000 % 60) ++ ':' :: '.' :: (digits 3 (millis % 1000) ++ ['Z']))))

example : nowIso 1700000000123 = "2023-11-14T22:13:.123Z" := by decide

/-- A table holds at most 32 terabytes in pages of 8 kB, each with at most 291
rows. -/
def postgresMaxRows : Nat := 4294967295 * 291

/-- One call of `record`, or of `record_previewed` if there is a preview, with the
UUID and the time it gets. -/
structure PostgresCall where
  key : AuditKey
  transactionId : String
  now : Clock
  transaction : NewTransaction
  preview : Option PreviewEnvelope

namespace PostgresCall
variable (crypto : Crypto) (call : PostgresCall)

/-- The sequence number and the previous hash, from the columns of the tip. -/
def next : Option (Int × String) → Nat × String
  | some (s, h) => ((asU64 s + 1) % 2 ^ 64, h)
  | none => (1, "")

def content (seq : Nat) : ChainContent where
  seq := seq
  keyId := currentKeyId
  transactionId := call.transactionId
  requestId := call.transaction.requestId
  requestHash := call.transaction.requestHash
  actionName := call.transaction.actionName
  riskLevel := call.transaction.riskLevel
  summary := call.transaction.summary
  approvalId := call.transaction.approvalId
  warningsJson := serializeStrings call.transaction.warnings
  createdAt := nowIso call.now

/-- The row that the call inserts when its select has returned `prev`. -/
def row (prev : Option (Int × String)) : Row where
  transactionId := call.transactionId
  requestId := call.transaction.requestId
  requestHash := call.transaction.requestHash
  actionName := call.transaction.actionName
  riskLevel := serializeField call.transaction.riskLevel
  status := serializeField JobState.queued
  approvalId := call.transaction.approvalId
  summary := call.transaction.summary
  warningsJson := serializeStrings call.transaction.warnings
  createdAt := nowIso call.now
  seq := asI64 (next prev).1
  keyId := currentKeyId
  chainHash := call.key.chainHash crypto (call.content (next prev).1) (next prev).2
  prevChainHash := (next prev).2

/-- The row of `transaction_previews`. -/
def previewRow : Option PreviewRow :=
  call.preview.map fun preview => ⟨call.transactionId, preview.serialize⟩

/-- What the call returns after its commit. -/
def record : TransactionRecord where
  transactionId := call.transactionId
  requestId := call.transaction.requestId
  requestHash := call.transaction.requestHash
  actionName := call.transaction.actionName
  riskLevel := call.transaction.riskLevel
  status := .queued
  approvalId := call.transaction.approvalId
  summary := call.transaction.summary
  warnings := call.transaction.warnings

end PostgresCall

/-- The columns that the select of the tip returns. -/
def Row.tipColumns (row : Row) : Int × String := (row.seq, row.chainHash)

/-- A `TEXT` column takes every character but U+0000. -/
def storableText (s : String) : Bool := s.toList.all (· != Char.ofNat 0)

def Row.isStorable (row : Row) : Bool :=
  [row.transactionId, row.requestId, row.requestHash, row.actionName, row.riskLevel, row.status,
    row.summary, row.warningsJson, row.createdAt, row.keyId, row.chainHash,
    row.prevChainHash].all storableText && row.approvalId.all storableText

/-- The inserts of the store. A preview is JSON, in which U+0000 is escaped. -/
def postgres (crypto : Crypto) : Writer Row PreviewRow String PostgresCall where
  id := PostgresCall.transactionId
  pos := Row.seq
  key := Row.transactionId
  sideKey := PreviewRow.transactionId
  row call tip := call.row crypto (tip.map Row.tipColumns)
  side := PostgresCall.previewRow
  storable := Row.isStorable
  capacity := postgresMaxRows

section Chain
variable (crypto : Crypto)

theorem postgres_lawful : (postgres crypto).Lawful where
  first _ := rfl
  next call tip hpos hlt := by
    show asI64 ((asU64 tip.seq + 1) % 2 ^ 64) = tip.seq + 1
    have hpos : 1 ≤ tip.seq := hpos
    have hlt : tip.seq < 4294967295 * 291 := hlt
    have hU64 : asU64 tip.seq = tip.seq.toNat := by
      unfold asU64
      omega
    rw [hU64]
    unfold asI64
    split <;> omega
  key_row _ _ := rfl
  key_side call x h := by
    obtain ⟨preview, -, rfl⟩ := Option.map_eq_some_iff.mp h
    rfl

theorem row_toRecord (call : PostgresCall) (prev : Option (Int × String)) :
    (call.row crypto prev).toRecord = .ok call.record :=
  toRecord_ok_iff.mpr ⟨call.transaction.riskLevel, .queued, call.transaction.warnings,
    readField_serializeField _, readField_serializeField _,
    deserializeStrings_serializeStrings _, rfl⟩

/-- What the audit log holds after any statements of any calls, with aborts and
lost connections in between: one unbranched chain, with every row that a call has
reported. -/
theorem neverForks (inputs : List (Input PostgresCall)) :
    let s := (postgres crypto).run inputs
    (∀ (k : Nat) (row : Row), s.store.rows[k]? = some row → row.seq = k + 1) ∧
    (∀ row, s.store.rows[0]? = some row → row.prevChainHash = "") ∧
    (∀ (k : Nat) (row row' : Row), s.store.rows[k]? = some row → s.store.rows[k + 1]? = some row' →
      row'.prevChainHash = row.chainHash) ∧
    ∀ (i : Nat) (call : PostgresCall), s.calls[i]? = some (call, .committed) →
      ∃ row ∈ s.store.rows, row.transactionId = call.transactionId ∧
        row.toRecord = .ok call.record := by
  intro s
  have hinv := Writer.run_inv (postgres_lawful crypto) inputs
  refine ⟨hinv.numbered, ?_, ?_, ?_⟩
  · intro row hrow
    obtain ⟨call, rfl⟩ := hinv.linked 0 row hrow
    rfl
  · intro k row row' hrow hrow'
    obtain ⟨call, rfl⟩ := hinv.linked (k + 1) row' hrow'
    have hbefore : before s.store.rows (k + 1) = some row := by
      obtain ⟨hlt, rfl⟩ := List.getElem?_eq_some_iff.mp hrow
      rw [before, List.take_add_one, hrow]
      exact List.getLast?_concat ..
    show ((postgres crypto).row call (before s.store.rows (k + 1))).prevChainHash = row.chainHash
    rw [hbefore]
    rfl
  · intro i call hi
    obtain ⟨k, hk⟩ := hinv.done i call hi
    exact ⟨_, List.mem_of_getElem? hk, rfl, row_toRecord crypto call _⟩

/-- When nothing is aborted or lost, every call that has come to its end has
succeeded exactly when each insert went behind the row that was still the last
one; and every call does come to its end. -/
theorem losesNothing_iff {inputs : List (Input PostgresCall)}
    (hquiet : ∀ x ∈ inputs, x.isQuiet = true) :
    (¬ Writer.HasFailed ((postgres crypto).run inputs) ↔
      Writer.InsertsAtTip (postgres crypto) inputs) ∧
    ∃ more : List Nat, ∀ call ∈ ((postgres crypto).run (inputs ++ more.map .step)).calls,
      call.2.finished = true :=
  ⟨Writer.run_failed_iff (postgres_lawful crypto) hquiet,
    Writer.run_finishes (postgres_lawful crypto) inputs⟩

end Chain

/-! ## Three calls -/

def sampleCall (transactionId : String) : PostgresCall where
  key := sampleKey
  transactionId := transactionId
  now := 1700000000123
  transaction := ⟨"req-1", "hash-1", "GetSystemStatus", .low, none, "Get system status", []⟩
  preview := none

/-- One call after the other. -/
def sequentialInputs : List (Input PostgresCall) :=
  [.start (sampleCall "tx-1"), .step 0, .step 0, .step 0,
   .start (sampleCall "tx-2"), .step 1, .step 1, .step 1, .step 1]

theorem losesNothing_iff_sequential :
    Writer.InsertsAtTip (postgres sampleCrypto) sequentialInputs := by
  have hquiet : ∀ x ∈ sequentialInputs, x.isQuiet = true := by decide
  refine (losesNothing_iff sampleCrypto hquiet).1.mp ?_
  rw [Writer.hasFailed_iff]
  decide +kernel

/-- The second and the third call choose the first row. The third waits for the
lock, goes on with the row that it has chosen, and clashes with the second. -/
def raceInputs : List (Input PostgresCall) :=
  [.start (sampleCall "tx-1"), .step 0, .step 0, .step 0,
   .start (sampleCall "tx-2"), .start (sampleCall "tx-3"), .step 1, .step 2,
   .step 1, .step 2, .step 1, .step 1, .step 2, .step 2]

theorem lost_to_race :
    (∀ x ∈ raceInputs, x.isQuiet = true) ∧
    ((postgres sampleCrypto).run raceInputs).calls.map
      (fun call => (call.1.transactionId, call.2)) =
        [("tx-1", .committed), ("tx-2", .committed), ("tx-3", .failed)] := by
  decide +kernel

end Sysknife
