import Mathlib.Algebra.Ring.Int.Defs
import Mathlib.Data.List.Sort
import Sysknife.AuditChain
import Sysknife.Clock
import Sysknife.Json
import Sysknife.Lib.Interaction

/-!
# The SQLite transaction store

The two tables with their columns as stored, the SQL statements the store
sends, and the store's methods as programs of statements. `record` and
`record_previewed` run one immediate transaction, which is a single step of the
shared database; `update_status` is two steps.
-/

namespace Sysknife

open Interaction

/-! ## Records -/

structure NewTransaction where
  requestId : String
  requestHash : String
  actionName : String
  riskLevel : RiskLevel
  approvalId : Option String
  summary : String
  warnings : List String

structure TransactionRecord where
  transactionId : String
  requestId : String
  requestHash : String
  actionName : String
  riskLevel : RiskLevel
  status : JobState
  approvalId : Option String
  summary : String
  warnings : List String
  deriving DecidableEq

structure PreviewEnvelope where
  summary : String
  riskLevel : RiskLevel
  currentState : Json
  proposedChange : Json
  expectedSideEffects : List String
  rebootRequired : Bool
  rollbackAvailable : Bool
  warnings : List String
  requestHash : String

/-- `serde_json::to_string` of a preview, its fields in declaration order. -/
def PreviewEnvelope.serialize (preview : PreviewEnvelope) : String :=
  String.ofList (compact (.object
    [("summary", .string preview.summary),
     ("risk_level", .string (UnitEnum.variantName preview.riskLevel)),
     ("current_state", preview.currentState),
     ("proposed_change", preview.proposedChange),
     ("expected_side_effects", .array (preview.expectedSideEffects.map .string)),
     ("reboot_required", .bool preview.rebootRequired),
     ("rollback_available", .bool preview.rollbackAvailable),
     ("warnings", .array (preview.warnings.map .string)),
     ("request_hash", .string preview.requestHash)]))

/-- `TransactionStoreError`. The text of a `serde_json` error is left out. -/
inductive StoreError where
  | sqlite (detail : String)
  | json
  | notFound (transactionId : String)
  | invalidTransition (src dst : JobState)
  | auditChainMissing (detail : String)
  deriving DecidableEq

/-- `{:?}` of a job state. -/
def JobState.debug : JobState → String
  | .queued => "Queued"
  | .running => "Running"
  | .succeeded => "Succeeded"
  | .failed => "Failed"
  | .canceled => "Canceled"
  | .rolledBack => "RolledBack"
  | .needsReboot => "NeedsReboot"

def StoreError.display : StoreError → String
  | .sqlite detail => "sqlite error: " ++ detail
  | .json => "json error"
  | .notFound transactionId => "transaction not found: " ++ transactionId
  | .invalidTransition src dst =>
      "invalid transition from " ++ src.debug ++ " to " ++ dst.debug
  | .auditChainMissing detail => "audit chain misconfiguration: " ++ detail

/-! ## Tables -/

/-- A row of `transactions`. -/
structure Row where
  transactionId : String
  requestId : String
  requestHash : String
  actionName : String
  riskLevel : String
  status : String
  approvalId : Option String
  summary : String
  warningsJson : String
  createdAt : String
  seq : Int
  keyId : String
  chainHash : String
  prevChainHash : String
  deriving DecidableEq

/-- A row of `transaction_previews`. -/
structure PreviewRow where
  transactionId : String
  previewJson : String
  deriving DecidableEq

structure Db where
  transactions : List Row
  previews : List PreviewRow
  deriving DecidableEq

def Db.empty : Db := ⟨[], []⟩

/-- A database file holds at most 281 terabytes, which is some 2e13 rows. -/
def maxRows : Nat := 2 * 10 ^ 13

/-- `seq as i64`. -/
def asI64 (n : Nat) : Int := if n < 2 ^ 63 then n else (n : Int) - 2 ^ 64

/-- `seq as u64`. -/
def asU64 (i : Int) : Nat := (i % 2 ^ 64).toNat

/-- `ORDER BY seq ASC`. -/
def orderBySeq (rows : List Row) : List Row := rows.insertionSort fun a b => a.seq ≤ b.seq

/-- `ORDER BY seq DESC`; `seq` is unique, so there are no ties. -/
def orderBySeqDesc (rows : List Row) : List Row := (orderBySeq rows).reverse

/-- `deserialize_field(..)?`. -/
def readField {α : Type} [UnitEnum α] (column : String) : Except StoreError α :=
  match deserializeField column with
  | some a => .ok a
  | none => .error .json

def hexDigitValue (c : Char) : Option Nat :=
  if c.isDigit then some (c.toNat - 48)
  else if 'a' ≤ c && c ≤ 'f' then some (c.toNat - 87)
  else if 'A' ≤ c && c ≤ 'F' then some (c.toNat - 55)
  else none

/-- What `\` and this character stand for in a JSON string. -/
def shortEscape : Char → Option Char
  | '"' => some '"'
  | '\\' => some '\\'
  | '/' => some '/'
  | 'b' => some '\x08'
  | 'f' => some '\x0c'
  | 'n' => some '\n'
  | 'r' => some '\r'
  | 't' => some '\t'
  | _ => none

/-- The text that stands between the quotes of a JSON string. A pair of surrogates spells a
character that is in no name, and is left out. -/
def unescape : List Char → Option (List Char)
  | [] => some []
  | '\\' :: 'u' :: a :: b :: c :: d :: s => do
    let n := 4096 * (← hexDigitValue a) + 256 * (← hexDigitValue b) + 16 * (← hexDigitValue c) +
      (← hexDigitValue d)
    if 0xd800 ≤ n ∧ n < 0xe000 then none else return Char.ofNat n :: (← unescape s)
  | '\\' :: c :: s => return (← shortEscape c) :: (← unescape s)
  | c :: s => if c = '"' ∨ c = '\\' ∨ c.toNat < 0x20 then none else return c :: (← unescape s)

/-- `deserialize_field` on a text put between quotes. -/
def parseStatusFilter (status : String) : Option JobState := do
  let name ← unescape status.toList
  UnitEnum.variants.find? fun s : JobState => (UnitEnum.variantName s).toList == name

example : parseStatusFilter "succe\\u0065ded" = some .succeeded := by decide

/-- `row_to_record`. -/
def Row.toRecord (row : Row) : Except StoreError TransactionRecord := do
  let riskLevel ← readField row.riskLevel
  let status ← readField row.status
  let warnings ← match deserializeStrings row.warningsJson with
    | some warnings => .ok warnings
    | none => .error .json
  return {
    transactionId := row.transactionId
    requestId := row.requestId
    requestHash := row.requestHash
    actionName := row.actionName
    riskLevel
    status
    approvalId := row.approvalId
    summary := row.summary
    warnings }

/-- The columns `fetch_chain_rows` selects. -/
def Row.toChainRow (row : Row) : Except StoreError ChainRow := do
  let riskLevel ← readField row.riskLevel
  return {
    seq := asU64 row.seq
    keyId := row.keyId
    transactionId := row.transactionId
    requestId := row.requestId
    requestHash := row.requestHash
    actionName := row.actionName
    riskLevel
    summary := row.summary
    approvalId := row.approvalId
    warningsJson := row.warningsJson
    createdAt := row.createdAt
    prevChainHash := row.prevChainHash
    chainHash := row.chainHash }

def fetchChainRows (db : Db) : Except StoreError (List ChainRow) :=
  (orderBySeq db.transactions).mapM Row.toChainRow

def verifyAuditChain (crypto : Crypto) (key : AuditKey) (db : Db) :
    Except StoreError VerifyOutcome := do
  let rows ← fetchChainRows db
  return verifyChain crypto key rows

/-! ## One immediate transaction -/

/-- The world outside one statement: the clock, the fresh UUID, and the
statement that fails, counted from 0, with SQLite's message. -/
structure StoreEnv where
  now : Clock
  uuid : String
  fault : Option (Nat × String)

/-- The state of an open transaction: its private copy of the database and the
number of statements up to the failing one. -/
structure TxnState where
  fault : Option (Nat × String)
  db : Db

abbrev Txn := StateT TxnState (Except StoreError)

/-- One statement of a transaction. -/
def sql {α : Type} (f : Db → Except StoreError (α × Db)) : Txn α := fun s =>
  match s.fault with
  | some (0, detail) => .error (.sqlite detail)
  | fault => do
      let (a, db) ← f s.db
      return (a, ⟨fault.map fun (n, detail) => (n - 1, detail), db⟩)

/-- `next_seq_and_prev_hash`. -/
def nextSeqAndPrevHash : Txn (Nat × String) := sql fun db =>
  match (orderBySeqDesc db.transactions).head? with
  | some row => .ok (((asU64 row.seq + 1) % 2 ^ 64, row.chainHash), db)
  | none => .ok ((1, ""), db)

/-- `INSERT INTO transactions`, with the primary key and `UNIQUE` on `seq`. -/
def insertRow (row : Row) : Txn Unit := sql fun db =>
  if db.transactions.any fun r => r.transactionId == row.transactionId then
    .error (.sqlite "UNIQUE constraint failed: transactions.transaction_id")
  else if db.transactions.any fun r => r.seq == row.seq then
    .error (.sqlite "UNIQUE constraint failed: transactions.seq")
  else if maxRows ≤ db.transactions.length then
    .error (.sqlite "database or disk is full")
  else .ok ((), { db with transactions := db.transactions ++ [row] })

/-- `insert_preview`. -/
def insertPreview (transactionId : String) (preview : PreviewEnvelope) : Txn Unit := sql fun db =>
  if db.previews.any fun r => r.transactionId == transactionId then
    .error (.sqlite "UNIQUE constraint failed: transaction_previews.transaction_id")
  else .ok ((), { db with previews := db.previews ++ [⟨transactionId, preview.serialize⟩] })

section Insert
variable (crypto : Crypto) (key : AuditKey) (env : StoreEnv)

/-- The content of the row `insert_transaction` is about to write. -/
def newContent (seq : Nat) (transaction : NewTransaction) : ChainContent where
  seq := seq
  keyId := currentKeyId
  transactionId := env.uuid
  requestId := transaction.requestId
  requestHash := transaction.requestHash
  actionName := transaction.actionName
  riskLevel := transaction.riskLevel
  summary := transaction.summary
  approvalId := transaction.approvalId
  warningsJson := serializeStrings transaction.warnings
  createdAt := createdAtText env.now

/-- The columns of that row. -/
def newRow (seq : Nat) (prevChainHash : String) (transaction : NewTransaction) : Row where
  transactionId := env.uuid
  requestId := transaction.requestId
  requestHash := transaction.requestHash
  actionName := transaction.actionName
  riskLevel := serializeField transaction.riskLevel
  status := serializeField JobState.queued
  approvalId := transaction.approvalId
  summary := transaction.summary
  warningsJson := serializeStrings transaction.warnings
  createdAt := createdAtText env.now
  seq := asI64 seq
  keyId := currentKeyId
  chainHash := key.chainHash crypto (newContent env seq transaction) prevChainHash
  prevChainHash := prevChainHash

def newRecord (transaction : NewTransaction) : TransactionRecord where
  transactionId := env.uuid
  requestId := transaction.requestId
  requestHash := transaction.requestHash
  actionName := transaction.actionName
  riskLevel := transaction.riskLevel
  status := .queued
  approvalId := transaction.approvalId
  summary := transaction.summary
  warnings := transaction.warnings

/-- `insert_transaction`. The timestamp is a statement of its own, so that the
hash and the column get the same text. -/
def insertTransaction (transaction : NewTransaction) : Txn TransactionRecord := do
  let (seq, prevChainHash) ← nextSeqAndPrevHash
  sql fun db => .ok ((), db)
  insertRow (newRow crypto key env seq prevChainHash transaction)
  return newRecord env transaction

/-- `BEGIN IMMEDIATE`, the body, `COMMIT`. An error anywhere rolls back. -/
def immediate {α : Type} (body : Txn α) (db : Db) : Except StoreError α × Db :=
  let bracketed : Txn α := do
    sql fun db => .ok ((), db)
    let a ← body
    sql fun db => .ok ((), db)
    return a
  match bracketed ⟨env.fault, db⟩ with
  | .ok (a, s) => (.ok a, s.db)
  | .error e => (.error e, db)

end Insert

/-! ## Statements as steps of the shared database -/

/-- What the store sends to the database: a whole transaction, or one statement
in its own implicit transaction. -/
inductive Statement where
  | insert (key : AuditKey) (transaction : NewTransaction)
  | insertPreviewed (key : AuditKey) (transaction : NewTransaction) (preview : PreviewEnvelope)
  | selectQueued (requestHash : String)
  | claim (transactionId : String)
  | selectStatus (transactionId : String)
  | updateStatus (newStatus : JobState) (transactionId : String)
  | cancelStale
  | selectHistory (limit : Nat) (status : Option JobState) (action : Option String)
      (sinceHours : Option Nat)

structure RecordedPreviewedTransaction where
  transaction : TransactionRecord
  preview : PreviewEnvelope

/-- What a statement gives back. -/
@[reducible] def Statement.Result : Statement → Type
  | .insert .. => TransactionRecord
  | .insertPreviewed .. => RecordedPreviewedTransaction
  | .selectQueued .. => Option Row
  | .claim .. => Nat
  | .selectStatus .. => Option String
  | .updateStatus .. => Nat
  | .cancelStale => Nat
  | .selectHistory .. => List Row

/-- The answer to a statement, which can always be an error of SQLite. -/
abbrev Statement.Answer (s : Statement) : Type := Except StoreError s.Result

/-- `UPDATE transactions SET status = ?1 WHERE ..`, with the number of rows. -/
def Db.setStatus (newStatus : JobState) (where_ : Row → Bool) (db : Db) : Nat × Db :=
  (db.transactions.countP where_,
   { db with transactions := db.transactions.map fun row =>
      if where_ row then { row with status := serializeField newStatus } else row })

/-- `status = ?` for a job state. -/
def Row.hasStatus (row : Row) (status : JobState) : Bool := row.status == serializeField status

/-- `transaction_id = ?`. -/
def Row.hasId (row : Row) (transactionId : String) : Bool := row.transactionId == transactionId

/-- The row `claim_for_execution` sets to `Running`. -/
def Row.isClaimable (transactionId : String) (row : Row) : Bool :=
  row.hasId transactionId && row.hasStatus .queued

/-- `created_at > datetime('now', '-15 minutes')`. -/
def Row.isFresh (now : Clock) (row : Row) : Bool := decide (cutoffText now < row.createdAt)

/-- The rows `find_by_request_hash` looks through. -/
def Row.matchesRequest (now : Clock) (requestHash : String) (row : Row) : Bool :=
  row.requestHash == requestHash && row.hasStatus .queued && row.isFresh now

/-- The rows `cleanup_stale_queued` cancels. -/
def Row.isStaleQueued (now : Clock) (row : Row) : Bool :=
  row.hasStatus .queued && !row.isFresh now

/-- The rows `list_transactions` selects. -/
def Row.inHistory (now : Clock) (status : Option JobState) (action : Option String)
    (sinceHours : Option Nat) (row : Row) : Bool :=
  status.all (fun s => row.hasStatus s) && action.all (fun a => row.actionName == a) &&
    sinceHours.all fun h => createdWithinHours now h row.createdAt

/-- A statement outside a transaction: it fails as a whole or takes effect. -/
def attempt {α : Type} (env : StoreEnv) (db : Db) (f : Db → α × Db) : Except StoreError α × Db :=
  match env.fault with
  | some (0, detail) => (.error (.sqlite detail), db)
  | _ => let (a, db') := f db; (.ok a, db')

section Exec
variable (crypto : Crypto)

def Statement.exec (env : StoreEnv) (db : Db) : (s : Statement) → s.Answer × Db
  | .insert key transaction => immediate env (insertTransaction crypto key env transaction) db
  | .insertPreviewed key transaction preview =>
      immediate env (do
        let record ← insertTransaction crypto key env transaction
        insertPreview record.transactionId preview
        return ⟨record, preview⟩) db
  | .selectQueued requestHash => attempt env db fun db =>
      ((orderBySeqDesc (db.transactions.filter (Row.matchesRequest env.now requestHash))).head?, db)
  | .claim transactionId => attempt env db fun db =>
      db.setStatus .running (Row.isClaimable transactionId)
  | .selectStatus transactionId => attempt env db fun db =>
      ((db.transactions.find? fun row => row.hasId transactionId).map Row.status, db)
  | .updateStatus newStatus transactionId => attempt env db fun db =>
      db.setStatus newStatus fun row => row.hasId transactionId
  | .cancelStale => attempt env db fun db => db.setStatus .canceled (Row.isStaleQueued env.now)
  | .selectHistory limit status action sinceHours => attempt env db fun db =>
      ((orderBySeqDesc (db.transactions.filter
        (Row.inHistory env.now status action sinceHours))).take limit, db)

end Exec

/-! ## The store's methods -/

/-- A program of statements. -/
abbrev StoreProg := Prog Statement Statement.Answer

def query (s : Statement) : StoreProg s.Answer := Prog.perform s

@[simp] theorem query_bind {α : Type} (s : Statement) (f : s.Answer → StoreProg α) :
    @bind StoreProg _ (no_index s.Answer) α (query s) f = .op s f := rfl

/-- `None` only in a store that was opened read-only. -/
structure TransactionStore where
  auditKey : Option AuditKey

def readOnlyError : StoreError :=
  .auditChainMissing "this TransactionStore was opened read-only; cannot record"

namespace TransactionStore
variable (store : TransactionStore)

def record (transaction : NewTransaction) : StoreProg (Except StoreError TransactionRecord) :=
  match store.auditKey with
  | none => return .error readOnlyError
  | some key => query (.insert key transaction)

def recordPreviewed (transaction : NewTransaction) (preview : PreviewEnvelope) :
    StoreProg (Except StoreError RecordedPreviewedTransaction) :=
  match store.auditKey with
  | none => return .error readOnlyError
  | some key => query (.insertPreviewed key transaction preview)

def findByRequestHash (requestHash : String) :
    StoreProg (Except StoreError (Option TransactionRecord)) := do
  match ← query (.selectQueued requestHash) with
  | .error e => return .error e
  | .ok none => return .ok none
  | .ok (some row) => return row.toRecord.map some

def updateStatus (transactionId : String) (newStatus : JobState) :
    StoreProg (Except StoreError Unit) := do
  match ← query (.selectStatus transactionId) with
  | .error e => return .error e
  | .ok none => return .error (.notFound transactionId)
  | .ok (some currentStatus) =>
    match readField currentStatus with
    | .error e => return .error e
    | .ok current =>
      if allowedTransition current newStatus then
        match ← query (.updateStatus newStatus transactionId) with
        | .error e => return .error e
        | .ok _ => return .ok ()
      else return .error (.invalidTransition current newStatus)

def claimForExecution (transactionId : String) : StoreProg (Except StoreError Bool) := do
  match ← query (.claim transactionId) with
  | .error e => return .error e
  | .ok rowsAffected => return .ok (Nat.blt 0 rowsAffected)

def cleanupStaleQueued : StoreProg (Except StoreError Nat) := do
  match ← query .cancelStale with
  | .error e => return .error e
  | .ok rowsAffected => return .ok rowsAffected

/-- The status filter is checked before the statement is sent. -/
def listTransactions (limit : Nat) (statusFilter actionFilter : Option String)
    (sinceHours : Option Nat) : StoreProg (Except StoreError (List TransactionRecord)) := do
  let send (status : Option JobState) := do
    match ← query (.selectHistory (min limit 100) status actionFilter sinceHours) with
    | .error e => return .error e
    | .ok rows => return rows.mapM Row.toRecord
  match statusFilter with
  | none => send none
  | some status =>
    match parseStatusFilter status with
    | none => return .error .json
    | some validated => send (some validated)

end TransactionStore

/-- One call of a store method. -/
inductive StoreCall where
  | record (transaction : NewTransaction)
  | recordPreviewed (transaction : NewTransaction) (preview : PreviewEnvelope)
  | findByRequestHash (requestHash : String)
  | claimForExecution (transactionId : String)
  | updateStatus (transactionId : String) (newStatus : JobState)
  | cleanupStaleQueued
  | listTransactions (limit : Nat) (statusFilter actionFilter : Option String)
      (sinceHours : Option Nat)

@[reducible] def StoreCall.Result : StoreCall → Type
  | .record .. => TransactionRecord
  | .recordPreviewed .. => RecordedPreviewedTransaction
  | .findByRequestHash .. => Option TransactionRecord
  | .claimForExecution .. => Bool
  | .updateStatus .. => Unit
  | .cleanupStaleQueued => Nat
  | .listTransactions .. => List TransactionRecord

abbrev StoreCall.Answer (c : StoreCall) : Type := Except StoreError c.Result

def StoreCall.body (store : TransactionStore) :
    (c : StoreCall) → StoreProg c.Answer
  | .record transaction => store.record transaction
  | .recordPreviewed transaction preview => store.recordPreviewed transaction preview
  | .findByRequestHash requestHash => TransactionStore.findByRequestHash requestHash
  | .claimForExecution transactionId => TransactionStore.claimForExecution transactionId
  | .updateStatus transactionId newStatus => TransactionStore.updateStatus transactionId newStatus
  | .cleanupStaleQueued => TransactionStore.cleanupStaleQueued
  | .listTransactions limit statusFilter actionFilter sinceHours =>
      TransactionStore.listTransactions limit statusFilter actionFilter sinceHours

/-- Any number of clients calling one store, their statements in any order. -/
def storeSystem (crypto : Crypto) (store : TransactionStore) :
    System Db StoreEnv StoreCall Statement Statement.Answer StoreCall.Answer where
  init := .empty
  exec := Statement.exec crypto
  body := StoreCall.body store
  mayStart _ _ := true

end Sysknife
