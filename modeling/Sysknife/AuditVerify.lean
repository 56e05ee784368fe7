import Sysknife.AuditKeyFile
import Sysknife.Client
import Sysknife.Lib.Embedding
import Sysknife.Transactions

/-!
# Verifying the audit chain of a host

Daemons load the key, open the database beside it and serve calls; `audit verify`, the tool
of the MCP server and its doctor load the key that is there and look at the rows. All of
them share the key file and the database of the host, and may run at once. The Postgres
backend is left out.
-/

namespace Sysknife

open Interaction

/-- How a store fails to open. -/
inductive OpenError where
  | io (detail : String)
  | sqlite (detail : String)

def OpenError.display : OpenError → String
  | .io detail => "io error: " ++ detail
  | .sqlite detail => "sqlite error: " ++ detail

/-- The places of a host, and the text of a string under `{:?}`. -/
structure Deployment where
  crypto : Crypto
  debugStr : String → String
  keyPath : String
  keyParent : Option String
  databasePath : String

/-- `none` stands for no file. A database without its tables counts as an empty one: nothing
is read before the tables are there. -/
structure Host where
  keyFile : Option KeyFile
  db : Option Db

/-! ## Operations -/

inductive HostOp where
  | key (o : KeyOp)
  | databaseExists
  /-- `initialize`, with the directory and the file where they are missing. -/
  | openStore
  | store (s : Statement)
  /-- The select of `fetch_chain_rows`. -/
  | selectChain

@[reducible] def HostOp.Answer : HostOp → Type
  | .key o => o.Answer
  | .databaseExists => Bool
  | .openStore => Except OpenError Unit
  | .store s => s.Answer
  | .selectChain => Except StoreError (List ChainRow)

abbrev HostProg := Prog HostOp HostOp.Answer

def hostOp (o : HostOp) : HostProg o.Answer := Prog.perform o

@[simp] theorem hostOp_bind {α : Type} (o : HostOp) (f : o.Answer → HostProg α) :
    @bind HostProg _ (no_index o.Answer) α (hostOp o) f = .op o f := rfl

/-- What one operation meets outside. A store that does not open may have left its file. -/
structure HostEnv where
  key : KeyEnv
  store : StoreEnv
  openFault : Option (OpenError × Bool)

def HostOp.exec (crypto : Crypto) (env : HostEnv) (host : Host) : (o : HostOp) → o.Answer × Host
  | .key o =>
    let out := o.exec env.key host.keyFile
    (out.1, { host with keyFile := out.2 })
  | .databaseExists => (env.key.failure.isNone && host.db.isSome, host)
  | .openStore =>
    match env.openFault with
    | none => (.ok (), { host with db := some (host.db.getD .empty) })
    | some (e, true) => (.error e, { host with db := some (host.db.getD .empty) })
    | some (e, false) => (.error e, host)
  | .store s =>
    match host.db with
    | none => (.error (.sqlite "no such table: transactions"), host)
    | some db =>
      let out := s.exec crypto env.store db
      (out.1, { host with db := some out.2 })
  | .selectChain =>
    match env.store.fault, host.db with
    | some (0, detail), _ => (.error (.sqlite detail), host)
    | _, none => (.error (.sqlite "no such table: transactions"), host)
    | _, some db => (fetchChainRows db, host)

/-! ## Programs -/

/-- `AuditKeyError` under `{}`. -/
def AuditKeyError.display (debugStr : String → String) : AuditKeyError → String
  | .io path source => "io error reading audit key " ++ path ++ ": " ++ source
  | .unsafePermissions path mode =>
    "audit key file " ++ path ++ " has unsafe permissions 0o" ++
      String.ofList (Nat.toDigits 8 mode) ++ "; tighten with `chmod 600 " ++ debugStr path ++
      "` and restart"
  | .keyTooShort path len =>
    "audit key file " ++ path ++ " is too short (" ++ toString len ++
      " bytes); expected at least 32 bytes of random material"

/-- A `VerifyOutcome` with its message. -/
inductive AuditOutcome where
  | intact (rowsChecked : Nat)
  | broken (rowsChecked firstBrokenSeq : Nat) (firstBrokenTransactionId expected actual : String)
  | cannotVerify (reason : String)
  deriving DecidableEq

def VerifyOutcome.withText (debugStr : String → String) : VerifyOutcome → AuditOutcome
  | .intact n => .intact n
  | .broken n seq id expected actual => .broken n seq id expected actual
  | .cannotVerify key => .cannotVerify ("row seq=" ++ toString key.seq ++ " uses key_id=" ++
      debugStr key.keyId ++ " but only " ++ debugStr key.loaded ++
      " is loaded; epoch keys not yet supported")

def outcomeToExitCode : AuditOutcome → Int
  | .intact _ => 0
  | .broken .. => 1
  | .cannotVerify _ => 2

/-- A `u64` in a payload. -/
def unsigned (n : Nat) : Json := .number (.posInt (Fin.ofNat _ n))

/-- `emit_verify_outcome`: with `--json` the payload, else the lines of the log. -/
def emitVerifyOutcome (json : Bool) (outcome : AuditOutcome) (backend : String) :
    Json ⊕ String :=
  if json then
    .inl (match outcome with
      | .intact n => .object [("status", .string "intact"), ("rows_checked", unsigned n),
          ("backend", .string backend)]
      | .broken n seq id expected actual => .object [("status", .string "broken"),
          ("rows_checked", unsigned n), ("first_broken_seq", unsigned seq),
          ("first_broken_transaction_id", .string id), ("expected", .string expected),
          ("actual", .string actual), ("backend", .string backend)]
      | .cannotVerify reason => .object [("status", .string "cannot_verify"),
          ("reason", .string reason), ("backend", .string backend)])
  else
    .inr (match outcome with
      | .intact n => "OK: " ++ toString n ++ " row(s) verified in " ++ backend
      | .broken n seq id expected actual =>
          "BROKEN: chain intact for first " ++ toString n ++ " row(s); row seq=" ++
            toString seq ++ " (transaction " ++ id ++ ") does not chain.\n  expected: " ++
            expected ++ "\n  actual:   " ++ actual
      | .cannotVerify reason => "CANNOT VERIFY: " ++ reason)

structure AuditVerifyReport where
  status : String
  rowsChecked : Nat := 0
  firstBrokenSeq : Option Nat := none
  firstBrokenTransactionId : Option String := none
  expected : Option String := none
  actual : Option String := none
  reason : Option String := none
  backend : String
  deriving DecidableEq

def cannotVerifyReport (backend reason : String) : AuditVerifyReport where
  status := "cannot_verify"
  reason := some reason
  backend := backend

def outcomeToReport (outcome : AuditOutcome) (backend : String) : AuditVerifyReport :=
  match outcome with
  | .intact n => { status := "intact", rowsChecked := n, backend }
  | .broken n seq id expected actual =>
    { status := "broken", rowsChecked := n, firstBrokenSeq := some seq
      firstBrokenTransactionId := some id, expected := some expected
      actual := some actual, backend }
  | .cannotVerify reason => cannotVerifyReport backend reason

inductive VerifyOutcomeKind where
  | intact
  | broken
  | unknown
  deriving DecidableEq

/-- A call that the daemon makes of its store. -/
def callStore (store : TransactionStore) (call : StoreCall) : HostProg call.Answer :=
  (call.body store).embed .store fun _ r => r

namespace Deployment
variable (D : Deployment)

def loadAuditKey : HostProg (Except AuditKeyError AuditKey) :=
  (loadOrGenerate D.keyPath D.keyParent).embed .key fun _ r => r

/-- `TransactionStore::open`, as the daemon does on its start. -/
def openStore : HostProg (Except OpenError TransactionStore) := do
  match ← D.loadAuditKey with
  | .error e => return .error (.io ("audit key load failed: " ++ e.display D.debugStr))
  | .ok key =>
    match ← hostOp .openStore with
    | .error e => return .error e
    | .ok () => return .ok ⟨some key⟩

def verifySqlite (key : AuditKey) : HostProg AuditOutcome := do
  if ← hostOp .databaseExists then
    match ← hostOp .openStore with
    | .error e => return .cannotVerify ("opening audit database failed: " ++ e.display)
    | .ok () =>
      match ← hostOp .selectChain with
      | .error e => return .cannotVerify ("audit chain query failed: " ++ e.display)
      | .ok rows => return (verifyChain D.crypto key rows).withText D.debugStr
  else
    return .cannotVerify ("audit database not found at " ++ D.databasePath ++
      "; set $SYSKNIFE_DATABASE_PATH or run the daemon first")

/-- What the three commands do before and between their reports. -/
def checkChain {α : Type} (noKey : α) (keyFailed : AuditKeyError → α)
    (report : AuditOutcome → α) : HostProg α := do
  if ← hostOp (.key .pathExists) then
    match ← D.loadAuditKey with
    | .error e => return keyFailed e
    | .ok key => return report (← D.verifySqlite key)
  else return noKey

def keyNotFound : String :=
  "audit key not found at " ++ D.keyPath ++
    "; the daemon generates this on first run, or set $SYSKNIFE_AUDIT_KEY_PATH"

def keyLoadFailed (e : AuditKeyError) : String :=
  "audit key load failed: " ++ e.display D.debugStr

/-- What `run_audit_verify` prints and returns on an outcome. -/
def verified (json : Bool) (outcome : AuditOutcome) : (Json ⊕ String) × Except CliError Unit :=
  (emitVerifyOutcome json outcome D.databasePath,
    if outcomeToExitCode outcome = 0 then .ok ()
    else .error (.exit (outcomeToExitCode outcome)))

/-- `run_audit_verify` where the backend is SQLite. -/
def runAuditVerify (json : Bool) : HostProg ((Json ⊕ String) × Except CliError Unit) :=
  let unverified (reason : String) :=
    (emitVerifyOutcome json (.cannotVerify reason) D.databasePath, .error (.exit 2))
  D.checkChain (unverified D.keyNotFound) (fun e => unverified (D.keyLoadFailed e))
    (D.verified json)

/-- `audit_verify_inner` where the backend is SQLite. -/
def auditVerifyInner : HostProg AuditVerifyReport :=
  D.checkChain (cannotVerifyReport D.databasePath D.keyNotFound)
    (fun e => cannotVerifyReport D.databasePath (D.keyLoadFailed e))
    (fun outcome => outcomeToReport outcome D.databasePath)

/-- What `audit_chain_quick_check` returns on an outcome, and the warnings that it adds. -/
def quickStatus : AuditOutcome → VerifyOutcomeKind × List String
  | .intact _ => (.intact, [])
  | .broken .. => (.broken, [])
  | .cannotVerify reason => (.unknown, ["audit chain cannot be verified: " ++ reason])

/-- `audit_chain_quick_check` where the backend is SQLite. -/
def auditChainQuickCheck : HostProg (VerifyOutcomeKind × List String) :=
  D.checkChain (.unknown, ["audit key not found at " ++ D.keyPath])
    (fun e => (.unknown, [D.keyLoadFailed e])) quickStatus

end Deployment

/-! ## The host -/

/-- The commands that look at the chain. -/
inductive Verifier where
  | auditVerify (json : Bool)
  | auditVerifyTool
  | doctor

namespace Verifier

@[reducible] def Out : Verifier → Type
  | .auditVerify _ => (Json ⊕ String) × Except CliError Unit
  | .auditVerifyTool => AuditVerifyReport
  | .doctor => VerifyOutcomeKind × List String

def body (D : Deployment) : (v : Verifier) → HostProg v.Out
  | .auditVerify json => D.runAuditVerify json
  | .auditVerifyTool => D.auditVerifyInner
  | .doctor => D.auditChainQuickCheck

/-- What the command says of an outcome. -/
def report (D : Deployment) (outcome : AuditOutcome) : (v : Verifier) → v.Out
  | .auditVerify json => D.verified json outcome
  | .auditVerifyTool => outcomeToReport outcome D.databasePath
  | .doctor => Deployment.quickStatus outcome

/-- The command says that the outcome is unknown. -/
def Unknown (D : Deployment) : (v : Verifier) → v.Out → Prop
  | .auditVerify json, out => ∃ reason,
      out = (emitVerifyOutcome json (.cannotVerify reason) D.databasePath, .error (.exit 2))
  | .auditVerifyTool, out => ∃ reason, out = cannotVerifyReport D.databasePath reason
  | .doctor, out => ∃ warning, out = (.unknown, [warning])

end Verifier

deriving instance DecidableEq for AuditKey
deriving instance DecidableEq for TransactionStore

/-- A daemon that starts, a call that a daemon with this store makes, a command. -/
inductive HostTask where
  | boot
  | call (store : TransactionStore) (c : StoreCall)
  | verify (v : Verifier)

@[reducible] def HostTask.Out : HostTask → Type
  | .boot => Except OpenError TransactionStore
  | .call _ c => c.Answer
  | .verify v => v.Out

def HostTask.body (D : Deployment) : (task : HostTask) → HostProg task.Out
  | .boot => D.openStore
  | .call store c => callStore store c
  | .verify v => v.body D

abbrev HostThread := Thread HostTask HostOp HostOp.Answer HostTask.Out

/-- The daemon has its store. -/
def HostThread.hasStore (store : TransactionStore) : HostThread → Bool
  | ⟨.boot, .ret (.ok opened)⟩ => decide (opened = store)
  | _ => false

def HostTask.mayStart (threads : List HostThread) : HostTask → Bool
  | .call store _ => threads.any (HostThread.hasStore store)
  | _ => true

/-- Any number of daemons, their calls and commands on one host, one operation at a time in
any order. There is no database at first; there may be a key. -/
def hostSystem (D : Deployment) (initial : Option KeyFile) :
    System Host HostEnv HostTask HostOp HostOp.Answer HostTask.Out where
  init := ⟨initial, none⟩
  exec := HostOp.exec D.crypto
  body := HostTask.body D
  mayStart := HostTask.mayStart

end Sysknife
