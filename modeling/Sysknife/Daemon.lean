import Sysknife.Dispatcher
import Sysknife.StoreCalls

/-!
# The daemon: any number of connections over one store

Every operation of a handler is one step; a store call is a single step, and
everything else is answered from outside. A connection handles its requests one
after the other, in the role that was resolved when it was opened. Whatever the
clients, the children and the clock do, `daemonMonitor` says what a handler has
checked before each operation that matters.
-/

namespace Sysknife

open Interaction

/-! ## The system -/

inductive DaemonTask where
  | request (connection : Nat) (request : DaemonRequest)
  /-- The store's `cleanup_stale_queued`. -/
  | cleanup

@[reducible] def DaemonTask.Out : DaemonTask → Type
  | .request .. => Except HandlerError Unit
  | .cleanup => Except StoreError Nat

/-- The world outside one operation. -/
structure DaemonEnv where
  store : Nat → StoreEnv
  answer : (o : DaemonOp) → o.Answer

def DaemonOp.exec (crypto : Crypto) (store : TransactionStore) (env : DaemonEnv) (db : Db) :
    (o : DaemonOp) → o.Answer × Db
  | .store call => call.exec crypto store env.store db
  | o => (env.answer o, db)

abbrev DaemonThread := Thread DaemonTask DaemonOp DaemonOp.Answer DaemonTask.Out
abbrev DaemonPool := Pool Db DaemonEnv DaemonTask DaemonOp DaemonOp.Answer DaemonTask.Out
abbrev DaemonEntry := Entry DaemonEnv DaemonOp DaemonOp.Answer
abbrev DaemonInput := Input DaemonEnv DaemonTask

/-- A thread that is done, or of another connection. -/
def leavesFree (connection : Nat) : DaemonThread → Bool
  | ⟨.request other _, .op ..⟩ => other != connection
  | _ => true

def daemonSystem (crypto : Crypto) (config : DaemonConfig) (role : Nat → CallerRole) :
    System Db DaemonEnv DaemonTask DaemonOp DaemonOp.Answer DaemonTask.Out where
  init := .empty
  exec := DaemonOp.exec crypto config.audit
  body
    | .request connection request => handleRequest crypto config (role connection) request
    | .cleanup => daemonOp (.store .cleanupStaleQueued)
  mayStart threads
    | .request connection _ => threads.all (leavesFree connection)
    | .cleanup => true

/-! ## What a handler has done and checked -/

/-- The statuses an execution ends with. -/
def JobState.isFinal : JobState → Bool
  | .succeeded | .failed | .rolledBack | .needsReboot => true
  | _ => false

/-- An `execute` request on a connection. -/
structure Execution where
  connection : Nat
  requestId : String
  actionName : String
  params : Json
  approvalHash : String

def Execution.task (x : Execution) : DaemonTask :=
  .request x.connection (.execute x.requestId x.actionName x.params x.approvalHash)

/-- How far a request has got. -/
structure Progress where
  task : DaemonTask
  /-- The hash that was looked up, and the transaction it gave. -/
  found : Option (String × String) := none
  claimed : Option String := none
  /-- Whether `job_started` went out. -/
  announced : Option Bool := none
  started : Bool := false
  /-- The final status, and whether it was stored. -/
  settled : Option (JobState × Bool) := none

def Progress.begin (task : DaemonTask) : Progress := { task }

def DaemonResponse.announces : DaemonResponse → Bool
  | .jobStarted .. => true
  | _ => false

section Monitor
variable (crypto : Crypto) (config : DaemonConfig) (role : Nat → CallerRole)

/-- What `handle_execute` has checked when it comes to the store. -/
structure Admitted (x : Execution) (spec : ActionSpec) : Prop where
  built : buildActionSpec x.actionName x.params = .ok spec
  allowed : config.policy.actionAllowed (role x.connection) x.actionName = true
  approved : x.approvalHash = computeRequestHash crypto x.actionName x.params

/-- The request has claimed the transaction it found for its approval. -/
def Progress.HasClaimed (p : Progress) (x : Execution) : Prop :=
  p.task = x.task ∧ ∃ transactionId,
    p.found = some (x.approvalHash, transactionId) ∧ p.claimed = some transactionId

/-- The condition on each operation. -/
def DaemonOp.Expected (p : Progress) : DaemonOp → Prop
  | .send response => response.announces = true → p.announced = none
  | .store (.record _) => False
  | .store (.recordPreviewed transaction _) =>
      ∃ connection requestId actionName params,
        p.task = .request connection (.preview requestId actionName params) ∧
          transaction.requestHash = computeRequestHash crypto actionName params
  | .store (.findByRequestHash requestHash) =>
      ∃ x spec, p.task = x.task ∧ Admitted crypto config role x spec ∧
        requestHash = x.approvalHash
  | .store (.claimForExecution transactionId) =>
      ∃ x spec, p.task = x.task ∧ Admitted crypto config role x spec ∧
        p.found = some (x.approvalHash, transactionId) ∧ p.claimed = none ∧ p.settled = none
  | .store (.updateStatus transactionId newStatus) =>
      p.claimed = some transactionId ∧ p.settled = none ∧ newStatus.isFinal = true
  | .spawn program args =>
      ∃ x spec, Admitted crypto config role x spec ∧ spec.mechanism = .command program args ∧
        p.HasClaimed x ∧ p.started = false
  | .executeSpec spec =>
      ∃ x, Admitted crypto config role x spec ∧ p.HasClaimed x ∧ p.started = false
  | .execute spec =>
      (∃ x built, Admitted crypto config role x built ∧
        rollbackSpecFor x.actionName = some spec ∧ p.HasClaimed x) ∨
      ∃ connection requestId actionName params,
        p.task = .request connection (.queryAction requestId actionName params) ∧
          config.policy.minRoleForAction actionName = some .observer ∧
          buildActionSpec actionName params = .ok spec
  | _ => True

def Progress.next (p : Progress) : (o : DaemonOp) → o.Answer → Progress
  | .store (.findByRequestHash requestHash), .ok (some record) =>
      { p with found := some (requestHash, record.transactionId) }
  | .store (.claimForExecution transactionId), .ok true => { p with claimed := some transactionId }
  | .store (.updateStatus _ newStatus), answer =>
      { p with settled := some (newStatus, answer.isOk) }
  | .send response, answer =>
      if response.announces then { p with announced := some answer.isOk } else p
  | .spawn .., _ => { p with started := true }
  | .executeSpec _, _ => { p with started := true }
  | _, _ => p

def daemonMonitor : Monitor Progress DaemonOp DaemonOp.Answer where
  guard := DaemonOp.Expected crypto config role
  next := Progress.next

/-- How a finished request leaves the transaction it has claimed. -/
def Progress.Finished (p : Progress) : Prop :=
  p.claimed ≠ none →
    (p.announced = some true ∧ ∃ status stored, p.settled = some (status, stored) ∧
      status.isFinal = true) ∨
    (p.announced = some false ∧ p.settled = none)

end Monitor

end Sysknife
