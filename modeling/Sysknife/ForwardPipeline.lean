import Sysknife.AuditForward
import Sysknife.ClientReport
import Sysknife.Lib.Channel

/-!
# From the log to the collector

A handler that has recorded a row, or stored its final status, starts a background task
that reads the row and submits an audit event to the forwarder. The forwarder is one more
task behind a bounded channel: it writes each event as a datagram, as long as it has a
socket. Nothing of it holds up a handler, and nothing is sent twice.
-/

namespace Sysknife

open Channels Interaction

/-! ## Background tasks -/

/-- What `forward_audit_event` and `forward_status_change_event` hand to their task. -/
structure Forwarding where
  transactionId : String
  caller : CallerRole
  finalStatus : Option JobState

def DaemonOp.forwarding : DaemonOp → Option Forwarding
  | .forward transactionId caller finalStatus => some ⟨transactionId, caller, finalStatus⟩
  | _ => none

def forwardings (log : List DaemonEntry) : List Forwarding :=
  log.filterMap fun e => e.op.forwarding

def Forwarding.event (f : Forwarding) (row : ChainRow) : AuditEvent where
  seq := UInt64.ofNat row.seq
  transactionId := row.transactionId
  actionName := row.actionName
  riskLevel := row.riskLevel
  summary := row.summary
  approvalId := row.approvalId
  createdAt := row.createdAt
  chainHash := row.chainHash
  keyId := row.keyId
  callerRole := some f.caller.debug
  finalStatus := f.finalStatus.map JobState.debugLower

def fetchChainRow (failure : Option StoreError) (db : Db) (transactionId : String) :
    Except StoreError (Option ChainRow) :=
  match failure with
  | some e => .error e
  | none =>
    match db.transactions.find? fun row => row.hasId transactionId with
    | none => .ok none
    | some row => row.toChainRow.map some

/-- How far a background task is. The two steps of `submit` are the channel and the counter. -/
inductive BackgroundTask where
  | fetching (f : Forwarding)
  | submitting (event : AuditEvent)
  | counting (outcome : SendOutcome)
  | ended (outcome : Option SendOutcome)

def Forwarding.fetched (f : Forwarding) : Except StoreError (Option ChainRow) → BackgroundTask
  | .ok (some row) => .submitting (f.event row)
  | .ok none => .ended none
  | .error _ => .ended none

/-! ## The forwarder -/

def forwarderQueueDepth : Nat := 4096

def dropWarnThreshold : UInt64 := 8

def maxBackoffSecs : Nat := 60

def initialBackoffSecs : Nat := 1

def nextBackoffSecs (prev : Nat) : Nat := min (min (prev * 2) (2 ^ 64 - 1)) maxBackoffSecs

/-- An event in the channel, with the number of the task that submitted it. -/
structure Submitted where
  task : Nat
  event : AuditEvent

inductive ForwardWarning where
  | queueFull
  | taskGone
  deriving DecidableEq

/-- Where `forwarder_task` waits. -/
inductive SinkPoint where
  | opening
  | receiving
  | sending (item : Submitted) (frame : String)
  | reopening
  | sleeping
  | gone

/-- What `forwarder_task` waits for. -/
inductive SinkAnswer where
  | bound (ok : Bool)
  /-- `recv` has an event, if there is one; the host name is what its file holds then. -/
  | received (hostnameFile : Option (List UInt8))
  | sendTo (ok : Bool)
  | woke
  /-- The runtime drops the task. -/
  | aborted

structure AuditForwarder where
  channel : Channel Submitted forwarderQueueDepth := .empty Submitted forwarderQueueDepth
  drops : UInt64 := 0
  socket : Bool := false
  backoffSecs : Nat := initialBackoffSecs
  point : SinkPoint := .opening
  warnings : List ForwardWarning := []
  /-- Every event that went into the channel. -/
  accepted : List Submitted := []
  /-- Every event that the task is done with, and the datagram where one was sent. -/
  handled : List (Submitted × Option String) := []
  /-- How the bindings behind the first one ended. -/
  rebinds : List Bool := []

namespace AuditForwarder

/-- `try_send` of `submit`. -/
def trySend (f : AuditForwarder) (item : Submitted) : SendOutcome × AuditForwarder :=
  let (outcome, channel) := f.channel.trySend item
  (outcome, { f with
    channel
    accepted := f.accepted ++ if outcome = .sent then [item] else [] })

/-- The counter and the warnings of `submit`. -/
def count (f : AuditForwarder) : SendOutcome → AuditForwarder
  | .sent => { f with drops := 0 }
  | .full => { f with
      drops := f.drops + 1
      warnings := f.warnings ++ if f.drops + 1 = dropWarnThreshold then [.queueFull] else [] }
  | .closed => { f with
      drops := f.drops + 1
      warnings := f.warnings ++ if f.drops = 0 then [.taskGone] else [] }

/-- The event that is out of the channel and not yet dealt with. -/
def inHand (f : AuditForwarder) : List Submitted :=
  match f.point with
  | .sending item _ => [item]
  | _ => []

/-- The datagrams that were sent, in order. -/
def datagrams (f : AuditForwarder) : List String := f.handled.filterMap Prod.snd

/-- `forwarder_task`, from one point where it waits to the next. -/
def resume (pid : UInt32) (facility : UInt8) (f : AuditForwarder) (answer : SinkAnswer) :
    AuditForwarder :=
  match f.point, answer with
  | .opening, .bound ok => { f with socket := ok, point := .receiving }
  | .receiving, .received hostnameFile =>
    match f.channel.recv with
    | none => f
    | some (item, channel) =>
      let frame := formatRfc5424 hostnameFile pid item.event facility
      if f.socket then { f with channel, point := .sending item frame }
      -- the frame is made for nothing
      else { f with channel, handled := f.handled ++ [(item, none)], point := .reopening }
  | .sending item frame, .sendTo true =>
    { f with handled := f.handled ++ [(item, some frame)], point := .receiving }
  | .sending item _, .sendTo false =>
    { f with handled := f.handled ++ [(item, none)], socket := false, point := .reopening }
  | .reopening, .bound true =>
    { f with socket := true, backoffSecs := 1, rebinds := f.rebinds ++ [true],
             point := .receiving }
  | .reopening, .bound false =>
    { f with socket := false, rebinds := f.rebinds ++ [false], point := .sleeping }
  | .sleeping, .woke =>
    { f with backoffSecs := nextBackoffSecs f.backoffSecs, point := .receiving }
  | .gone, _ => f
  | _, .aborted =>
    { f with channel := f.channel.close, point := .gone,
             handled := f.handled ++ (f.inHand ++ f.channel.queue).map (·, none) }
  | _, _ => f

end AuditForwarder

/-! ## The daemon with its forwarder -/

structure ForwardState where
  daemon : DaemonPool
  tasks : List BackgroundTask
  forwarder : AuditForwarder

inductive ForwardInput where
  | daemon (input : DaemonInput)
  /-- A background task goes on; a read of the store may fail. -/
  | background (task : Nat) (failure : Option StoreError)
  | sink (answer : SinkAnswer)

section System
variable (crypto : Crypto) (config : DaemonConfig) (role : Nat → CallerRole) (pid : UInt32)
  (facility : UInt8)

namespace ForwardState

def initial : ForwardState := ⟨(daemonSystem crypto config role).initial, [], {}⟩

/-- A step of the daemon; an audit event that it hands over starts a task. -/
def daemonStep (s : ForwardState) (input : DaemonInput) : ForwardState :=
  let daemon := (daemonSystem crypto config role).step s.daemon input
  { s with
    daemon
    tasks := s.tasks ++
      (forwardings (daemon.log.drop s.daemon.log.length)).map BackgroundTask.fetching }

/-- A step of the background task `k`. -/
def taskStep (s : ForwardState) (k : Nat) (failure : Option StoreError) : ForwardState :=
  match s.tasks[k]? with
  | some (.fetching f) =>
    let fetched := f.fetched (fetchChainRow failure s.daemon.shared f.transactionId)
    { s with tasks := s.tasks.set k fetched }
  | some (.submitting event) =>
    let (outcome, forwarder) := s.forwarder.trySend ⟨k, event⟩
    { s with forwarder, tasks := s.tasks.set k (.counting outcome) }
  | some (.counting outcome) =>
    { s with forwarder := s.forwarder.count outcome, tasks := s.tasks.set k (.ended (some outcome)) }
  | _ => s

def step (s : ForwardState) : ForwardInput → ForwardState
  | .daemon input => s.daemonStep crypto config role input
  | .background k failure => s.taskStep k failure
  | .sink answer => { s with forwarder := s.forwarder.resume pid facility answer }

def run (inputs : List ForwardInput) : ForwardState :=
  inputs.foldl (step crypto config role pid facility) (initial crypto config role)

end ForwardState

end System

/-! ## What the forwarder keeps -/

/-- The bindings that have failed since one has not. The binding at the start is none of them:
behind it nothing is waited for. -/
def failedInARow (rebinds : List Bool) : Nat := (rebinds.reverse.takeWhile (!·)).length

@[simp] theorem failedInARow_true (rebinds : List Bool) :
    failedInARow (rebinds ++ [true]) = 0 := by
  simp [failedInARow]

@[simp] theorem failedInARow_false (rebinds : List Bool) :
    failedInARow (rebinds ++ [false]) = failedInARow rebinds + 1 := by
  simp [failedInARow]

theorem nextBackoffSecs_doubles (k : Nat) :
    nextBackoffSecs (min (2 ^ k) maxBackoffSecs) = min (2 ^ (k + 1)) maxBackoffSecs := by
  unfold nextBackoffSecs maxBackoffSecs
  rw [Nat.pow_succ]
  omega

/-- The wait has doubled with each failed binding that has been waited for, which the one at
the start is not. -/
def AuditForwarder.BacksOff (f : AuditForwarder) : Prop :=
  match f.point with
  | .sleeping => ∃ k, failedInARow f.rebinds = k + 1 ∧ f.backoffSecs = min (2 ^ k) maxBackoffSecs
  | .gone => True
  | _ => f.backoffSecs = min (2 ^ failedInARow f.rebinds) maxBackoffSecs

structure AuditForwarder.Sound (pid : UInt32) (facility : UInt8) (f : AuditForwarder) : Prop where
  order : f.accepted = f.handled.map Prod.fst ++ (f.inHand ++ f.channel.queue)
  sent : ∀ item frame, (item, some frame) ∈ f.handled →
    ∃ hostnameFile, frame = formatRfc5424 hostnameFile pid item.event facility
  made : ∀ item frame, f.point = .sending item frame →
    ∃ hostnameFile, frame = formatRfc5424 hostnameFile pid item.event facility
  backsOff : f.BacksOff

section Forwarder
variable {pid : UInt32} {facility : UInt8} {f : AuditForwarder}

theorem sound_initial : AuditForwarder.Sound pid facility {} where
  order := rfl
  sent _ _ h := by cases h
  made _ _ h := by cases h
  backsOff := rfl

namespace AuditForwarder.Sound

theorem trySend (h : f.Sound pid facility) (item : Submitted) :
    (f.trySend item).2.Sound pid facility := by
  refine ⟨?_, h.sent, h.made, h.backsOff⟩
  show f.accepted ++ _ = f.handled.map Prod.fst ++ (f.inHand ++ (f.channel.trySend item).2.queue)
  rw [Channel.trySend_queue, h.order, List.append_assoc, List.append_assoc]
  rfl

theorem count (h : f.Sound pid facility) (outcome : SendOutcome) :
    (f.count outcome).Sound pid facility := by
  cases outcome <;> exact ⟨h.order, h.sent, h.made, h.backsOff⟩

/-- The task is done with an event. -/
theorem sent_concat (h : f.Sound pid facility) {done : List (Submitted × Option String)}
    (hdone : ∀ item frame, (item, some frame) ∈ done →
      ∃ hostnameFile, frame = formatRfc5424 hostnameFile pid item.event facility)
    (item : Submitted) (frame : String) (hmem : (item, some frame) ∈ f.handled ++ done) :
    ∃ hostnameFile, frame = formatRfc5424 hostnameFile pid item.event facility := by
  rcases List.mem_append.mp hmem with hmem | hmem
  · exact h.sent item frame hmem
  · exact hdone item frame hmem

/-- The task takes the oldest event. -/
theorem receive (h : f.Sound pid facility) (hpoint : f.point = .receiving)
    (hostnameFile : Option (List UInt8)) :
    (f.resume pid facility (.received hostnameFile)).Sound pid facility := by
  have hback := h.backsOff
  have horder := h.order
  unfold BacksOff inHand at *
  rw [hpoint] at hback horder
  unfold AuditForwarder.resume
  rw [hpoint]
  dsimp only
  split
  · exact h
  next item channel hrecv =>
    have hqueue := Channel.recv_queue hrecv
    rw [List.nil_append, hqueue] at horder
    split
    · refine ⟨horder, h.sent, ?_, hback⟩
      intro item' frame hsending
      cases hsending
      exact ⟨hostnameFile, rfl⟩
    · refine ⟨?_, h.sent_concat ?_, ?_, hback⟩
      · show f.accepted = (f.handled ++ [(item, none)]).map Prod.fst ++ ([] ++ channel.queue)
        rw [horder, List.map_append, List.append_assoc]
        rfl
      · intro item' frame hmem
        cases List.mem_singleton.mp hmem
      · intro item' frame hsending
        cases hsending

/-- What was in hand is dealt with. -/
theorem deal (h : f.Sound pid facility) {item : Submitted} {frame : String}
    (hpoint : f.point = .sending item frame) (ok : Bool) :
    (f.resume pid facility (.sendTo ok)).Sound pid facility := by
  have hback := h.backsOff
  have horder := h.order
  unfold BacksOff inHand at *
  rw [hpoint] at hback horder
  unfold AuditForwarder.resume
  rw [hpoint]
  have hrest : ∀ sent, f.accepted =
      (f.handled ++ [(item, sent)]).map Prod.fst ++ ([] ++ f.channel.queue) := by
    intro sent
    rw [horder, List.map_append, List.append_assoc]
    rfl
  cases ok with
  | true =>
    refine ⟨hrest _, h.sent_concat ?_, ?_, hback⟩
    · intro item' frame' hmem
      cases List.mem_singleton.mp hmem
      exact h.made _ _ hpoint
    · intro item' frame' hsending
      cases hsending
  | false =>
    refine ⟨hrest _, h.sent_concat ?_, ?_, hback⟩
    · intro item' frame' hmem
      cases List.mem_singleton.mp hmem
    · intro item' frame' hsending
      cases hsending

/-- A binding, or the sleep behind one, touches no event. -/
theorem rebind {g : AuditForwarder} (h : f.Sound pid facility) (hinHand : g.inHand = f.inHand)
    (hmade : ∀ item frame, g.point ≠ .sending item frame) (hchannel : g.channel = f.channel)
    (haccepted : g.accepted = f.accepted) (hhandled : g.handled = f.handled) (hback : g.BacksOff) :
    g.Sound pid facility := by
  refine ⟨?_, ?_, fun item frame hsending => absurd hsending (hmade item frame), hback⟩
  · rw [haccepted, hhandled, hinHand, hchannel]
    exact h.order
  · rw [hhandled]
    exact h.sent

/-- All that is left is lost. -/
theorem abort (h : f.Sound pid facility) (hpoint : f.point ≠ .gone) :
    (f.resume pid facility .aborted).Sound pid facility := by
  have hstep : f.resume pid facility .aborted = { f with
      channel := f.channel.close
      point := .gone
      handled := f.handled ++ (f.inHand ++ f.channel.queue).map (·, none) } := by
    unfold AuditForwarder.resume
    cases hp : f.point with
    | gone => exact absurd hp hpoint
    | _ => rfl
  have hfst : ((f.inHand ++ f.channel.queue).map (·, (none : Option String))).map Prod.fst =
      f.inHand ++ f.channel.queue := by
    rw [List.map_map]
    exact List.map_id _
  rw [hstep]
  refine ⟨?_, h.sent_concat ?_, ?_, trivial⟩
  · show f.accepted = (f.handled ++ _).map Prod.fst ++ ([] ++ [])
    rw [List.map_append, hfst, h.order, List.append_nil, List.append_nil]
  · intro item frame hmem
    obtain ⟨lost, -, hlost⟩ := List.mem_map.mp hmem
    cases hlost
  · intro item frame hsending
    cases hsending

theorem resume (h : f.Sound pid facility) (answer : SinkAnswer) :
    (f.resume pid facility answer).Sound pid facility := by
  have hback := h.backsOff
  unfold BacksOff at hback
  cases hpoint : f.point with
  | opening =>
    rw [hpoint] at hback
    cases answer with
    | bound ok =>
      refine h.rebind ?_ ?_ ?_ ?_ ?_ ?_ <;> simp [AuditForwarder.resume, inHand, BacksOff, hpoint, hback]
    | aborted => exact h.abort (by rw [hpoint]; simp)
    | _ => simpa [AuditForwarder.resume, hpoint] using h
  | receiving =>
    cases answer with
    | received hostnameFile => exact h.receive hpoint hostnameFile
    | aborted => exact h.abort (by rw [hpoint]; simp)
    | _ => simpa [AuditForwarder.resume, hpoint] using h
  | sending item frame =>
    cases answer with
    | sendTo ok => exact h.deal hpoint ok
    | aborted => exact h.abort (by rw [hpoint]; simp)
    | _ => simpa [AuditForwarder.resume, hpoint] using h
  | reopening =>
    rw [hpoint] at hback
    cases answer with
    | bound ok =>
      cases ok <;> refine h.rebind ?_ ?_ ?_ ?_ ?_ ?_ <;>
        simp [AuditForwarder.resume, inHand, BacksOff, hpoint, hback, maxBackoffSecs]
    | aborted => exact h.abort (by rw [hpoint]; simp)
    | _ => simpa [AuditForwarder.resume, hpoint] using h
  | sleeping =>
    rw [hpoint] at hback
    obtain ⟨k, hfailed, hsecs⟩ := hback
    cases answer with
    | woke =>
      refine h.rebind ?_ ?_ ?_ ?_ ?_ ?_ <;>
        simp [AuditForwarder.resume, inHand, BacksOff, hpoint, hfailed, hsecs,
          nextBackoffSecs_doubles]
    | aborted => exact h.abort (by rw [hpoint]; simp)
    | _ => simpa [AuditForwarder.resume, hpoint] using h
  | gone => simpa [AuditForwarder.resume, hpoint] using h

end AuditForwarder.Sound

@[simp] theorem resume_accepted (f : AuditForwarder) (answer : SinkAnswer) :
    (f.resume pid facility answer).accepted = f.accepted := by
  unfold AuditForwarder.resume
  split
  case h_2 =>
    split
    · rfl
    · dsimp only
      split <;> rfl
  all_goals rfl

@[simp] theorem count_accepted (f : AuditForwarder) (outcome : SendOutcome) :
    (f.count outcome).accepted = f.accepted := by
  cases outcome <;> rfl

end Forwarder

/-! ## The tasks and the log -/

/-- The event was made of a row that is in the table. -/
def Forwarding.Backed (f : Forwarding) (db : Db) (event : AuditEvent) : Prop :=
  ∃ row ∈ db.transactions, ∃ chainRow, row.toChainRow = .ok chainRow ∧
    row.transactionId = f.transactionId ∧ event = f.event chainRow

/-- The task has put its event into the channel. -/
def BackgroundTask.Sent : BackgroundTask → Prop
  | .counting outcome => outcome = .sent
  | .ended outcome => outcome = some .sent
  | _ => False

structure ForwardState.Sound (pid : UInt32) (facility : UInt8) (s : ForwardState) : Prop where
  forwarder : s.forwarder.Sound pid facility
  started : s.tasks.length = (forwardings s.daemon.log).length
  fetching : ∀ (k : Nat) f, s.tasks[k]? = some (.fetching f) → (forwardings s.daemon.log)[k]? = some f
  submitting : ∀ (k : Nat) event, s.tasks[k]? = some (.submitting event) →
    ∃ f, (forwardings s.daemon.log)[k]? = some f ∧ f.Backed s.daemon.shared event
  accepted : ∀ item ∈ s.forwarder.accepted, ∃ f,
    (forwardings s.daemon.log)[item.task]? = some f ∧ f.Backed s.daemon.shared item.event
  sent : ∀ (k : Nat), k ∈ s.forwarder.accepted.map Submitted.task ↔
    ∃ task, s.tasks[k]? = some task ∧ task.Sent
  once : (s.forwarder.accepted.map Submitted.task).Nodup

section Tasks
variable {crypto : Crypto} {config : DaemonConfig} {role : Nat → CallerRole} {pid : UInt32}
  {facility : UInt8} {s : ForwardState}

/-- No call changes what is forwarded of a row. -/
theorem Forwarding.Backed.exec {f : Forwarding} {db : Db} {event : AuditEvent}
    (h : f.Backed db event) (env : DaemonEnv) (o : DaemonOp) :
    f.Backed (o.exec crypto config.audit env db).2 event := by
  cases o with
  | store call =>
    have heffect := call_effect crypto config.audit env.store db call
    simp only [DaemonOp.exec]
    generalize (call.exec crypto config.audit env.store db).1 = answer at heffect
    generalize (call.exec crypto config.audit env.store db).2 = db' at heffect
    obtain ⟨row, hrow, chainRow, hchain, hid, hevent⟩ := h
    have hset : ∀ newStatus where_, f.Backed (db.setStatus newStatus where_).2 event := by
      intro newStatus where_
      refine ⟨_, List.mem_map_of_mem hrow, chainRow, ?_, ?_, hevent⟩
      · split <;> exact hchain
      · split <;> exact hid
    cases heffect with
    | inserted _ _ hins hrows =>
      exact ⟨row, by rw [hrows]; exact List.mem_append_left _ hrow, chainRow, hchain, hid, hevent⟩
    | claimed | updated | canceled => exact hset _ _
    | _ => exact ⟨row, hrow, chainRow, hchain, hid, hevent⟩
  | _ => exact h

theorem Forwarding.backed_fetched {f : Forwarding} {failure : Option StoreError} {db : Db}
    {event : AuditEvent}
    (h : f.fetched (fetchChainRow failure db f.transactionId) = .submitting event) :
    f.Backed db event := by
  cases failure with
  | some e => cases h
  | none =>
    unfold fetchChainRow at h
    dsimp only at h
    cases hfind : db.transactions.find? fun row => row.hasId f.transactionId with
    | none =>
      rw [hfind] at h
      cases h
    | some row =>
      rw [hfind] at h
      cases hchain : row.toChainRow with
      | error e =>
        simp only [hchain] at h
        cases h
      | ok chainRow =>
        simp only [hchain] at h
        cases h
        have hid := List.find?_some hfind
        exact ⟨row, List.mem_of_find?_eq_some hfind, chainRow, hchain, beq_iff_eq.mp hid, rfl⟩

theorem forwardings_append (log new : List DaemonEntry) :
    forwardings (log ++ new) = forwardings log ++ forwardings new := List.filterMap_append ..

/-- An element of a list with one place replaced. -/
theorem getElem?_set_some {α : Type} {xs : List α} {k j : Nat} {a b : α} {c : α}
    (hk : xs[k]? = some c) :
    (xs.set k a)[j]? = some b ↔ (j = k ∧ b = a) ∨ (j ≠ k ∧ xs[j]? = some b) := by
  have hlt := (List.getElem?_eq_some_iff.mp hk).1
  by_cases hj : j = k
  · subst hj
    rw [List.getElem?_set_self hlt, Option.some.injEq]
    constructor
    · exact fun h => Or.inl ⟨rfl, h.symm⟩
    · rintro (⟨-, h⟩ | ⟨hne, -⟩)
      · exact h.symm
      · exact absurd rfl hne
  · rw [List.getElem?_set_ne (Ne.symm hj)]
    simp [hj]

namespace ForwardState.Sound

/-- The daemon goes on: each audit event it hands over gets a task. -/
theorem grow (h : s.Sound pid facility) {daemon : DaemonPool} {new : List DaemonEntry}
    (hlog : daemon.log = s.daemon.log ++ new)
    (hbacked : ∀ (f : Forwarding) event, f.Backed s.daemon.shared event →
      f.Backed daemon.shared event) :
    ({ s with
       daemon
       tasks := s.tasks ++ (forwardings new).map BackgroundTask.fetching } : ForwardState).Sound
      pid facility := by
  have hold : ∀ {k : Nat} {f : Forwarding}, (forwardings s.daemon.log)[k]? = some f →
      (forwardings daemon.log)[k]? = some f := by
    intro k f hk
    rw [hlog, forwardings_append, List.getElem?_append_left (List.getElem?_eq_some_iff.mp hk).1]
    exact hk
  have htask : ∀ {k : Nat} {task : BackgroundTask},
      (s.tasks ++ (forwardings new).map BackgroundTask.fetching)[k]? = some task →
      s.tasks[k]? = some task ∨ ∃ f, task = .fetching f ∧ (forwardings daemon.log)[k]? = some f := by
    intro k task hk
    rcases Nat.lt_or_ge k s.tasks.length with hlt | hge
    · rw [List.getElem?_append_left hlt] at hk
      exact Or.inl hk
    · rw [List.getElem?_append_right hge, List.getElem?_map] at hk
      obtain ⟨f, hf, rfl⟩ := Option.map_eq_some_iff.mp hk
      rw [h.started] at hge hf
      refine Or.inr ⟨f, rfl, ?_⟩
      rw [hlog, forwardings_append, List.getElem?_append_right hge]
      exact hf
  refine ⟨h.forwarder, ?_, ?_, ?_, ?_, fun k => ?_, h.once⟩
  · rw [hlog, forwardings_append, List.length_append, List.length_append, List.length_map,
      h.started]
  · intro k f hk
    rcases htask hk with hk | ⟨f', hf', hk⟩
    · exact hold (h.fetching k f hk)
    · cases hf'
      exact hk
  · intro k event hk
    rcases htask hk with hk | ⟨f', hf', -⟩
    · obtain ⟨f, hf, hback⟩ := h.submitting k event hk
      exact ⟨f, hold hf, hbacked f event hback⟩
    · cases hf'
  · intro item hitem
    obtain ⟨f, hf, hback⟩ := h.accepted item hitem
    exact ⟨f, hold hf, hbacked f item.event hback⟩
  · rw [h.sent k]
    constructor
    · rintro ⟨task, hk, hsent⟩
      exact ⟨task, (List.getElem?_append_left (List.getElem?_eq_some_iff.mp hk).1).trans hk, hsent⟩
    · rintro ⟨task, hk, hsent⟩
      rcases htask hk with hk | ⟨f, rfl, -⟩
      · exact ⟨task, hk, hsent⟩
      · exact hsent.elim

theorem daemonStep (h : s.Sound pid facility) (input : DaemonInput) :
    (s.daemonStep crypto config role input).Sound pid facility := by
  have hnew : ∃ new, ((daemonSystem crypto config role).step s.daemon input).log =
      s.daemon.log ++ new ∧ ∀ (f : Forwarding) event, f.Backed s.daemon.shared event →
        f.Backed ((daemonSystem crypto config role).step s.daemon input).shared event := by
    rcases System.step_cases (daemonSystem crypto config role) s.daemon input with
      he | ⟨t, -, -, he⟩ | ⟨i, env, t, o, k, -, -, he⟩
    · rw [he]
      exact ⟨[], (List.append_nil _).symm, fun _ _ hback => hback⟩
    · rw [he]
      exact ⟨[], (List.append_nil _).symm, fun _ _ hback => hback⟩
    · rw [he]
      exact ⟨_, rfl, fun _ _ hback => hback.exec env o⟩
  obtain ⟨new, hlog, hbacked⟩ := hnew
  have hgrow := h.grow hlog hbacked
  unfold ForwardState.daemonStep
  dsimp only
  rw [hlog, List.drop_left]
  exact hgrow

/-- A step of task `k` that puts nothing into the channel. -/
theorem setTask (h : s.Sound pid facility) {k : Nat} {task task' : BackgroundTask}
    (hk : s.tasks[k]? = some task) (hsent : task'.Sent ↔ task.Sent)
    (hfetching : ∀ f, task' ≠ .fetching f)
    (hsubmitting : ∀ event, task' = .submitting event →
      ∃ f, (forwardings s.daemon.log)[k]? = some f ∧ f.Backed s.daemon.shared event)
    {forwarder : AuditForwarder} (hforwarder : forwarder.Sound pid facility)
    (haccepted : forwarder.accepted = s.forwarder.accepted) :
    ({ s with forwarder, tasks := s.tasks.set k task' } : ForwardState).Sound pid facility := by
  refine ⟨hforwarder, ?_, ?_, ?_, ?_, fun j => ?_, ?_⟩
  · rw [List.length_set]
    exact h.started
  · intro j f hj
    rcases (getElem?_set_some hk).mp hj with ⟨-, hf⟩ | ⟨-, hj⟩
    · exact absurd hf.symm (hfetching f)
    · exact h.fetching j f hj
  · intro j event hj
    rcases (getElem?_set_some hk).mp hj with ⟨rfl, hevent⟩ | ⟨-, hj⟩
    · exact hsubmitting event hevent.symm
    · exact h.submitting j event hj
  · rw [haccepted]
    exact h.accepted
  · rw [haccepted, h.sent j]
    constructor
    · rintro ⟨u, hj, hu⟩
      by_cases hjk : j = k
      · subst hjk
        obtain rfl := Option.some.inj (hk.symm.trans hj)
        exact ⟨task', (getElem?_set_some hk).mpr (Or.inl ⟨rfl, rfl⟩), hsent.mpr hu⟩
      · exact ⟨u, (getElem?_set_some hk).mpr (Or.inr ⟨hjk, hj⟩), hu⟩
    · rintro ⟨u, hj, hu⟩
      rcases (getElem?_set_some hk).mp hj with ⟨rfl, rfl⟩ | ⟨-, hj⟩
      · exact ⟨task, hk, hsent.mp hu⟩
      · exact ⟨u, hj, hu⟩
  · rw [haccepted]
    exact h.once

/-- The task's event goes into the channel, as the last one and for the first time. -/
theorem submitted (h : s.Sound pid facility) {k : Nat} {event : AuditEvent}
    (hk : s.tasks[k]? = some (.submitting event)) {forwarder : AuditForwarder}
    (hforwarder : forwarder.Sound pid facility)
    (haccepted : forwarder.accepted = s.forwarder.accepted ++ [⟨k, event⟩]) :
    ({ s with forwarder, tasks := s.tasks.set k (.counting .sent) } : ForwardState).Sound
      pid facility := by
  have hnew : k ∉ s.forwarder.accepted.map Submitted.task := by
    rw [h.sent k]
    rintro ⟨task, htask, hsent⟩
    obtain rfl := Option.some.inj (hk.symm.trans htask)
    exact hsent
  have hmap : forwarder.accepted.map Submitted.task =
      s.forwarder.accepted.map Submitted.task ++ [k] := by
    rw [haccepted, List.map_append]
    rfl
  refine ⟨hforwarder, ?_, ?_, ?_, ?_, fun j => ?_, ?_⟩
  · rw [List.length_set]
    exact h.started
  · intro j f hj
    rcases (getElem?_set_some hk).mp hj with ⟨-, hf⟩ | ⟨-, hj⟩
    · cases hf
    · exact h.fetching j f hj
  · intro j event' hj
    rcases (getElem?_set_some hk).mp hj with ⟨-, hevent⟩ | ⟨-, hj⟩
    · cases hevent
    · exact h.submitting j event' hj
  · intro item hitem
    rw [haccepted] at hitem
    rcases List.mem_append.mp hitem with hitem | hitem
    · exact h.accepted item hitem
    · obtain rfl := List.mem_singleton.mp hitem
      exact h.submitting k event hk
  · rw [hmap, List.mem_append, List.mem_singleton, h.sent j]
    constructor
    · rintro (⟨u, hj, hu⟩ | rfl)
      · have hjk : j ≠ k := fun hjk => hnew (hjk ▸ (h.sent j).mpr ⟨u, hj, hu⟩)
        exact ⟨u, (getElem?_set_some hk).mpr (Or.inr ⟨hjk, hj⟩), hu⟩
      · exact ⟨_, (getElem?_set_some hk).mpr (Or.inl ⟨rfl, rfl⟩), rfl⟩
    · rintro ⟨u, hj, hu⟩
      rcases (getElem?_set_some hk).mp hj with ⟨rfl, -⟩ | ⟨-, hj⟩
      · exact Or.inr rfl
      · exact Or.inl ⟨u, hj, hu⟩
  · rw [hmap, List.nodup_append]
    refine ⟨h.once, List.nodup_singleton k, ?_⟩
    intro a ha b hb hab
    obtain rfl := List.mem_singleton.mp hb
    exact hnew (hab ▸ ha)

theorem taskStep (h : s.Sound pid facility) (k : Nat) (failure : Option StoreError) :
    (s.taskStep k failure).Sound pid facility := by
  unfold ForwardState.taskStep
  split
  next f hk =>
    refine h.setTask hk ?_ ?_ ?_ h.forwarder rfl
    · unfold Forwarding.fetched
      split <;> simp [BackgroundTask.Sent]
    · intro f'
      unfold Forwarding.fetched
      split <;> simp
    · exact fun event hevent => ⟨f, h.fetching k f hk, Forwarding.backed_fetched hevent⟩
  next event hk =>
    have hforwarder := h.forwarder.trySend ⟨k, event⟩
    have haccepted : (s.forwarder.trySend ⟨k, event⟩).2.accepted = s.forwarder.accepted ++
        if (s.forwarder.trySend ⟨k, event⟩).1 = .sent then [⟨k, event⟩] else [] := rfl
    generalize s.forwarder.trySend ⟨k, event⟩ = answer at hforwarder haccepted
    obtain ⟨outcome, forwarder⟩ := answer
    by_cases hsent : outcome = .sent
    · subst hsent
      exact h.submitted hk hforwarder haccepted
    · dsimp only at haccepted
      rw [if_neg hsent, List.append_nil] at haccepted
      refine h.setTask hk ?_ (fun f => by simp) (fun event' hevent => by cases hevent) hforwarder
        haccepted
      simp [BackgroundTask.Sent, hsent]
  next outcome hk =>
    refine h.setTask hk ?_ (fun f => by simp) (fun event' hevent => by cases hevent)
      (h.forwarder.count outcome) (count_accepted _ _)
    simp [BackgroundTask.Sent]
  · exact h

theorem sinkStep (h : s.Sound pid facility) (answer : SinkAnswer) :
    ({ s with forwarder := s.forwarder.resume pid facility answer } : ForwardState).Sound
      pid facility := by
  refine ⟨h.forwarder.resume answer, h.started, h.fetching, h.submitting, ?_, ?_, ?_⟩
  · rw [resume_accepted]
    exact h.accepted
  · rw [resume_accepted]
    exact h.sent
  · rw [resume_accepted]
    exact h.once

end ForwardState.Sound

end Tasks

end Sysknife
