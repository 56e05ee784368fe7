import Sysknife.TerminalReply

/-!
# What the automatic rollback restores

When the command of an action fails, `handle_execute` may run `rpm-ostree rollback` and
then reports the action as rolled back. The deployments of the machine are followed along
the events of a run: a command that starts may put a new one in front, and a rollback
swaps the first two.
-/

namespace Sysknife

open Interaction

/-! ## Deployments -/

section Deployments
variable {δ : Type}

/-- `rpm-ostree rollback`. The first deployment is the one that is booted by default. -/
def swapFirst : List δ → List δ
  | a :: b :: rest => b :: a :: rest
  | ds => ds

theorem head?_swapFirst (ds : List δ) : (swapFirst ds).head? = (ds[1]? <|> ds.head?) := by
  match ds with
  | [] => rfl
  | [_] => rfl
  | _ :: _ :: _ => rfl

/-- A swap takes back what one deployment in front has changed. -/
theorem head?_swapFirst_cons_iff (d : δ) (ds : List δ) :
    (swapFirst (d :: ds)).head? = ds.head? ↔ ds ≠ [] := by
  rw [head?_swapFirst]
  cases ds <;> simp

/-- A swap on its own changes the default, unless the first two are the same. -/
theorem head?_swapFirst_iff (ds : List δ) :
    (swapFirst ds).head? = ds.head? ↔ ds.length < 2 ∨ ds[0]? = ds[1]? := by
  rw [head?_swapFirst]
  match ds with
  | [] => simp
  | [_] => simp
  | a :: b :: rest => simp [eq_comm]

end Deployments

/-! ## The events that matter -/

namespace DaemonEvent

/-- The command of the action has been started. -/
def startsCommand : DaemonEvent → Bool
  | ⟨.spawn .., .ok _⟩ => true
  | _ => false

/-- The rollback command has exited with 0. -/
def rollsBack : DaemonEvent → Bool
  | ⟨.execute spec, .ok output⟩ =>
    spec.mechanism == .command "rpm-ostree" ["rollback"] && output.isSuccess
  | _ => false

/-- The client is told that the action was rolled back. -/
def reportsRolledBack : DaemonEvent → Bool
  | ⟨.send (.jobCompleted _ result), _⟩ => result.status == "rolled_back"
  | _ => false

/-- Nothing of the three. -/
def Neutral (e : DaemonEvent) : Prop :=
  startsCommand e = false ∧ rollsBack e = false ∧ reportsRolledBack e = false

end DaemonEvent

open DaemonEvent

section Machine
variable {δ : Type} (staged : Option δ)

/-- What an event does to the deployments; `staged` is what the command of the action puts
in front of them once it runs, if it gets that far. -/
def deploymentsStep (ds : List δ) (e : DaemonEvent) : List δ :=
  if startsCommand e then staged.toList ++ ds else if rollsBack e then swapFirst ds else ds

def deploymentsAfter (ds : List δ) (evs : List DaemonEvent) : List δ :=
  evs.foldl (deploymentsStep staged) ds

/-- Once the client is told of a rollback, the default deployment is what it was. -/
def RestoresDefault (ds : List δ) (evs : List DaemonEvent) : Prop :=
  evs.any reportsRolledBack = true → (deploymentsAfter staged ds evs).head? = ds.head?

/-- What is known along a run. -/
structure RunState (δ : Type) where
  deployments : List δ
  reported : Bool

def RunState.observe (s : RunState δ) (e : DaemonEvent) : RunState δ where
  deployments := deploymentsStep staged s.deployments e
  reported := s.reported || reportsRolledBack e

def runMonitor : Monitor (RunState δ) DaemonOp DaemonOp.Answer where
  guard _ _ := True
  next s o r := s.observe staged ⟨o, r⟩

theorem RunState.observe_neutral (s : RunState δ) {e : DaemonEvent} (h : e.Neutral) :
    s.observe staged e = s := by
  obtain ⟨hstart, hback, hreport⟩ := h
  simp [observe, deploymentsStep, hstart, hback, hreport]

/-- The record of a run is what its events say. -/
theorem after_runMonitor (ds : List δ) (evs : List DaemonEvent) :
    (runMonitor staged).after ⟨ds, false⟩ evs =
      ⟨deploymentsAfter staged ds evs, evs.any reportsRolledBack⟩ := by
  induction evs using List.reverseRecOn with
  | nil => rfl
  | append_singleton evs e ih =>
    rw [Monitor.after_concat, ih]
    simp [runMonitor, RunState.observe, deploymentsAfter]

end Machine

/-! ## What a request meets -/

/-- Everything an execute request meets. What is asked once has its answer in `outside`, and
`announced` is whether the `job_started` frame goes out; whether another frame does may
depend on all that has happened. -/
structure ExecuteWorld where
  outside : Outside
  announced : Except FramingError Unit
  frames : List DaemonEvent → DaemonResponse → Except FramingError Unit

def ExecuteWorld.answers (w : ExecuteWorld) : World DaemonOp DaemonOp.Answer := fun log op =>
  match op with
  | .send (.jobStarted ..) => some w.announced
  | .send response => some (w.frames log response)
  | op => w.outside.answers log op

theorem ExecuteWorld.answers_send (w : ExecuteWorld) (log : List DaemonEvent)
    (response : DaemonResponse) : ∃ answer, w.answers log (.send response) = some answer := by
  cases response <;> exact ⟨_, rfl⟩

/-- The command of the action can be started. -/
def Outside.starts (o : Outside) (spec : ActionSpec) : Bool :=
  match spec.mechanism with
  | .command .. => o.child.isOk
  | _ => false

/-- The action fails and is one that can be rolled back, and the rollback command exits
with 0. -/
structure Outside.RollsBack (o : Outside) (actionName : String) (spec : ActionSpec) : Prop where
  fails : (o.output spec).toOption.any ExecutionOutput.isSuccess = false
  available : spec.rollbackAvailable = true
  offered : (rollbackSpecFor actionName).isSome = true
  exits : o.executed.toOption.any ExecutionOutput.isSuccess = true

instance (o : Outside) (actionName : String) (spec : ActionSpec) :
    Decidable (o.RollsBack actionName spec) :=
  decidable_of_iff (((o.output spec).toOption.any ExecutionOutput.isSuccess = false ∧
    spec.rollbackAvailable = true) ∧ (rollbackSpecFor actionName).isSome = true ∧
      o.executed.toOption.any ExecutionOutput.isSuccess = true)
    ⟨fun h => ⟨h.1.1, h.1.2, h.2.1, h.2.2⟩, fun h => ⟨⟨h.fails, h.available⟩, h.offered, h.exits⟩⟩

/-- The deployments once the command has had its chance. -/
def afterCommand {δ : Type} (staged : Option δ) (started : Bool) (ds : List δ) : List δ :=
  if started then staged.toList ++ ds else ds

/-- The deployments once the rollback has had its chance. -/
def afterRollback {δ : Type} (o : Outside) (actionName : String) (spec : ActionSpec)
    (ds : List δ) : List δ :=
  if o.RollsBack actionName spec then swapFirst ds else ds

/-- The action has failed exactly when it has not succeeded. -/
theorem initialOutcome_failed_iff (actionName : String) (spec : ActionSpec)
    (output : Except ExecutorError ExecutionOutput) :
    (initialOutcome actionName spec output).1 = .failed ↔
      output.toOption.any ExecutionOutput.isSuccess = false := by
  cases output with
  | error e => exact iff_of_true rfl rfl
  | ok out =>
    show (initialOutcome actionName spec (.ok out)).1 = .failed ↔ out.isSuccess = false
    unfold initialOutcome
    cases hout : out.isSuccess with
    | false => simp [hout]
    | true => cases spec.rebootRequired <;> simp [hout]

theorem initialOutcome_ne_rolledBack (actionName : String) (spec : ActionSpec)
    (output : Except ExecutorError ExecutionOutput) :
    (initialOutcome actionName spec output).1 ≠ .rolledBack := by
  unfold initialOutcome
  split
  · split_ifs <;> exact nofun
  · exact nofun

/-! ## The handler -/

section Handler
variable {δ : Type} {staged : Option δ} {w : ExecuteWorld} {s : RunState δ}
  {log : List DaemonEvent}

/-- An operation that changes nothing that is recorded. -/
theorem ends_neutral {α : Type} {post : RunState δ → α → Prop} {o : DaemonOp}
    {k : o.Answer → DaemonProg α} (answer : o.Answer) (hanswer : w.answers log o = some answer)
    (hquiet : DaemonEvent.Neutral ⟨o, answer⟩)
    (hk : (runMonitor staged).Ends w.answers post s (log ++ [⟨o, answer⟩]) (k answer)) :
    (runMonitor staged).Ends w.answers post s log (.op o k) := by
  refine .op hanswer ?_
  show (runMonitor staged).Ends w.answers post (s.observe staged ⟨o, answer⟩) _ _
  rw [s.observe_neutral staged hquiet]
  exact hk

theorem sendResponse_ends {post : RunState δ → Except HandlerError Unit → Prop}
    {response : DaemonResponse} (hquiet : ∀ r, DaemonEvent.Neutral ⟨.send response, r⟩)
    (h : ∀ result, post s result) :
    (runMonitor staged).Ends w.answers post s log (sendResponse response) := by
  obtain ⟨answer, hanswer⟩ := w.answers_send log response
  unfold sendResponse
  rw [daemonOp_bind]
  refine ends_neutral answer hanswer (hquiet answer) ?_
  cases answer <;> exact .ret (h _)

theorem sendError_ends {post : RunState δ → Except HandlerError Unit → Prop}
    {requestId category message : String} (h : ∀ result, post s result) :
    (runMonitor staged).Ends w.answers post s log (sendError requestId category message) :=
  sendResponse_ends (fun _ => ⟨rfl, rfl, rfl⟩) h

theorem sendProgress_ends (jobId line : String) :
    (runMonitor staged).Ends w.answers (fun q _ => q = s) s log (sendProgress jobId line) :=
  (sendResponse_ends (fun _ => ⟨rfl, rfl, rfl⟩) fun _ => rfl).bind fun _ _ _ h => .ret h

theorem sendLines_ends (jobId : String) (lines : List String) :
    (runMonitor staged).Ends w.answers (fun q _ => q = s) s log (sendLines jobId lines) := by
  induction lines generalizing log with
  | nil => exact .ret rfl
  | cons line rest ih =>
    unfold sendLines
    split
    · refine (sendProgress_ends jobId line).bind fun q log _ hq => ?_
      subst hq
      exact ih
    · exact ih

theorem forwardEvent_ends {config : DaemonConfig} {caller : CallerRole} {transactionId : String}
    {finalStatus : Option JobState} :
    (runMonitor staged).Ends w.answers (fun q _ => q = s) s log
      (forwardEvent config caller transactionId finalStatus) := by
  unfold forwardEvent
  split
  · exact ends_neutral () rfl ⟨rfl, rfl, rfl⟩ (.ret rfl)
  · exact .ret rfl

/-- The command has had its chance, and its output is known. -/
theorem runSpec_ends (jobId : String) (spec : ActionSpec) :
    (runMonitor staged).Ends w.answers
      (fun q output => q = ⟨afterCommand staged (w.outside.starts spec) s.deployments, s.reported⟩ ∧
        output = w.outside.output spec) s log (runSpec jobId spec) := by
  unfold runSpec Outside.starts Outside.output
  cases spec.mechanism with
  | command program args =>
    dsimp only
    unfold streamCommandWithProgress
    rw [daemonOp_bind]
    refine .op rfl ?_
    cases hchild : w.outside.child with
    | error e =>
      refine .ret ⟨?_, rfl⟩
      exact s.observe_neutral staged ⟨rfl, rfl, rfl⟩
    | ok child =>
      have hran : s.observe staged ⟨.spawn program args, .ok child⟩ =
          ⟨afterCommand staged true s.deployments, s.reported⟩ := by
        simp [RunState.observe, deploymentsStep, afterCommand, startsCommand, reportsRolledBack]
      obtain ⟨lines, readError, exit, stderr⟩ := child
      refine (sendLines_ends jobId lines).bind fun q log _ hq => ?_
      subst hq
      cases readError with
      | some e => exact .ret ⟨hran, rfl⟩
      | none =>
        cases exit with
        | error e => exact .ret ⟨hran, rfl⟩
        | ok code => cases stderr <;> exact .ret ⟨hran, rfl⟩
  | _ =>
    exact ends_neutral w.outside.executedSpec rfl ⟨rfl, rfl, rfl⟩ (.ret ⟨rfl, rfl⟩)

theorem rollbackSpecFor_mechanism {actionName : String} {spec : ActionSpec}
    (h : rollbackSpecFor actionName = some spec) :
    spec.mechanism = .command "rpm-ostree" ["rollback"] := by
  unfold rollbackSpecFor at h
  split at h
  · next action _ => cases action <;> cases h <;> rfl
  · cases h

/-- The rollback has had its chance, and the outcome says whether it was one. -/
theorem attemptRollbackIfNeeded_ends (jobId actionName : String) (spec : ActionSpec)
    {status : JobState} (summary : String)
    (hfailed : status = .failed ↔
      (w.outside.output spec).toOption.any ExecutionOutput.isSuccess = false)
    (hstatus : status ≠ .rolledBack) :
    (runMonitor staged).Ends w.answers
      (fun q outcome => q = ⟨afterRollback w.outside actionName spec s.deployments, s.reported⟩ ∧
        (outcome.1 = .rolledBack ↔ w.outside.RollsBack actionName spec)) s log
      (attemptRollbackIfNeeded jobId actionName spec status summary) := by
  have hkept : ¬ w.outside.RollsBack actionName spec →
      s = ⟨afterRollback w.outside actionName spec s.deployments, s.reported⟩ ∧
        (status = .rolledBack ↔ w.outside.RollsBack actionName spec) := by
    intro hnot
    rw [afterRollback, if_neg hnot]
    exact ⟨rfl, iff_of_false hstatus hnot⟩
  unfold attemptRollbackIfNeeded
  split
  · next hskip =>
    refine .ret (hkept fun h => ?_)
    simp [hfailed.mpr h.fails, h.available] at hskip
  next hgo =>
  have hgo' : status = .failed ∧ spec.rollbackAvailable = true := by simpa using hgo
  split
  · next hnone =>
    refine .ret (hkept fun h => ?_)
    have hoffered := h.offered
    rw [hnone] at hoffered
    cases hoffered
  next rbSpec hrb =>
  have hmechanism := rollbackSpecFor_mechanism hrb
  refine (sendProgress_ends jobId _).bind fun q log _ hq => ?_
  subst hq
  rw [daemonOp_bind]
  by_cases hexits : w.outside.executed.toOption.any ExecutionOutput.isSuccess = true
  · have hrolls : w.outside.RollsBack actionName spec :=
      ⟨hfailed.mp hgo'.1, hgo'.2, by rw [hrb]; rfl, hexits⟩
    obtain ⟨output, houtput⟩ : ∃ output, w.outside.executed = .ok output := by
      cases hexecuted : w.outside.executed with
      | ok output => exact ⟨output, rfl⟩
      | error e =>
        rw [hexecuted] at hexits
        cases hexits
    rw [houtput] at hexits
    have hback : rollsBack ⟨.execute rbSpec, .ok output⟩ = true := by
      simp only [rollsBack, hmechanism, beq_self_eq_true, Bool.true_and]
      exact hexits
    have hanswer : w.answers log (.execute rbSpec) = some (.ok output) := congrArg some houtput
    refine .op hanswer ?_
    rw [if_pos hexits]
    refine (sendProgress_ends jobId _).bind fun p _ _ hp => .ret ⟨?_, iff_of_true rfl hrolls⟩
    rw [hp, afterRollback, if_pos hrolls]
    simp [runMonitor, RunState.observe, deploymentsStep, startsCommand, hback, reportsRolledBack]
  · have hnot : ¬ w.outside.RollsBack actionName spec := fun h => hexits h.exits
    refine ends_neutral w.outside.executed rfl ⟨rfl, ?_, rfl⟩ ?_
    · cases hexecuted : w.outside.executed with
      | error e => rfl
      | ok output =>
        rw [hexecuted] at hexits
        have hexit : output.isSuccess = false := by simpa [Except.toOption] using hexits
        simp [rollsBack, hexit]
    · rw [if_neg hexits]
      refine (sendProgress_ends jobId _).bind fun p _ _ hp => .ret ?_
      subst hp
      exact hkept hnot

theorem jobStateStr_rolledBack (status : JobState) :
    (jobStateStr status == "rolled_back") = true ↔ status = .rolledBack := by
  cases status <;> decide

/-- The client is told of a rollback exactly when the final status says so. -/
theorem settle_ends {config : DaemonConfig} {caller : CallerRole}
    {transactionId jobId summary : String} {finalStatus : JobState} {rollbackRef : Option String}
    (hreported : s.reported = false) :
    (runMonitor staged).Ends w.answers
      (fun q _ => q = ⟨s.deployments, finalStatus == .rolledBack⟩) s log
      (settle config caller transactionId jobId finalStatus summary rollbackRef) := by
  have hreport : ∀ (warnings : List String) (log : List DaemonEvent),
      (runMonitor staged).Ends w.answers
        (fun q _ => q = ⟨s.deployments, finalStatus == .rolledBack⟩) s log
        (sendResponse (.jobCompleted jobId {
          status := jobStateStr finalStatus
          summary
          warnings
          jobId
          needsReboot := finalStatus == .needsReboot
          rollbackRef
          transactionId })) := by
    intro warnings log
    obtain ⟨answer, hanswer⟩ := w.answers_send log (.jobCompleted jobId {
          status := jobStateStr finalStatus
          summary
          warnings
          jobId
          needsReboot := finalStatus == .needsReboot
          rollbackRef
          transactionId })
    have hsame : (jobStateStr finalStatus == "rolled_back") = (finalStatus == .rolledBack) := by
      rw [Bool.eq_iff_iff, jobStateStr_rolledBack, beq_iff_eq]
    unfold sendResponse
    rw [daemonOp_bind]
    refine .op hanswer ?_
    cases answer <;> refine .ret ?_ <;>
      simp [runMonitor, RunState.observe, deploymentsStep, startsCommand, rollsBack,
        reportsRolledBack, hreported, hsame]
  unfold settle
  rw [daemonOp_bind]
  refine ends_neutral w.outside.updated rfl ⟨rfl, rfl, rfl⟩ ?_
  cases w.outside.updated with
  | error e => exact hreport _ _
  | ok u =>
    refine forwardEvent_ends.bind fun q _ _ hq => ?_
    subst hq
    exact hreport _ _

section Execute
variable (staged w) (ds : List δ) (crypto : Crypto) (config : DaemonConfig) (caller : CallerRole)

/-- What a run that comes to the action leaves. -/
def finalState (actionName : String) (spec : ActionSpec) : RunState δ where
  deployments := afterRollback w.outside actionName spec
    (afterCommand staged (w.outside.starts spec) ds)
  reported := decide (w.outside.RollsBack actionName spec)

theorem runAnnounced_ends (actionName : String) (spec : ActionSpec) (transactionId jobId : String) :
    (runMonitor staged).Ends w.answers (fun q _ => q = finalState staged w ds actionName spec)
      ⟨ds, false⟩ log (runAnnounced config caller actionName spec transactionId jobId) := by
  unfold runAnnounced
  refine (sendProgress_ends jobId _).bind fun q _ _ hq => ?_
  subst hq
  refine (sendProgress_ends jobId _).bind fun q _ _ hq => ?_
  subst hq
  refine (runSpec_ends jobId spec).bind fun q _ output hran => ?_
  obtain ⟨rfl, rfl⟩ := hran
  refine (sendProgress_ends jobId _).bind fun p _ _ hp => ?_
  subst hp
  have hfailed := initialOutcome_failed_iff actionName spec (w.outside.output spec)
  have hinitial := initialOutcome_ne_rolledBack actionName spec (w.outside.output spec)
  generalize initialOutcome actionName spec (w.outside.output spec) = initial at hfailed hinitial ⊢
  obtain ⟨initialStatus, initialSummary⟩ := initial
  refine (attemptRollbackIfNeeded_ends jobId actionName spec initialSummary hfailed
    hinitial).bind fun q _ outcome hout => ?_
  obtain ⟨rfl, hundone⟩ := hout
  have hreported : (outcome.1 == .rolledBack) = decide (w.outside.RollsBack actionName spec) := by
    rw [Bool.eq_iff_iff, beq_iff_eq, hundone, decide_eq_true_iff]
  obtain ⟨finalStatus, summary, rollbackRef⟩ := outcome
  rw [finalState, ← hreported]
  exact settle_ends rfl

/-- The request comes to its action: nothing turns it away, the row of its preview is
claimed, and the `job_started` frame goes out. -/
structure ReachesAction (actionName : String) (params : Json) (approvalHash : String)
    (spec : ActionSpec) : Prop where
  built : buildActionSpec actionName params = .ok spec
  allowed : config.policy.actionAllowed caller actionName = true
  approved : requireFreshApproval (computeRequestHash crypto actionName params) approvalHash = .ok ()
  found : ∃ tx, w.outside.found = .ok (some tx)
  claimed : w.outside.claimed = .ok true
  announced : w.announced = .ok ()

variable {crypto config caller} {actionName : String} {params : Json} {approvalHash : String}
  {spec : ActionSpec}

theorem handleExecute_reaches (requestId : String)
    (h : ReachesAction w crypto config caller actionName params approvalHash spec) :
    (runMonitor staged).Ends w.answers (fun q _ => q = finalState staged w ds actionName spec)
      ⟨ds, false⟩ log
      (handleExecute crypto config caller requestId actionName params approvalHash) := by
  obtain ⟨tx, hfound⟩ := h.found
  unfold handleExecute
  rw [h.built]
  dsimp only
  rw [h.allowed, h.approved, if_neg (by decide)]
  unfold claimAndExecute
  rw [daemonOp_bind]
  refine ends_neutral w.outside.found rfl ⟨rfl, rfl, rfl⟩ ?_
  rw [hfound]
  dsimp only
  rw [daemonOp_bind]
  refine ends_neutral w.outside.claimed rfl ⟨rfl, rfl, rfl⟩ ?_
  rw [h.claimed]
  show (runMonitor staged).Ends w.answers _ _ _ (executeClaimed config caller requestId actionName
    spec tx.transactionId)
  unfold executeClaimed sendResponse
  refine ends_neutral w.outside.jobId rfl ⟨rfl, rfl, rfl⟩ ?_
  refine ends_neutral w.announced rfl ⟨rfl, rfl, rfl⟩ ?_
  rw [h.announced]
  exact runAnnounced_ends staged w ds config caller actionName spec tx.transactionId _

/-- A request that does not come to its action says nothing of a rollback. -/
theorem handleExecute_turnedAway (requestId : String)
    (h : ∀ spec, ¬ ReachesAction w crypto config caller actionName params approvalHash spec) :
    (runMonitor staged).Ends w.answers (fun q _ => q.reported = false) ⟨ds, false⟩ log
      (handleExecute crypto config caller requestId actionName params approvalHash) := by
  unfold handleExecute
  cases hbuilt : buildActionSpec actionName params with
  | error e => exact sendError_ends fun _ => rfl
  | ok spec =>
    dsimp only
    split
    · exact sendError_ends fun _ => rfl
    next hallowed =>
    cases happroved : requireFreshApproval (computeRequestHash crypto actionName params)
        approvalHash with
    | error e => exact sendError_ends fun _ => rfl
    | ok u =>
      dsimp only
      unfold claimAndExecute
      rw [daemonOp_bind]
      refine ends_neutral w.outside.found rfl ⟨rfl, rfl, rfl⟩ ?_
      match hfound : w.outside.found with
      | .error e => exact sendError_ends fun _ => rfl
      | .ok none => exact sendError_ends fun _ => rfl
      | .ok (some tx) =>
        dsimp only
        rw [daemonOp_bind]
        refine ends_neutral w.outside.claimed rfl ⟨rfl, rfl, rfl⟩ ?_
        match hclaimed : w.outside.claimed with
        | .error e => exact sendError_ends fun _ => rfl
        | .ok false => exact sendError_ends fun _ => rfl
        | .ok true =>
          show (runMonitor staged).Ends w.answers _ _ _ (executeClaimed config caller requestId
            actionName spec tx.transactionId)
          unfold executeClaimed sendResponse
          refine ends_neutral w.outside.jobId rfl ⟨rfl, rfl, rfl⟩ ?_
          refine ends_neutral w.announced rfl ⟨rfl, rfl, rfl⟩ ?_
          cases hannounced : w.announced with
          | error e => exact .ret rfl
          | ok u =>
            exact absurd ⟨hbuilt, by simpa using hallowed, happroved, ⟨tx, hfound⟩, hclaimed,
              hannounced⟩ (h spec)

end Execute

end Handler

/-! ## Whole runs -/

/-- The events of one execute request, from its beginning to its end. -/
def executeEvents (crypto : Crypto) (config : DaemonConfig) (caller : CallerRole)
    (requestId actionName : String) (params : Json) (approvalHash : String)
    (w : ExecuteWorld) : List DaemonEvent :=
  ((handleExecute crypto config caller requestId actionName params approvalHash).runIn
    w.answers []).2

section Runs
variable {δ : Type} (staged : Option δ) (ds : List δ) (crypto : Crypto) (config : DaemonConfig)
  (caller : CallerRole) (requestId actionName : String) (params : Json) (approvalHash : String)
  (w : ExecuteWorld)

/-- What holds of the bookkeeping at the end holds of the events. -/
theorem executeEvents_ends (post : RunState δ → Prop)
    (h : (runMonitor staged).Ends w.answers (fun q _ => post q) ⟨ds, false⟩ []
      (handleExecute crypto config caller requestId actionName params approvalHash)) :
    post ⟨deploymentsAfter staged ds (executeEvents crypto config caller requestId actionName
        params approvalHash w),
      (executeEvents crypto config caller requestId actionName params approvalHash w).any
        reportsRolledBack⟩ := by
  obtain ⟨out, evs, hrun, hpost⟩ := h
  have hevents : executeEvents crypto config caller requestId actionName params approvalHash w =
      evs := congrArg Prod.snd hrun
  rw [hevents, ← after_runMonitor]
  exact hpost

/-- A swap of the first two takes back what the command of the action has done to the
deployments. -/
def SwapFits (started : Bool) : Prop :=
  if started = true ∧ staged.isSome = true then ds ≠ [] else ds.length < 2 ∨ ds[0]? = ds[1]?

theorem head?_swapFirst_afterCommand_iff (started : Bool) :
    (swapFirst (afterCommand staged started ds)).head? = ds.head? ↔ SwapFits staged ds started := by
  unfold SwapFits afterCommand
  cases started with
  | false => simp [head?_swapFirst_iff]
  | true =>
    cases staged with
    | none => simp [head?_swapFirst_iff]
    | some d => simp [head?_swapFirst_cons_iff]

/-- If the request comes to its action and the action is rolled back, the swap fits what the
command has done. -/
def RollbackFits : Prop :=
  ∀ spec, ReachesAction w crypto config caller actionName params approvalHash spec →
    w.outside.RollsBack actionName spec → SwapFits staged ds (w.outside.starts spec)

/-- A report of a rollback means that the default deployment is the one from before, exactly
when a rollback of this request fits. -/
theorem executeEvents_restores_iff :
    RestoresDefault staged ds (executeEvents crypto config caller requestId actionName params
        approvalHash w) ↔
      RollbackFits staged ds crypto config caller actionName params approvalHash w := by
  by_cases hreaches : ∃ spec, ReachesAction w crypto config caller actionName params approvalHash
      spec
  · obtain ⟨spec, hspec⟩ := hreaches
    have hlast := executeEvents_ends staged ds crypto config caller requestId actionName params
      approvalHash w (· = finalState staged w ds actionName spec)
      (handleExecute_reaches staged w ds requestId hspec)
    rw [finalState, RunState.mk.injEq] at hlast
    have honly : RollbackFits staged ds crypto config caller actionName params approvalHash w ↔
        (w.outside.RollsBack actionName spec → SwapFits staged ds (w.outside.starts spec)) := by
      refine ⟨fun h => h spec hspec, fun h other hother => ?_⟩
      have hsame : (.ok other : Except ExecutorError ActionSpec) = .ok spec :=
        hother.built.symm.trans hspec.built
      cases hsame
      exact h
    unfold RestoresDefault
    rw [honly, hlast.1, hlast.2, decide_eq_true_iff]
    refine imp_congr_right fun hrolls => ?_
    rw [afterRollback, if_pos hrolls]
    exact head?_swapFirst_afterCommand_iff staged ds _
  · have hquiet := executeEvents_ends staged ds crypto config caller requestId actionName params
      approvalHash w (fun q => q.reported = false)
      (handleExecute_turnedAway staged w ds requestId (not_exists.mp hreaches))
    refine iff_of_true (fun hreported => ?_) fun spec hspec => absurd ⟨spec, hspec⟩ hreaches
    exact absurd hreported (Bool.eq_false_iff.mp hquiet)

end Runs

/-- A preview of `UpdateSystem` that waits for its execution. -/
def previewedUpdate : TransactionRecord where
  transactionId := "0d9c7a64-0000-4000-8000-000000000001"
  requestId := "req-1"
  requestHash := computeRequestHash updateCrypto "UpdateSystem" .null
  actionName := "UpdateSystem"
  riskLevel := .high
  status := .queued
  approvalId := none
  summary := "Update the system"
  warnings := []

/-- The update cannot reach its repository and exits with 1; the rollback exits with 0. -/
def offlineWorld : ExecuteWorld where
  outside := {
    collected := .failed "rpm-ostree: command not found"
    listed := .error .json
    recorded := .error .json
    found := .ok (some previewedUpdate)
    claimed := .ok true
    updated := .ok ()
    jobId := "0d9c7a64-0000-4000-8000-000000000002"
    executed := .ok ⟨"", "", 0⟩
    executedSpec := .ok ⟨"", "", 0⟩
    child := .ok ⟨[], none, .ok (some 1), .ok "error: While pulling fedora"⟩ }
  announced := .ok ()
  frames _ _ := .ok ()

set_option maxRecDepth 100000 in
/-- Nothing was staged, and the machine will boot what it booted before the last update. -/
theorem executeEvents_offline : ¬ ∀ (staged : Option Nat) (ds : List Nat) (crypto : Crypto)
    (config : DaemonConfig) (caller : CallerRole) (requestId actionName : String) (params : Json)
    (approvalHash : String) (w : ExecuteWorld) (spec : ActionSpec),
      buildActionSpec actionName params = .ok spec → spec.rollbackAvailable = true →
      (rollbackSpecFor actionName).isSome = true →
      RestoresDefault staged ds (executeEvents crypto config caller requestId actionName params
        approvalHash w) := by
  intro hall
  have hrestores := hall none [41, 40] updateCrypto plainConfig .admin "req-2" "UpdateSystem"
    .null (computeRequestHash updateCrypto "UpdateSystem" .null) offlineWorld _ rfl rfl rfl
  have hrun : (executeEvents updateCrypto plainConfig .admin "req-2" "UpdateSystem" .null
        (computeRequestHash updateCrypto "UpdateSystem" .null) offlineWorld).any
        reportsRolledBack = true ∧
      deploymentsAfter none [41, 40] (executeEvents updateCrypto plainConfig .admin "req-2"
        "UpdateSystem" .null (computeRequestHash updateCrypto "UpdateSystem" .null)
        offlineWorld) = [40, 41] := by
    decide +kernel
  have hsame := hrestores hrun.1
  rw [hrun.2] at hsame
  exact absurd hsame (by decide)

end Sysknife
