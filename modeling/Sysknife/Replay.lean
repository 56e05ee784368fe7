import Sysknife.ClaimLedger

/-!
# Approval and replay

`find_by_request_hash` and `claim_for_execution` are two steps, and anything may
come between them. The claim is the point that counts: it succeeds for one
request only, on a row that a preview recorded for the approved hash.
-/

namespace Sysknife

open Interaction

/-- What a thread works on. -/
def taskOf (P : DaemonPool) (i : Nat) : Option DaemonTask := P.threads[i]?.map Thread.tag

/-- The thread has claimed the row. -/
def RunsOff (log : List DaemonEntry) (i : Nat) (transactionId : String) : Prop :=
  ∃ e ∈ log, e.thread = i ∧ e.op.claims e.resp = some transactionId

/-- A preview recorded the row, for the hash of its own action and parameters. -/
def Previewed (crypto : Crypto) (P : DaemonPool) (log : List DaemonEntry)
    (transactionId requestHash : String) : Prop :=
  ∃ e ∈ log, e.op.recorded e.resp = some (transactionId, requestHash) ∧
    ∃ connection requestId actionName params,
      taskOf P e.thread = some (.request connection (.preview requestId actionName params)) ∧
        requestHash = computeRequestHash crypto actionName params

/-- What the thread may start an action on, with the log so far: an `execute`
whose approval is the hash of its own request, and a row it has claimed after a
preview recorded it for that hash. -/
structure Approved (crypto : Crypto) (P : DaemonPool) (log : List DaemonEntry) (i : Nat)
    (x : Execution) : Prop where
  request : taskOf P i = some x.task
  approval : x.approvalHash = computeRequestHash crypto x.actionName x.params
  claimed : ∃ earlier claim later transactionId, log = earlier ++ claim :: later ∧
    claim.thread = i ∧ claim.op.claims claim.resp = some transactionId ∧
      Previewed crypto P earlier transactionId x.approvalHash

/-- A command or a file operation is started: the action of a request, its
rollback, or a query. -/
def DaemonOp.starts : DaemonOp → Bool
  | .execute _ => true
  | o => o.runsAction

def IsQuery (P : DaemonPool) (i : Nat) : Prop :=
  ∃ connection requestId actionName params,
    taskOf P i = some (.request connection (.queryAction requestId actionName params))

section Run
variable (crypto : Crypto) (config : DaemonConfig) (role : Nat → CallerRole)

/-- What stands behind an entry of the log: how far its request was, with the
condition of the operation met. -/
structure Checked (inputs : List DaemonInput) (pre : List DaemonEntry) (e : DaemonEntry)
    (before : List DaemonInput) (p : Progress) : Prop where
  log_eq : ((daemonSystem crypto config role).run before).log = pre
  progress : progressOf crypto config role ((daemonSystem crypto config role).run before) e.thread =
    some p
  task : taskOf ((daemonSystem crypto config role).run inputs) e.thread = some p.task
  recounts : p.Recounts p.task (eventsOf e.thread pre)
  expected : e.op.Expected crypto config role p
  answer : e.resp = (e.op.exec crypto config.audit e.env
    ((daemonSystem crypto config role).run before).shared).1

variable {crypto config role} {inputs : List DaemonInput} {pre suf : List DaemonEntry}
  {e : DaemonEntry}

theorem entry_checked (h : ((daemonSystem crypto config role).run inputs).log = pre ++ e :: suf) :
    ∃ before p, Checked crypto config role inputs pre e before p := by
  obtain ⟨before, t, k, hbefore, hlog, hth, hanswer⟩ := System.log_split inputs h
  obtain ⟨q, hq⟩ := System.thread_tag_of_prefix hbefore hth
  have hrecounts := run_recounts crypto config role before hth
  have hexpected := System.guard_of_thread (m := daemonMonitor crypto config role)
    daemonTask_safe before hth
  rw [hlog] at hrecounts hexpected
  refine ⟨before, _, hlog, ?_, ?_, ?_, hexpected, hanswer⟩
  · rw [progressOf, System.progress_of_thread hth, hlog]
  · rw [hrecounts.task_eq, taskOf, hq]
    rfl
  · rw [hrecounts.task_eq]
    exact hrecounts

theorem recorded_expected {p : Progress} {o : DaemonOp} {env : DaemonEnv} {db : Db}
    {transactionId requestHash : String} (hguard : o.Expected crypto config role p)
    (h : o.recorded (o.exec crypto config.audit env db).1 = some (transactionId, requestHash)) :
    ∃ connection requestId actionName params,
      p.task = .request connection (.preview requestId actionName params) ∧
        requestHash = computeRequestHash crypto actionName params := by
  cases o with
  | store call =>
    obtain ⟨record, hcreated, horigin⟩ := Option.map_eq_some_iff.mp h
    cases call with
    | record => exact hguard.elim
    | recordPreviewed transaction preview =>
      obtain ⟨connection, requestId, actionName, params, htask, hhash⟩ := hguard
      have heffect := call_effect crypto config.audit env.store db
        (.recordPreviewed transaction preview)
      have hrecord := created_requestHash heffect rfl hcreated
      have hreq : record.requestHash = requestHash := congrArg Prod.snd horigin
      exact ⟨connection, requestId, actionName, params, htask, by rw [← hreq, hrecord, hhash]⟩
    | _ => cases hcreated
  | _ => cases h

/-- Every recorded row was recorded by a preview. -/
theorem origins_previewed {transactionId requestHash : String}
    (hpre : ∃ suf, ((daemonSystem crypto config role).run inputs).log = pre ++ suf)
    (h : (transactionId, requestHash) ∈ origins pre) :
    Previewed crypto ((daemonSystem crypto config role).run inputs) pre transactionId
      requestHash := by
  obtain ⟨r, hr, hrecorded⟩ := List.mem_filterMap.mp h
  obtain ⟨left, right, rfl⟩ := List.append_of_mem hr
  obtain ⟨suf, hlog⟩ := hpre
  rw [List.append_assoc, List.cons_append] at hlog
  obtain ⟨before, p, hp⟩ := entry_checked hlog
  rw [hp.answer] at hrecorded
  obtain ⟨connection, requestId, actionName, params, htask, hhash⟩ :=
    recorded_expected hp.expected hrecorded
  rw [← hp.answer] at hrecorded
  exact ⟨r, hr, hrecorded, connection, requestId, actionName, params, htask ▸ hp.task, hhash⟩

theorem mem_eventsOf_op {log : List DaemonEntry} {i : Nat} {f : DaemonEvent → Prop} :
    (∃ ev ∈ eventsOf i log, f ev) ↔ ∃ e ∈ log, e.thread = i ∧ f e.event := by
  constructor
  · rintro ⟨ev, hev, hf⟩
    obtain ⟨e, he, hi, rfl⟩ := mem_eventsOf.mp hev
    exact ⟨e, he, hi, hf⟩
  · rintro ⟨e, he, hi, hf⟩
    exact ⟨e.event, mem_eventsOf.mpr ⟨e, he, hi, rfl⟩, hf⟩

theorem Checked.runsOff_iff {before : List DaemonInput} {p : Progress}
    (h : Checked crypto config role inputs pre e before p) (transactionId : String) :
    RunsOff pre e.thread transactionId ↔ p.claimed = some transactionId := by
  rw [h.recounts.claimed, mem_eventsOf_op]
  rfl

theorem execution_task_inj {x y : Execution} (h : x.task = y.task) : x = y := by
  obtain ⟨connection, requestId, actionName, params, approvalHash⟩ := x
  cases h
  rfl

/-- A row a request has claimed was recorded for its approval before. -/
theorem claim_previewed {x : Execution} {transactionId : String}
    (hlog : ((daemonSystem crypto config role).run inputs).log = pre ++ e :: suf)
    (htask : taskOf ((daemonSystem crypto config role).run inputs) e.thread = some x.task)
    (hclaims : e.op.claims e.resp = some transactionId) :
    Previewed crypto ((daemonSystem crypto config role).run inputs) pre transactionId
      x.approvalHash := by
  obtain ⟨before, p, hp⟩ := entry_checked hlog
  have haccounted := run_accounted crypto config role before
  rw [hp.log_eq] at haccounted
  obtain ⟨y, spec, hy, -, hfound, -⟩ := claims_expected hp.expected hclaims
  have hxy : x.task = y.task := by
    rw [← hy]
    exact Option.some.inj (htask.symm.trans hp.task)
  obtain rfl := execution_task_inj hxy
  exact origins_previewed ⟨_, hlog⟩ (haccounted.found e.thread p _ _ hp.progress hfound)

/-- What a started command or file operation had been checked for. -/
theorem starts_expected {p : Progress} {o : DaemonOp} (hguard : o.Expected crypto config role p)
    (h : o.starts = true) :
    (∃ x spec, Admitted crypto config role x spec ∧ p.HasClaimed x) ∨
      ∃ connection requestId actionName params,
        p.task = .request connection (.queryAction requestId actionName params) := by
  cases o with
  | spawn program args =>
    obtain ⟨x, spec, hspec, -, hclaimed, -⟩ := hguard
    exact Or.inl ⟨x, spec, hspec, hclaimed⟩
  | executeSpec spec =>
    obtain ⟨x, hspec, hclaimed, -⟩ := hguard
    exact Or.inl ⟨x, spec, hspec, hclaimed⟩
  | execute spec =>
    rcases hguard with ⟨x, built, hspec, -, hclaimed⟩ | ⟨c, r, a, params, htask, -⟩
    · exact Or.inl ⟨x, built, hspec, hclaimed⟩
    · exact Or.inr ⟨c, r, a, params, htask⟩
  | _ => cases h

theorem start_approved
    (hlog : ((daemonSystem crypto config role).run inputs).log = pre ++ e :: suf)
    (hstarts : e.op.starts = true) :
    IsQuery ((daemonSystem crypto config role).run inputs) e.thread ∨
      ∃ x, Approved crypto ((daemonSystem crypto config role).run inputs) pre e.thread x := by
  obtain ⟨before, p, hp⟩ := entry_checked hlog
  rcases starts_expected hp.expected hstarts with ⟨x, spec, hspec, htask, id, -, hclaimed⟩ |
    ⟨c, r, a, params, htask⟩
  · refine Or.inr ⟨x, htask ▸ hp.task, hspec.approved, ?_⟩
    obtain ⟨claim, hmem, hthread, hclaims⟩ := (hp.runsOff_iff id).mpr hclaimed
    obtain ⟨earlier, later, rfl⟩ := List.append_of_mem hmem
    rw [List.append_assoc, List.cons_append] at hlog
    refine ⟨earlier, claim, later, id, rfl, hthread, hclaims, claim_previewed hlog ?_ hclaims⟩
    rw [hthread, hp.task, htask]
  · exact Or.inl ⟨c, r, a, params, htask ▸ hp.task⟩

/-- A row is claimed once. -/
theorem runsOff_unique {i j : Nat} {transactionId : String}
    (hi : RunsOff ((daemonSystem crypto config role).run inputs).log i transactionId)
    (hj : RunsOff ((daemonSystem crypto config role).run inputs).log j transactionId) : i = j := by
  have hprogress : ∀ i, RunsOff ((daemonSystem crypto config role).run inputs).log i transactionId →
      ∃ p, progressOf crypto config role ((daemonSystem crypto config role).run inputs) i = some p ∧
        p.claimed = some transactionId := by
    rintro i ⟨c, hc, rfl, hclaims⟩
    have hlt := System.log_thread_lt inputs c hc
    have hth := List.getElem?_eq_getElem hlt
    refine ⟨_, System.progress_of_thread hth, ?_⟩
    rw [(run_recounts crypto config role inputs hth).claimed, mem_eventsOf_op]
    exact ⟨c, hc, rfl, hclaims⟩
  obtain ⟨p, hp, hpc⟩ := hprogress i hi
  obtain ⟨q, hq, hqc⟩ := hprogress j hj
  exact (run_accounted crypto config role inputs).sole i j p q transactionId hp hq hpc hqc

/-- A request starts its action once. -/
theorem action_once {mid : List DaemonEntry} {f : DaemonEntry}
    (hlog : ((daemonSystem crypto config role).run inputs).log = pre ++ e :: (mid ++ f :: suf))
    (he : e.op.runsAction = true) (hf : f.op.runsAction = true) : e.thread ≠ f.thread := by
  intro hthread
  rw [← List.cons_append, ← List.append_assoc] at hlog
  obtain ⟨before, p, hp⟩ := entry_checked hlog
  have hstarted : p.started = true := by
    rw [hp.recounts.started, mem_eventsOf_op]
    exact ⟨e, by simp, hthread, he⟩
  have hnew : p.started = false := by
    have hexpected := hp.expected
    generalize f.op = o at hexpected hf
    cases o with
    | spawn =>
      obtain ⟨x, spec, -, -, -, hnew⟩ := hexpected
      exact hnew
    | executeSpec =>
      obtain ⟨x, -, -, hnew⟩ := hexpected
      exact hnew
    | _ => cases hf
  rw [hstarted] at hnew
  cases hnew

end Run

/-- In every run, whatever the requests do in between: what is started outside
of a query is approved, and of all that is started off one row, everything
belongs to one request, which starts its action once. -/
theorem executions_approved_once (crypto : Crypto) (config : DaemonConfig)
    (role : Nat → CallerRole) (inputs : List DaemonInput) :
    let P := (daemonSystem crypto config role).run inputs
    (∀ pre e suf, P.log = pre ++ e :: suf → e.op.starts = true →
      IsQuery P e.thread ∨ ∃ x, Approved crypto P pre e.thread x) ∧
    (∀ pre e mid f suf transactionId, P.log = pre ++ e :: (mid ++ f :: suf) →
      e.op.starts = true → f.op.starts = true →
        RunsOff P.log e.thread transactionId → RunsOff P.log f.thread transactionId →
          e.thread = f.thread ∧ ¬(e.op.runsAction = true ∧ f.op.runsAction = true)) := by
  intro P
  refine ⟨fun pre e suf hlog hstarts => start_approved hlog hstarts, ?_⟩
  intro pre e mid f suf transactionId hlog _ _ he hf
  have hthread := runsOff_unique he hf
  exact ⟨hthread, fun h => action_once hlog h.1 h.2 hthread⟩

end Sysknife
