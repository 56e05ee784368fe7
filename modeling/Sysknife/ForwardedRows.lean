import Sysknife.ForwardPipeline

/-!
# What the collector is sent

Over a whole run of the daemon and its forwarder, the datagrams are those of distinct
events, in the order in which these went into the channel, and each says of a row what the
table says of it.
-/

namespace Sysknife

open Channels Interaction

section Run
variable (crypto : Crypto) (config : DaemonConfig) (role : Nat → CallerRole) (pid : UInt32)
  (facility : UInt8)

theorem forward_run_concat (inputs : List ForwardInput) (input : ForwardInput) :
    ForwardState.run crypto config role pid facility (inputs ++ [input]) =
      ForwardState.step crypto config role pid facility
        (ForwardState.run crypto config role pid facility inputs) input := by
  simp [ForwardState.run]

theorem forward_run_sound (inputs : List ForwardInput) :
    (ForwardState.run crypto config role pid facility inputs).Sound pid facility := by
  induction inputs using List.reverseRecOn with
  | nil =>
    refine ⟨sound_initial, rfl, ?_, ?_, ?_, ?_, List.nodup_nil⟩
    · intro k f hk
      cases hk
    · intro k event hk
      cases hk
    · intro item hitem
      cases hitem
    · intro k
      constructor
      · intro hk
        cases hk
      · rintro ⟨task, hk, -⟩
        cases hk
  | append_singleton inputs input ih =>
    rw [forward_run_concat]
    cases input with
    | daemon input => exact ih.daemonStep input
    | background k failure => exact ih.taskStep k failure
    | sink answer => exact ih.sinkStep answer

def ForwardInput.toDaemon : ForwardInput → Option DaemonInput
  | .daemon input => some input
  | _ => none

/-- The forwarder never holds up the daemon, nor changes what it does. -/
theorem forward_run_daemon (inputs : List ForwardInput) :
    (ForwardState.run crypto config role pid facility inputs).daemon =
      (daemonSystem crypto config role).run (inputs.filterMap ForwardInput.toDaemon) := by
  induction inputs using List.reverseRecOn with
  | nil => rfl
  | append_singleton inputs input ih =>
    rw [forward_run_concat, List.filterMap_append]
    cases input with
    | daemon input =>
      have hone : [ForwardInput.daemon input].filterMap ForwardInput.toDaemon = [input] := rfl
      rw [hone, System.run_concat, ← ih]
      rfl
    | background k failure =>
      have hnone : [ForwardInput.background k failure].filterMap ForwardInput.toDaemon = [] := rfl
      rw [hnone, List.append_nil, ← ih]
      unfold ForwardState.step ForwardState.taskStep
      dsimp only
      split <;> rfl
    | sink answer =>
      have hnone : [ForwardInput.sink answer].filterMap ForwardInput.toDaemon = [] := rfl
      rw [hnone, List.append_nil, ← ih]
      rfl

end Run

/-! ## The status in a datagram -/

section Status
variable {crypto : Crypto} {config : DaemonConfig} {role : Nat → CallerRole}

/-- The request has claimed the row whose final status it has stored, and is done with both. -/
def HasSettled (p : Progress) (evs : List DaemonEvent) : Prop :=
  ∀ ev ∈ evs, ∀ transactionId status stored,
    ev.op.settles ev.resp = some (transactionId, status, stored) →
      p.settled = some (status, stored) ∧ p.claimed = some transactionId

theorem HasSettled.next {p : Progress} {evs : List DaemonEvent} (h : HasSettled p evs) (o : DaemonOp)
    (answer : o.Answer) (hguard : o.Expected crypto config role p) :
    HasSettled (p.next o answer) (evs ++ [⟨o, answer⟩]) := by
  obtain ⟨-, hclaimed, -, -, hsettled⟩ := next_fields p o answer
  intro ev hev transactionId status stored hsettles
  rw [hclaimed, hsettled]
  rcases List.mem_append.mp hev with hev | hev
  · obtain ⟨hbefore, hown⟩ := h ev hev _ _ _ hsettles
    -- what is settled is neither claimed nor settled again
    have hquiet : p.settled ≠ none := by
      rw [hbefore]
      simp
    have hsame : o.claims answer = none ∧ o.settlement answer = none := by
      constructor
      · unfold DaemonOp.claims
        split
        · obtain ⟨x, spec, -, -, -, -, hunsettled⟩ := hguard
          exact absurd hunsettled hquiet
        · rfl
      · unfold DaemonOp.settlement
        split
        · exact absurd hguard.2.1 hquiet
        · rfl
    rw [hsame.1, hsame.2]
    exact ⟨hbefore, hown⟩
  · obtain rfl := List.mem_singleton.mp hev
    dsimp only at hsettles
    unfold DaemonOp.settles at hsettles
    split at hsettles
    · cases hsettles
      exact ⟨rfl, hguard.1⟩
    · cases hsettles

/-- A status that was stored stays. -/
theorem settled_holds (inputs : List DaemonInput) {i : Nat} {ev : DaemonEvent}
    (hev : ev ∈ eventsOf i ((daemonSystem crypto config role).run inputs).log)
    {transactionId : String} {status : JobState}
    (hsettles : ev.op.settles ev.resp = some (transactionId, status, true)) :
    ((daemonSystem crypto config role).run inputs).shared.Holds transactionId status := by
  have hthread : ∃ th, ((daemonSystem crypto config role).run inputs).threads[i]? = some th := by
    obtain ⟨e, he, -⟩ := List.mem_map.mp hev
    obtain ⟨hmem, hi⟩ := List.mem_filter.mp he
    have hlt := System.log_thread_lt inputs e hmem
    rw [beq_iff_eq.mp hi] at hlt
    exact ⟨_, List.getElem?_eq_getElem hlt⟩
  obtain ⟨th, hth⟩ := hthread
  have hown : HasSettled ((daemonMonitor crypto config role).after (Progress.begin th.tag)
      (eventsOf i ((daemonSystem crypto config role).run inputs).log))
      (eventsOf i ((daemonSystem crypto config role).run inputs).log) := by
    refine (daemonTask_safe th.tag).trace_induction (I := HasSettled) ?_ ?_
      (System.thread_trace inputs i _ _ hth)
    · intro ev hnil
      cases hnil
    · exact fun p evs o answer h hguard => h.next o answer hguard
  obtain ⟨hsettled, hclaimed⟩ := hown ev hev _ _ _ hsettles
  have hheld := (run_accounted crypto config role inputs).held i _ transactionId
    (System.progress_of_thread hth) hclaimed
  unfold Progress.rowStatus at hheld
  rw [hsettled] at hheld
  exact hheld

/-- The status that is handed to the forwarder is the one in the table. -/
theorem forwarding_holds (inputs : List DaemonInput) {k : Nat} {f : Forwarding}
    (hk : (forwardings ((daemonSystem crypto config role).run inputs).log)[k]? = some f)
    {status : JobState} (hstatus : f.finalStatus = some status) :
    ((daemonSystem crypto config role).run inputs).shared.Holds f.transactionId status := by
  obtain ⟨e, he, hforward⟩ := List.mem_filterMap.mp (List.mem_of_getElem? hk)
  obtain ⟨pre, suf, hlog⟩ := List.append_of_mem he
  have hreported := System.entry_guarded (daemonTask_truthful crypto config role) inputs hlog
  obtain ⟨thread, env, o, answer⟩ := e
  cases o with
  | forward transactionId caller finalStatus =>
    cases hforward
    dsimp only at hstatus hreported
    subst hstatus
    obtain ⟨ev, hev, hsettles⟩ := hreported
    have hstored : ev ∈ eventsOf thread ((daemonSystem crypto config role).run inputs).log := by
      rw [hlog]
      unfold eventsOf at hev ⊢
      rw [List.filter_append, List.map_append]
      exact List.mem_append_left _ hev
    exact settled_holds inputs hstored hsettles
  | _ => cases hforward

end Status

/-! ## The datagrams -/

section Datagrams
variable (crypto : Crypto) (config : DaemonConfig) (role : Nat → CallerRole) (pid : UInt32)
  (facility : UInt8)

/-- The datagram says what the table says of a row: the one that was recorded, or settled,
where the event was handed over. -/
def Forwarding.Tells (f : Forwarding) (db : Db) (datagram : String) : Prop :=
  ∃ row ∈ db.transactions, ∃ chainRow hostnameFile,
    row.transactionId = f.transactionId ∧ row.toChainRow = .ok chainRow ∧
      datagram = formatRfc5424 hostnameFile pid (f.event chainRow) facility ∧
      ∀ status, f.finalStatus = some status → row.status = serializeField status

variable {crypto config role pid facility}

/-- The events that became datagrams, as their tasks. -/
theorem datagrams_tasks {s : ForwardState} (h : s.Sound pid facility) :
    ∃ tasks, tasks.Sublist (s.forwarder.accepted.map Submitted.task) ∧
      List.Forall₂ (fun datagram k => ∃ item ∈ s.forwarder.accepted, item.task = k ∧
        ∃ hostnameFile, datagram = formatRfc5424 hostnameFile pid item.event facility)
        s.forwarder.datagrams tasks := by
  have hsub : (s.forwarder.handled.map Prod.fst).Sublist s.forwarder.accepted := by
    rw [h.forwarder.order]
    exact List.sublist_append_left _ _
  have hmade : ∀ handled : List (Submitted × Option String), handled ⊆ s.forwarder.handled →
      ∃ tasks, tasks.Sublist (handled.map fun entry => entry.1.task) ∧
        List.Forall₂ (fun datagram k => ∃ item ∈ s.forwarder.accepted, item.task = k ∧
          ∃ hostnameFile, datagram = formatRfc5424 hostnameFile pid item.event facility)
          (handled.filterMap Prod.snd) tasks := by
    intro handled hhandled
    induction handled with
    | nil => exact ⟨[], List.Sublist.slnil, .nil⟩
    | cons entry rest ih =>
      obtain ⟨item, sent⟩ := entry
      obtain ⟨hmem, hrest⟩ := List.cons_subset.mp hhandled
      obtain ⟨tasks, htasks, hall⟩ := ih hrest
      cases sent with
      | none => exact ⟨tasks, htasks.cons _, hall⟩
      | some frame =>
        refine ⟨item.task :: tasks, htasks.cons_cons _, .cons ?_ hall⟩
        exact ⟨item, hsub.subset (List.mem_map_of_mem hmem), rfl, h.forwarder.sent item frame hmem⟩
  obtain ⟨tasks, htasks, hall⟩ := hmade s.forwarder.handled (List.Subset.refl _)
  refine ⟨tasks, htasks.trans ?_, hall⟩
  have hmap := hsub.map Submitted.task
  rw [List.map_map] at hmap
  exact hmap

/-- Whatever the clients, the children, the store, the collector and the clock do, and in
whatever order the handlers, the background tasks and the forwarder go on: each datagram
that was sent says of a row what the table still says of it, the status included where it
has one. No two datagrams are of the same hand-over, and they come in the order in which the
events went into the channel. -/
theorem datagrams_told (crypto : Crypto) (config : DaemonConfig) (role : Nat → CallerRole)
    (pid : UInt32) (facility : UInt8) (inputs : List ForwardInput) :
    let s := ForwardState.run crypto config role pid facility inputs
    ∃ sources : List Nat, sources.Nodup ∧
      sources.Sublist (s.forwarder.accepted.map Submitted.task) ∧
      List.Forall₂ (fun datagram k => ∃ f : Forwarding,
        (forwardings s.daemon.log)[k]? = some f ∧
          f.Tells pid facility s.daemon.shared datagram) s.forwarder.datagrams sources := by
  intro s
  have hsound : s.Sound pid facility := forward_run_sound crypto config role pid facility inputs
  have hdaemon : s.daemon = (daemonSystem crypto config role).run
      (inputs.filterMap ForwardInput.toDaemon) :=
    forward_run_daemon crypto config role pid facility inputs
  obtain ⟨tasks, htasks, hall⟩ := datagrams_tasks hsound
  refine ⟨tasks, htasks.nodup hsound.once, htasks, hall.imp ?_⟩
  rintro datagram k ⟨item, hitem, rfl, hostnameFile, rfl⟩
  obtain ⟨f, hf, row, hrow, chainRow, hchain, hid, hevent⟩ := hsound.accepted item hitem
  refine ⟨f, hf, row, hrow, chainRow, hostnameFile, hid, hchain, by rw [hevent], ?_⟩
  intro status hstatus
  rw [hdaemon] at hf hrow
  obtain ⟨row', hrow', hid', hstatus'⟩ := forwarding_holds _ hf hstatus
  have hids := (run_accounted crypto config role (inputs.filterMap ForwardInput.toDaemon)).ids
  obtain rfl := List.inj_on_of_nodup_map hids hrow hrow' (hid.trans hid'.symm)
  exact hstatus'

/-- What the forwarder has taken it sends in order, loses or still has, and it has taken
each event once. It never has more in its channel than fits, what it waits behind failed
bindings, not counting the one at the start, doubles up to a minute, and what the daemon does
it does without it. -/
theorem forwarder_accounts (crypto : Crypto) (config : DaemonConfig) (role : Nat → CallerRole)
    (pid : UInt32) (facility : UInt8) (inputs : List ForwardInput) :
    let s := ForwardState.run crypto config role pid facility inputs
    s.forwarder.accepted = s.forwarder.handled.map Prod.fst ++
      (s.forwarder.inHand ++ s.forwarder.channel.queue) ∧
    s.forwarder.channel.queue.length ≤ forwarderQueueDepth ∧
    (s.forwarder.accepted.map Submitted.task).Nodup ∧
    (∀ k : Nat, k ∈ s.forwarder.accepted.map Submitted.task ↔
      ∃ task, s.tasks[k]? = some task ∧ task.Sent) ∧
    s.tasks.length = (forwardings s.daemon.log).length ∧
    s.forwarder.BacksOff ∧
    s.daemon = (daemonSystem crypto config role).run
      (inputs.filterMap ForwardInput.toDaemon) := by
  intro s
  have hsound : s.Sound pid facility := forward_run_sound crypto config role pid facility inputs
  exact ⟨hsound.forwarder.order, s.forwarder.channel.fits, hsound.once, hsound.sent,
    hsound.started, hsound.forwarder.backsOff,
    forward_run_daemon crypto config role pid facility inputs⟩

end Datagrams

end Sysknife
