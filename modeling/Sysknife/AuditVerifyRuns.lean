import Sysknife.HostChain
import Sysknife.Tamper

/-!
# What a verifier says of a host

A command that looks at the audit chain of a host never says that it is broken: the rows are
linked under the key that it has loaded, at whatever moment it takes them.
-/

namespace Sysknife

open Interaction

/-! ## What works on a host with a key and a store -/

/-- Nothing fails around the operation. -/
def HostEnv.works (env : HostEnv) : Prop :=
  env.key.failure = none ∧ env.openFault = none ∧ env.store.fault = none

def KeyOp.Holds (key : AuditKey) : (o : KeyOp) → o.Answer → Prop
  | .pathExists, found => found = true
  | .metadata, mode => ∃ mode', mode = .ok mode' ∧ OwnerOnly mode'
  | .read, content => content = .ok key.keyBytes
  | _, _ => True

/-- The answers of a host with this key, and with no fewer rows than these. -/
def HostOp.Holds (crypto : Crypto) (key : AuditKey) (least : Nat) : (o : HostOp) → o.Answer → Prop
  | .key o, r => o.Holds key r
  | .databaseExists, found => found = true
  | .openStore, r => r = .ok ()
  | .store _, _ => True
  | .selectChain, r => ∃ rows n, r = .ok rows ∧ least ≤ n ∧ verifyChain crypto key rows = .intact n

theorem loadOrGenerate_given {key : AuditKey} (hlength : 32 ≤ key.keyBytes.length) (path : String)
    (parent : Option String) :
    (loadOrGenerate path parent).Given (KeyOp.Holds key) fun out => out = .ok key := by
  intro found hfound
  obtain rfl : found = true := hfound
  intro mode hmode
  obtain ⟨mode', rfl, howner⟩ : ∃ mode', mode = .ok mode' ∧ OwnerOnly mode' := hmode
  have hmode : ¬((mode' &&& 0o777) &&& 0o077 ≠ 0) := not_not.mpr howner
  show Prog.Given _ _ (if _ then _ else _)
  rw [if_neg hmode]
  intro content hcontent
  obtain rfl : content = .ok key.keyBytes := hcontent
  show Prog.Given _ _ (if _ then _ else _)
  rw [if_neg (Nat.not_lt.mpr hlength)]
  obtain ⟨keyId, keyBytes, rfl⟩ := key
  rfl

theorem HostOp.Holds.least {crypto : Crypto} {key : AuditKey} {least least' : Nat} {o : HostOp}
    {r : o.Answer} (h : o.Holds crypto key least' r) (hle : least ≤ least') :
    o.Holds crypto key least r := by
  cases o with
  | selectChain =>
    obtain ⟨rows, n, hr, hn, hintact⟩ := h
    exact ⟨rows, n, hr, hle.trans hn, hintact⟩
  | _ => exact h

theorem checkChain_given {D : Deployment} {key : AuditKey} {least : Nat} {α : Type} {noKey : α}
    {keyFailed : AuditKeyError → α} (report : AuditOutcome → α)
    (hlength : 32 ≤ key.keyBytes.length) :
    (D.checkChain noKey keyFailed report).Given (HostOp.Holds D.crypto key least) fun out =>
      ∃ n, least ≤ n ∧ out = report (.intact n) := by
  intro found hfound
  obtain rfl : found = true := hfound
  have hload : D.loadAuditKey.Given (HostOp.Holds D.crypto key least) fun out => out = .ok key := by
    refine (loadOrGenerate_given hlength D.keyPath D.keyParent).embed HostOp.key (fun _ r => r)
      (HostOp.Holds D.crypto key least) ?_
    exact fun o r h => h
  refine hload.bind fun loaded hloaded => ?_
  subst hloaded
  have hverify : (D.verifySqlite key).Given (HostOp.Holds D.crypto key least) fun outcome =>
      ∃ n, least ≤ n ∧ outcome = .intact n := by
    intro found hfound
    obtain rfl : found = true := hfound
    intro opened hopened
    obtain rfl : opened = .ok () := hopened
    rintro selected ⟨rows, n, rfl, hn, hintact⟩
    refine ⟨n, hn, ?_⟩
    rw [hintact]
    rfl
  refine hverify.bind fun outcome houtcome => ?_
  obtain ⟨n, hn, rfl⟩ := houtcome
  exact ⟨n, hn, rfl⟩

theorem verifier_given {D : Deployment} {key : AuditKey} {least : Nat} (v : Verifier)
    (hlength : 32 ≤ key.keyBytes.length) :
    (v.body D).Given (HostOp.Holds D.crypto key least) fun out =>
      ∃ n, least ≤ n ∧ out = v.report D (.intact n) := by
  cases v with
  | auditVerify json => exact checkChain_given (D.verified json) hlength
  | auditVerifyTool =>
    exact checkChain_given (fun outcome => outcomeToReport outcome D.databasePath) hlength
  | doctor => exact checkChain_given Deployment.quickStatus hlength

theorem exec_holds {crypto : Crypto} {initial : Option KeyFile} {host : Host}
    {progress : Nat → Option HostProgress} (h : HostInvariant crypto initial host progress)
    {key : AuditKey} (hkey : HoldsKey host.keyFile key) {db : Db} (hdb : host.db = some db)
    {env : HostEnv} (hworks : env.works) (o : HostOp) :
    o.Holds crypto key db.transactions.length (o.exec crypto env host).1 := by
  obtain ⟨hreads, hopens, hselects⟩ := hworks
  cases o with
  | key o =>
    obtain ⟨f, hfile, hbytes, -, howner⟩ := hkey
    cases o with
    | pathExists => simp [HostOp.Holds, KeyOp.Holds, HostOp.exec, KeyOp.exec, hreads, hfile]
    | metadata =>
      refine ⟨f.mode, ?_, howner⟩
      simp only [HostOp.exec, KeyOp.exec, hfile, KeyEnv.answer, hreads]
    | read =>
      simp only [HostOp.Holds, KeyOp.Holds, HostOp.exec, KeyOp.exec, hfile, KeyEnv.answer, hreads,
        hbytes]
    | _ => trivial
  | databaseExists => simp [HostOp.Holds, HostOp.exec, hreads, hdb]
  | openStore => simp only [HostOp.Holds, HostOp.exec, hopens]
  | store s => trivial
  | selectChain =>
    obtain ⟨rows, hfetch, -, hintact⟩ := h.fetched hdb fun key' hkey' => hkey'.unique hkey
    refine ⟨rows, _, ?_, Nat.le_refl _, hintact⟩
    simp only [HostOp.exec, hselects, hdb]
    exact hfetch

/-! ## Runs -/

section Runs
variable (D : Deployment) (initial : Option KeyFile) (inputs : List (Input HostEnv HostTask))

/-- Rows that a task has were the answer to a select of its own. -/
theorem rows_selected {i : Nat} {p : HostProgress} {rows : List ChainRow}
    (hi : hostProgress D initial inputs i = some p) (hrows : p.rows = some rows) :
    ⟨.selectChain, .ok rows⟩ ∈ eventsOf i ((hostSystem D initial).run inputs).log := by
  obtain ⟨⟨task, prog⟩, hthread, rfl⟩ := Option.map_eq_some_iff.mp hi
  have htrace := System.thread_trace inputs i task prog hthread
  refine Monitor.Safe.trace_induction (m := hostMonitor) (g := task.begin)
    (I := fun p evs => p.rows = some rows → ⟨.selectChain, .ok rows⟩ ∈ evs)
    (hostTask_safe task) (fun h => by cases task <;> cases h) ?_ htrace hrows
  intro p evs o answer ih _ hnext
  have hold : p.rows = some rows → ⟨.selectChain, .ok rows⟩ ∈ evs ++ [⟨o, answer⟩] :=
    fun h => List.mem_append_left _ (ih h)
  cases o with
  | selectChain =>
    cases answer with
    | error e => exact hold hnext
    | ok selected =>
      obtain rfl := Option.some.inj hnext
      exact List.mem_append_right _ (List.mem_singleton_self _)
  | openStore => cases answer <;> exact hold hnext
  | _ => exact hold hnext

theorem select_ok (crypto : Crypto) {env : HostEnv} {host : Host} {rows : List ChainRow}
    (h : (HostOp.selectChain.exec crypto env host).1 = .ok rows) :
    ∃ db, host.db = some db ∧ fetchChainRows db = .ok rows := by
  simp only [HostOp.exec] at h
  split at h
  · cases h
  · cases h
  · exact ⟨_, by assumption, h⟩

/-- At some moment while the command was running it took the rows of the database, all of
them, and found them intact; or it does not know. -/
theorem verifier_true {i : Nat} {v : Verifier} {out : v.Out}
    (hi : ((hostSystem D initial).run inputs).threads[i]? = some ⟨.verify v, .ret out⟩) :
    v.Unknown D out ∨ ∃ before db prog, before <+: inputs ∧
      ((hostSystem D initial).run before).threads[i]? = some ⟨.verify v, .op .selectChain prog⟩ ∧
      ((hostSystem D initial).run before).shared.db = some db ∧
      out = v.report D (.intact db.transactions.length) := by
  have hseen : hostMonitor.Safe ((HostTask.verify v).Seen D) _ (.ret out) :=
    (hostTask_safe (.verify v)).of_trace (System.thread_trace inputs i _ _ hi)
  rcases hseen with hunknown | ⟨key, rows, hloaded, hrows, rfl⟩
  · exact Or.inl hunknown
  · have hprogress := System.progress_of_thread (m := hostMonitor) (g := HostTask.begin) hi
    have hkey : HoldsKey ((hostSystem D initial).run inputs).shared.keyFile key :=
      (run_hostInvariant D initial inputs).key.loaded (key_progress hprogress) hloaded
    obtain ⟨e, he, rfl, hevent⟩ := mem_eventsOf.mp (rows_selected D initial inputs hprogress hrows)
    obtain ⟨pre, suf, hlog⟩ := List.append_of_mem he
    obtain ⟨before, task, k, hbefore, -, hwaits, hresp⟩ := System.log_split inputs hlog
    obtain ⟨thread, env, o, resp⟩ := e
    cases hevent
    obtain ⟨p, hthread⟩ := System.thread_tag_of_prefix hbefore hwaits
    rw [hi] at hthread
    obtain ⟨rfl, -⟩ := Thread.mk.inj (Option.some.inj hthread)
    obtain ⟨db, hdb, hfetch⟩ := select_ok D.crypto hresp.symm
    -- a key that the file holds at that moment is the one that it holds at the end
    obtain ⟨rows', hfetch', -, hintact⟩ := (run_hostInvariant D initial before).fetched hdb
      fun key' hkey' => ((run_later D initial inputs hbefore).key key' hkey').unique hkey
    obtain rfl := Except.ok.inj (hfetch.symm.trans hfetch')
    refine Or.inr ⟨before, db, k, hbefore, hwaits, hdb, ?_⟩
    rw [hintact]
    rfl

/-- A command that starts when a daemon has come up, and meets no failure, finds the chain
intact, with all the rows that there were by then. -/
theorem verifier_intact {before : List (Input HostEnv HostTask)} (hbefore : before <+: inputs)
    {store : TransactionStore} (hstore : HasStore D initial before store) {i : Nat}
    (hnew : ((hostSystem D initial).run before).threads.length ≤ i) {v : Verifier} {out : v.Out}
    (hi : ((hostSystem D initial).run inputs).threads[i]? = some ⟨.verify v, .ret out⟩)
    (hworks : ∀ e ∈ ((hostSystem D initial).run inputs).log, e.thread = i → e.env.works) :
    ∃ db n, ((hostSystem D initial).run before).shared.db = some db ∧
      db.transactions.length ≤ n ∧ out = v.report D (.intact n) := by
  obtain ⟨hsome, key, rfl, hkey⟩ := hstore.holdsKey (run_hostInvariant D initial before)
  obtain ⟨db, hdb⟩ := Option.isSome_iff_exists.mp hsome
  have hlength : 32 ≤ key.keyBytes.length := by
    obtain ⟨f, -, -, hlength, -⟩ := hkey
    exact hlength
  have hanswers : ∀ event ∈ eventsOf i ((hostSystem D initial).run inputs).log,
      event.op.Holds D.crypto key db.transactions.length event.resp := by
    intro event hevent
    obtain ⟨e, he, rfl, rfl⟩ := mem_eventsOf.mp hevent
    obtain ⟨pre, suf, hlog⟩ := List.append_of_mem he
    obtain ⟨moment, task, k, hmoment, -, hwaits, hresp⟩ := System.log_split inputs hlog
    -- the command runs at that moment, so the daemon has come up before
    have hafter : before <+: moment := by
      rcases List.prefix_or_prefix_of_prefix hbefore hmoment with hafter | hafter
      · exact hafter
      · obtain ⟨p, hp⟩ := System.thread_tag_of_prefix hafter hwaits
        have hlt := (List.getElem?_eq_some_iff.mp hp).1
        omega
    have hlater := run_later D initial moment hafter
    obtain ⟨db', hdb', hle⟩ := hlater.db db hdb
    have hholds := exec_holds (run_hostInvariant D initial moment) (hlater.key key hkey) hdb'
      (hworks e he rfl) e.op
    have hanswer : e.op.Holds D.crypto key db'.transactions.length e.resp := by
      rw [hresp]
      exact hholds
    exact hanswer.least hle
  obtain ⟨n, hn, rfl⟩ := (verifier_given v hlength).of_trace
    (System.thread_trace inputs i _ _ hi) hanswers
  exact ⟨db, n, hdb, hn, rfl⟩

/-- Whatever daemons and commands run on a host whose store is SQLite, in whatever order their
operations fall and wherever they fail or stop. A command that looks at the audit chain either does not know, or
reports an intact chain of as many rows as the database had at a moment while the command was
running: it never reports a broken one. Once a daemon has come up, a command that meets no
failure reports an intact chain, of no fewer rows than there were when it started. -/
theorem audit_verify_true (D : Deployment) (initial : Option KeyFile)
    (inputs : List (Input HostEnv HostTask)) :
    let S := hostSystem D initial
    (∀ (i : Nat) (v : Verifier) (out : v.Out),
      (S.run inputs).threads[i]? = some ⟨.verify v, .ret out⟩ →
        v.Unknown D out ∨ ∃ before db prog, before <+: inputs ∧
          (S.run before).threads[i]? = some ⟨.verify v, .op .selectChain prog⟩ ∧
          (S.run before).shared.db = some db ∧
          out = v.report D (.intact db.transactions.length)) ∧
    ∀ (before : List (Input HostEnv HostTask)) (store : TransactionStore) (i : Nat) (v : Verifier)
      (out : v.Out),
      before <+: inputs → HasStore D initial before store →
        (S.run before).threads.length ≤ i →
        (S.run inputs).threads[i]? = some ⟨.verify v, .ret out⟩ →
        (∀ e ∈ (S.run inputs).log, e.thread = i → e.env.works) →
          ∃ db n, (S.run before).shared.db = some db ∧ db.transactions.length ≤ n ∧
            out = v.report D (.intact n) :=
  ⟨fun _ _ _ hi => verifier_true D initial inputs hi,
    fun _ _ _ _ _ hbefore hstore hnew hi hworks =>
      verifier_intact D initial inputs hbefore hstore hnew hi hworks⟩

end Runs

def sampleHost : Deployment where
  crypto := sampleCrypto
  debugStr := id
  keyPath := "/var/lib/sysknife/audit-key"
  keyParent := some "/var/lib/sysknife"
  databasePath := "/var/lib/sysknife/daemon.sqlite"

def quietEnv : HostEnv where
  key :=
    { failure := none, parent := true, random := ⟨List.replicate 32 0x42, rfl⟩
      umask := 0o022, taken := 32 }
  store := sampleEnv
  openFault := none

/-- A daemon makes its key and its store, a call records a row, and the tool looks at it. -/
def hostInputs : List (Input HostEnv HostTask) :=
  .start .boot :: List.replicate 9 (.act 0 quietEnv) ++
    .start (.call ⟨some sampleKey⟩ (.record sampleTransaction)) :: .act 1 quietEnv ::
    .start (.verify .auditVerifyTool) :: List.replicate 7 (.act 2 quietEnv)

def HostThread.toolReport : HostThread → Option AuditVerifyReport
  | ⟨.verify .auditVerifyTool, .ret out⟩ => some out
  | _ => none

example : ((hostSystem sampleHost none).run hostInputs).threads[2]?.bind HostThread.toolReport =
    some (outcomeToReport (.intact 1) sampleHost.databasePath) := by decide +kernel

end Sysknife
