import Sysknife.AuditVerify
import Sysknife.ChainInvariant

/-!
# The key file and the chain of a host

In every run of a host's daemons and commands the rows of the database are linked under the
key that the key file holds, and neither the key nor a row is lost.
-/

namespace Sysknife

open HashChain Interaction

/-! ## The key of a host -/

/-- The file is whole, for its owner alone, and holds this key. -/
def HoldsKey (file : Option KeyFile) (key : AuditKey) : Prop :=
  ∃ f, file = some f ∧ f.bytes = key.keyBytes ∧ 32 ≤ key.keyBytes.length ∧ OwnerOnly f.mode

theorem HoldsKey.unique {file : Option KeyFile} {key key' : AuditKey} (h : HoldsKey file key)
    (h' : HoldsKey file key') : key = key' := by
  obtain ⟨f, hf, hbytes, -, -⟩ := h
  obtain ⟨f', hf', hbytes', -, -⟩ := h'
  obtain rfl := Option.some.inj (hf.symm.trans hf')
  obtain ⟨keyId, keyBytes, rfl⟩ := key
  obtain ⟨keyId', keyBytes', rfl⟩ := key'
  obtain rfl : keyBytes = keyBytes' := hbytes.symm.trans hbytes'
  rfl

/-- Nothing is taken from a key file, and its mode stays. -/
theorem KeyOp.exec_grows (env : KeyEnv) (f : KeyFile) (o : KeyOp) :
    ∃ f', (o.exec env (some f)).2 = some f' ∧ f'.mode = f.mode ∧ f.bytes <+: f'.bytes := by
  cases o with
  | write rest =>
    cases hfailure : env.failure with
    | some e => exact ⟨f, by simp only [KeyOp.exec, hfailure], rfl, List.prefix_rfl⟩
    | none =>
      refine ⟨{ f with bytes := f.bytes ++ rest.take (min env.taken rest.length) }, ?_, rfl,
        List.prefix_append _ _⟩
      simp only [KeyOp.exec, hfailure, Option.map_some]
  | createNew =>
    cases hfailure : env.failure <;>
      exact ⟨f, by simp only [KeyOp.exec, hfailure], rfl, List.prefix_rfl⟩
  | _ => exact ⟨f, rfl, rfl, List.prefix_rfl⟩

/-- A key file that is whole stays as it is. -/
theorem HoldsKey.act {initial file : Option KeyFile} {progress : Nat → Option KeyProgress}
    {i : Nat} {p : KeyProgress} {env : KeyEnv} {o : KeyOp} {key : AuditKey}
    (h : HoldsKey file key) (hinvariant : KeyInvariant initial file progress)
    (hi : progress i = some p) (hguard : o.Expected p) : HoldsKey (o.exec env file).2 key := by
  obtain ⟨f, rfl, hbytes, hlength, howner⟩ := h
  obtain ⟨f', hf', hmode, hpart⟩ := o.exec_grows env f
  have hinvariant' : KeyInvariant initial (o.exec env (some f)).2 _ := hinvariant.act hi hguard
  rw [hf'] at hinvariant' ⊢
  have hsame : f'.bytes = f.bytes := by
    cases initial with
    | some g =>
      obtain ⟨hg, -⟩ := hinvariant
      obtain ⟨hg', -⟩ := hinvariant'
      rw [Option.some.inj hg, Option.some.inj hg']
    | none =>
      rcases hinvariant' with ⟨hnone, -⟩ | ⟨made, owner, material, hmade, howned⟩
      · cases hnone
      · obtain rfl := Option.some.inj hmade
        rw [← hbytes] at hlength
        exact (hpart.eq_of_length_le (howned.short.trans hlength)).symm
  exact ⟨f', rfl, hsame.trans hbytes, hlength, hmode ▸ howner⟩

/-! ## What a task may do -/

structure HostProgress where
  key : KeyProgress := {}
  /-- The store of a call. -/
  store : Option TransactionStore := none
  /-- The status that a call has read. -/
  read : Option (String × JobState) := none
  opened : Bool := false
  rows : Option (List ChainRow) := none

def HostOp.Expected (p : HostProgress) : HostOp → Prop
  | .key o => o.Expected p.key
  | .store s => ∃ store, p.store = some store ∧ (storeMonitor store).guard p.read s
  | _ => True

def HostProgress.next (p : HostProgress) : (o : HostOp) → o.Answer → HostProgress
  | .key o, r => { p with key := p.key.next o r }
  | .openStore, .ok () => { p with opened := true }
  | .store s, r =>
    { p with read := p.store.elim p.read fun store => (storeMonitor store).next p.read s r }
  | .selectChain, .ok rows => { p with rows := some rows }
  | _, _ => p

def hostMonitor : Monitor HostProgress HostOp HostOp.Answer where
  guard := HostOp.Expected
  next := HostProgress.next

def HostTask.begin : HostTask → HostProgress
  | .call store _ => { store := some store }
  | _ => {}

/-- What a task has seen when it returns. -/
def HostTask.Seen (D : Deployment) : (task : HostTask) → HostProgress → task.Out → Prop
  | .boot, p, out => ∀ store, out = .ok store →
      p.opened = true ∧ ∃ key, store = ⟨some key⟩ ∧ p.key.Loaded (.ok key)
  | .call .., _, _ => True
  | .verify v, p, out => v.Unknown D out ∨
      ∃ key rows, p.key.Loaded (.ok key) ∧ p.rows = some rows ∧
        out = v.report D ((verifyChain D.crypto key rows).withText D.debugStr)

section Safe
variable {D : Deployment} {p : HostProgress}

theorem loadAuditKey_safe (hkey : p.key = {}) :
    hostMonitor.Safe (fun p out => p.key.Loaded out) p D.loadAuditKey := by
  have hload : keyMonitor.Safe KeyProgress.Loaded p.key (loadOrGenerate D.keyPath D.keyParent) := by
    rw [hkey]
    exact loadOrGenerate_safe
  exact (Monitor.Safe.embed hostMonitor HostOp.key (fun _ r => r) HostProgress.key
    (fun _ => True) hload trivial (fun _ _ _ h => h) fun _ _ _ _ => ⟨trivial, rfl⟩).mono
      fun _ _ h => h.2

theorem openStore_safe : hostMonitor.Safe (HostTask.boot.Seen D) {} D.openStore := by
  refine (loadAuditKey_safe rfl).bind fun p loaded hloaded => ?_
  cases loaded with
  | error e =>
    intro store hstore
    cases hstore
  | ok key =>
    refine ⟨trivial, fun answer => ?_⟩
    cases answer with
    | error e =>
      intro store hstore
      cases hstore
    | ok u =>
      intro store hstore
      cases hstore
      exact ⟨rfl, key, rfl, hloaded⟩

theorem callStore_safe (store : TransactionStore) (c : StoreCall) :
    hostMonitor.Safe (fun _ _ => True) (HostTask.call store c).begin (callStore store c) := by
  have hcall : (storeMonitor store).Safe (fun _ _ => True) none (c.body store) :=
    storeCall_safe store c none
  refine (Monitor.Safe.embed hostMonitor HostOp.store (fun _ r => r) HostProgress.read
    (fun p => p.store = some store) hcall rfl (fun _ _ hkept hguard => ⟨store, hkept, hguard⟩) ?_).mono fun _ _ _ => trivial
  intro p s r hkept
  refine ⟨hkept, ?_⟩
  simp only [hostMonitor, HostProgress.next, hkept, Option.elim]

/-- The rows are checked under the key that was loaded. -/
theorem verifySqlite_safe {key : AuditKey} (hloaded : p.key.Loaded (.ok key)) :
    hostMonitor.Safe (fun p out => (∃ reason, out = .cannotVerify reason) ∨
      ∃ rows, p.key.Loaded (.ok key) ∧ p.rows = some rows ∧
        out = (verifyChain D.crypto key rows).withText D.debugStr) p (D.verifySqlite key) := by
  refine ⟨trivial, fun found => ?_⟩
  cases found with
  | false => exact Or.inl ⟨_, rfl⟩
  | true =>
    refine ⟨trivial, fun opened => ?_⟩
    cases opened with
    | error e => exact Or.inl ⟨_, rfl⟩
    | ok u =>
      refine ⟨trivial, fun selected => ?_⟩
      cases selected with
      | error e => exact Or.inl ⟨_, rfl⟩
      | ok rows => exact Or.inr ⟨rows, hloaded, rfl, rfl⟩

theorem checkChain_safe {α : Type} {noKey : α} {keyFailed : AuditKeyError → α}
    (report : AuditOutcome → α) (unknown : α → Prop) (hno : unknown noKey)
    (hfailed : ∀ e, unknown (keyFailed e))
    (hunknown : ∀ reason, unknown (report (.cannotVerify reason))) :
    hostMonitor.Safe (fun p out => unknown out ∨
      ∃ key rows, p.key.Loaded (.ok key) ∧ p.rows = some rows ∧
        out = report ((verifyChain D.crypto key rows).withText D.debugStr)) {}
      (D.checkChain noKey keyFailed report) := by
  refine ⟨trivial, fun found => ?_⟩
  cases found with
  | false => exact Or.inl hno
  | true =>
    refine (loadAuditKey_safe rfl).bind fun p loaded hloaded => ?_
    cases loaded with
    | error e => exact Or.inl (hfailed e)
    | ok key =>
      refine (verifySqlite_safe hloaded).bind fun p' outcome houtcome => ?_
      rcases houtcome with ⟨reason, rfl⟩ | ⟨rows, hkey, hrows, rfl⟩
      · exact Or.inl (hunknown reason)
      · exact Or.inr ⟨key, rows, hkey, hrows, rfl⟩

theorem verifier_safe (v : Verifier) :
    hostMonitor.Safe ((HostTask.verify v).Seen D) {} (v.body D) := by
  cases v with
  | auditVerify json =>
    exact checkChain_safe (D.verified json) (Verifier.Unknown D (.auditVerify json))
      ⟨_, rfl⟩ (fun e => ⟨_, rfl⟩) fun reason => ⟨reason, rfl⟩
  | auditVerifyTool =>
    exact checkChain_safe (fun outcome => outcomeToReport outcome D.databasePath)
      (Verifier.Unknown D .auditVerifyTool) ⟨_, rfl⟩ (fun e => ⟨_, rfl⟩) fun reason => ⟨reason, rfl⟩
  | doctor =>
    exact checkChain_safe Deployment.quickStatus (Verifier.Unknown D .doctor)
      ⟨_, rfl⟩ (fun e => ⟨_, rfl⟩) fun reason => ⟨_, rfl⟩

theorem hostTask_safe (task : HostTask) :
    hostMonitor.Safe (task.Seen D) task.begin (task.body D) := by
  cases task with
  | boot => exact openStore_safe
  | call store c => exact callStore_safe store c
  | verify v => exact verifier_safe v

end Safe

/-! ## The invariant of a host -/

structure HostInvariant (crypto : Crypto) (initial : Option KeyFile) (host : Host)
    (progress : Nat → Option HostProgress) : Prop where
  key : KeyInvariant initial host.keyFile (Option.map HostProgress.key ∘ progress)
  store : ∀ i p, progress i = some p → ∀ store, p.store = some store →
    ∃ key, store = ⟨some key⟩ ∧ HoldsKey host.keyFile key
  opened : ∀ i p, progress i = some p → p.opened = true → host.db.isSome
  ledger : ∀ db, host.db = some db → db = .empty ∨
    ∃ key rows, HoldsKey host.keyFile key ∧ Represents crypto key db rows

section Invariant
variable {crypto : Crypto} {initial : Option KeyFile} {host host' : Host}
  {progress : Nat → Option HostProgress} {i : Nat} {p p' : HostProgress} {env : HostEnv}

theorem key_progress (hi : progress i = some p) :
    (Option.map HostProgress.key ∘ progress) i = some p.key := by
  rw [Function.comp_apply, hi]
  rfl

theorem selectChain_host (crypto : Crypto) (env : HostEnv) (host : Host) :
    (HostOp.selectChain.exec crypto env host).2 = host := by
  simp only [HostOp.exec]
  split <;> rfl

/-- A step that leaves the key file alone. -/
theorem HostInvariant.update (h : HostInvariant crypto initial host progress)
    (hi : progress i = some p) (hfile : host'.keyFile = host.keyFile)
    (hkey : p'.key = p.key) (hstore : p'.store = p.store)
    (hopened : p'.opened = true → p.opened = true ∨ host'.db.isSome)
    (hdb : host.db.isSome → host'.db.isSome)
    (hledger : ∀ db, host'.db = some db → db = .empty ∨
      ∃ key rows, HoldsKey host'.keyFile key ∧ Represents crypto key db rows) :
    HostInvariant crypto initial host' (Function.update progress i (some p')) := by
  refine ⟨?_, forall_update ?_ ?_, forall_update (fun j q hq hq' => hdb (h.opened j q hq hq')) ?_,
    hledger⟩
  · rw [hfile, Function.comp_update, Option.map_some, hkey, ← key_progress hi,
      Function.update_eq_self]
    exact h.key
  · rw [hfile]
    exact h.store
  · rw [hfile, hstore]
    exact h.store i p hi
  · intro hp'
    rcases hopened hp' with hp | hsome
    · exact hdb (h.opened i p hi hp)
    · exact hsome

theorem hostInvariant_initial (crypto : Crypto) (initial : Option KeyFile) :
    HostInvariant crypto initial ⟨initial, none⟩ fun _ => none := by
  refine ⟨keyInvariant_initial initial, ?_, ?_, ?_⟩
  · intro i p hi
    cases hi
  · intro i p hi
    cases hi
  · intro db hdb
    cases hdb

/-- A task starts, a call of a store under the key that is in the file. -/
theorem HostInvariant.start (h : HostInvariant crypto initial host progress)
    (hi : progress i = none) (task : HostTask)
    (htask : ∀ store c, task = .call store c →
      ∃ key, store = ⟨some key⟩ ∧ HoldsKey host.keyFile key) :
    HostInvariant crypto initial host (Function.update progress i (some task.begin)) := by
  refine ⟨?_, forall_update h.store ?_, forall_update h.opened ?_, h.ledger⟩
  · rw [Function.comp_update, Option.map_some]
    have hkey : task.begin.key = {} := by cases task <;> rfl
    rw [hkey]
    refine h.key.start ?_
    rw [Function.comp_apply, hi]
    rfl
  · intro store hstore
    cases task with
    | call store' c =>
      cases hstore
      exact htask store c rfl
    | boot => cases hstore
    | verify v => cases hstore
  · intro hopened
    cases task <;> cases hopened

/-- An operation of a task that may do it. -/
theorem HostInvariant.act (h : HostInvariant crypto initial host progress)
    (hi : progress i = some p) {o : HostOp} (hguard : o.Expected p) :
    HostInvariant crypto initial (o.exec crypto env host).2
      (Function.update progress i (some (p.next o (o.exec crypto env host).1))) := by
  cases o with
  | key o =>
    have hsettled : ∀ key, HoldsKey host.keyFile key →
        HoldsKey (o.exec env.key host.keyFile).2 key :=
      fun key hs => hs.act h.key (key_progress hi) hguard
    refine ⟨?_, forall_update ?_ ?_, forall_update h.opened (h.opened i p hi), ?_⟩
    · rw [Function.comp_update, Option.map_some]
      exact h.key.act (key_progress hi) hguard
    · intro j q hq store hstore
      obtain ⟨key, hkey, hs⟩ := h.store j q hq store hstore
      exact ⟨key, hkey, hsettled key hs⟩
    · intro store hstore
      obtain ⟨key, hkey, hs⟩ := h.store i p hi store hstore
      exact ⟨key, hkey, hsettled key hs⟩
    · intro db hdb
      rcases h.ledger db hdb with hempty | ⟨key, rows, hs, hrows⟩
      · exact Or.inl hempty
      · exact Or.inr ⟨key, rows, hsettled key hs, hrows⟩
  | databaseExists => exact h.update hi rfl rfl rfl Or.inl id h.ledger
  | openStore =>
    have hledger : ∀ db, some (host.db.getD .empty) = some db → db = .empty ∨
        ∃ key rows, HoldsKey host.keyFile key ∧ Represents crypto key db rows := by
      intro db hdb
      cases hhost : host.db with
      | none =>
        rw [hhost] at hdb
        exact Or.inl (Option.some.inj hdb).symm
      | some db' =>
        rw [hhost] at hdb
        exact h.ledger db (hhost.trans hdb)
    simp only [HostOp.exec]
    split
    · exact h.update hi rfl rfl rfl (fun _ => Or.inr rfl) (fun _ => rfl) hledger
    · exact h.update hi rfl rfl rfl Or.inl (fun _ => rfl) hledger
    · exact h.update hi rfl rfl rfl Or.inl id h.ledger
  | store s =>
    obtain ⟨store, hstore, hsend⟩ := hguard
    obtain ⟨key, rfl, hs⟩ := h.store i p hi store hstore
    cases hdb : host.db with
    | none =>
      simp only [HostOp.exec, hdb]
      exact h.update hi rfl rfl rfl Or.inl id h.ledger
    | some db =>
      -- the empty table is a ledger of any key, so of the one that the call has
      obtain ⟨rows, hrows⟩ : ∃ rows, Represents crypto key db rows := by
        rcases h.ledger db hdb with rfl | ⟨key', rows, hs', hrows⟩
        · exact ⟨[], represents_empty crypto key⟩
        · obtain rfl := hs.unique hs'
          exact ⟨rows, hrows⟩
      obtain ⟨rows', -, hrows'⟩ := hrows.exec crypto key hsend env.store
      simp only [HostOp.exec, hdb]
      refine h.update hi rfl rfl rfl Or.inl (fun _ => rfl) fun db' hdb' => ?_
      obtain rfl := Option.some.inj hdb'
      exact Or.inr ⟨key, rows', hs, hrows'⟩
  | selectChain =>
    rw [selectChain_host]
    refine h.update hi rfl ?_ ?_ ?_ id h.ledger
    · cases (HostOp.selectChain.exec crypto env host).1 <;> rfl
    · cases (HostOp.selectChain.exec crypto env host).1 <;> rfl
    · cases (HostOp.selectChain.exec crypto env host).1 <;> exact Or.inl

/-- Nothing is lost on a host: a key that is in the file, a database, its rows. -/
structure Later (host host' : Host) : Prop where
  key : ∀ key, HoldsKey host.keyFile key → HoldsKey host'.keyFile key
  db : ∀ db, host.db = some db →
    ∃ db', host'.db = some db' ∧ db.transactions.length ≤ db'.transactions.length

theorem Later.refl (host : Host) : Later host host :=
  ⟨fun _ h => h, fun db hdb => ⟨db, hdb, Nat.le_refl _⟩⟩

theorem Later.trans {host'' : Host} (h : Later host host') (h' : Later host' host'') :
    Later host host'' := by
  refine ⟨fun key hkey => h'.key key (h.key key hkey), fun db hdb => ?_⟩
  obtain ⟨db', hdb', hle⟩ := h.db db hdb
  obtain ⟨db'', hdb'', hle'⟩ := h'.db db' hdb'
  exact ⟨db'', hdb'', hle.trans hle'⟩

/-- No statement takes a row away. -/
theorem exec_length (crypto : Crypto) (env : StoreEnv) (db : Db) (s : Statement) :
    db.transactions.length ≤ (s.exec crypto env db).2.transactions.length := by
  have heffect := exec_effect crypto env db s
  generalize (s.exec crypto env db).1 = answer at heffect
  generalize (s.exec crypto env db).2 = db' at heffect
  cases heffect with
  | inserted _ _ hins hrows =>
    rw [hrows]
    simp
  | claimed | updated | canceled => simp [Db.setStatus]
  | failed | selectedQueued | selectedStatus | selectedHistory => exact Nat.le_refl _

theorem HostInvariant.later (h : HostInvariant crypto initial host progress)
    (hi : progress i = some p) {o : HostOp} (hguard : o.Expected p) :
    Later host (o.exec crypto env host).2 := by
  cases o with
  | key o =>
    exact ⟨fun key hs => hs.act h.key (key_progress hi) hguard, fun db hdb => ⟨db, hdb, Nat.le_refl _⟩⟩
  | databaseExists => exact Later.refl host
  | openStore =>
    have hopen : Later host { host with db := some (host.db.getD .empty) } := by
      refine ⟨fun _ h => h, fun db hdb => ⟨db, ?_, Nat.le_refl _⟩⟩
      rw [hdb]
      rfl
    simp only [HostOp.exec]
    split
    · exact hopen
    · exact hopen
    · exact Later.refl host
  | store s =>
    cases hdb : host.db with
    | none =>
      simp only [HostOp.exec, hdb]
      exact Later.refl host
    | some db =>
      simp only [HostOp.exec, hdb]
      refine ⟨fun _ h => h, fun db' hdb' => ⟨_, rfl, ?_⟩⟩
      obtain rfl := Option.some.inj (hdb.symm.trans hdb')
      exact exec_length crypto env.store db s
  | selectChain =>
    rw [selectChain_host]
    exact Later.refl host

/-- What is read from the rows of a host whose key is this one. -/
theorem HostInvariant.fetched (h : HostInvariant crypto initial host progress) {db : Db}
    (hdb : host.db = some db) {key : AuditKey}
    (hkey : ∀ key', HoldsKey host.keyFile key' → key' = key) :
    ∃ rows, fetchChainRows db = .ok rows ∧ rows.length = db.transactions.length ∧
      verifyChain crypto key rows = .intact db.transactions.length := by
  obtain ⟨rows, hrows⟩ : ∃ rows, Represents crypto key db rows := by
    rcases h.ledger db hdb with rfl | ⟨key', rows, hs, hrows⟩
    · exact ⟨[], represents_empty crypto key⟩
    · obtain rfl := hkey key' hs
      exact ⟨rows, hrows⟩
  refine ⟨rows, hrows.fetchChainRows_eq, hrows.length_eq.symm, ?_⟩
  rw [hrows.length_eq]
  exact verifyChain_accepted hrows.accepted

end Invariant

/-! ## Runs -/

section Runs
variable (D : Deployment) (initial : Option KeyFile) (inputs : List (Input HostEnv HostTask))

abbrev hostProgress : Nat → Option HostProgress :=
  System.progress hostMonitor HostTask.begin ((hostSystem D initial).run inputs)

/-- A daemon has come up with this store. -/
def HasStore (store : TransactionStore) : Prop :=
  ∃ j : Nat, ((hostSystem D initial).run inputs).threads[j]? = some ⟨.boot, .ret (.ok store)⟩

variable {D initial inputs}

theorem hasStore_of_mayStart {threads : List HostThread} {store : TransactionStore}
    {c : StoreCall} (h : HostTask.mayStart threads (.call store c) = true) :
    ∃ j : Nat, threads[j]? = some ⟨.boot, .ret (.ok store)⟩ := by
  obtain ⟨thread, hmem, hstore⟩ := List.any_eq_true.mp h
  obtain ⟨j, hj⟩ := List.mem_iff_getElem?.mp hmem
  refine ⟨j, hj.trans (congrArg some ?_)⟩
  unfold HostThread.hasStore at hstore
  split at hstore
  · rw [of_decide_eq_true hstore]
  · cases hstore

/-- What a daemon with a store, at the end of a run, says of the host. -/
theorem HasStore.holdsKey {store : TransactionStore} (h : HasStore D initial inputs store)
    (hinvariant : HostInvariant D.crypto initial ((hostSystem D initial).run inputs).shared
      (hostProgress D initial inputs)) :
    ((hostSystem D initial).run inputs).shared.db.isSome ∧ ∃ key, store = ⟨some key⟩ ∧
      HoldsKey ((hostSystem D initial).run inputs).shared.keyFile key := by
  obtain ⟨j, hj⟩ := h
  have hseen : hostMonitor.Safe (HostTask.boot.Seen D) _ (.ret (.ok store)) :=
    (hostTask_safe .boot).of_trace (System.thread_trace inputs j .boot _ hj)
  have hprogress := System.progress_of_thread (m := hostMonitor) (g := HostTask.begin) hj
  obtain ⟨hopened, key, rfl, hloaded⟩ := hseen store rfl
  refine ⟨hinvariant.opened j _ hprogress hopened, key, rfl, ?_⟩
  exact hinvariant.key.loaded (key_progress hprogress) hloaded

variable (D initial inputs)

theorem run_hostInvariant :
    HostInvariant D.crypto initial ((hostSystem D initial).run inputs).shared
      (hostProgress D initial inputs) := by
  refine System.progress_induction_started (S := hostSystem D initial) (m := hostMonitor)
    (g := HostTask.begin) (I := fun _ host progress => HostInvariant D.crypto initial host progress)
    (fun task => hostTask_safe task) (hostInvariant_initial D.crypto initial) ?_ ?_ inputs
  · intro xs task h hmay
    refine h.start (by simp [System.progress]) task fun store c htask => ?_
    subst htask
    exact (HasStore.holdsKey (hasStore_of_mayStart (c := c) hmay) h).2
  · exact fun _ _ _ _ _ _ _ h hi hguard => h.act hi hguard

theorem run_later {before : List (Input HostEnv HostTask)} (hbefore : before <+: inputs) :
    Later ((hostSystem D initial).run before).shared
      ((hostSystem D initial).run inputs).shared := by
  refine System.shared_of_prefix Later.refl (fun _ _ _ => Later.trans) ?_ hbefore
  intro xs i env task o k hi
  exact (run_hostInvariant D initial xs).later
    (System.progress_of_thread (m := hostMonitor) (g := HostTask.begin) hi)
    (System.guard_of_thread (fun task => hostTask_safe task) xs hi)

end Runs

end Sysknife
