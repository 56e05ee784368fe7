import Sysknife.StoreInvariant

/-!
# The audit chain of a store under concurrent calls

Any number of calls run against one store, their statements in any order and
any of them failing. The ledger stays linked, numbered and verifiable.
-/

namespace Sysknife

open HashChain Interaction

/-! ## What a call may send -/

/-- The status a call has read, and the conditions on what it sends: inserts
use the store's key, and a status update is a transition allowed from the
status read before. -/
def storeMonitor (store : TransactionStore) :
    Monitor (Option (String × JobState)) Statement Statement.Answer where
  guard read
    | .insert key _ => store.auditKey = some key
    | .insertPreviewed key _ _ => store.auditKey = some key
    | .updateStatus newStatus transactionId =>
        ∃ current, read = some (transactionId, current) ∧
          allowedTransition current newStatus = true
    | _ => True
  next read
    | .selectStatus transactionId, .ok (some status) =>
        (deserializeField status).map fun current => (transactionId, current)
    | _, _ => read

theorem updateStatus_safe (store : TransactionStore) (transactionId : String)
    (newStatus : JobState) (read : Option (String × JobState)) :
    (storeMonitor store).Safe (fun _ _ => True) read
      (TransactionStore.updateStatus transactionId newStatus) := by
  simp only [TransactionStore.updateStatus, query_bind, Monitor.safe_op]
  refine ⟨trivial, fun answer => ?_⟩
  rcases answer with e | _ | status
  · trivial
  · trivial
  · cases hstatus : (deserializeField status : Option JobState) with
    | none => simp [readField, hstatus]
    | some current =>
      simp only [readField, hstatus]
      split_ifs with hallowed
      · refine ⟨⟨current, ?_, hallowed⟩, fun answer => ?_⟩
        · simp [storeMonitor, hstatus]
        · cases answer <;> trivial
      · trivial

theorem listTransactions_safe (store : TransactionStore) (limit : Nat)
    (statusFilter actionFilter : Option String) (sinceHours : Option Nat)
    (read : Option (String × JobState)) :
    (storeMonitor store).Safe (fun _ _ => True) read
      (TransactionStore.listTransactions limit statusFilter actionFilter sinceHours) := by
  have hsend : ∀ (status : Option JobState)
      (k : Except StoreError (List Row) → StoreProg (Except StoreError (List TransactionRecord))),
      (∀ answer, (storeMonitor store).Safe (fun _ _ => True) read (k answer)) →
        (storeMonitor store).Safe (fun _ _ => True) read
          (query (.selectHistory (min limit 100) status actionFilter sinceHours) >>= k) :=
    fun _ _ hk => ⟨trivial, hk⟩
  unfold TransactionStore.listTransactions
  cases statusFilter with
  | none =>
    refine hsend none _ fun answer => ?_
    cases answer <;> trivial
  | some status =>
    simp only
    cases parseStatusFilter status with
    | none => trivial
    | some validated =>
      refine hsend (some validated) _ fun answer => ?_
      cases answer <;> trivial

/-- Every call meets the conditions. -/
theorem storeCall_safe (store : TransactionStore) (call : StoreCall)
    (read : Option (String × JobState)) :
    (storeMonitor store).Safe (fun _ _ => True) read (call.body store) := by
  cases call with
  | record transaction =>
    simp only [StoreCall.body, TransactionStore.record]
    cases hkey : store.auditKey with
    | none => trivial
    | some key => exact ⟨hkey, fun _ => trivial⟩
  | recordPreviewed transaction preview =>
    simp only [StoreCall.body, TransactionStore.recordPreviewed]
    cases hkey : store.auditKey with
    | none => trivial
    | some key => exact ⟨hkey, fun _ => trivial⟩
  | findByRequestHash requestHash =>
    refine ⟨trivial, fun answer => ?_⟩
    match answer with
    | .error e => trivial
    | .ok none => trivial
    | .ok (some row) => trivial
  | claimForExecution transactionId =>
    refine ⟨trivial, fun answer => ?_⟩
    cases answer <;> trivial
  | updateStatus transactionId newStatus =>
    exact updateStatus_safe store transactionId newStatus read
  | cleanupStaleQueued =>
    refine ⟨trivial, fun answer => ?_⟩
    cases answer <;> trivial
  | listTransactions limit statusFilter actionFilter sinceHours =>
    exact listTransactions_safe store limit statusFilter actionFilter sinceHours read

theorem inserts_key {store : TransactionStore} {read : Option (String × JobState)}
    {s : Statement} {key : AuditKey} {transaction : NewTransaction}
    (hguard : (storeMonitor store).guard read s) (hs : s.inserts = some (key, transaction)) :
    store.auditKey = some key := by
  cases s <;> simp only [Statement.inserts, Option.some.injEq, Prod.mk.injEq, reduceCtorEq] at hs
  all_goals exact hs.1 ▸ hguard

/-! ## The invariant -/

section Run
variable (crypto : Crypto) (key : AuditKey)

/-- One statement keeps the ledger. -/
theorem Represents.exec {db : Db} {rows : List ChainRow} (h : Represents crypto key db rows)
    {read : Option (String × JobState)} {s : Statement}
    (hguard : (storeMonitor ⟨some key⟩).guard read s) (env : StoreEnv) :
    ∃ rows', rows <+: rows' ∧ Represents crypto key (s.exec crypto env db).2 rows' := by
  have heffect := exec_effect crypto env db s
  generalize (s.exec crypto env db).1 = answer at heffect
  generalize (s.exec crypto env db).2 = db' at heffect
  cases heffect with
  | inserted hs _ hins hrows =>
    obtain rfl := Option.some.inj (inserts_key hguard hs)
    exact ⟨_, List.prefix_append _ _, h.insert hins hrows⟩
  | claimed transactionId => exact ⟨rows, List.prefix_rfl, h.setStatus _ _⟩
  | updated newStatus transactionId => exact ⟨rows, List.prefix_rfl, h.setStatus _ _⟩
  | canceled => exact ⟨rows, List.prefix_rfl, h.setStatus _ _⟩
  | failed | selectedQueued | selectedStatus | selectedHistory => exact ⟨rows, List.prefix_rfl, h⟩

/-- In every run of the store the tables represent a linked ledger. -/
theorem run_represents (inputs : List (Input StoreEnv StoreCall)) :
    ∃ rows, Represents crypto key
      ((storeSystem crypto ⟨some key⟩).run inputs).shared rows := by
  refine System.run_induction_guarded (m := storeMonitor ⟨some key⟩) (g := fun _ => none)
    (fun call => storeCall_safe _ call none)
    (I := fun P => ∃ rows, Represents crypto key P.shared rows) ?_ ?_ ?_ inputs
  · exact ⟨[], represents_empty crypto key⟩
  · exact fun _ _ h _ => h
  · rintro P i env call s k ⟨rows, h⟩ - hguard
    obtain ⟨rows', -, h'⟩ := h.exec crypto key hguard env
    exact ⟨rows', h'⟩

/-- A `record` or `record_previewed` call. -/
def StoreCall.records : StoreCall → Bool
  | .record .. => true
  | .recordPreviewed .. => true
  | _ => false

/-- A step of a call that is one statement ends the call, and changes nothing
when the call ends in an error. -/
theorem single_statement_step {s : Statement} {db : Db} {env : StoreEnv}
    {evs : List (Event Statement Statement.Answer)} {o : Statement}
    {k : o.Answer → StoreProg s.Answer} (h : Trace (query s) evs (.op o k)) :
    (∃ a, k (o.exec crypto env db).1 = .ret (.ok a)) ∨ (o.exec crypto env db).2 = db := by
  rcases trace_perform h with ⟨-, hq⟩ | ⟨r, -, hq⟩
  · cases hq
    cases hanswer : (s.exec crypto env db).1 with
    | error e => exact Or.inr (exec_error crypto env db hanswer)
    | ok a => exact Or.inl ⟨a, rfl⟩
  · cases hq

/-- A step of a recording call ends it with `Ok`, or leaves both tables
unchanged. -/
theorem recording_step {call : StoreCall} (hrec : call.records = true)
    (inputs : List (Input StoreEnv StoreCall)) (i : Nat) (env : StoreEnv)
    {p : StoreProg call.Answer}
    (h : ((storeSystem crypto ⟨some key⟩).run (inputs ++ [.act i env])).threads[i]? =
      some ⟨call, p⟩) :
    (∃ a, p = .ret (.ok a)) ∨
      ((storeSystem crypto ⟨some key⟩).run (inputs ++ [.act i env])).shared =
        ((storeSystem crypto ⟨some key⟩).run inputs).shared := by
  rw [System.run_concat] at h ⊢
  rcases System.step_cases _ _ (Input.act i env) with he | ⟨t, hx, -⟩ | ⟨j, env', t, o, k, hx, hj, he⟩
  · exact Or.inr (congrArg Pool.shared he)
  · cases hx
  · cases hx
    rw [he] at h ⊢
    have hlt := (List.getElem?_eq_some_iff.mp hj).1
    simp only [System.afterAct, List.getElem?_set_self hlt, Option.some.injEq,
      Thread.mk.injEq] at h
    obtain ⟨rfl, hp⟩ := h
    have htrace := System.thread_trace inputs i t _ hj
    rw [← eq_of_heq hp]
    cases t with
    | record transaction => exact single_statement_step crypto htrace
    | recordPreviewed transaction preview => exact single_statement_step crypto htrace
    | _ => cases hrec

/-- What the ledger says about the stored rows. -/
theorem Represents.links {db : Db} {rows : List ChainRow} (h : Represents crypto key db rows) :
    (orderBySeq db.transactions).map Row.seq =
        (List.range' 1 db.transactions.length).map (fun n : Nat => (n : Int)) ∧
      (∀ row ∈ (orderBySeq db.transactions).head?, row.prevChainHash = "") ∧
      (∀ (k : Nat) (row next : Row), (orderBySeq db.transactions)[k]? = some row →
        (orderBySeq db.transactions)[k + 1]? = some next → next.prevChainHash = row.chainHash) ∧
      verifyAuditChain crypto key db = .ok (.intact db.transactions.length) := by
  have hread : ∀ (k : Nat) (row : Row), db.transactions[k]? = some row →
      ∃ r, rows[k]? = some r ∧ row.prevChainHash = r.prevChainHash ∧ row.chainHash = r.chainHash := by
    intro k row hk
    have hmap := congrArg (fun xs => xs[k]?) h.read_back
    simp only [List.getElem?_map, hk, Option.map_some] at hmap
    obtain ⟨r, hr, hrow⟩ := Option.map_eq_some_iff.mp hmap.symm
    exact ⟨r, hr, toChainRow_ok hrow.symm⟩
  have hblock : ∀ (k : Nat) (r : ChainRow), rows[k]? = some r →
      (rows.map ChainRow.block)[k]? = some r.block := by
    intro k r hr
    rw [List.getElem?_map, hr]
    rfl
  rw [h.orderBySeq_eq]
  refine ⟨?_, ?_, ?_, ?_⟩
  · rw [h.seq_column, h.length_eq, ← h.numbered, List.map_map]
    rfl
  · intro row hrow
    rw [List.head?_eq_getElem?] at hrow
    obtain ⟨r, hr, hprev, -⟩ := hread 0 row hrow
    have hb := h.accepted.linked.head_prev r.block
      (by rw [List.head?_eq_getElem?]; exact hblock 0 r hr)
    exact hprev.trans hb
  · intro k row next hrow hnext
    obtain ⟨r, hr, -, hhash⟩ := hread k row hrow
    obtain ⟨r', hr', hprev, -⟩ := hread (k + 1) next hnext
    have hb := h.accepted.linked.succ_prev (hblock k r hr) (hblock (k + 1) r' hr')
    exact hprev.trans (hb.trans hhash.symm)
  · rw [verifyAuditChain, h.fetchChainRows_eq, h.length_eq]
    exact congrArg Except.ok (verifyChain_accepted h.accepted)

/-- In every run, whatever fails and however the calls interleave: the rows are
numbered `1..n` and linked, the verifier says so, and a recording call that
fails has changed nothing. -/
theorem store_chain_intact (inputs : List (Input StoreEnv StoreCall)) :
    let S := storeSystem crypto ⟨some key⟩
    let db := (S.run inputs).shared
    let rows := orderBySeq db.transactions
    rows.map Row.seq = (List.range' 1 db.transactions.length).map (fun n : Nat => (n : Int)) ∧
    (∀ row ∈ rows.head?, row.prevChainHash = "") ∧
    (∀ (k : Nat) (row next : Row), rows[k]? = some row → rows[k + 1]? = some next →
      next.prevChainHash = row.chainHash) ∧
    verifyAuditChain crypto key db = .ok (.intact db.transactions.length) ∧
    ∀ (i : Nat) (env : StoreEnv) (call : StoreCall) (p : StoreProg call.Answer),
      call.records = true → (S.run (inputs ++ [.act i env])).threads[i]? = some ⟨call, p⟩ →
      (∃ a, p = .ret (.ok a)) ∨ (S.run (inputs ++ [.act i env])).shared = db := by
  obtain ⟨rows, h⟩ := run_represents crypto key inputs
  obtain ⟨hseq, hhead, hlinks, hverify⟩ := h.links crypto key
  exact ⟨hseq, hhead, hlinks, hverify, fun i env call p hrec hp =>
    recording_step crypto key hrec inputs i env hp⟩

end Run

end Sysknife
