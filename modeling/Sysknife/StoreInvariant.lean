import Sysknife.Transactions

/-!
# What the statements do, and the ledger they keep

`exec_effect` says once what a statement can do to the two tables. `Represents`
relates the tables to an abstract append-only ledger of chain rows: an insert
appends one linked row, every other statement leaves the ledger as it is.
-/

namespace Sysknife

open HashChain Interaction

/-! ## Transactions -/

theorem txn_bind_ok {α β : Type} {x : Txn α} {f : α → Txn β} {s s'' : TxnState} {b : β}
    (h : (x >>= f) s = .ok (b, s'')) : ∃ a s', x s = .ok (a, s') ∧ f a s' = .ok (b, s'') := by
  change (x s >>= fun p => f p.1 p.2) = _ at h
  cases hx : x s with
  | error e =>
    rw [hx] at h
    cases h
  | ok p =>
    rw [hx] at h
    exact ⟨p.1, p.2, rfl, h⟩

theorem txn_pure_ok {α : Type} {a b : α} {s s' : TxnState}
    (h : (pure a : Txn α) s = .ok (b, s')) : a = b ∧ s = s' := by
  cases h
  exact ⟨rfl, rfl⟩

/-- What a statement does once no fault stops it. -/
def sendStatement {α : Type} (f : Db → Except StoreError (α × Db)) (db : Db)
    (fault : Option (Nat × String)) : Except StoreError (α × TxnState) := do
  let (a, db) ← f db
  return (a, ⟨fault, db⟩)

/-- A statement that went through had its effect on the private copy. -/
theorem sql_ok {α : Type} {f : Db → Except StoreError (α × Db)} {s s' : TxnState} {a : α}
    (h : sql f s = .ok (a, s')) : f s.db = .ok (a, s'.db) := by
  have hrest : ∀ fault : Option (Nat × String),
      sendStatement f s.db fault = .ok (a, s') → f s.db = .ok (a, s'.db) := by
    intro fault he
    unfold sendStatement at he
    cases hf : f s.db with
    | error e =>
      rw [hf] at he
      cases he
    | ok p =>
      rw [hf] at he
      cases he
      rfl
  unfold sql at h
  split at h
  · cases h
  · exact hrest _ h

/-- The next sequence number and the hash to link to. -/
def nextLink (db : Db) : Nat × String :=
  match (orderBySeqDesc db.transactions).head? with
  | some row => ((asU64 row.seq + 1) % 2 ^ 64, row.chainHash)
  | none => (1, "")

theorem nextSeqAndPrevHash_ok {s s' : TxnState} {link : Nat × String}
    (h : nextSeqAndPrevHash s = .ok (link, s')) : link = nextLink s.db ∧ s'.db = s.db := by
  have hok := sql_ok h
  unfold nextLink
  cases hhead : (orderBySeqDesc s.db.transactions).head? with
  | none =>
    simp only [hhead, Except.ok.injEq, Prod.mk.injEq] at hok
    exact ⟨hok.1.symm, hok.2.symm⟩
  | some row =>
    simp only [hhead, Except.ok.injEq, Prod.mk.injEq] at hok
    exact ⟨hok.1.symm, hok.2.symm⟩

/-- A row may be inserted: its id is new and there is room. -/
structure Insertable (db : Db) (row : Row) : Prop where
  id_fresh : ∀ r ∈ db.transactions, r.transactionId ≠ row.transactionId
  fits : db.transactions.length < maxRows

theorem insertRow_ok {row : Row} {s s' : TxnState} {u : Unit} (h : insertRow row s = .ok (u, s')) :
    Insertable s.db row ∧
      s'.db = { s.db with transactions := s.db.transactions ++ [row] } := by
  have hok := sql_ok h
  split_ifs at hok with hid hseq hfull
  simp only [Except.ok.injEq, Prod.mk.injEq] at hok
  refine ⟨⟨?_, Nat.not_le.mp hfull⟩, hok.2.symm⟩
  intro r hr he
  exact hid (List.any_eq_true.mpr ⟨r, hr, by simp [he]⟩)

theorem insertPreview_ok {transactionId : String} {preview : PreviewEnvelope} {s s' : TxnState}
    {u : Unit} (h : insertPreview transactionId preview s = .ok (u, s')) :
    s'.db.transactions = s.db.transactions := by
  have hok := sql_ok h
  split_ifs at hok
  simp only [Except.ok.injEq, Prod.mk.injEq] at hok
  rw [← hok.2]

section Insert
variable {crypto : Crypto} {key : AuditKey} {env : StoreEnv} {db : Db}

/-- The row an insert into `db` writes. -/
def appendedRow (crypto : Crypto) (key : AuditKey) (env : StoreEnv) (db : Db)
    (transaction : NewTransaction) : Row :=
  newRow crypto key env (nextLink db).1 (nextLink db).2 transaction

theorem insertTransaction_ok {transaction : NewTransaction} {s s' : TxnState}
    {record : TransactionRecord}
    (h : insertTransaction crypto key env transaction s = .ok (record, s')) :
    record = newRecord env transaction ∧
      Insertable s.db (appendedRow crypto key env s.db transaction) ∧
      s'.db.transactions = s.db.transactions ++ [appendedRow crypto key env s.db transaction] := by
  obtain ⟨link, s₁, h₁, h⟩ := txn_bind_ok h
  obtain ⟨u, s₂, h₂, h⟩ := txn_bind_ok h
  obtain ⟨u', s₃, h₃, h⟩ := txn_bind_ok h
  obtain ⟨rfl, rfl⟩ := txn_pure_ok h
  obtain ⟨rfl, hdb₁⟩ := nextSeqAndPrevHash_ok h₁
  have hdb₂ : s₂.db = s.db := by
    have hok := sql_ok h₂
    simp only [Except.ok.injEq, Prod.mk.injEq] at hok
    rw [← hok.2, hdb₁]
  obtain ⟨hins, hdb₃⟩ := insertRow_ok h₃
  rw [hdb₂] at hins hdb₃
  exact ⟨rfl, hins, by rw [hdb₃]; rfl⟩

/-- An immediate transaction takes effect as a whole or not at all. -/
theorem immediate_cases {α : Type} (env : StoreEnv) (body : Txn α) (db : Db) :
    (∃ a s s', s.db = db ∧ body s = .ok (a, s') ∧ immediate env body db = (.ok a, s'.db)) ∨
      ∃ e, immediate env body db = (.error e, db) := by
  unfold immediate
  simp only
  split
  · rename_i a s' h
    obtain ⟨u, s₁, h₁, h⟩ := txn_bind_ok h
    obtain ⟨a', s₂, h₂, h⟩ := txn_bind_ok h
    obtain ⟨u', s₃, h₃, h⟩ := txn_bind_ok h
    obtain ⟨rfl, rfl⟩ := txn_pure_ok h
    have hbegin := sql_ok h₁
    have hcommit := sql_ok h₃
    simp only [Except.ok.injEq, Prod.mk.injEq] at hbegin hcommit
    exact Or.inl ⟨a', s₁, s₂, hbegin.2.symm, h₂, by rw [hcommit.2]⟩
  · rename_i e h
    exact Or.inr ⟨e, rfl⟩

end Insert

/-! ## Statements -/

/-- The row a statement would insert. -/
def Statement.inserts : Statement → Option (AuditKey × NewTransaction)
  | .insert key transaction => some (key, transaction)
  | .insertPreviewed key transaction _ => some (key, transaction)
  | _ => none

/-- The record of the row a statement did insert. -/
def Statement.created : (s : Statement) → s.Answer → Option TransactionRecord
  | .insert .., .ok record => some record
  | .insertPreviewed .., .ok recorded => some recorded.transaction
  | _, _ => none

/-- What a statement can answer and do to `db`. -/
inductive Effect (crypto : Crypto) (env : StoreEnv) (db : Db) :
    (s : Statement) → s.Answer → Db → Prop where
  | failed (s : Statement) (e : StoreError) : Effect crypto env db s (.error e) db
  | inserted {s : Statement} {answer : s.Answer} {key : AuditKey} {transaction : NewTransaction}
      {db' : Db} (hs : s.inserts = some (key, transaction))
      (hcreated : s.created answer = some (newRecord env transaction))
      (hins : Insertable db (appendedRow crypto key env db transaction))
      (hrows : db'.transactions = db.transactions ++ [appendedRow crypto key env db transaction]) :
      Effect crypto env db s answer db'
  | selectedQueued (requestHash : String) :
      Effect crypto env db (.selectQueued requestHash)
        (.ok (orderBySeqDesc
          (db.transactions.filter (Row.matchesRequest env.now requestHash))).head?) db
  | claimed (transactionId : String) :
      Effect crypto env db (.claim transactionId)
        (.ok (db.transactions.countP (Row.isClaimable transactionId)))
        (db.setStatus .running (Row.isClaimable transactionId)).2
  | selectedStatus (transactionId : String) :
      Effect crypto env db (.selectStatus transactionId)
        (.ok ((db.transactions.find? fun row => row.hasId transactionId).map Row.status)) db
  | updated (newStatus : JobState) (transactionId : String) :
      Effect crypto env db (.updateStatus newStatus transactionId)
        (.ok (db.transactions.countP fun row => row.hasId transactionId))
        (db.setStatus newStatus fun row => row.hasId transactionId).2
  | canceled :
      Effect crypto env db .cancelStale
        (.ok (db.transactions.countP (Row.isStaleQueued env.now)))
        (db.setStatus .canceled (Row.isStaleQueued env.now)).2
  | selectedHistory (limit : Nat) (status : Option JobState) (action : Option String)
      (sinceHours : Option Nat) :
      Effect crypto env db (.selectHistory limit status action sinceHours)
        (.ok ((orderBySeqDesc (db.transactions.filter
          (Row.inHistory env.now status action sinceHours))).take limit)) db

section Exec
variable (crypto : Crypto) (env : StoreEnv) (db : Db)

theorem attempt_effect {s : Statement} (f : Db → s.Result × Db)
    (hf : Effect crypto env db s (.ok (f db).1) (f db).2) :
    Effect crypto env db s (attempt env db f).1 (attempt env db f).2 := by
  unfold attempt
  split
  · exact .failed s _
  · exact hf

theorem immediate_effect {s : Statement} {key : AuditKey} {transaction : NewTransaction}
    (hs : s.inserts = some (key, transaction)) {body : Txn s.Result}
    (hbody : ∀ st a st', body st = .ok (a, st') → ∃ mid record,
      insertTransaction crypto key env transaction st = .ok (record, mid) ∧
        s.created (.ok a) = some record ∧ st'.db.transactions = mid.db.transactions) :
    Effect crypto env db s (immediate env body db).1 (immediate env body db).2 := by
  rcases immediate_cases env body db with ⟨a, st, st', rfl, hok, he⟩ | ⟨e, he⟩
  · obtain ⟨mid, record, hins, hcreated, hrows⟩ := hbody st a st' hok
    obtain ⟨rfl, hinsertable, happended⟩ := insertTransaction_ok hins
    rw [he]
    exact .inserted hs hcreated hinsertable (hrows.trans happended)
  · rw [he]
    exact .failed s e

/-- Every statement has one of the effects. -/
theorem exec_effect (s : Statement) :
    Effect crypto env db s (s.exec crypto env db).1 (s.exec crypto env db).2 := by
  cases s with
  | insert key transaction =>
    exact immediate_effect crypto env db rfl fun st a st' h => ⟨st', a, h, rfl, rfl⟩
  | insertPreviewed key transaction preview =>
    refine immediate_effect crypto env db rfl fun st a st' h => ?_
    obtain ⟨record, mid, hins, h⟩ := txn_bind_ok h
    obtain ⟨u, st₂, hpreview, h⟩ := txn_bind_ok h
    obtain ⟨rfl, rfl⟩ := txn_pure_ok h
    exact ⟨mid, record, hins, rfl, insertPreview_ok hpreview⟩
  | selectQueued requestHash => exact attempt_effect crypto env db _ (.selectedQueued _)
  | claim transactionId => exact attempt_effect crypto env db _ (.claimed _)
  | selectStatus transactionId => exact attempt_effect crypto env db _ (.selectedStatus _)
  | updateStatus newStatus transactionId => exact attempt_effect crypto env db _ (.updated _ _)
  | cancelStale => exact attempt_effect crypto env db _ .canceled
  | selectHistory limit status action sinceHours =>
    exact attempt_effect crypto env db _ (.selectedHistory _ _ _ _)

/-- A failed statement, or a failed transaction, leaves both tables unchanged. -/
theorem exec_error {s : Statement} {e : StoreError} (h : (s.exec crypto env db).1 = .error e) :
    (s.exec crypto env db).2 = db := by
  have heffect := exec_effect crypto env db s
  rw [h] at heffect
  generalize (s.exec crypto env db).2 = db' at heffect
  cases heffect with
  | failed => rfl
  | inserted hs hcreated => cases s <;> cases hcreated

end Exec

/-! ## Status writes -/

section SetStatus
variable (newStatus : JobState) (where_ : Row → Bool) (db : Db)

/-- A status write leaves every other column alone. -/
theorem map_setStatus {α : Type} (f : Row → α)
    (hf : ∀ (row : Row) status, f { row with status := status } = f row) :
    (db.setStatus newStatus where_).2.transactions.map f = db.transactions.map f := by
  simp only [Db.setStatus, List.map_map]
  apply List.map_congr_left
  intro row _
  simp only [Function.comp]
  split
  · exact hf row _
  · rfl

/-- A row after a status write. -/
theorem mem_setStatus {row' : Row} (h : row' ∈ (db.setStatus newStatus where_).2.transactions) :
    ∃ row ∈ db.transactions,
      row' = if where_ row then { row with status := serializeField newStatus } else row := by
  simp only [Db.setStatus, List.mem_map] at h
  obtain ⟨row, hrow, he⟩ := h
  exact ⟨row, hrow, he.symm⟩

end SetStatus

/-! ## The ledger -/

/-- The tables hold exactly the rows of a linked ledger, numbered from 1. -/
structure Represents (crypto : Crypto) (key : AuditKey) (db : Db) (rows : List ChainRow) :
    Prop where
  read_back : db.transactions.map Row.toChainRow = rows.map .ok
  seq_column : db.transactions.map Row.seq = rows.map fun r => (r.seq : Int)
  numbered : rows.map (fun r => r.seq) = List.range' 1 rows.length
  fits : rows.length ≤ maxRows
  accepted : Accepted crypto key "" rows

theorem represents_empty (crypto : Crypto) (key : AuditKey) :
    Represents crypto key .empty [] where
  read_back := rfl
  seq_column := rfl
  numbered := rfl
  fits := Nat.zero_le _
  accepted := accepted_nil _

@[simp] theorem readField_serializeField {α : Type} [UnitEnum α] (a : α) :
    readField (serializeField a) = .ok a := by
  simp [readField]

/-- The three columns that are decoded, and the record that comes of them. -/
theorem toRecord_ok_iff {row : Row} {record : TransactionRecord} :
    row.toRecord = .ok record ↔ ∃ (riskLevel : RiskLevel) (status : JobState)
      (warnings : List String), (readField row.riskLevel : Except StoreError _) = .ok riskLevel ∧
        (readField row.status : Except StoreError _) = .ok status ∧
        deserializeStrings row.warningsJson = some warnings ∧
        record = ⟨row.transactionId, row.requestId, row.requestHash, row.actionName, riskLevel,
          status, row.approvalId, row.summary, warnings⟩ := by
  constructor
  · intro h
    unfold Row.toRecord at h
    cases hrisk : (readField row.riskLevel : Except StoreError RiskLevel) with
    | error e =>
      rw [hrisk] at h
      cases h
    | ok riskLevel =>
      cases hstatus : (readField row.status : Except StoreError JobState) with
      | error e =>
        rw [hrisk, hstatus] at h
        cases h
      | ok status =>
        cases hwarnings : deserializeStrings row.warningsJson with
        | none =>
          rw [hrisk, hstatus, hwarnings] at h
          cases h
        | some warnings =>
          rw [hrisk, hstatus, hwarnings] at h
          cases h
          exact ⟨riskLevel, status, warnings, rfl, rfl, rfl, rfl⟩
  · rintro ⟨riskLevel, status, warnings, hrisk, hstatus, hwarnings, rfl⟩
    rw [Row.toRecord, hrisk, hstatus, hwarnings]
    rfl

theorem asU64_asI64 {n : Nat} (h : n < 2 ^ 63) : asI64 n = n ∧ asU64 n = n := by
  constructor
  · rw [asI64, if_pos h]
  · unfold asU64
    omega

section Ledger
variable {crypto : Crypto} {key : AuditKey} {db : Db} {rows : List ChainRow}

/-- What a row reads back as. -/
theorem toChainRow_ok {row : Row} {r : ChainRow} (h : row.toChainRow = .ok r) :
    row.prevChainHash = r.prevChainHash ∧ row.chainHash = r.chainHash := by
  unfold Row.toChainRow at h
  cases hrisk : (readField row.riskLevel : Except StoreError RiskLevel) with
  | error e =>
    rw [hrisk] at h
    cases h
  | ok risk =>
    rw [hrisk] at h
    cases h
    exact ⟨rfl, rfl⟩

theorem Represents.length_eq (h : Represents crypto key db rows) :
    db.transactions.length = rows.length := by
  simpa using congrArg List.length h.read_back

/-- The stored order is already the order of `seq`. -/
theorem Represents.orderBySeq_eq (h : Represents crypto key db rows) :
    orderBySeq db.transactions = db.transactions := by
  have hlt : (rows.map fun r => r.seq).Pairwise (· < ·) := by
    rw [h.numbered]
    exact List.pairwise_lt_range'
  have hrows : (rows.map fun r => (r.seq : Int)).Pairwise (· ≤ ·) := by
    rw [List.pairwise_map] at hlt ⊢
    exact hlt.imp fun hab => by omega
  rw [← h.seq_column, List.pairwise_map] at hrows
  exact hrows.insertionSort_eq

theorem Represents.fetchChainRows_eq (h : Represents crypto key db rows) :
    fetchChainRows db = .ok rows := by
  have hmap : ∀ (xs : List Row) (ys : List ChainRow),
      xs.map Row.toChainRow = ys.map .ok → xs.mapM Row.toChainRow = .ok ys := by
    intro xs
    induction xs with
    | nil =>
      intro ys hxy
      cases ys with
      | nil => rfl
      | cons y ys => simp at hxy
    | cons x xs ih =>
      intro ys hxy
      cases ys with
      | nil => simp at hxy
      | cons y ys =>
        simp only [List.map_cons, List.cons.injEq] at hxy
        rw [List.mapM_cons, hxy.1, ih ys hxy.2]
        rfl
  rw [fetchChainRows, h.orderBySeq_eq]
  exact hmap _ _ h.read_back

/-- The link an insert reads is the ledger's tip. -/
theorem Represents.nextLink_eq (h : Represents crypto key db rows) :
    nextLink db = (rows.length + 1, tip "" (rows.map ChainRow.block)) := by
  unfold nextLink orderBySeqDesc
  rw [h.orderBySeq_eq, List.head?_reverse]
  rcases List.eq_nil_or_concat rows with rfl | ⟨p, r, rfl⟩
  · have hnil : db.transactions = [] := List.length_eq_zero_iff.mp h.length_eq
    simp [hnil]
  · rw [List.concat_eq_append] at h ⊢
    rcases List.eq_nil_or_concat db.transactions with hnil | ⟨q, row, hq⟩
    · have hlen := h.length_eq
      simp [hnil] at hlen
    · rw [List.concat_eq_append] at hq
      have hread := h.read_back
      have hseq := h.seq_column
      have hnum := h.numbered
      have hfits := h.fits
      rw [hq, List.map_append, List.map_append] at hread hseq
      rw [List.map_append, List.length_append, List.length_singleton, List.range'_concat] at hnum
      simp only [List.map_cons, List.map_nil] at hread hseq hnum
      have hlast := (List.append_inj' hread rfl).2
      have hcolumn := List.singleton_inj.mp (List.append_inj' hseq rfl).2
      have hnumber := List.singleton_inj.mp (List.append_inj' hnum rfl).2
      simp only [List.cons.injEq, and_true] at hlast
      have hhash := (toChainRow_ok hlast).2
      have hbound : r.seq < 2 ^ 63 := by
        simp only [List.length_append, List.length_singleton, maxRows] at hfits
        omega
      rw [hq, List.getLast?_concat]
      simp only [List.map_append, List.map_cons, List.map_nil, tip_concat, ChainRow.block,
        hcolumn, (asU64_asI64 hbound).2, hhash, List.length_append, List.length_singleton]
      congr 1
      omega

/-- The ledger row of an insert. -/
def newChainRow (crypto : Crypto) (key : AuditKey) (env : StoreEnv) (rows : List ChainRow)
    (transaction : NewTransaction) : ChainRow :=
  let content := newContent env (rows.length + 1) transaction
  let prev := tip "" (rows.map ChainRow.block)
  { toChainContent := content
    prevChainHash := prev
    chainHash := key.chainHash crypto content prev }

theorem Represents.insert (h : Represents crypto key db rows)
    {env : StoreEnv} {transaction : NewTransaction} {db' : Db}
    (hins : Insertable db (appendedRow crypto key env db transaction))
    (hrows : db'.transactions = db.transactions ++ [appendedRow crypto key env db transaction]) :
    Represents crypto key db' (rows ++ [newChainRow crypto key env rows transaction]) := by
  have hfits : rows.length < maxRows := h.length_eq ▸ hins.fits
  have hseq := asU64_asI64 (n := rows.length + 1) (by unfold maxRows at hfits; omega)
  have hnew : appendedRow crypto key env db transaction =
      newRow crypto key env (rows.length + 1) (tip "" (rows.map ChainRow.block)) transaction := by
    rw [appendedRow, h.nextLink_eq]
  constructor
  · rw [hrows, List.map_append, List.map_append, h.read_back, hnew]
    simp only [Row.toChainRow, newRow, hseq, newChainRow, newContent, List.map_cons, List.map_nil,
      readField_serializeField]
    rfl
  · rw [hrows, List.map_append, List.map_append, h.seq_column, hnew]
    simp [newRow, hseq.1, newChainRow, newContent]
  · rw [List.map_append, h.numbered, List.length_append, List.length_singleton,
      List.range'_concat]
    simp [newChainRow, newContent, Nat.add_comm]
  · simp only [List.length_append, List.length_singleton]
    omega
  · rw [Accepted.append]
    refine ⟨h.accepted, accepted_cons.mpr ⟨⟨?_, rfl, rfl⟩, accepted_nil _⟩⟩
    exact key.keyId_eq.symm

theorem Represents.setStatus (h : Represents crypto key db rows) (newStatus : JobState)
    (where_ : Row → Bool) :
    Represents crypto key (db.setStatus newStatus where_).2 rows where
  read_back := by
    rw [map_setStatus _ _ _ _ fun _ _ => rfl]
    exact h.read_back
  seq_column := by
    rw [map_setStatus _ _ _ _ fun _ _ => rfl]
    exact h.seq_column
  numbered := h.numbered
  fits := h.fits
  accepted := h.accepted

end Ledger

end Sysknife
