import Sysknife.ActionTraits
import Sysknife.Completion

/-!
# What a credential reaches

Two requests that differ only in a credential are followed side by side: through
the programs of the handlers, and from there into the tables. They are compared up
to the request hash, which covers the credential, and the chain hashes, which
cover the request hash.
-/

namespace Sysknife

open Actions Fallible Interaction

/-! ## Up to hashes -/

def PreviewEnvelope.unhashed (preview : PreviewEnvelope) : PreviewEnvelope :=
  { preview with requestHash := "" }

def NewTransaction.unhashed (transaction : NewTransaction) : NewTransaction :=
  { transaction with requestHash := "" }

def Row.unhashed (row : Row) : Row :=
  { row with requestHash := "", chainHash := "", prevChainHash := "" }

/-- A handler with the request hash blanked in all that it stores and sends. -/
def unhashed {α : Type} : DaemonProg α → DaemonProg α
  | .ret a => .ret a
  | .op (.store (.recordPreviewed transaction preview)) k =>
      .op (.store (.recordPreviewed transaction.unhashed preview.unhashed)) fun answer =>
        unhashed (k answer)
  | .op (.send (.previewResponse requestId preview transactionId)) k =>
      .op (.send (.previewResponse requestId preview.unhashed transactionId)) fun answer =>
        unhashed (k answer)
  | .op o k => .op o fun answer => unhashed (k answer)

/-- The same preview text up to the request hash in it. -/
def PreviewRow.Alike (r r' : PreviewRow) : Prop :=
  r.transactionId = r'.transactionId ∧
    (r.previewJson = r'.previewJson ∨ ∃ preview preview' : PreviewEnvelope,
      r.previewJson = preview.serialize ∧ r'.previewJson = preview'.serialize ∧
        preview.unhashed = preview'.unhashed)

/-- The same tables up to hashes. -/
structure Db.Alike (db db' : Db) : Prop where
  rows : db.transactions.map Row.unhashed = db'.transactions.map Row.unhashed
  previews : List.Forall₂ PreviewRow.Alike db.previews db'.previews

/-! ## Transactions on alike tables -/

/-- Both fail in the same way, or both end in alike states. -/
inductive ResultAlike {α β : Type} (R : α → β → Prop) :
    Except StoreError (α × TxnState) → Except StoreError (β × TxnState) → Prop
  | error (e : StoreError) : ResultAlike R (.error e) (.error e)
  | ok {a : α} {b : β} {s t : TxnState} (hab : R a b) (hfault : s.fault = t.fault)
      (hdb : s.db.Alike t.db) : ResultAlike R (.ok (a, s)) (.ok (b, t))

def Txn.Alike {α β : Type} (R : α → β → Prop) (x : Txn α) (y : Txn β) : Prop :=
  ∀ s t : TxnState, s.fault = t.fault → s.db.Alike t.db → ResultAlike R (x s) (y t)

section Txn
variable {α β γ δ : Type} {R : α → β → Prop} {Q : γ → δ → Prop}

theorem txn_alike_pure {a : α} {b : β} (h : R a b) : Txn.Alike R (pure a) (pure b) :=
  fun _ _ hfault hdb => .ok h hfault hdb

theorem txn_alike_bind {x : Txn α} {y : Txn β} {f : α → Txn γ} {g : β → Txn δ}
    (hxy : Txn.Alike R x y) (hfg : ∀ a b, R a b → Txn.Alike Q (f a) (g b)) :
    Txn.Alike Q (x >>= f) (y >>= g) := by
  intro s t hfault hdb
  show ResultAlike Q (x s >>= fun p => f p.1 p.2) (y t >>= fun p => g p.1 p.2)
  cases hx : x s with
  | error e =>
    have h := hxy s t hfault hdb
    rw [hx] at h
    cases hy : y t with
    | error e' =>
      rw [hy] at h
      cases h
      exact .error e
    | ok q =>
      rw [hy] at h
      cases h
  | ok p =>
    have h := hxy s t hfault hdb
    rw [hx] at h
    cases hy : y t with
    | error e' =>
      rw [hy] at h
      cases h
    | ok q =>
      rw [hy] at h
      cases h with
      | ok hab hfault' hdb' => exact hfg _ _ hab _ _ hfault' hdb'

/-- A statement that treats alike tables alike. -/
theorem txn_alike_sql {f : Db → Except StoreError (α × Db)} {g : Db → Except StoreError (β × Db)}
    (h : ∀ db db', db.Alike db' → (∃ e, f db = .error e ∧ g db' = .error e) ∨
      ∃ a b next next', f db = .ok (a, next) ∧ g db' = .ok (b, next') ∧ R a b ∧
        next.Alike next') : Txn.Alike R (sql f) (sql g) := by
  intro s t hfault hdb
  have hrun : ∀ fault : Option (Nat × String),
      ResultAlike R (sendStatement f s.db fault) (sendStatement g t.db fault) := by
    intro fault
    unfold sendStatement
    rcases h s.db t.db hdb with ⟨e, hf, hg⟩ | ⟨a, b, next, next', hf, hg, hab, hnext⟩
    · rw [hf, hg]
      exact .error e
    · rw [hf, hg]
      exact .ok hab rfl hnext
  unfold sql
  rw [← hfault]
  cases s.fault with
  | none => exact hrun _
  | some fault =>
    obtain ⟨n, detail⟩ := fault
    cases n with
    | zero => exact .error _
    | succ n => exact hrun _

end Txn

section Insert
variable {crypto : Crypto} {key : AuditKey} {env : StoreEnv}

/-- A condition on columns without hashes holds of the same rows. -/
theorem Db.Alike.any_rows {db db' : Db} (h : db.Alike db') {p : Row → Bool}
    (hp : ∀ row, p row.unhashed = p row) : db.transactions.any p = db'.transactions.any p := by
  have hany : ∀ rows : List Row, rows.any p = (rows.map Row.unhashed).any p := by
    intro rows
    rw [List.any_map]
    exact congrArg (rows.any ·) (funext fun row => (hp row).symm)
  rw [hany, hany db'.transactions, h.rows]

theorem Db.Alike.length_rows {db db' : Db} (h : db.Alike db') :
    db.transactions.length = db'.transactions.length := by
  simpa only [List.length_map] using congrArg List.length h.rows

theorem Db.Alike.tip {db db' : Db} (h : db.Alike db') :
    (orderBySeqDesc db.transactions).head?.map Row.seq =
      (orderBySeqDesc db'.transactions).head?.map Row.seq := by
  have hmap : ∀ rows : List Row, (orderBySeqDesc rows).map Row.unhashed =
      orderBySeqDesc (rows.map Row.unhashed) := by
    intro rows
    unfold orderBySeqDesc orderBySeq
    rw [List.map_reverse]
    exact congrArg List.reverse (List.map_insertionSort (fun a b : Row => a.seq ≤ b.seq)
      (fun a b : Row => a.seq ≤ b.seq) Row.unhashed rows fun _ _ _ _ => Iff.rfl)
  have hhead : ∀ rows : List Row, (orderBySeqDesc rows).head?.map Row.seq =
      (orderBySeqDesc (rows.map Row.unhashed)).head?.map Row.seq := by
    intro rows
    rw [← hmap, List.head?_map, Option.map_map]
    rfl
  rw [hhead, hhead db'.transactions, h.rows]

theorem nextSeq_alike :
    Txn.Alike (fun link link' => link.1 = link'.1) nextSeqAndPrevHash nextSeqAndPrevHash := by
  refine txn_alike_sql fun db db' h => Or.inr ?_
  have htip := h.tip
  cases hd : (orderBySeqDesc db.transactions).head? with
  | none =>
    rw [hd] at htip
    have hd' := Option.map_eq_none_iff.mp htip.symm
    rw [hd']
    exact ⟨_, _, _, _, rfl, rfl, rfl, h⟩
  | some row =>
    rw [hd] at htip
    obtain ⟨row', hd', hseq⟩ := Option.map_eq_some_iff.mp htip.symm
    rw [hd']
    exact ⟨_, _, _, _, rfl, rfl, by rw [hseq], h⟩

theorem insertRow_alike {row row' : Row} (hrow : row.unhashed = row'.unhashed) :
    Txn.Alike (fun _ _ => True) (insertRow row) (insertRow row') := by
  have hid : row.unhashed.transactionId = row'.unhashed.transactionId := by rw [hrow]
  have hseq : row.unhashed.seq = row'.unhashed.seq := by rw [hrow]
  change row.transactionId = row'.transactionId at hid
  change row.seq = row'.seq at hseq
  refine txn_alike_sql fun db db' h => ?_
  rw [hid, hseq, h.any_rows (p := fun r => r.transactionId == row'.transactionId) fun _ => rfl,
    h.any_rows (p := fun r => r.seq == row'.seq) fun _ => rfl, h.length_rows]
  split_ifs
  · exact Or.inl ⟨_, rfl, rfl⟩
  · exact Or.inl ⟨_, rfl, rfl⟩
  · exact Or.inl ⟨_, rfl, rfl⟩
  · refine Or.inr ⟨_, _, _, _, rfl, rfl, trivial, ⟨?_, h.previews⟩⟩
    rw [List.map_append, List.map_append, h.rows, List.map_singleton, hrow]
    rfl

theorem insertPreview_alike {transactionId : String} {preview preview' : PreviewEnvelope}
    (hpreview : preview.unhashed = preview'.unhashed) :
    Txn.Alike (fun _ _ => True) (insertPreview transactionId preview)
      (insertPreview transactionId preview') := by
  refine txn_alike_sql fun db db' h => ?_
  have hany : ∀ {rows rows' : List PreviewRow}, List.Forall₂ PreviewRow.Alike rows rows' →
      rows.any (fun r => r.transactionId == transactionId) =
        rows'.any (fun r => r.transactionId == transactionId) := by
    intro rows rows' hall
    induction hall with
    | nil => rfl
    | cons hr _ ih => rw [List.any_cons, List.any_cons, ih, hr.1]
  rw [hany h.previews]
  split_ifs
  · exact Or.inl ⟨_, rfl, rfl⟩
  · refine Or.inr ⟨_, _, _, _, rfl, rfl, trivial, ⟨h.rows, ?_⟩⟩
    exact List.rel_append h.previews (.cons ⟨rfl, Or.inr ⟨_, _, rfl, rfl, hpreview⟩⟩ .nil)

theorem insertTransaction_alike {transaction transaction' : NewTransaction}
    (htransaction : transaction.unhashed = transaction'.unhashed) :
    Txn.Alike (fun record record' => record.transactionId = record'.transactionId)
      (insertTransaction crypto key env transaction)
      (insertTransaction crypto key env transaction') := by
  have hrow : ∀ seq prev prev', (newRow crypto key env seq prev transaction).unhashed =
      (newRow crypto key env seq prev' transaction').unhashed := by
    obtain ⟨_, _, _, _, _, _, _⟩ := transaction
    obtain ⟨_, _, _, _, _, _, _⟩ := transaction'
    cases htransaction
    intro seq prev prev'
    rfl
  refine txn_alike_bind nextSeq_alike fun link link' hlink => ?_
  refine txn_alike_bind (R := fun _ _ => True) ?_ fun _ _ _ => ?_
  · exact txn_alike_sql fun db db' h => Or.inr ⟨_, _, _, _, rfl, rfl, trivial, h⟩
  · refine txn_alike_bind (insertRow_alike ?_) fun _ _ _ => txn_alike_pure rfl
    rw [hlink]
    exact hrow _ _ _

theorem immediate_alike {α β : Type} {R : α → β → Prop} {x : Txn α} {y : Txn β} {db db' : Db}
    (hxy : Txn.Alike R x y) (hdb : db.Alike db') :
    (immediate env x db).2.Alike (immediate env y db').2 := by
  have hquiet : Txn.Alike (fun (_ _ : Unit) => True) (sql fun db => .ok ((), db))
      (sql fun db => .ok ((), db)) :=
    txn_alike_sql fun db db' h => Or.inr ⟨_, _, _, _, rfl, rfl, trivial, h⟩
  have hbracketed := txn_alike_bind hquiet fun _ _ _ => txn_alike_bind hxy fun a b hab =>
    txn_alike_bind hquiet fun _ _ _ => txn_alike_pure hab
  have hrun := hbracketed ⟨env.fault, db⟩ ⟨env.fault, db'⟩ rfl hdb
  unfold immediate
  dsimp only
  generalize (do
    sql fun db => .ok ((), db)
    let a ← x
    sql fun db => .ok ((), db)
    return a : Txn α) ⟨env.fault, db⟩ = left at hrun ⊢
  generalize (do
    sql fun db => .ok ((), db)
    let a ← y
    sql fun db => .ok ((), db)
    return a : Txn β) ⟨env.fault, db'⟩ = right at hrun ⊢
  cases hrun with
  | error e => exact hdb
  | ok _ _ hdb' => exact hdb'

/-- Recording previews that differ in the request hash leaves alike tables alike. -/
theorem insertPreviewed_alike {transaction transaction' : NewTransaction}
    {preview preview' : PreviewEnvelope} {db db' : Db}
    (htransaction : transaction.unhashed = transaction'.unhashed)
    (hpreview : preview.unhashed = preview'.unhashed) (hdb : db.Alike db') :
    (Statement.exec crypto env db (.insertPreviewed key transaction preview)).2.Alike
      (Statement.exec crypto env db' (.insertPreviewed key transaction' preview')).2 := by
  refine immediate_alike (R := fun _ _ => True) ?_ hdb
  refine txn_alike_bind (insertTransaction_alike htransaction) fun record record' hid => ?_
  rw [hid]
  exact txn_alike_bind (insertPreview_alike hpreview) fun _ _ _ => txn_alike_pure trivial

end Insert

/-! ## Two requests -/

/-- The parameter that holds a credential. -/
def credentialParam : ActionName → Option String
  | .proAttach => some "token"
  | .configureWifi => some "password"
  | _ => none

/-- The parameters differ in the value of the credential and nothing else. -/
def DifferInCredential (actionName : String) (params params' : Json) : Prop :=
  ∃ action key before after value value', ActionName.ofText actionName = some action ∧
    credentialParam action = some key ∧ value ≠ value' ∧
    params = .object (before ++ (key, value) :: after) ∧
    params' = .object (before ++ (key, value') :: after)

section Hidden
variable (crypto : Crypto) (config : DaemonConfig) (caller : CallerRole)
  (requestId actionName : String) (params params' : Json)

/-- What a preview of the request records, once it is accepted as `spec`. -/
def recording (key : AuditKey) (spec : ActionSpec) (currentState : Json) (params : Json) :
    Statement :=
  let preview := previewFor crypto caller requestId actionName params currentState
  .insertPreviewed key (previewTransaction requestId (computeRequestHash crypto actionName params)
    actionName spec preview) preview

/-- Nobody can tell the two requests apart, by what a preview records and answers,
by the described command, or by the tables, unless by a hash. -/
structure CredentialHidden : Prop where
  preview : unhashed (handlePreview crypto config caller requestId actionName params) =
    unhashed (handlePreview crypto config caller requestId actionName params')
  describe : handleDescribe actionName params requestId =
    handleDescribe actionName params' requestId
  stored : ∀ spec spec' key env currentState db db', buildActionSpec actionName params = .ok spec →
    buildActionSpec actionName params' = .ok spec' → db.Alike db' →
    ((recording crypto caller requestId actionName key spec currentState params).exec crypto env
      db).2.Alike
    ((recording crypto caller requestId actionName key spec' currentState params').exec crypto env
      db').2

variable {crypto config caller requestId actionName params params'}

/-- The recorded transaction and the preview agree up to the hash. -/
theorem recording_alike (crypto : Crypto) (caller : CallerRole) (requestId : String)
    {spec spec' : ActionSpec}
    (hredacted : redactParams actionName params = redactParams actionName params')
    (hrisk : spec.riskLevel = spec'.riskLevel) (currentState : Json) :
    (previewFor crypto caller requestId actionName params currentState).unhashed =
      (previewFor crypto caller requestId actionName params' currentState).unhashed ∧
    (previewTransaction requestId (computeRequestHash crypto actionName params) actionName spec
        (previewFor crypto caller requestId actionName params currentState)).unhashed =
      (previewTransaction requestId (computeRequestHash crypto actionName params') actionName spec'
        (previewFor crypto caller requestId actionName params' currentState)).unhashed := by
  unfold previewFor previewAction previewTransaction
  rw [hredacted, hrisk]
  exact ⟨rfl, rfl⟩

theorem sendPreview_alike {preview preview' : PreviewEnvelope}
    (hpreview : preview.unhashed = preview'.unhashed) (transactionId : String) :
    unhashed (sendResponse (.previewResponse requestId preview transactionId)) =
      unhashed (sendResponse (.previewResponse requestId preview' transactionId)) := by
  unfold sendResponse
  rw [daemonOp_bind, daemonOp_bind, unhashed, unhashed, hpreview]
  refine congrArg (Prog.op _) (funext fun answer => ?_)
  cases answer <;> rfl

theorem recordPreview_alike {spec spec' : ActionSpec}
    (hredacted : redactParams actionName params = redactParams actionName params')
    (hrisk : spec.riskLevel = spec'.riskLevel) (currentState : Json) :
    unhashed (recordPreview crypto config caller requestId actionName params spec currentState) =
      unhashed (recordPreview crypto config caller requestId actionName params' spec'
        currentState) := by
  obtain ⟨hpreview, htransaction⟩ := recording_alike crypto caller requestId hredacted hrisk
    currentState
  unfold recordPreview
  generalize previewFor crypto caller requestId actionName params currentState = preview at *
  generalize previewFor crypto caller requestId actionName params' currentState = preview' at *
  dsimp only
  rw [daemonOp_bind, daemonOp_bind, unhashed, unhashed, htransaction, hpreview]
  refine congrArg (Prog.op _) (funext fun answer => ?_)
  cases answer with
  | error e => rfl
  | ok recorded =>
    dsimp only
    unfold forwardEvent
    cases config.forwarder with
    | false => exact sendPreview_alike hpreview _
    | true => exact congrArg (Prog.op _) (funext fun _ => sendPreview_alike hpreview _)

/-- Parameters that are redacted alike, and accepted with the same risk and the
same described command, are not told apart. -/
theorem credentialHidden_of_redacted {spec spec' : ActionSpec}
    (hspec : buildActionSpec actionName params = .ok spec)
    (hspec' : buildActionSpec actionName params' = .ok spec')
    (hredacted : redactParams actionName params = redactParams actionName params')
    (htraits : spec.traits = spec'.traits)
    (hcommand : describeCommand actionName params spec.mechanism =
      describeCommand actionName params' spec'.mechanism) :
    CredentialHidden crypto config caller requestId actionName params params' := by
  have hrisk : spec.riskLevel = spec'.riskLevel := congrArg Traits.riskLevel htraits
  have hreboot : spec.rebootRequired = spec'.rebootRequired :=
    congrArg Traits.rebootRequired htraits
  refine ⟨?_, ?_, ?_⟩
  · unfold handlePreview
    rw [hspec, hspec']
    dsimp only
    by_cases hallowed : (!config.policy.actionAllowed caller actionName) = true
    · rw [if_pos hallowed, if_pos hallowed]
    · rw [if_neg hallowed, if_neg hallowed]
      refine congrArg (Prog.op DaemonOp.collectState) (funext fun collected => ?_)
      cases collected with
      | joinFailed message => exact recordPreview_alike hredacted hrisk .null
      | failed message => exact recordPreview_alike hredacted hrisk .null
      | state value => exact recordPreview_alike hredacted hrisk value
  · unfold handleDescribe
    rw [hspec, hspec']
    dsimp only
    rw [hcommand, hrisk, hreboot]
  · intro spec₁ spec₂ key env currentState db db' h₁ h₂ hdb
    cases hspec.symm.trans h₁
    cases hspec'.symm.trans h₂
    obtain ⟨hpreview, htransaction⟩ :=
      recording_alike crypto caller requestId hredacted hrisk currentState
    exact insertPreviewed_alike htransaction hpreview hdb

/-! ## The two actions -/

/-- An accepted token is a text, and the last word of the command. -/
theorem proAttach_accepted {spec : ActionSpec}
    (h : buildActionSpec "ProAttach" params = .ok spec) :
    ∃ token, (params.get "token").bind Json.asStr = some token ∧ spec = proAttach token := by
  have htoken : Ensures (validStr validatedSafeArg params "token") fun token =>
      (params.get "token").bind Json.asStr = some token := by
    refine ensures_bind fun raw hraw token hvalid => ?_
    obtain ⟨-, rfl⟩ := validated_ok_iff.mp hvalid
    unfold requireStr at hraw
    cases hget : params.get "token" with
    | none =>
      rw [hget] at hraw
      cases hraw
    | some value =>
      rw [hget] at hraw
      cases hstr : value.asStr with
      | none =>
        dsimp only at hraw
        rw [hstr] at hraw
        cases hraw
      | some s =>
        dsimp only at hraw
        rw [hstr] at hraw
        rw [Option.bind_some, hstr]
        exact congrArg some (Except.ok.inj hraw)
  rw [show "ProAttach" = ActionName.proAttach.text from rfl, buildActionSpec_text] at h
  have hspec : Ensures (specFor .proAttach params) fun spec =>
      ∃ token, (params.get "token").bind Json.asStr = some token ∧ spec = proAttach token :=
    ensures_bind fun token h => ensures_ok ⟨token, htoken.apply h, rfl⟩
  exact hspec.apply h

theorem proAttach_hidden {spec spec' : ActionSpec}
    (hdiffer : DifferInCredential "ProAttach" params params')
    (hspec : buildActionSpec "ProAttach" params = .ok spec)
    (hspec' : buildActionSpec "ProAttach" params' = .ok spec') :
    CredentialHidden crypto config caller requestId "ProAttach" params params' := by
  obtain ⟨token, htoken, rfl⟩ := proAttach_accepted hspec
  obtain ⟨token', htoken', rfl⟩ := proAttach_accepted hspec'
  have hcommand : ∀ {params : Json} {token : String},
      (params.get "token").bind Json.asStr = some token →
      describeCommand "ProAttach" params (proAttach token).mechanism =
        "sudo pro attach <REDACTED>" := by
    intro params token h
    have hargs : redactArgv "ProAttach" params ["pro", "attach", token] =
        ["pro", "attach", "<REDACTED>"] := by
      unfold redactArgv
      rw [show credentialKeysFor "ProAttach" = ["token"] from rfl]
      simp [h, credentialIsLast]
    show (let displayArgs := redactArgv "ProAttach" params ["pro", "attach", token]
      if displayArgs.isEmpty then "sudo" else "sudo " ++ " ".intercalate displayArgs) = _
    rw [hargs]
    decide
  refine credentialHidden_of_redacted hspec hspec' ?_ rfl
    ((hcommand htoken).trans (hcommand htoken').symm)
  obtain ⟨action, key, before, after, value, value', haction, hkey, -, rfl, rfl⟩ := hdiffer
  obtain rfl : ActionName.proAttach = action :=
    Option.some.inj ((ActionName.ofText_text .proAttach).symm.trans haction)
  obtain rfl : "token" = key := Option.some.inj hkey
  unfold redactParams
  rw [show credentialKeysFor "ProAttach" = ["token"] from rfl]
  simp

/-- Nothing of a wifi password is redacted. -/
theorem configureWifi_not_hidden {spec spec' : ActionSpec}
    (hdiffer : DifferInCredential "ConfigureWifi" params params')
    (hspec : buildActionSpec "ConfigureWifi" params = .ok spec)
    (hspec' : buildActionSpec "ConfigureWifi" params' = .ok spec')
    (hallowed : config.policy.actionAllowed caller "ConfigureWifi" = true) :
    ¬ CredentialHidden crypto config caller requestId "ConfigureWifi" params params' := by
  intro h
  have hpreview := h.preview
  unfold handlePreview at hpreview
  rw [hspec, hspec'] at hpreview
  dsimp only at hpreview
  rw [hallowed, if_neg (by simp), if_neg (by simp)] at hpreview
  change Prog.op DaemonOp.collectState _ = Prog.op DaemonOp.collectState _ at hpreview
  injection hpreview with _ hcontinue
  have hrecord : unhashed (recordPreview crypto config caller requestId "ConfigureWifi" params spec
        .null) =
      unhashed (recordPreview crypto config caller requestId "ConfigureWifi" params' spec' .null) :=
    congrFun hcontinue (.state .null)
  unfold recordPreview at hrecord
  rw [daemonOp_bind, daemonOp_bind, unhashed, unhashed] at hrecord
  injection hrecord with hop _
  injection hop with hcall
  injection hcall with _ henvelope
  have hchange := congrArg PreviewEnvelope.proposedChange henvelope
  change Json.object _ = Json.object _ at hchange
  obtain ⟨action, key, before, after, value, value', -, -, hne, rfl, rfl⟩ := hdiffer
  simp [redactParams, credentialKeysFor] at hchange
  exact hne hchange

/-- A credential stays hidden exactly when it is not the password of a wifi. -/
theorem credentialHidden_iff (crypto : Crypto) (config : DaemonConfig) (caller : CallerRole)
    (requestId actionName : String) (params params' : Json) (spec spec' : ActionSpec)
    (hdiffer : DifferInCredential actionName params params')
    (hspec : buildActionSpec actionName params = .ok spec)
    (hspec' : buildActionSpec actionName params' = .ok spec')
    (hallowed : config.policy.actionAllowed caller actionName = true) :
    CredentialHidden crypto config caller requestId actionName params params' ↔
      actionName ≠ "ConfigureWifi" := by
  obtain ⟨action, key, before, after, value, value', haction, hkey, hrest⟩ := id hdiffer
  obtain rfl := ActionName.ofText_eq_some_iff.mp haction
  have htwo : action = .proAttach ∨ action = .configureWifi := by
    cases action <;> first | exact Or.inl rfl | exact Or.inr rfl | cases hkey
  rcases htwo with rfl | rfl
  · exact iff_of_true (proAttach_hidden hdiffer hspec hspec') (by decide)
  · exact iff_of_false (configureWifi_not_hidden hdiffer hspec hspec' hallowed) (by decide)

/-- Two tokens. -/
theorem credentialHidden_iff_tokens :
    CredentialHidden updateCrypto plainConfig .admin "req-1" "ProAttach"
        (.object [("token", .string "C1aB2")]) (.object [("token", .string "C9xY8")]) ↔
      "ProAttach" ≠ "ConfigureWifi" :=
  credentialHidden_iff updateCrypto plainConfig .admin "req-1" "ProAttach" _ _ (proAttach "C1aB2")
    (proAttach "C9xY8")
    ⟨.proAttach, "token", [], [], .string "C1aB2", .string "C9xY8",
      ActionName.ofText_text .proAttach, rfl, by simp, rfl, rfl⟩
    ((buildActionSpec_text .proAttach _).trans (by decide +kernel))
    ((buildActionSpec_text .proAttach _).trans (by decide +kernel)) (by decide +kernel)

/-- Two passwords of one wifi. -/
theorem credentialHidden_passwords :
    ¬ CredentialHidden updateCrypto plainConfig .admin "req-1" "ConfigureWifi"
        (.object [("password", .string "hunter2"), ("ssid", .string "CafeHotspot")])
        (.object [("password", .string "hunter3"), ("ssid", .string "CafeHotspot")]) := by
  have hspec : buildActionSpec "ConfigureWifi"
      (.object [("password", .string "hunter2"), ("ssid", .string "CafeHotspot")]) =
        .ok (configureWifi "CafeHotspot" (some "hunter2")) :=
    (buildActionSpec_text .configureWifi _).trans (by decide +kernel)
  have hspec' : buildActionSpec "ConfigureWifi"
      (.object [("password", .string "hunter3"), ("ssid", .string "CafeHotspot")]) =
        .ok (configureWifi "CafeHotspot" (some "hunter3")) :=
    (buildActionSpec_text .configureWifi _).trans (by decide +kernel)
  refine configureWifi_not_hidden ?_ hspec hspec' (by decide +kernel)
  exact ⟨.configureWifi, "password", [], [("ssid", .string "CafeHotspot")], .string "hunter2",
    .string "hunter3", ActionName.ofText_text .configureWifi, rfl, by simp, rfl, rfl⟩

end Hidden

end Sysknife
