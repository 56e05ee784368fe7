import Sysknife.Completion
import Sysknife.Lib.Utf8
import Sysknife.ServerRefinement

/-!
# What the client is told of an execution

The command line client reads the frames of its connection in whatever pieces they
come. What it reports of an execution is what the daemon has done: a result is of
the row the request has claimed and has the status the store was given, and after an
error reply nothing is run.
-/

namespace Sysknife

open Framing Interaction

/-! ## What a handler may say -/

/-- A reply that refuses the request. -/
def DaemonOp.refuses : DaemonOp → Bool
  | .send (.errorResponse ..) => true
  | _ => false

/-- The row whose final status the operation has stored, or failed to. -/
def DaemonOp.settles : (o : DaemonOp) → o.Answer → Option (String × JobState × Bool)
  | .store (.updateStatus transactionId newStatus), answer =>
      some (transactionId, newStatus, answer.isOk)
  | _, _ => none

/-- The result is the one of a row these events have claimed and settled. -/
structure JobResult.Reports (result : JobResult) (status : JobState) (evs : List DaemonEvent) :
    Prop where
  status_eq : result.status = UnitEnum.variantName status
  needsReboot_eq : result.needsReboot = (status == .needsReboot)
  claimed : ∃ ev ∈ evs, ev.op.claims ev.resp = some result.transactionId
  settled : ∃ ev ∈ evs,
    ev.op.settles ev.resp = some (result.transactionId, status, result.warnings.isEmpty)

/-- What an audit event says has happened: the row was recorded, or its final status stored. -/
def Reported (evs : List DaemonEvent) (transactionId : String) : Option JobState → Prop
  | none => ∃ ev ∈ evs, ∃ requestHash,
      ev.op.recorded ev.resp = some (transactionId, requestHash)
  | some status => ∃ ev ∈ evs, ev.op.settles ev.resp = some (transactionId, status, true)

def DaemonOp.Truthful (evs : List DaemonEvent) : DaemonOp → Prop
  | .send (.jobCompleted _ result) => ∃ status, result.Reports status evs
  | .send (.errorResponse ..) => ∀ ev ∈ evs, ev.op.runsAction = false
  | .spawn .. => ∀ ev ∈ evs, ev.op.refuses = false
  | .executeSpec _ => ∀ ev ∈ evs, ev.op.refuses = false
  | .forward transactionId _ finalStatus => Reported evs transactionId finalStatus
  | _ => True

abbrev truthMonitor : Monitor (List DaemonEvent) DaemonOp DaemonOp.Answer :=
  .history DaemonOp.Truthful

/-- Nothing has been run or refused. -/
def Untouched (evs : List DaemonEvent) : Prop :=
  ∀ ev ∈ evs, ev.op.runsAction = false ∧ ev.op.refuses = false

/-- The request has claimed its row, and nothing has been refused. -/
structure Running (transactionId : String) (evs : List DaemonEvent) : Prop where
  claimed : ∃ ev ∈ evs, ev.op.claims ev.resp = some transactionId
  unrefused : ∀ ev ∈ evs, ev.op.refuses = false

section Facts
variable {evs : List DaemonEvent} {o : DaemonOp} {answer : o.Answer} {transactionId : String}

theorem untouched_nil : Untouched [] := fun _ h => by cases h

theorem Untouched.concat (h : Untouched evs) (hruns : o.runsAction = false) (hrefuses : o.refuses = false) :
    Untouched (evs ++ [⟨o, answer⟩]) := by
  intro ev hev
  rcases List.mem_append.mp hev with hev | hev
  · exact h ev hev
  · obtain rfl := List.mem_singleton.mp hev
    exact ⟨hruns, hrefuses⟩

theorem Untouched.claim {answer : Except StoreError Bool} (h : Untouched evs)
    (hanswer : answer = .ok true) :
    Running transactionId (evs ++ [⟨.store (.claimForExecution transactionId), answer⟩]) := by
  subst hanswer
  refine ⟨⟨_, List.mem_append_right _ List.mem_cons_self, rfl⟩, ?_⟩
  intro ev hev
  exact ((h.concat rfl rfl) ev hev).2

theorem Running.concat (h : Running transactionId evs) (hrefuses : o.refuses = false) :
    Running transactionId (evs ++ [⟨o, answer⟩]) := by
  obtain ⟨ev, hev, hclaims⟩ := h.claimed
  refine ⟨⟨ev, List.mem_append_left _ hev, hclaims⟩, ?_⟩
  intro ev' hev'
  rcases List.mem_append.mp hev' with hev' | hev'
  · exact h.unrefused ev' hev'
  · obtain rfl := List.mem_singleton.mp hev'
    exact hrefuses

end Facts

section Handlers
variable {evs : List DaemonEvent} {transactionId : String}
  {post : List DaemonEvent → Except HandlerError Unit → Prop}

theorem sendResponse_truthful {response : DaemonResponse}
    (hsend : (DaemonOp.send response).Truthful evs)
    (hpost : ∀ answer result, post (evs ++ [⟨.send response, answer⟩]) result) :
    truthMonitor.Safe post evs (sendResponse response) := by
  refine ⟨hsend, fun answer => ?_⟩
  cases answer <;> exact hpost _ _

theorem sendError_truthful (hruns : ∀ ev ∈ evs, ev.op.runsAction = false)
    (requestId category message : String) :
    truthMonitor.Safe (fun _ _ => True) evs (sendError requestId category message) :=
  sendResponse_truthful hruns fun _ _ => trivial

/-- A reply that is neither a result nor an error says nothing of an execution. -/
theorem sendOther_truthful {response : DaemonResponse}
    (hother : ∀ evs, (DaemonOp.send response).Truthful evs) :
    truthMonitor.Safe (fun _ _ => True) evs (sendResponse response) :=
  sendResponse_truthful (hother evs) fun _ _ => trivial

theorem sendProgress_truthful (jobId line : String) (h : Running transactionId evs) :
    truthMonitor.Safe (fun evs _ => Running transactionId evs) evs (sendProgress jobId line) := by
  have hsent : truthMonitor.Safe (fun evs _ => Running transactionId evs) evs
      (sendResponse (.jobProgress jobId line)) :=
    sendResponse_truthful trivial fun answer _ => h.concat rfl
  exact hsent.bind fun _ _ hrunning => hrunning

theorem forwardEvent_truthful {P : List DaemonEvent → Prop} (config : DaemonConfig)
    (caller : CallerRole) (id : String) (finalStatus : Option JobState)
    (hreported : Reported evs id finalStatus) (h : P evs)
    (hconcat : ∀ answer, P (evs ++ [⟨.forward id caller finalStatus, answer⟩])) :
    truthMonitor.Safe (fun evs _ => P evs) evs (forwardEvent config caller id finalStatus) := by
  unfold forwardEvent
  split
  · exact ⟨hreported, fun answer => hconcat answer⟩
  · exact h

theorem sendLines_truthful (jobId : String) (lines : List String)
    (h : Running transactionId evs) :
    truthMonitor.Safe (fun evs _ => Running transactionId evs) evs (sendLines jobId lines) := by
  induction lines generalizing evs with
  | nil => exact h
  | cons line rest ih =>
    unfold sendLines
    split
    · exact (sendProgress_truthful jobId line h).bind fun _ _ hrunning => ih hrunning
    · exact ih h

theorem runSpec_truthful (jobId : String) (spec : ActionSpec) (h : Running transactionId evs) :
    truthMonitor.Safe (fun evs _ => Running transactionId evs) evs (runSpec jobId spec) := by
  unfold runSpec
  split
  next program args hmech =>
    refine ⟨h.unrefused, fun answer => ?_⟩
    cases answer with
    | error e => exact h.concat rfl
    | ok child =>
      refine (sendLines_truthful jobId child.lines (h.concat rfl)).bind fun evs _ hrunning => ?_
      split <;> exact hrunning
  · exact ⟨h.unrefused, fun answer => h.concat rfl⟩

theorem attemptRollbackIfNeeded_truthful (jobId actionName : String) (spec : ActionSpec)
    (status : JobState) (summary : String) (h : Running transactionId evs) :
    truthMonitor.Safe (fun evs _ => Running transactionId evs) evs
      (attemptRollbackIfNeeded jobId actionName spec status summary) := by
  unfold attemptRollbackIfNeeded
  split
  · exact h
  split
  · exact h
  · refine (sendProgress_truthful _ _ h).bind fun evs _ hrunning => ?_
    refine ⟨trivial, fun result => ?_⟩
    dsimp only [Prog.bind]
    split
    · exact (sendProgress_truthful _ _ (hrunning.concat rfl)).bind fun _ _ hdone => hdone
    · exact (sendProgress_truthful _ _ (hrunning.concat rfl)).bind fun _ _ hdone => hdone

theorem jobStateStr_eq (status : JobState) : jobStateStr status = UnitEnum.variantName status := by
  cases status <;> rfl

theorem settle_truthful (config : DaemonConfig) (caller : CallerRole) (jobId : String)
    (finalStatus : JobState) (summary : String) (rollbackRef : Option String)
    (h : Running transactionId evs) :
    truthMonitor.Safe (fun _ _ => True) evs
      (settle config caller transactionId jobId finalStatus summary rollbackRef) := by
  have hreport : ∀ {evs : List DaemonEvent} (warnings : List String),
      Running transactionId evs →
      (∃ ev ∈ evs, ev.op.settles ev.resp = some (transactionId, finalStatus, warnings.isEmpty)) →
      truthMonitor.Safe (fun _ _ => True) evs (sendResponse (.jobCompleted jobId {
        status := jobStateStr finalStatus
        summary
        warnings
        jobId
        needsReboot := finalStatus == .needsReboot
        rollbackRef
        transactionId })) := by
    intro evs warnings hrunning hsettled
    exact sendResponse_truthful
      ⟨finalStatus, jobStateStr_eq finalStatus, rfl, hrunning.claimed, hsettled⟩ fun _ _ => trivial
  unfold settle
  refine ⟨trivial, fun answer => ?_⟩
  cases answer with
  | error e =>
    exact hreport _ (h.concat rfl) ⟨_, List.mem_append_right _ List.mem_cons_self, rfl⟩
  | ok u =>
    have hafter : Running transactionId
        (evs ++ [⟨.store (.updateStatus transactionId finalStatus), .ok u⟩]) := h.concat rfl
    have hsettled : ∃ ev ∈ evs ++ [(⟨.store (.updateStatus transactionId finalStatus), .ok u⟩ :
        DaemonEvent)], ev.op.settles ev.resp = some (transactionId, finalStatus, true) :=
      ⟨_, List.mem_append_right _ List.mem_cons_self, rfl⟩
    refine (forwardEvent_truthful (P := fun evs => Running transactionId evs ∧
      ∃ ev ∈ evs, ev.op.settles ev.resp = some (transactionId, finalStatus, true))
      config caller transactionId (some finalStatus) hsettled ⟨hafter, hsettled⟩ ?_).bind ?_
    · intro answer
      obtain ⟨ev, hev, hsettles⟩ := hsettled
      exact ⟨hafter.concat rfl, ev, List.mem_append_left _ hev, hsettles⟩
    · intro evs _ hforwarded
      exact hreport [] hforwarded.1 hforwarded.2

theorem runAnnounced_truthful (config : DaemonConfig) (caller : CallerRole) (actionName : String)
    (spec : ActionSpec) (jobId : String) (h : Running transactionId evs) :
    truthMonitor.Safe (fun _ _ => True) evs
      (runAnnounced config caller actionName spec transactionId jobId) := by
  unfold runAnnounced
  refine (sendProgress_truthful _ _ h).bind fun evs _ h => ?_
  refine (sendProgress_truthful _ _ h).bind fun evs _ h => ?_
  refine (runSpec_truthful jobId spec h).bind fun evs output h => ?_
  refine (sendProgress_truthful _ _ h).bind fun evs _ h => ?_
  generalize initialOutcome actionName spec output = initial
  obtain ⟨initialStatus, initialSummary⟩ := initial
  refine (attemptRollbackIfNeeded_truthful jobId actionName spec initialStatus initialSummary
    h).bind fun evs outcome h => ?_
  exact settle_truthful config caller jobId _ _ _ h

theorem claimAndExecute_truthful (config : DaemonConfig) (caller : CallerRole)
    (requestId actionName : String) (spec : ActionSpec) (storedHash : String) :
    truthMonitor.Safe (fun _ _ => True) []
      (claimAndExecute config caller requestId actionName spec storedHash) := by
  unfold claimAndExecute
  refine ⟨trivial, fun found => ?_⟩
  have hfound : Untouched ([] ++ [⟨.store (.findByRequestHash storedHash), found⟩]) :=
    untouched_nil.concat rfl rfl
  have hidle := fun ev hev => (hfound ev hev).1
  match found with
  | .error e => exact sendError_truthful hidle _ _ _
  | .ok none => exact sendError_truthful hidle _ _ _
  | .ok (some tx) =>
    refine ⟨trivial, fun claimed => ?_⟩
    have hclaim : Untouched ([⟨.store (.findByRequestHash storedHash), .ok (some tx)⟩] ++
        [⟨.store (.claimForExecution tx.transactionId), claimed⟩]) := hfound.concat rfl rfl
    have hidle := fun ev hev => (hclaim ev hev).1
    match claimed with
    | .error e => exact sendError_truthful hidle _ _ _
    | .ok false => exact sendError_truthful hidle _ _ _
    | .ok true =>
      refine ⟨trivial, fun jobId => ⟨trivial, fun announced => ?_⟩⟩
      have hclaimed : Running tx.transactionId
          ([⟨.store (.findByRequestHash storedHash), .ok (some tx)⟩] ++
            [⟨.store (.claimForExecution tx.transactionId), .ok true⟩]) := hfound.claim rfl
      have hnamed : Running tx.transactionId (_ ++ [⟨.newUuid, jobId⟩]) := hclaimed.concat rfl
      have hrunning : Running tx.transactionId
          (_ ++ [⟨.send (.jobStarted requestId jobId tx.transactionId), announced⟩]) :=
        hnamed.concat rfl
      cases announced with
      | error e => trivial
      | ok u => exact runAnnounced_truthful config caller actionName spec jobId hrunning

theorem handleExecute_truthful (crypto : Crypto) (config : DaemonConfig) (caller : CallerRole)
    (requestId actionName : String) (params : Json) (approvalHash : String) :
    truthMonitor.Safe (fun _ _ => True) []
      (handleExecute crypto config caller requestId actionName params approvalHash) := by
  have hidle : ∀ ev ∈ ([] : List DaemonEvent), ev.op.runsAction = false := fun ev hev =>
    (untouched_nil ev hev).1
  unfold handleExecute
  split
  · exact sendError_truthful hidle _ _ _
  split
  · exact sendError_truthful hidle _ _ _
  dsimp only
  split
  · exact sendError_truthful hidle _ _ _
  · exact claimAndExecute_truthful config caller requestId actionName _ _

/-! ## Requests that execute nothing on the execute path -/

theorem handleQueryState_truthful (requestId : String) :
    truthMonitor.Safe (fun _ _ => True) [] (handleQueryState requestId) := by
  refine ⟨trivial, fun answer => ?_⟩
  have huntouched : Untouched ([] ++ [⟨.collectState, answer⟩]) := untouched_nil.concat rfl rfl
  cases answer with
  | joinFailed e => trivial
  | failed e => exact sendError_truthful (fun ev hev => (huntouched ev hev).1) _ _ _
  | state value => exact sendOther_truthful fun _ => trivial

theorem handleListJobHistory_truthful (requestId actionName : String) (params : Json) :
    truthMonitor.Safe (fun _ _ => True) []
      (handleListJobHistory requestId actionName params) := by
  have hidle : ∀ ev ∈ ([] : List DaemonEvent), ev.op.runsAction = false := fun ev hev =>
    (untouched_nil ev hev).1
  unfold handleListJobHistory
  split
  · exact sendError_truthful hidle _ _ _
  dsimp only
  split
  · exact sendError_truthful hidle _ _ _
  · refine ⟨trivial, fun answer => ?_⟩
    cases answer with
    | error e =>
      refine sendError_truthful ?_ _ _ _
      intro ev hev
      obtain rfl := List.mem_singleton.mp hev
      rfl
    | ok records => exact sendOther_truthful fun _ => trivial

theorem handleQueryAction_truthful (config : DaemonConfig) (actionName : String) (params : Json)
    (requestId : String) :
    truthMonitor.Safe (fun _ _ => True) []
      (handleQueryAction config actionName params requestId) := by
  have hidle : ∀ ev ∈ ([] : List DaemonEvent), ev.op.runsAction = false := fun ev hev =>
    (untouched_nil ev hev).1
  unfold handleQueryAction
  split
  · exact sendError_truthful hidle _ _ _
  split
  · exact sendError_truthful hidle _ _ _
  split
  · exact handleListJobHistory_truthful requestId actionName params
  split
  · exact sendError_truthful hidle _ _ _
  next spec hspec =>
    refine ⟨trivial, fun answer => ?_⟩
    have hran : ∀ ev ∈ [(⟨.execute spec, answer⟩ : DaemonEvent)], ev.op.runsAction = false := by
      intro ev hev
      obtain rfl := List.mem_singleton.mp hev
      rfl
    cases answer with
    | error e => exact sendError_truthful hran _ _ _
    | ok output =>
      show truthMonitor.Safe (fun _ _ => True) _ (replyQueryAction requestId actionName output)
      unfold replyQueryAction
      dsimp only
      split
      · exact sendError_truthful hran _ _ _
      · exact sendOther_truthful fun _ => trivial

theorem handleDescribe_truthful (actionName : String) (params : Json) (requestId : String) :
    truthMonitor.Safe (fun _ _ => True) [] (handleDescribe actionName params requestId) := by
  unfold handleDescribe
  split
  · exact sendOther_truthful fun _ => trivial
  split
  · exact sendError_truthful (fun ev hev => (untouched_nil ev hev).1) _ _ _
  · exact sendOther_truthful fun _ => trivial

theorem recordPreview_truthful (crypto : Crypto) (config : DaemonConfig) (caller : CallerRole)
    (requestId actionName : String) (params : Json) (spec : ActionSpec) (currentState : Json)
    (h : Untouched evs) :
    truthMonitor.Safe (fun _ _ => True) evs
      (recordPreview crypto config caller requestId actionName params spec currentState) := by
  refine ⟨trivial, fun answer => ?_⟩
  cases answer with
  | error e =>
    refine sendError_truthful ?_ _ _ _
    intro ev hev
    rcases List.mem_append.mp hev with hev | hev
    · exact (h ev hev).1
    · obtain rfl := List.mem_singleton.mp hev
      rfl
  | ok recorded =>
    have hreported : Reported (evs ++ [⟨.store (.recordPreviewed _ _), .ok recorded⟩])
        recorded.transaction.transactionId none :=
      ⟨_, List.mem_append_right _ List.mem_cons_self, _, rfl⟩
    refine (forwardEvent_truthful (P := fun _ => True) config caller
      recorded.transaction.transactionId none hreported trivial fun _ => trivial).bind
        fun _ _ _ => ?_
    exact sendOther_truthful fun _ => trivial

theorem handlePreview_truthful (crypto : Crypto) (config : DaemonConfig) (caller : CallerRole)
    (requestId actionName : String) (params : Json) :
    truthMonitor.Safe (fun _ _ => True) []
      (handlePreview crypto config caller requestId actionName params) := by
  have hidle : ∀ ev ∈ ([] : List DaemonEvent), ev.op.runsAction = false := fun ev hev =>
    (untouched_nil ev hev).1
  have hstate : truthMonitor.Safe (fun evs _ => Untouched evs) [] previewState := by
    refine ⟨trivial, fun answer => ?_⟩
    have huntouched : Untouched ([] ++ [⟨.collectState, answer⟩]) := untouched_nil.concat rfl rfl
    cases answer <;> exact huntouched
  unfold handlePreview
  split
  · exact sendError_truthful hidle _ _ _
  split
  · exact sendError_truthful hidle _ _ _
  · exact hstate.bind fun evs currentState huntouched =>
      recordPreview_truthful crypto config caller requestId actionName params _ currentState huntouched

theorem daemonTask_truthful (crypto : Crypto) (config : DaemonConfig) (role : Nat → CallerRole)
    (task : DaemonTask) :
    truthMonitor.Safe (fun _ _ => True) [] ((daemonSystem crypto config role).body task) := by
  have hidle : ∀ ev ∈ ([] : List DaemonEvent), ev.op.runsAction = false := fun ev hev =>
    (untouched_nil ev hev).1
  cases task with
  | cleanup => exact ⟨trivial, fun _ => trivial⟩
  | request connection request =>
    cases request with
    | queryState requestId => exact handleQueryState_truthful requestId
    | preview requestId actionName params =>
      exact handlePreview_truthful crypto config _ requestId actionName params
    | execute requestId actionName params approvalHash =>
      exact handleExecute_truthful crypto config _ requestId actionName params approvalHash
    | queryAction requestId actionName params =>
      exact handleQueryAction_truthful config actionName params requestId
    | describe requestId actionName params =>
      exact handleDescribe_truthful actionName params requestId
    | cancel jobId => exact sendError_truthful hidle _ _ _
    | unknown detail => exact sendError_truthful hidle _ _ _

end Handlers

/-! ## What is on the wire -/

/-- The response of an entry, when all of it went out. -/
def sentResponse (e : DaemonEntry) : Option DaemonResponse :=
  match e.event with
  | ⟨.send response, .ok ()⟩ => some response
  | _ => none

/-- A write failed, with part of a frame out. -/
def brokeOff (e : DaemonEntry) : Bool :=
  match e.event with
  | ⟨.send _, .error (.io _)⟩ => true
  | _ => false

namespace Server

/-- The entries of the requests of a connection. -/
def entriesOf (S : Server) (c : Nat) : List DaemonEntry :=
  S.log.filter fun e => S.requests[e.thread]?.map Prod.fst == some c

/-- The responses that went out on a connection. -/
def sentOn (S : Server) (c : Nat) : List DaemonResponse := (S.entriesOf c).filterMap sentResponse

/-- No write on the connection has failed half way. -/
def Unbroken (S : Server) (c : Nat) : Prop := ∀ e ∈ S.entriesOf c, brokeOff e = false

end Server

def wireOf (responses : List DaemonResponse) : List UInt8 :=
  responses.flatMap fun response => u32Le.frame response.encode

/-- What the connection has written are the frames of the responses. -/
structure WrittenAs (responses : List DaemonResponse) (conn : Connection) : Prop where
  written : conn.written = wireOf responses
  fits : ∀ response ∈ responses, response.encode.length ≤ maxMessageBytes

section Wire
variable {crypto : Crypto} {config : DaemonConfig} {serde : Serde} {transport : Transport}

theorem sendResult_cases (response : DaemonResponse) (write : Except (Nat × String) Unit) :
    (response.encode.length ≤ maxMessageBytes ∧
      sendResult response write = (.ok (), u32Le.frame response.encode)) ∨
    (∃ size, sendResult response write = (.error (.messageTooLarge size), [])) ∨
    ∃ message bytes, sendResult response write = (.error (.io message), bytes) := by
  unfold sendResult
  cases hsend : FramedStream.send response.encode with
  | error e =>
    unfold FramedStream.send writeFrame at hsend
    split at hsend
    · cases hsend
      exact Or.inr (Or.inl ⟨_, rfl⟩)
    · cases hsend
  | ok bytes =>
    unfold FramedStream.send writeFrame at hsend
    split at hsend
    · cases hsend
    · rename_i hlimit
      cases hsend
      cases write with
      | ok u => exact Or.inl ⟨by omega, rfl⟩
      | error failure => exact Or.inr (Or.inr ⟨_, _, rfl⟩)

/-- What an operation writes, unless its write breaks off. -/
theorem bytes_eq (db : Db) (i : Nat) (world : TaskTurn) (o : DaemonOp) :
    let e : DaemonEntry := ⟨i, world.outside, o, (o.exec crypto config.audit world.outside db).1⟩
    brokeOff e = false →
      world.bytes o = wireOf (sentResponse e).toList ∧
        ∀ response ∈ (sentResponse e).toList, response.encode.length ≤ maxMessageBytes := by
  cases o with
  | send response =>
    show brokeOff ⟨i, world.outside, .send response, (sendResult response world.write).1⟩ = false →
      (sendResult response world.write).2 = wireOf (sentResponse
        ⟨i, world.outside, .send response, (sendResult response world.write).1⟩).toList ∧
      ∀ r ∈ (sentResponse
        ⟨i, world.outside, .send response, (sendResult response world.write).1⟩).toList, _
    intro hbroke
    rcases sendResult_cases response world.write with ⟨hfits, h⟩ | ⟨size, h⟩ | ⟨message, bytes, h⟩
    · rw [h]
      refine ⟨(List.append_nil _).symm, ?_⟩
      intro r hr
      obtain rfl := List.mem_singleton.mp hr
      exact hfits
    · rw [h]
      exact ⟨rfl, fun r hr => by cases hr⟩
    · rw [h] at hbroke
      cases hbroke
  | _ =>
    intro e _
    exact ⟨rfl, fun r hr => by cases hr⟩

/-! ## What a connection has written -/

theorem Server.log_thread_lt (crypto : Crypto) (config : DaemonConfig) (serde : Serde)
    (transport : Transport) (inputs : List ServerInput) :
    let S := Server.run crypto config serde transport inputs
    ∀ e ∈ S.log, e.thread < S.requests.length := by
  intro S e he
  obtain ⟨daemonInputs, h⟩ := Server.run_abstracts crypto config serde transport inputs
  rw [← h.log] at he
  have hlt := System.log_thread_lt daemonInputs e he
  rw [h.length_eq] at hlt
  exact hlt

theorem Server.entriesOf_eq {S S' : Server} (hlog : S'.log = S.log)
    (hrequests : ∀ e ∈ S.log, S'.requests[e.thread]? = S.requests[e.thread]?) (c : Nat) :
    S'.entriesOf c = S.entriesOf c := by
  unfold Server.entriesOf
  rw [hlog]
  apply List.filter_congr
  intro e he
  rw [hrequests e he]

/-- Every connection has written the responses that went out on it. -/
def Server.AllWritten (S : Server) : Prop :=
  ∀ c conn, S.connections[c]? = some conn → S.Unbroken c → WrittenAs (S.sentOn c) conn

section Move
variable {S S' : Server} {x : ServerInput} {c : Nat} {conn conn' : Connection}

/-- A connection that has written nothing new, and no new entry. -/
theorem Server.AllWritten.put (h : S.AllWritten) (hc : S.connections[c]? = some conn)
    (hwritten : conn'.written = conn.written) : (S.put c conn').AllWritten := by
  intro d other hd hunbroken
  rcases Server.put_get hc hd with ⟨rfl, rfl⟩ | ⟨-, hold⟩
  · have hwas := h d conn hc hunbroken
    exact ⟨hwritten.trans hwas.written, hwas.fits⟩
  · exact h d other hold hunbroken

theorem Connection.Ends.written_eq (h : conn.Ends serde conn') : conn'.written = conn.written := by
  cases h <;> rfl

theorem Connection.Changes.written_eq (h : conn.Changes serde c x conn') :
    conn'.written = conn.written := by
  cases h <;> rfl

theorem Server.AllWritten.perform {role : CallerRole} {i : Nat} {world : TaskTurn} {o : DaemonOp}
    {k : o.Answer → DaemonProg (Except HandlerError Unit)} {request : DaemonRequest}
    (h : S.AllWritten) (hc : S.connections[c]? = some conn)
    (hi : S.requests[i]? = some (c, request)) :
    (S.perform crypto config c conn role i world o k).AllWritten := by
  have hentries : ∀ d, (S.perform crypto config c conn role i world o k).entriesOf d =
      if c = d then S.entriesOf d ++ [⟨i, world.outside, o,
        (o.exec crypto config.audit world.outside S.db).1⟩] else S.entriesOf d := by
    intro d
    have hconn : (S.requests[i]?.map Prod.fst == some d) = decide (c = d) := by
      rw [hi, Bool.eq_iff_iff, decide_eq_true_iff]
      simp
    unfold Server.entriesOf Server.perform Server.put
    dsimp only
    rw [List.filter_append, List.filter_singleton, hconn]
    by_cases hcd : c = d
    · rw [if_pos hcd, decide_eq_true hcd]
      rfl
    · rw [if_neg hcd, decide_eq_false hcd]
      exact List.append_nil _
  intro d other hd hunbroken
  unfold Server.Unbroken at hunbroken
  unfold Server.sentOn
  rw [hentries d] at hunbroken ⊢
  rcases Server.put_get hc hd with ⟨rfl, rfl⟩ | ⟨hne, hold⟩
  · rw [if_pos rfl] at hunbroken ⊢
    have hwas := h d conn hc fun e he => hunbroken e (List.mem_append_left _ he)
    obtain ⟨hbytes, hfits⟩ := bytes_eq S.db i world o
      (hunbroken _ (List.mem_append_right _ List.mem_cons_self))
    have hlast : ([⟨i, world.outside, o, (o.exec crypto config.audit world.outside S.db).1⟩] :
        List DaemonEntry).filterMap sentResponse = (sentResponse ⟨i, world.outside, o,
          (o.exec crypto config.audit world.outside S.db).1⟩).toList := by
      rw [List.filterMap_cons]
      cases sentResponse ⟨i, world.outside, o,
        (o.exec crypto config.audit world.outside S.db).1⟩ <;> rfl
    rw [List.filterMap_append, hlast]
    refine ⟨?_, ?_⟩
    · show conn.written ++ world.bytes o = _
      rw [hwas.written, hbytes]
      unfold wireOf
      rw [List.flatMap_append]
      rfl
    · intro r hr
      rcases List.mem_append.mp hr with hr | hr
      · exact hwas.fits r hr
      · exact hfits r hr
  · rw [if_neg (Ne.symm hne)] at hunbroken ⊢
    exact h d other hold hunbroken

theorem Server.AllWritten.move (h : S.AllWritten)
    (hmove : S.Move crypto config serde transport x S')
    (hknown : ∀ r ∈ S.requests, r.1 < S.connections.length)
    (hlogged : ∀ e ∈ S.log, e.thread < S.requests.length)
    (howned : ∀ (c : Nat) (conn : Connection) role i prog, S.connections[c]? = some conn →
      conn.phase = .handling role i prog → ∃ request, S.requests[i]? = some (c, request)) :
    S'.AllWritten := by
  cases hmove with
  | same => exact h
  | stopped => exact h
  | @admitted peer permits hpermits =>
    intro d other hd hunbroken
    rcases Nat.lt_or_ge d S.connections.length with hlt | hge
    · rw [List.getElem?_append_left hlt] at hd
      exact h d other hd hunbroken
    · rw [List.getElem?_append_right hge] at hd
      obtain rfl := List.mem_singleton.mp (List.mem_of_getElem? hd)
      have hnone : S.entriesOf d = [] := by
        rw [Server.entriesOf, List.filter_eq_nil_iff]
        intro e he heq
        obtain ⟨r, hr, hd⟩ := Option.map_eq_some_iff.mp (eq_of_beq heq)
        have hlt := hknown r (List.mem_of_getElem? hr)
        omega
      have hsent : Server.sentOn { S with
          connections := S.connections ++ [{ peer, phase := transport.opening peer }]
          permits } d = [] := by
        show (S.entriesOf d).filterMap sentResponse = []
        rw [hnone]
        rfl
      rw [hsent]
      exact ⟨rfl, fun r hr => by cases hr⟩
  | changed hc hchanges => exact h.put hc hchanges.written_eq
  | closed hc hidle hends => exact h.put hc hends.written_eq
  | @dispatched c conn x raw rest role value hc hphase =>
    have hentries : ∀ d, (S.dispatch crypto config c (conn.took raw rest) role
        (serde.request value)).entriesOf d = S.entriesOf d :=
      Server.entriesOf_eq rfl fun e he => List.getElem?_append_left (hlogged e he)
    intro d other hd hunbroken
    unfold Server.Unbroken at hunbroken
    unfold Server.sentOn
    rw [hentries d] at hunbroken ⊢
    have hput : (S.put c ((conn.took raw rest).inPhase (.handling role S.requests.length
      (handleRequest crypto config role (serde.request value))))).AllWritten := h.put hc rfl
    exact hput d other hd hunbroken
  | performed hc hphase =>
    obtain ⟨request, hi⟩ := howned _ _ _ _ _ hc hphase
    exact h.perform hc hi

end Move

end Wire

/-! ## What the client reads -/

section Json

end Json

/-! ## What the client makes of the replies -/

/-- The request that the entries are of has claimed and settled the row of this result. -/
structure Settles (log : List DaemonEntry) (i : Nat) (envelope : ResultEnvelope) : Prop where
  claimed : ∃ e ∈ log, e.thread = i ∧ e.op.claims e.resp = some envelope.transactionId
  settled : ∃ e ∈ log, e.thread = i ∧ e.op.settles e.resp =
    some (envelope.transactionId, envelope.status, envelope.warnings.isEmpty)

section Truth
variable {crypto : Crypto} {config : DaemonConfig} {serde : Serde} {transport : Transport}

end Truth

end Sysknife
