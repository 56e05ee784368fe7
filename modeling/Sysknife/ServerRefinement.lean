import Sysknife.Authorization
import Sysknife.ServerRuns

/-!
# The server refines the daemon's system

The server is the daemon's system with peers in front of it: every run is one of
`daemonSystem`, with the same store and the same log, in the roles the connections
were given. What holds of every run of the system holds of what the peers' bytes
make the server do.
-/

namespace Sysknife

open Framing Interaction

/-! ## The server is the daemon's system -/

def requestTask (r : Nat × DaemonRequest) : DaemonTask := .request r.1 r.2

/-- The pool has a thread for each request, and a connection that handles one is
where its thread is. -/
structure Abstracts (S : Server) (P : DaemonPool) : Prop where
  shared : P.shared = S.db
  log : P.log = S.log
  tags : P.threads.map Thread.tag = S.requests.map requestTask
  handling : ∀ (c : Nat) (conn : Connection) role i prog, S.connections[c]? = some conn →
    conn.phase = .handling role i prog →
      ∃ request, P.threads[i]? = some ⟨.request c request, prog⟩
  waiting : ∀ (c : Nat) request (i : Nat) o k, P.threads[i]? = some ⟨.request c request, .op o k⟩ →
    ∃ conn role, S.connections[c]? = some conn ∧ conn.phase = .handling role i (.op o k)

section Refinement
variable {crypto : Crypto} {config : DaemonConfig} {serde : Serde} {transport : Transport}
  {S S' : Server} {P : DaemonPool} {x : ServerInput} {c : Nat} {conn conn' : Connection}

theorem Abstracts.length_eq (h : Abstracts S P) : P.threads.length = S.requests.length := by
  have hlen := congrArg List.length h.tags
  simpa using hlen

/-- A connection may change as long as its handler stays where it is. -/
theorem Abstracts.put (h : Abstracts S P) (hc : S.connections[c]? = some conn)
    (hnew : ∀ role i prog, conn'.phase = .handling role i prog →
      conn.phase = .handling role i prog)
    (hold : ∀ role i o k, conn.phase = .handling role i (.op o k) →
      conn'.phase = .handling role i (.op o k)) : Abstracts (S.put c conn') P := by
  refine ⟨h.shared, h.log, h.tags, ?_, ?_⟩
  · intro d other role i prog hd hphase
    rcases Server.put_get hc hd with ⟨rfl, rfl⟩ | ⟨-, hother⟩
    · exact h.handling d conn role i prog hc (hnew role i prog hphase)
    · exact h.handling d other role i prog hother hphase
  · intro d request i o k hi
    obtain ⟨other, role, hd, hphase⟩ := h.waiting d request i o k hi
    have hlt := (List.getElem?_eq_some_iff.mp hc).1
    by_cases hcd : c = d
    · subst hcd
      obtain rfl := Option.some.inj (hc.symm.trans hd)
      exact ⟨conn', role, List.getElem?_set_self hlt, hold role i o k hphase⟩
    · exact ⟨other, role, (List.getElem?_set_ne hcd).trans hd, hphase⟩

theorem Abstracts.changes (h : Abstracts S P) (hc : S.connections[c]? = some conn)
    (hchanges : conn.Changes serde c x conn') : Abstracts (S.put c conn') P := by
  cases hchanges with
  | arrived => exact h.put hc (fun _ _ _ hphase => hphase) fun _ _ _ _ hphase => hphase
  | hungUp => exact h.put hc (fun _ _ _ hphase => hphase) fun _ _ _ _ hphase => hphase
  | authenticated hwas =>
    apply h.put hc
    · intro role i prog hphase
      cases hphase
    · intro role i o k hphase
      rw [hwas] at hphase
      cases hphase
  | finished hwas =>
    apply h.put hc
    · intro role i prog hphase
      cases hphase
    · intro role i o k hphase
      rw [hwas] at hphase
      cases hphase

theorem Abstracts.close (h : Abstracts S P) (hc : S.connections[c]? = some conn)
    (hidle : conn.phase = .authenticating ∨ ∃ role, conn.phase = .reading role) :
    Abstracts (S.close c conn') P := by
  have hput : Abstracts (S.put c (conn'.inPhase (.closed conn'.phase.role))) P := by
    apply h.put hc
    · intro role i prog hphase
      cases hphase
    · intro role i o k hphase
      rcases hidle with hidle | ⟨role', hidle⟩ <;> (rw [hidle] at hphase; cases hphase)
  exact ⟨hput.shared, hput.log, hput.tags, hput.handling, hput.waiting⟩

/-- A connection that reads has no thread that is not done. -/
theorem Abstracts.mayStart (h : Abstracts S P) (hc : S.connections[c]? = some conn)
    {role : CallerRole} (hphase : conn.phase = .reading role) :
    P.threads.all (leavesFree c) = true := by
  rw [List.all_eq_true]
  intro th hth
  obtain ⟨i, hi⟩ := List.mem_iff_getElem?.mp hth
  obtain ⟨task, prog⟩ := th
  cases task with
  | cleanup => cases prog <;> rfl
  | request d request =>
    cases prog with
    | ret result => rfl
    | op o k =>
      obtain ⟨other, role', hd, hother⟩ := h.waiting d request i o k hi
      show (d != c) = true
      rw [bne_iff_ne]
      intro hdc
      subst hdc
      obtain rfl := Option.some.inj (hc.symm.trans hd)
      rw [hphase] at hother
      cases hother

theorem Abstracts.dispatch {role : Nat → CallerRole} {raw : List UInt8} {rest : Chunks UInt8}
    (h : Abstracts S P) (hc : S.connections[c]? = some conn)
    (hphase : conn.phase = .reading (role c)) (request : DaemonRequest) :
    Abstracts (S.dispatch crypto config c (conn.took raw rest) (role c) request)
      ((daemonSystem crypto config role).afterStart P (.request c request)) := by
  have hlt := (List.getElem?_eq_some_iff.mp hc).1
  have hlast : (P.threads ++ [(⟨.request c request,
      handleRequest crypto config (role c) request⟩ : DaemonThread)])[S.requests.length]? =
        some ⟨.request c request, handleRequest crypto config (role c) request⟩ := by
    rw [← h.length_eq, List.getElem?_append_right (Nat.le_refl _), Nat.sub_self]
    rfl
  refine ⟨h.shared, h.log, ?_, ?_, ?_⟩
  · show (P.threads ++ [_]).map Thread.tag = (S.requests ++ [(c, request)]).map requestTask
    rw [List.map_append, List.map_append, h.tags]
    rfl
  · intro d other role' i prog hd hother
    rcases Server.put_get hc hd with ⟨rfl, rfl⟩ | ⟨-, hold⟩
    · cases hother
      exact ⟨request, hlast⟩
    · obtain ⟨request', hi⟩ := h.handling d other role' i prog hold hother
      refine ⟨request', ?_⟩
      rw [← hi]
      exact List.getElem?_append_left (List.getElem?_eq_some_iff.mp hi).1
  · intro d request' i o k hi
    rcases Nat.lt_or_ge i P.threads.length with hilt | hige
    · have hold := (List.getElem?_append_left hilt).symm.trans hi
      obtain ⟨other, role', hd, hother⟩ := h.waiting d request' i o k hold
      by_cases hcd : c = d
      · subst hcd
        obtain rfl := Option.some.inj (hc.symm.trans hd)
        rw [hphase] at hother
        cases hother
      · exact ⟨other, role', (List.getElem?_set_ne hcd).trans hd, hother⟩
    · have hilt : i < (P.threads ++ [_]).length := (List.getElem?_eq_some_iff.mp hi).1
      rw [List.length_append, List.length_singleton] at hilt
      have hieq : i = S.requests.length := by
        have hlen := h.length_eq
        omega
      subst hieq
      have hthread := Option.some.inj (hlast.symm.trans hi)
      injection hthread with htask hprog
      cases htask
      rw [← hprog]
      exact ⟨_, role c, List.getElem?_set_self hlt, rfl⟩

theorem Abstracts.perform {role : Nat → CallerRole} {r : CallerRole} {i : Nat} {world : TaskTurn}
    {o : DaemonOp} {k : o.Answer → DaemonProg (Except HandlerError Unit)} {request : DaemonRequest}
    (h : Abstracts S P) (hc : S.connections[c]? = some conn)
    (hphase : conn.phase = .handling r i (.op o k))
    (hi : P.threads[i]? = some ⟨.request c request, .op o k⟩) :
    Abstracts (S.perform crypto config c conn r i world o k)
      ((daemonSystem crypto config role).afterAct P i world.outside (.request c request) o k) := by
  have hlt := (List.getElem?_eq_some_iff.mp hc).1
  have hilt := (List.getElem?_eq_some_iff.mp hi).1
  have hexec : (daemonSystem crypto config role).exec world.outside P.shared o =
      o.exec crypto config.audit world.outside S.db := by
    rw [← h.shared]
    rfl
  unfold System.afterAct
  dsimp only
  rw [hexec]
  refine ⟨rfl, ?_, ?_, ?_, ?_⟩
  · show P.log ++ _ = S.log ++ _
    rw [h.log]
  · show (P.threads.set i _).map Thread.tag = S.requests.map requestTask
    have hlen : i < (P.threads.map Thread.tag).length := by simpa using hilt
    have htag : (P.threads.map Thread.tag)[i] = .request c request := by
      rw [List.getElem_map, (List.getElem?_eq_some_iff.mp hi).2]
    have hset := List.set_getElem_self hlen
    rw [htag] at hset
    rw [List.map_set, ← h.tags]
    exact hset
  · intro d other r' j prog hd hother
    rcases Server.put_get hc hd with ⟨rfl, rfl⟩ | ⟨hne, hold⟩
    · cases hother
      exact ⟨request, List.getElem?_set_self hilt⟩
    · obtain ⟨request', hj⟩ := h.handling d other r' j prog hold hother
      have hij : i ≠ j := by
        intro hij
        subst hij
        rw [hi] at hj
        cases hj
        exact hne rfl
      exact ⟨request', (List.getElem?_set_ne hij).trans hj⟩
  · intro d request' j o' k' hj
    by_cases hij : i = j
    · subst hij
      have hthread := Option.some.inj ((List.getElem?_set_self hilt).symm.trans hj)
      injection hthread with htask hprog
      cases htask
      rw [← hprog]
      exact ⟨_, r, List.getElem?_set_self hlt, rfl⟩
    · have hold := (List.getElem?_set_ne hij).symm.trans hj
      obtain ⟨other, r', hd, hother⟩ := h.waiting d request' j o' k' hold
      by_cases hcd : c = d
      · subst hcd
        obtain rfl := Option.some.inj (hc.symm.trans hd)
        rw [hphase] at hother
        cases hother
        exact absurd rfl hij
      · exact ⟨other, r', (List.getElem?_set_ne hcd).trans hd, hother⟩

/-- A step of the server is at most one of the system. -/
theorem Abstracts.move {role : Nat → CallerRole} (h : Abstracts S P)
    (hmove : S.Move crypto config serde transport x S')
    (hrole : ∀ c conn r, S.connections[c]? = some conn → conn.phase.role = some r → role c = r) :
    ∃ input : Option DaemonInput,
      Abstracts S' (input.elim P ((daemonSystem crypto config role).step P)) := by
  cases hmove with
  | same => exact ⟨none, h⟩
  | stopped => exact ⟨none, h.shared, h.log, h.tags, h.handling, h.waiting⟩
  | @admitted peer permits hpermits =>
    refine ⟨none, h.shared, h.log, h.tags, ?_, ?_⟩
    · intro d other r i prog hd hother
      rcases Nat.lt_or_ge d S.connections.length with hlt | hge
      · rw [List.getElem?_append_left hlt] at hd
        exact h.handling d other r i prog hd hother
      · rw [List.getElem?_append_right hge] at hd
        obtain rfl := List.mem_singleton.mp (List.mem_of_getElem? hd)
        cases transport <;> cases hother
    · intro d request i o k hi
      obtain ⟨other, r, hd, hother⟩ := h.waiting d request i o k hi
      exact ⟨other, r, (List.getElem?_append_left (List.getElem?_eq_some_iff.mp hd).1).trans hd,
        hother⟩
  | changed hc hchanges => exact ⟨none, h.changes hc hchanges⟩
  | closed hc hidle hends => exact ⟨none, h.close hc hidle⟩
  | @dispatched c conn x raw rest r value hc hphase hrecv hvalue =>
    obtain rfl := hrole c conn r hc (by rw [hphase]; rfl)
    refine ⟨some (.start (.request c (serde.request value))), ?_⟩
    rw [Option.elim_some, System.step_start _ (h.mayStart hc hphase)]
    exact h.dispatch hc hphase _
  | @performed c conn r i world o k hc hphase =>
    obtain ⟨request, hi⟩ := h.handling c conn r i _ hc hphase
    refine ⟨some (.act i world.outside), ?_⟩
    rw [Option.elim_some, System.step_act _ hi]
    exact h.perform hc hphase hi

/-- Every run of the server is a run of the daemon's system. -/
theorem Server.run_abstracts (crypto : Crypto) (config : DaemonConfig) (serde : Serde)
    (transport : Transport) (inputs : List ServerInput) :
    let S := Server.run crypto config serde transport inputs
    ∃ daemonInputs, Abstracts S ((daemonSystem crypto config S.roleOf).run daemonInputs) := by
  intro S
  apply System.forward_simulation
  · refine ⟨rfl, rfl, rfl, ?_, ?_⟩
    · intro c conn role i prog hc
      cases hc
    · intro c request i o k hi
      cases hi
  · intro before x P hpart h
    apply h.move (Server.step_move _ x)
    intro c conn r hc hr
    exact Server.roleOf_of_prefix ((List.prefix_append _ _).trans hpart) hc hr

/-- A thread of the pool is a request that was read off its connection. -/
theorem Abstracts.requests_get (h : Abstracts S P) {i : Nat} {task : DaemonTask}
    (hi : taskOf P i = some task) :
    ∃ c request, task = .request c request ∧ S.requests[i]? = some (c, request) := by
  have htags : (P.threads.map Thread.tag)[i]? = (S.requests.map requestTask)[i]? := by rw [h.tags]
  rw [List.getElem?_map, List.getElem?_map] at htags
  unfold taskOf at hi
  rw [hi] at htags
  obtain ⟨⟨c, request⟩, hget, htask⟩ := Option.map_eq_some_iff.mp htags.symm
  exact ⟨c, request, htask.symm, hget⟩

end Refinement

/-- Whatever the peers send, in whatever pieces, and however the tasks take turns: the
server does what `daemonSystem` does with one request after the other. -/
theorem server_refines (crypto : Crypto) (config : DaemonConfig) (serde : Serde)
    (transport : Transport) (inputs : List ServerInput) :
    let S := Server.run crypto config serde transport inputs
    ∃ daemonInputs, let P := (daemonSystem crypto config S.roleOf).run daemonInputs
      P.shared = S.db ∧ P.log = S.log ∧ P.threads.map Thread.tag = S.requests.map requestTask ∧
        ∀ (c : Nat) (conn : Connection) role i prog, S.connections[c]? = some conn →
          conn.phase = .handling role i prog →
            ∃ request, P.threads[i]? = some ⟨.request c request, prog⟩ := by
  intro S
  obtain ⟨daemonInputs, h⟩ := Server.run_abstracts crypto config serde transport inputs
  exact ⟨daemonInputs, h.shared, h.log, h.tags, h.handling⟩

/-! ## Who has something run -/

theorem validateTokenAgainstFile_eq_some_iff {token : String} {world : TokenWorld}
    {role : CallerRole} :
    validateTokenAgainstFile token world = some role ↔
      token ≠ "" ∧ (readToString world.file).map (fun content => String.ofList (trim content)) =
        some token ∧ role = tokenRole world.roleVar := by
  unfold validateTokenAgainstFile
  by_cases hempty : token = ""
  · simp [hempty]
  have hpresented : token.isEmpty = false := by
    rw [String.isEmpty_eq_false_iff]
    exact hempty
  rw [hpresented]
  cases readToString world.file with
  | none => simp
  | some content =>
    rw [Option.map_some, Option.some.injEq]
    by_cases hstored : String.ofList (trim content) = token
    · simp only [hstored, hpresented, Bool.false_eq_true, if_false, ne_eq, not_true_eq_false, hempty,
        not_false_eq_true, true_and, Option.some.injEq]
      exact eq_comm
    · -- texts that differ differ in their bytes
      have hbytes : utf8 (String.ofList (trim content)) ≠ utf8 token :=
        fun heq => hstored (utf8_injective heq)
      simp [hstored, hbytes]

/-- A vsock peer has its role for showing the token that was in the file. -/
theorem authenticate_eq_some_iff {serde : Serde} {world : TokenWorld} {raw : List UInt8}
    {role : CallerRole} :
    authenticate serde world raw = some role ↔
      ∃ token, serde.authFrame raw = some ("auth", token) ∧ token ≠ "" ∧
        (readToString world.file).map (fun content => String.ofList (trim content)) = some token ∧
        role = tokenRole world.roleVar := by
  unfold authenticate
  cases serde.authFrame raw with
  | none => simp
  | some frame =>
    obtain ⟨msgType, token⟩ := frame
    by_cases htype : msgType = "auth"
    · simp [htype, validateTokenAgainstFile_eq_some_iff]
    · simp [htype]

/-- The role a connection was given: on a unix socket what the kernel and the group file
say of its peer, on vsock what goes with the token its first frame has shown. -/
def Transport.Granted (transport : Transport) (serde : Serde) (inputs : List ServerInput) (c : Nat)
    (conn : Connection) (role : CallerRole) : Prop :=
  match transport with
  | .unix => role = resolveCallerRole conn.peer.peerCred conn.peer.groupFile conn.peer.procStatus
  | .vsock => ∃ raw later world token, conn.frames = raw :: later ∧ .turn c world ∈ inputs ∧
      serde.authFrame raw = some ("auth", token) ∧ token ≠ "" ∧
      (readToString world.token.file).map (fun content => String.ofList (trim content)) =
        some token ∧
      role = tokenRole world.token.roleVar

/-- A request came in on a connection, in a frame of its own. -/
def CameIn (transport : Transport) (serde : Serde) (inputs : List ServerInput) (S : Server) (c : Nat)
    (request : DaemonRequest) (role : CallerRole) : Prop :=
  ∃ conn raw value, S.connections[c]? = some conn ∧ raw ∈ transport.dispatched conn.frames ∧
    serde.value raw = .ok value ∧ serde.request value = request ∧
    transport.Granted serde inputs c conn role

section Authorized
variable {crypto : Crypto} {config : DaemonConfig} {serde : Serde} {transport : Transport}
  {inputs : List ServerInput}

theorem Transport.Grants.granted {c : Nat} {conn : Connection} {role : CallerRole}
    (h : transport.Grants serde inputs c conn role) :
    transport.Granted serde inputs c conn role := by
  cases transport with
  | unix => exact h
  | vsock =>
    obtain ⟨raw, later, world, hframes, hmem, hauth⟩ := h
    obtain ⟨token, hframe, hne, hfile, hrole⟩ := authenticate_eq_some_iff.mp hauth
    exact ⟨raw, later, world, token, hframes, hmem, hframe, hne, hfile, hrole⟩

/-- Every request has a frame, and its connection a role. -/
theorem Server.request_cameIn {i c : Nat} {request : DaemonRequest}
    (hi : (Server.run crypto config serde transport inputs).requests[i]? = some (c, request)) :
    CameIn transport serde inputs (Server.run crypto config serde transport inputs) c request
      ((Server.run crypto config serde transport inputs).roleOf c) := by
  have hall := Server.run_allAnswer crypto config serde transport inputs
  have hmem := List.mem_of_getElem? hi
  have hlt := hall.known _ hmem
  obtain ⟨conn, hc⟩ : ∃ conn,
      (Server.run crypto config serde transport inputs).connections[c]? = some conn :=
    ⟨_, List.getElem?_eq_getElem hlt⟩
  have hanswers := hall.each c conn hc
  have hrequest : request ∈ requestsOf c
      (Server.run crypto config serde transport inputs).requests := by
    refine List.mem_map.mpr ⟨(c, request), ?_, rfl⟩
    exact List.mem_filter.mpr ⟨hmem, beq_self_eq_true c⟩
  rw [hanswers.requests_eq] at hrequest
  obtain ⟨raw, hraw, hsome⟩ := List.mem_filterMap.mp hrequest
  obtain ⟨value, hvalue, hdecoded⟩ := Option.map_eq_some_iff.mp hsome
  have hok : serde.value raw = .ok value := by
    cases hread : serde.value raw with
    | error e =>
      rw [hread] at hvalue
      cases hvalue
    | ok other =>
      rw [hread] at hvalue
      rw [Option.some.inj hvalue]
  obtain ⟨role, hrole⟩ : ∃ role, conn.phase.role = some role := by
    cases hphase : conn.phase.role with
    | some role => exact ⟨role, rfl⟩
    | none =>
      rw [← hanswers.requests_eq, hanswers.unasked hphase] at hrequest
      cases hrequest
  have hroleOf := Server.roleOf_of_prefix List.prefix_rfl hc hrole
  rw [hroleOf]
  exact ⟨_, raw, value, hc, hraw, hok, hdecoded, (hanswers.role role hrole).granted⟩

/-- The request behind an operation that starts something. -/
theorem Abstracts.started {role : Nat → CallerRole} {S : Server} {daemonInputs : List DaemonInput}
    (h : Abstracts S ((daemonSystem crypto config role).run daemonInputs)) {e : DaemonEntry}
    (he : e ∈ S.log) (hstarts : e.op.starts = true) :
    ∃ c request, S.requests[e.thread]? = some (c, request) ∧
      ((∃ x spec, Execution.task x = .request c request ∧ e.op.Runs spec ∧
          MayExecute config (role c) x.actionName x.params spec ∧
          x.approvalHash = computeRequestHash crypto x.actionName x.params) ∨
        ∃ requestId actionName params spec, request = .queryAction requestId actionName params ∧
          e.op.Runs spec ∧ MayQuery config actionName params spec) := by
  rw [← h.log] at he
  obtain ⟨pre, suf, hlog⟩ := List.append_of_mem he
  obtain ⟨before, p, hp⟩ := entry_checked hlog
  obtain ⟨c, request, htask, hget⟩ := h.requests_get hp.task
  refine ⟨c, request, hget, ?_⟩
  have hexpected := hp.expected
  generalize e.op = o at hexpected hstarts ⊢
  cases o with
  | spawn program args =>
    obtain ⟨x, spec, hspec, hmech, ⟨hx, -⟩, -⟩ := hexpected
    rw [hx] at htask
    obtain rfl : x.connection = c := by cases htask; rfl
    exact Or.inl ⟨x, spec, htask, hmech, hspec.mayExecute, hspec.approved⟩
  | executeSpec spec =>
    obtain ⟨x, hspec, ⟨hx, -⟩, -⟩ := hexpected
    rw [hx] at htask
    obtain rfl : x.connection = c := by cases htask; rfl
    exact Or.inl ⟨x, spec, htask, rfl, hspec.mayExecute, hspec.approved⟩
  | execute spec =>
    rcases hexpected with ⟨x, built, hspec, hrb, ⟨hx, -⟩⟩ | ⟨d, r, a, params, hq, hrole, hspec⟩
    · rw [hx] at htask
      obtain rfl : x.connection = c := by cases htask; rfl
      exact Or.inl ⟨x, spec, htask, rfl, hspec.mayRollBack hrb, hspec.approved⟩
    · rw [hq] at htask
      cases htask
      exact Or.inr ⟨r, a, params, spec, rfl, rfl, mayQuery hrole hspec⟩
  | _ => cases hstarts

end Authorized

/-- Whatever bytes the peers send: what the daemon runs was asked for in a frame of one
connection, and the role that connection was given allows it. Before a vsock peer has shown
the token, nothing is run for it. -/
theorem server_runs_authorized (crypto : Crypto) (config : DaemonConfig) (serde : Serde)
    (transport : Transport) (inputs : List ServerInput) :
    let S := Server.run crypto config serde transport inputs
    ∀ e ∈ S.log, e.op.starts = true →
      ∃ c request role, S.requests[e.thread]? = some (c, request) ∧
        CameIn transport serde inputs S c request role ∧
        ((∃ requestId actionName params approvalHash spec,
            request = .execute requestId actionName params approvalHash ∧ e.op.Runs spec ∧
              MayExecute config role actionName params spec ∧
              approvalHash = computeRequestHash crypto actionName params) ∨
          ∃ requestId actionName params spec,
            request = .queryAction requestId actionName params ∧ e.op.Runs spec ∧
              MayQuery config actionName params spec) := by
  intro S e he hstarts
  obtain ⟨daemonInputs, h⟩ := Server.run_abstracts crypto config serde transport inputs
  obtain ⟨c, request, hget, hasked⟩ := h.started he hstarts
  refine ⟨c, request, S.roleOf c, hget, Server.request_cameIn hget, ?_⟩
  rcases hasked with ⟨x, spec, htask, hruns, hmay, happroved⟩ | hquery
  · cases htask
    exact Or.inl ⟨_, _, _, _, spec, rfl, hruns, hmay, happroved⟩
  · exact Or.inr hquery

end Sysknife
