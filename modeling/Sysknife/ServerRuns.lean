import Sysknife.Connections

/-!
# Runs of the server

What one step of the server can do, and what holds of every run: a permit for each
live connection, requests that are the frames that have arrived, and roles that stay.
-/

namespace Sysknife

open Framing Interaction

/-! ## What a step can do -/

section Moves
variable (crypto : Crypto) (config : DaemonConfig) (serde : Serde) (transport : Transport)

/-- A connection changes on its own. -/
inductive Connection.Changes (c : Nat) (conn : Connection) : ServerInput → Connection → Prop where
  | arrived (chunk : List UInt8) : Changes c conn (.arrive c chunk)
      { conn with unread := conn.unread ++ [chunk], arrived := conn.arrived ++ chunk }
  | hungUp : Changes c conn (.hangUp c) { conn with hungUp := true }
  | authenticated {raw : List UInt8} {rest : Chunks UInt8} {role : CallerRole} {world : TaskTurn}
      (hphase : conn.phase = .authenticating)
      (hrecv : FramedStream.recv conn.unread = (.ok raw, rest))
      (hrole : authenticate serde world.token raw = some role) :
      Changes c conn (.turn c world) ((conn.took raw rest).inPhase (.reading role))
  | finished {role : CallerRole} {i : Nat} {result : Except HandlerError Unit} {world : TaskTurn}
      (hphase : conn.phase = .handling role i (.ret result)) :
      Changes c conn (.turn c world) (conn.inPhase (.reading role))

/-- What has been read of a connection that is closed: all that was, and the
frame it is closed for. -/
inductive Connection.Ends (conn : Connection) : Connection → Prop where
  | asIs : Ends conn conn
  | refused {raw : List UInt8} {rest : Chunks UInt8} (hphase : conn.phase = .authenticating)
      (hrecv : FramedStream.recv conn.unread = (.ok raw, rest)) : Ends conn (conn.took raw rest)
  | malformed {raw : List UInt8} {rest : Chunks UInt8} {role : CallerRole} {e : String}
      (hphase : conn.phase = .reading role)
      (hrecv : FramedStream.recv conn.unread = (.ok raw, rest)) (hvalue : serde.value raw = .error e) :
      Ends conn (conn.took raw rest)

inductive Server.Move (S : Server) : ServerInput → Server → Prop where
  | same (x : ServerInput) : Move S x S
  | stopped (x : ServerInput) : Move S x { S with running := false }
  | admitted {peer : Incoming} {permits : Nat} (hpermits : S.permits = permits + 1) :
      Move S (.accept peer)
        { S with connections := S.connections ++ [{ peer, phase := transport.opening peer }], permits }
  | changed {c : Nat} {conn conn' : Connection} {x : ServerInput}
      (hc : S.connections[c]? = some conn) (hchanges : conn.Changes serde c x conn') :
      Move S x (S.put c conn')
  | closed {c : Nat} {conn conn' : Connection} {x : ServerInput}
      (hc : S.connections[c]? = some conn) (hidle : conn.phase = .authenticating ∨
        ∃ role, conn.phase = .reading role) (hends : conn.Ends serde conn') :
      Move S x (S.close c conn')
  | dispatched {c : Nat} {conn : Connection} {x : ServerInput} {raw : List UInt8}
      {rest : Chunks UInt8} {role : CallerRole} {value : Json}
      (hc : S.connections[c]? = some conn) (hphase : conn.phase = .reading role)
      (hrecv : FramedStream.recv conn.unread = (.ok raw, rest)) (hvalue : serde.value raw = .ok value) :
      Move S x (S.dispatch crypto config c (conn.took raw rest) role (serde.request value))
  | performed {c : Nat} {conn : Connection} {role : CallerRole} {i : Nat} {world : TaskTurn}
      {o : DaemonOp} {k : o.Answer → DaemonProg (Except HandlerError Unit)}
      (hc : S.connections[c]? = some conn) (hphase : conn.phase = .handling role i (.op o k)) :
      Move S (.turn c world) (S.perform crypto config c conn role i world o k)

variable {crypto config serde transport}

theorem Server.takeTurn_move {S : Server} {c : Nat} {conn : Connection}
    (hc : S.connections[c]? = some conn) (world : TaskTurn) :
    S.Move crypto config serde transport (.turn c world)
      (S.takeTurn crypto config serde c conn world) := by
  unfold Server.takeTurn
  cases hphase : conn.phase with
  | closed role => exact .same _
  | authenticating =>
    dsimp only
    split
    · split
      · exact .closed hc (Or.inl hphase) .asIs
      · exact .same _
    · exact .closed hc (Or.inl hphase) .asIs
    · rename_i raw rest hrecv
      split
      · exact .closed hc (Or.inl hphase) (.refused hphase hrecv)
      · rename_i role hrole
        exact .changed hc (.authenticated hphase hrecv hrole)
  | reading role =>
    dsimp only
    split
    · split
      · exact .closed hc (Or.inr ⟨role, hphase⟩) .asIs
      · exact .same _
    · exact .closed hc (Or.inr ⟨role, hphase⟩) .asIs
    · rename_i raw rest hrecv
      split
      · rename_i e hvalue
        exact .closed hc (Or.inr ⟨role, hphase⟩) (.malformed hphase hrecv hvalue)
      · rename_i value hvalue
        exact .dispatched hc hphase hrecv hvalue
  | handling role i prog =>
    cases prog with
    | ret result => exact .changed hc (.finished hphase)
    | op o k => exact .performed hc hphase

theorem Server.on_move {S : Server} {c : Nat} {x : ServerInput} {f : Connection → Server}
    (hf : ∀ conn, S.connections[c]? = some conn → S.Move crypto config serde transport x (f conn)) :
    S.Move crypto config serde transport x (S.on c f) := by
  unfold Server.on
  cases hc : S.connections[c]? with
  | none => exact .same x
  | some conn => exact hf conn hc

theorem Server.step_move (S : Server) (x : ServerInput) :
    S.Move crypto config serde transport x (S.step crypto config serde transport x) := by
  unfold Server.step
  split
  · exact .same x
  cases x with
  | accept peer =>
    show S.Move crypto config serde transport _ (S.welcome transport peer)
    unfold Server.welcome
    split
    · exact .same _
    · rename_i permits hpermits
      exact .admitted hpermits
  | acceptFailed error =>
    cases error with
    | connectionAborted => exact .same _
    | connectionReset => exact .same _
    | other => exact .stopped _
  | ctrlC => exact .stopped _
  | arrive c chunk =>
    apply Server.on_move
    intro conn hc
    split
    · exact .same _
    · exact .changed hc (.arrived chunk)
  | hangUp c =>
    apply Server.on_move
    intro conn hc
    exact .changed hc .hungUp
  | authTimeout c =>
    apply Server.on_move
    intro conn hc
    split
    · rename_i hphase
      exact .closed hc (Or.inl hphase) .asIs
    · exact .same _
  | turn c world =>
    apply Server.on_move
    intro conn hc
    exact Server.takeTurn_move hc world

theorem Server.run_concat (inputs : List ServerInput) (x : ServerInput) :
    Server.run crypto config serde transport (inputs ++ [x]) =
      (Server.run crypto config serde transport inputs).step crypto config serde transport x := by
  simp [Server.run]

/-- An invariant of every run. -/
theorem Server.run_induction {I : List ServerInput → Server → Prop} (h0 : I [] .start)
    (hmove : ∀ before S x S', I before S → S.Move crypto config serde transport x S' →
      I (before ++ [x]) S') (inputs : List ServerInput) :
    I inputs (Server.run crypto config serde transport inputs) := by
  induction inputs using List.reverseRecOn with
  | nil => exact h0
  | append_singleton before x ih =>
    rw [Server.run_concat]
    exact hmove before _ x _ ih (Server.step_move _ x)

end Moves

/-! ## Permits -/

def Server.live (S : Server) : Nat := S.connections.countP fun conn => conn.phase.isLive

theorem Server.live_put {S : Server} {c : Nat} {conn : Connection} (conn' : Connection)
    (hc : S.connections[c]? = some conn) :
    (S.put c conn').live + conn.phase.isLive.toNat = S.live + conn'.phase.isLive.toNat := by
  obtain ⟨hlt, hget⟩ := List.getElem?_eq_some_iff.mp hc
  have hpos : conn.phase.isLive = true → 0 < S.live := fun hlive =>
    List.countP_pos_iff.mpr ⟨conn, List.mem_of_getElem? hc, hlive⟩
  unfold Server.live at hpos ⊢
  unfold Server.put
  dsimp only
  rw [List.countP_set hlt, hget]
  cases hlive : conn.phase.isLive with
  | false => cases conn'.phase.isLive <;> rfl
  | true =>
    have hlt := hpos hlive
    cases conn'.phase.isLive <;> simp <;> omega

section Runs
variable {crypto : Crypto} {config : DaemonConfig} {serde : Serde} {transport : Transport}

theorem Connection.Changes.isLive {c : Nat} {conn conn' : Connection} {x : ServerInput}
    (h : conn.Changes serde c x conn') : conn'.phase.isLive = conn.phase.isLive := by
  cases h with
  | arrived => rfl
  | hungUp => rfl
  | authenticated hphase => rw [hphase]; rfl
  | finished hphase => rw [hphase]; rfl

theorem Phase.isLive_of_idle {phase : Phase}
    (h : phase = .authenticating ∨ ∃ role, phase = .reading role) : phase.isLive = true := by
  rcases h with rfl | ⟨role, rfl⟩ <;> rfl

/-- Every live connection holds one permit. -/
theorem Server.permits_live (inputs : List ServerInput) :
    let S := Server.run crypto config serde transport inputs
    S.permits + S.live = maxConnections := by
  apply Server.run_induction (I := fun _ S => S.permits + S.live = maxConnections)
  · rfl
  intro before S x S' ih hmove
  cases hmove with
  | same => exact ih
  | stopped => exact ih
  | @admitted peer permits hpermits =>
    have hphase : (transport.opening peer).isLive = true := by cases transport <;> rfl
    unfold Server.live at ih ⊢
    simp only [List.countP_append, List.countP_singleton, hphase, if_pos]
    omega
  | @changed c conn conn' x hc hchanges =>
    have hlive := Server.live_put conn' hc
    rw [hchanges.isLive] at hlive
    show S.permits + (S.put c conn').live = maxConnections
    omega
  | @closed c conn conn' x hc hidle hends =>
    have hlive := Server.live_put (conn'.inPhase (.closed conn'.phase.role)) hc
    rw [Phase.isLive_of_idle hidle] at hlive
    show S.permits + 1 + (S.put c (conn'.inPhase (.closed conn'.phase.role))).live = maxConnections
    change _ + 1 = _ + 0 at hlive
    omega
  | @dispatched c conn x raw rest role value hc hphase =>
    have hlive := Server.live_put ((conn.took raw rest).inPhase (.handling role S.requests.length
      (handleRequest crypto config role (serde.request value)))) hc
    rw [hphase] at hlive
    exact (Nat.add_right_cancel hlive) ▸ ih
  | @performed c conn role i world o k hc hphase =>
    have hlive := Server.live_put { conn with
      phase := .handling role i (k (o.exec crypto config.audit world.outside S.db).1)
      written := conn.written ++ world.bytes o } hc
    rw [hphase] at hlive
    exact (Nat.add_right_cancel hlive) ▸ ih

end Runs

/-! ## What a connection has been asked -/

def requestsOf (c : Nat) (requests : List (Nat × DaemonRequest)) : List DaemonRequest :=
  (requests.filter fun r => r.1 == c).map Prod.snd

/-- The requests in some frames. -/
def Serde.requestsIn (serde : Serde) (frames : List (List UInt8)) : List DaemonRequest :=
  frames.filterMap fun raw => (serde.value raw).toOption.map serde.request

/-- The frames that `dispatch_loop` reads: on vsock the first one is the token's. -/
def Transport.dispatched (transport : Transport) (frames : List (List UInt8)) :
    List (List UInt8) :=
  match transport with
  | .unix => frames
  | .vsock => frames.tail

/-- Why a connection has its role. -/
def Transport.Grants (transport : Transport) (serde : Serde) (inputs : List ServerInput) (c : Nat)
    (conn : Connection) (role : CallerRole) : Prop :=
  match transport with
  | .unix => role = conn.peer.role
  | .vsock => ∃ raw later world, conn.frames = raw :: later ∧ .turn c world ∈ inputs ∧
      authenticate serde world.token raw = some role

/-- The frames and the requests of a connection are what has arrived on it. -/
structure AnswersFor (transport : Transport) (serde : Serde) (inputs : List ServerInput)
    (requests : List DaemonRequest) (c : Nat) (conn : Connection) : Prop where
  arrived : conn.arrived = conn.frames.flatMap u32Le.frame ++ conn.unread.flatten
  requests_eq : requests = serde.requestsIn (transport.dispatched conn.frames)
  wellFormed : conn.phase.isLive = true → ∀ raw ∈ transport.dispatched conn.frames,
    ∃ value, serde.value raw = .ok value
  waiting : conn.phase = .authenticating → transport = .vsock ∧ conn.frames = []
  unasked : conn.phase.role = none → requests = []
  role : ∀ role, conn.phase.role = some role → transport.Grants serde inputs c conn role

section Account
variable {crypto : Crypto} {config : DaemonConfig} {serde : Serde} {transport : Transport}
  {inputs : List ServerInput} {requests : List DaemonRequest} {c : Nat}
  {conn conn' : Connection} {raw : List UInt8} {rest : Chunks UInt8} {role : CallerRole}

theorem requestsOf_concat_self (c : Nat) (requests : List (Nat × DaemonRequest))
    (request : DaemonRequest) :
    requestsOf c (requests ++ [(c, request)]) = requestsOf c requests ++ [request] := by
  simp [requestsOf]

theorem requestsOf_concat_other {c d : Nat} (h : d ≠ c) (requests : List (Nat × DaemonRequest))
    (request : DaemonRequest) :
    requestsOf c (requests ++ [(d, request)]) = requestsOf c requests := by
  simp [requestsOf, h]

theorem requestsOf_new {c : Nat} {requests : List (Nat × DaemonRequest)}
    (h : ∀ r ∈ requests, r.1 < c) : requestsOf c requests = [] := by
  rw [requestsOf, List.map_eq_nil_iff, List.filter_eq_nil_iff]
  intro r hr heq
  have hlt := h r hr
  rw [eq_of_beq heq] at hlt
  omega

theorem Transport.Grants.mono {inputs' : List ServerInput}
    (h : transport.Grants serde inputs c conn role) (hsub : inputs ⊆ inputs')
    (hpeer : conn'.peer = conn.peer) (hframes : conn.frames <+: conn'.frames) :
    transport.Grants serde inputs' c conn' role := by
  cases transport with
  | unix => exact h.trans (by rw [hpeer])
  | vsock =>
    obtain ⟨raw, later, world, hfirst, hmem, hauth⟩ := h
    obtain ⟨more, hmore⟩ := hframes
    rw [hfirst, List.cons_append] at hmore
    exact ⟨raw, later ++ more, world, hmore.symm, hsub hmem, hauth⟩

/-- Behind the first frame, each frame that is read is one more to dispatch. -/
theorem Transport.Grants.dispatched_concat (h : transport.Grants serde inputs c conn role)
    (raw : List UInt8) :
    transport.dispatched (conn.frames ++ [raw]) = transport.dispatched conn.frames ++ [raw] := by
  cases transport with
  | unix => rfl
  | vsock =>
    obtain ⟨first, later, world, hfirst, -⟩ := h
    rw [hfirst]
    rfl

theorem Serde.requestsIn_concat (frames : List (List UInt8)) (raw : List UInt8) :
    serde.requestsIn (frames ++ [raw]) =
      serde.requestsIn frames ++ ((serde.value raw).toOption.map serde.request).toList := by
  cases hvalue : serde.value raw <;> simp [Serde.requestsIn, hvalue, Except.toOption]

theorem AnswersFor.mono {inputs' : List ServerInput}
    (h : AnswersFor transport serde inputs requests c conn) (hsub : inputs ⊆ inputs') :
    AnswersFor transport serde inputs' requests c conn where
  arrived := h.arrived
  requests_eq := h.requests_eq
  wellFormed := h.wellFormed
  waiting := h.waiting
  unasked := h.unasked
  role role hrole := (h.role role hrole).mono hsub rfl List.prefix_rfl

/-- Bytes that have arrived stay accounted for when a frame is read off them. -/
theorem AnswersFor.arrived_took (h : AnswersFor transport serde inputs requests c conn)
    (hrecv : FramedStream.recv conn.unread = (.ok raw, rest)) :
    (conn.took raw rest).arrived =
      (conn.took raw rest).frames.flatMap u32Le.frame ++ (conn.took raw rest).unread.flatten := by
  obtain ⟨hframe, -⟩ := Endpoint.recv_ok .daemon hrecv
  show conn.arrived = (conn.frames ++ [raw]).flatMap u32Le.frame ++ rest.flatten
  rw [h.arrived, hframe, List.flatMap_append, List.append_assoc]
  simp

theorem AnswersFor.opening (peer : Incoming) :
    AnswersFor transport serde inputs [] c { peer, phase := transport.opening peer } := by
  cases transport with
  | unix =>
    refine ⟨rfl, rfl, ?_, ?_, fun _ => rfl, ?_⟩
    · intro _ raw hraw
      cases hraw
    · intro hphase
      cases hphase
    · intro role hrole
      exact (Option.some.inj hrole).symm
  | vsock =>
    refine ⟨rfl, rfl, ?_, ?_, fun _ => rfl, ?_⟩
    · intro _ raw hraw
      cases hraw
    · intro _
      exact ⟨rfl, rfl⟩
    · intro role hrole
      cases hrole

theorem AnswersFor.changes {x : ServerInput}
    (h : AnswersFor transport serde inputs requests c conn) (hchanges : conn.Changes serde c x conn') :
    AnswersFor transport serde (inputs ++ [x]) requests c conn' := by
  have hsub : inputs ⊆ inputs ++ [x] := List.subset_append_left _ _
  cases hchanges with
  | arrived chunk =>
    refine ⟨?_, h.requests_eq, h.wellFormed, h.waiting, h.unasked, fun role hrole =>
      (h.role role hrole).mono hsub rfl List.prefix_rfl⟩
    show conn.arrived ++ chunk = _ ++ (conn.unread ++ [chunk]).flatten
    rw [h.arrived, List.flatten_append, List.append_assoc]
    simp
  | hungUp =>
    exact ⟨h.arrived, h.requests_eq, h.wellFormed, h.waiting, h.unasked, fun role hrole =>
      (h.role role hrole).mono hsub rfl List.prefix_rfl⟩
  | @authenticated raw rest role world hphase hrecv hrole =>
    obtain ⟨rfl, hframes⟩ := h.waiting hphase
    have hfirst : (conn.took raw rest).frames = [raw] := by
      show conn.frames ++ [raw] = [raw]
      rw [hframes, List.nil_append]
    refine ⟨h.arrived_took hrecv, ?_, ?_, ?_, ?_, ?_⟩
    · show requests = serde.requestsIn (conn.took raw rest).frames.tail
      rw [h.requests_eq, hfirst, hframes]
      rfl
    · intro _ other hother
      change other ∈ (conn.took raw rest).frames.tail at hother
      rw [hfirst] at hother
      cases hother
    · intro hphase'
      cases hphase'
    · intro hnone
      cases hnone
    · intro role' hrole'
      obtain rfl := Option.some.inj hrole'
      exact ⟨raw, [], world, hfirst, List.mem_append_right _ List.mem_cons_self, hrole⟩
  | @finished role i result world hphase =>
    have hlive : conn.phase.isLive = true := by rw [hphase]; rfl
    have hrole : conn.phase.role = some role := by rw [hphase]; rfl
    refine ⟨h.arrived, h.requests_eq, fun _ => h.wellFormed hlive, ?_, ?_, ?_⟩
    · intro hphase'
      cases hphase'
    · intro hnone
      cases hnone
    · intro role' hrole'
      obtain rfl := Option.some.inj hrole'
      exact (h.role role hrole).mono hsub rfl List.prefix_rfl

theorem AnswersFor.ends (h : AnswersFor transport serde inputs requests c conn)
    (hends : conn.Ends serde conn') :
    AnswersFor transport serde inputs requests c (conn'.inPhase (.closed conn'.phase.role)) := by
  cases hends with
  | asIs =>
    refine ⟨h.arrived, h.requests_eq, ?_, ?_, h.unasked, h.role⟩
    · intro hlive
      cases hlive
    · intro hphase
      cases hphase
  | @refused raw rest hphase hrecv =>
    obtain ⟨rfl, hframes⟩ := h.waiting hphase
    refine ⟨h.arrived_took hrecv, ?_, ?_, ?_, ?_, ?_⟩
    · show requests = serde.requestsIn (conn.frames ++ [raw]).tail
      rw [h.requests_eq, hframes]
      rfl
    · intro hlive
      cases hlive
    · intro hphase'
      cases hphase'
    · intro _
      exact h.unasked (by rw [hphase]; rfl)
    · intro role hrole
      change conn.phase.role = some role at hrole
      rw [hphase] at hrole
      cases hrole
  | @malformed raw rest role e hphase hrecv hvalue =>
    have hgrants := h.role role (by rw [hphase]; rfl)
    refine ⟨h.arrived_took hrecv, ?_, ?_, ?_, ?_, ?_⟩
    · show requests = serde.requestsIn (transport.dispatched (conn.frames ++ [raw]))
      rw [h.requests_eq, hgrants.dispatched_concat, Serde.requestsIn_concat, hvalue]
      exact (List.append_nil _).symm
    · intro hlive
      cases hlive
    · intro hphase'
      cases hphase'
    · intro hnone
      change conn.phase.role = none at hnone
      rw [hphase] at hnone
      cases hnone
    · intro role' hrole'
      exact (h.role role' hrole').mono (List.Subset.refl _) rfl (List.prefix_append _ _)

theorem AnswersFor.dispatch {value : Json}
    (h : AnswersFor transport serde inputs requests c conn) (hphase : conn.phase = .reading role)
    (hrecv : FramedStream.recv conn.unread = (.ok raw, rest)) (hvalue : serde.value raw = .ok value)
    (i : Nat) (prog : DaemonProg (Except HandlerError Unit)) :
    AnswersFor transport serde inputs (requests ++ [serde.request value]) c
      ((conn.took raw rest).inPhase (.handling role i prog)) := by
  have hlive : conn.phase.isLive = true := by rw [hphase]; rfl
  have hgrants := h.role role (by rw [hphase]; rfl)
  refine ⟨h.arrived_took hrecv, ?_, ?_, ?_, ?_, ?_⟩
  · show _ = serde.requestsIn (transport.dispatched (conn.frames ++ [raw]))
    rw [h.requests_eq, hgrants.dispatched_concat, Serde.requestsIn_concat, hvalue]
    rfl
  · intro _ other hother
    change other ∈ transport.dispatched (conn.frames ++ [raw]) at hother
    rw [hgrants.dispatched_concat] at hother
    rcases List.mem_append.mp hother with hother | hother
    · exact h.wellFormed hlive other hother
    · obtain rfl := List.mem_singleton.mp hother
      exact ⟨value, hvalue⟩
  · intro hphase'
    cases hphase'
  · intro hnone
    cases hnone
  · intro role' hrole'
    obtain rfl := Option.some.inj hrole'
    exact hgrants.mono (List.Subset.refl _) rfl (List.prefix_append _ _)

theorem AnswersFor.perform {i : Nat} {prog : DaemonProg (Except HandlerError Unit)}
    (h : AnswersFor transport serde inputs requests c conn) (hphase : conn.phase = .handling role i prog)
    (prog' : DaemonProg (Except HandlerError Unit)) (written : List UInt8) :
    AnswersFor transport serde inputs requests c
      { conn with phase := .handling role i prog', written } := by
  have hlive : conn.phase.isLive = true := by rw [hphase]; rfl
  have hgrants := h.role role (by rw [hphase]; rfl)
  refine ⟨h.arrived, h.requests_eq, fun _ => h.wellFormed hlive, ?_, ?_, ?_⟩
  · intro hphase'
    cases hphase'
  · intro hnone
    cases hnone
  · intro role' hrole'
    obtain rfl := Option.some.inj hrole'
    exact hgrants.mono (List.Subset.refl _) rfl List.prefix_rfl

/-- A connection of the new list is the one that was put there or an old one. -/
theorem Server.put_get {S : Server} {d : Nat} {other : Connection}
    (hc : S.connections[c]? = some conn) (h : (S.put c conn').connections[d]? = some other) :
    (d = c ∧ other = conn') ∨ (d ≠ c ∧ S.connections[d]? = some other) := by
  have hlt := (List.getElem?_eq_some_iff.mp hc).1
  unfold Server.put at h
  dsimp only at h
  by_cases hdc : d = c
  · subst hdc
    rw [List.getElem?_set_self hlt] at h
    exact Or.inl ⟨rfl, (Option.some.inj h).symm⟩
  · rw [List.getElem?_set_ne (Ne.symm hdc)] at h
    exact Or.inr ⟨hdc, h⟩

end Account

/-- Every connection answers for its requests, and there are no others. -/
structure Server.AllAnswer (transport : Transport) (serde : Serde) (inputs : List ServerInput)
    (S : Server) : Prop where
  known : ∀ r ∈ S.requests, r.1 < S.connections.length
  each : ∀ c conn, S.connections[c]? = some conn →
    AnswersFor transport serde inputs (requestsOf c S.requests) c conn

section Runs
variable {crypto : Crypto} {config : DaemonConfig} {serde : Serde} {transport : Transport}
  {before : List ServerInput} {S S' : Server} {x : ServerInput}

theorem Server.AllAnswer.put {c : Nat} {conn conn' : Connection}
    (h : S.AllAnswer transport serde before) (hc : S.connections[c]? = some conn)
    (hconn : AnswersFor transport serde (before ++ [x]) (requestsOf c S.requests) c conn') :
    (S.put c conn').AllAnswer transport serde (before ++ [x]) := by
  refine ⟨?_, ?_⟩
  · intro r hr
    unfold Server.put
    rw [List.length_set]
    exact h.known r hr
  · intro d other hd
    rcases Server.put_get hc hd with ⟨rfl, rfl⟩ | ⟨-, hold⟩
    · exact hconn
    · exact (h.each d other hold).mono (List.subset_append_left _ _)

theorem Server.AllAnswer.move (h : S.AllAnswer transport serde before)
    (hmove : S.Move crypto config serde transport x S') :
    S'.AllAnswer transport serde (before ++ [x]) := by
  have hsub : before ⊆ before ++ [x] := List.subset_append_left _ _
  cases hmove with
  | same => exact ⟨h.known, fun c conn hc => (h.each c conn hc).mono hsub⟩
  | stopped => exact ⟨h.known, fun c conn hc => (h.each c conn hc).mono hsub⟩
  | @admitted peer permits hpermits =>
    refine ⟨?_, ?_⟩
    · intro r hr
      rw [List.length_append]
      exact Nat.lt_add_right _ (h.known r hr)
    · intro d other hd
      rcases Nat.lt_or_ge d S.connections.length with hlt | hge
      · rw [List.getElem?_append_left hlt] at hd
        exact (h.each d other hd).mono hsub
      · rw [List.getElem?_append_right hge] at hd
        obtain rfl := List.mem_singleton.mp (List.mem_of_getElem? hd)
        have hnew : requestsOf d S.requests = [] := requestsOf_new fun r hr =>
          Nat.lt_of_lt_of_le (h.known r hr) hge
        show AnswersFor transport serde _ (requestsOf d S.requests) d _
        rw [hnew]
        exact .opening peer
  | @changed c conn conn' x hc hchanges => exact h.put hc ((h.each c conn hc).changes hchanges)
  | @closed c conn conn' x hc hidle hends =>
    have hput := h.put (x := x) hc ((h.each c conn hc).ends hends |>.mono hsub)
    exact ⟨hput.known, hput.each⟩
  | @dispatched c conn x raw rest role value hc hphase hrecv hvalue =>
    have hconn := (h.each c conn hc).dispatch hphase hrecv hvalue S.requests.length
      (handleRequest crypto config role (serde.request value))
    refine ⟨?_, ?_⟩
    · intro r hr
      unfold Server.dispatch Server.put
      rw [List.length_set]
      rcases List.mem_append.mp hr with hr | hr
      · exact h.known r hr
      · obtain rfl := List.mem_singleton.mp hr
        exact (List.getElem?_eq_some_iff.mp hc).1
    · intro d other hd
      rcases Server.put_get hc hd with ⟨rfl, rfl⟩ | ⟨hne, hold⟩
      · show AnswersFor transport serde _ (requestsOf d (S.requests ++ [(d, _)])) d _
        rw [requestsOf_concat_self]
        exact hconn.mono hsub
      · show AnswersFor transport serde _ (requestsOf d (S.requests ++ [(c, _)])) d _
        rw [requestsOf_concat_other (Ne.symm hne)]
        exact (h.each d other hold).mono hsub
  | @performed c conn role i world o k hc hphase =>
    have hput := h.put (x := .turn c world) hc (((h.each c conn hc).perform hphase
      (k (o.exec crypto config.audit world.outside S.db).1)
      (conn.written ++ world.bytes o)).mono hsub)
    exact ⟨hput.known, hput.each⟩

theorem Server.run_allAnswer (crypto : Crypto) (config : DaemonConfig) (serde : Serde)
    (transport : Transport) (inputs : List ServerInput) :
    (Server.run crypto config serde transport inputs).AllAnswer transport serde inputs := by
  apply Server.run_induction (I := fun inputs S => S.AllAnswer transport serde inputs)
  · refine ⟨?_, ?_⟩
    · intro r hr
      cases hr
    · intro c conn hc
      cases hc
  · intro before S x S' h hmove
    exact h.move hmove

/-! ## Roles are kept -/

theorem Server.put_role {c d : Nat} {conn conn' : Connection} {role : CallerRole}
    (hc : S.connections[c]? = some conn)
    (hkeeps : ∀ role, conn.phase.role = some role → conn'.phase.role = some role)
    (h : S.connections[d]?.bind (·.phase.role) = some role) :
    (S.put c conn').connections[d]?.bind (·.phase.role) = some role := by
  have hlt := (List.getElem?_eq_some_iff.mp hc).1
  unfold Server.put
  dsimp only
  by_cases hcd : c = d
  · subst hcd
    rw [List.getElem?_set_self hlt]
    rw [hc] at h
    exact hkeeps role h
  · rw [List.getElem?_set_ne hcd]
    exact h

/-- The role of a connection; one that has none yet runs nothing. -/
def Server.roleOf (S : Server) (c : Nat) : CallerRole :=
  (S.connections[c]?.bind (·.phase.role)).getD .observer

theorem Connection.Ends.phase_eq {conn conn' : Connection} (h : conn.Ends serde conn') :
    conn'.phase = conn.phase := by
  cases h <;> rfl

theorem Server.Move.role_kept {d : Nat} {role : CallerRole}
    (hmove : S.Move crypto config serde transport x S')
    (h : S.connections[d]?.bind (·.phase.role) = some role) :
    S'.connections[d]?.bind (·.phase.role) = some role := by
  cases hmove with
  | same => exact h
  | stopped => exact h
  | admitted hpermits =>
    obtain ⟨conn, hd, hrole⟩ := Option.bind_eq_some_iff.mp h
    dsimp only
    rw [List.getElem?_append_left (List.getElem?_eq_some_iff.mp hd).1]
    exact h
  | changed hc hchanges =>
    apply Server.put_role hc _ h
    intro role hrole
    cases hchanges with
    | arrived => exact hrole
    | hungUp => exact hrole
    | authenticated hphase =>
      rw [hphase] at hrole
      cases hrole
    | finished hphase =>
      rw [hphase] at hrole
      exact hrole
  | closed hc hidle hends =>
    apply Server.put_role hc _ h
    intro role hrole
    rw [← hends.phase_eq] at hrole
    exact hrole
  | dispatched hc hphase =>
    apply Server.put_role hc _ h
    intro role hrole
    rw [hphase] at hrole
    exact hrole
  | performed hc hphase =>
    apply Server.put_role hc _ h
    intro role hrole
    rw [hphase] at hrole
    exact hrole

theorem Server.roleOf_of_prefix {inputs : List ServerInput} {c : Nat} {conn : Connection}
    {role : CallerRole} (hpart : before <+: inputs)
    (hc : (Server.run crypto config serde transport before).connections[c]? = some conn)
    (hrole : conn.phase.role = some role) :
    (Server.run crypto config serde transport inputs).roleOf c = role := by
  obtain ⟨rest, rfl⟩ := hpart
  have hkept : (Server.run crypto config serde transport (before ++ rest)).connections[c]?.bind
      (·.phase.role) = some role := by
    induction rest using List.reverseRecOn with
    | nil =>
      rw [List.append_nil, hc]
      exact hrole
    | append_singleton rest x ih =>
      rw [← List.append_assoc, Server.run_concat]
      exact (Server.step_move _ x).role_kept ih
  rw [Server.roleOf, hkept]
  rfl

end Runs

/-- Never more than sixteen connections, and each has been asked exactly what has arrived
on it: its frames, in order, and nothing twice. -/
theorem server_requests_arrived (crypto : Crypto) (config : DaemonConfig) (serde : Serde)
    (transport : Transport) (inputs : List ServerInput) :
    let S := Server.run crypto config serde transport inputs
    S.permits + S.live = maxConnections ∧
      ∀ c conn, S.connections[c]? = some conn →
        conn.arrived = conn.frames.flatMap u32Le.frame ++ conn.unread.flatten ∧
          requestsOf c S.requests = serde.requestsIn (transport.dispatched conn.frames) ∧
          (conn.phase.isLive = true → (requestsOf c S.requests).length =
            (transport.dispatched conn.frames).length) := by
  intro S
  refine ⟨Server.permits_live inputs, ?_⟩
  intro c conn hc
  have h := (Server.run_allAnswer crypto config serde transport inputs).each c conn hc
  refine ⟨h.arrived, h.requests_eq, ?_⟩
  intro hlive
  rw [h.requests_eq]
  have hall := h.wellFormed hlive
  generalize transport.dispatched conn.frames = frames at hall ⊢
  induction frames with
  | nil => rfl
  | cons raw rest ih =>
    obtain ⟨value, hvalue⟩ := hall raw List.mem_cons_self
    have hrest := ih fun other hother => hall other (List.mem_cons_of_mem _ hother)
    unfold Serde.requestsIn at hrest ⊢
    rw [List.filterMap_cons, hvalue]
    exact congrArg (· + 1) hrest

end Sysknife
