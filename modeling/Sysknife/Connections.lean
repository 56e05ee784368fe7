import Sysknife.CallerRoles
import Sysknife.Client
import Sysknife.Daemon
import Sysknife.Wire

/-!
# The daemon's connections

What the daemon does with the bytes of its peers: who is let in and in which
role, when a frame is complete, which requests it holds, and what is written
back. The peers, the scheduler and the world outside the handlers come as
inputs in any order.
-/

namespace Sysknife

open Framing Interaction

/-! ## Requests on the wire -/

/-- The readers serde derives, and its complaint about a value that is no request. -/
structure Serde where
  /-- `serde_json::from_slice` -/
  value : List UInt8 → Except String Json
  /-- `serde_json::from_slice::<AuthFrame>`: its `type` and its `token` -/
  authFrame : List UInt8 → Option (String × String)
  requestError : Json → String

/-- The tag of an internally tagged enum and what is left for its variant: an
object without the tag's key, or an array behind the tag. -/
def taggedContent (key : String) : Json → Option (String × Json)
  | .object members =>
    match members.lookup key with
    | some (.string tag) => some (tag, .object (members.filter fun m => m.1 != key))
    | _ => none
  | .array (.string tag :: rest) => some (tag, .array rest)
  | _ => none

/-- The fields of a request on an action. -/
def actionFields (content : Json) : Option (String × String × Json) :=
  match structFields [("request_id", false), ("action_name", false), ("params", false)] content with
  | some [requestId, actionName, params] => do
    return (← requestId.asStr, ← actionName.asStr, params)
  | _ => none

/-- `serde_json::from_value::<DaemonRequest>`. -/
def DaemonRequest.decode (value : Json) : Option DaemonRequest := do
  let (tag, content) ← taggedContent "type" value
  match tag with
  | "query_state" =>
    match structFields [("request_id", false)] content with
    | some [requestId] => return .queryState (← requestId.asStr)
    | _ => none
  | "preview" =>
    let (requestId, actionName, params) ← actionFields content
    return .preview requestId actionName params
  | "execute" =>
    match structFields [("request_id", false), ("action_name", false), ("params", false),
        ("approval_hash", false)] content with
    | some [requestId, actionName, params, approvalHash] =>
      return .execute (← requestId.asStr) (← actionName.asStr) params (← approvalHash.asStr)
    | _ => none
  | "cancel" =>
    match structFields [("job_id", false)] content with
    | some [jobId] => return .cancel (← jobId.asStr)
    | _ => none
  | "query_action" =>
    let (requestId, actionName, params) ← actionFields content
    return .queryAction requestId actionName params
  | "describe" =>
    let (requestId, actionName, params) ← actionFields content
    return .describe requestId actionName params
  | _ => none

/-- What `dispatch_loop` makes of a parsed frame. -/
def Serde.request (serde : Serde) (value : Json) : DaemonRequest :=
  (DaemonRequest.decode value).getD (.unknown (serde.requestError value))

/-! ## Token authentication -/

/-- `SYSKNIFE_TOKEN_ROLE`; `none` where it is not set or no text. -/
def tokenRole (roleVar : Option String) : CallerRole :=
  match String.ofList ((roleVar.getD "").toList.map Char.toLower) with
  | "observer" => .observer
  | "admin" => .admin
  | "boot" => .boot
  | _ => .dev

/-- The token file and the environment at the time of an attempt. -/
structure TokenWorld where
  file : Option (List UInt8)
  roleVar : Option String

def validateTokenAgainstFile (presentedToken : String) (world : TokenWorld) : Option CallerRole :=
  if presentedToken.isEmpty then none
  else match readToString world.file with
    | none => none
    | some content =>
      let stored := String.ofList (trim content)
      if stored.isEmpty then none
      else if (utf8 stored).length ≠ (utf8 presentedToken).length then none
      else if utf8 stored ≠ utf8 presentedToken then none
      else some (tokenRole world.roleVar)

/-- `authenticate_vsock_token`, once the first frame is there. -/
def authenticate (serde : Serde) (world : TokenWorld) (raw : List UInt8) : Option CallerRole :=
  match serde.authFrame raw with
  | none => none
  | some (msgType, token) =>
    if msgType ≠ "auth" then none else validateTokenAgainstFile token world

/-! ## The state -/

/-- The two kinds of `ListenTarget`. -/
inductive Transport where
  | unix | vsock
  deriving DecidableEq

def maxConnections : Nat := 16

/-- Where the task of a connection is. A handler runs in a role, and has a
number among all requests. -/
inductive Phase where
  | authenticating
  | reading (role : CallerRole)
  | handling (role : CallerRole) (request : Nat) (prog : DaemonProg (Except HandlerError Unit))
  | closed (role : Option CallerRole)

def Phase.role : Phase → Option CallerRole
  | .authenticating => none
  | .reading role => some role
  | .handling role .. => some role
  | .closed role => role

def Phase.isLive : Phase → Bool
  | .closed _ => false
  | _ => true

/-- What the kernel and the files say about a new peer. -/
structure Incoming where
  peerCred : Except String PeerCred
  groupFile : Option (List UInt8)
  procStatus : Nat → Option (List UInt8)

def Incoming.role (peer : Incoming) : CallerRole :=
  resolveCallerRole peer.peerCred peer.groupFile peer.procStatus

/-- Where a new connection starts: a unix peer has its role, a vsock peer has to
show its token. -/
def Transport.opening (transport : Transport) (peer : Incoming) : Phase :=
  match transport with
  | .unix => .reading peer.role
  | .vsock => .authenticating

structure Connection where
  peer : Incoming
  phase : Phase
  /-- What has arrived and is not read yet. -/
  unread : Chunks UInt8 := []
  hungUp : Bool := false
  /-- The bytes the peer has been sent. -/
  written : List UInt8 := []
  /-- Everything that has arrived. -/
  arrived : List UInt8 := []
  /-- The frames that were read, in order. -/
  frames : List (List UInt8) := []

structure Server where
  db : Db
  connections : List Connection
  /-- What is left of the semaphore. -/
  permits : Nat
  running : Bool
  /-- Every request so far, with its connection. -/
  requests : List (Nat × DaemonRequest)
  log : List DaemonEntry

def Server.start : Server where
  db := .empty
  connections := []
  permits := maxConnections
  running := true
  requests := []
  log := []

/-! ## Inputs -/

/-- The kinds of `io::Error` that `classify_accept_error` tells apart. -/
inductive AcceptError where
  | connectionAborted | connectionReset | other
  deriving DecidableEq

inductive AcceptErrorAction where
  | logTransient | breakFatal
  deriving DecidableEq

def classifyAcceptError : AcceptError → AcceptErrorAction
  | .connectionAborted | .connectionReset => .logTransient
  | .other => .breakFatal

/-- The world at one turn of a connection's task. A write may fail after some
of its bytes. -/
structure TaskTurn where
  daemon : DaemonEnv
  write : Except (Nat × String) Unit
  token : TokenWorld

inductive ServerInput where
  | accept (peer : Incoming)
  | acceptFailed (error : AcceptError)
  | ctrlC
  | arrive (connection : Nat) (chunk : List UInt8)
  | hangUp (connection : Nat)
  /-- The timeout of the authentication frame. -/
  | authTimeout (connection : Nat)
  | turn (connection : Nat) (world : TaskTurn)

/-! ## Writing -/

/-- `FramedStream::send` of a response: its result, and the bytes that went out. -/
def sendResult (response : DaemonResponse) (write : Except (Nat × String) Unit) :
    Except FramingError Unit × List UInt8 :=
  match FramedStream.send response.encode with
  | .error e => (.error e, [])
  | .ok bytes =>
    match write with
    | .ok () => (.ok (), bytes)
    | .error (taken, message) => (.error (.io message), bytes.take taken)

/-- The world a handler meets: sends go to the socket. -/
def TaskTurn.outside (world : TaskTurn) : DaemonEnv where
  store := world.daemon.store
  answer
    | .send response => (sendResult response world.write).1
    | o => world.daemon.answer o

def TaskTurn.bytes (world : TaskTurn) : DaemonOp → List UInt8
  | .send response => (sendResult response world.write).2
  | _ => []

/-! ## Steps -/

def Connection.inPhase (conn : Connection) (phase : Phase) : Connection := { conn with phase }

/-- The connection once a frame has been read off it. -/
def Connection.took (conn : Connection) (raw : List UInt8) (rest : Chunks UInt8) : Connection :=
  { conn with unread := rest, frames := conn.frames ++ [raw] }

namespace Server

def put (S : Server) (c : Nat) (conn : Connection) : Server :=
  { S with connections := S.connections.set c conn }

/-- The handler of the connection returns and its permit is dropped. -/
def close (S : Server) (c : Nat) (conn : Connection) : Server :=
  { S.put c (conn.inPhase (.closed conn.phase.role)) with permits := S.permits + 1 }

/-- A new connection takes a permit or is dropped. -/
def welcome (S : Server) (transport : Transport) (peer : Incoming) : Server :=
  match S.permits with
  | 0 => S
  | permits + 1 =>
    { S with connections := S.connections ++ [{ peer, phase := transport.opening peer }], permits }

section Steps
variable (crypto : Crypto) (config : DaemonConfig) (serde : Serde)

/-- A request goes to its handler. -/
def dispatch (S : Server) (c : Nat) (conn : Connection) (role : CallerRole)
    (request : DaemonRequest) : Server :=
  { S.put c (conn.inPhase (.handling role S.requests.length
      (handleRequest crypto config role request))) with
    requests := S.requests ++ [(c, request)] }

/-- One operation of a handler. -/
def perform (S : Server) (c : Nat) (conn : Connection) (role : CallerRole) (request : Nat)
    (world : TaskTurn) (o : DaemonOp) (k : o.Answer → DaemonProg (Except HandlerError Unit)) : Server :=
  let out := o.exec crypto config.audit world.outside S.db
  { S.put c { conn with
      phase := .handling role request (k out.1)
      written := conn.written ++ world.bytes o } with
    db := out.2
    log := S.log ++ [⟨request, world.outside, o, out.1⟩] }

/-- One turn of a connection's task: `authenticate_vsock_token`, then the loop
of `dispatch_loop`. A read waits until its frame is there or the peer is gone. -/
def takeTurn (S : Server) (c : Nat) (conn : Connection) (world : TaskTurn) : Server :=
  match conn.phase with
  | .closed _ => S
  | .authenticating =>
    match FramedStream.recv conn.unread with
    | (.error (.io _), _) => if conn.hungUp then S.close c conn else S
    | (.error (.messageTooLarge _), _) => S.close c conn
    | (.ok raw, rest) =>
      match authenticate serde world.token raw with
      | none => S.close c (conn.took raw rest)
      | some role => S.put c ((conn.took raw rest).inPhase (.reading role))
  | .reading role =>
    match FramedStream.recv conn.unread with
    | (.error (.io _), _) => if conn.hungUp then S.close c conn else S
    | (.error (.messageTooLarge _), _) => S.close c conn
    | (.ok raw, rest) =>
      match serde.value raw with
      | .error _ => S.close c (conn.took raw rest)
      | .ok value => S.dispatch crypto config c (conn.took raw rest) role (serde.request value)
  -- a handler's error is only logged
  | .handling role _ (.ret _) => S.put c (conn.inPhase (.reading role))
  | .handling role request (.op o k) => S.perform crypto config c conn role request world o k

/-- Do something with a connection, if there is one with this number. -/
def on (S : Server) (c : Nat) (f : Connection → Server) : Server :=
  match S.connections[c]? with
  | none => S
  | some conn => f conn

def step (transport : Transport) (S : Server) (input : ServerInput) : Server :=
  if !S.running then S
  else match input with
    | .accept peer => S.welcome transport peer
    | .acceptFailed error =>
      match classifyAcceptError error with
      | .logTransient => S
      | .breakFatal => { S with running := false }
    | .ctrlC => { S with running := false }
    | .arrive c chunk => S.on c fun conn =>
      if conn.hungUp then S
      else S.put c { conn with
        unread := conn.unread ++ [chunk], arrived := conn.arrived ++ chunk }
    | .hangUp c => S.on c fun conn => S.put c { conn with hungUp := true }
    | .authTimeout c => S.on c fun conn =>
      match conn.phase with
      | .authenticating => S.close c conn
      | _ => S
    | .turn c world => S.on c fun conn => S.takeTurn crypto config serde c conn world

def run (transport : Transport) (inputs : List ServerInput) : Server :=
  inputs.foldl (step crypto config serde transport) .start

end Steps

end Server

end Sysknife
