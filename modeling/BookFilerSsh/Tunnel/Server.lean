import BookFilerSsh.Tunnel.Listener
import BookFilerSsh.Lib.Machine

/-!
# The tunnel server

`TunnelServerImpl::run` starts the accept loop as a coroutine on a pool of `T`
threads. A state of the server is what the accept loop works on, the position of
the accept loop, and for every thread the coroutines on its stack: the top one
runs, the one below it has started it inline. An action is the next statement of
the coroutine on top of some thread, the end of the blocking call it is in, the
resumption of a ready coroutine on an idle thread, or something that happens
outside: a client arrives, an `async_accept`, `async_read_some` or `async_write`
completes. Any action that is enabled may come next.

The pumps run by the steps of `Tunnel.Connection`, and the accept loop calls the
stages of `ClientImpl::connect`, `tunnel` and the destructor of `Client.Setup`. An
exception that leaves the accept loop, and the destruction of a joinable
`threadIo`, terminate the process: no action is enabled any more.

Every byte carries the socket or channel it was read from, and `history` records
which iteration created a client and which client opened a channel. No step looks
at either.
-/

set_option autoImplicit false

namespace BookFilerSsh

/-- Where a byte entered the server. -/
inductive Origin where
  /-- read from the `i`-th accepted socket -/
  | socket (i : ℕ)
  /-- read from a channel -/
  | channel (channel : ChannelId)
  deriving DecidableEq, Repr

/-- A byte together with its origin. -/
structure TaggedByte where
  value : UInt8
  origin : Origin
  deriving DecidableEq, Repr

/-- The position of `ListenerImpl::run`. `i` is the connection and `c` the client
of the iteration. -/
inductive ListenerPc where
  /-- queued by `boost::asio::spawn`, not started -/
  | spawned
  /-- opening, binding and listening on the acceptor -/
  | binding
  /-- one of these failed -/
  | unbound
  /-- before `async_accept` -/
  | loopTop
  /-- parked in `async_accept` -/
  | accepting
  /-- `async_accept` completed, not resumed yet -/
  | accepted (ec : Bool)
  | resumed (ec : Bool)
  | published (i : ℕ)
  | identified (i : ℕ)
  /-- in `ConnectSocket` -/
  | connecting (i c : ℕ)
  /-- in `CreateSSHSession` -/
  | creating (i c : ℕ)
  /-- in `libssh2_session_handshake` -/
  | handshaking (i c : ℕ)
  /-- in `libssh2_userauth_password` -/
  | authenticating (i c : ℕ)
  /-- in `libssh2_channel_direct_tcpip_ex` -/
  | opening (i c : ℕ)
  /-- in the destructor of a client whose set-up failed -/
  | dropping (i c : ℕ)
  | tunnelled (i c : ℕ)
  | clientSet (i : ℕ)
  /-- back from spawning `runPull` -/
  | pullSpawned (i : ℕ)
  | returned
  deriving DecidableEq, Repr

/-- What happened in the iterations of the accept loop. -/
inductive ServerEvent where
  /-- The iteration of the `i`-th accepted connection created client `c`. -/
  | created (i c : ℕ)
  /-- Client `c` opened a channel. -/
  | opened (c : ℕ) (channel : ChannelId)
  deriving DecidableEq, Repr

/-- A state of the tunnel server on `T` threads. -/
structure Server (T : ℕ) extends ListenerState TaggedByte where
  listener : ListenerPc := .spawned
  /-- clients that reached the acceptor and were not accepted yet -/
  backlog : ℕ := 0
  threads : Fin T → List Coro := fun _ => []
  terminated : Bool := false
  history : List ServerEvent := []

/-- How a blocking call of the accept loop ends. -/
inductive SetupAnswer where
  | bound (ok : Bool)
  | socket (outcome : SocketOutcome)
  | session (created : Bool)
  | handshake (rc : Int)
  | auth (rc : Int)
  | channel (opened : Bool)
  | dropped (results : ReleaseResults)
  deriving DecidableEq, Repr

/-- An action of the server or of its surroundings. -/
inductive ServerAction (T : ℕ) where
  | run (t : Fin T)
  | resume (t : Fin T) (coro : Coro)
  | setupDone (t : Fin T) (answer : SetupAnswer)
  | readDone (t : Fin T) (result : ReadResult UInt8)
  | writeDone (t : Fin T) (result : Int)
  | clientArrives
  | acceptDone (ec : Bool)
  | localRead (i : ℕ) (completion : SrcReadEnd UInt8)
  | localWritten (i : ℕ) (ec : Bool)

namespace Server

variable {T : ℕ}

def setListener (s : Server T) (pc : ListenerPc) : Server T := { s with listener := pc }

/-- A change of what the accept loop works on. -/
def onState (s : Server T) (f : ListenerState TaggedByte → ListenerState TaggedByte) :
    Server T :=
  { s with toListenerState := f s.toListenerState }

def record (s : Server T) (event : ServerEvent) : Server T :=
  { s with history := s.history ++ [event] }

def setStack (s : Server T) (t : Fin T) (stack : List Coro) : Server T :=
  { s with threads := Function.update s.threads t stack }

/-- An exception has left a pool thread, or a joinable thread was destroyed. -/
def terminate (s : Server T) : Server T := { s with terminated := true }

/-! ## The pumps -/

/-- The channel the client of the `i`-th connection opened. -/
def channelOf (s : Server T) (i : ℕ) : Option ChannelId := do
  let conn ← s.connectionList[i]?
  let c ← conn.sshClient
  let client ← s.clients[c]?
  client.commandChannel

/-- What the pumps of the `i`-th connection work on. -/
def link (s : Server T) (i : ℕ) : Option (Link TaggedByte) := do
  let conn ← s.connectionList[i]?
  let c ← conn.sshClient
  let client ← s.clients[c]?
  let channel ← client.commandChannel
  let record ← s.lib.channels[channel]?
  return ⟨conn, client, record⟩

/-- What a step of a pump of the `i`-th connection left. -/
def setLink (s : Server T) (i : ℕ) (link : Link TaggedByte) : Server T :=
  s.onState fun state =>
    { state with
      connectionList := state.connectionList.set i link.conn
      clients :=
        match link.conn.sshClient with
        | some c => state.clients.set c link.client
        | none => state.clients
      lib :=
        match link.client.commandChannel with
        | some channel => { state.lib with channels := state.lib.channels.set channel link.channel }
        | none => state.lib }

/-- An action on the `i`-th connection that keeps its thread. -/
def onLink (s : Server T) (i : ℕ) (f : Link TaggedByte → Option (Link TaggedByte)) :
    Option (Server T) := do
  let link ← s.link i
  let next ← f link
  return s.setLink i next

/-- A statement of a pump of the `i`-th connection. -/
def pumpStep (s : Server T) (i : ℕ)
    (f : Link TaggedByte → Option (Link TaggedByte × Effect)) : Option (Server T × Effect) := do
  let link ← s.link i
  let next ← f link
  return (s.setLink i next.1, next.2)

/-! ## The accept loop -/

/-- The next statement of `ListenerImpl::run`. -/
def listenerStep (mode : SpawnMode) (s : Server T) : Option (Server T × Effect) :=
  match s.listener with
  | .unbound => some (s.setListener .returned, .finishes)
  | .loopTop => some (s.setListener .accepting, .parks)
  | .resumed ec =>
      if ec then some (s.setListener .loopTop, .stays)
      else
        some ((s.onState .publish).setListener (.published s.connectionList.length), .stays)
  | .published i => some ((s.onState (.setId · i)).setListener (.identified i), .stays)
  | .identified i =>
      some (((s.onState .makeClient).record (.created i s.clients.length)).setListener
        (.connecting i s.clients.length), .stays)
  | .tunnelled i c => some ((s.onState (.setSshClient · i c)).setListener (.clientSet i), .stays)
  | .clientSet i =>
      some ((s.onState (.spawnPull · mode i)).setListener (.pullSpawned i), .spawns (.pull i))
  | .pullSpawned i =>
      some ((s.onState (.spawnPush · mode i)).setListener .loopTop, .spawns (.push i))
  | _ => none

/-- A call on the `c`-th client; a fault terminates the process. -/
def onClient {α : Type} (s : Server T) (c : ℕ) (call : ClientM TaggedByte α)
    (next : α → Server T → Server T) : Option (Server T) := do
  let ctx ← s.ctx c
  match call ctx with
  | .ok a after => return next a (s.onState (.setCtx · c after))
  | .error _ after => return (s.onState (.setCtx · c after)).terminate

/-- The end of the blocking call the accept loop is in. -/
def listenerReturn (s : Server T) (answer : SetupAnswer) : Option (Server T) :=
  match s.listener, answer with
  | .binding, .bound ok => some (s.setListener (if ok then .loopTop else .unbound))
  | .connecting i c, .socket outcome =>
      s.onClient c (ClientImpl.connectSocket outcome) fun _ s => s.setListener (.creating i c)
  | .creating i c, .session created =>
      s.onClient c (ClientImpl.createSSHSession created) fun _ s =>
        s.setListener (.handshaking i c)
  | .handshaking i c, .handshake rc =>
      if rc ≠ 0 then
        s.onClient c (ClientImpl.sessionCall rc) fun _ s => s.setListener (.dropping i c)
      else
        s.onClient c (do let _ ← ClientImpl.sessionCall rc; ClientImpl.startThreadIo) fun _ s =>
          s.setListener (.authenticating i c)
  | .authenticating i c, .auth rc =>
      s.onClient c (ClientImpl.sessionCall rc) fun _ s =>
        s.setListener (if rc ≠ 0 then .dropping i c else .opening i c)
  | .opening i c, .channel opened =>
      s.onClient c (ClientImpl.tunnel opened) fun rc after =>
        if rc < 0 then after.setListener (.dropping i c)
        else (after.record (.opened c s.lib.channels.length)).setListener (.tunnelled i c)
  | .dropping _ c, .dropped results =>
      s.onClient c (ClientImpl.destruct results) fun _ s => s.setListener .loopTop
  | _, _ => none

/-! ## Threads -/

/-- The next statement of a coroutine. -/
def coroStep (mode : SpawnMode) (s : Server T) : Coro → Option (Server T × Effect)
  | .listener => s.listenerStep mode
  | .pull i => s.pumpStep i Link.pullStep
  | .push i => s.pumpStep i Link.pushStep

/-- A ready coroutine is taken up. -/
def coroResume (s : Server T) : Coro → Option (Server T)
  | .listener =>
      match s.listener with
      | .spawned => some (s.setListener .binding)
      | .accepted ec => some (s.setListener (.resumed ec))
      | _ => none
  | .pull i => s.onLink i Link.pullResume
  | .push i => s.onLink i Link.pushResume

/-- The thread gives the coroutine on its top up, or starts a new one above it. -/
def applyEffect (mode : SpawnMode) (s : Server T) (t : Fin T) : Effect → Server T
  | .stays => s
  | .parks | .finishes => s.setStack t (s.threads t).tail
  | .spawns coro =>
      match mode with
      | .inline => s.setStack t (coro :: s.threads t)
      | .posted => s

/-- One step of the server. -/
def step (mode : SpawnMode) (s : Server T) (action : ServerAction T) : Option (Server T) :=
  if s.terminated then none
  else
    match action with
    | .run t => do
        let coro ← (s.threads t).head?
        let next ← s.coroStep mode coro
        return next.1.applyEffect mode t next.2
    | .resume t coro =>
        if s.threads t = [] then do
          let next ← s.coroResume coro
          return next.setStack t [coro]
        else none
    | .setupDone t answer =>
        match (s.threads t).head? with
        | some .listener => s.listenerReturn answer
        | _ => none
    | .readDone t result =>
        match (s.threads t).head? with
        | some (.pull i) => do
            let channel ← s.channelOf i
            s.onLink i (Link.pullReturn · (result.map fun byte => ⟨byte, .channel channel⟩))
        | _ => none
    | .writeDone t result =>
        match (s.threads t).head? with
        | some (.push i) => s.onLink i (Link.pushReturn · result)
        | _ => none
    | .clientArrives => some { s with backlog := s.backlog + 1 }
    | .acceptDone ec =>
        match s.listener with
        | .accepting =>
            if ec then some (s.setListener (.accepted true))
            else if s.backlog = 0 then none
            else some { s.setListener (.accepted false) with backlog := s.backlog - 1 }
        | _ => none
    | .localRead i completion =>
        s.onLink i (Link.pushWake · (completion.map fun byte => ⟨byte, .socket i⟩))
    | .localWritten i ec => s.onLink i (Link.pullWake · ec)

end Server

/-- The tunnel server on `T` threads, which gives every client the same values. -/
def serverMachine (T : ℕ) (mode : SpawnMode) (clientState : ClientState) :
    Lib.Machine (Server T) (ServerAction T) where
  init := { clientState := clientState }
  step := Server.step mode

/-- The server starts, and thread `t` accepts a client, sets it up without an error and
spawns its coroutines. -/
def acceptsOne {T : ℕ} (t : Fin T) : List (ServerAction T) :=
  [.resume t .listener, .setupDone t (.bound true), .run t, .clientArrives, .acceptDone false,
    .resume t .listener, .run t, .run t, .run t, .setupDone t (.socket .connected),
    .setupDone t (.session true), .setupDone t (.handshake 0), .setupDone t (.auth 0),
    .setupDone t (.channel true), .run t, .run t, .run t, .run t]

/-- The thread of a server that has one. -/
def onlyThread : Fin 1 := Fin.last 0

end BookFilerSsh
