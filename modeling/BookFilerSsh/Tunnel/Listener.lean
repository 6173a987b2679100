import BookFilerSsh.Client.Setup
import BookFilerSsh.Lib.Effects
import BookFilerSsh.Tunnel.Connection

/-!
# The accept loop of the tunnel server

One iteration of the loop of `ssh::ListenerImpl::run` publishes the accepted
connection, sets a client up for it and either hands the client to the connection
and spawns the pumps, or drops the client and goes on. Nothing in the loop or
above it catches an exception, so one that leaves `connect` leaves the coroutine
and the pool thread that runs it, and the process terminates. So it does when a
client is dropped whose `threadIo` was started, since no code joins that thread.

`reachesAccept_iff` says which outcomes the loop survives: those that end
before `threadIo` is started without an exception, and complete success.
-/

set_option autoImplicit false

namespace BookFilerSsh

variable {β : Type}

/-- The results of the calls made in one iteration of the accept loop. The
releasing calls are made when the client is dropped. -/
structure SetupResults where
  connect : ConnectResults
  tunnel : Bool
  release : ReleaseResults := {}
  deriving DecidableEq, Repr

/-- What the accept loop works on: `serverState->connectionList`, every client it
created, and the values it gives a client. -/
structure ListenerState (β : Type) where
  clientState : ClientState := {}
  connectionList : List (ConnectionImpl β) := []
  clients : List (ClientImpl β) := []
  lib : Libssh2 β := {}
  connectionIdIncrement : UInt32 := 0

namespace ListenerState

/-- The set-up of a fresh client; the result says whether the loop goes on to
spawn the pumps. -/
def setUp (results : SetupResults) : ClientM β Bool := do
  let rc ← ClientImpl.connect results.connect
  if rc < 0 then return false
  let rc ← ClientImpl.tunnel results.tunnel
  if rc < 0 then return false
  return true

/-- The accepted socket is moved into a connection, which is published. -/
def publish (server : ListenerState β) : ListenerState β :=
  { server with
    connectionIdIncrement := server.connectionIdIncrement + 1
    connectionList := server.connectionList ++ [{}] }

/-- An assignment to the `i`-th connection. -/
def setConn (server : ListenerState β) (i : ℕ) (f : ConnectionImpl β → ConnectionImpl β) :
    ListenerState β :=
  { server with connectionList := server.connectionList.modify i f }

/-- `conn->setId(connectionIdIncrement)`. -/
def setId (server : ListenerState β) (i : ℕ) : ListenerState β :=
  server.setConn i fun conn => { conn with connId := some server.connectionIdIncrement }

/-- `std::make_shared<ClientImpl>(map_)`. -/
def makeClient (server : ListenerState β) : ListenerState β :=
  { server with clients := server.clients ++ [{ clientState := server.clientState }] }

/-- The `c`-th client together with the library. -/
def ctx (server : ListenerState β) (c : ℕ) : Option (Ctx β) :=
  server.clients[c]?.map fun client => ⟨server.lib, client⟩

/-- What a call on the `c`-th client left. -/
def setCtx (server : ListenerState β) (c : ℕ) (ctx : Ctx β) : ListenerState β :=
  { server with clients := server.clients.set c ctx.client, lib := ctx.lib }

/-- `conn->setSshClient(sshClient)`. -/
def setSshClient (server : ListenerState β) (i c : ℕ) : ListenerState β :=
  server.setConn i fun conn => { conn with sshClient := some c }

/-- `boost::asio::spawn` of `runPull`. -/
def spawnPull (server : ListenerState β) (mode : SpawnMode) (i : ℕ) : ListenerState β :=
  server.setConn i fun conn => { conn with pull := Link.pullStart mode }

/-- `boost::asio::spawn` of `runPush`. -/
def spawnPush (server : ListenerState β) (mode : SpawnMode) (i : ℕ) : ListenerState β :=
  server.setConn i fun conn => { conn with push := Link.pushStart mode }

/-- One iteration of the accept loop, after a successful `async_accept`, with the
pumps queued. It ends at the next `async_accept` or in the fault that terminates
the process. -/
def acceptIteration (server : ListenerState β) (results : SetupResults) :
    Except Fault (ListenerState β) :=
  let i := server.connectionList.length
  let c := server.clients.length
  let server := (server.publish.setId i).makeClient
  match setUp results ⟨server.lib, { clientState := server.clientState }⟩ with
  | .ok true ctx =>
      .ok ((((server.setCtx c ctx).setSshClient i c).spawnPull .posted i).spawnPush .posted i)
  | .ok false ctx =>
      match ClientImpl.destruct results.release ctx with
      | .ok _ ctx => .ok (server.setCtx c ctx)
      | .error fault _ => .error fault
  | .error fault _ => .error fault

/-- `ListenerImpl::run`, for a sequence of accepted connections. -/
def acceptLoop (server : ListenerState β) (results : List SetupResults) :
    Except Fault (ListenerState β) :=
  results.foldlM acceptIteration server

end ListenerState

/-- The socket connects, a session is created, and either the handshake fails or
authentication and the opening of the channel succeed. -/
def SetupResults.Survivable (results : SetupResults) : Prop :=
  results.connect.socket = .connected ∧ results.connect.sessionCreated = true ∧
    (results.connect.handshake ≠ 0 ∨ (results.connect.auth = 0 ∧ results.tunnel = true))

instance (results : SetupResults) : Decidable results.Survivable :=
  inferInstanceAs (Decidable (_ ∧ _ ∧ _))

namespace ListenerState

/-- The accept loop reaches its next `async_accept`. -/
def ReachesAccept (server : ListenerState β) (results : List SetupResults) : Prop :=
  (server.acceptLoop results).isOk

open Lib.Effects

/-- A set-up that gets a session, on a client that started no thread before. -/
theorem setUp_session {ctx : Ctx β} (noThread : ctx.holdsThread = false) (handshake auth : Int)
    (opened : Bool) (release : ReleaseResults) :
    setUp ⟨⟨.connected, true, handshake, auth⟩, opened, release⟩ ctx =
      let reached := ctx.openSocket.openSession.useSession
      let started := reached.startThreadIo.useSession
      if handshake ≠ 0 then .ok false reached
      else if auth ≠ 0 then .ok false started
      else .ok opened (started.openCommandChannel opened) := by
  simp only [setUp, run_bind, ClientImpl.connect_session, noThread]
  by_cases failed : handshake = 0
  · by_cases refused : auth = 0
    · cases opened <;>
        simp [failed, refused, run_bind, run_pure, ClientImpl.tunnel_run, Ctx.openCommandChannel,
          Ctx.useSession, Ctx.startThreadIo, Ctx.openSession]
    · simp [failed, refused, run_pure]
  · simp [failed, run_pure]

/-- A set-up that throws. -/
theorem setUp_throws (ctx : Ctx β) {results : SetupResults}
    (throws : ¬ (results.connect.socket = .connected ∧ results.connect.sessionCreated = true)) :
    ∃ fault after, setUp results ctx = .error fault after := by
  obtain ⟨⟨socket, created, handshake, auth⟩, opened, release⟩ := results
  cases socket with
  | resolveThrows => exact ⟨_, _, rfl⟩
  | connectThrows => exact ⟨_, _, rfl⟩
  | connected =>
      cases created with
      | false => exact ⟨_, _, rfl⟩
      | true => exact absurd ⟨rfl, rfl⟩ throws

/-- **One iteration survives exactly the survivable outcomes.** -/
theorem acceptIteration_isOk_iff (server : ListenerState β) (results : SetupResults) :
    (server.acceptIteration results).isOk ↔ results.Survivable := by
  by_cases session : results.connect.socket = .connected ∧ results.connect.sessionCreated = true
  · obtain ⟨⟨socket, created, handshake, auth⟩, opened, release⟩ := results
    obtain ⟨rfl, rfl⟩ := session
    simp only [acceptIteration]
    rw [setUp_session rfl]
    by_cases failed : handshake = 0 <;> by_cases refused : auth = 0 <;> cases opened <;>
      simp [failed, refused, SetupResults.Survivable, ClientImpl.destruct_run, Ctx.holdsThread,
        Ctx.openSocket, Ctx.openSession, Ctx.useSession, Ctx.startThreadIo, Except.isOk,
        Except.toBool, Ctx.openCommandChannel]
  · obtain ⟨fault, after, threw⟩ := setUp_throws
      ⟨server.lib, { clientState := server.clientState }⟩ session
    simp only [acceptIteration, publish, setId, setConn, makeClient, threw]
    simp only [Except.isOk, Except.toBool, Bool.false_eq_true, false_iff]
    exact fun survivable => session ⟨survivable.1, survivable.2.1⟩

/-- **Exactly the survivable outcomes leave the accept loop running.** -/
theorem reachesAccept_iff (server : ListenerState β) (results : List SetupResults) :
    server.ReachesAccept results ↔ ∀ result ∈ results, result.Survivable := by
  induction results generalizing server with
  | nil => simp [ReachesAccept, acceptLoop, pure, Except.pure, Except.isOk, Except.toBool]
  | cons result results ih =>
      rw [List.forall_mem_cons, ← server.acceptIteration_isOk_iff result]
      rw [ReachesAccept, acceptLoop, List.foldlM_cons]
      cases iterated : server.acceptIteration result with
      | ok next =>
          rw [← ih next]
          simp [ReachesAccept, acceptLoop, bind, Except.bind, Except.isOk, Except.toBool]
      | error fault => simp [bind, Except.bind, Except.isOk, Except.toBool]

/-- **A host name that does not resolve takes the server down.** -/
theorem not_reachesAccept_unresolved :
    ¬ ∀ (server : ListenerState UInt8) (results : List SetupResults),
      server.ReachesAccept results := by
  intro always
  have reached := always {} [⟨⟨.resolveThrows, true, 0, 0⟩, true, {}⟩]
  exact Bool.false_ne_true reached

end ListenerState

end BookFilerSsh
