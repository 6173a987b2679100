import BookFilerSsh.Port.Connection

/-!
# The port forwarding server

`port::ListenerImpl::run` with the connections it publishes. In one iteration it
connects a destination socket, accepts a client, moves both sockets into a
connection, publishes the connection in `serverState->connectionList` and spawns
the two pumps. An error of either asynchronous operation starts the next
iteration, and the sockets of the iteration are closed when it ends.

Every descriptor is recorded with the iteration that obtained it, so that it can
be told which connection got it. A spawned coroutine is queued: that it is started
inline is one of the orders in which the steps may come.
-/

set_option autoImplicit false

namespace BookFilerSsh.Port

/-- The position of `ListenerImpl::run`. `dest` and `src` are the descriptors of
the iteration and `i` is its connection. -/
inductive ListenerPc where
  /-- queued by `boost::asio::spawn`, not started -/
  | spawned
  /-- opening, binding and listening on the acceptor -/
  | binding
  /-- one of these failed -/
  | unbound
  /-- before `async_connect` -/
  | loopTop
  /-- parked in `async_connect` -/
  | connecting
  /-- `async_connect` completed, with an error when there is no descriptor -/
  | connected (dest : Option ℕ)
  /-- parked in `async_accept` -/
  | accepting (dest : ℕ)
  /-- `async_accept` completed, with an error when there is no descriptor -/
  | accepted (dest : ℕ) (src : Option ℕ)
  | published (i : ℕ)
  | identified (i : ℕ)
  /-- back from spawning `run` -/
  | runSpawned (i : ℕ)
  | returned
  deriving DecidableEq, Repr

/-- The accept loop and the connections, with the iteration each destination
socket was connected in and each client socket was accepted in. -/
structure Server (β : Type) where
  connectionList : List (ConnectionImpl β) := []
  connectionIdIncrement : UInt32 := 0
  listener : ListenerPc := .spawned
  iteration : ℕ := 0
  destSockets : List ℕ := []
  srcSockets : List ℕ := []

/-- An action of the server or of its surroundings. -/
inductive ServerAction (β : Type) where
  /-- the next statement of the accept loop -/
  | run
  | bound (ok : Bool)
  | connectDone (ec : Bool)
  | acceptDone (ec : Bool)
  /-- an action of a pump of the `i`-th connection -/
  | pump (i : ℕ) (action : PumpAction β)

namespace Server

variable {β : Type}

def setListener (s : Server β) (pc : ListenerPc) : Server β := { s with listener := pc }

/-- `continue`, or the end of the loop body. -/
def nextIteration (s : Server β) : Server β :=
  { s with listener := .loopTop, iteration := s.iteration + 1 }

/-- Both sockets are moved into a connection, which is published. -/
def publish (s : Server β) (src dest : ℕ) : Server β :=
  { s with
    connectionIdIncrement := s.connectionIdIncrement + 1
    connectionList := s.connectionList ++ [{
      socket := fun
        | .src => { descriptor := src }
        | .dest => { descriptor := dest } }] }

/-- An assignment to the `i`-th connection. -/
def setConn (s : Server β) (i : ℕ) (f : ConnectionImpl β → ConnectionImpl β) : Server β :=
  { s with connectionList := s.connectionList.modify i f }

/-- `conn->setId(connectionIdIncrement)`. -/
def setId (s : Server β) (i : ℕ) : Server β :=
  s.setConn i fun conn => { conn with connId := some s.connectionIdIncrement }

/-- `boost::asio::spawn` of `run` or `run2`. -/
def spawnPump (s : Server β) (i : ℕ) (side : Side) : Server β :=
  s.setConn i fun conn => conn.setPump side .spawned

/-- The next statement of `ListenerImpl::run`. -/
def listenerStep (s : Server β) : Option (Server β) :=
  match s.listener with
  | .spawned => some (s.setListener .binding)
  | .unbound => some (s.setListener .returned)
  | .loopTop => some (s.setListener .connecting)
  | .connected none => some s.nextIteration
  | .connected (some dest) => some (s.setListener (.accepting dest))
  | .accepted _ none => some s.nextIteration
  | .accepted dest (some src) =>
      some ((s.publish src dest).setListener (.published s.connectionList.length))
  | .published i => some ((s.setId i).setListener (.identified i))
  | .identified i => some ((s.spawnPump i .src).setListener (.runSpawned i))
  | .runSpawned i => some (s.spawnPump i .dest).nextIteration
  | _ => none

/-- The completion of the `async_connect` in progress. -/
def connectDone (s : Server β) (ec : Bool) : Option (Server β) :=
  match s.listener with
  | .connecting =>
      if ec then some (s.setListener (.connected none))
      else
        some { s.setListener (.connected (some s.destSockets.length)) with
          destSockets := s.destSockets ++ [s.iteration] }
  | _ => none

/-- The completion of the `async_accept` in progress. -/
def acceptDone (s : Server β) (ec : Bool) : Option (Server β) :=
  match s.listener with
  | .accepting dest =>
      if ec then some (s.setListener (.accepted dest none))
      else
        some { s.setListener (.accepted dest (some s.srcSockets.length)) with
          srcSockets := s.srcSockets ++ [s.iteration] }
  | _ => none

/-- One step of the server. -/
def step (zero : β) (s : Server β) : ServerAction β → Option (Server β)
  | .run => s.listenerStep
  | .bound ok =>
      match s.listener with
      | .binding => some (s.setListener (if ok then .loopTop else .unbound))
      | _ => none
  | .connectDone ec => s.connectDone ec
  | .acceptDone ec => s.acceptDone ec
  | .pump i action => do
      let conn ← s.connectionList[i]?
      let next ← conn.act zero action
      return { s with connectionList := s.connectionList.set i next }

end Server

/-- The port forwarding server. -/
def serverMachine {β : Type} (zero : β) : Lib.Machine (Server β) (ServerAction β) where
  init := {}
  step := Server.step zero

end BookFilerSsh.Port
