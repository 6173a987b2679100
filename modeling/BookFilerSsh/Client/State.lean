import BookFilerSsh.Client.Libssh2

/-!
# The state of a `ClientImpl`

The members of `ClientImpl` that its functions read or write, and the monad its
member functions run in. A call runs on the client together with the ledger of
libssh2, and it may end by an exception, in the termination of the process, or
not at all while it waits for a completion that does not come.

Bytes are of an arbitrary type `β`: the client moves them without looking at
them. The `settingsDoc` and the deadline timer are left out, since no modelled
function uses them.
-/

set_option autoImplicit false

namespace BookFilerSsh

/-- `ClientState`: what a client dials and what it asks the server for. -/
structure ClientState where
  port : UInt16 := 0
  srcPort : Int := 0
  remotePort : Int := 0
  remoteBoundPort : Int := 0
  hostName : String := ""
  userName : String := ""
  password : String := ""
  remoteHostName : String := "127.0.0.1"
  srcHostName : String := "127.0.0.1"
  deriving DecidableEq, Repr

/-- A `std::thread` object. Destroying one that is joinable terminates the
process. -/
structure StdThread where
  joinable : Bool
  deriving DecidableEq, Repr

/-- The result of one call of a `DoWork` function. -/
inductive WorkState where
  | WORK_DONE
  | STILL_WORKING
  deriving DecidableEq, Repr

/-- The functions that are bound to a `LoopAsync` handler. -/
inductive Work where
  | DoCreateChannel
  | DoExecute
  | readCommandChannel
  | DoCloseChannel
  | readListenChannel
  deriving DecidableEq, Repr

/-- `boost::bind(&ClientImpl::LoopAsync, this, DoWork, isRead)`. -/
structure Handler where
  work : Work
  isRead : Bool
  deriving DecidableEq, Repr

/-- A `boost::asio::io_service`: whether it is stopped, and the handlers of the
operations that were started and not dispatched yet. -/
structure IoContext where
  stopped : Bool := false
  pending : List Handler := []
  deriving DecidableEq, Repr

namespace IoContext

/-- `ioContext.reset()`. -/
def reset (io : IoContext) : IoContext := { io with stopped := false }

/-- `ioContext.stop()`. -/
def stop (io : IoContext) : IoContext := { io with stopped := true }

/-- A handler waits for its completion. -/
def arm (io : IoContext) (handler : Handler) : IoContext :=
  { io with pending := io.pending ++ [handler] }

/-- A pending handler is dispatched. -/
def take (io : IoContext) (index : ℕ) : IoContext :=
  { io with pending := io.pending.eraseIdx index }

end IoContext

/-- `ClientImpl`. -/
structure ClientImpl (β : Type) where
  clientState : ClientState := {}
  threadIo : Option StdThread := none
  commandStr : List β := []
  commandChannelReadStr : List β := []
  listenChannelReadStr : List β := []
  ioContext : IoContext := {}
  /-- `sockPtr->is_open()` -/
  sockOpen : Bool := false
  session : Option SessionId := none
  listener : Option ListenerId := none
  commandChannel : Option ChannelId := none
  listenChannel : Option ChannelId := none
  writtenBytes : Nat := 0
  commandChannelReadLen : Nat := 0
  commandStrLen : Nat := 0
  deriving DecidableEq, Repr

/-- How a call ends when it does not return. -/
inductive Fault where
  /-- A `boost::system::system_error` is thrown. -/
  | systemError
  /-- A `std::logic_error` is thrown. -/
  | logicError (what : String)
  /-- `std::terminate` is called. -/
  | terminate
  /-- The call waits for a completion that does not come. -/
  | blocked
  deriving DecidableEq, Repr

/-- An exception a caller can catch, or a call that goes on waiting. -/
abbrev Fault.Recoverable (fault : Fault) : Prop := fault ≠ .terminate

/-- The client a member function runs on, and the library it calls. -/
structure Ctx (β : Type) where
  lib : Libssh2 β := {}
  client : ClientImpl β := {}
  deriving DecidableEq, Repr

/-- A member function of `ClientImpl`: what it changed stays changed when it
throws. -/
abbrev ClientM (β : Type) := EStateM Fault (Ctx β)

end BookFilerSsh
