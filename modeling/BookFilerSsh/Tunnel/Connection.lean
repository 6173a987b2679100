import BookFilerSsh.Lib.Machine
import BookFilerSsh.Tunnel.PushStream

/-!
# The two pumps of a tunnel connection

`ssh::ConnectionImpl::runPull` and `runPush` as coroutines that run statement by
statement, so that the statements of the two may be interleaved in any order.
A position of a coroutine names the statement it is at, with the locals that are
still read. A libssh2 call takes two steps, its begin and its end, and a pump
that waits in `async_read_some` or `async_write` is parked until its completion
arrives.

A `Link` is what the two pumps of one connection share: the connection, the
client its `sshClient` points to and the channel that client opened. The pumps
work on disjoint parts of it: `pushStep_pullView` and its companions say that no
step of `runPush` changes what `runPull` works on, and conversely.
-/

set_option autoImplicit false

namespace BookFilerSsh

/-- The position of `runPull`. -/
inductive PullPc (β : Type) where
  | unspawned
  /-- queued by `boost::asio::spawn`, not started -/
  | spawned
  /-- at the head of the loop, before `sshClient->read` -/
  | loopTop
  /-- in `read`, before `readCommandChannel` -/
  | readCleared
  /-- in `readCommandChannel`, before `libssh2_channel_read` -/
  | entered
  /-- between begin and end of `libssh2_channel_read` -/
  | inRead
  | readDone (result : ReadResult β)
  | appended (rc : Int)
  /-- `readCommandChannel` returned -/
  | readReturned
  | strCopied (bufferStr : List β)
  | lenCopied (bufferStr : List β) (len : ℕ)
  /-- parked in `async_write` -/
  | writing (bufferStr : List β) (len : ℕ)
  /-- `async_write` completed, not resumed yet -/
  | written (ec : Bool)
  | resumed (ec : Bool)
  | returned

/-- The position of `runPush`. -/
inductive PushPc (β : Type) where
  | unspawned
  /-- queued by `boost::asio::spawn`, not started -/
  | spawned
  /-- at the head of the loop, before `async_read_some` -/
  | loopTop
  /-- parked in `async_read_some` -/
  | reading
  /-- `async_read_some` completed, not resumed yet -/
  | readDone (bytesTransferred : ℕ) (ec : Bool)
  | resumed (bytesTransferred : ℕ) (ec : Bool)
  /-- in `send`, before its first assignment -/
  | sending (bufferStr : List β) (len : ℕ)
  | strSet (len : ℕ)
  | lenSet
  /-- in `writeCommandChannel`, before `writtenBytes = 0` -/
  | writeEntered
  /-- before `libssh2_channel_write` -/
  | writeLoopTop
  /-- between begin and end of `libssh2_channel_write` -/
  | inWrite
  | writeDone (result : Int)
  /-- before the test of the write loop -/
  | counted (rc : Int)
  /-- `send` returned -/
  | sent (rc : Int)
  | returned

/-- A local socket, with the bytes read from it and the bytes handed to
`async_write` on it. -/
structure Socket (β : Type) where
  isOpen : Bool := true
  read : List β := []
  written : List β := []

/-- `ssh::ConnectionImpl`, with the positions of its two coroutines. A pointer to
a client is its position in the list of clients created. -/
structure ConnectionImpl (β : Type) where
  srcSocket : Socket β := {}
  sshClient : Option ℕ := none
  connId : Option UInt32 := none
  srcReadBuffer : List β := []
  pull : PullPc β := .unspawned
  push : PushPc β := .unspawned

/-- What the pumps of one connection share. -/
structure Link (β : Type) where
  conn : ConnectionImpl β
  client : ClientImpl β
  channel : Channel β

/-- The coroutines of the tunnel server: the accept loop, and the pumps of the
connections in the order of `connectionList`. -/
inductive Coro where
  | listener
  | pull (i : ℕ)
  | push (i : ℕ)
  deriving DecidableEq, Repr

/-- What a step of a coroutine means for the thread it runs on. -/
inductive Effect where
  | stays
  | parks
  | finishes
  | spawns (coro : Coro)
  deriving DecidableEq, Repr

/-- How an `async_read_some` completes. -/
inductive SrcReadEnd (β : Type) where
  | data (read : SrcRead β)
  | failed

/-- The same completion with other bytes. -/
def SrcReadEnd.map {β γ : Type} (f : β → γ) : SrcReadEnd β → SrcReadEnd γ
  | .data read => .data (read.map f)
  | .failed => .failed

/-- `boost::asio::spawn` starts a coroutine inline or queues it. -/
inductive SpawnMode where
  | inline
  | posted
  deriving DecidableEq, Repr

namespace Link

variable {β : Type}

def setPull (link : Link β) (pc : PullPc β) : Link β :=
  { link with conn := { link.conn with pull := pc } }

def setPush (link : Link β) (pc : PushPc β) : Link β :=
  { link with conn := { link.conn with push := pc } }

def setClient (link : Link β) (client : ClientImpl β) : Link β :=
  { link with client := client }

/-- Where a spawned `runPull` begins. -/
def pullStart : SpawnMode → PullPc β
  | .inline => .loopTop
  | .posted => .spawned

/-- Where a spawned `runPush` begins. -/
def pushStart : SpawnMode → PushPc β
  | .inline => .loopTop
  | .posted => .spawned

/-! ## runPull -/

/-- `boost::asio::async_write(srcSocket, buffer(bufferStr.data(), len))`. -/
def handOver (link : Link β) (bufferStr : List β) (len : ℕ) : Link β :=
  { link with
    conn := { link.conn with
      srcSocket := { link.conn.srcSocket with
        written := link.conn.srcSocket.written ++ bufferStr.take len } } }

/-- The next statement of `runPull`, of `ClientImpl::read` or of
`ClientImpl::readCommandChannel` under it. -/
def pullStep (link : Link β) : Option (Link β × Effect) :=
  match link.conn.pull with
  | .loopTop => some ((link.setClient link.client.clearRead).setPull .readCleared, .stays)
  | .readCleared => some ((link.setClient link.client.clearRead).setPull .entered, .stays)
  | .entered => some (link.setPull .inRead, .stays)
  | .readDone result =>
      if result.rc < 0 then some (link.setPull .readReturned, .stays)
      else
        some ((link.setClient (link.client.appendRead result.bytes result.rc)).setPull
          (.appended result.rc), .stays)
  | .appended rc =>
      some ((link.setClient (link.client.countRead rc)).setPull
        (if 0 < outerRc then .entered else .readReturned), .stays)
  | .readReturned => some (link.setPull (.strCopied link.client.commandChannelReadStr), .stays)
  | .strCopied bufferStr =>
      some (link.setPull (.lenCopied bufferStr link.client.commandChannelReadLen), .stays)
  | .lenCopied bufferStr len =>
      if len = 0 then some (link.setPull .loopTop, .stays)
      else some ((link.handOver bufferStr len).setPull (.writing bufferStr len), .parks)
  | .resumed ec =>
      if ec then some (link.setPull .returned, .finishes) else some (link.setPull .loopTop, .stays)
  | _ => none

/-- The end of the `libssh2_channel_read` in progress. -/
def pullReturn (link : Link β) (result : ReadResult β) : Option (Link β) :=
  match link.conn.pull with
  | .inRead =>
      some { link.setPull (.readDone result) with
        channel := { link.channel with returned := link.channel.returned ++ result.bytes } }
  | _ => none

/-- The completion of the `async_write` in progress. -/
def pullWake (link : Link β) (ec : Bool) : Option (Link β) :=
  match link.conn.pull with
  | .writing _ _ => some (link.setPull (.written ec))
  | _ => none

/-- A thread takes up `runPull`. -/
def pullResume (link : Link β) : Option (Link β) :=
  match link.conn.pull with
  | .spawned => some (link.setPull .loopTop)
  | .written ec => some (link.setPull (.resumed ec))
  | _ => none

/-! ## runPush -/

/-- `async_read_some` fills `src_read_buffer` from its beginning. -/
def fillBuffer (link : Link β) (read : SrcRead β) : Link β :=
  { link with
    conn := { link.conn with
      srcReadBuffer := read.bytes ++ link.conn.srcReadBuffer.drop read.bytes.length
      srcSocket := { link.conn.srcSocket with
        read := link.conn.srcSocket.read ++ read.bytes } } }

/-- The next statement of `runPush`, of `ClientImpl::send` or of
`ClientImpl::writeCommandChannel` under it. -/
def pushStep (link : Link β) : Option (Link β × Effect) :=
  match link.conn.push with
  | .loopTop => some (link.setPush .reading, .parks)
  | .resumed bytesTransferred ec =>
      if ec then some (link.setPush .returned, .finishes)
      else
        some (link.setPush (.sending (link.conn.srcReadBuffer.take bytesTransferred)
          bytesTransferred), .stays)
  | .sending bufferStr len =>
      some ((link.setClient { link.client with commandStr := bufferStr }).setPush (.strSet len),
        .stays)
  | .strSet len =>
      some ((link.setClient { link.client with commandStrLen := len }).setPush .lenSet, .stays)
  | .lenSet =>
      some ((link.setClient { link.client with writtenBytes := 0 }).setPush .writeEntered, .stays)
  | .writeEntered =>
      some ((link.setClient { link.client with writtenBytes := 0 }).setPush .writeLoopTop, .stays)
  | .writeLoopTop => some (link.setPush .inWrite, .stays)
  | .writeDone result =>
      -- an error leaves `writeCommandChannel`, whose result `send` does not look at
      if toInt result < 0 then some (link.setPush (.sent 0), .stays)
      else
        some ((link.setClient (link.client.countWritten (toInt result))).setPush
          (.counted (toInt result)), .stays)
  | .counted rc =>
      some (link.setPush (if link.client.WritesAgain rc then .writeLoopTop else .sent 0), .stays)
  | .sent rc =>
      if rc < 0 then some (link.setPush .returned, .finishes)
      else some (link.setPush .loopTop, .stays)
  | _ => none

/-- The end of the `libssh2_channel_write` in progress, which accepts at most
what it was handed. -/
def pushReturn (link : Link β) (result : Int) : Option (Link β) :=
  match link.conn.push with
  | .inWrite =>
      if result ≤ link.client.commandStrLen then
        some { link.setPush (.writeDone result) with
          channel := { link.channel with
            accepted := link.channel.accepted ++ link.client.acceptedBy result } }
      else none
  | _ => none

/-- The completion of the `async_read_some` in progress. -/
def pushWake (link : Link β) (completion : SrcReadEnd β) : Option (Link β) :=
  match link.conn.push with
  | .reading =>
      match completion with
      | .data read =>
          some ((link.fillBuffer read).setPush (.readDone read.bytes.length false))
      | .failed => some (link.setPush (.readDone 0 true))
  | _ => none

/-- A thread takes up `runPush`. -/
def pushResume (link : Link β) : Option (Link β) :=
  match link.conn.push with
  | .spawned => some (link.setPush .loopTop)
  | .readDone bytesTransferred ec => some (link.setPush (.resumed bytesTransferred ec))
  | _ => none

end Link

/-! ## Both pumps -/

/-- A step of one of the pumps, the end of a libssh2 call of it, or a completion
it is parked for. -/
inductive LinkAction (β : Type) where
  | pullStep
  | pullReturn (result : ReadResult β)
  | pullWake (ec : Bool)
  | pullResume
  | pushStep
  | pushReturn (result : Int)
  | pushWake (completion : SrcReadEnd β)
  | pushResume

/-- The bytes an action brings in, from the channel and from the local socket,
have these properties. -/
def LinkAction.Brings {β : Type} (P Q : β → Prop) : LinkAction β → Prop
  | .pullReturn result => ∀ byte ∈ result.bytes, P byte
  | .pushWake (.data read) => ∀ byte ∈ read.bytes, Q byte
  | _ => True

theorem LinkAction.Brings.mono {β : Type} {P P' Q : β → Prop} {action : LinkAction β}
    (brings : action.Brings P Q) (weaker : ∀ byte, P byte → P' byte) : action.Brings P' Q := by
  cases action with
  | pullReturn result => exact fun byte member => weaker byte (brings byte member)
  | pushWake completion => cases completion <;> exact brings
  | _ => exact brings

namespace Link

variable {β : Type}

/-- The effect of an action on a link. -/
def act (link : Link β) : LinkAction β → Option (Link β)
  | .pullStep => link.pullStep.map Prod.fst
  | .pullReturn result => link.pullReturn result
  | .pullWake ec => link.pullWake ec
  | .pullResume => link.pullResume
  | .pushStep => link.pushStep.map Prod.fst
  | .pushReturn result => link.pushReturn result
  | .pushWake completion => link.pushWake completion
  | .pushResume => link.pushResume

end Link

end BookFilerSsh
