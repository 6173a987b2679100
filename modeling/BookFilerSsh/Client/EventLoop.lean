import BookFilerSsh.Client.Setup
import BookFilerSsh.Client.Transfer

/-!
# Calls that wait for the socket

`ClientImpl::command` and `ClientImpl::forwarding` run a `DoWork` function until it
says that its work is done: they arm a read-ready and a write-ready handler for it
and run the `ioContext`. A dispatched handler calls the function, and then arms
itself again or stops the `ioContext`. The other handler of the phase stays pending,
and nothing removes it.

A run takes the events that happen in it: which pending handler is dispatched, and
how libssh2 answers the call that it makes. It ends when the `ioContext` is stopped
or has no handler left, and it is blocked when neither holds and nothing happens any
more. Here the handlers run in the calling thread; `Client.Threads` has the thread
that `connect` starts.

`Steady P` says that `P` is kept by the libssh2 calls the loop, `command` and `tunnel`
make, so that these functions keep `P` (`Steady.keeps_phase`, `Steady.keeps_command`,
`Steady.keeps_tunnel`). `Stable P` adds the other calls of `forwarding`
(`Stable.keeps_forwarding`).
-/

set_option autoImplicit false

namespace BookFilerSsh

/-- The answers of libssh2 to the call a `DoWork` function makes: whether a channel
is opened, the code the call returns (or the last error, when no channel is opened),
and what it reads. -/
structure Answers where
  opened : Bool := true
  rc : Int := 0
  read : ReadResult UInt8 := .code 0 ReadResult.zero_notPositive

/-- What such answers mean for the work of the function. -/
inductive Reply where
  | again
  | done
  | error
  deriving DecidableEq, Repr

/-- A return code of libssh2. -/
def Reply.ofCode (rc : Int) : Reply :=
  if rc = libssh2ErrorEagain then .again else if rc = 0 then .done else .error

/-- The reply to the call of a `DoWork` function. Without a session no channel is opened. -/
def Answers.reply (answers : Answers) (session : Option SessionId) : Work → Reply
  | .DoCreateChannel =>
      if session.isSome ∧ answers.opened then .done
      else if answers.rc = libssh2ErrorEagain then .again
      else .error
  | .DoExecute | .DoCloseChannel => .ofCode answers.rc
  | .readCommandChannel => if answers.read.rc < 0 then .again else .done
  | .readListenChannel => if 0 < answers.read.rc then .again else .ofCode answers.read.rc

/-- A pending handler is dispatched. An index without a handler is none. -/
structure Event where
  index : ℕ
  answers : Answers := {}

/-- What happens in the phases of one `command`. -/
structure CommandScript where
  create : List Event
  execute : List Event
  reads : List Event
  close : List Event
  freeWouldBlock : Bool := false

/-- What happens in one `forwarding`. -/
structure ForwardingScript where
  listened : Bool
  accepted : Bool
  reads : List Event

/-! ## The calls as functions of client and library -/

namespace Ctx

variable {β : Type}

/-- A call on the command channel. -/
def useCommandChannel (ctx : Ctx β) : Ctx β :=
  { ctx with lib := ctx.lib.useChannel ctx.client.commandChannel }

/-- A call on the listen channel. -/
def useListenChannel (ctx : Ctx β) : Ctx β :=
  { ctx with lib := ctx.lib.useChannel ctx.client.listenChannel }

/-- `libssh2_session_set_blocking`. -/
def setBlocking (ctx : Ctx β) (blocking : Bool) : Ctx β :=
  { ctx with lib := ctx.lib.setBlocking ctx.client.session blocking }

/-- `libssh2_channel_forward_listen_ex`: a null session is refused. -/
def listen (ctx : Ctx β) (listened : Bool) : Ctx β :=
  match ctx.client.session with
  | some s =>
      if listened then
        { lib := (ctx.lib.useSession (some s)).forwardListen s
          client := { ctx.client with listener := some ctx.lib.listeners.length } }
      else
        { lib := ctx.lib.useSession (some s)
          client := { ctx.client with listener := none } }
  | none => { ctx with client := { ctx.client with listener := none } }

/-- `libssh2_channel_forward_accept`: the channel is one of the listener's session. -/
def acceptForwarded (ctx : Ctx β) (accepted : Bool) : Ctx β :=
  match ctx.client.listener.bind (ctx.lib.listeners[·]?) with
  | some record =>
      if accepted then
        { lib := (ctx.lib.useListener ctx.client.listener).openChannel record.session
          client := { ctx.client with listenChannel := some ctx.lib.channels.length } }
      else
        { lib := ctx.lib.useListener ctx.client.listener
          client := { ctx.client with listenChannel := none } }
  | none => { ctx with client := { ctx.client with listenChannel := none } }

/-- An assignment to members of the client. -/
def assign (ctx : Ctx β) (f : ClientImpl β → ClientImpl β) : Ctx β :=
  { ctx with client := f ctx.client }

end Ctx

/-! ## The DoWork functions -/

namespace ClientImpl

/-- `ClientImpl::DoCreateChannel`. -/
def doCreateChannel (answers : Answers) : ClientM UInt8 WorkState := do
  modify (Ctx.openCommandChannel · answers.opened)
  if (← get).client.commandChannel.isSome then return .WORK_DONE
  modify Ctx.useSession
  if answers.rc = libssh2ErrorEagain then return .STILL_WORKING
  throw (.logicError "Error opening channel")

/-- `ClientImpl::DoExecute`. -/
def doExecute (answers : Answers) : ClientM UInt8 WorkState := do
  modify Ctx.useCommandChannel
  if answers.rc = libssh2ErrorEagain then return .STILL_WORKING
  if answers.rc ≠ 0 then throw (.logicError "Error executing command")
  return .WORK_DONE

/-- `ClientImpl::readCommandChannel`, bound as `DoWork`. -/
def doReadCommandChannel (answers : Answers) : ClientM UInt8 WorkState := do
  modify Ctx.useCommandChannel
  match (← get).client.readCommandChannel [answers.read] with
  | some (state, client, _) => do
      modify (Ctx.assign · fun _ => client)
      return state
  | none => throw .blocked

/-- `buffer[rc] = '\0'; listenChannelReadStr.append(buffer)`: the append stops at the
first zero byte. -/
def appendListened (client : ClientImpl UInt8) (buffer : List UInt8) : ClientImpl UInt8 :=
  { client with listenChannelReadStr := client.listenChannelReadStr ++ buffer.takeWhile (· ≠ 0) }

/-- `ClientImpl::readListenChannel`. -/
def doReadListenChannel (answers : Answers) : ClientM UInt8 WorkState := do
  modify Ctx.useListenChannel
  if 0 < answers.read.rc then
    modify (Ctx.assign · fun client => client.appendListened answers.read.bytes)
    return .STILL_WORKING
  if answers.read.rc = libssh2ErrorEagain then return .STILL_WORKING
  if answers.read.rc ≠ 0 then throw (.logicError "Error getting execution result")
  return .WORK_DONE

/-- `ClientImpl::DoCloseChannel`. -/
def doCloseChannel (answers : Answers) : ClientM UInt8 WorkState := do
  modify Ctx.useCommandChannel
  if answers.rc = libssh2ErrorEagain then return .STILL_WORKING
  if answers.rc ≠ 0 then throw (.logicError "Error closing channel")
  return .WORK_DONE

def doWork : Work → Answers → ClientM UInt8 WorkState
  | .DoCreateChannel => doCreateChannel
  | .DoExecute => doExecute
  | .readCommandChannel => doReadCommandChannel
  | .DoCloseChannel => doCloseChannel
  | .readListenChannel => doReadListenChannel

section Results

open Lib.Effects

variable (answers : Answers) (ctx : Ctx UInt8)

theorem doCreateChannel_run :
    doCreateChannel answers ctx =
      if (ctx.openCommandChannel answers.opened).client.commandChannel.isSome then
        .ok .WORK_DONE (ctx.openCommandChannel answers.opened)
      else if answers.rc = libssh2ErrorEagain then
        .ok .STILL_WORKING (ctx.openCommandChannel answers.opened).useSession
      else
        .error (.logicError "Error opening channel")
          (ctx.openCommandChannel answers.opened).useSession := by
  simp only [doCreateChannel, run_bind, run_modify, run_get, run_ite, run_pure, run_throw]

theorem doExecute_run :
    doExecute answers ctx =
      if answers.rc = libssh2ErrorEagain then .ok .STILL_WORKING ctx.useCommandChannel
      else if answers.rc ≠ 0 then
        .error (.logicError "Error executing command") ctx.useCommandChannel
      else .ok .WORK_DONE ctx.useCommandChannel := by
  simp only [doExecute, run_bind, run_modify, run_ite, run_pure, run_throw]

theorem doReadCommandChannel_run :
    doReadCommandChannel answers ctx =
      .ok (if answers.read.rc < 0 then .STILL_WORKING else .WORK_DONE)
        (ctx.useCommandChannel.assign fun client => client.afterRead answers.read) := by
  simp only [doReadCommandChannel, run_bind, run_modify, run_get, readCommandChannel_cons, run_pure]
  rfl

theorem doCloseChannel_run :
    doCloseChannel answers ctx =
      if answers.rc = libssh2ErrorEagain then .ok .STILL_WORKING ctx.useCommandChannel
      else if answers.rc ≠ 0 then
        .error (.logicError "Error closing channel") ctx.useCommandChannel
      else .ok .WORK_DONE ctx.useCommandChannel := by
  simp only [doCloseChannel, run_bind, run_modify, run_ite, run_pure, run_throw]

/-- The channel is opened in a session only. -/
theorem isSome_openCommandChannel (opened : Bool) :
    (ctx.openCommandChannel opened).client.commandChannel.isSome =
      (ctx.client.session.isSome && opened) := by
  unfold Ctx.openCommandChannel
  cases session : ctx.client.session with
  | none => rfl
  | some id => cases opened <;> rfl

/-- The members that no `DoWork` function on the command channel changes. -/
structure SameCommand (ctx after : Ctx UInt8) : Prop where
  commandStr : after.client.commandStr = ctx.client.commandStr
  io : after.client.ioContext = ctx.client.ioContext
  session : after.client.session = ctx.client.session
  listened : after.client.listenChannelReadStr = ctx.client.listenChannelReadStr

theorem sameCommand_openCommandChannel (opened : Bool) :
    SameCommand ctx (ctx.openCommandChannel opened) := by
  unfold Ctx.openCommandChannel
  split
  · split <;> exact ⟨rfl, rfl, rfl, rfl⟩
  · exact ⟨rfl, rfl, rfl, rfl⟩

/-- A call that only returns a code. -/
theorem ofCode_reply {rc : Int} {fault : Fault} {after : Ctx UInt8}
    {result : EStateM.Result Fault (Ctx UInt8) WorkState}
    (ran : result =
      if rc = libssh2ErrorEagain then .ok .STILL_WORKING after
      else if rc ≠ 0 then .error fault after
      else .ok .WORK_DONE after) :
    match Reply.ofCode rc with
    | .again => result = .ok .STILL_WORKING after
    | .done => result = .ok .WORK_DONE after
    | .error => ∃ fault, result = .error fault after := by
  rw [ran, Reply.ofCode]
  by_cases again : rc = libssh2ErrorEagain
  · rw [if_pos again, if_pos again]
  · by_cases done : rc = 0
    · rw [if_neg again, if_neg again, if_pos done, if_neg (not_not.mpr done)]
    · rw [if_neg again, if_neg again, if_neg done, if_pos done]
      exact ⟨_, rfl⟩

/-- **A `DoWork` function on the command channel** does what the reply says. -/
theorem doWork_reply {work : Work} (onCommand : work ≠ .readListenChannel) :
    ∃ after, SameCommand ctx after ∧
      match answers.reply ctx.client.session work with
      | .again => doWork work answers ctx = .ok .STILL_WORKING after
      | .done => doWork work answers ctx = .ok .WORK_DONE after
      | .error => ∃ fault, doWork work answers ctx = .error fault after := by
  cases work with
  | DoCreateChannel =>
      have same := sameCommand_openCommandChannel ctx answers.opened
      have isSome := isSome_openCommandChannel ctx answers.opened
      simp only [doWork, Answers.reply, doCreateChannel_run]
      by_cases opened : ctx.client.session.isSome ∧ answers.opened
      · have channel := isSome.trans (Bool.and_eq_true_iff.mpr opened)
        refine ⟨_, same, ?_⟩
        rw [if_pos opened, if_pos channel]
      · have channel : ¬ (ctx.openCommandChannel answers.opened).client.commandChannel.isSome := by
          rw [isSome, Bool.and_eq_true_iff]
          exact opened
        refine ⟨(ctx.openCommandChannel answers.opened).useSession,
          ⟨same.commandStr, same.io, same.session, same.listened⟩, ?_⟩
        rw [if_neg opened, if_neg channel]
        by_cases again : answers.rc = libssh2ErrorEagain
        · rw [if_pos again, if_pos again]
        · rw [if_neg again, if_neg again]
          exact ⟨_, rfl⟩
  | DoExecute =>
      exact ⟨ctx.useCommandChannel, ⟨rfl, rfl, rfl, rfl⟩, ofCode_reply (doExecute_run answers ctx)⟩
  | readCommandChannel =>
      simp only [doWork, Answers.reply, doReadCommandChannel_run]
      refine ⟨ctx.useCommandChannel.assign fun client => client.afterRead answers.read,
        ⟨rfl, rfl, rfl, rfl⟩, ?_⟩
      by_cases more : answers.read.rc < 0
      · rw [if_pos more, if_pos more]
      · rw [if_neg more, if_neg more]
  | DoCloseChannel =>
      exact ⟨ctx.useCommandChannel, ⟨rfl, rfl, rfl, rfl⟩,
        ofCode_reply (doCloseChannel_run answers ctx)⟩
  | readListenChannel => exact absurd rfl onCommand

end Results

/-! ## The event loop -/

/-- A change of the `ioContext`. -/
def onIo (client : ClientImpl UInt8) (f : IoContext → IoContext) : ClientImpl UInt8 :=
  { client with ioContext := f client.ioContext }

/-- `ioContext.reset()`. -/
def reset : ClientM UInt8 Unit :=
  modify (Ctx.assign · fun client => client.onIo IoContext.reset)

/-- `ioContext.stop()`. -/
def stop : ClientM UInt8 Unit :=
  modify (Ctx.assign · fun client => client.onIo IoContext.stop)

/-- `sockPtr->async_read_some` or `async_write_some` with no buffers. -/
def arm (handler : Handler) : ClientM UInt8 Unit :=
  modify (Ctx.assign · fun client => client.onIo fun io => io.arm handler)

/-- `ClientImpl::LoopAsync`. -/
def loopAsync (handler : Handler) (answers : Answers) : ClientM UInt8 Unit := do
  if (← get).client.ioContext.stopped then return
  let state ← doWork handler.work answers
  if state = .STILL_WORKING then arm handler else stop

/-- An event of the `ioContext`. -/
def dispatch (event : Event) : ClientM UInt8 Unit := do
  match (← get).client.ioContext.pending[event.index]? with
  | some handler => do
      modify (Ctx.assign · fun client => client.onIo fun io => io.take event.index)
      loopAsync handler event.answers
  | none => return

/-- The test of the run loop. Without outstanding work the `ioContext` is stopped. -/
def runEnds : ClientM UInt8 Bool := do
  let io := (← get).client.ioContext
  if io.stopped then return true
  if io.pending = [] then do
    stop
    return true
  return false

/-- `ioContext.run()`. -/
def run : List Event → ClientM UInt8 Unit
  | [] => do
      if (← runEnds) = false then throw .blocked
  | event :: events => do
      if ← runEnds then return
      dispatch event
      run events

/-- One phase: the `ioContext` is reset, both handlers are armed, and it is run. -/
def phase (work : Work) (events : List Event) : ClientM UInt8 Unit := do
  reset
  arm ⟨work, true⟩
  arm ⟨work, false⟩
  run events

/-! ## The member functions -/

/-- `ClientImpl::Cleanup`. -/
def cleanup (freeWouldBlock : Bool) : ClientM UInt8 Unit := do
  modify Ctx.useCommandChannel
  modify Ctx.useCommandChannel
  modify (Ctx.freeCommandChannel · freeWouldBlock)

/-- `ClientImpl::command`. -/
def command (commandStr : List UInt8) (script : CommandScript) : ClientM UInt8 Int := do
  modify (Ctx.assign · fun client => { client with commandStr := commandStr })
  phase .DoCreateChannel script.create
  phase .DoExecute script.execute
  modify (Ctx.assign · fun client => { client with commandChannelReadStr := [] })
  phase .readCommandChannel script.reads
  phase .DoCloseChannel script.close
  cleanup script.freeWouldBlock
  return 0

/-- `ClientImpl::forwarding`. -/
def forwarding (script : ForwardingScript) : ClientM UInt8 Int := do
  modify (Ctx.setBlocking · true)
  modify (Ctx.listen · script.listened)
  if (← get).client.listener.isNone then return -1
  modify (Ctx.acceptForwarded · script.accepted)
  if (← get).client.listenChannel.isNone then return -1
  modify (Ctx.setBlocking · false)
  modify (Ctx.assign · fun client => { client with listenChannelReadStr := [] })
  phase .readListenChannel script.reads
  return 0

/-! ## When forwarding runs its loop -/

/-- A `forwarding` gets a listen channel: there is a session to ask for it, and both
calls succeed. -/
def GetsChannel (script : ForwardingScript) (client : ClientImpl UInt8) : Prop :=
  client.session.isSome ∧ script.listened ∧ script.accepted

instance (script : ForwardingScript) (client : ClientImpl UInt8) :
    Decidable (GetsChannel script client) :=
  inferInstanceAs (Decidable (_ ∧ _))

/-- `forwarding` before it stops the blocking API. -/
def openListenChannel (script : ForwardingScript) (ctx : Ctx UInt8) : Ctx UInt8 :=
  ((ctx.setBlocking true).listen script.listened).acceptForwarded script.accepted

/-- The rest of `forwarding`. -/
def readForwarded (script : ForwardingScript) : ClientM UInt8 Int := do
  modify (Ctx.setBlocking · false)
  modify (Ctx.assign · fun client => { client with listenChannelReadStr := [] })
  phase .readListenChannel script.reads
  return 0

section Forwarding

open Lib.Effects

theorem listener_listen (ctx : Ctx UInt8) (listened : Bool) :
    (ctx.listen listened).client.listener.isSome ↔ ctx.client.session.isSome ∧ listened := by
  unfold Ctx.listen
  cases ctx.client.session with
  | none => simp
  | some s => cases listened <;> simp

theorem listenChannel_acceptForwarded (ctx : Ctx UInt8) (accepted : Bool)
    (held : ctx.client.session.isSome) :
    ((ctx.listen true).acceptForwarded accepted).client.listenChannel.isSome ↔ accepted := by
  obtain ⟨s, session⟩ := Option.isSome_iff_exists.mp held
  simp only [Ctx.listen, session, Ctx.acceptForwarded, Libssh2.forwardListen, if_true,
    Option.bind_some]
  have found (lib : Libssh2 UInt8) : (lib.useSession (some s)).listeners = lib.listeners := by
    simp only [Libssh2.useSession, Libssh2.note]
    split <;> rfl
  rw [found, List.getElem?_concat_length]
  cases accepted <;> simp

/-- With a channel `forwarding` runs its loop on it. -/
theorem forwarding_of_getsChannel {script : ForwardingScript} {ctx : Ctx UInt8}
    (gets : GetsChannel script ctx.client) :
    forwarding script ctx = readForwarded script (openListenChannel script ctx) := by
  obtain ⟨held, listened, accepted⟩ := gets
  have heldStill : (ctx.setBlocking true).client.session.isSome := held
  have listens := (listener_listen (ctx.setBlocking true) true).mpr ⟨heldStill, rfl⟩
  have accepts := (listenChannel_acceptForwarded (ctx.setBlocking true) true heldStill).mpr rfl
  simp only [forwarding, openListenChannel, listened, accepted, run_bind, run_modify, run_get,
    Option.isNone_eq_false_iff.mpr listens, Option.isNone_eq_false_iff.mpr accepts,
    Bool.false_eq_true, if_false]
  rfl

/-- Without a channel `forwarding` returns -1 before it stops the blocking API. -/
theorem forwarding_of_not_getsChannel {script : ForwardingScript} {ctx : Ctx UInt8}
    (gets : ¬ GetsChannel script ctx.client) :
    ∃ after, forwarding script ctx = .ok (-1) after ∧
      (after = (ctx.setBlocking true).listen script.listened ∨
        after = openListenChannel script ctx) := by
  by_cases listens :
      ((ctx.setBlocking true).listen script.listened).client.listener.isSome
  · obtain ⟨held, listened⟩ := (listener_listen (ctx.setBlocking true) script.listened).mp listens
    have refused : ¬ (openListenChannel script ctx).client.listenChannel.isSome := by
      rw [openListenChannel, listened, listenChannel_acceptForwarded _ _ held]
      exact fun accepted => gets ⟨held, listened, accepted⟩
    refine ⟨openListenChannel script ctx, ?_, .inr rfl⟩
    rw [openListenChannel] at refused ⊢
    rw [Option.not_isSome_iff_eq_none] at refused
    simp only [forwarding, run_bind, run_modify, run_get, Option.isNone_eq_false_iff.mpr listens,
      refused, Option.isNone_none, Bool.false_eq_true, if_false, if_true, run_pure]
  · rw [Option.not_isSome_iff_eq_none] at listens
    refine ⟨_, ?_, .inl rfl⟩
    simp only [forwarding, run_bind, run_modify, run_get, listens, Option.isNone_none, if_true,
      run_pure]

end Forwarding

end ClientImpl

/-! ## What the member functions keep -/

/-- The members that refer to handles. -/
structure Handles where
  session : Option SessionId
  listener : Option ListenerId
  commandChannel : Option ChannelId
  listenChannel : Option ChannelId
  threadIo : Option StdThread
  deriving DecidableEq, Repr

def ClientImpl.handles {β : Type} (client : ClientImpl β) : Handles where
  session := client.session
  listener := client.listener
  commandChannel := client.commandChannel
  listenChannel := client.listenChannel
  threadIo := client.threadIo

/-- A property that no call of `tunnel` and `command` breaks, and no call on the listen
channel. -/
structure Steady (P : Ctx UInt8 → Prop) : Prop where
  assigns : ∀ (ctx : Ctx UInt8) (f : ClientImpl UInt8 → ClientImpl UInt8),
    (f ctx.client).handles = ctx.client.handles → P ctx → P (ctx.assign f)
  usesSession : ∀ ctx, P ctx → P ctx.useSession
  usesCommandChannel : ∀ ctx, P ctx → P ctx.useCommandChannel
  usesListenChannel : ∀ ctx, P ctx → P ctx.useListenChannel
  opens : ∀ ctx opened, P ctx → P (ctx.openCommandChannel opened)
  frees : ∀ ctx eagain, P ctx → P (ctx.freeCommandChannel eagain)

namespace Steady

open Lib.Effects ClientImpl

variable {P : Ctx UInt8 → Prop}

/-- An assignment to other members. -/
theorem keeps_assign (steady : Steady P) {f : ClientImpl UInt8 → ClientImpl UInt8}
    (same : ∀ client : ClientImpl UInt8, (f client).handles = client.handles) :
    Keeps P Fault.Recoverable (modify (Ctx.assign · f) : ClientM UInt8 Unit) :=
  .modify fun ctx holds => steady.assigns ctx f (same ctx.client) holds

theorem keeps_doCreateChannel (steady : Steady P) (answers : Answers) :
    Keeps P Fault.Recoverable (doCreateChannel answers) := by
  refine .bind (.modify fun ctx => steady.opens ctx _) fun _ => .bind .get fun ctx => ?_
  refine .ite (fun _ => .pure _) fun _ => ?_
  refine .bind (.modify steady.usesSession) fun _ => ?_
  exact .ite (fun _ => .pure _) fun _ => .throw nofun

/-- `DoExecute` and `DoCloseChannel`. -/
theorem keeps_channelCall (steady : Steady P) (rc : Int) (what : String) :
    Keeps P Fault.Recoverable (do
      modify Ctx.useCommandChannel
      if rc = libssh2ErrorEagain then return .STILL_WORKING
      if rc ≠ 0 then throw (.logicError what)
      return .WORK_DONE : ClientM UInt8 WorkState) := by
  refine .bind (.modify steady.usesCommandChannel) fun _ => ?_
  refine .ite (fun _ => .pure _) fun _ => ?_
  exact .ite (fun _ => .bind (.throw nofun) fun _ => .pure _) fun _ => .pure _

theorem keeps_doReadCommandChannel (steady : Steady P) (answers : Answers) :
    Keeps P Fault.Recoverable (doReadCommandChannel answers) := by
  refine .bind (.modify steady.usesCommandChannel) fun _ => .get_bind fun ctx holds => ?_
  rw [readCommandChannel_cons]
  have same : (ctx.client.afterRead answers.read).handles = ctx.client.handles := rfl
  exact steady.assigns ctx (fun _ => ctx.client.afterRead answers.read) same holds

theorem keeps_doReadListenChannel (steady : Steady P) (answers : Answers) :
    Keeps P Fault.Recoverable (doReadListenChannel answers) := by
  refine .bind (.modify steady.usesListenChannel) fun _ => ?_
  refine .ite (fun _ => .bind (steady.keeps_assign fun _ => rfl) fun _ => .pure _) fun _ => ?_
  refine .ite (fun _ => .pure _) fun _ => ?_
  exact .ite (fun _ => .bind (.throw nofun) fun _ => .pure _) fun _ => .pure _

theorem keeps_doWork (steady : Steady P) (work : Work) (answers : Answers) :
    Keeps P Fault.Recoverable (doWork work answers) := by
  cases work with
  | DoCreateChannel => exact steady.keeps_doCreateChannel answers
  | DoExecute => exact steady.keeps_channelCall answers.rc _
  | readCommandChannel => exact steady.keeps_doReadCommandChannel answers
  | DoCloseChannel => exact steady.keeps_channelCall answers.rc _
  | readListenChannel => exact steady.keeps_doReadListenChannel answers

theorem keeps_stop (steady : Steady P) : Keeps P Fault.Recoverable stop :=
  steady.keeps_assign fun _ => rfl

theorem keeps_arm (steady : Steady P) (handler : Handler) :
    Keeps P Fault.Recoverable (arm handler) :=
  steady.keeps_assign fun _ => rfl

theorem keeps_loopAsync (steady : Steady P) (handler : Handler) (answers : Answers) :
    Keeps P Fault.Recoverable (loopAsync handler answers) := by
  refine .bind .get fun _ => .ite (fun _ => .pure _) fun _ => ?_
  refine .bind (steady.keeps_doWork _ _) fun _ => ?_
  exact .ite (fun _ => steady.keeps_arm handler) fun _ => steady.keeps_stop

theorem keeps_dispatch (steady : Steady P) (event : Event) :
    Keeps P Fault.Recoverable (dispatch event) := by
  refine .bind .get fun ctx => ?_
  split
  · exact .bind (steady.keeps_assign fun _ => rfl) fun _ => steady.keeps_loopAsync _ _
  · exact .pure _

theorem keeps_runEnds (steady : Steady P) : Keeps P Fault.Recoverable runEnds := by
  refine .bind .get fun _ => .ite (fun _ => .pure _) fun _ => ?_
  exact .ite (fun _ => .bind steady.keeps_stop fun _ => .pure _) fun _ => .pure _

/-- A run keeps what its events keep. -/
theorem keeps_run (steady : Steady P) (events : List Event) :
    Keeps P Fault.Recoverable (run events) := by
  induction events with
  | nil => exact .bind steady.keeps_runEnds fun _ => .ite (fun _ => .throw nofun) fun _ => .pure _
  | cons event events ih =>
      refine .bind steady.keeps_runEnds fun _ => .ite (fun _ => .pure _) fun _ => ?_
      exact .bind (steady.keeps_dispatch event) fun _ => ih

theorem keeps_phase (steady : Steady P) (work : Work) (events : List Event) :
    Keeps P Fault.Recoverable (phase work events) :=
  .bind (steady.keeps_assign fun _ => rfl) fun _ => .bind (steady.keeps_arm _) fun _ =>
    .bind (steady.keeps_arm _) fun _ => steady.keeps_run events

theorem keeps_cleanup (steady : Steady P) (freeWouldBlock : Bool) :
    Keeps P Fault.Recoverable (cleanup freeWouldBlock) :=
  .bind (.modify steady.usesCommandChannel) fun _ =>
    .bind (.modify steady.usesCommandChannel) fun _ =>
      .modify fun ctx => steady.frees ctx freeWouldBlock

theorem keeps_command (steady : Steady P) (commandStr : List UInt8) (script : CommandScript) :
    Keeps P Fault.Recoverable (command commandStr script) := by
  refine .bind (steady.keeps_assign fun _ => rfl) fun _ => ?_
  refine .bind (steady.keeps_phase _ _) fun _ => .bind (steady.keeps_phase _ _) fun _ => ?_
  refine .bind (steady.keeps_assign fun _ => rfl) fun _ => ?_
  refine .bind (steady.keeps_phase _ _) fun _ => .bind (steady.keeps_phase _ _) fun _ => ?_
  exact .bind (steady.keeps_cleanup _) fun _ => .pure _

theorem keeps_tunnel (steady : Steady P) (opened : Bool) :
    Keeps P Fault.Recoverable (tunnel opened) := by
  refine .bind (.modify fun ctx => steady.opens ctx _) fun _ => .bind .get fun _ => ?_
  exact .ite (fun _ => .pure _) fun _ => .pure _

end Steady

/-- A property of the handles that no call of `tunnel`, `command` or `forwarding`
breaks. -/
structure Stable (P : Ctx UInt8 → Prop) : Prop where
  assigns : ∀ (ctx : Ctx UInt8) (f : ClientImpl UInt8 → ClientImpl UInt8),
    (f ctx.client).handles = ctx.client.handles → P ctx → P (ctx.assign f)
  usesSession : ∀ ctx, P ctx → P ctx.useSession
  usesCommandChannel : ∀ ctx, P ctx → P ctx.useCommandChannel
  usesListenChannel : ∀ ctx, P ctx → P ctx.useListenChannel
  setsBlocking : ∀ ctx blocking, P ctx → P (ctx.setBlocking blocking)
  opens : ∀ ctx opened, P ctx → P (ctx.openCommandChannel opened)
  frees : ∀ ctx eagain, P ctx → P (ctx.freeCommandChannel eagain)
  listens : ∀ ctx listened, P ctx → P (ctx.listen listened)
  accepts : ∀ ctx accepted, P ctx → P (ctx.acceptForwarded accepted)

namespace Stable

open Lib.Effects ClientImpl

variable {P : Ctx UInt8 → Prop}

theorem steady (stable : Stable P) : Steady P where
  assigns := stable.assigns
  usesSession := stable.usesSession
  usesCommandChannel := stable.usesCommandChannel
  usesListenChannel := stable.usesListenChannel
  opens := stable.opens
  frees := stable.frees

theorem keeps_forwarding (stable : Stable P) (script : ForwardingScript) :
    Keeps P Fault.Recoverable (forwarding script) := by
  refine .bind (.modify fun ctx => stable.setsBlocking ctx true) fun _ => ?_
  refine .bind (.modify fun ctx => stable.listens ctx _) fun _ => .bind .get fun _ => ?_
  refine .ite (fun _ => .pure _) fun _ => ?_
  refine .bind (.modify fun ctx => stable.accepts ctx _) fun _ => .bind .get fun _ => ?_
  refine .ite (fun _ => .pure _) fun _ => ?_
  refine .bind (.modify fun ctx => stable.setsBlocking ctx false) fun _ => ?_
  refine .bind (stable.steady.keeps_assign fun _ => rfl) fun _ => ?_
  exact .bind (stable.steady.keeps_phase _ _) fun _ => .pure _

end Stable

end BookFilerSsh
