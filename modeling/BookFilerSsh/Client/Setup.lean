import BookFilerSsh.Client.State
import BookFilerSsh.Lib.Effects

/-!
# Setting a client up and taking it down

`ClientImpl::connect` and `tunnel` with the functions they call, and the
destructor. Each takes the results of the calls it makes: whether the socket gets
connected, whether libssh2 returns a session, the codes of handshake and
authentication, whether a channel is opened.

The stages of `connect` are functions of their own, since the accept loop of the
tunnel server blocks in each of them. Their effect on a client that reaches them
is stated once (`connect_session`, `tunnel_run`, `destruct_run`).
-/

set_option autoImplicit false

namespace BookFilerSsh

variable {β : Type}

/-- How `ConnectSocket` ends. -/
inductive SocketOutcome where
  | resolveThrows
  | connectThrows
  | connected
  deriving DecidableEq, Repr

/-- The results of the calls `connect` makes. -/
structure ConnectResults where
  socket : SocketOutcome
  sessionCreated : Bool
  handshake : Int
  auth : Int
  deriving DecidableEq, Repr

/-- Which of the releasing calls of the destructor would block. -/
structure ReleaseResults where
  commandChannel : Bool := false
  listenChannel : Bool := false
  listener : Bool := false
  session : Bool := false
  deriving DecidableEq, Repr

/-! ## The stages as functions of client and library -/

namespace Ctx

/-- The socket of the client is open. -/
def openSocket (ctx : Ctx β) : Ctx β :=
  { ctx with client := { ctx.client with sockOpen := true } }

/-- `session = libssh2_session_init(); libssh2_session_set_blocking(session, 1);` -/
def openSession (ctx : Ctx β) : Ctx β where
  lib := ctx.lib.sessionInit.setBlocking (some ctx.lib.sessions.length) true
  client := { ctx.client with session := some ctx.lib.sessions.length }

/-- `libssh2_session_init` returned null. -/
def loseSession (ctx : Ctx β) : Ctx β :=
  { ctx with client := { ctx.client with session := none } }

/-- A call on the session. -/
def useSession (ctx : Ctx β) : Ctx β :=
  { ctx with lib := ctx.lib.useSession ctx.client.session }

/-- `threadIo = std::make_shared<std::thread>(&ClientImpl::runIoContext, this);` -/
def startThreadIo (ctx : Ctx β) : Ctx β :=
  { ctx with client := { ctx.client with threadIo := some { joinable := true } } }

/-- The `threadIo` member holds a thread that was not joined. -/
def holdsThread (ctx : Ctx β) : Bool :=
  ctx.client.threadIo.any StdThread.joinable

/-- `libssh2_channel_direct_tcpip_ex` and `libssh2_channel_open_session`: a null
session is refused. -/
def openCommandChannel (ctx : Ctx β) (opened : Bool) : Ctx β :=
  match ctx.client.session with
  | some s =>
      if opened then
        { lib := (ctx.lib.useSession (some s)).openChannel s
          client := { ctx.client with commandChannel := some ctx.lib.channels.length } }
      else
        { lib := ctx.lib.useSession (some s)
          client := { ctx.client with commandChannel := none } }
  | none => { ctx with client := { ctx.client with commandChannel := none } }

/-- `libssh2_channel_free(commandChannel); commandChannel = nullptr;` -/
def freeCommandChannel (ctx : Ctx β) (eagain : Bool) : Ctx β where
  lib := ctx.lib.channelFree ctx.client.commandChannel eagain
  client := { ctx.client with commandChannel := none }

/-- `libssh2_channel_free(listenChannel); listenChannel = nullptr;` -/
def freeListenChannel (ctx : Ctx β) (eagain : Bool) : Ctx β where
  lib := ctx.lib.channelFree ctx.client.listenChannel eagain
  client := { ctx.client with listenChannel := none }

/-- `libssh2_channel_forward_cancel(listener); listener = nullptr;` -/
def cancelListener (ctx : Ctx β) (eagain : Bool) : Ctx β where
  lib := ctx.lib.forwardCancel ctx.client.listener eagain
  client := { ctx.client with listener := none }

/-- Blocking mode, `libssh2_session_disconnect`, `libssh2_session_free`,
`session = nullptr;` -/
def freeSession (ctx : Ctx β) (eagain : Bool) : Ctx β where
  lib := ((ctx.lib.setBlocking ctx.client.session true).useSession ctx.client.session).sessionFree
    ctx.client.session eagain
  client := { ctx.client with session := none }

/-- The socket is shut down and closed. -/
def closeSocket (ctx : Ctx β) : Ctx β :=
  { ctx with client := { ctx.client with sockOpen := false } }

theorem freeCommandChannel_null {ctx : Ctx β} (null : ctx.client.commandChannel = none)
    (eagain : Bool) : ctx.freeCommandChannel eagain = ctx := by
  obtain ⟨lib, client⟩ := ctx
  cases client
  simp_all [freeCommandChannel, Libssh2.channelFree]

theorem freeListenChannel_null {ctx : Ctx β} (null : ctx.client.listenChannel = none)
    (eagain : Bool) : ctx.freeListenChannel eagain = ctx := by
  obtain ⟨lib, client⟩ := ctx
  cases client
  simp_all [freeListenChannel, Libssh2.channelFree]

theorem cancelListener_null {ctx : Ctx β} (null : ctx.client.listener = none)
    (eagain : Bool) : ctx.cancelListener eagain = ctx := by
  obtain ⟨lib, client⟩ := ctx
  cases client
  simp_all [cancelListener, Libssh2.forwardCancel]

theorem freeSession_null {ctx : Ctx β} (null : ctx.client.session = none)
    (eagain : Bool) : ctx.freeSession eagain = ctx := by
  obtain ⟨lib, client⟩ := ctx
  cases client
  simp_all [freeSession, Libssh2.setBlocking, Libssh2.useSession, Libssh2.sessionFree]

theorem closeSocket_closed {ctx : Ctx β} (closed : ctx.client.sockOpen = false) :
    ctx.closeSocket = ctx := by
  obtain ⟨lib, client⟩ := ctx
  cases client
  simp_all [closeSocket]

/-- What the body of the destructor leaves. -/
def released (ctx : Ctx β) (results : ReleaseResults) : Ctx β :=
  ((((ctx.freeCommandChannel results.commandChannel).freeListenChannel
    results.listenChannel).cancelListener results.listener).freeSession
      results.session).closeSocket

/-- The body of the destructor does not look at the thread. -/
theorem holdsThread_released (ctx : Ctx β) (results : ReleaseResults) :
    (ctx.released results).holdsThread = ctx.holdsThread := by
  simp only [holdsThread, released, closeSocket, freeSession, cancelListener, freeListenChannel,
    freeCommandChannel]

end Ctx

/-! ## The member functions -/

namespace ClientImpl

/-- `ClientImpl::ConnectSocket`. -/
def connectSocket : SocketOutcome → ClientM β Unit
  | .resolveThrows => throw .systemError
  | .connectThrows => do
      modify Ctx.openSocket
      throw .systemError
  | .connected => modify Ctx.openSocket

/-- `ClientImpl::CreateSSHSession`. -/
def createSSHSession (created : Bool) : ClientM β Unit :=
  if created then modify Ctx.openSession
  else do
    modify Ctx.loseSession
    throw (.logicError "Error creating session")

/-- `libssh2_session_handshake` and `libssh2_userauth_password`. -/
def sessionCall (rc : Int) : ClientM β Int := do
  modify Ctx.useSession
  return rc

/-- Assigning `threadIo` destroys the thread it held. -/
def startThreadIo : ClientM β Unit := do
  if (← get).holdsThread then throw .terminate
  modify Ctx.startThreadIo

/-- `ClientImpl::connect`. -/
def connect (results : ConnectResults) : ClientM β Int := do
  connectSocket results.socket
  createSSHSession results.sessionCreated
  let rc ← sessionCall results.handshake
  if rc ≠ 0 then return -1
  startThreadIo
  let rc ← sessionCall results.auth
  if rc ≠ 0 then return -1
  return 0

/-- `ClientImpl::tunnel`. -/
def tunnel (opened : Bool) : ClientM β Int := do
  modify (Ctx.openCommandChannel · opened)
  if (← get).client.commandChannel.isNone then return -1
  return 0

/-- A block of the destructor, entered when a handle is not null. -/
def whenHeld (test : Ctx β → Bool) (block : Ctx β → Ctx β) : ClientM β Unit := do
  if test (← get) then modify block

/-- `ClientImpl::~ClientImpl`, then the destruction of the members. -/
def destruct (results : ReleaseResults) : ClientM β Unit := do
  whenHeld (·.client.commandChannel.isSome) (·.freeCommandChannel results.commandChannel)
  whenHeld (·.client.listenChannel.isSome) (·.freeListenChannel results.listenChannel)
  whenHeld (·.client.listener.isSome) (·.cancelListener results.listener)
  whenHeld (·.client.session.isSome) (·.freeSession results.session)
  whenHeld (·.client.sockOpen) (·.closeSocket)
  if (← get).holdsThread then throw .terminate

/-! ## What the member functions do -/

open Lib.Effects

theorem connect_resolveThrows (ctx : Ctx β) (created : Bool) (handshake auth : Int) :
    connect ⟨.resolveThrows, created, handshake, auth⟩ ctx = .error .systemError ctx := rfl

theorem connect_connectThrows (ctx : Ctx β) (created : Bool) (handshake auth : Int) :
    connect ⟨.connectThrows, created, handshake, auth⟩ ctx =
      .error .systemError ctx.openSocket := rfl

theorem connect_noSession (ctx : Ctx β) (handshake auth : Int) :
    connect ⟨.connected, false, handshake, auth⟩ ctx =
      .error (.logicError "Error creating session") ctx.openSocket.loseSession := rfl

/-- `connect` once it has a session. -/
theorem connect_session (ctx : Ctx β) (handshake auth : Int) :
    connect ⟨.connected, true, handshake, auth⟩ ctx =
      if handshake ≠ 0 then .ok (-1) ctx.openSocket.openSession.useSession
      else if ctx.holdsThread then .error .terminate ctx.openSocket.openSession.useSession
      else
        .ok (if auth ≠ 0 then -1 else 0)
          ctx.openSocket.openSession.useSession.startThreadIo.useSession := by
  have sameThread : ctx.openSocket.openSession.useSession.holdsThread = ctx.holdsThread := rfl
  simp only [connect, connectSocket, createSSHSession, sessionCall, startThreadIo, run_bind,
    run_modify, if_true, run_pure, run_ite, run_get, sameThread]
  by_cases failed : handshake = 0 <;> by_cases thread : ctx.holdsThread = true <;>
    by_cases refused : auth = 0 <;>
      simp [failed, thread, refused, run_throw]

theorem tunnel_run (ctx : Ctx β) (opened : Bool) :
    tunnel opened ctx =
      .ok (if (ctx.openCommandChannel opened).client.commandChannel.isNone then -1 else 0)
        (ctx.openCommandChannel opened) := by
  simp only [tunnel, run_bind, run_modify, run_get, run_ite, run_pure]
  split <;> rfl

/-- A block that does nothing to a null handle needs no test. -/
theorem whenHeld_run {test : Ctx β → Bool} {block : Ctx β → Ctx β} {ctx : Ctx β}
    (idle : test ctx = false → block ctx = ctx) :
    whenHeld test block ctx = .ok () (block ctx) := by
  simp only [whenHeld, run_bind, run_get, run_ite, run_modify]
  cases held : test ctx with
  | true => rfl
  | false => simpa [run_pure] using (idle held).symm

/-- Releasing a null handle changes nothing, so the tests of the destructor do
not show in its effect. -/
theorem destruct_run (ctx : Ctx β) (results : ReleaseResults) :
    destruct results ctx =
      if ctx.holdsThread then .error .terminate (ctx.released results)
      else .ok () (ctx.released results) := by
  simp only [destruct, run_bind]
  rw [whenHeld_run fun null => Ctx.freeCommandChannel_null (by simpa using null) _]
  simp only
  rw [whenHeld_run fun null => Ctx.freeListenChannel_null (by simpa using null) _]
  simp only
  rw [whenHeld_run fun null => Ctx.cancelListener_null (by simpa using null) _]
  simp only
  rw [whenHeld_run fun null => Ctx.freeSession_null (by simpa using null) _]
  simp only
  rw [whenHeld_run fun closed => Ctx.closeSocket_closed (by simpa using closed)]
  simp only [run_get, run_ite, run_throw, run_pure]
  rw [← ctx.holdsThread_released results]
  rfl

end ClientImpl

/-! ## What setting up leaves alone -/

namespace Ctx

/-- A call on a client that moves no bytes and opens no channel. A session it gets
is a new one. -/
structure Quiet (before after : Ctx β) : Prop where
  commandStr : after.client.commandStr = before.client.commandStr
  readStr : after.client.commandChannelReadStr = before.client.commandChannelReadStr
  traffic : after.lib.traffic = before.lib.traffic
  channel : after.client.commandChannel = before.client.commandChannel ∨
    after.client.commandChannel = none
  sessions : before.lib.sessions.length ≤ after.lib.sessions.length
  session : ∀ sid, after.client.session = some sid → before.client.session = some sid ∨
    (before.lib.sessions.length ≤ sid ∧ sid < after.lib.sessions.length)
  listenChannel : before.client.listenChannel = none → after.client.listenChannel = none
  spares : before.client.commandChannel = none → before.client.listenChannel = none →
    ∀ (c : ChannelId) (record : Channel β), before.lib.channels[c]? = some record →
      record.session < before.lib.sessions.length → before.client.session ≠ some record.session →
        after.lib.channels[c]? = some record

namespace Quiet

theorem refl (ctx : Ctx β) : Quiet ctx ctx :=
  ⟨rfl, rfl, rfl, Or.inl rfl, Nat.le_refl _, fun _ holds => Or.inl holds, id,
    fun _ _ _ _ found _ _ => found⟩

theorem trans {first second third : Ctx β} (one : Quiet first second)
    (two : Quiet second third) : Quiet first third where
  commandStr := two.commandStr.trans one.commandStr
  readStr := two.readStr.trans one.readStr
  traffic := two.traffic.trans one.traffic
  channel := by
    rcases two.channel with same | null
    · rw [same]
      exact one.channel
    · exact Or.inr null
  sessions := Nat.le_trans one.sessions two.sessions
  session := by
    intro sid holds
    rcases two.session sid holds with older | ⟨after, before⟩
    · rcases one.session sid older with oldest | ⟨from_, below⟩
      · exact Or.inl oldest
      · exact Or.inr ⟨from_, Nat.lt_of_lt_of_le below two.sessions⟩
    · exact Or.inr ⟨Nat.le_trans one.sessions after, before⟩
  listenChannel := fun null => two.listenChannel (one.listenChannel null)
  spares := by
    intro null nullListen c record found inside other
    have nullMiddle : second.client.commandChannel = none := by
      rcases one.channel with same | gone
      · exact same.trans null
      · exact gone
    refine two.spares nullMiddle (one.listenChannel nullListen) c record
      (one.spares null nullListen c record found inside other)
      (Nat.lt_of_lt_of_le inside one.sessions) fun holds => ?_
    rcases one.session _ holds with older | ⟨new, -⟩
    · exact other older
    · exact absurd inside (Nat.not_lt.mpr new)

/-- A call that only touches the ledger, and the client by dropping pointers. -/
theorem of_lib {ctx after : Ctx β} (lib : ctx.lib.Quiet after.lib)
    (commandStr : after.client.commandStr = ctx.client.commandStr)
    (readStr : after.client.commandChannelReadStr = ctx.client.commandChannelReadStr)
    (channel : after.client.commandChannel = ctx.client.commandChannel ∨
      after.client.commandChannel = none)
    (session : after.client.session = ctx.client.session ∨ after.client.session = none)
    (listenChannel : after.client.listenChannel = ctx.client.listenChannel ∨
      after.client.listenChannel = none)
    (spares : ctx.client.commandChannel = none → ctx.client.listenChannel = none →
      ctx.lib.Spares after.lib ctx.client.session) :
    Quiet ctx after := by
  refine ⟨commandStr, readStr, lib.traffic, channel, Nat.le_of_eq lib.sessions.symm,
    fun sid holds => ?_, fun null => ?_, fun null nullListen c record found _ other =>
      spares null nullListen c record found other⟩
  · rcases session with same | null
    · exact Or.inl (same ▸ holds)
    · rw [null] at holds
      cases holds
  · rcases listenChannel with same | gone
    · exact same.trans null
    · exact gone

/-- An assignment to members that drops pointers at most. -/
theorem of_client {ctx after : Ctx β} (lib : after.lib = ctx.lib)
    (commandStr : after.client.commandStr = ctx.client.commandStr)
    (readStr : after.client.commandChannelReadStr = ctx.client.commandChannelReadStr)
    (channel : after.client.commandChannel = ctx.client.commandChannel ∨
      after.client.commandChannel = none)
    (session : after.client.session = ctx.client.session ∨ after.client.session = none)
    (listenChannel : after.client.listenChannel = ctx.client.listenChannel) :
    Quiet ctx after :=
  .of_lib (lib ▸ ⟨rfl, rfl⟩) commandStr readStr channel session (Or.inl listenChannel)
    fun _ _ => .of_eq (congrArg Libssh2.channels lib) _

end Quiet

theorem quiet_openSession (ctx : Ctx β) : Quiet ctx ctx.openSession where
  commandStr := rfl
  readStr := rfl
  traffic := (ctx.lib.sessionInit.quiet_setBlocking _ _).traffic
  channel := Or.inl rfl
  sessions := by simp [openSession, Libssh2.setBlocking, Libssh2.sessionInit]
  session := by
    intro sid holds
    simp only [openSession, Option.some.injEq] at holds
    subst holds
    exact Or.inr ⟨Nat.le_refl _, by simp [openSession, Libssh2.setBlocking, Libssh2.sessionInit]⟩
  listenChannel := id
  spares := fun _ _ c record found _ _ => by
    simpa [openSession, Libssh2.sessionInit] using found

theorem quiet_released (ctx : Ctx β) (results : ReleaseResults) :
    Quiet ctx (ctx.released results) := by
  have command : Quiet ctx (ctx.freeCommandChannel results.commandChannel) :=
    .of_lib (ctx.lib.quiet_channelFree _ _) rfl rfl (Or.inr rfl) (Or.inl rfl) (Or.inl rfl)
      fun null _ => .of_eq (by rw [freeCommandChannel_null null]) _
  have listen (ctx : Ctx β) : Quiet ctx (ctx.freeListenChannel results.listenChannel) :=
    .of_lib (ctx.lib.quiet_channelFree _ _) rfl rfl (Or.inl rfl) (Or.inl rfl) (Or.inr rfl)
      fun _ null => .of_eq (by rw [freeListenChannel_null null]) _
  have listener (ctx : Ctx β) : Quiet ctx (ctx.cancelListener results.listener) :=
    .of_lib (ctx.lib.quiet_forwardCancel _ _) rfl rfl (Or.inl rfl) (Or.inl rfl) (Or.inl rfl)
      fun _ _ => .of_eq (ctx.lib.forwardCancel_channels _ _) _
  have session (ctx : Ctx β) : Quiet ctx (ctx.freeSession results.session) := by
    refine .of_lib ⟨?_, ?_⟩ rfl rfl (Or.inl rfl) (Or.inr rfl) (Or.inl rfl)
      fun _ _ c record found other => ?_
    · exact (Libssh2.quiet_sessionFree _ _ _).traffic.trans
        ((Libssh2.quiet_useSession _ _).traffic.trans (Libssh2.quiet_setBlocking _ _ _).traffic)
    · exact (Libssh2.quiet_sessionFree _ _ _).sessions.trans
        ((Libssh2.quiet_useSession _ _).sessions.trans (Libssh2.quiet_setBlocking _ _ _).sessions)
    · exact Libssh2.spares_sessionFree _ _ _ c record (by simpa using found) other
  have socket (ctx : Ctx β) : Quiet ctx ctx.closeSocket :=
    .of_client rfl rfl rfl (Or.inl rfl) (Or.inl rfl) rfl
  exact (((command.trans (listen _)).trans (listener _)).trans (session _)).trans (socket _)

theorem quiet_useSession (ctx : Ctx β) : Quiet ctx ctx.useSession :=
  .of_lib (ctx.lib.quiet_useSession _) rfl rfl (Or.inl rfl) (Or.inl rfl) (Or.inl rfl)
    fun _ _ => .of_eq (ctx.lib.useSession_channels _) _

/-- A channel is opened on a session only. -/
theorem session_of_openCommandChannel {ctx : Ctx β} {opened : Bool}
    (got : (ctx.openCommandChannel opened).client.commandChannel ≠ none) :
    opened = true ∧ ∃ sid, ctx.client.session = some sid := by
  cases session : ctx.client.session with
  | none => simp [openCommandChannel, session] at got
  | some sid =>
      cases opened with
      | true => exact ⟨rfl, sid, rfl⟩
      | false => simp [openCommandChannel, session] at got

/-- A channel that is opened is a new channel of the session. -/
theorem openCommandChannel_session {ctx : Ctx β} {sid : SessionId}
    (session : ctx.client.session = some sid) :
    ctx.openCommandChannel true =
      { lib := (ctx.lib.useSession (some sid)).openChannel sid
        client := { ctx.client with commandChannel := some ctx.lib.channels.length } } := by
  simp [openCommandChannel, session]

/-- Opening a channel is quiet when no channel is opened. -/
theorem quiet_openCommandChannel {ctx : Ctx β} {opened : Bool}
    (refused : (ctx.openCommandChannel opened).client.commandChannel = none) :
    Quiet ctx (ctx.openCommandChannel opened) := by
  cases session : ctx.client.session with
  | none =>
      simp only [openCommandChannel, session]
      exact .of_client rfl rfl rfl (Or.inr rfl) (Or.inr rfl) rfl
  | some sid =>
      cases opened with
      | true => simp [openCommandChannel, session] at refused
      | false =>
          simp only [openCommandChannel, session, Bool.false_eq_true, if_false]
          exact .of_lib (ctx.lib.quiet_useSession (some sid)) rfl rfl (Or.inr rfl)
            (Or.inl session.symm) (Or.inl rfl) fun _ _ => .of_eq (ctx.lib.useSession_channels _) _

end Ctx

namespace ClientImpl

open Lib.Effects

variable (before : Ctx β)

theorem quiet_connectSocket (outcome : SocketOutcome) :
    Keeps (Ctx.Quiet before) (fun _ => True) (connectSocket outcome) := by
  have opens : Keeps (Ctx.Quiet before) (fun _ => True) (modify Ctx.openSocket : ClientM β Unit) :=
    .modify fun ctx quiet => quiet.trans (.of_client rfl rfl rfl (Or.inl rfl) (Or.inl rfl) rfl)
  cases outcome with
  | resolveThrows => exact .throw trivial
  | connectThrows => exact opens.bind fun _ => .throw trivial
  | connected => exact opens

theorem quiet_createSSHSession (created : Bool) :
    Keeps (Ctx.Quiet before) (fun _ => True) (createSSHSession created) := by
  refine .ite (fun _ => ?_) fun _ => .bind ?_ fun _ => .throw trivial
  · exact .modify fun ctx quiet => quiet.trans ctx.quiet_openSession
  · exact .modify fun ctx quiet =>
      quiet.trans (.of_client rfl rfl rfl (Or.inl rfl) (Or.inr rfl) rfl)

theorem quiet_sessionCall (rc : Int) : Keeps (Ctx.Quiet before) (fun _ => True) (sessionCall rc) :=
  .bind (.modify fun ctx quiet => quiet.trans ctx.quiet_useSession) fun _ => .pure _

theorem quiet_startThreadIo :
    Keeps (Ctx.Quiet before) (fun _ => True) (startThreadIo : ClientM β Unit) := by
  have starts :
      Keeps (Ctx.Quiet before) (fun _ => True) (modify Ctx.startThreadIo : ClientM β Unit) :=
    .modify fun ctx quiet => quiet.trans (.of_client rfl rfl rfl (Or.inl rfl) (Or.inl rfl) rfl)
  exact .bind .get fun _ => .ite (fun _ => .bind (.throw trivial) fun _ => starts) fun _ => starts

theorem quiet_destruct (results : ReleaseResults) (ctx : Ctx β) :
    ctx.Quiet (finalState (destruct results ctx)) := by
  rw [destruct_run]
  split <;> exact ctx.quiet_released results

end ClientImpl

end BookFilerSsh
