import BookFilerSsh.Client.Handles
import BookFilerSsh.Lib.Machine

/-!
# The blocking mode of the session

`CreateSSHSession` puts the session into blocking mode, and `connect`, `tunnel`, `send`
and `read` take a call that would block for one that failed. The calls are made one
after another, on a client whose first `connect` succeeded, and the caller catches what
they throw (`clientMachine`).

Only `connect` and `forwarding` set the mode. A `forwarding` that gets a listen channel
stops the blocking API and starts it again on none of its exits
(`not_inBlockingMode_forwarding`). Every other call leaves the sessions as they are, or
ends with a new session, which is in blocking mode (`inBlockingMode_run`). So the session
is in blocking mode throughout exactly when no `forwarding` gets a listen channel
(`inBlockingMode_throughout_iff`).
-/

set_option autoImplicit false

namespace BookFilerSsh

open Lib.Effects

/-! ## The calls -/

/-- A call on the command channel that moves bytes. -/
def Ctx.onCommandChannel (ctx : Ctx UInt8) (f : Channel UInt8 → Channel UInt8) : Ctx UInt8 :=
  match ctx.client.commandChannel with
  | some c => { ctx with lib := { ctx.lib with channels := ctx.lib.channels.modify c f } }
  | none => ctx

namespace ClientImpl

/-- `ClientImpl::send`, with the results of its writes. -/
def sendOn (bufferStr : List UInt8) (len : ℕ) (results : ℕ → Int) : ClientM UInt8 Int := do
  modify Ctx.useCommandChannel
  let (rc, run) := (← get).client.send results bufferStr len
  modify (Ctx.assign · fun _ => run.client)
  modify (Ctx.onCommandChannel · fun channel =>
    { channel with accepted := channel.accepted ++ run.accepted })
  return rc

/-- `ClientImpl::read`, with the result of its read. -/
def readOn (result : ReadResult UInt8) : ClientM UInt8 Int := do
  modify Ctx.useCommandChannel
  match (← get).client.read [result] with
  | some (_, client, _) => do
      modify (Ctx.assign · fun _ => client)
      modify (Ctx.onCommandChannel · fun channel =>
        { channel with returned := channel.returned ++ result.bytes })
      return 0
  | none => throw .blocked

end ClientImpl

/-- A public call, with what happens in it. -/
inductive PublicCall where
  | of (call : ClientCall)
  | send (bufferStr : List UInt8) (len : ℕ) (results : ℕ → Int)
  | read (result : ReadResult UInt8)

namespace PublicCall

def run : PublicCall → ClientM UInt8 Int
  | .of call => call.run
  | .send bufferStr len results => ClientImpl.sendOn bufferStr len results
  | .read result => ClientImpl.readOn result

/-- What the call leaves when it is over, by return or by an exception. -/
def after (call : PublicCall) (ctx : Ctx UInt8) : Option (Ctx UInt8) :=
  match call.run ctx with
  | .ok _ after => some after
  | .error .systemError after => some after
  | .error (.logicError _) after => some after
  | .error .terminate _ => none
  | .error .blocked _ => none

/-- A `forwarding` that gets a listen channel. -/
def StopsBlocking (ctx : Ctx UInt8) : PublicCall → Prop
  | .of (.forwarding script) => ClientImpl.GetsChannel script ctx.client
  | _ => False

instance (ctx : Ctx UInt8) : (call : PublicCall) → Decidable (call.StopsBlocking ctx)
  | .of (.forwarding script) =>
      inferInstanceAs (Decidable (ClientImpl.GetsChannel script ctx.client))
  | .of (.connect _) | .of (.tunnel _) | .of (.command _ _) | .send _ _ _ | .read _ =>
      inferInstanceAs (Decidable False)

theorem ends_after {Q : Ctx UInt8 → Prop} {E : Fault → Prop} {call : PublicCall}
    {ctx after : Ctx UInt8} (ends : Ends Q E (call.run ctx)) (ended : call.after ctx = some after) :
    Q after := by
  unfold PublicCall.after at ended
  cases ran : call.run ctx with
  | ok rc final =>
      rw [ran] at ends ended
      cases ended
      exact ends
  | error fault final =>
      rw [ran] at ends ended
      cases fault <;> cases ended <;> exact ends.1

end PublicCall

/-- A client, from the state `start`, and the public calls on it. -/
def clientMachine (start : Ctx UInt8) : Lib.Machine (Ctx UInt8) PublicCall where
  init := start
  step ctx call := call.after ctx

/-! ## What changes the mode -/

/-- The session of the client is in blocking mode, if it has one. -/
def Ctx.InBlockingMode (ctx : Ctx UInt8) : Prop :=
  ∀ s, ctx.client.session = some s →
    ∃ record, ctx.lib.sessions[s]? = some record ∧ record.blocking = true

/-- The client has this session, and the library these. -/
def Ctx.Sessions (session : Option SessionId) (sessions : List Session) (ctx : Ctx UInt8) : Prop :=
  ctx.client.session = session ∧ ctx.lib.sessions = sessions

theorem Ctx.InBlockingMode.congr {ctx after : Ctx UInt8} (blocking : ctx.InBlockingMode)
    (same : after.Sessions ctx.client.session ctx.lib.sessions) : after.InBlockingMode := by
  intro s held
  rw [same.1] at held
  rw [same.2]
  exact blocking s held

/-- **The calls of `command`, `tunnel` and of every loop leave the sessions alone.** -/
theorem steady_sessions (session : Option SessionId) (sessions : List Session) :
    Steady (Ctx.Sessions session sessions) where
  assigns ctx f same holds := ⟨(congrArg Handles.session same).trans holds.1, holds.2⟩
  usesSession ctx holds := ⟨holds.1, (ctx.lib.useSession_sessions _).trans holds.2⟩
  usesCommandChannel ctx holds := ⟨holds.1, (ctx.lib.useChannel_sessions _).trans holds.2⟩
  usesListenChannel ctx holds := ⟨holds.1, (ctx.lib.useChannel_sessions _).trans holds.2⟩
  opens ctx opened holds := by
    unfold Ctx.openCommandChannel
    split
    next s held =>
      have used := (ctx.lib.useSession_sessions (some s)).trans holds.2
      split <;> exact ⟨holds.1, used⟩
    next => exact holds
  frees ctx eagain holds := ⟨holds.1, (ctx.lib.channelFree_sessions _ _).trans holds.2⟩

theorem Ctx.setBlocking_sessions {ctx : Ctx UInt8} {s : SessionId}
    (held : ctx.client.session = some s) (blocking : Bool) :
    (ctx.setBlocking blocking).lib.sessions =
      ctx.lib.sessions.modify s fun record => { record with blocking := blocking } := by
  simp only [Ctx.setBlocking, held, Libssh2.setBlocking]

theorem Ctx.sessions_listen (ctx : Ctx UInt8) (listened : Bool) :
    (ctx.listen listened).Sessions ctx.client.session ctx.lib.sessions := by
  unfold Ctx.listen
  split
  next s held =>
    have used := ctx.lib.useSession_sessions (some s)
    split <;> exact ⟨rfl, used⟩
  next => exact ⟨rfl, rfl⟩

theorem Ctx.sessions_acceptForwarded (ctx : Ctx UInt8) (accepted : Bool) :
    (ctx.acceptForwarded accepted).Sessions ctx.client.session ctx.lib.sessions := by
  unfold Ctx.acceptForwarded
  split
  next record found =>
    have used := ctx.lib.useListener_sessions ctx.client.listener
    split <;> exact ⟨rfl, used⟩
  next => exact ⟨rfl, rfl⟩

theorem Ctx.sessions_openListenChannel (script : ForwardingScript) (ctx : Ctx UInt8) :
    (ClientImpl.openListenChannel script ctx).Sessions ctx.client.session
      (ctx.setBlocking true).lib.sessions := by
  have listens := (ctx.setBlocking true).sessions_listen script.listened
  have accepts := ((ctx.setBlocking true).listen script.listened).sessions_acceptForwarded
    script.accepted
  exact ⟨accepts.1.trans listens.1, accepts.2.trans listens.2⟩

/-- `libssh2_session_set_blocking(session, 1)`. -/
theorem Ctx.InBlockingMode.setBlocking {ctx : Ctx UInt8} (blocking : ctx.InBlockingMode) :
    (ctx.setBlocking true).InBlockingMode := by
  intro s held
  have heldBefore : ctx.client.session = some s := held
  obtain ⟨record, found, -⟩ := blocking s heldBefore
  refine ⟨{ record with blocking := true }, ?_, rfl⟩
  rw [Ctx.setBlocking_sessions heldBefore]
  simp [found]

/-- `libssh2_session_set_blocking(session, 0)`. -/
theorem Ctx.not_inBlockingMode_setBlocking {ctx : Ctx UInt8} {s : SessionId}
    (held : ctx.client.session = some s) : ¬ (ctx.setBlocking false).InBlockingMode := by
  intro blocking
  obtain ⟨record, found, on⟩ := blocking s held
  rw [Ctx.setBlocking_sessions held] at found
  simp only [List.getElem?_modify_eq, Option.map_eq_map, Option.map_eq_some_iff] at found
  obtain ⟨before, -, rfl⟩ := found
  cases on

/-- A new session is in blocking mode. -/
theorem Ctx.inBlockingMode_openSession (ctx : Ctx UInt8) : ctx.openSession.InBlockingMode := by
  intro s held
  obtain rfl : ctx.lib.sessions.length = s := Option.some.inj held
  refine ⟨⟨true, 0⟩, ?_, rfl⟩
  simp [Ctx.openSession, Libssh2.setBlocking, Libssh2.sessionInit]

/-! ## What each call does to it -/

theorem Ctx.sessions_onCommandChannel (ctx : Ctx UInt8) (f : Channel UInt8 → Channel UInt8) :
    (ctx.onCommandChannel f).Sessions ctx.client.session ctx.lib.sessions := by
  unfold Ctx.onCommandChannel
  split <;> exact ⟨rfl, rfl⟩

/-- The writes of a `send` assign no handle. -/
theorem ClientImpl.handles_writeLoop (results : ℕ → Int) (client : ClientImpl UInt8) (call : ℕ) :
    (writeLoop results client call).client.handles = client.handles := by
  induction client, call using writeLoop.induct results with
  | case1 client call rc failed =>
      rw [writeLoop, if_pos failed]
  | case2 client call rc done again ih =>
      rw [writeLoop, if_neg done, dif_pos again]
      exact ih
  | case3 client call rc done stops =>
      rw [writeLoop, if_neg done, dif_neg stops]
      rfl

/-- `send` and `read` use the command channel and assign no handle. -/
theorem Ctx.sessions_transfer (ctx : Ctx UInt8) {client : ClientImpl UInt8}
    (same : client.handles = ctx.client.handles) (f : Channel UInt8 → Channel UInt8) :
    ((ctx.useCommandChannel.assign fun _ => client).onCommandChannel f).Sessions
      ctx.client.session ctx.lib.sessions := by
  have used := (steady_sessions _ _).usesCommandChannel ctx ⟨rfl, rfl⟩
  have assigned := (steady_sessions _ _).assigns ctx.useCommandChannel (fun _ => client) same used
  have moved := (ctx.useCommandChannel.assign fun _ => client).sessions_onCommandChannel f
  exact ⟨moved.1.trans assigned.1, moved.2.trans assigned.2⟩

theorem inBlockingMode_send {ctx : Ctx UInt8} (blocking : ctx.InBlockingMode)
    (bufferStr : List UInt8) (len : ℕ) (results : ℕ → Int) :
    Ends Ctx.InBlockingMode (fun _ => True) (ClientImpl.sendOn bufferStr len results ctx) := by
  have same : (ctx.client.send results bufferStr len).2.client.handles = ctx.client.handles :=
    ClientImpl.handles_writeLoop results _ 0
  exact blocking.congr (ctx.sessions_transfer same _)

theorem inBlockingMode_read {ctx : Ctx UInt8} (blocking : ctx.InBlockingMode)
    (result : ReadResult UInt8) :
    Ends Ctx.InBlockingMode (fun _ => True) (ClientImpl.readOn result ctx) := by
  simp only [ClientImpl.readOn, run_bind, run_modify, run_get, ClientImpl.read_cons]
  have same : (ctx.client.afterRead result).handles = ctx.client.handles := rfl
  exact blocking.congr (ctx.sessions_transfer same _)

/-- `connect` ends with the session it found, with none, or with a new one. -/
theorem inBlockingMode_connect {ctx : Ctx UInt8} (blocking : ctx.InBlockingMode)
    (results : ConnectResults) :
    Ends Ctx.InBlockingMode (fun _ => True) (ClientImpl.connect results ctx) := by
  obtain ⟨socket, created, handshake, auth⟩ := results
  cases socket with
  | resolveThrows => exact ⟨blocking, trivial⟩
  | connectThrows => exact ⟨blocking.congr ⟨rfl, rfl⟩, trivial⟩
  | connected =>
      cases created with
      | false =>
          rw [ClientImpl.connect_noSession]
          exact ⟨fun s => nofun, trivial⟩
      | true =>
          have opened := ctx.openSocket.inBlockingMode_openSession
          have used : ctx.openSocket.openSession.useSession.InBlockingMode :=
            opened.congr ((steady_sessions _ _).usesSession _ ⟨rfl, rfl⟩)
          have started : ctx.openSocket.openSession.useSession.startThreadIo.InBlockingMode :=
            used.congr ⟨rfl, rfl⟩
          rw [ClientImpl.connect_session]
          split
          · exact used
          · split
            · exact ⟨used, trivial⟩
            · exact started.congr ((steady_sessions _ _).usesSession _ ⟨rfl, rfl⟩)

/-- A `forwarding` without a listen channel starts the blocking API only. -/
theorem inBlockingMode_forwarding {ctx : Ctx UInt8} (blocking : ctx.InBlockingMode)
    {script : ForwardingScript} (spares : ¬ ClientImpl.GetsChannel script ctx.client) :
    Ends Ctx.InBlockingMode (fun _ => True) (ClientImpl.forwarding script ctx) := by
  obtain ⟨after, ran, same | same⟩ := ClientImpl.forwarding_of_not_getsChannel spares
  · rw [ran, same]
    exact blocking.setBlocking.congr ((ctx.setBlocking true).sessions_listen script.listened)
  · rw [ran, same]
    exact blocking.setBlocking.congr (Ctx.sessions_openListenChannel script ctx)

/-- **A `forwarding` that gets a listen channel leaves the session non-blocking**, by
whichever exit. -/
theorem not_inBlockingMode_forwarding {ctx : Ctx UInt8} {script : ForwardingScript}
    (gets : ClientImpl.GetsChannel script ctx.client) :
    Ends (fun after => ¬ after.InBlockingMode) Fault.Recoverable
      (ClientImpl.forwarding script ctx) := by
  obtain ⟨s, held⟩ := Option.isSome_iff_exists.mp gets.1
  rw [ClientImpl.forwarding_of_getsChannel gets]
  have got := Ctx.sessions_openListenChannel script ctx
  have stopped := Ctx.not_inBlockingMode_setBlocking (got.1.trans held)
  -- what follows the last call on the mode keeps the sessions, on every exit
  have steady := steady_sessions
    ((ClientImpl.openListenChannel script ctx).setBlocking false).client.session
    ((ClientImpl.openListenChannel script ctx).setBlocking false).lib.sessions
  have kept : Keeps (Ctx.Sessions _ _) Fault.Recoverable (do
      modify (Ctx.assign · fun client => { client with listenChannelReadStr := [] })
      ClientImpl.phase .readListenChannel script.reads
      return 0 : ClientM UInt8 Int) :=
    .bind (steady.keeps_assign fun _ => rfl) fun _ =>
      .bind (steady.keeps_phase _ _) fun _ => .pure _
  refine (kept _ ⟨rfl, rfl⟩).imp (fun after same blocking => stopped ?_) fun _ => id
  exact blocking.congr ⟨same.1.symm, same.2.symm⟩

/-- **Every other call keeps the mode**, by whichever exit. -/
theorem inBlockingMode_run {ctx : Ctx UInt8} (blocking : ctx.InBlockingMode) {call : PublicCall}
    (spares : ¬ call.StopsBlocking ctx) :
    Ends Ctx.InBlockingMode (fun _ => True) (call.run ctx) := by
  have steady := steady_sessions ctx.client.session ctx.lib.sessions
  cases call with
  | send bufferStr len results => exact inBlockingMode_send blocking bufferStr len results
  | read result => exact inBlockingMode_read blocking result
  | of call =>
      cases call with
      | connect results => exact inBlockingMode_connect blocking results
      | forwarding script => exact inBlockingMode_forwarding blocking spares
      | tunnel opened =>
          refine (steady.keeps_tunnel opened ctx ⟨rfl, rfl⟩).imp ?_ fun _ _ => trivial
          exact fun _ => blocking.congr
      | command commandStr script =>
          refine (steady.keeps_command commandStr script ctx ⟨rfl, rfl⟩).imp ?_ fun _ _ => trivial
          exact fun _ => blocking.congr

/-! ## Any sequence of calls -/

/-- **The session is in blocking mode between the calls exactly when no `forwarding` gets a
listen channel**, whatever libssh2 returns and whatever the calls throw. -/
theorem inBlockingMode_throughout_iff {clientState : ClientState} {lib : Libssh2 UInt8}
    {results : ConnectResults} {start : Ctx UInt8}
    (connected : ClientImpl.connect results ⟨lib, { clientState := clientState }⟩ = .ok 0 start)
    (calls : List PublicCall) :
    (clientMachine start).Throughout Ctx.InBlockingMode start calls ↔
      (clientMachine start).Guarded (fun ctx call => ¬ call.StopsBlocking ctx) start calls := by
  have initial : start.InBlockingMode := by
    have noSession : Ctx.InBlockingMode ⟨lib, { clientState := clientState }⟩ := fun s => nofun
    have ends := inBlockingMode_connect noSession results
    rw [connected] at ends
    exact ends
  refine Lib.Machine.throughout_iff_guarded (M := clientMachine start) initial ?_ ?_ calls
  · intro ctx call after _ blocking spares ended
    exact PublicCall.ends_after (inBlockingMode_run blocking spares) ended
  · intro ctx call after _ stops ended
    cases call with
    | of call =>
        cases call with
        | forwarding script =>
            have gets : ClientImpl.GetsChannel script ctx.client := Decidable.not_not.mp stops
            exact PublicCall.ends_after (not_inBlockingMode_forwarding gets) ended
        | connect results => exact absurd id stops
        | tunnel opened => exact absurd id stops
        | command commandStr script => exact absurd id stops
    | send bufferStr len results => exact absurd id stops
    | read result => exact absurd id stops

/-- A client whose first `connect` succeeded. -/
def connectedClient : Ctx UInt8 :=
  (({} : Ctx UInt8).openSocket.openSession.useSession).startThreadIo.useSession

theorem connect_connectedClient :
    ClientImpl.connect ⟨.connected, true, 0, 0⟩ ⟨{}, { clientState := {} }⟩ =
      .ok 0 connectedClient := rfl

theorem inBlockingMode_throughout_refused :
    (clientMachine connectedClient).Throughout Ctx.InBlockingMode connectedClient
      [.of (.forwarding ⟨true, false, []⟩), .of (.tunnel true),
        .read (.code (-37) (by decide))] := by
  refine (inBlockingMode_throughout_iff connect_connectedClient _).mpr ?_
  exact Lib.Machine.guarded_of_respects rfl

/-- A `forwarding` that gets a channel, whose peer closes it at once. -/
def forwardsOnce : PublicCall := .of (.forwarding ⟨true, true, [{ index := 0 }]⟩)

/-- **A `forwarding` that returns 0 leaves the session non-blocking.** -/
theorem not_inBlockingMode_throughout :
    ¬ ∀ calls, (clientMachine connectedClient).Throughout Ctx.InBlockingMode connectedClient
      calls := by
  intro always
  obtain ⟨after, ended⟩ : ∃ after, forwardsOnce.after connectedClient = some after := ⟨_, rfl⟩
  have gets : ClientImpl.GetsChannel ⟨true, true, [{ index := 0 }]⟩ connectedClient.client :=
    ⟨rfl, rfl, rfl⟩
  have reached : (clientMachine connectedClient).exec connectedClient [forwardsOnce] =
      some after := by
    rw [Lib.Machine.exec_cons, Option.bind_eq_some_iff]
    exact ⟨after, ended, rfl⟩
  refine PublicCall.ends_after (not_inBlockingMode_forwarding gets) ended ?_
  exact always [forwardsOnce] [forwardsOnce] [] after rfl reached

end BookFilerSsh
