import BookFilerSsh.Tunnel.Provision
import BookFilerSsh.Lib.Ledger
import Mathlib.Data.Finset.Option

/-!
# The handles of the tunnel server

The sessions and the channels that libssh2 returns to the tunnel server are ledgers of
`Lib.Ledger`, with the clients as owners. A client gets a session in `CreateSSHSession` and a
channel on it in `tunnel`, and gives the session up in its destructor, which runs when its
set-up has failed and then finds no channel. Nothing destroys the client of a connection.

So in every reachable state each session has one client or was freed once, each channel is
open and has one client, and while the server runs the clients with a session are those of
the connections and the one that is being set up (`handles_accounted`).
-/

set_option autoImplicit false

namespace BookFilerSsh

open Lib Lib.Tables Lib.Effects

/-! ## Calls on an open session -/

section Calls

variable {β : Type}

theorem Libssh2.useSession_of_open {lib : Libssh2 β} {sid : SessionId}
    (isOpen : (lib.sessions.map Session.freed)[sid]? = some 0) :
    lib.useSession (some sid) = lib := by
  rw [List.getElem?_map, Option.map_eq_some_iff] at isOpen
  obtain ⟨session, found, unfreed⟩ := isOpen
  simp [useSession, note, sessionOpen, found, unfreed]

/-- A call that changes neither the ledger nor what the client refers to. -/
structure Ctx.SameHandles (before after : Ctx β) : Prop where
  lib : after.lib = before.lib
  session : after.client.session = before.client.session
  commandChannel : after.client.commandChannel = before.client.commandChannel
  listener : after.client.listener = before.client.listener

namespace ClientImpl

variable {ctx : Ctx β}

theorem sameHandles_connectSocket (outcome : SocketOutcome) :
    ctx.SameHandles (finalState (connectSocket outcome ctx)) := by
  cases outcome <;> exact ⟨rfl, rfl, rfl, rfl⟩

/-- The handshake and the authentication leave an open session open. -/
theorem sameHandles_sessionCall (isOpen : ctx.useSession = ctx) (rc : Int) :
    ctx.SameHandles (finalState (sessionCall rc ctx)) := by
  have ended : finalState (sessionCall rc ctx) = ctx.useSession := rfl
  rw [ended, isOpen]
  exact ⟨rfl, rfl, rfl, rfl⟩

theorem sameHandles_handshake (isOpen : ctx.useSession = ctx) (rc : Int) :
    ctx.SameHandles (finalState ((do let _ ← sessionCall rc; startThreadIo) ctx)) := by
  have ended : (do let _ ← sessionCall rc; startThreadIo : ClientM β Unit) ctx =
      startThreadIo ctx := by
    simp only [sessionCall, run_bind, run_modify, run_pure, isOpen]
  rw [ended]
  simp only [startThreadIo, run_bind, run_get, run_ite, run_throw, run_modify]
  split <;> exact ⟨rfl, rfl, rfl, rfl⟩

end ClientImpl

/-- A released channel, or one of another session, does not go with the session. -/
theorem Libssh2.map_released_channelGoesWith {lib : Libssh2 β} {sid : SessionId}
    (apart : ∀ channel ∈ lib.channels, channel.released = 0 → channel.session ≠ sid) :
    (lib.channels.map (channelGoesWith sid)).map Channel.released =
      lib.channels.map Channel.released := by
  rw [List.map_map]
  refine List.map_congr_left fun channel member => ?_
  have stays : ¬ (channel.session = sid ∧ channel.released = 0) :=
    fun both => apart channel member both.2 both.1
  simp only [Function.comp_apply, channelGoesWith, if_neg stays]

/-- `CreateSSHSession` gets a new session. -/
theorem Ctx.openSession_lib (ctx : Ctx β) : ctx.openSession.lib =
    { ctx.lib with sessions := ctx.lib.sessions ++ [{ blocking := true, freed := 0 }] } := by
  simp only [openSession, Libssh2.sessionInit, Libssh2.setBlocking, Libssh2.useSession,
    Libssh2.note, Libssh2.sessionOpen, List.getElem?_concat_length, Option.any_some,
    modify_concat _ _ _ rfl, beq_self_eq_true, if_true]

/-- `tunnel` gets a new channel of an open session. -/
theorem Ctx.openCommandChannel_lib {ctx : Ctx β} {sid : SessionId}
    (session : ctx.client.session = some sid)
    (isOpen : (ctx.lib.sessions.map Session.freed)[sid]? = some 0) :
    (ctx.openCommandChannel true).lib =
      { ctx.lib with channels := ctx.lib.channels ++ [{ session := sid }] } := by
  rw [Ctx.openCommandChannel_session session, Libssh2.useSession_of_open isOpen]
  rfl

/-- The destructor frees an open session, with the channels of it that are left. -/
theorem Ctx.freeSession_lib {ctx : Ctx β} {sid : SessionId}
    (session : ctx.client.session = some sid)
    (isOpen : (ctx.lib.sessions.map Session.freed)[sid]? = some 0) (eagain : Bool) :
    (ctx.freeSession eagain).lib =
      { ctx.lib with
        sessions := (ctx.lib.sessions.modify sid fun record =>
          { record with blocking := true }).modify sid fun record =>
            { record with freed := record.freed + 1 }
        channels := ctx.lib.channels.map (Libssh2.channelGoesWith sid)
        listeners := ctx.lib.listeners.map (Libssh2.listenerGoesWith sid) } := by
  have blocking : ctx.lib.setBlocking (some sid) true =
      { ctx.lib with sessions := ctx.lib.sessions.modify sid fun record =>
          { record with blocking := true } } := by
    simp only [Libssh2.setBlocking, Libssh2.useSession_of_open isOpen]
  have stillOpen : ((ctx.lib.setBlocking (some sid) true).sessions.map Session.freed)[sid]? =
      some 0 := by
    have kept : (ctx.lib.sessions.modify sid fun record =>
        { record with blocking := true }).map Session.freed = ctx.lib.sessions.map Session.freed :=
      map_modify_of_eq (g := Session.freed) (f := fun record => { record with blocking := true })
        (fun _ => rfl) _ _
    rw [blocking]
    exact (congrArg (fun freed : List ℕ => freed[sid]?) kept).trans isOpen
  have waits : (ctx.lib.setBlocking (some sid) true).givesUp sid eagain = false := by
    rw [blocking]
    rw [List.getElem?_map, Option.map_eq_some_iff] at isOpen
    obtain ⟨record, foundRecord, -⟩ := isOpen
    simp [Libssh2.givesUp, Libssh2.isBlocking, foundRecord]
  simp only [freeSession, session, Libssh2.useSession_of_open stillOpen, Libssh2.sessionFree, waits,
    Bool.false_eq_true, if_false]
  rw [blocking]

end Calls

theorem Link.listener_act {β : Type} {link next : Link β} {action : LinkAction β}
    (acted : link.act action = some next) : next.client.listener = link.client.listener := by
  cases action with
  | pullStep =>
      obtain ⟨⟨after, effect⟩, stepped, rfl⟩ := Option.map_eq_some_iff.mp acted
      unfold pullStep at stepped
      split at stepped <;> try split at stepped
      all_goals cases stepped
      all_goals rfl
  | pushStep =>
      obtain ⟨⟨after, effect⟩, stepped, rfl⟩ := Option.map_eq_some_iff.mp acted
      unfold pushStep at stepped
      split at stepped <;> try split at stepped
      all_goals cases stepped
      all_goals rfl
  | _ =>
      simp only [act, pullReturn, pullWake, pullResume, pushReturn, pushWake, pushResume] at acted
      split at acted <;> try split at acted
      all_goals cases acted
      all_goals rfl

/-! ## The ledgers of the server -/

/-- The client that has a session and is not given to a connection yet. -/
def ListenerPc.withSession : ListenerPc → Option ℕ
  | .handshaking _ c | .authenticating _ c | .opening _ c | .dropping _ c | .tunnelled _ c => some c
  | _ => none

/-- The client that has a channel and is not given to a connection yet. -/
def ListenerPc.withChannel : ListenerPc → Option ℕ
  | .tunnelled _ c => some c
  | _ => none

namespace Server

variable {T : ℕ}

/-- The sessions and the clients that refer to them. -/
def sessionLedger (s : Server T) : Ledger where
  released := s.lib.sessions.map Session.freed
  held := s.clients.map ClientImpl.session

/-- The channels and the clients that refer to them. -/
def channelLedger (s : Server T) : Ledger where
  released := s.lib.channels.map Channel.released
  held := s.clients.map ClientImpl.commandChannel

/-- Which connections have a client. -/
def served (s : Server T) : List Bool :=
  s.connectionList.map fun conn => conn.sshClient.isSome

/-- The handles are in their ledgers, and none was misused. -/
structure HandlesSettled (s : Server T) : Prop where
  misuses : s.lib.misuses = 0
  sessions : s.sessionLedger.Balanced
  channels : s.channelLedger.Balanced
  kept : ∀ times ∈ s.channelLedger.released, times = 0
  forwards : s.lib.listeners = []
  listeners : ∀ (c : ℕ) (client : ClientImpl TaggedByte), s.clients[c]? = some client →
    client.listener = none

/-- The handles are those of the connections, and of the client about to get one. -/
structure HandlesUsed (s : Server T) : Prop where
  sessions : ∀ c, (∃ sid, s.sessionLedger.Has c sid) ↔
    s.listener.withSession = some c ∨ s.served[c]? = some true
  channels : ∀ c, (∃ channel, s.channelLedger.Has c channel) ↔
    s.listener.withChannel = some c ∨ s.served[c]? = some true

variable {s s' : Server T}

/-! ### Steps that leave the handles alone -/

/-- Only the library and the clients count. -/
theorem HandlesSettled.congr (settled : s.HandlesSettled) (lib : s'.lib = s.lib)
    (clients : s'.clients = s.clients) : s'.HandlesSettled := by
  have sessions : s'.sessionLedger = s.sessionLedger := by simp only [sessionLedger, lib, clients]
  have channels : s'.channelLedger = s.channelLedger := by simp only [channelLedger, lib, clients]
  refine ⟨?_, ?_, ?_, ?_, ?_, ?_⟩
  · rw [lib]
    exact settled.misuses
  · rw [sessions]
    exact settled.sessions
  · rw [channels]
    exact settled.channels
  · rw [channels]
    exact settled.kept
  · rw [lib]
    exact settled.forwards
  · rw [clients]
    exact settled.listeners

/-- A step after which the same clients have their handles. -/
theorem HandlesUsed.congr (used : s.HandlesUsed) (sessions : s'.sessionLedger = s.sessionLedger)
    (channels : s'.channelLedger = s.channelLedger)
    (withSession : s'.listener.withSession = s.listener.withSession)
    (withChannel : s'.listener.withChannel = s.listener.withChannel)
    (served : ∀ c : ℕ, s'.served[c]? = some true ↔ s.served[c]? = some true) :
    s'.HandlesUsed := by
  refine ⟨fun c => ?_, fun c => ?_⟩
  · rw [sessions, withSession, served]
    exact used.sessions c
  · rw [channels, withChannel, served]
    exact used.channels c

section Pump

variable {i : ℕ} {link next : Link TaggedByte}

theorem sessionLedger_setLink (linked : s.link i = some link) (frame : link.Frame next) :
    (s.setLink i next).sessionLedger = s.sessionLedger := by
  obtain ⟨-, c, uses, foundClient, channel, opened, -⟩ := link_eq_some linked
  have held := map_set_of_eq (g := ClientImpl.session) foundClient frame.session
  rw [setLink_eq uses opened frame]
  simp only [sessionLedger, onState, held]

theorem channelLedger_setLink (linked : s.link i = some link) (frame : link.Frame next) :
    (s.setLink i next).channelLedger = s.channelLedger := by
  obtain ⟨-, c, uses, foundClient, channel, opened, foundChannel⟩ := link_eq_some linked
  have held := map_set_of_eq (g := ClientImpl.commandChannel) foundClient frame.commandChannel
  have released := map_set_of_eq (g := Channel.released) foundChannel frame.released
  rw [setLink_eq uses opened frame]
  simp only [channelLedger, onState, held, released]

theorem served_setLink (linked : s.link i = some link) (frame : link.Frame next) :
    (s.setLink i next).served = s.served := by
  have same : next.conn.sshClient = link.conn.sshClient := congrArg Shape.client frame.shape
  exact map_set_of_eq (link_eq_some linked).1 (congrArg Option.isSome same)

/-- A pump keeps to the channel of its connection. -/
theorem HandlesSettled.setLink (settled : s.HandlesSettled) {action : LinkAction TaggedByte}
    (linked : s.link i = some link) (acted : link.act action = some next) :
    (s.setLink i next).HandlesSettled := by
  have frame := Link.frame_act acted
  have sessions := sessionLedger_setLink linked frame
  have channels := channelLedger_setLink linked frame
  obtain ⟨-, c, uses, foundClient, channel, opened, -⟩ := link_eq_some linked
  refine ⟨?_, by rw [sessions]; exact settled.sessions, by rw [channels]; exact settled.channels,
    by rw [channels]; exact settled.kept, ?_, ?_⟩
  · rw [setLink_eq uses opened frame]
    exact settled.misuses
  · rw [setLink_eq uses opened frame]
    exact settled.forwards
  · rw [setLink_eq uses opened frame]
    exact forall_set settled.listeners
      ((Link.listener_act acted).trans (settled.listeners c _ foundClient))

theorem HandlesUsed.setLink (used : s.HandlesUsed) (linked : s.link i = some link)
    (frame : link.Frame next) : (s.setLink i next).HandlesUsed :=
  used.congr (sessionLedger_setLink linked frame) (channelLedger_setLink linked frame) rfl rfl
    fun c => by rw [served_setLink linked frame]

end Pump

/-! ### The accept loop -/

/-- The connection of an iteration is not served before it gets its client. -/
theorem unserved_of_last {before : List Shape} {i : ℕ}
    (shapes : s.shapes = before ++ [({} : Shape)])
    (last : before.length = i) : s.served[i]? = some false := by
  have projected : s.served = s.shapes.map fun shape => shape.client.isSome := by
    simp [served, Server.shapes, ConnectionImpl.shape]
  rw [projected, shapes, ← last]
  simp

theorem unserved_of_withSession (laid : s.LaidOut) {c : ℕ}
    (here : s.listener.withSession = some c) :
    s.served[c]? = some false := by
  have fits := laid.fits
  cases pc : s.listener with
  | handshaking i d | authenticating i d | opening i d | dropping i d | tunnelled i d =>
      rw [pc] at fits here
      obtain ⟨rfl, -, before, shapes, last⟩ := fits
      cases here
      exact unserved_of_last shapes last
  | _ =>
      rw [pc] at here
      cases here

/-- A client is made, and holds nothing. -/
theorem sessionLedger_makeClient :
    (s.onState .makeClient).sessionLedger = s.sessionLedger.enter := by
  simp [sessionLedger, Ledger.enter, onState, ListenerState.makeClient]

theorem channelLedger_makeClient :
    (s.onState .makeClient).channelLedger = s.channelLedger.enter := by
  simp [channelLedger, Ledger.enter, onState, ListenerState.makeClient]

theorem HandlesSettled.listenerStep {mode : SpawnMode} {next : Server T} {effect : Effect}
    (settled : s.HandlesSettled) (stepped : s.listenerStep mode = some (next, effect)) :
    next.HandlesSettled := by
  cases listenerStep_moves stepped with
  | creates here =>
      refine ⟨settled.misuses, ?_, ?_, settled.kept, settled.forwards,
        forall_concat settled.listeners rfl⟩
      · exact sessionLedger_makeClient ▸ settled.sessions.enter
      · exact channelLedger_makeClient ▸ settled.channels.enter
  | returns here | accepts here | retries here | publishes here | numbers here | hands here
  | spawnsPull here | spawnsPush here => exact settled.congr rfl rfl

theorem HandlesUsed.listenerStep {mode : SpawnMode} {next : Server T} {effect : Effect}
    (used : s.HandlesUsed) (laid : s.LaidOut)
    (stepped : s.listenerStep mode = some (next, effect)) : next.HandlesUsed := by
  have kept : ∀ (j : ℕ) (f : ConnectionImpl TaggedByte → ConnectionImpl TaggedByte) pc,
      (∀ conn, (f conn).sshClient = conn.sshClient) → s.listener.withSession = none →
        s.listener.withChannel = none → pc.withSession = none → pc.withChannel = none →
          ((s.onState (.setConn · j f)).setListener pc).HandlesUsed := by
    intro j f pc keeps beforeSession beforeTunnel afterSession afterTunnel
    have same : ((s.onState (.setConn · j f)).setListener pc).served = s.served :=
      map_modify_of_eq (fun conn => by rw [keeps]) _ _
    exact used.congr rfl rfl (afterSession.trans beforeSession.symm)
      (afterTunnel.trans beforeTunnel.symm) fun c => by rw [same]
  cases listenerStep_moves stepped with
  | returns here | accepts here | retries here =>
      exact used.congr rfl rfl (by rw [here]; rfl) (by rw [here]; rfl) fun _ => .rfl
  | publishes here =>
      have served : (s.onState .publish).served = s.served ++ [false] := by
        simp [Server.served, onState, ListenerState.publish]
      refine used.congr rfl rfl (by rw [here]; rfl) (by rw [here]; rfl) fun c => ?_
      show (s.onState .publish).served[c]? = some true ↔ _
      rw [served]
      exact getElem?_concat_of_ne Bool.false_ne_true
  | numbers here | spawnsPull here | spawnsPush here =>
      exact kept _ _ _ (fun _ => rfl) (by rw [here]; rfl) (by rw [here]; rfl) rfl rfl
  | creates here =>
      refine ⟨fun c => ?_, fun c => ?_⟩
      · have before := used.sessions c
        rw [here] at before
        show (∃ sid, (s.onState .makeClient).sessionLedger.Has c sid) ↔ _
        simp only [sessionLedger_makeClient, Ledger.has_enter]
        exact before
      · have before := used.channels c
        rw [here] at before
        show (∃ channel, (s.onState .makeClient).channelLedger.Has c channel) ↔ _
        simp only [channelLedger_makeClient, Ledger.has_enter]
        exact before
  | @hands i c here =>
      have fits := laid.fits
      rw [here] at fits
      obtain ⟨rfl, -, before, shapes, last⟩ := fits
      have unserved := unserved_of_last shapes last
      have served : (s.onState (.setSshClient · c c)).served = s.served.modify c fun _ => true :=
        map_modify_of (h := fun _ => true)
          (f := fun conn : ConnectionImpl TaggedByte => { conn with sshClient := some c })
          (fun _ => rfl) _ _
      have gives : ∀ d : ℕ, some c = some d ∨ s.served[d]? = some true ↔
          none = some d ∨ (s.onState (.setSshClient · c c)).served[d]? = some true := by
        intro d
        rw [served]
        by_cases own : c = d
        · subst own
          simp [unserved]
        · simp [own]
      have sessions := used.sessions
      have channels := used.channels
      rw [here] at sessions channels
      exact ⟨fun d => (sessions d).trans (gives d), fun d => (channels d).trans (gives d)⟩

/-! ### The calls of the set-up -/

theorem has_session {c : ℕ} {client : ClientImpl TaggedByte} {sid : SessionId}
    (found : s.clients[c]? = some client) :
    s.sessionLedger.Has c sid ↔ client.session = some sid := by
  simp [Ledger.Has, sessionLedger, found]

/-- The ledgers after a call on the `c`-th client. -/
theorem sessionLedger_setCtx (c : ℕ) (after : Ctx TaggedByte) :
    (s.onState (.setCtx · c after)).sessionLedger =
      ⟨after.lib.sessions.map Session.freed, s.sessionLedger.held.set c after.client.session⟩ := by
  simp [sessionLedger, onState, ListenerState.setCtx, List.map_set]

theorem channelLedger_setCtx (c : ℕ) (after : Ctx TaggedByte) :
    (s.onState (.setCtx · c after)).channelLedger =
      ⟨after.lib.channels.map Channel.released,
        s.channelLedger.held.set c after.client.commandChannel⟩ := by
  simp [channelLedger, onState, ListenerState.setCtx, List.map_set]

/-- A call that moves the ledgers. -/
theorem HandlesSettled.setCtx {c : ℕ} {after : Ctx TaggedByte} (settled : s.HandlesSettled)
    (misuses : after.lib.misuses = 0) (forwards : after.lib.listeners = [])
    (listener : after.client.listener = none)
    (sessions : s.sessionLedger.Moves (s.onState (.setCtx · c after)).sessionLedger)
    (channels : s.channelLedger.Moves (s.onState (.setCtx · c after)).channelLedger)
    (kept : ∀ times ∈ (s.onState (.setCtx · c after)).channelLedger.released, times = 0) :
    (s.onState (.setCtx · c after)).HandlesSettled :=
  ⟨misuses, settled.sessions.moves sessions, settled.channels.moves channels, kept, forwards,
    forall_set settled.listeners listener⟩

section SetUp

variable {i c : ℕ} {ctx after : Ctx TaggedByte} (found : s.ctx c = some ctx)
include found

/-- The session of a client in set-up is open. -/
theorem session_of_withSession (settled : s.HandlesSettled) (used : s.HandlesUsed)
    (here : s.listener.withSession = some c) :
    ∃ sid, ctx.client.session = some sid ∧ s.sessionLedger.Has c sid ∧
      (ctx.lib.sessions.map Session.freed)[sid]? = some 0 := by
  obtain ⟨foundClient, lib⟩ := ctx_eq_some found
  obtain ⟨sid, has⟩ := (used.sessions c).mpr (.inl here)
  refine ⟨sid, (has_session foundClient).mp has, has, ?_⟩
  rw [← lib]
  exact settled.sessions.unreleased c sid has

theorem useSession_of_withSession (settled : s.HandlesSettled) (used : s.HandlesUsed)
    (here : s.listener.withSession = some c) : ctx.useSession = ctx := by
  obtain ⟨sid, session, -, isOpen⟩ := session_of_withSession found settled used here
  simp only [Ctx.useSession, session, Libssh2.useSession_of_open isOpen]

/-- A call that leaves the handles alone. -/
theorem ledgers_same (same : ctx.SameHandles after) :
    (s.onState (.setCtx · c after)).sessionLedger = s.sessionLedger ∧
      (s.onState (.setCtx · c after)).channelLedger = s.channelLedger := by
  obtain ⟨foundClient, lib⟩ := ctx_eq_some found
  have sameLib : after.lib = s.lib := same.lib.trans lib.symm
  have sessions := map_set_of_eq (g := ClientImpl.session) foundClient same.session
  have channels := map_set_of_eq (g := ClientImpl.commandChannel) foundClient same.commandChannel
  simp only [sessionLedger, channelLedger, onState, ListenerState.setCtx, sessions, channels,
    sameLib, and_self]

/-- A client gets a session. -/
theorem ledgers_openSession :
    (s.onState (.setCtx · c ctx.openSession)).sessionLedger = s.sessionLedger.acquire c ∧
      (s.onState (.setCtx · c ctx.openSession)).channelLedger = s.channelLedger := by
  obtain ⟨foundClient, lib⟩ := ctx_eq_some found
  constructor
  · rw [sessionLedger_setCtx, Ctx.openSession_lib]
    simp [Ledger.acquire, sessionLedger, Ctx.openSession, lib]
  · have channels := map_set_of_eq (g := ClientImpl.commandChannel) (y := ctx.openSession.client)
      foundClient rfl
    simp only [channelLedger, onState, ListenerState.setCtx, channels, Ctx.openSession_lib, lib]

/-- A client opens a channel on its session. -/
theorem ledgers_openChannel {sid : SessionId} (session : ctx.client.session = some sid)
    (isOpen : (ctx.lib.sessions.map Session.freed)[sid]? = some 0) :
    (s.onState (.setCtx · c (ctx.openCommandChannel true))).sessionLedger = s.sessionLedger ∧
      (s.onState (.setCtx · c (ctx.openCommandChannel true))).channelLedger =
        s.channelLedger.acquire c := by
  obtain ⟨foundClient, lib⟩ := ctx_eq_some found
  have opened := Ctx.openCommandChannel_lib session isOpen
  have client : (ctx.openCommandChannel true).client =
      { ctx.client with commandChannel := some ctx.lib.channels.length } := by
    rw [Ctx.openCommandChannel_session session]
  constructor
  · have sessions := map_set_of_eq (g := ClientImpl.session)
      (y := (ctx.openCommandChannel true).client) foundClient (by rw [client])
    simp only [sessionLedger, onState, ListenerState.setCtx, sessions, opened, lib]
  · rw [channelLedger_setCtx, opened, client]
    simp [Ledger.acquire, channelLedger, lib]

/-- No channel of the session is left when a client without a channel is destroyed. -/
theorem channels_apart (settled : s.HandlesSettled) (held : s.HandlesHeld) {sid : SessionId}
    (session : ctx.client.session = some sid) (null : ctx.client.commandChannel = none) :
    ∀ channel ∈ ctx.lib.channels, channel.released = 0 → channel.session ≠ sid := by
  obtain ⟨foundClient, lib⟩ := ctx_eq_some found
  rintro channel member unreleased rfl
  obtain ⟨handle, foundHandle⟩ := List.mem_iff_getElem?.mp member
  have stays : s.channelLedger.released[handle]? = some 0 := by
    simp [channelLedger, lib, foundHandle, unreleased]
  rcases settled.channels.settled handle 0 stays with once | ⟨d, has⟩
  · cases once
  · obtain ⟨client, foundD, opened⟩ : ∃ client, s.clients[d]? = some client ∧
        client.commandChannel = some handle := by
      simpa [Ledger.Has, channelLedger] using has
    obtain ⟨record, foundRecord, -, own⟩ := (held d client foundD).2 handle opened
    rw [lib, foundHandle, Option.some.injEq] at foundRecord
    subst foundRecord
    -- the owner of the channel has the session too, so it is the client that is destroyed
    obtain rfl := settled.sessions.apart c d _ ((has_session foundClient).mpr session)
      ((has_session foundD).mpr own)
    rw [foundClient, Option.some.injEq] at foundD
    rw [← foundD, null] at opened
    cases opened

/-- The destructor of a client that refers to nothing but its session. -/
theorem released_eq (settled : s.HandlesSettled) (held : s.HandlesHeld)
    (null : ctx.client.commandChannel = none) (results : ReleaseResults) :
    ctx.released results = (ctx.freeSession results.session).closeSocket := by
  have foundClient := (ctx_eq_some found).1
  rw [Ctx.released, Ctx.freeCommandChannel_null null,
    Ctx.freeListenChannel_null (held c _ foundClient).1,
    Ctx.cancelListener_null (settled.listeners c _ foundClient)]

/-- A client without a channel is destroyed, and frees its session. -/
theorem ledgers_released (settled : s.HandlesSettled) (held : s.HandlesHeld) {sid : SessionId}
    (session : ctx.client.session = some sid) (null : ctx.client.commandChannel = none)
    (isOpen : (ctx.lib.sessions.map Session.freed)[sid]? = some 0) (results : ReleaseResults) :
    (s.onState (.setCtx · c (ctx.released results))).sessionLedger =
        s.sessionLedger.release c sid ∧
      (s.onState (.setCtx · c (ctx.released results))).channelLedger = s.channelLedger := by
  obtain ⟨foundClient, lib⟩ := ctx_eq_some found
  rw [released_eq found settled held null]
  have freed := Ctx.freeSession_lib session isOpen results.session
  constructor
  · have released : (ctx.freeSession results.session).lib.sessions.map Session.freed =
        (ctx.lib.sessions.map Session.freed).modify sid (· + 1) := by
      rw [freed]
      refine (map_modify_of (h := (· + 1)) (fun _ => rfl) _ _).trans ?_
      exact congrArg (fun freed : List ℕ => freed.modify sid (· + 1))
        (map_modify_of_eq (g := Session.freed) (f := fun record => { record with blocking := true })
          (fun _ => rfl) _ _)
    rw [sessionLedger_setCtx]
    show (⟨(ctx.freeSession results.session).lib.sessions.map Session.freed,
      s.sessionLedger.held.set c none⟩ : Ledger) = _
    rw [released, ← lib]
    rfl
  · have channels := map_set_of_eq (g := ClientImpl.commandChannel)
      (y := (ctx.freeSession results.session).closeSocket.client) foundClient rfl
    have kept := Libssh2.map_released_channelGoesWith
      (channels_apart found settled held session null)
    show (⟨(ctx.freeSession results.session).lib.channels.map Channel.released,
      (s.clients.set c (ctx.freeSession results.session).closeSocket.client).map
        ClientImpl.commandChannel⟩ : Ledger) = _
    rw [channels, freed, ← lib]
    rw [← lib] at kept
    exact congrArg (fun released => (⟨released, s.channelLedger.held⟩ : Ledger)) kept

end SetUp

/-- The handles are settled, and those of a running server are in use. -/
structure HandlesInPlace (s : Server T) : Prop where
  settled : s.HandlesSettled
  used : s.terminated = false → s.HandlesUsed

theorem HandlesSettled.same (settled : s.HandlesSettled) {c : ℕ} {ctx after : Ctx TaggedByte}
    (found : s.ctx c = some ctx) (same : ctx.SameHandles after) :
    (s.onState (.setCtx · c after)).HandlesSettled := by
  obtain ⟨foundClient, lib⟩ := ctx_eq_some found
  obtain ⟨sessions, channels⟩ := ledgers_same found same
  refine settled.setCtx ?_ ?_ ?_ (sessions ▸ .stays) (channels ▸ .stays)
    (channels ▸ settled.kept)
  · rw [same.lib, ← lib]
    exact settled.misuses
  · rw [same.lib, ← lib]
    exact settled.forwards
  · exact same.listener.trans (settled.listeners c _ foundClient)

/-- A call that leaves the handles alone, after which the set-up goes on. -/
theorem inPlace_same {α : Type} {call : ClientM TaggedByte α} {c : ℕ} {pc : ListenerPc}
    (settled : s.HandlesSettled) (used : s.HandlesUsed)
    (same : ∀ ctx, s.ctx c = some ctx → ctx.SameHandles (finalState (call ctx)))
    (withSession : pc.withSession = s.listener.withSession)
    (withChannel : pc.withChannel = s.listener.withChannel)
    (stepped : s.onClient c call (fun _ s => s.setListener pc) = some s') : s'.HandlesInPlace := by
  obtain ⟨ctx, found, ⟨-, rfl⟩ | rfl⟩ := onClient_eq_some stepped
  · obtain ⟨sessions, channels⟩ := ledgers_same found (same ctx found)
    have kept := settled.same found (same ctx found)
    exact ⟨kept.congr rfl rfl, fun _ =>
      used.congr sessions channels withSession withChannel fun _ => .rfl⟩
  · exact ⟨(settled.same found (same ctx found)).congr rfl rfl, fun running => by cases running⟩

/-- A client that neither is past `CreateSSHSession` nor is given to a connection. -/
theorem free_of_unused (used : s.HandlesUsed) {c : ℕ} {client : ClientImpl TaggedByte}
    (found : s.clients[c]? = some client) (before : s.listener.withSession = none)
    (unserved : s.served[c]? = some false) : client.session = none := by
  cases session : client.session with
  | none => rfl
  | some sid =>
      rcases (used.sessions c).mp ⟨sid, (has_session found).mpr session⟩ with past | serves
      · rw [before] at past
        cases past
      · rw [unserved] at serves
        cases serves

/-- The client of the set-up gets its handle. -/
theorem takes_iff {served : List Bool} {c : ℕ} (d : ℕ) :
    (c = d ∨ none = some d ∨ served[d]? = some true) ↔
      some c = some d ∨ served[d]? = some true := by
  simp

/-- The client of the set-up gives its handle up. -/
theorem drops_iff {served : List Bool} {c : ℕ} (unserved : served[c]? = some false) (d : ℕ) :
    (c ≠ d ∧ (some c = some d ∨ served[d]? = some true)) ↔
      none = some d ∨ served[d]? = some true := by
  by_cases own : c = d
  · subst own
    simp [unserved]
  · simp [own]

theorem inPlace_creating (laid : s.LaidOut) (settled : s.HandlesSettled) (used : s.HandlesUsed)
    {i c : ℕ} {created : Bool} (here : s.listener = .creating i c)
    (stepped : s.onClient c (ClientImpl.createSSHSession created)
      (fun _ s => s.setListener (.handshaking i c)) = some s') : s'.HandlesInPlace := by
  have fits := laid.fits
  rw [here] at fits
  obtain ⟨rfl, -, before, shapes, last⟩ := fits
  have unserved := unserved_of_last shapes last
  simp only [onClient, Option.bind_eq_bind, Option.bind_eq_some_iff] at stepped
  obtain ⟨ctx, found, stepped⟩ := stepped
  obtain ⟨foundClient, lib⟩ := ctx_eq_some found
  have null := free_of_unused used foundClient (by rw [here]; rfl) unserved
  cases created with
  | false =>
      cases stepped
      have same : ctx.SameHandles ctx.loseSession := ⟨rfl, null.symm, rfl, rfl⟩
      exact ⟨(settled.same found same).congr rfl rfl, fun running => by cases running⟩
  | true =>
      cases stepped
      have free : s.sessionLedger.held[c]? = some none := by
        simp [sessionLedger, foundClient, null]
      obtain ⟨sessions, channels⟩ := ledgers_openSession found
      have kept : (s.onState (.setCtx · c ctx.openSession)).HandlesSettled := by
        refine settled.setCtx ?_ ?_ (settled.listeners c ctx.client foundClient)
          (sessions ▸ .acquires free) (channels ▸ .stays) (channels ▸ settled.kept)
        · rw [Ctx.openSession_lib, ← lib]
          exact settled.misuses
        · rw [Ctx.openSession_lib, ← lib]
          exact settled.forwards
      refine ⟨kept.congr rfl rfl, fun _ => ⟨fun d => ?_, fun d => ?_⟩⟩
      · show (∃ sid, (s.onState (.setCtx · c ctx.openSession)).sessionLedger.Has d sid) ↔ _
        rw [sessions, Ledger.exists_has_acquire free, used.sessions d, here]
        exact takes_iff d
      · show (∃ channel, (s.onState (.setCtx · c ctx.openSession)).channelLedger.Has d channel) ↔ _
        rw [channels, used.channels d, here]
        rfl

theorem inPlace_opening (order : s.InOrder) (settled : s.HandlesSettled) (used : s.HandlesUsed)
    {i c : ℕ} (here : s.listener = .opening i c) {opened : Bool}
    (stepped : s.listenerReturn (.channel opened) = some s') : s'.HandlesInPlace := by
  simp only [listenerReturn, here, onClient, ClientImpl.tunnel_run, Option.bind_eq_bind,
    Option.bind_eq_some_iff, Option.pure_def, Option.some.injEq] at stepped
  obtain ⟨ctx, found, stepped⟩ := stepped
  obtain ⟨foundClient, lib⟩ := ctx_eq_some found
  have withSession : s.listener.withSession = some c := by rw [here]; rfl
  have null := channel_of_inSetUp order (i := i) (by rw [here]; rfl) found
  obtain ⟨sid, session, -, isOpen⟩ := session_of_withSession found settled used withSession
  cases opened with
  | false =>
      have refused : ctx.openCommandChannel false =
          { ctx with client := { ctx.client with commandChannel := none } } := by
        simp only [Ctx.openCommandChannel, session, Libssh2.useSession_of_open isOpen,
          Bool.false_eq_true, if_false]
      have same : ctx.SameHandles (ctx.openCommandChannel false) := by
        rw [refused]
        exact ⟨rfl, rfl, null.symm, rfl⟩
      have failed : (ctx.openCommandChannel false).client.commandChannel = none := by rw [refused]
      simp only [failed, Option.isNone_none, if_true, Int.reduceNeg, Int.reduceLT] at stepped
      subst stepped
      obtain ⟨sessions, channels⟩ := ledgers_same found same
      exact ⟨(settled.same found same).congr rfl rfl, fun _ =>
        used.congr sessions channels (by rw [here]; rfl) (by rw [here]; rfl) fun _ => .rfl⟩
  | true =>
      have client : (ctx.openCommandChannel true).client =
          { ctx.client with commandChannel := some ctx.lib.channels.length } := by
        rw [Ctx.openCommandChannel_session session]
      simp only [client, Option.isNone_some, Bool.false_eq_true, if_false, lt_irrefl] at stepped
      subst stepped
      have free : s.channelLedger.held[c]? = some none := by
        simp [channelLedger, foundClient, null]
      obtain ⟨sessions, channels⟩ := ledgers_openChannel found session isOpen
      have kept : (s.onState (.setCtx · c (ctx.openCommandChannel true))).HandlesSettled := by
        refine settled.setCtx ?_ ?_ ?_ (sessions ▸ .stays) (channels ▸ .acquires free)
          (channels ▸ List.forall_mem_append.mpr ⟨settled.kept, by simp⟩)
        · rw [Ctx.openCommandChannel_lib session isOpen, ← lib]
          exact settled.misuses
        · rw [Ctx.openCommandChannel_lib session isOpen, ← lib]
          exact settled.forwards
        · rw [client]
          exact settled.listeners c ctx.client foundClient
      refine ⟨kept.congr rfl rfl, fun _ => ⟨fun d => ?_, fun d => ?_⟩⟩
      · show (∃ sid, (s.onState (.setCtx · c (ctx.openCommandChannel true))).sessionLedger.Has
          d sid) ↔ _
        rw [sessions, used.sessions d, here]
        rfl
      · show (∃ channel, (s.onState (.setCtx · c (ctx.openCommandChannel true))).channelLedger.Has
          d channel) ↔ _
        rw [channels, Ledger.exists_has_acquire free, used.channels d, here]
        exact takes_iff d

theorem inPlace_dropping (laid : s.LaidOut) (order : s.InOrder) (held : s.HandlesHeld)
    (settled : s.HandlesSettled) (used : s.HandlesUsed) {i c : ℕ} {results : ReleaseResults}
    (here : s.listener = .dropping i c)
    (stepped : s.onClient c (ClientImpl.destruct results) (fun _ s => s.setListener .loopTop) =
      some s') : s'.HandlesInPlace := by
  obtain ⟨ctx, found, ended⟩ := onClient_eq_some stepped
  obtain ⟨foundClient, lib⟩ := ctx_eq_some found
  have withSession : s.listener.withSession = some c := by rw [here]; rfl
  have null := channel_of_inSetUp order (i := i) (by rw [here]; rfl) found
  obtain ⟨sid, session, has, isOpen⟩ := session_of_withSession found settled used withSession
  have final : finalState (ClientImpl.destruct results ctx) = ctx.released results := by
    rw [ClientImpl.destruct_run]
    split <;> rfl
  rw [final] at ended
  obtain ⟨sessions, channels⟩ := ledgers_released found settled held session null isOpen results
  have kept : (s.onState (.setCtx · c (ctx.released results))).HandlesSettled := by
    refine settled.setCtx ?_ ?_ ?_ (sessions ▸ .releases has) (channels ▸ .stays)
      (channels ▸ settled.kept)
    · rw [released_eq found settled held null]
      show (ctx.freeSession results.session).lib.misuses = 0
      rw [Ctx.freeSession_lib session isOpen, ← lib]
      exact settled.misuses
    · rw [released_eq found settled held null]
      show (ctx.freeSession results.session).lib.listeners = []
      rw [Ctx.freeSession_lib session isOpen, ← lib]
      simp [settled.forwards]
    · rw [released_eq found settled held null]
      exact settled.listeners c ctx.client foundClient
  rcases ended with ⟨-, rfl⟩ | rfl
  · refine ⟨kept.congr rfl rfl, fun _ => ⟨fun d => ?_, fun d => ?_⟩⟩
    · show (∃ sid, (s.onState (.setCtx · c (ctx.released results))).sessionLedger.Has d sid) ↔ _
      rw [sessions, Ledger.exists_has_release has, used.sessions d, here]
      exact drops_iff (unserved_of_withSession laid withSession) d
    · show (∃ channel, (s.onState (.setCtx · c (ctx.released results))).channelLedger.Has
        d channel) ↔ _
      rw [channels, used.channels d, here]
      rfl
  · exact ⟨kept.congr rfl rfl, fun running => by cases running⟩

/-- Every call of the set-up. -/
theorem inPlace_setUp (laid : s.LaidOut) (order : s.InOrder) (held : s.HandlesHeld)
    (settled : s.HandlesSettled) (used : s.HandlesUsed) {answer : SetupAnswer}
    (ended : s.listenerReturn answer = some s') : s'.HandlesInPlace := by
  have isOpen : ∀ {c : ℕ} (ctx : Ctx TaggedByte), s.listener.withSession = some c →
      s.ctx c = some ctx → ctx.useSession = ctx := fun ctx here found =>
    useSession_of_withSession found settled used here
  have whole := ended
  unfold listenerReturn at ended
  split at ended
  next ok here =>
    cases ended
    refine ⟨settled.congr rfl rfl, fun _ => used.congr rfl rfl ?_ ?_ fun _ => .rfl⟩ <;>
      rw [here] <;> cases ok <;> rfl
  next i c outcome here =>
    exact inPlace_same settled used (fun ctx _ => ClientImpl.sameHandles_connectSocket outcome)
      (by rw [here]; rfl) (by rw [here]; rfl) ended
  next i c created here => exact inPlace_creating laid settled used here ended
  next i c rc here =>
    have withSession : s.listener.withSession = some c := by rw [here]; rfl
    split at ended
    next failed =>
      exact inPlace_same settled used
        (fun ctx found => ClientImpl.sameHandles_sessionCall (isOpen ctx withSession found) rc)
        (by rw [here]; rfl) (by rw [here]; rfl) ended
    next shook =>
      exact inPlace_same settled used
        (fun ctx found => ClientImpl.sameHandles_handshake (isOpen ctx withSession found) rc)
        (by rw [here]; rfl) (by rw [here]; rfl) ended
  next i c rc here =>
    have withSession : s.listener.withSession = some c := by rw [here]; rfl
    refine inPlace_same settled used
      (fun ctx found => ClientImpl.sameHandles_sessionCall (isOpen ctx withSession found) rc)
      ?_ ?_ ended <;> rw [here] <;> split <;> rfl
  next i c opened here => exact inPlace_opening order settled used here whole
  next i c results here => exact inPlace_dropping laid order held settled used here ended
  next => cases ended

/-! ### Every step -/

/-- Threads, backlog and history do not count, and neither do positions without a client. -/
theorem HandlesInPlace.congr (inPlace : s.HandlesInPlace)
    (state : s'.toListenerState = s.toListenerState) (terminated : s'.terminated = s.terminated)
    (withSession : s'.listener.withSession = s.listener.withSession)
    (withChannel : s'.listener.withChannel = s.listener.withChannel) : s'.HandlesInPlace := by
  have lib : s'.lib = s.lib := congrArg ListenerState.lib state
  have clients : s'.clients = s.clients := congrArg ListenerState.clients state
  have list : s'.connectionList = s.connectionList := congrArg ListenerState.connectionList state
  refine ⟨inPlace.settled.congr lib clients, fun running => ?_⟩
  refine (inPlace.used (terminated ▸ running)).congr ?_ ?_ withSession withChannel fun c => ?_
  · simp only [sessionLedger, lib, clients]
  · simp only [channelLedger, lib, clients]
  · simp only [served, list]

theorem HandlesInPlace.step {mode : SpawnMode} {action : ServerAction T}
    (inPlace : s.HandlesInPlace) (laid : s.LaidOut) (order : s.InOrder) (held : s.HandlesHeld)
    (stepped : s.step mode action = some s') : s'.HandlesInPlace := by
  obtain ⟨running, moved⟩ := step_moves stepped
  have settled := inPlace.settled
  have used := inPlace.used running
  have pump : ∀ {i : ℕ} {link next : Link TaggedByte} (action : LinkAction TaggedByte),
      s.link i = some link → link.act action = some next → (s.setLink i next).HandlesInPlace :=
    fun action linked acted =>
      ⟨settled.setLink linked acted, fun _ => used.setLink linked (Link.frame_act acted)⟩
  cases moved with
  | @listenerRuns t next effect top ran =>
      have kept : next.HandlesInPlace :=
        ⟨settled.listenerStep ran, fun _ => used.listenerStep laid ran⟩
      obtain ⟨threads, same⟩ := next.applyEffect_eq mode t effect
      rw [same]
      exact kept.congr rfl rfl rfl rfl
  | @pullRuns t i link next effect top linked ran =>
      have acted : link.act .pullStep = some next := by rw [Link.act, ran]; rfl
      obtain ⟨threads, same⟩ := (s.setLink i next).applyEffect_eq mode t effect
      rw [same]
      exact (pump .pullStep linked acted).congr rfl rfl rfl rfl
  | @pushRuns t i link next effect top linked ran =>
      have acted : link.act .pushStep = some next := by rw [Link.act, ran]; rfl
      obtain ⟨threads, same⟩ := (s.setLink i next).applyEffect_eq mode t effect
      rw [same]
      exact (pump .pushStep linked acted).congr rfl rfl rfl rfl
  | setUpReturns top ended => exact inPlace_setUp laid order held settled used ended
  | pullResumes idle linked resumed =>
      exact (pump .pullResume linked resumed).congr rfl rfl rfl rfl
  | pushResumes idle linked resumed =>
      exact (pump .pushResume linked resumed).congr rfl rfl rfl rfl
  | readReturns top linked named ended => exact pump (.pullReturn _) linked ended
  | writeReturns top linked ended => exact pump (.pushReturn _) linked ended
  | readsLocal linked woken => exact pump (.pushWake _) linked woken
  | writesLocal linked woken => exact pump (.pullWake _) linked woken
  | clientArrives => exact inPlace.congr rfl rfl rfl rfl
  | listenerStarts idle pc | listenerResumes idle pc | acceptFails pc | accepts pc waiting =>
      exact inPlace.congr rfl rfl (by rw [pc]; rfl) (by rw [pc]; rfl)

theorem handlesInPlace {mode : SpawnMode} {clientState : ClientState}
    (reached : (serverMachine T mode clientState).Reachable s) : s.HandlesInPlace := by
  refine (serverMachine T mode clientState).invariant_with
    (J := fun s => s.LaidOut ∧ s.InOrder ∧ s.HandlesHeld) (I := HandlesInPlace)
    (fun _ reached => ⟨layout reached, inOrder reached, Server.held reached⟩) ?_ ?_ reached
  · refine ⟨⟨rfl, Ledger.balanced_nil, Ledger.balanced_nil, nofun, rfl,
      fun c client found => ?_⟩, fun _ => ⟨fun c => ?_, fun c => ?_⟩⟩ <;>
      simp_all [serverMachine, sessionLedger, channelLedger, Ledger.Has, served,
        ListenerPc.withSession, ListenerPc.withChannel]
  · rintro s action next ⟨laid, order, held⟩ inPlace stepped
    exact inPlace.step laid order held stepped

/-! ## Counting -/

/-- The connections that have a client. -/
theorem card_served (s : Server T) : (positions s.served true).card =
    s.connectionList.countP fun conn => conn.sshClient.isSome := by
  rw [card_positions, List.count, served, List.countP_map]
  congr 1
  funext conn
  simp

/-- As many owners as connections with a client, and one more for the client of the set-up. -/
theorem card_owners {ledger : Ledger} {waiting : Option ℕ}
    (used : ∀ c, (∃ handle, ledger.Has c handle) ↔
      waiting = some c ∨ s.served[c]? = some true)
    (unserved : ∀ c, waiting = some c → s.served[c]? = some false) :
    ledger.owners.card =
      s.connectionList.countP (fun conn => conn.sshClient.isSome) + waiting.toList.length := by
  have owners : ledger.owners = positions s.served true ∪ waiting.toFinset := by
    ext c
    rw [Ledger.mem_owners, used, Finset.mem_union, mem_positions, Option.mem_toFinset,
      Option.mem_def, or_comm]
  have disjoint : Disjoint (positions s.served true) waiting.toFinset := by
    rw [Finset.disjoint_left]
    intro c serves waits
    have unserves := unserved c (Option.mem_toFinset.mp waits)
    rw [mem_positions.mp serves] at unserves
    cases unserves
  rw [owners, Finset.card_union_of_disjoint disjoint, card_served]
  cases waiting <;> rfl

/-- Who has the handles of the server, and how many there are. -/
structure HandlesAccounted (s : Server T) : Prop where
  misuses : s.lib.misuses = 0
  sessions : s.sessionLedger.Balanced
  channels : s.channelLedger.Balanced
  kept : ∀ channel ∈ s.lib.channels, channel.released = 0
  own : ∀ (c : ℕ) client channel record, s.clients[c]? = some client →
    client.commandChannel = some channel → s.lib.channels[channel]? = some record →
      client.session = some record.session
  forwards : s.lib.listeners = []
  openSessions : s.terminated = false →
    (s.lib.sessions.countP fun session => session.freed = 0) =
      s.connectionList.countP (fun conn => conn.sshClient.isSome) +
        s.listener.withSession.toList.length
  openChannels : s.terminated = false →
    s.lib.channels.length =
      s.connectionList.countP (fun conn => conn.sshClient.isSome) +
        s.listener.withChannel.toList.length

end Server

/-- **Every handle of the tunnel server has one owner or was released once**, and the open
ones are those of the connections and of one set-up. -/
theorem handles_accounted {T : ℕ} (mode : SpawnMode) (clientState : ClientState) (s : Server T)
    (reached : (serverMachine T mode clientState).Reachable s) : s.HandlesAccounted := by
  have laid := Server.layout reached
  obtain ⟨settled, used⟩ := Server.handlesInPlace reached
  have unservedSession : ∀ c, s.listener.withSession = some c → s.served[c]? = some false :=
    fun c => Server.unserved_of_withSession laid
  have unservedTunnel : ∀ c, s.listener.withChannel = some c → s.served[c]? = some false := by
    intro c here
    refine unservedSession c ?_
    cases pc : s.listener <;> simp_all [ListenerPc.withChannel, ListenerPc.withSession]
  have kept : ∀ channel ∈ s.lib.channels, channel.released = 0 := fun channel member =>
    settled.kept _ (List.mem_map_of_mem member)
  refine ⟨settled.misuses, settled.sessions, settled.channels, kept, ?_, settled.forwards,
    fun running => ?_, fun running => ?_⟩
  · intro c client channel record found opened foundRecord
    obtain ⟨same, foundSame, -, own⟩ := (Server.held reached c client found).2 channel opened
    rw [foundRecord, Option.some.injEq] at foundSame
    exact foundSame ▸ own
  · have counted := Server.card_owners (used running).sessions unservedSession
    rw [settled.sessions.card_owners] at counted
    rw [← counted, Server.sessionLedger, List.count, List.countP_map]
    exact List.countP_congr fun session _ => by simp
  · have counted := Server.card_owners (used running).channels unservedTunnel
    have all : s.channelLedger.released.count 0 = s.channelLedger.released.length :=
      List.count_eq_length.mpr fun times member => (settled.kept times member).symm
    rw [settled.channels.card_owners, all] at counted
    rw [← counted]
    exact (List.length_map _).symm

/-- One client is served: its session and its channel are open. -/
theorem handles_accounted_pullThrough :
    ∃ s, (serverMachine 1 .posted {}).exec (serverMachine 1 .posted {}).init pullThrough = some s ∧
      s.HandlesAccounted ∧ s.sessionLedger = ⟨[0], [some 0]⟩ ∧
        s.channelLedger = ⟨[0], [some 0]⟩ :=
  ⟨_, rfl, handles_accounted .posted {} _ ⟨pullThrough, rfl⟩, rfl, rfl⟩

end BookFilerSsh
