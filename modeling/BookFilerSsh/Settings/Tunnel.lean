import BookFilerSsh.Settings.Values
import BookFilerSsh.Tunnel.Layout

/-!
# The settings of the tunnel server

On their way to the network the settings of a tunnel are re-keyed twice.
`TunnelServerImpl` fills its `ServerState` from the settings map, the accept loop
makes another map from that for every client it creates, and `ClientImpl` fills its
`ClientState` from the second one. `connect` dials what it finds there and `tunnel`
asks the SSH server for the rest. The source port is narrowed in the first stage and
the destination port in the last, and the remote port is handed on as it is.

Nothing in a run changes a `ClientState` (`Server.configured`). So the server does what
its settings say, or nothing at all, exactly for the settings that have a source
address that parses, texts for the other addresses, three ports in range, and no zero
character in the remote address (`tunnelHonouredOrRefused_iff`).
-/

set_option autoImplicit false

namespace BookFilerSsh

open Lib Lib.Assignments Lib.Effects Lib.Tables

/-! ## The constructors -/

/-- `ServerState` of the tunnel server: the members that are handed on. The second
endpoint that `run` makes is used by nothing and left out. -/
structure ServerState where
  sourcePort : UInt16
  destPortInt : Int
  remotePortInt : Int
  sourceAddress : AddressV4
  destAddressStr : String
  remoteAddressStr : String
  userNameStr : String
  passwordStr : String
  deriving DecidableEq, Repr

namespace ServerState

/-- A new `ServerState`: the numbers are what the memory held. -/
def make (memory : ServerState) : ServerState :=
  { memory with
    sourceAddress := AddressV4.unspecified
    destAddressStr := ""
    remoteAddressStr := ""
    userNameStr := ""
    passwordStr := "" }

/-- The loop body of `TunnelServerImpl::TunnelServerImpl`. -/
def assign (parser : AddressParser) (state : ServerState) (key : String) :
    SettingValue → ServerState
  | .int value =>
      if key = "sourcePort" then { state with sourcePort := UInt16.ofInt value }
      else if key = "destPort" then { state with destPortInt := value }
      else if key = "remotePort" then { state with remotePortInt := value }
      else state
  | .double _ => state
  | .string value =>
      if key = "sourceAddress" then { state with sourceAddress := parser.fromString value }
      else if key = "destAddress" then { state with destAddressStr := value }
      else if key = "remoteAddress" then { state with remoteAddressStr := value }
      else if key = "userName" then { state with userNameStr := value }
      else if key = "password" then { state with passwordStr := value }
      else state

/-- `TunnelServerImpl::TunnelServerImpl`. -/
def ofSettings (parser : AddressParser) (memory : ServerState) (settings : Settings) :
    ServerState :=
  fill (assign parser) settings.entries (make memory)

/-- `endpoint{serverState->sourceAddress, serverState->sourcePort}`. -/
def srcEndpoint (state : ServerState) : Endpoint := ⟨state.sourceAddress, state.sourcePort⟩

/-- The entries of the map that `ListenerImpl::run` makes for a client. -/
def clientEntries (state : ServerState) : List (String × SettingValue) :=
  [("srcHostName", .string state.sourceAddress.text),
    ("srcPort", .int state.sourcePort.toNat),
    ("hostName", .string state.destAddressStr),
    ("port", .int state.destPortInt),
    ("remoteHostName", .string state.remoteAddressStr),
    ("remotePort", .int state.remotePortInt),
    ("userName", .string state.userNameStr),
    ("password", .string state.passwordStr)]

theorem clientEntries_distinct (state : ServerState) :
    (state.clientEntries.map Prod.fst).Nodup := by
  simp [clientEntries]

/-- `map_` in `ListenerImpl::run`. -/
def clientMap (state : ServerState) : Settings :=
  ⟨state.clientEntries, state.clientEntries_distinct⟩

/-- **What a client of the tunnel server works with.** -/
theorem ofSettings_clientMap (memory : ClientState) (state : ServerState) :
    ClientState.ofSettings memory state.clientMap =
      { port := UInt16.ofInt state.destPortInt
        srcPort := state.sourcePort.toNat
        remotePort := state.remotePortInt
        remoteBoundPort := memory.remoteBoundPort
        hostName := state.destAddressStr
        userName := state.userNameStr
        password := state.passwordStr
        remoteHostName := state.remoteAddressStr
        srcHostName := state.sourceAddress.text } := by
  simp [ClientState.ofSettings, clientMap, clientEntries, fill, ClientState.make,
    ClientState.assign]

/-! ### What the members hold -/

/-- Each member with the setting it is assigned from. -/
structure Members (parser : AddressParser) : Prop where
  sourcePort : TakesInt (assign parser) sourcePort "sourcePort" UInt16.ofInt
  destPortInt : TakesInt (assign parser) destPortInt "destPort" id
  remotePortInt : TakesInt (assign parser) remotePortInt "remotePort" id
  sourceAddress : TakesText (assign parser) sourceAddress "sourceAddress" parser.fromString
  destAddressStr : TakesText (assign parser) destAddressStr "destAddress" id
  remoteAddressStr : TakesText (assign parser) remoteAddressStr "remoteAddress" id
  userNameStr : TakesText (assign parser) userNameStr "userName" id
  passwordStr : TakesText (assign parser) passwordStr "password" id

theorem members (parser : AddressParser) : Members parser := by
  constructor <;> constructor
  -- under its own key
  case sourcePort.here | destPortInt.here | remotePortInt.here | sourceAddress.here
    | destAddressStr.here | remoteAddressStr.here | userNameStr.here | passwordStr.here =>
    intro state value
    cases value <;> simp [assign, SettingValue.getInt, SettingValue.getString]
  -- under the other keys
  all_goals
    intro state other value different
    cases value <;> simp only [assign, different, if_false] <;> repeat' split
    all_goals rfl

end ServerState

/-! ## What the settings ask for -/

/-- The endpoint to bind, the SSH server to dial and the target to ask it for. -/
structure TunnelTarget where
  sourceAddress : AddressV4
  sourcePort : ℕ
  destAddress : String
  destPort : ℕ
  remoteAddress : String
  remotePort : ℕ

/-- What the settings ask for, when every setting it needs is there, of the right type,
and the source address parses and the ports are in range. -/
def tunnelTarget (parser : AddressParser) (settings : Settings) : Option TunnelTarget := do
  let sourceAddress ← settings.address? parser "sourceAddress"
  let sourcePort ← settings.port? "sourcePort"
  let destAddress ← settings.text? "destAddress"
  let destPort ← settings.port? "destPort"
  let remoteAddress ← settings.text? "remoteAddress"
  let remotePort ← settings.port? "remotePort"
  return ⟨sourceAddress, sourcePort, destAddress, destPort, remoteAddress, remotePort⟩

/-- The request is the one the settings ask for. -/
def TunnelTarget.Honours (target : TunnelTarget) : Request → Prop
  | .bind endpoint =>
      endpoint.address = target.sourceAddress ∧ endpoint.port.toNat = target.sourcePort
  | .resolve host service => host = target.destAddress ∧ service = Nat.repr target.destPort
  | .directTcpip host port => host = target.remoteAddress ∧ port = target.remotePort
  | .connect _ => False

namespace Server

variable {T : ℕ}

/-- What a step of the server asks of the network. -/
def request (state : ServerState) (s : Server T) : ServerAction T → Option Request
  | .setupDone _ answer =>
      match s.listener, answer with
      | .binding, .bound true => some (.bind state.srcEndpoint)
      | .connecting _ c, .socket _ => s.clients[c]?.map fun client => client.clientState.query
      | .opening _ c, .channel _ => s.clients[c]?.map fun client => client.clientState.target
      | _, _ => none
  | _ => none

end Server

/-- What the clients of the server work with, whose members no setting reaches hold what
the memory held. -/
def clientStateOf (parser : AddressParser) (memory : ServerState) (clientMemory : ClientState)
    (settings : Settings) : ClientState :=
  ClientState.ofSettings clientMemory (ServerState.ofSettings parser memory settings).clientMap

/-- **Honoured exactly or refused**: whatever the server asks of the network, in any
run on any number of threads, is what its settings ask for, and when they ask for
nothing that can be done it asks for nothing. -/
def TunnelHonouredOrRefused (parser : AddressParser) (memory : ServerState)
    (clientMemory : ClientState) (settings : Settings) : Prop :=
  ∀ (T : ℕ) (mode : SpawnMode) (actions : List (ServerAction T)),
    (serverMachine T mode (clientStateOf parser memory clientMemory settings)).Guarded
      (fun s action => ∀ request,
        s.request (ServerState.ofSettings parser memory settings) action = some request →
          ∃ target, tunnelTarget parser settings = some target ∧ target.Honours request)
      (serverMachine T mode (clientStateOf parser memory clientMemory settings)).init actions

/-! ## A client keeps its `ClientState` -/

namespace Link

variable {β : Type}

theorem clientState_act {link next : Link β} {action : LinkAction β}
    (acted : link.act action = some next) :
    next.client.clientState = link.client.clientState := by
  cases action with
  | pullStep =>
      obtain ⟨⟨after, effect⟩, stepped, rfl⟩ := Option.map_eq_some_iff.mp acted
      unfold pullStep at stepped
      split at stepped <;> try split at stepped
      all_goals cases stepped
      all_goals rfl
  | pushStep =>
      obtain ⟨⟨after, effect⟩, stepped, rfl⟩ := Option.map_eq_some_iff.mp acted
      unfold pushStep at stepped
      split at stepped <;> try split at stepped
      all_goals cases stepped
      all_goals rfl
  | _ =>
      simp only [act, pullReturn, pullWake, pullResume, pushReturn, pushWake, pushResume] at acted
      split at acted <;> try split at acted
      all_goals cases acted
      all_goals rfl

end Link

namespace ClientImpl

variable {β : Type} (state : ClientState)

/-- The call leaves the `ClientState` alone. -/
abbrev KeepsState {α : Type} (call : ClientM β α) : Prop :=
  Keeps (fun ctx => ctx.client.clientState = state) (fun _ => True) call

theorem keepsState_connectSocket (outcome : SocketOutcome) :
    KeepsState state (connectSocket outcome : ClientM β Unit) := by
  cases outcome with
  | resolveThrows => exact .throw trivial
  | connectThrows => exact .bind (.modify fun _ same => same) fun _ => .throw trivial
  | connected => exact .modify fun _ same => same

theorem keepsState_createSSHSession (created : Bool) :
    KeepsState state (createSSHSession created : ClientM β Unit) := by
  refine .ite (fun _ => .modify fun _ same => same) fun _ => ?_
  exact .bind (.modify fun _ same => same) fun _ => .throw trivial

theorem keepsState_sessionCall (rc : Int) : KeepsState state (sessionCall rc : ClientM β Int) :=
  .bind (.modify fun _ same => same) fun _ => .pure _

theorem keepsState_startThreadIo : KeepsState state (startThreadIo : ClientM β Unit) := by
  have starts : KeepsState state (modify Ctx.startThreadIo : ClientM β Unit) :=
    .modify fun _ same => same
  exact .bind .get fun _ => .ite (fun _ => .bind (.throw trivial) fun _ => starts) fun _ => starts

theorem keepsState_tunnel (opened : Bool) : KeepsState state (tunnel opened : ClientM β Int) := by
  have opens : KeepsState state (modify (Ctx.openCommandChannel · opened) : ClientM β Unit) := by
    refine .modify fun ctx same => ?_
    unfold Ctx.openCommandChannel
    split
    · split <;> exact same
    · exact same
  exact .bind opens fun _ => .bind .get fun _ => .ite (fun _ => .pure _) fun _ => .pure _

theorem keepsState_destruct (results : ReleaseResults) :
    KeepsState state (destruct results : ClientM β Unit) := by
  intro ctx same
  have released : (ctx.released results).client.clientState = state := by
    simp only [Ctx.released, Ctx.freeCommandChannel, Ctx.freeListenChannel, Ctx.cancelListener,
      Ctx.freeSession, Ctx.closeSocket, same]
  rw [destruct_run]
  split
  · exact ⟨released, trivial⟩
  · exact released

end ClientImpl

namespace Server

variable {T : ℕ}

/-- Every client works with the values the server was given. -/
def Configured (state : ClientState) (s : Server T) : Prop :=
  s.clientState = state ∧
    ∀ (c : ℕ) (client : ClientImpl TaggedByte), s.clients[c]? = some client →
      client.clientState = state

variable {state : ClientState}

theorem configured_onClient {α : Type} {s s' : Server T} {c : ℕ} {call : ClientM TaggedByte α}
    {next : α → Server T → Server T} (stepped : s.onClient c call next = some s')
    (configured : s.Configured state) (keeps : ClientImpl.KeepsState state call)
    (same : ∀ a (s : Server T), (next a s).toListenerState = s.toListenerState) :
    s'.Configured state := by
  obtain ⟨ctx, found, ends⟩ := onClient_eq_some stepped
  obtain ⟨client, foundClient, rfl⟩ := Option.map_eq_some_iff.mp found
  have after : (s.onState (.setCtx · c (finalState (call ⟨s.lib, client⟩)))).Configured state :=
    ⟨configured.1, forall_set configured.2
      (keeps ⟨s.lib, client⟩ (configured.2 c client foundClient)).final⟩
  rcases ends with ⟨a, rfl⟩ | rfl
  · have kept := same a (s.onState (.setCtx · c (finalState (call ⟨s.lib, client⟩))))
    rw [Configured, kept]
    exact after
  · exact after

theorem configured_listenerReturn {s s' : Server T} {answer : SetupAnswer}
    (configured : s.Configured state) (ended : s.listenerReturn answer = some s') :
    s'.Configured state := by
  unfold listenerReturn at ended
  split at ended
  · cases ended
    exact configured
  · exact configured_onClient ended configured (ClientImpl.keepsState_connectSocket state _)
      fun _ _ => rfl
  · exact configured_onClient ended configured (ClientImpl.keepsState_createSSHSession state _)
      fun _ _ => rfl
  · split at ended
    · exact configured_onClient ended configured (ClientImpl.keepsState_sessionCall state _)
        fun _ _ => rfl
    · exact configured_onClient ended configured
        (.bind (ClientImpl.keepsState_sessionCall state _) fun _ =>
          ClientImpl.keepsState_startThreadIo state) fun _ _ => rfl
  · exact configured_onClient ended configured (ClientImpl.keepsState_sessionCall state _)
      fun _ _ => rfl
  · refine configured_onClient ended configured (ClientImpl.keepsState_tunnel state _) ?_
    intro rc after
    split <;> rfl
  · exact configured_onClient ended configured (ClientImpl.keepsState_destruct state _)
      fun _ _ => rfl
  · cases ended

theorem configured_setLink {s : Server T} {i : ℕ} {link next : Link TaggedByte}
    {action : LinkAction TaggedByte} (configured : s.Configured state)
    (linked : s.link i = some link) (acted : link.act action = some next) :
    (s.setLink i next).Configured state := by
  obtain ⟨-, c, uses, foundClient, channel, opened, -⟩ := link_eq_some linked
  rw [setLink_eq uses opened (Link.frame_act acted)]
  have kept : next.client.clientState = state :=
    (Link.clientState_act acted).trans (configured.2 c _ foundClient)
  exact ⟨configured.1, forall_set configured.2 kept⟩

theorem configured_listenerStep {mode : SpawnMode} {s next : Server T} {effect : Effect}
    (configured : s.Configured state) (stepped : s.listenerStep mode = some (next, effect)) :
    next.Configured state := by
  unfold listenerStep at stepped
  split at stepped <;> try split at stepped
  all_goals cases stepped
  case h_5 => exact ⟨configured.1, forall_concat configured.2 configured.1⟩
  all_goals exact configured

/-- A step leaves every `ClientState` alone. -/
theorem configured_step {mode : SpawnMode} {s s' : Server T} {action : ServerAction T}
    (configured : s.Configured state) (stepped : s.step mode action = some s') :
    s'.Configured state := by
  cases (step_moves stepped).2 with
  | @listenerRuns t next effect top ran =>
      rw [Configured, applyEffect_toListenerState]
      exact configured_listenerStep configured ran
  | @pullRuns t i link next effect top linked ran =>
      rw [Configured, applyEffect_toListenerState]
      have acted : link.act .pullStep = some next := by simp [Link.act, ran]
      exact configured_setLink configured linked acted
  | @pushRuns t i link next effect top linked ran =>
      rw [Configured, applyEffect_toListenerState]
      have acted : link.act .pushStep = some next := by simp [Link.act, ran]
      exact configured_setLink configured linked acted
  | @pullResumes t i link next idle linked resumed =>
      have acted : link.act .pullResume = some next := resumed
      exact configured_setLink configured linked acted
  | @pushResumes t i link next idle linked resumed =>
      have acted : link.act .pushResume = some next := resumed
      exact configured_setLink configured linked acted
  | setUpReturns top ended => exact configured_listenerReturn configured ended
  | @readReturns t i link next channel result top linked named ended =>
      have acted : link.act (.pullReturn _) = some next := ended
      exact configured_setLink configured linked acted
  | @writeReturns t i link next result top linked ended =>
      have acted : link.act (.pushReturn result) = some next := ended
      exact configured_setLink configured linked acted
  | @readsLocal i link next completion linked woken =>
      have acted : link.act (.pushWake _) = some next := woken
      exact configured_setLink configured linked acted
  | @writesLocal i link next ec linked woken =>
      have acted : link.act (.pullWake ec) = some next := woken
      exact configured_setLink configured linked acted
  | listenerStarts _ _ | listenerResumes _ _ | clientArrives | acceptFails _ | accepts _ _ =>
      exact configured

/-- **Every client works with the values the server was given.** -/
theorem configured {mode : SpawnMode} {s : Server T}
    (reached : (serverMachine T mode state).Reachable s) : s.Configured state := by
  refine (serverMachine T mode state).invariant (I := Configured state) ?_ ?_ reached
  · exact ⟨rfl, fun c client found => by simp [serverMachine] at found⟩
  · intro s action s' holds stepped
    exact configured_step holds stepped

end Server

/-! ## When the settings are honoured -/

section

variable {parser : AddressParser} {memory : ServerState} {clientMemory : ClientState}
  {settings : Settings}

/-- What the server uses is what the settings ask for, except that the remote address
ends at a zero character. -/
theorem honours_target {target : TunnelTarget}
    (asked : tunnelTarget parser settings = some target) :
    target.Honours (.bind (ServerState.ofSettings parser memory settings).srcEndpoint) ∧
      target.Honours (clientStateOf parser memory clientMemory settings).query ∧
      (clientStateOf parser memory clientMemory settings).target =
        .directTcpip (zeroTerminated target.remoteAddress) target.remotePort := by
  simp only [tunnelTarget, Option.bind_eq_bind, Option.bind_eq_some_iff, Option.pure_def,
    Option.some.injEq] at asked
  obtain ⟨sourceAddress, foundSource, sourcePort, foundSourcePort, destAddress, heldDest,
    destPort, foundDestPort, remoteAddress, heldRemote, remotePort, foundRemotePort, rfl⟩ := asked
  obtain ⟨sourceText, heldSource, sourceParsed⟩ := Settings.address?_eq_some foundSource
  obtain ⟨sourceValue, heldSourcePort, sourceKept, -⟩ := Settings.port?_eq_some foundSourcePort
  obtain ⟨destValue, heldDestPort, destKept, -⟩ := Settings.port?_eq_some foundDestPort
  obtain ⟨remoteValue, heldRemotePort, -, remoteKept⟩ := Settings.port?_eq_some foundRemotePort
  have members := ServerState.members parser
  have source := members.sourceAddress.get_fill heldSource (ServerState.make memory)
  have port := members.sourcePort.get_fill heldSourcePort (ServerState.make memory)
  have dest := members.destAddressStr.get_fill heldDest (ServerState.make memory)
  have destPort' := members.destPortInt.get_fill heldDestPort (ServerState.make memory)
  have remote := members.remoteAddressStr.get_fill heldRemote (ServerState.make memory)
  have remotePort' := members.remotePortInt.get_fill heldRemotePort (ServerState.make memory)
  refine ⟨⟨source.trans sourceParsed, (congrArg UInt16.toNat port).trans sourceKept⟩, ?_, ?_⟩
  · rw [clientStateOf, ServerState.ofSettings_clientMap]
    refine ⟨dest, ?_⟩
    show Nat.repr (UInt16.ofInt (ServerState.ofSettings parser memory settings).destPortInt).toNat =
      Nat.repr destPort
    rw [ServerState.ofSettings, destPort', id, destKept]
  · rw [clientStateOf, ServerState.ofSettings_clientMap]
    simp only [ClientState.target, ServerState.ofSettings, remote, remotePort', id, remoteKept]

/-- Every request uses what the server or a client of it was given. -/
theorem Server.request_eq_some {T : ℕ} {state : ServerState} {clientState : ClientState}
    {s : Server T} {action : ServerAction T} {request : Request}
    (configured : s.Configured clientState) (asks : s.request state action = some request) :
    request = .bind state.srcEndpoint ∨ request = clientState.query ∨
      request = clientState.target := by
  unfold Server.request at asks
  split at asks
  · split at asks
    · cases asks
      exact .inl rfl
    · obtain ⟨client, found, rfl⟩ := Option.map_eq_some_iff.mp asks
      exact .inr (.inl (by rw [configured.2 _ client found]))
    · obtain ⟨client, found, rfl⟩ := Option.map_eq_some_iff.mp asks
      exact .inr (.inr (by rw [configured.2 _ client found]))
    · cases asks
  · cases asks

/-- The run in which a server with one thread accepts a client, up to the opening of
its channel. -/
def dialsOne : List (ServerAction 1) := (acceptsOne onlyThread).take 13

/-- **Exactly the settings that are honoured or refused.** -/
theorem tunnelHonouredOrRefused_iff :
    TunnelHonouredOrRefused parser memory clientMemory settings ↔
      ∃ target, tunnelTarget parser settings = some target ∧
        '\x00' ∉ target.remoteAddress.toList := by
  constructor
  · intro honoured
    -- the acceptor is bound and a client dials whatever the settings are
    obtain ⟨target, asked, honours⟩ := honoured 1 .posted (acceptsOne onlyThread) dialsOne
      (.setupDone onlyThread (.channel true)) _ _ _ rfl rfl rfl
      (clientStateOf parser memory clientMemory settings).target rfl
    refine ⟨target, asked, ?_⟩
    obtain ⟨-, -, used⟩ := @honours_target parser memory clientMemory settings target asked
    rw [used] at honours
    exact (zeroTerminated_eq_iff _).mp honours.1
  · rintro ⟨target, asked, noZero⟩ T mode actions before action after s next split run stepped
      request asks
    have configured := Server.configured ⟨before, run⟩
    obtain ⟨bound, dialled, tunnelled⟩ :=
      @honours_target parser memory clientMemory settings target asked
    refine ⟨target, asked, ?_⟩
    rcases Server.request_eq_some configured asks with rfl | rfl | rfl
    · exact bound
    · exact dialled
    · rw [tunnelled, (zeroTerminated_eq_iff _).mpr noZero]
      exact ⟨rfl, rfl⟩

end

end BookFilerSsh
