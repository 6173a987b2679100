import BookFilerSsh.Port.Server
import BookFilerSsh.Settings.Values

/-!
# The settings of the port forwarding server

`ForwardingServerImpl` fills its `ServerState` from the settings map, and `run` gives
the listener the two endpoints it finds there: the one to bind and the one every
accepted client is connected to. A port that does not fit is wrapped, an address that
does not parse becomes `0.0.0.0`, and a member whose key is missing keeps what the
memory held. `run` looks at none of this.

So the server does what its settings say, or nothing at all, exactly for the settings
that have both addresses as texts that parse and both ports as integers in range
(`honouredOrRefused_iff`).
-/

set_option autoImplicit false

namespace BookFilerSsh.Port

open Lib Lib.Assignments

/-! ## The constructor -/

/-- `ServerState`: the members the server binds and connects with. -/
structure ServerState where
  sourcePort : UInt16
  destPort : UInt16
  sourceAddress : AddressV4
  destAddress : AddressV4
  deriving DecidableEq, Repr

namespace ServerState

/-- A new `ServerState`: the ports are what the memory held. -/
def make (memory : ServerState) : ServerState :=
  { memory with
    sourceAddress := AddressV4.unspecified
    destAddress := AddressV4.unspecified }

/-- The loop body of `ForwardingServerImpl::ForwardingServerImpl`. -/
def assign (parser : AddressParser) (state : ServerState) (key : String) :
    SettingValue → ServerState
  | .int value =>
      if key = "sourcePort" then { state with sourcePort := UInt16.ofInt value }
      else if key = "destPort" then { state with destPort := UInt16.ofInt value }
      else state
  | .double _ => state
  | .string value =>
      if key = "sourceAddress" then { state with sourceAddress := parser.fromString value }
      else if key = "destAddress" then { state with destAddress := parser.fromString value }
      else state

/-- `ForwardingServerImpl::ForwardingServerImpl`. -/
def ofSettings (parser : AddressParser) (memory : ServerState) (settings : Settings) :
    ServerState :=
  fill (assign parser) settings.entries (make memory)

/-- `endpoint{serverState->sourceAddress, serverState->sourcePort}`. -/
def srcEndpoint (state : ServerState) : Endpoint := ⟨state.sourceAddress, state.sourcePort⟩

/-- `endpoint{serverState->destAddress, serverState->destPort}`. -/
def destEndpoint (state : ServerState) : Endpoint := ⟨state.destAddress, state.destPort⟩

/-! ### What the members hold -/

/-- Each member with the setting it is assigned from. -/
structure Members (parser : AddressParser) : Prop where
  sourcePort : TakesInt (assign parser) sourcePort "sourcePort" UInt16.ofInt
  destPort : TakesInt (assign parser) destPort "destPort" UInt16.ofInt
  sourceAddress : TakesText (assign parser) sourceAddress "sourceAddress" parser.fromString
  destAddress : TakesText (assign parser) destAddress "destAddress" parser.fromString

theorem members (parser : AddressParser) : Members parser := by
  constructor <;> constructor
  -- under its own key
  case sourcePort.here | destPort.here | sourceAddress.here | destAddress.here =>
    intro state value
    cases value <;> simp [assign, SettingValue.getInt, SettingValue.getString]
  -- under the other keys
  all_goals
    intro state other value different
    cases value <;> simp only [assign, different, if_false] <;> repeat' split
    all_goals rfl

end ServerState

/-! ## What the settings ask for -/

/-- The endpoints the settings ask for. -/
structure ForwardingTarget where
  sourceAddress : AddressV4
  sourcePort : ℕ
  destAddress : AddressV4
  destPort : ℕ

/-- The endpoints, when every setting they need is there, of the right type, and an
address that parses or a port. -/
def forwardingTarget (parser : AddressParser) (settings : Settings) : Option ForwardingTarget := do
  let sourceAddress ← settings.address? parser "sourceAddress"
  let sourcePort ← settings.port? "sourcePort"
  let destAddress ← settings.address? parser "destAddress"
  let destPort ← settings.port? "destPort"
  return ⟨sourceAddress, sourcePort, destAddress, destPort⟩

/-- The request is the one the settings ask for. -/
def ForwardingTarget.Honours (target : ForwardingTarget) : Request → Prop
  | .bind endpoint =>
      endpoint.address = target.sourceAddress ∧ endpoint.port.toNat = target.sourcePort
  | .connect endpoint =>
      endpoint.address = target.destAddress ∧ endpoint.port.toNat = target.destPort
  | _ => False

/-- What a step of the server asks of the network. -/
def Server.request {β : Type} (state : ServerState) (s : Server β) :
    ServerAction β → Option Request
  | .bound true => if s.listener = .binding then some (.bind state.srcEndpoint) else none
  | .run => if s.listener = .loopTop then some (.connect state.destEndpoint) else none
  | _ => none

/-- **Honoured exactly or refused**: whatever the server asks of the network, in any
run, is what its settings ask for, and when they ask for nothing that can be done it
asks for nothing. -/
def HonouredOrRefused (parser : AddressParser) (memory : ServerState) (settings : Settings) :
    Prop :=
  ∀ actions : List (ServerAction UInt8),
    (serverMachine 0).Guarded
      (fun s action => ∀ request,
        s.request (ServerState.ofSettings parser memory settings) action = some request →
          ∃ target, forwardingTarget parser settings = some target ∧ target.Honours request)
      (serverMachine 0).init actions

variable {parser : AddressParser} {memory : ServerState} {settings : Settings}

/-- The endpoints the server uses are the ones the settings ask for. -/
theorem honours_endpoints {target : ForwardingTarget}
    (asked : forwardingTarget parser settings = some target) :
    target.Honours (.bind (ServerState.ofSettings parser memory settings).srcEndpoint) ∧
      target.Honours (.connect (ServerState.ofSettings parser memory settings).destEndpoint) := by
  simp only [forwardingTarget, Option.bind_eq_bind, Option.bind_eq_some_iff, Option.pure_def,
    Option.some.injEq] at asked
  obtain ⟨sourceAddress, foundSource, sourcePort, foundSourcePort, destAddress, foundDest,
    destPort, foundDestPort, rfl⟩ := asked
  obtain ⟨sourceText, heldSource, sourceParsed⟩ := Settings.address?_eq_some foundSource
  obtain ⟨destText, heldDest, destParsed⟩ := Settings.address?_eq_some foundDest
  obtain ⟨sourceValue, heldSourcePort, sourceKept, -⟩ := Settings.port?_eq_some foundSourcePort
  obtain ⟨destValue, heldDestPort, destKept, -⟩ := Settings.port?_eq_some foundDestPort
  have members := ServerState.members parser
  refine ⟨⟨?_, ?_⟩, ?_, ?_⟩
  · exact (members.sourceAddress.get_fill heldSource _).trans sourceParsed
  · have port := members.sourcePort.get_fill heldSourcePort (ServerState.make memory)
    exact (congrArg UInt16.toNat port).trans sourceKept
  · exact (members.destAddress.get_fill heldDest _).trans destParsed
  · have port := members.destPort.get_fill heldDestPort (ServerState.make memory)
    exact (congrArg UInt16.toNat port).trans destKept

/-- Every request uses one of the two endpoints. -/
theorem Server.request_eq_some {β : Type} {state : ServerState} {s : Server β}
    {action : ServerAction β} {request : Request}
    (asks : s.request state action = some request) :
    request = .bind state.srcEndpoint ∨ request = .connect state.destEndpoint := by
  unfold Server.request at asks
  split at asks
  · split at asks <;> cases asks
    exact .inl rfl
  · split at asks <;> cases asks
    exact .inr rfl
  · cases asks

/-- **Exactly the settings that ask for two endpoints are honoured or refused.** -/
theorem honouredOrRefused_iff :
    HonouredOrRefused parser memory settings ↔ (forwardingTarget parser settings).isSome := by
  constructor
  · intro honoured
    -- the acceptor is bound whatever the settings are
    obtain ⟨target, asked, -⟩ :=
      honoured [.run, .bound true] [.run] (.bound true) [] _ _ rfl rfl rfl _ rfl
    rw [asked]
    rfl
  · intro asked actions before action after s next _ _ _ request asks
    obtain ⟨target, found⟩ := Option.isSome_iff_exists.mp asked
    obtain ⟨bound, connected⟩ := @honours_endpoints parser memory settings target found
    refine ⟨target, found, ?_⟩
    rcases Server.request_eq_some asks with rfl | rfl
    · exact bound
    · exact connected

end BookFilerSsh.Port
