import BookFilerSsh.Client.State
import BookFilerSsh.Lib.Assignments
import Mathlib.Data.List.TakeWhile

/-!
# Settings and what they are used for

A settings map gives each key an `int`, a `double` or a string
(`newForwardingServerType`, `newTunnelServerType` and `newSshClientType` are the same
`std::variant`). The constructors run through the map and assign what they find, each
value to the member its key names, and say nothing about a key that is missing or
holds another alternative.

Ports are narrowed by `static_cast<unsigned short>`, which is `UInt16.ofInt`. An
`AddressParser` is the part of `boost::asio::ip::address_v4::from_string` that is not
written here: the address a text stands for, if it stands for one. On any other text
the call reports an error and returns `0.0.0.0` (`AddressParser.fromString`).

A `Request` is what a server asks of the network.
-/

set_option autoImplicit false

namespace BookFilerSsh

/-! ## Values -/

/-- `std::variant<int, double, std::string>`. -/
inductive SettingValue where
  | int (value : Int)
  | double (value : Float)
  | string (value : String)

namespace SettingValue

/-- `std::get_if<int>`. -/
def getInt : SettingValue → Option Int
  | .int value => some value
  | _ => none

/-- `std::get_if<std::string>`. -/
def getString : SettingValue → Option String
  | .string value => some value
  | _ => none

end SettingValue

/-- A `std::map<std::string, SettingValue>`: its entries in the order in which they are
run through. -/
structure Settings where
  entries : List (String × SettingValue)
  distinct : (entries.map Prod.fst).Nodup

namespace Settings

/-- The integer under a key. -/
def int? (settings : Settings) (key : String) : Option Int :=
  (settings.entries.lookup key).bind SettingValue.getInt

/-- The text under a key. -/
def text? (settings : Settings) (key : String) : Option String :=
  (settings.entries.lookup key).bind SettingValue.getString

/-- The integer under a key, when it is a port. -/
def port? (settings : Settings) (key : String) : Option ℕ :=
  (settings.int? key).bind fun value =>
    if 0 ≤ value ∧ value ≤ 65535 then some value.toNat else none

end Settings

section Members

open Lib Lib.Assignments

variable {σ α : Type} {assign : σ → String → SettingValue → σ} {get : σ → α} {key : String}
  {settings : Settings}

/-- The member is assigned the integer under its key, converted. -/
abbrev TakesInt (assign : σ → String → SettingValue → σ) (get : σ → α) (key : String)
    (convert : Int → α) : Prop :=
  AssignedUnder assign get key fun value => value.getInt.map convert

/-- The member is assigned the text under its key, converted. -/
abbrev TakesText (assign : σ → String → SettingValue → σ) (get : σ → α) (key : String)
    (convert : String → α) : Prop :=
  AssignedUnder assign get key fun value => value.getString.map convert

theorem TakesInt.get_fill {convert : Int → α}
    (member : TakesInt assign get key convert) {value : Int}
    (held : settings.int? key = some value) (record : σ) :
    get (fill assign settings.entries record) = convert value := by
  rw [Settings.int?, Option.bind_eq_some_iff] at held
  obtain ⟨setting, found, taken⟩ := held
  rw [Assignments.get_fill member settings.distinct, found, Option.bind_some, taken]
  rfl

theorem TakesText.get_fill {convert : String → α}
    (member : TakesText assign get key convert) {value : String}
    (held : settings.text? key = some value) (record : σ) :
    get (fill assign settings.entries record) = convert value := by
  rw [Settings.text?, Option.bind_eq_some_iff] at held
  obtain ⟨setting, found, taken⟩ := held
  rw [Assignments.get_fill member settings.distinct, found, Option.bind_some, taken]
  rfl

end Members

/-- `static_cast<unsigned short>` keeps a port as it is. -/
theorem toNat_ofInt_of_port {value : Int} (lower : 0 ≤ value) (upper : value ≤ 65535) :
    (UInt16.ofInt value).toNat = value.toNat := by
  rw [UInt16.ofInt, UInt16.toNat_ofNat']
  omega

/-- What `port?` finds. -/
theorem Settings.port?_eq_some {settings : Settings} {key : String} {port : ℕ}
    (found : settings.port? key = some port) :
    ∃ value, settings.int? key = some value ∧ (UInt16.ofInt value).toNat = port ∧
      value = (port : Int) := by
  rw [Settings.port?, Option.bind_eq_some_iff] at found
  obtain ⟨value, held, inRange⟩ := found
  split at inRange
  · rename_i range
    rw [Option.some.injEq] at inRange
    refine ⟨value, held, ?_, ?_⟩
    · rw [toNat_ofInt_of_port range.1 range.2, inRange]
    · omega
  · cases inRange

/-! ## Addresses -/

/-- A `boost::asio::ip::address_v4`. -/
abbrev AddressV4 := UInt32

namespace AddressV4

/-- `0.0.0.0`, a default-constructed address. -/
def unspecified : AddressV4 := 0

/-- `to_string`: the bytes in decimal, the highest first. -/
def text (address : AddressV4) : String :=
  ".".intercalate
    ([24, 16, 8, 0].map fun shift => Nat.repr (address.toNat / 2 ^ shift % 256))

end AddressV4

/-- The address a text stands for. -/
abbrev AddressParser := String → Option AddressV4

/-- `boost::asio::ip::address_v4::from_string(text, ec)`, whose `ec` is only logged. -/
def AddressParser.fromString (parser : AddressParser) (text : String) : AddressV4 :=
  (parser text).getD AddressV4.unspecified

/-- The address under a key. -/
def Settings.address? (settings : Settings) (parser : AddressParser) (key : String) :
    Option AddressV4 :=
  (settings.text? key).bind parser

/-- What `address?` finds is what `from_string` returns. -/
theorem Settings.address?_eq_some {settings : Settings} {parser : AddressParser} {key : String}
    {address : AddressV4} (found : settings.address? parser key = some address) :
    ∃ text, settings.text? key = some text ∧ parser.fromString text = address := by
  rw [Settings.address?, Option.bind_eq_some_iff] at found
  obtain ⟨text, held, parsed⟩ := found
  exact ⟨text, held, by rw [AddressParser.fromString, parsed, Option.getD_some]⟩

/-- A `boost::asio::ip::tcp::endpoint`. -/
structure Endpoint where
  address : AddressV4
  port : UInt16
  deriving DecidableEq, Repr

/-- The text a `const char *` argument ends at its first zero character. -/
def zeroTerminated (text : String) : String :=
  String.ofList (text.toList.takeWhile (· ≠ '\x00'))

theorem zeroTerminated_eq_iff (text : String) :
    zeroTerminated text = text ↔ '\x00' ∉ text.toList := by
  have ends : text.toList.takeWhile (· ≠ '\x00') = text.toList ↔ '\x00' ∉ text.toList := by
    rw [List.takeWhile_eq_self_iff]
    constructor
    · intro none member
      simpa using none '\x00' member
    · intro absent character member
      have different : character ≠ '\x00' := fun same => absent (same ▸ member)
      simpa using different
  rw [← ends, zeroTerminated]
  constructor
  · intro same
    have lists := congrArg String.toList same
    rwa [String.toList_ofList] at lists
  · intro same
    rw [same, String.ofList_toList]

/-! ## Requests -/

/-- What a server asks of the network. -/
inductive Request where
  /-- `acceptor.bind` -/
  | bind (endpoint : Endpoint)
  /-- `destSocket.async_connect` -/
  | connect (endpoint : Endpoint)
  /-- the `resolver::query` of `ConnectSocket`, whose result it connects to -/
  | resolve (host service : String)
  /-- `libssh2_channel_direct_tcpip_ex` -/
  | directTcpip (host : String) (port : Int)
  deriving DecidableEq, Repr

/-! ## The client -/

/-- The members of a new `ClientState`: its texts have defaults, its numbers are what
the memory held. -/
def ClientState.make (memory : ClientState) : ClientState :=
  { memory with
    hostName := ""
    userName := ""
    password := ""
    remoteHostName := "127.0.0.1"
    srcHostName := "127.0.0.1" }

/-- The loop body of `ClientImpl::ClientImpl`. -/
def ClientState.assign (state : ClientState) (key : String) : SettingValue → ClientState
  | .int value =>
      if key = "port" then { state with port := UInt16.ofInt value }
      else if key = "remotePort" then { state with remotePort := value }
      else if key = "srcPort" then { state with srcPort := value }
      else state
  | .double _ => state
  | .string value =>
      if key = "userName" then { state with userName := value }
      else if key = "password" then { state with password := value }
      else if key = "hostName" then { state with hostName := value }
      else if key = "remoteHostName" then { state with remoteHostName := value }
      else if key = "srcHostName" then { state with srcHostName := value }
      else state

/-- `ClientImpl::ClientImpl`. -/
def ClientState.ofSettings (memory : ClientState) (settings : Settings) : ClientState :=
  Lib.Assignments.fill ClientState.assign settings.entries (ClientState.make memory)

/-- The query of `ConnectSocket`. `boost::lexical_cast` writes the port in decimal. -/
def ClientState.query (state : ClientState) : Request :=
  .resolve state.hostName (Nat.repr state.port.toNat)

/-- What `ClientImpl::tunnel` asks the SSH server for. -/
def ClientState.target (state : ClientState) : Request :=
  .directTcpip (zeroTerminated state.remoteHostName) state.remotePort

end BookFilerSsh
