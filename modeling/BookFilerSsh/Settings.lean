import BookFilerSsh.Settings.Forwarding
import BookFilerSsh.Settings.Tunnel

/-!
# Settings of both servers

Neither constructor refuses a settings map, and neither `run` looks at what the
constructor found: an error of `from_string` is logged, and whatever the members then
hold is bound and dialled. So a server is as its settings say only when they say
something that can be done (`settings_honoured_iff`); a host name as the source
address makes the tunnel listen on every interface (`not_settings_honoured_localhost`).
-/

set_option autoImplicit false

namespace BookFilerSsh

/-- **Exactly the settings that are honoured or refused**, by the port forwarding server
and by the tunnel server. -/
theorem settings_honoured_iff (parser : AddressParser) (memory : Port.ServerState)
    (tunnelMemory : ServerState) (clientMemory : ClientState) (settings : Settings) :
    (Port.HonouredOrRefused parser memory settings ↔
        ∃ target, Port.forwardingTarget parser settings = some target) ∧
      (TunnelHonouredOrRefused parser tunnelMemory clientMemory settings ↔
        ∃ target, tunnelTarget parser settings = some target ∧
          '\x00' ∉ target.remoteAddress.toList) := by
  constructor
  · rw [Port.honouredOrRefused_iff, Option.isSome_iff_exists]
  · exact tunnelHonouredOrRefused_iff

/-- The parser of an address that is written in the settings below. -/
def loopbackParser : AddressParser := fun text =>
  if text = "127.0.0.1" then some 0x7f000001 else none

/-- The settings of a tunnel whose source address is a host name. -/
def localhostEntries : List (String × SettingValue) :=
  [("destAddress", .string "127.0.0.1"), ("destPort", .int 22),
    ("remoteAddress", .string "127.0.0.1"), ("remotePort", .int 3306),
    ("sourceAddress", .string "localhost"), ("sourcePort", .int 3306)]

theorem localhostEntries_distinct : (localhostEntries.map Prod.fst).Nodup := by
  simp [localhostEntries]

/-- **A host name is bound as every interface.** -/
theorem not_settings_honoured_localhost :
    ¬ ∀ (parser : AddressParser) (memory : Port.ServerState) (tunnelMemory : ServerState)
      (clientMemory : ClientState) (settings : Settings),
        Port.HonouredOrRefused parser memory settings ∧
          TunnelHonouredOrRefused parser tunnelMemory clientMemory settings := by
  intro always
  have honoured := (always loopbackParser ⟨0, 0, 0, 0⟩ ⟨0, 0, 0, 0, "", "", "", ""⟩ {}
    ⟨localhostEntries, localhostEntries_distinct⟩).2
  obtain ⟨target, asked, -⟩ := tunnelHonouredOrRefused_iff.mp honoured
  have refused : tunnelTarget loopbackParser ⟨localhostEntries, localhostEntries_distinct⟩ = none :=
    rfl
  rw [refused] at asked
  cases asked

end BookFilerSsh
