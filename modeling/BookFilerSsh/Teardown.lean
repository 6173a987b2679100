import BookFilerSsh.Port.Teardown
import BookFilerSsh.Tunnel.Teardown

/-!
# Teardown of connections, in both servers

Both servers keep every connection they ever published, and a pump that returns
closes nothing. The two statements are put together here.
-/

set_option autoImplicit false

namespace BookFilerSsh

/-- **Exactly when connections are torn down as a whole**, in the port forwarding
server and in the tunnel server: as long as no pump has gone on after a socket
operation that failed. -/
theorem connectionsTornDown_iff {β : Type} (zero : β) (forwarding : List (Port.ServerAction β))
    {T : ℕ} (mode : SpawnMode) (clientState : ClientState) (tunnelling : List (ServerAction T)) :
    ((Port.serverMachine zero).Throughout Port.Server.TornDown
        (Port.serverMachine zero).init forwarding ↔
      (Port.serverMachine zero).Guarded (fun s action => ¬ s.GivesUp action)
        (Port.serverMachine zero).init forwarding) ∧
      ((serverMachine T mode clientState).Throughout Server.TornDown
          (serverMachine T mode clientState).init tunnelling ↔
        (serverMachine T mode clientState).Guarded (fun s action => ¬ s.GivesUp action)
          (serverMachine T mode clientState).init tunnelling) :=
  ⟨Port.Server.tornDown_throughout_iff zero forwarding,
    Server.tornDown_throughout_iff mode clientState tunnelling⟩

/-- A client of the tunnel server is connected through and hangs up. -/
def hangUp : List (ServerAction 1) :=
  acceptsOne onlyThread ++
    [.resume onlyThread (.push 0), .run onlyThread, .localRead 0 .failed,
      .resume onlyThread (.push 0), .run onlyThread]

/-- **The channel outlives the client.** When the client of a tunnel hangs up, `runPush`
returns and the channel stays open. -/
theorem not_connectionsTornDown_hangUp :
    ¬ ((∀ forwarding : List (Port.ServerAction UInt8),
        (Port.serverMachine 0).Throughout Port.Server.TornDown
          (Port.serverMachine 0).init forwarding) ∧
      ∀ (T : ℕ) (mode : SpawnMode) (clientState : ClientState)
        (tunnelling : List (ServerAction T)),
        (serverMachine T mode clientState).Throughout Server.TornDown
          (serverMachine T mode clientState).init tunnelling) := by
  rintro ⟨-, always⟩
  have tornDown := always 1 .posted {} hangUp hangUp [] _ (List.append_nil _).symm rfl
  exact tornDown.channel 0 _ rfl rfl rfl

end BookFilerSsh
