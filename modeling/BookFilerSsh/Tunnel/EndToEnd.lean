import BookFilerSsh.Tunnel.Isolation
import BookFilerSsh.Tunnel.Sending

/-!
# What a client of the tunnel server gets and gives

Every connection of the tunnel server runs by itself, so what holds of the two pumps of a
link alone holds of every link of the server. In every run, whatever the other connections
do, a client has been handed what its own channel returned, less than one read of the
channel behind, and its channel has accepted what `runPush` sends of the chunks read from
its own socket, at most one chunk of which is on its way (`relays_every_client`).
-/

set_option autoImplicit false

namespace BookFilerSsh

open Lib

variable {β : Type}

/-- `runPull` has handed over all that it was returned. -/
def PullPc.Between : PullPc β → Prop
  | .readDone _ | .appended _ | .readReturned | .strCopied _ | .lenCopied _ _ => False
  | _ => True

theorem ReadResult.length_bytes (result : ReadResult β) :
    result.bytes.length ≤ readBufferSize := by
  cases result with
  | chunk bytes nonempty fits => exact fits
  | code rc notPositive => exact Nat.zero_le _

namespace Link

variable {link next : Link β}

/-! ## One read behind -/

/-- A statement of `runPull` adds nothing to what is pending. -/
theorem pending_pullStep {effect : Effect} (inv : link.pullView.Inv)
    (stepped : link.pullStep = some (next, effect)) :
    next.pullView.pending.length ≤ link.pullView.pending.length := by
  have locals := inv.locals
  simp only [pullView, PullView.Local] at locals
  unfold pullStep at stepped
  split at stepped <;> try split at stepped
  all_goals cases stepped
  all_goals rename_i pc
  all_goals simp_all [pullView, PullView.pending, setPull, setClient, handOver, outerRc,
    ClientImpl.appendRead, ClientImpl.countRead]

/-- No more is pending than a read of the channel returns. -/
theorem pending_act {action : LinkAction β} (inv : link.pullView.Inv)
    (bounded : link.pullView.pending.length ≤ readBufferSize)
    (acted : link.act action = some next) :
    next.pullView.pending.length ≤ readBufferSize := by
  cases action with
  | pullStep =>
      obtain ⟨⟨after, effect⟩, stepped, rfl⟩ := Option.map_eq_some_iff.mp acted
      exact Nat.le_trans (pending_pullStep inv stepped) bounded
  | pullReturn result =>
      simp only [act, pullReturn] at acted
      split at acted <;> cases acted
      exact result.length_bytes
  | pullWake ec | pullResume =>
      simp only [act, pullWake, pullResume] at acted
      split at acted <;> cases acted <;> exact Nat.zero_le _
  | pushStep =>
      obtain ⟨⟨after, effect⟩, stepped, rfl⟩ := Option.map_eq_some_iff.mp acted
      exact pushStep_pullView stepped ▸ bounded
  | pushReturn result => exact pushReturn_pullView acted ▸ bounded
  | pushWake completion => exact pushWake_pullView acted ▸ bounded
  | pushResume => exact pushResume_pullView acted ▸ bounded

/-- Between two reads nothing is pending. -/
theorem PullView.pending_between {view : PullView β} (between : view.pull.Between) :
    view.pending = [] := by
  revert between
  unfold pending
  cases view.pull <;> simp [PullPc.Between]

/-! ## One chunk behind -/

/-- At most one chunk is on its way, and none between two chunks. -/
theorem PushView.After.sends {rounds : List (PushRound β)} {view : PushView β}
    (after : view.After rounds) : ∃ chunk soFar, view.Sends rounds chunk soFar ∧
      chunk.length ≤ readBufferLength ∧ (view.push.Between → chunk = [] ∧ soFar = []) := by
  have whole : view.Sends rounds [] [] → ∃ chunk soFar, view.Sends rounds chunk soFar ∧
      chunk.length ≤ readBufferLength ∧ (view.push.Between → chunk = [] ∧ soFar = []) :=
    fun sends => ⟨[], [], sends, Nat.zero_le _, fun _ => ⟨rfl, rfl⟩⟩
  have within : ∀ (chunk : SrcRead β) soFar, ¬ view.push.Between →
      view.Sends rounds chunk.bytes soFar → ∃ chunk soFar, view.Sends rounds chunk soFar ∧
        chunk.length ≤ readBufferLength ∧ (view.push.Between → chunk = [] ∧ soFar = []) :=
    fun chunk soFar inside sends =>
      ⟨chunk.bytes, soFar, sends, chunk.fits, fun between => absurd between inside⟩
  unfold After at after
  cases pc : view.push with
  | readDone n ec | resumed n ec =>
      rw [pc] at after within whole
      cases ec with
      | true => exact whole after
      | false =>
          obtain ⟨chunk, sends, -⟩ := after
          exact within chunk [] id sends
  | sending bufferStr len | strSet len | lenSet | writeEntered =>
      rw [pc] at after within
      obtain ⟨chunk, sends, -⟩ := after
      exact within chunk [] id sends
  | writeLoopTop | inWrite =>
      rw [pc] at after within
      obtain ⟨chunk, done, soFar, ⟨sends, -⟩, -⟩ := after
      exact within chunk soFar id sends
  | writeDone result =>
      rw [pc] at after within
      obtain ⟨chunk, done, soFar, ⟨sends, -⟩, -⟩ := after
      exact within chunk _ id sends
  | counted rc =>
      rw [pc] at after within
      obtain ⟨chunk, done, result, soFar, before, ⟨sends, -⟩, -⟩ := after
      exact within chunk _ id sends
  | _ =>
      rw [pc] at after whole
      exact whole after

/-! ## Both directions -/

/-- What the two pumps have done for a client. -/
structure Relays (link : Link β) : Prop where
  pulled : ∃ pending, link.channel.returned = link.conn.srcSocket.written ++ pending ∧
    pending.length ≤ readBufferSize ∧ (link.conn.pull.Between → pending = [])
  pushed : ∃ (rounds : List (PushRound β)) (chunk soFar : List β),
    (∀ round ∈ rounds, round.Fits) ∧
      link.conn.srcSocket.read = (rounds.flatMap fun round => round.read.bytes) ++ chunk ∧
      link.channel.accepted = (runPush {} rounds).accepted ++ soFar ∧
      chunk.length ≤ readBufferLength ∧
      (link.conn.push.Between → chunk = [] ∧ soFar = [])

/-- What a link that runs alone keeps. -/
structure Kept (link : Link β) : Prop where
  pull : link.pullView.Inv
  bounded : link.pullView.pending.length ≤ readBufferSize
  push : link.pushView.Inv

theorem kept_exec {client : ClientImpl β} {session : SessionId} {actions : List (LinkAction β)}
    (run : (linkMachine client session).exec (fresh client session) actions = some link) :
    link.Kept := by
  have initial : (fresh client session).Kept :=
    ⟨⟨rfl, trivial⟩, Nat.zero_le _, pushInv_fresh client session⟩
  refine Machine.exec_invariant (M := linkMachine client session) (I := Kept) ?_ initial run
  intro link action next kept acted
  exact ⟨inv_act kept.pull acted, pending_act kept.pull kept.bounded acted,
    pushInv_act kept.push acted⟩

theorem Kept.relays (kept : link.Kept) : link.Relays := by
  constructor
  · exact ⟨link.pullView.pending, kept.pull.returned, kept.bounded,
      fun between => PullView.pending_between between⟩
  · obtain ⟨rounds, fit, after⟩ := kept.push
    obtain ⟨chunk, soFar, sends, short, between⟩ := after.sends
    refine ⟨rounds, chunk, soFar, fit, sends.read, ?_, short, between⟩
    rw [runPush_accepted {} {} rounds]
    exact sends.accepted

/-- What is said of the core of a link is said of the link. -/
theorem Relays.of_core (relays : link.core.Relays) : link.Relays := by
  obtain ⟨⟨pending, returned, short, between⟩, ⟨rounds, chunk, soFar, fit, read, accepted, small,
    whole⟩⟩ := relays
  refine ⟨⟨pending, returned, short, fun here => between ?_⟩,
    ⟨rounds, chunk, soFar, fit, read, accepted, small, fun here => whole ?_⟩⟩
  · revert here
    show link.conn.pull.Between → link.conn.pull.up.Between
    cases link.conn.pull <;> exact id
  · revert here
    show link.conn.push.Between → link.conn.push.up.Between
    cases link.conn.push <;> exact id

end Link

/-- **Every client of the tunnel server gets what its channel returns and gives what its
socket is read**, at most one read behind in either direction, in every run of the server
and whatever the other connections do. -/
theorem relays_every_client {T : ℕ} (mode : SpawnMode) (clientState : ClientState) (s : Server T)
    (reached : (serverMachine T mode clientState).Reachable s) (i : ℕ) (link : Link TaggedByte)
    (linked : s.link i = some link) : link.Relays := by
  obtain ⟨actions, run⟩ := reached
  have alone := Server.alone_exec run i
  rw [linked] at alone
  obtain ⟨client, own⟩ := alone
  exact (Link.kept_exec own).relays.of_core

theorem relays_every_client_pullThrough :
    ∃ s link, (serverMachine 1 .posted {}).exec (serverMachine 1 .posted {}).init pullThrough =
      some s ∧ s.link 0 = some link ∧ link.Relays :=
  ⟨_, _, rfl, rfl, relays_every_client .posted {} _ ⟨pullThrough, rfl⟩ 0 _ rfl⟩

end BookFilerSsh
