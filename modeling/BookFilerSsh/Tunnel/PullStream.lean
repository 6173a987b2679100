import BookFilerSsh.Tunnel.Connection

/-!
# The bytes a tunnel pulls out of its channel

The two pumps of one connection run on one client, their statements interleaved
in any order (`linkMachine`). Whatever the channel returns and in whatever order
the statements run, the bytes `runPull` hands to `async_write` are a prefix of
the bytes the channel returned, and between two channel reads nothing is left
over (`pulled_exactly`).

The invariant says for each position of `runPull` where the bytes are that the
channel returned and that were not handed over yet: in the buffer of the read, in
`commandChannelReadStr`, or in the copy the caller got (`pending`), and that the
length counted with them is theirs (`PullView.Inv`).
-/

set_option autoImplicit false

namespace BookFilerSsh

variable {β : Type}

namespace Link

/-- A connection whose pumps were just spawned on a client, whose channel has
carried nothing yet. -/
def fresh (client : ClientImpl β) (session : SessionId) : Link β where
  conn := { pull := .spawned, push := .spawned }
  client := client
  channel := { session := session }

end Link

/-- The two pumps of one connection, run in any order. -/
def linkMachine (client : ClientImpl β) (session : SessionId) :
    Lib.Machine (Link β) (LinkAction β) where
  init := Link.fresh client session
  step := Link.act

namespace Link

/-! ## What the pumps work on -/

/-- What `runPull` works on. -/
structure PullView (β : Type) where
  pull : PullPc β
  written : List β
  returned : List β
  str : List β
  len : ℕ

def pullView (link : Link β) : PullView β where
  pull := link.conn.pull
  written := link.conn.srcSocket.written
  returned := link.channel.returned
  str := link.client.commandChannelReadStr
  len := link.client.commandChannelReadLen

theorem pushStep_pullView {link next : Link β} {effect : Effect}
    (stepped : link.pushStep = some (next, effect)) : next.pullView = link.pullView := by
  unfold pushStep at stepped
  split at stepped <;> try split at stepped
  all_goals cases stepped
  all_goals rfl

theorem pushReturn_pullView {link next : Link β} {result : Int}
    (returned : link.pushReturn result = some next) : next.pullView = link.pullView := by
  unfold pushReturn at returned
  split at returned <;> try split at returned
  all_goals cases returned
  rfl

theorem pushWake_pullView {link next : Link β} {completion : SrcReadEnd β}
    (woken : link.pushWake completion = some next) : next.pullView = link.pullView := by
  unfold pushWake at woken
  split at woken <;> try split at woken
  all_goals cases woken
  all_goals rfl

theorem pushResume_pullView {link next : Link β}
    (resumed : link.pushResume = some next) : next.pullView = link.pullView := by
  unfold pushResume at resumed
  split at resumed
  all_goals cases resumed
  all_goals rfl

/-! ## The invariant of runPull -/

namespace PullView

/-- The bytes the channel returned that were not handed over yet. -/
def pending (view : PullView β) : List β :=
  match view.pull with
  | .readDone result => result.bytes
  | .appended _ | .readReturned => view.str
  | .strCopied bufferStr => bufferStr
  | .lenCopied bufferStr _ => bufferStr
  | _ => []

/-- What the members and locals of the read hold at each position. -/
def Local (view : PullView β) : Prop :=
  match view.pull with
  | .entered | .inRead | .readDone _ => view.str = [] ∧ view.len = 0
  | .appended rc => rc.toNat = view.str.length ∧ view.len = 0
  | .readReturned => view.len = view.str.length
  | .strCopied bufferStr => view.len = bufferStr.length
  | .lenCopied bufferStr len => len = bufferStr.length
  | _ => True

/-- The bytes returned are those handed over and those pending. -/
structure Inv (view : PullView β) : Prop where
  returned : view.returned = view.written ++ view.pending
  locals : view.Local

end PullView

theorem inv_pullStep {link next : Link β} {effect : Effect} (inv : link.pullView.Inv)
    (stepped : link.pullStep = some (next, effect)) : next.pullView.Inv := by
  obtain ⟨returned, locals⟩ := inv
  simp only [pullView, PullView.pending, PullView.Local] at returned locals
  cases pc : link.conn.pull with
  | loopTop =>
      simp only [pullStep, pc, Option.some.injEq, Prod.mk.injEq] at stepped returned
      obtain ⟨rfl, -⟩ := stepped
      exact ⟨by simpa [pullView, PullView.pending, setPull, setClient] using returned, trivial⟩
  | readCleared =>
      simp only [pullStep, pc, Option.some.injEq, Prod.mk.injEq] at stepped returned
      obtain ⟨rfl, -⟩ := stepped
      exact ⟨by simpa [pullView, PullView.pending, setPull, setClient] using returned, ⟨rfl, rfl⟩⟩
  | entered =>
      simp only [pullStep, pc, Option.some.injEq, Prod.mk.injEq] at stepped returned locals
      obtain ⟨rfl, -⟩ := stepped
      exact ⟨by simpa [pullView, PullView.pending, setPull] using returned, locals⟩
  | readDone result =>
      simp only [pullStep, pc] at stepped returned locals
      by_cases negative : result.rc < 0
      · simp only [negative, if_true, Option.some.injEq, Prod.mk.injEq] at stepped
        obtain ⟨rfl, -⟩ := stepped
        rw [ReadResult.bytes_of_rc_neg negative] at returned
        exact ⟨by simpa [pullView, PullView.pending, setPull, locals.1] using returned,
          by simp [pullView, PullView.Local, setPull, locals]⟩
      · simp only [negative, if_false, Option.some.injEq, Prod.mk.injEq] at stepped
        obtain ⟨rfl, -⟩ := stepped
        refine ⟨?_, ?_⟩ <;>
          simp [pullView, PullView.pending, PullView.Local, setPull, setClient,
            ClientImpl.appendRead, locals, returned, result.toNat_rc]
  | appended rc =>
      simp only [pullStep, pc, outerRc, lt_irrefl, if_false, Option.some.injEq,
        Prod.mk.injEq] at stepped returned locals
      obtain ⟨rfl, -⟩ := stepped
      refine ⟨returned, ?_⟩
      simp [pullView, PullView.Local, setPull, setClient, ClientImpl.countRead, locals]
  | readReturned =>
      simp only [pullStep, pc, Option.some.injEq, Prod.mk.injEq] at stepped returned locals
      obtain ⟨rfl, -⟩ := stepped
      exact ⟨returned, locals⟩
  | strCopied bufferStr =>
      simp only [pullStep, pc, Option.some.injEq, Prod.mk.injEq] at stepped returned locals
      obtain ⟨rfl, -⟩ := stepped
      exact ⟨returned, locals⟩
  | lenCopied bufferStr len =>
      simp only [pullStep, pc] at stepped returned locals
      by_cases empty : len = 0
      · simp only [empty, if_true, Option.some.injEq, Prod.mk.injEq] at stepped
        obtain ⟨rfl, -⟩ := stepped
        have nothing : bufferStr = [] := List.length_eq_zero_iff.mp (locals.symm.trans empty)
        exact ⟨by simpa [pullView, PullView.pending, setPull, nothing] using returned, trivial⟩
      · simp only [empty, if_false, Option.some.injEq, Prod.mk.injEq] at stepped
        obtain ⟨rfl, -⟩ := stepped
        exact ⟨by simp [pullView, PullView.pending, setPull, handOver, locals, returned], trivial⟩
  | resumed ec =>
      simp only [pullStep, pc] at stepped returned
      split at stepped <;> cases stepped
      · exact ⟨by simpa [pullView, PullView.pending, setPull] using returned, trivial⟩
      · exact ⟨by simpa [pullView, PullView.pending, setPull] using returned, trivial⟩
  | _ => simp [pullStep, pc] at stepped

theorem inv_pullReturn {link next : Link β} {result : ReadResult β} (inv : link.pullView.Inv)
    (ended : link.pullReturn result = some next) : next.pullView.Inv := by
  obtain ⟨returned, locals⟩ := inv
  simp only [pullView, PullView.pending, PullView.Local] at returned locals
  cases pc : link.conn.pull with
  | inRead =>
      simp only [pullReturn, pc, Option.some.injEq] at ended returned locals
      subst ended
      exact ⟨by simp [pullView, PullView.pending, setPull, returned], locals⟩
  | _ => simp [pullReturn, pc] at ended

theorem inv_pullWake {link next : Link β} {ec : Bool} (inv : link.pullView.Inv)
    (woken : link.pullWake ec = some next) : next.pullView.Inv := by
  have returned := inv.returned
  simp only [pullView, PullView.pending] at returned
  cases pc : link.conn.pull with
  | writing bufferStr len =>
      simp only [pullWake, pc, Option.some.injEq] at woken returned
      subst woken
      exact ⟨returned, trivial⟩
  | _ => simp [pullWake, pc] at woken

theorem inv_pullResume {link next : Link β} (inv : link.pullView.Inv)
    (resumed : link.pullResume = some next) : next.pullView.Inv := by
  have returned := inv.returned
  simp only [pullView, PullView.pending] at returned
  cases pc : link.conn.pull with
  | spawned =>
      simp only [pullResume, pc, Option.some.injEq] at resumed returned
      subst resumed
      exact ⟨returned, trivial⟩
  | written ec =>
      simp only [pullResume, pc, Option.some.injEq] at resumed returned
      subst resumed
      exact ⟨returned, trivial⟩
  | _ => simp [pullResume, pc] at resumed

/-- Every action keeps the invariant of `runPull`. -/
theorem inv_act {link next : Link β} {action : LinkAction β} (inv : link.pullView.Inv)
    (acted : link.act action = some next) : next.pullView.Inv := by
  cases action with
  | pullStep =>
      obtain ⟨⟨after, effect⟩, stepped, rfl⟩ := Option.map_eq_some_iff.mp acted
      exact inv_pullStep inv stepped
  | pullReturn result => exact inv_pullReturn inv acted
  | pullWake ec => exact inv_pullWake inv acted
  | pullResume => exact inv_pullResume inv acted
  | pushStep =>
      obtain ⟨⟨after, effect⟩, stepped, rfl⟩ := Option.map_eq_some_iff.mp acted
      exact pushStep_pullView stepped ▸ inv
  | pushReturn result => exact pushReturn_pullView acted ▸ inv
  | pushWake completion => exact pushWake_pullView acted ▸ inv
  | pushResume => exact pushResume_pullView acted ▸ inv

end Link

/-- **The pull direction is byte-exact.** In every state of every interleaving the
bytes handed to `async_write` are a prefix of the bytes the channel returned, and
all of them have been handed over whenever the next `libssh2_channel_read` is
made. -/
theorem pulled_exactly (client : ClientImpl β) (session : SessionId) (link : Link β)
    (reached : (linkMachine client session).Reachable link) :
    link.conn.srcSocket.written <+: link.channel.returned ∧
      (link.conn.pull = .inRead → link.conn.srcSocket.written = link.channel.returned) := by
  have inv : link.pullView.Inv :=
    (linkMachine client session).invariant (I := fun link => link.pullView.Inv)
      ⟨rfl, trivial⟩ (fun _ _ _ inv acted => Link.inv_act inv acted) reached
  refine ⟨⟨link.pullView.pending, inv.returned.symm⟩, fun pc => ?_⟩
  have returned := inv.returned
  simp only [Link.pullView, Link.PullView.pending, pc, List.append_nil] at returned
  exact returned.symm

/-- A read of `7 0` that `runPull` hands over, with a send begun in between. -/
def pullOnce : List (LinkAction UInt8) :=
  [.pullResume, .pullStep, .pullStep, .pullStep, .pushResume, .pushStep,
    .pushWake (.data { bytes := [5], nonempty := by decide, fits := by decide }),
    .pullReturn (.chunk [7, 0] (by decide) (by decide)), .pushResume, .pushStep, .pullStep,
    .pushStep, .pullStep, .pushStep, .pullStep, .pullStep, .pushStep, .pullStep]

theorem pulled_exactly_once :
    ∃ link, (linkMachine ({} : ClientImpl UInt8) 0).exec (Link.fresh {} 0) pullOnce = some link ∧
      link.conn.srcSocket.written <+: link.channel.returned ∧
        (link.conn.pull = .inRead → link.conn.srcSocket.written = link.channel.returned) :=
  ⟨_, rfl, pulled_exactly {} 0 _ ⟨pullOnce, rfl⟩⟩

end BookFilerSsh
