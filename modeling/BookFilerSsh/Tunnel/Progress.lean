import BookFilerSsh.Tunnel.Provision
import BookFilerSsh.Tunnel.Scheduling

/-!
# The tunnel server never gets stuck

A thread that has a coroutine can always go on: the coroutine on its top has a next
statement, or is in a call that can end. An idle thread can take up every coroutine that is
ready, and what a parked coroutine waits for can always happen. So in every reachable state
of a process that lives, nothing but a missing thread and a silent peer can hold a
coroutine up (`never_stuck`).

The pumps could be held up by a client or a channel they do not have. They have both from
the moment they are spawned (`Server.link_of_spawned`).
-/

set_option autoImplicit false

namespace BookFilerSsh

open Lib.Pool

/-! ## The pumps -/

section Links

variable {β : Type}

theorem PullPc.isSpawned_of_status {pc : PullPc β} (present : pc.status ≠ .absent) :
    pc.isSpawned = true := by
  cases pc with
  | unspawned => exact absurd rfl present
  | _ => rfl

theorem PushPc.isSpawned_of_status {pc : PushPc β} (present : pc.status ≠ .absent) :
    pc.isSpawned = true := by
  cases pc with
  | unspawned => exact absurd rfl present
  | _ => rfl

namespace Link

variable {link : Link β}

/-- A running `runPull` has a next statement or is reading the channel. -/
theorem runs_pull (running : link.conn.pull.status = .running) :
    link.pullStep.isSome ∨ link.conn.pull = .inRead := by
  cases pc : link.conn.pull with
  | inRead => exact .inr rfl
  | unspawned | spawned | writing bufferStr len | written ec | returned =>
      rw [pc] at running
      cases running
  | readDone result =>
      left
      simp only [pullStep, pc]
      split <;> rfl
  | lenCopied bufferStr len =>
      left
      simp only [pullStep, pc]
      split <;> rfl
  | resumed ec => cases ec <;> exact .inl (by simp [pullStep, pc])
  | _ => exact .inl (by simp [pullStep, pc])

/-- A running `runPush` has a next statement or is writing to the channel. -/
theorem runs_push (running : link.conn.push.status = .running) :
    link.pushStep.isSome ∨ link.conn.push = .inWrite := by
  cases pc : link.conn.push with
  | inWrite => exact .inr rfl
  | unspawned | spawned | reading | readDone n ec | returned =>
      rw [pc] at running
      cases running
  | writeDone result =>
      left
      simp only [pushStep, pc]
      split <;> rfl
  | resumed n ec => cases ec <;> exact .inl (by simp [pushStep, pc])
  | sent rc =>
      left
      simp only [pushStep, pc]
      split <;> rfl
  | _ => exact .inl (by simp [pushStep, pc])

theorem resumes_pull (ready : link.conn.pull.status = .ready) : link.pullResume.isSome := by
  cases pc : link.conn.pull with
  | spawned | written ec => simp [pullResume, pc]
  | _ =>
      rw [pc] at ready
      cases ready

theorem resumes_push (ready : link.conn.push.status = .ready) : link.pushResume.isSome := by
  cases pc : link.conn.push with
  | spawned | readDone n ec => simp [pushResume, pc]
  | _ =>
      rw [pc] at ready
      cases ready

theorem wakes_pull (parked : link.conn.pull.status = .parked) (ec : Bool) :
    (link.pullWake ec).isSome := by
  cases pc : link.conn.pull with
  | writing bufferStr len => simp [pullWake, pc]
  | _ =>
      rw [pc] at parked
      cases parked

theorem wakes_push (parked : link.conn.push.status = .parked) :
    (link.pushWake .failed).isSome := by
  cases pc : link.conn.push with
  | reading => simp [pushWake, pc]
  | _ =>
      rw [pc] at parked
      cases parked

end Link

end Links

variable {T : ℕ}

/-- The thread goes on: with a statement, or because the call it is in ends. -/
def ServerAction.On (t : Fin T) : ServerAction T → Prop
  | .run u | .setupDone u _ | .readDone u _ | .writeDone u _ => u = t
  | _ => False

/-- What the coroutine waits for happens. -/
def ServerAction.Completes : Coro → ServerAction T → Prop
  | .listener, .acceptDone _ => True
  | .pull i, .localWritten j _ => j = i
  | .push i, .localRead j _ => j = i
  | _, _ => False

namespace Server

variable {s : Server T} {mode : SpawnMode} {clientState : ClientState}

/-- Nothing in the server is stuck. -/
structure Unstuck (mode : SpawnMode) (s : Server T) : Prop where
  busy : ∀ t, s.threads t ≠ [] → ∃ action : ServerAction T, action.On t ∧
    (s.step mode action).isSome
  ready : ∀ t coro, s.threads t = [] → s.status coro = .ready →
    (s.step mode (.resume t coro)).isSome
  parked : ∀ coro, s.status coro = .parked → ∃ action : ServerAction T, action.Completes coro ∧
    (s.step mode action).isSome

/-- **A spawned pump has its client and its channel.** -/
theorem link_of_spawned (inPlace : s.InPlace) {i : ℕ} {conn : ConnectionImpl TaggedByte}
    (found : s.connectionList[i]? = some conn)
    (spawned : conn.pull.isSpawned = true ∨ conn.push.isSpawned = true) :
    ∃ link, s.link i = some link ∧ link.conn = conn := by
  have shape : s.shapes[i]? = some conn.shape := by simp [Server.shapes, found]
  rcases inPlace.laid.own i conn.shape shape with empty | own
  · have pull := congrArg Shape.pull empty
    have push := congrArg Shape.push empty
    rcases spawned with up | up
    · exact absurd (up.symm.trans pull) (by decide)
    · exact absurd (up.symm.trans push) (by decide)
  · exact link_of_hasChannel inPlace.held found own (inPlace.equipped.used i conn i found own)

/-- The link of a pump that is there. -/
theorem link_of_pull (inPlace : s.InPlace) {i : ℕ} (present : s.status (.pull i) ≠ .absent) :
    ∃ link, s.link i = some link ∧ s.status (.pull i) = link.conn.pull.status := by
  cases found : s.connectionList[i]? with
  | none => exact absurd (by simp [status, found]) present
  | some conn =>
      have same : s.status (.pull i) = conn.pull.status := by simp [status, found]
      rw [same] at present
      obtain ⟨link, linked, rfl⟩ :=
        link_of_spawned inPlace found (.inl (PullPc.isSpawned_of_status present))
      exact ⟨link, linked, same⟩

theorem link_of_push (inPlace : s.InPlace) {i : ℕ} (present : s.status (.push i) ≠ .absent) :
    ∃ link, s.link i = some link ∧ s.status (.push i) = link.conn.push.status := by
  cases found : s.connectionList[i]? with
  | none => exact absurd (by simp [status, found]) present
  | some conn =>
      have same : s.status (.push i) = conn.push.status := by simp [status, found]
      rw [same] at present
      obtain ⟨link, linked, rfl⟩ :=
        link_of_spawned inPlace found (.inr (PushPc.isSpawned_of_status present))
      exact ⟨link, linked, same⟩

/-! ## The accept loop -/

theorem isSome_onClient {α : Type} {c : ℕ} {ctx : Ctx TaggedByte} (found : s.ctx c = some ctx)
    (call : ClientM TaggedByte α) (next : α → Server T → Server T) :
    (s.onClient c call next).isSome := by
  simp only [onClient, found, Option.bind_eq_bind, Option.bind_some]
  split <;> rfl

/-- The client whose set-up is in a call is there. -/
theorem ctx_of_inSetUp (laid : s.LaidOut) {i c : ℕ} (here : s.listener.inSetUp = some (i, c)) :
    ∃ ctx, s.ctx c = some ctx := by
  obtain ⟨rfl, count, -⟩ := (ListenerPc.fits_inSetUp here _ _).mp laid.fits
  have inside : c < s.clients.length := by omega
  exact ⟨⟨s.lib, s.clients[c]⟩, by simp [ListenerState.ctx, inside]⟩

/-- A running accept loop has a next statement, or its call can end. -/
theorem runs_listener (laid : s.LaidOut) (mode : SpawnMode)
    (running : s.listener.status = .running) :
    (s.listenerStep mode).isSome ∨ ∃ answer, (s.listenerReturn answer).isSome := by
  have calls : ∀ {i c : ℕ}, s.listener.inSetUp = some (i, c) →
      ∀ {α : Type} (call : ClientM TaggedByte α) (next : α → Server T → Server T),
        (s.onClient c call next).isSome := by
    intro i c here α call next
    obtain ⟨ctx, found⟩ := ctx_of_inSetUp laid here
    exact isSome_onClient found call next
  cases pc : s.listener with
  | spawned | accepting | accepted ec | returned =>
      rw [pc] at running
      cases running
  | binding => exact .inr ⟨.bound true, by simp [listenerReturn, pc]⟩
  | connecting i c =>
      refine .inr ⟨.socket .connected, ?_⟩
      simp only [listenerReturn, pc]
      exact calls (by rw [pc]; rfl) _ _
  | creating i c =>
      refine .inr ⟨.session true, ?_⟩
      simp only [listenerReturn, pc]
      exact calls (by rw [pc]; rfl) _ _
  | handshaking i c =>
      refine .inr ⟨.handshake 0, ?_⟩
      simp only [listenerReturn, pc, ne_eq, not_true, if_false]
      exact calls (by rw [pc]; rfl) _ _
  | authenticating i c =>
      refine .inr ⟨.auth 0, ?_⟩
      simp only [listenerReturn, pc]
      exact calls (by rw [pc]; rfl) _ _
  | opening i c =>
      refine .inr ⟨.channel true, ?_⟩
      simp only [listenerReturn, pc]
      exact calls (by rw [pc]; rfl) _ _
  | dropping i c =>
      refine .inr ⟨.dropped {}, ?_⟩
      simp only [listenerReturn, pc]
      exact calls (by rw [pc]; rfl) _ _
  | resumed ec => cases ec <;> exact .inl (by simp [listenerStep, pc])
  | _ => exact .inl (by simp [listenerStep, pc])

/-! ## Threads -/

/-- The coroutine on top of a thread goes on. -/
theorem goesOn_of_top (inPlace : s.InPlace) (alive : s.terminated = false) (mode : SpawnMode)
    {t : Fin T} {coro : Coro} (top : (s.threads t).head? = some coro)
    (running : s.status coro = .running) :
    ∃ action : ServerAction T, action.On t ∧ (s.step mode action).isSome := by
  have runs : (s.coroStep mode coro).isSome → (s.step mode (.run t)).isSome := by
    intro stepped
    obtain ⟨next, ran⟩ := Option.isSome_iff_exists.mp stepped
    simp [Server.step, alive, top, ran]
  cases coro with
  | listener =>
      rcases runs_listener inPlace.laid mode running with stepped | ⟨answer, ended⟩
      · exact ⟨.run t, rfl, runs stepped⟩
      · exact ⟨.setupDone t answer, rfl, by simpa [Server.step, alive, top] using ended⟩
  | pull i =>
      obtain ⟨link, linked, same⟩ := link_of_pull inPlace (by rw [running]; decide)
      rcases link.runs_pull (same.symm.trans running) with stepped | reading
      · obtain ⟨next, ran⟩ := Option.isSome_iff_exists.mp stepped
        exact ⟨.run t, rfl, runs (by simp [coroStep, pumpStep, linked, ran])⟩
      · obtain ⟨channel, named⟩ := channelOf_of_link linked
        refine ⟨.readDone t (.code 0 ReadResult.zero_notPositive), rfl, ?_⟩
        simp [Server.step, alive, top, named, onLink, linked, Link.pullReturn, reading]
  | push i =>
      obtain ⟨link, linked, same⟩ := link_of_push inPlace (by rw [running]; decide)
      rcases link.runs_push (same.symm.trans running) with stepped | writing
      · obtain ⟨next, ran⟩ := Option.isSome_iff_exists.mp stepped
        exact ⟨.run t, rfl, runs (by simp [coroStep, pumpStep, linked, ran])⟩
      · refine ⟨.writeDone t 0, rfl, ?_⟩
        simp [Server.step, alive, top, onLink, linked, Link.pushReturn, writing]

/-- An idle thread takes up what is ready. -/
theorem resumes_of_ready (inPlace : s.InPlace) (alive : s.terminated = false) (mode : SpawnMode)
    {t : Fin T} {coro : Coro} (idle : s.threads t = []) (ready : s.status coro = .ready) :
    (s.step mode (.resume t coro)).isSome := by
  suffices resumed : (s.coroResume coro).isSome by
    obtain ⟨next, resumed⟩ := Option.isSome_iff_exists.mp resumed
    simp [Server.step, alive, idle, resumed]
  cases coro with
  | listener =>
      have status : s.listener.status = .ready := ready
      cases pc : s.listener with
      | spawned | accepted ec => simp [coroResume, pc]
      | _ =>
          rw [pc] at status
          cases status
  | pull i =>
      obtain ⟨link, linked, same⟩ := link_of_pull inPlace (by rw [ready]; decide)
      obtain ⟨next, resumed⟩ :=
        Option.isSome_iff_exists.mp (link.resumes_pull (same.symm.trans ready))
      simp [coroResume, onLink, linked, resumed]
  | push i =>
      obtain ⟨link, linked, same⟩ := link_of_push inPlace (by rw [ready]; decide)
      obtain ⟨next, resumed⟩ :=
        Option.isSome_iff_exists.mp (link.resumes_push (same.symm.trans ready))
      simp [coroResume, onLink, linked, resumed]

/-- What a parked coroutine waits for can happen. -/
theorem completes_of_parked (inPlace : s.InPlace) (alive : s.terminated = false)
    (mode : SpawnMode) {coro : Coro} (parked : s.status coro = .parked) :
    ∃ action : ServerAction T, action.Completes coro ∧ (s.step mode action).isSome := by
  cases coro with
  | listener =>
      have status : s.listener.status = .parked := parked
      cases pc : s.listener with
      | accepting => exact ⟨.acceptDone true, trivial, by simp [Server.step, alive, pc]⟩
      | _ =>
          rw [pc] at status
          cases status
  | pull i =>
      obtain ⟨link, linked, same⟩ := link_of_pull inPlace (by rw [parked]; decide)
      obtain ⟨next, woken⟩ :=
        Option.isSome_iff_exists.mp (link.wakes_pull (same.symm.trans parked) false)
      exact ⟨.localWritten i false, rfl, by simp [Server.step, alive, onLink, linked, woken]⟩
  | push i =>
      obtain ⟨link, linked, same⟩ := link_of_push inPlace (by rw [parked]; decide)
      obtain ⟨next, woken⟩ :=
        Option.isSome_iff_exists.mp (link.wakes_push (same.symm.trans parked))
      exact ⟨.localRead i .failed, rfl, by
        simp [Server.step, alive, onLink, linked, woken, SrcReadEnd.map]⟩

end Server

/-- **The tunnel server never gets stuck.** In every reachable state of a process that lives,
every busy thread can go on, every idle thread can take up every ready coroutine, and what
a parked coroutine waits for can happen. -/
theorem never_stuck (mode : SpawnMode) (clientState : ClientState) (s : Server T)
    (reached : (serverMachine T mode clientState).Reachable s) (alive : s.terminated = false) :
    s.Unstuck mode := by
  have inPlace := Server.inPlace reached
  refine ⟨?_, ?_, ?_⟩
  · intro t busy
    obtain ⟨coro, rest, stack⟩ := List.exists_cons_of_ne_nil busy
    have onStack : ∃ t, coro ∈ s.pool.stack t :=
      ⟨t, by rw [show s.pool.stack t = coro :: rest from stack]; exact List.mem_cons_self⟩
    have running : s.status coro = .running :=
      ((Server.coherent reached).running_iff coro).mpr onStack
    have top : (s.threads t).head? = some coro := by rw [stack, List.head?_cons]
    exact Server.goesOn_of_top inPlace alive mode top running
  · exact fun t coro idle ready => Server.resumes_of_ready inPlace alive mode idle ready
  · exact fun coro parked => Server.completes_of_parked inPlace alive mode parked

theorem never_stuck_acceptsOne :
    ∃ s, (serverMachine 1 .posted {}).exec (serverMachine 1 .posted {}).init
        (acceptsOne onlyThread) = some s ∧ s.terminated = false ∧ s.Unstuck .posted :=
  ⟨_, rfl, rfl, never_stuck .posted {} _ ⟨acceptsOne onlyThread, rfl⟩ rfl⟩

end BookFilerSsh
