import BookFilerSsh.Tunnel.Isolation
import BookFilerSsh.Tunnel.Sending

/-!
# Nothing stays in a pump of the tunnel

`runPull` does eleven things between two reads of the channel. `runPush` writes a chunk in
a loop, whose every turn sends a byte or ends it, so between two reads of its socket it does
at most four things for each byte of the chunk and eight more. Both hold in every run of the
server, whatever the other pump and the other connections do, and a pump that is not
waiting for its next read can always go on by itself (`tunnel_delivers`).

The bound is a rank of each pump that all its actions but the end of a read lower. The rank
of `runPush` looks at the counter of the client, which the other pump leaves alone.
-/

set_option autoImplicit false

namespace BookFilerSsh

open Lib

/-- The two pumps of a connection. -/
inductive Pump where
  | pull
  | push
  deriving DecidableEq, Repr

/-- The most a pump does between two reads. -/
def Pump.bound : Pump → ℕ
  | .pull => 11
  | .push => 4 * readBufferLength + 8

variable {β : Type}

/-- The action is one of this pump, or ends something this pump waits for. -/
def LinkAction.owned : Pump → LinkAction β → Bool
  | .pull, .pullStep | .pull, .pullReturn _ | .pull, .pullWake _ | .pull, .pullResume => true
  | .push, .pushStep | .push, .pushReturn _ | .push, .pushWake _ | .push, .pushResume => true
  | _, _ => false

/-- The pump gets its next read: from the channel, or from its socket. -/
def LinkAction.Arrives : Pump → LinkAction β → Prop
  | .pull, .pullReturn _ => True
  | .push, .pushWake _ => True
  | _, _ => False

/-- Something the pump waits for fails. -/
def LinkAction.IsFailure : LinkAction β → Prop
  | .pullWake ec => ec = true
  | .pushReturn result => result < 0
  | _ => False

/-! ## The rank of runPull -/

/-- How much `runPull` has to do before it reads again. -/
def PullPc.rank : PullPc β → ℕ
  | .unspawned | .spawned => 4
  | .loopTop => 3
  | .readCleared => 2
  | .entered => 1
  | .inRead => 0
  | .readDone _ => 11
  | .appended _ => 10
  | .readReturned => 9
  | .strCopied _ => 8
  | .lenCopied _ _ => 7
  | .writing _ _ => 6
  | .written _ => 5
  | .resumed _ => 4
  | .returned => 0

theorem PullPc.rank_le (pc : PullPc β) : pc.rank ≤ Pump.pull.bound := by
  cases pc <;> simp [rank, Pump.bound]

namespace Link

variable {link next : Link β}

theorem rank_pullStep {effect : Effect} (stepped : link.pullStep = some (next, effect)) :
    1 + next.conn.pull.rank ≤ link.conn.pull.rank := by
  unfold pullStep at stepped
  split at stepped <;> try split at stepped
  all_goals cases stepped
  all_goals rename_i pc
  all_goals simp_all [setPull, setClient, handOver, PullPc.rank, outerRc]

/-! ## The rank of runPush -/

namespace PushView

/-- What is left of the chunk, as the test of the write loop counts it. -/
def left (view : PushView β) : ℕ := view.client.commandStrLen - view.client.writtenBytes

/-- How much `runPush` has to do before it reads again. A turn of the write loop is four
actions. -/
def rank (view : PushView β) : ℕ :=
  match view.push with
  | .unspawned | .spawned => 2
  | .loopTop => 1
  | .reading => 0
  | .readDone _ true => 2
  | .resumed _ true => 1
  | .readDone bytesTransferred false => 4 * bytesTransferred + 8
  | .resumed bytesTransferred false => 4 * bytesTransferred + 7
  | .sending _ len => 4 * len + 6
  | .strSet len => 4 * len + 5
  | .lenSet => 4 * view.client.commandStrLen + 4
  | .writeEntered => 4 * view.client.commandStrLen + 3
  | .writeLoopTop => 4 * view.left + 2
  | .inWrite => 4 * view.left + 1
  | .writeDone _ => 4 * view.left
  | .counted rc => if view.client.WritesAgain rc then 4 * view.left + 3 else 3
  | .sent _ => 2
  | .returned => 0

/-- A chunk is not empty and fits the read buffer, and a turn of the write loop has
something left to write. -/
def Sound (view : PushView β) : Prop :=
  match view.push with
  | .readDone n false | .resumed n false | .sending _ n | .strSet n =>
      0 < n ∧ n ≤ readBufferLength
  | .lenSet | .writeEntered =>
      0 < view.client.commandStrLen ∧ view.client.commandStrLen ≤ readBufferLength
  | .writeLoopTop | .inWrite | .writeDone _ =>
      0 < view.left ∧ view.client.commandStrLen ≤ readBufferLength
  | .counted _ => view.client.commandStrLen ≤ readBufferLength
  | _ => True

theorem rank_le {view : PushView β} (sound : view.Sound) : view.rank ≤ Pump.push.bound := by
  unfold Sound at sound
  unfold rank Pump.bound
  cases pc : view.push with
  | readDone n ec | resumed n ec =>
      cases ec <;> simp only [pc] at sound ⊢ <;> simp only [readBufferLength] at * <;> omega
  | counted rc =>
      simp only [pc, left, readBufferLength] at sound ⊢
      split <;> omega
  | _ =>
      simp only [pc, left, readBufferLength] at sound ⊢
      omega

end PushView

/-- **A statement of `runPush` brings it nearer to its next read.** -/
theorem rank_pushStep {effect : Effect} (sound : link.pushView.Sound)
    (stepped : link.pushStep = some (next, effect)) :
    1 + next.pushView.rank ≤ link.pushView.rank ∧ next.pushView.Sound := by
  cases pc : link.conn.push with
  | loopTop =>
      simp only [pushStep, pc, Option.some.injEq, Prod.mk.injEq] at stepped
      obtain ⟨rfl, -⟩ := stepped
      simp [PushView.Sound, PushView.rank, pushView, setPush, pc]
  | lenSet | sending bufferStr len | strSet len | writeEntered | writeLoopTop =>
      simp only [pushStep, pc, Option.some.injEq, Prod.mk.injEq] at stepped
      obtain ⟨rfl, -⟩ := stepped
      simp only [PushView.Sound, PushView.rank, PushView.left, pushView, setPush, setClient,
        pc] at sound ⊢
      omega
  | resumed n ec =>
      cases ec with
      | true =>
          simp only [pushStep, pc, if_true, Option.some.injEq, Prod.mk.injEq] at stepped
          obtain ⟨rfl, -⟩ := stepped
          simp [PushView.Sound, PushView.rank, pushView, setPush, pc]
      | false =>
          simp only [pushStep, pc, Bool.false_eq_true, if_false, Option.some.injEq,
            Prod.mk.injEq] at stepped
          obtain ⟨rfl, -⟩ := stepped
          simp only [PushView.Sound, PushView.rank, pushView, setPush, pc] at sound ⊢
          omega
  | writeDone result =>
      simp only [PushView.Sound, PushView.left, pushView, pc] at sound
      simp only [pushStep, pc] at stepped
      split at stepped
      next failed =>
        cases stepped
        simp only [PushView.Sound, PushView.rank, PushView.left, pushView, setPush, pc]
        exact ⟨by omega, trivial⟩
      next =>
        cases stepped
        refine ⟨?_, sound.2⟩
        show 1 + (if (link.client.countWritten (toInt result)).WritesAgain (toInt result)
          then _ else _) ≤ link.pushView.rank
        simp only [PushView.rank, PushView.left, pushView, pc]
        split
        next again =>
          -- the turn has sent a byte
          have sent := again.1
          simp only [setPush, setClient, ClientImpl.countWritten]
          omega
        next => omega
  | counted rc =>
      simp only [PushView.Sound, pushView, pc] at sound
      simp only [pushStep, pc, Option.some.injEq, Prod.mk.injEq] at stepped
      obtain ⟨rfl, -⟩ := stepped
      have before : link.pushView.rank =
          if link.client.WritesAgain rc then 4 * link.pushView.left + 3 else 3 := by
        simp only [PushView.rank, pushView, pc]
        rfl
      rw [before]
      split
      next again =>
        have more : 0 < link.pushView.left := Nat.sub_pos_of_lt again.2
        exact ⟨Nat.le_of_eq (Nat.add_comm _ _), more, sound⟩
      next => exact ⟨Nat.le_refl _, trivial⟩
  | sent rc =>
      simp only [pushStep, pc] at stepped
      split at stepped <;> cases stepped <;>
        simp [PushView.Sound, PushView.rank, pushView, setPush, pc]
  | _ => simp [pushStep, pc] at stepped

/-! ## Both pumps -/

/-- How much a pump has to do before it reads again. -/
def rank (pump : Pump) (link : Link β) : ℕ :=
  match pump with
  | .pull => link.conn.pull.rank
  | .push => link.pushView.rank

/-- The pump has not been spawned, waits for its next read, or has returned. -/
def Rests (pump : Pump) (link : Link β) : Prop :=
  match pump with
  | .pull => link.conn.pull = .unspawned ∨ link.conn.pull = .inRead ∨ link.conn.pull = .returned
  | .push => link.conn.push = .unspawned ∨ link.conn.push = .reading ∨ link.conn.push = .returned

theorem rank_le (pump : Pump) (sound : link.pushView.Sound) : link.rank pump ≤ pump.bound := by
  cases pump with
  | pull => exact link.conn.pull.rank_le
  | push => exact PushView.rank_le sound

theorem sound_act {action : LinkAction β} (sound : link.pushView.Sound)
    (acted : link.act action = some next) : next.pushView.Sound := by
  cases action with
  | pullStep =>
      obtain ⟨⟨after, effect⟩, stepped, rfl⟩ := Option.map_eq_some_iff.mp acted
      exact pullStep_pushView stepped ▸ sound
  | pullReturn result => exact pullReturn_pushView acted ▸ sound
  | pullWake ec => exact pullWake_pushView acted ▸ sound
  | pullResume => exact pullResume_pushView acted ▸ sound
  | pushStep =>
      obtain ⟨⟨after, effect⟩, stepped, rfl⟩ := Option.map_eq_some_iff.mp acted
      exact (rank_pushStep sound stepped).2
  | pushReturn result =>
      simp only [act, pushReturn] at acted
      split at acted
      next pc =>
        obtain ⟨-, same⟩ := Option.ite_none_right_eq_some.mp acted
        cases same
        simpa only [PushView.Sound, PushView.left, pushView, setPush, pc] using sound
      next => cases acted
  | pushWake completion =>
      simp only [act, pushWake] at acted
      split at acted <;> try split at acted
      all_goals cases acted
      next read => exact ⟨List.length_pos_iff.mpr read.nonempty, read.fits⟩
      next => trivial
  | pushResume =>
      simp only [act, pushResume] at acted
      split at acted
      next => cases acted; trivial
      next n ec pc =>
        cases acted
        cases ec with
        | true => trivial
        | false => simpa only [PushView.Sound, pushView, setPush, pc] using sound
      next => cases acted

/-- **Whatever a pump does but read brings it nearer to its next read**, and the other pump
does nothing to it. -/
theorem rank_act (pump : Pump) {action : LinkAction β} (sound : link.pushView.Sound)
    (quiet : ¬ action.Arrives pump) (acted : link.act action = some next) :
    (if action.owned pump = true then 1 else 0) + next.rank pump ≤ link.rank pump := by
  have apart : ∀ {n m : ℕ}, n = m → 0 + n ≤ m := fun same => by omega
  cases pump with
  | pull =>
      have spared : next.pullView = link.pullView → 0 + next.rank .pull ≤ link.rank .pull :=
        fun same => apart (congrArg (fun view => view.pull.rank) same)
      cases action with
      | pullStep =>
          obtain ⟨⟨after, effect⟩, stepped, rfl⟩ := Option.map_eq_some_iff.mp acted
          exact rank_pullStep stepped
      | pullReturn result => exact absurd trivial quiet
      | pullWake ec | pullResume =>
          simp only [act, pullWake, pullResume] at acted
          split at acted <;> cases acted
          all_goals simp_all [rank, PullPc.rank, setPull, LinkAction.owned]
      | pushStep =>
          obtain ⟨⟨after, effect⟩, stepped, rfl⟩ := Option.map_eq_some_iff.mp acted
          exact spared (pushStep_pullView stepped)
      | pushReturn result => exact spared (pushReturn_pullView acted)
      | pushWake completion => exact spared (pushWake_pullView acted)
      | pushResume => exact spared (pushResume_pullView acted)
  | push =>
      have spared : next.pushView = link.pushView → 0 + next.rank .push ≤ link.rank .push :=
        fun same => apart (congrArg PushView.rank same)
      cases action with
      | pullStep =>
          obtain ⟨⟨after, effect⟩, stepped, rfl⟩ := Option.map_eq_some_iff.mp acted
          exact spared (pullStep_pushView stepped)
      | pullReturn result => exact spared (pullReturn_pushView acted)
      | pullWake ec => exact spared (pullWake_pushView acted)
      | pullResume => exact spared (pullResume_pushView acted)
      | pushStep =>
          obtain ⟨⟨after, effect⟩, stepped, rfl⟩ := Option.map_eq_some_iff.mp acted
          exact (rank_pushStep sound stepped).1
      | pushReturn result =>
          simp only [act, pushReturn] at acted
          split at acted
          next pc =>
            obtain ⟨-, same⟩ := Option.ite_none_right_eq_some.mp acted
            cases same
            simp only [rank, PushView.rank, PushView.left, pushView, setPush, pc,
              LinkAction.owned, if_true]
            omega
          next => cases acted
      | pushWake completion => exact absurd trivial quiet
      | pushResume =>
          simp only [act, pushResume] at acted
          split at acted
          next pc =>
            cases acted
            simp [rank, PushView.rank, pushView, setPush, pc, LinkAction.owned]
          next n ec pc =>
            cases acted
            cases ec <;> simp only [rank, PushView.rank, pushView, setPush, pc,
              LinkAction.owned, if_true] <;> omega
          next => cases acted

/-- **A pump is never stuck**: what it does next depends on nobody else. -/
theorem exists_act (pump : Pump) (sound : link.pushView.Sound) (busy : ¬ link.Rests pump) :
    ∃ action : LinkAction β, action.owned pump = true ∧ ¬ action.Arrives pump ∧
      ¬ action.IsFailure ∧ (link.act action).isSome := by
  cases pump with
  | pull =>
      cases pc : link.conn.pull with
      | unspawned | inRead | returned => exact absurd (by simp [Rests, pc]) busy
      | spawned | written ec =>
          exact ⟨.pullResume, rfl, id, id, by simp [act, pullResume, pc]⟩
      | writing bufferStr len =>
          exact ⟨.pullWake false, rfl, id, Bool.false_ne_true, by simp [act, pullWake, pc]⟩
      | readDone result =>
          exact ⟨.pullStep, rfl, id, id, by simp only [act, pullStep, pc]; split <;> rfl⟩
      | lenCopied bufferStr len =>
          exact ⟨.pullStep, rfl, id, id, by simp only [act, pullStep, pc]; split <;> rfl⟩
      | resumed ec => cases ec <;> exact ⟨.pullStep, rfl, id, id, by simp [act, pullStep, pc]⟩
      | _ => exact ⟨.pullStep, rfl, id, id, by simp [act, pullStep, pc]⟩
  | push =>
      cases pc : link.conn.push with
      | unspawned | reading | returned => exact absurd (by simp [Rests, pc]) busy
      | spawned | readDone n ec =>
          exact ⟨.pushResume, rfl, id, id, by simp [act, pushResume, pc]⟩
      | inWrite =>
          have room : (1 : Int) ≤ link.client.commandStrLen := by
            simp only [PushView.Sound, PushView.left, pushView, pc] at sound
            omega
          exact ⟨.pushReturn 1, rfl, id, by simp [LinkAction.IsFailure],
            by simp [act, pushReturn, pc, room]⟩
      | writeDone result =>
          exact ⟨.pushStep, rfl, id, id, by simp only [act, pushStep, pc]; split <;> rfl⟩
      | resumed n ec => cases ec <;> exact ⟨.pushStep, rfl, id, id, by simp [act, pushStep, pc]⟩
      | sent rc =>
          exact ⟨.pushStep, rfl, id, id, by simp only [act, pushStep, pc]; split <;> rfl⟩
      | _ => exact ⟨.pushStep, rfl, id, id, by simp [act, pushStep, pc]⟩

/-- The core of a link has as much to do as the link. -/
theorem rank_core (pump : Pump) (link : Link β) : link.core.rank pump = link.rank pump := by
  cases pump with
  | pull =>
      show link.conn.pull.up.rank = link.conn.pull.rank
      cases link.conn.pull <;> rfl
  | push =>
      simp only [rank, PushView.rank, pushView, core, ConnectionImpl.core]
      cases link.conn.push <;> rfl

theorem sound_core (link : Link β) : link.core.pushView.Sound ↔ link.pushView.Sound := by
  simp only [PushView.Sound, pushView, core, ConnectionImpl.core]
  cases link.conn.push <;> exact Iff.rfl

end Link

/-! ## Runs of the server -/

namespace Server

variable {T : ℕ} {mode : SpawnMode} {clientState : ClientState} {s t : Server T} {i : ℕ}
  {link : Link TaggedByte}

/-- What becomes of a link in a run of the server is what becomes of its core when it takes
the actions that are seen of it. -/
theorem core_exec (client : ClientImpl TaggedByte) {later : List (ServerAction T)}
    (reached : (serverMachine T mode clientState).Reachable s) (linked : s.link i = some link)
    (run : (serverMachine T mode clientState).exec s later = some t) :
    ∃ after, t.link i = some after ∧ (linkMachine client 0).exec link.core
      ((serverMachine T mode clientState).trace (observeAt mode i) s later) = some after.core := by
  induction later generalizing s link with
  | nil =>
      rw [Machine.exec_nil, Option.some.injEq] at run
      subst run
      exact ⟨link, linked, rfl⟩
  | cons action later ih =>
      rw [Machine.exec_cons, Option.bind_eq_some_iff] at run
      obtain ⟨next, stepped, rest⟩ := run
      have follows := link_follows (inPlace reached) (step_moves stepped).2 i
      rw [linked] at follows
      have ends : ∀ {middle : Link TaggedByte}, next.link i = some middle → _ :=
        fun linked => ih (reached.step stepped) linked rest
      simp only [Machine.trace, stepped, Option.elim_some]
      generalize s.observeAt mode i action = event at follows
      generalize there : next.link i = now at follows
      cases follows with
      | acts acted =>
          obtain ⟨after, linkedAfter, run⟩ := ends there
          refine ⟨after, linkedAfter, ?_⟩
          rw [Option.toList_some, List.singleton_append, Machine.exec_cons]
          exact Option.bind_eq_some_iff.mpr ⟨_, acted, run⟩
      | rests same =>
          obtain ⟨middle, rfl, core⟩ := Option.map_eq_some_iff.mp same
          obtain ⟨after, linkedAfter, run⟩ := ends there
          exact ⟨after, linkedAfter, core ▸ run⟩

/-- The chunk of every reachable link is sound. -/
theorem sound_of_reachable (reached : (serverMachine T mode clientState).Reachable s)
    (linked : s.link i = some link) : link.pushView.Sound := by
  obtain ⟨actions, run⟩ := reached
  have alone := alone_exec run i
  rw [linked] at alone
  obtain ⟨client, own⟩ := alone
  rw [← Link.sound_core]
  have initial : (Link.fresh client 0).pushView.Sound := trivial
  exact Machine.exec_invariant (M := linkMachine client 0) (I := fun link => link.pushView.Sound)
    (fun _ _ _ sound acted => Link.sound_act sound acted) initial own

end Server

/-- **Nothing stays in a pump of the tunnel.** Between two of its reads `runPull` does at most
11 things and `runPush` at most 6008, whatever else the server does meanwhile, and as long
as a pump is not back at a read and has not returned it can do the next one without
anybody else. -/
theorem tunnel_delivers {T : ℕ} (mode : SpawnMode) (clientState : ClientState) {s t : Server T}
    {later : List (ServerAction T)} {i : ℕ} {link : Link TaggedByte} (pump : Pump)
    (reached : (serverMachine T mode clientState).Reachable s) (linked : s.link i = some link)
    (run : (serverMachine T mode clientState).exec s later = some t)
    (quiet : ∀ action ∈ (serverMachine T mode clientState).trace (Server.observeAt mode i) s later,
      ¬ action.Arrives pump) :
    ((serverMachine T mode clientState).trace (Server.observeAt mode i) s later).countP
        (LinkAction.owned pump) ≤ pump.bound ∧
      ∃ after, t.link i = some after ∧
        (after.Rests pump ∨ ∃ action : LinkAction TaggedByte, action.owned pump = true ∧
          ¬ action.Arrives pump ∧ ¬ action.IsFailure ∧ (after.act action).isSome) := by
  obtain ⟨after, linkedAfter, own⟩ := Server.core_exec {} reached linked run
  have sound := Server.sound_of_reachable reached linked
  have soundAfter := Server.sound_of_reachable (reached.exec run) linkedAfter
  constructor
  · have ranked := Machine.exec_rank (M := linkMachine ({} : ClientImpl TaggedByte) 0)
      (I := fun link => link.pushView.Sound) (LinkAction.owned pump) (Link.rank pump)
      (fun _ _ _ sound acted => Link.sound_act sound acted)
      (fun _ _ _ sound quiet acted => Link.rank_act pump sound quiet acted)
      ((Link.sound_core link).mpr sound) quiet own
    have start := Link.rank_le pump sound
    rw [Link.rank_core, Link.rank_core] at ranked
    omega
  · refine ⟨after, linkedAfter, ?_⟩
    by_cases rests : after.Rests pump
    · exact .inl rests
    · exact .inr (Link.exists_act pump soundAfter rests)

/-- The client takes the byte, and `runPull` begins its next read. -/
def takesByte : List (ServerAction 1) :=
  [.localWritten 0 false, .resume onlyThread (.pull 0), .run onlyThread, .run onlyThread]

theorem tunnel_delivers_takesByte :
    ∃ s t, (serverMachine 1 .posted {}).exec (serverMachine 1 .posted {}).init pullThrough =
        some s ∧ (serverMachine 1 .posted {}).exec s takesByte = some t ∧
      ((serverMachine 1 .posted {}).trace (Server.observeAt .posted 0) s takesByte).countP
        (LinkAction.owned .pull) ≤ Pump.pull.bound ∧
      ∃ after, t.link 0 = some after ∧
        (after.Rests .pull ∨ ∃ action : LinkAction TaggedByte, action.owned .pull = true ∧
          ¬ action.Arrives .pull ∧ ¬ action.IsFailure ∧ (after.act action).isSome) := by
  refine ⟨_, _, rfl, rfl, tunnel_delivers .posted {} .pull ⟨pullThrough, rfl⟩ rfl rfl ?_⟩
  intro action (inside : action ∈ [.pullWake false, .pullResume, .pullStep, .pullStep])
  simp only [List.mem_cons, List.not_mem_nil, or_false] at inside
  rcases inside with rfl | rfl | rfl | rfl <;> exact id

end BookFilerSsh
