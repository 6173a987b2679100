import BookFilerSsh.Lib.Pool
import BookFilerSsh.Tunnel.Layout

/-!
# The coroutines of the tunnel server on its threads

The positions of the coroutines and the threads of the server are a pool of
coroutines in the sense of `Lib.Pool`: every step of the server is a step of the
pool or invisible in it (`Server.pool_step`). So the statuses the positions stand
for agree with the threads in every reachable state (`Server.coherent`), and since
only the accept loop starts coroutines, a pump that runs is on top of its thread
(`Server.on_top`).
-/

set_option autoImplicit false

namespace BookFilerSsh

open Lib.Pool Lib.Tables

/-! ## The status of a position -/

/-- Where the accept loop is in its life. -/
def ListenerPc.status : ListenerPc → Status
  | .spawned | .accepted _ => .ready
  | .accepting => .parked
  | .returned => .finished
  | _ => .running

/-- Where `runPull` is in its life. -/
def PullPc.status {β : Type} : PullPc β → Status
  | .unspawned => .absent
  | .spawned | .written _ => .ready
  | .writing _ _ => .parked
  | .returned => .finished
  | _ => .running

/-- Where `runPush` is in its life. -/
def PushPc.status {β : Type} : PushPc β → Status
  | .unspawned => .absent
  | .spawned | .readDone _ _ => .ready
  | .reading => .parked
  | .returned => .finished
  | _ => .running

/-- The status a coroutine takes when its step has the effect. -/
def Effect.status : Effect → Status
  | .stays | .spawns _ => .running
  | .parks => .parked
  | .finishes => .finished

namespace Link

variable {β : Type}

/-- A step of `runPull` is taken by a running coroutine and leaves it as its effect
says, without a look at `runPush`. -/
theorem pullStep_status {link next : Link β} {effect : Effect}
    (stepped : link.pullStep = some (next, effect)) :
    link.conn.pull.status = .running ∧ next.conn.pull.status = effect.status ∧
      (∀ coro, effect ≠ .spawns coro) ∧ next.conn.push = link.conn.push := by
  unfold pullStep at stepped
  split at stepped <;> try split at stepped
  all_goals cases stepped
  all_goals rename_i pc
  all_goals simp_all [PullPc.status, Effect.status, setPull, setClient, handOver, outerRc]

/-- A step of `runPush` is taken by a running coroutine and leaves it as its effect
says, without a look at `runPull`. -/
theorem pushStep_status {link next : Link β} {effect : Effect}
    (stepped : link.pushStep = some (next, effect)) :
    link.conn.push.status = .running ∧ next.conn.push.status = effect.status ∧
      (∀ coro, effect ≠ .spawns coro) ∧ next.conn.pull = link.conn.pull := by
  unfold pushStep at stepped
  split at stepped <;> try split at stepped
  all_goals cases stepped
  all_goals rename_i pc
  all_goals simp_all [PushPc.status, Effect.status, setPush, setClient]

theorem pullReturn_status {link next : Link β} {result : ReadResult β}
    (ended : link.pullReturn result = some next) :
    link.conn.pull.status = .running ∧ next.conn.pull.status = .running ∧
      next.conn.push = link.conn.push := by
  unfold pullReturn at ended
  split at ended <;> cases ended
  rename_i pc
  simp [pc, PullPc.status, setPull]

theorem pushReturn_status {link next : Link β} {result : Int}
    (ended : link.pushReturn result = some next) :
    link.conn.push.status = .running ∧ next.conn.push.status = .running ∧
      next.conn.pull = link.conn.pull := by
  unfold pushReturn at ended
  split at ended <;> try split at ended
  all_goals cases ended
  simp_all [PushPc.status, setPush]

theorem pullWake_status {link next : Link β} {ec : Bool} (woken : link.pullWake ec = some next) :
    link.conn.pull.status = .parked ∧ next.conn.pull.status = .ready ∧
      next.conn.push = link.conn.push := by
  unfold pullWake at woken
  split at woken <;> cases woken
  rename_i pc
  simp [pc, PullPc.status, setPull]

theorem pushWake_status {link next : Link β} {completion : SrcReadEnd β}
    (woken : link.pushWake completion = some next) :
    link.conn.push.status = .parked ∧ next.conn.push.status = .ready ∧
      next.conn.pull = link.conn.pull := by
  unfold pushWake at woken
  split at woken <;> try split at woken
  all_goals cases woken
  all_goals simp_all [PushPc.status, setPush, fillBuffer]

theorem pullResume_status {link next : Link β} (resumed : link.pullResume = some next) :
    link.conn.pull.status = .ready ∧ next.conn.pull.status = .running ∧
      next.conn.push = link.conn.push := by
  unfold pullResume at resumed
  split at resumed <;> cases resumed
  all_goals simp_all [PullPc.status, setPull]

theorem pushResume_status {link next : Link β} (resumed : link.pushResume = some next) :
    link.conn.push.status = .ready ∧ next.conn.push.status = .running ∧
      next.conn.pull = link.conn.pull := by
  unfold pushResume at resumed
  split at resumed <;> cases resumed
  all_goals simp_all [PushPc.status, setPush]

end Link

/-! ## The pool -/

namespace Server

variable {T : ℕ}

/-- The status of a coroutine of the server. -/
def status (s : Server T) : Coro → Status
  | .listener => s.listener.status
  | .pull i => s.connectionList[i]?.elim .absent fun conn => conn.pull.status
  | .push i => s.connectionList[i]?.elim .absent fun conn => conn.push.status

/-- The server as a pool of coroutines. -/
def pool (s : Server T) : State Coro T := ⟨s.status, s.threads⟩

theorem status_pull_of_link {s : Server T} {i : ℕ} {link : Link TaggedByte}
    (linked : s.link i = some link) : s.status (.pull i) = link.conn.pull.status := by
  simp [status, (link_eq_some linked).1]

theorem status_push_of_link {s : Server T} {i : ℕ} {link : Link TaggedByte}
    (linked : s.link i = some link) : s.status (.push i) = link.conn.push.status := by
  simp [status, (link_eq_some linked).1]

/-- A step of a pump changes the statuses of the pumps of this connection only. -/
theorem setLink_status {s : Server T} {i : ℕ} {link : Link TaggedByte}
    (linked : s.link i = some link) (next : Link TaggedByte) :
    (s.setLink i next).status =
      Function.update (Function.update s.status (.pull i) next.conn.pull.status) (.push i)
        next.conn.push.status := by
  obtain ⟨found, -⟩ := link_eq_some linked
  obtain ⟨inside, -⟩ := List.getElem?_eq_some_iff.mp found
  funext coro
  cases coro with
  | listener => rfl
  | pull j | push j =>
      by_cases here : j = i
      · subst here
        simp [status, setLink, onState, inside]
      · simp [status, setLink, onState, here, List.getElem?_set_ne (Ne.symm here)]

theorem setLink_status_pull {s : Server T} {i : ℕ} {link next : Link TaggedByte}
    (linked : s.link i = some link) (samePush : next.conn.push = link.conn.push) :
    (s.setLink i next).status = Function.update s.status (.pull i) next.conn.pull.status := by
  rw [setLink_status linked, Function.update_comm (by simp), samePush,
    ← status_push_of_link linked, Function.update_eq_self]

theorem setLink_status_push {s : Server T} {i : ℕ} {link next : Link TaggedByte}
    (linked : s.link i = some link) (samePull : next.conn.pull = link.conn.pull) :
    (s.setLink i next).status = Function.update s.status (.push i) next.conn.push.status := by
  rw [setLink_status linked, samePull, ← status_pull_of_link linked, Function.update_eq_self]

/-! ## Every step is a step of the pool -/

/-- The pool makes a step, or nothing shows in it. -/
def PoolMoves (s s' : Server T) : Prop := s'.pool = s.pool ∨ Step s.pool s'.pool

theorem stack_of_top {s : Server T} {t : Fin T} {coro : Coro}
    (top : (s.threads t).head? = some coro) : s.threads t = coro :: (s.threads t).tail := by
  cases stack : s.threads t with
  | nil => simp [stack] at top
  | cons k rest => simpa [stack] using top

/-- A statement of the coroutine on top, with an effect on its own thread only. -/
theorem poolMoves_runs {mode : SpawnMode} {s next : Server T} {t : Fin T} {coro : Coro}
    {effect : Effect} (top : (s.threads t).head? = some coro) (running : s.status coro = .running)
    (spawnsNone : ∀ k, effect ≠ .spawns k) (threads : next.threads = s.threads)
    (status : next.status = Function.update s.status coro effect.status) :
    PoolMoves s (next.applyEffect mode t effect) := by
  have stack := stack_of_top top
  cases effect with
  | stays =>
      left
      have same : next.status = s.status := by
        rw [status, Effect.status, ← running, Function.update_eq_self]
      simp only [pool, applyEffect, threads, same]
  | parks =>
      right
      have moved := Step.park (s := s.pool) (t := t) stack
      have after : (next.applyEffect mode t .parks).pool =
          (s.pool.setStatus coro .parked).setStack t (s.threads t).tail := by
        rw [← threads]
        simp only [pool, State.setStatus, State.setStack, ← threads]
        exact congrArg (State.mk · _) status
      rwa [after]
  | finishes =>
      right
      have moved := Step.finish (s := s.pool) (t := t) stack
      have after : (next.applyEffect mode t .finishes).pool =
          (s.pool.setStatus coro .finished).setStack t (s.threads t).tail := by
        rw [← threads]
        simp only [pool, State.setStatus, State.setStack, ← threads]
        exact congrArg (State.mk · _) status
      rwa [after]
  | spawns k => exact absurd rfl (spawnsNone k)

/-- A coroutine is taken up. -/
theorem poolMoves_resumes {s next : Server T} {t : Fin T} {coro : Coro} (idle : s.threads t = [])
    (ready : s.status coro = .ready) (threads : next.threads = s.threads)
    (status : next.status = Function.update s.status coro .running) :
    PoolMoves s (next.setStack t [coro]) := by
  right
  have moved := Step.resume (s := s.pool) (t := t) idle ready
  have after : (next.setStack t [coro]).pool =
      (s.pool.setStatus coro .running).setStack t [coro] := by
    simp only [pool, State.setStatus, State.setStack, ← threads]
    exact congrArg (State.mk · _) status
  rwa [after]

/-- The completion of a parked coroutine arrives. -/
theorem poolMoves_wakes {s next : Server T} (coro : Coro) (parked : s.status coro = .parked)
    (threads : next.threads = s.threads)
    (status : next.status = Function.update s.status coro .ready) : PoolMoves s next := by
  right
  have moved := Step.wake (s := s.pool) parked
  have after : next.pool = s.pool.setStatus coro .ready := by
    simp only [pool, State.setStatus, ← threads]
    exact congrArg (State.mk · _) status
  rwa [after]

/-- Nothing shows. -/
theorem poolMoves_hidden {s next : Server T} (threads : next.threads = s.threads)
    (status : next.status = s.status) : PoolMoves s next :=
  Or.inl (by rw [pool, pool, threads, status])

/-- The status of the accept loop is its own. -/
theorem setListener_status (s : Server T) (pc : ListenerPc) :
    (s.setListener pc).status = Function.update s.status .listener pc.status := by
  funext coro
  cases coro <;> simp [status, setListener]

/-- An assignment to a connection that leaves its pumps alone. -/
theorem setConn_status (s : Server T) (i : ℕ)
    {f : ConnectionImpl TaggedByte → ConnectionImpl TaggedByte}
    (pull : ∀ conn, (f conn).pull = conn.pull) (push : ∀ conn, (f conn).push = conn.push) :
    (s.onState (.setConn · i f)).status = s.status := by
  have keeps : ∀ (g : ConnectionImpl TaggedByte → Status), (∀ conn, g (f conn) = g conn) → ∀ j : ℕ,
      ((s.connectionList.modify i f)[j]?.elim .absent g) = s.connectionList[j]?.elim .absent g := by
    intro g same j
    rw [List.getElem?_modify]
    cases s.connectionList[j]? with
    | none => rfl
    | some conn => by_cases here : i = j <;> simp [here, same]
  funext coro
  cases coro with
  | listener => rfl
  | pull j => exact keeps (fun conn => conn.pull.status) (fun conn => by simp [pull]) j
  | push j => exact keeps (fun conn => conn.push.status) (fun conn => by simp [push]) j

theorem publish_status (s : Server T) : (s.onState .publish).status = s.status := by
  have keeps : ∀ (g : ConnectionImpl TaggedByte → Status), g {} = .absent → ∀ j : ℕ,
      (s.connectionList ++ [({} : ConnectionImpl TaggedByte)])[j]?.elim .absent g =
        s.connectionList[j]?.elim .absent g := by
    intro g absent j
    rcases Nat.lt_trichotomy j s.connectionList.length with inside | here | outside
    · rw [List.getElem?_append_left inside]
    · subst here
      simp [absent]
    · rw [List.getElem?_eq_none (by simp; omega), List.getElem?_eq_none (by omega)]
  funext coro
  cases coro with
  | listener => rfl
  | pull j => exact keeps (fun conn => conn.pull.status) rfl j
  | push j => exact keeps (fun conn => conn.push.status) rfl j

/-- An assignment to a connection changes the statuses of its pumps only. -/
theorem setConn_status_at {s : Server T} {i : ℕ} {conn : ConnectionImpl TaggedByte}
    (found : s.connectionList[i]? = some conn)
    (f : ConnectionImpl TaggedByte → ConnectionImpl TaggedByte) :
    (s.onState (.setConn · i f)).status =
      Function.update (Function.update s.status (.pull i) (f conn).pull.status) (.push i)
        (f conn).push.status := by
  funext coro
  cases coro with
  | listener => rfl
  | pull j | push j =>
      by_cases here : j = i
      · subst here
        simp [status, onState, ListenerState.setConn, found]
      · simp [status, onState, ListenerState.setConn, here, Ne.symm here]

theorem spawnPull_status {s : Server T} {mode : SpawnMode} {i : ℕ}
    (inside : i < s.connectionList.length) :
    (s.onState (.spawnPull · mode i)).status =
      Function.update s.status (.pull i) (Link.pullStart (β := TaggedByte) mode).status := by
  have found := List.getElem?_eq_getElem inside
  have same : s.status (.push i) = s.connectionList[i].push.status := by simp [status, inside]
  exact (setConn_status_at found _).trans (by
    rw [Function.update_comm (by simp), ← same, Function.update_eq_self])

theorem spawnPush_status {s : Server T} {mode : SpawnMode} {i : ℕ}
    (inside : i < s.connectionList.length) :
    (s.onState (.spawnPush · mode i)).status =
      Function.update s.status (.push i) (Link.pushStart (β := TaggedByte) mode).status := by
  have found := List.getElem?_eq_getElem inside
  have same : s.status (.pull i) = s.connectionList[i].pull.status := by simp [status, inside]
  exact (setConn_status_at found _).trans (by rw [← same, Function.update_eq_self])

/-- The connection of the running iteration, seen from its shape. -/
theorem status_of_last {s : Server T} {i : ℕ} {before : List Shape} {shape : Shape}
    (shapes : s.shapes = before ++ [shape]) (last : before.length = i) :
    i < s.connectionList.length ∧ (shape.pull = false → s.status (.pull i) = .absent) ∧
      (shape.push = false → s.status (.push i) = .absent) := by
  have found : s.shapes[i]? = some shape := by rw [shapes, ← last, List.getElem?_concat_length]
  rw [Server.shapes, List.getElem?_map, Option.map_eq_some_iff] at found
  obtain ⟨conn, foundConn, rfl⟩ := found
  refine ⟨(List.getElem?_eq_some_iff.mp foundConn).1, fun absent => ?_, fun absent => ?_⟩
  · simp only [status, foundConn, Option.elim_some]
    cases pc : conn.pull <;> simp_all [ConnectionImpl.shape, PullPc.isSpawned, PullPc.status]
  · simp only [status, foundConn, Option.elim_some]
    cases pc : conn.push <;> simp_all [ConnectionImpl.shape, PushPc.isSpawned, PushPc.status]

/-- A spawn queues a coroutine, or starts it above the accept loop. -/
theorem poolMoves_spawns {mode : SpawnMode} {s next : Server T} {t : Fin T} {coro : Coro}
    (top : (s.threads t).head? = some .listener) (absent : s.status coro = .absent)
    (threads : next.threads = s.threads)
    (status : next.status = Function.update s.status coro
      (match mode with | .inline => .running | .posted => .ready)) :
    PoolMoves s (next.applyEffect mode t (.spawns coro)) := by
  right
  have stack := stack_of_top top
  cases mode with
  | posted =>
      have moved := Step.post (s := s.pool) absent
      have after : (next.applyEffect .posted t (.spawns coro)).pool =
          s.pool.setStatus coro .ready := by
        simp only [pool, State.setStatus, ← threads]
        exact congrArg (State.mk · _) status
      rwa [after]
  | inline =>
      have moved := Step.nest (s := s.pool) (t := t) stack absent
      have after : (next.applyEffect .inline t (.spawns coro)).pool =
          (s.pool.setStatus coro .running).setStack t
            (coro :: .listener :: (s.threads t).tail) := by
        rw [← stack, ← threads]
        simp only [pool, State.setStatus, State.setStack, ← threads]
        exact congrArg (State.mk · _) status
      rwa [after]

theorem poolMoves_listenerStep {mode : SpawnMode} {s next : Server T} {t : Fin T}
    {effect : Effect} (laid : s.LaidOut) (top : (s.threads t).head? = some .listener)
    (stepped : s.listenerStep mode = some (next, effect)) :
    PoolMoves s (next.applyEffect mode t effect) := by
  have fits := laid.fits
  unfold listenerStep at stepped
  cases pc : s.listener with
  | unbound | loopTop | identified i =>
      simp only [pc, Option.some.injEq, Prod.mk.injEq] at stepped
      obtain ⟨rfl, rfl⟩ := stepped
      exact poolMoves_runs top (by simp [status, pc, ListenerPc.status]) (by simp) rfl
        (setListener_status _ _)
  | resumed ec =>
      simp only [pc] at stepped
      split at stepped <;> cases stepped
      · exact poolMoves_runs top (by simp [status, pc, ListenerPc.status]) (by simp) rfl
          (setListener_status _ _)
      · refine poolMoves_runs top (by simp [status, pc, ListenerPc.status]) (by simp) rfl ?_
        rw [setListener_status, publish_status]
        rfl
  | published i =>
      simp only [pc, Option.some.injEq, Prod.mk.injEq] at stepped
      obtain ⟨rfl, rfl⟩ := stepped
      refine poolMoves_runs top (by simp [status, pc, ListenerPc.status]) (by simp) rfl ?_
      rw [setListener_status]
      exact congrArg (Function.update · _ _)
        (setConn_status s i (fun conn => rfl) (fun conn => rfl))
  | tunnelled i c =>
      simp only [pc, Option.some.injEq, Prod.mk.injEq] at stepped
      obtain ⟨rfl, rfl⟩ := stepped
      refine poolMoves_runs top (by simp [status, pc, ListenerPc.status]) (by simp) rfl ?_
      rw [setListener_status]
      exact congrArg (Function.update · _ _)
        (setConn_status s i (fun conn => rfl) (fun conn => rfl))
  | clientSet i =>
      simp only [pc, Option.some.injEq, Prod.mk.injEq] at stepped fits
      obtain ⟨rfl, rfl⟩ := stepped
      obtain ⟨-, before, shapes, last⟩ := fits
      obtain ⟨inside, absent, -⟩ := status_of_last shapes last
      refine poolMoves_spawns top (absent rfl) rfl ?_
      have running : s.status .listener = (ListenerPc.pullSpawned i).status := by
        simp [status, pc, ListenerPc.status]
      rw [setListener_status, spawnPull_status inside, Function.update_comm (by simp), ← running,
        Function.update_eq_self]
      cases mode <;> rfl
  | pullSpawned i =>
      simp only [pc, Option.some.injEq, Prod.mk.injEq] at stepped fits
      obtain ⟨rfl, rfl⟩ := stepped
      obtain ⟨-, before, shapes, last⟩ := fits
      obtain ⟨inside, -, absent⟩ := status_of_last shapes last
      refine poolMoves_spawns top (absent rfl) rfl ?_
      have running : s.status .listener = ListenerPc.loopTop.status := by
        simp [status, pc, ListenerPc.status]
      rw [setListener_status, spawnPush_status inside, Function.update_comm (by simp), ← running,
        Function.update_eq_self]
      cases mode <;> rfl
  | _ => simp [pc] at stepped

theorem poolMoves_setUp {s s' : Server T} (moved : SetUpMoves s s') : PoolMoves s s' := by
  have calls : ∀ {pc : ListenerPc} {pair : ℕ × ℕ},
      pc.inSetUp = some pair → pc.status = .running := by
    intro pc pair inSetUp
    cases pc <;> simp_all [ListenerPc.inSetUp, ListenerPc.status]
  have stays : ∀ {next : Server T} {pc : ListenerPc}, s.listener.status = .running →
      pc.status = .running → next.status = s.status → next.threads = s.threads →
        PoolMoves s (next.setListener pc) := by
    intro next pc before after same threads
    refine poolMoves_hidden threads ?_
    have running : s.status .listener = pc.status := before.trans after.symm
    rw [setListener_status, same, ← running, Function.update_eq_self]
  cases moved with
  | binds here goes =>
      refine stays (by rw [here]; rfl) ?_ rfl rfl
      rcases goes with rfl | rfl <;> rfl
  | faults here found quiet => exact poolMoves_hidden rfl rfl
  | goesOn here there found quiet => exact stays (calls here) (calls there) rfl rfl
  | opens here found session => exact stays (by rw [here]; rfl) rfl rfl rfl
  | drops here found quiet => exact stays (by rw [here]; rfl) rfl rfl rfl

/-- **Every step of the server is a step of the pool**, or nothing of it shows
there. -/
theorem pool_step {mode : SpawnMode} {s s' : Server T} {action : ServerAction T}
    (laid : s.LaidOut) (stepped : s.step mode action = some s') : PoolMoves s s' := by
  obtain ⟨-, moved⟩ := step_moves stepped
  cases moved with
  | listenerRuns top ran => exact poolMoves_listenerStep laid top ran
  | pullRuns top linked ran =>
      obtain ⟨running, status, spawnsNone, samePush⟩ := Link.pullStep_status ran
      exact poolMoves_runs top ((status_pull_of_link linked).trans running) spawnsNone rfl
        (by rw [setLink_status_pull linked samePush, status])
  | pushRuns top linked ran =>
      obtain ⟨running, status, spawnsNone, samePull⟩ := Link.pushStep_status ran
      exact poolMoves_runs top ((status_push_of_link linked).trans running) spawnsNone rfl
        (by rw [setLink_status_push linked samePull, status])
  | listenerStarts idle pc =>
      exact poolMoves_resumes idle (by simp [status, pc, ListenerPc.status]) rfl
        (setListener_status _ _)
  | listenerResumes idle pc =>
      exact poolMoves_resumes idle (by simp [status, pc, ListenerPc.status]) rfl
        (setListener_status _ _)
  | pullResumes idle linked resumed =>
      obtain ⟨ready, running, samePush⟩ := Link.pullResume_status resumed
      exact poolMoves_resumes idle ((status_pull_of_link linked).trans ready) rfl
        (by rw [setLink_status_pull linked samePush, running])
  | pushResumes idle linked resumed =>
      obtain ⟨ready, running, samePull⟩ := Link.pushResume_status resumed
      exact poolMoves_resumes idle ((status_push_of_link linked).trans ready) rfl
        (by rw [setLink_status_push linked samePull, running])
  | setUpReturns top ended => exact poolMoves_setUp (listenerReturn_moves ended)
  | readReturns top linked named ended =>
      obtain ⟨before, after, samePush⟩ := Link.pullReturn_status ended
      refine poolMoves_hidden rfl ?_
      rw [setLink_status_pull linked samePush, after, ← before, ← status_pull_of_link linked,
        Function.update_eq_self]
  | writeReturns top linked ended =>
      obtain ⟨before, after, samePull⟩ := Link.pushReturn_status ended
      refine poolMoves_hidden rfl ?_
      rw [setLink_status_push linked samePull, after, ← before, ← status_push_of_link linked,
        Function.update_eq_self]
  | clientArrives =>
      refine poolMoves_hidden rfl (funext fun coro => ?_)
      cases coro <;> rfl
  | acceptFails pc =>
      exact poolMoves_wakes .listener (by simp [status, pc, ListenerPc.status]) rfl
        (setListener_status _ _)
  | accepts pc waiting =>
      refine poolMoves_wakes .listener (by simp [status, pc, ListenerPc.status]) rfl ?_
      have ready := setListener_status s (.accepted false)
      rw [show Status.ready = (ListenerPc.accepted false).status from rfl, ← ready]
      funext coro
      cases coro <;> rfl
  | readsLocal linked woken =>
      obtain ⟨parked, ready, samePull⟩ := Link.pushWake_status woken
      exact poolMoves_wakes (.push _) ((status_push_of_link linked).trans parked) rfl
        (by rw [setLink_status_push linked samePull, ready])
  | writesLocal linked woken =>
      obtain ⟨parked, ready, samePush⟩ := Link.pullWake_status woken
      exact poolMoves_wakes (.pull _) ((status_pull_of_link linked).trans parked) rfl
        (by rw [setLink_status_pull linked samePush, ready])

/-! ## What follows for the threads -/

/-- **Positions and threads agree in every reachable state.** -/
theorem coherent {mode : SpawnMode} {clientState : ClientState} {s : Server T}
    (reached : (serverMachine T mode clientState).Reachable s) : Coherent s.pool := by
  refine Lib.Machine.invariant_of_simulation pool Step Coherent ?_ ?_ ?_ reached
  · exact fun s action s' reachedS stepped => pool_step (layout reachedS) stepped
  · refine .idle (fun coro => ?_) fun t => rfl
    cases coro <;> simp [pool, status, serverMachine, ListenerPc.status]
  · exact fun _ _ => Coherent.step

/-- Only the accept loop is below another coroutine. -/
def OnlyListenerBelow (s : Server T) : Prop :=
  ∀ t, ∀ coro ∈ (s.threads t).tail, coro = .listener

theorem onlyListenerBelow_setStack {s next : Server T} (below : s.OnlyListenerBelow)
    (threads : next.threads = s.threads) {t : Fin T} {stack : List Coro}
    (tail : ∀ coro ∈ stack.tail, coro = .listener) : (next.setStack t stack).OnlyListenerBelow := by
  intro t' coro member
  by_cases here : t' = t
  · subst here
    simp only [Server.setStack, Function.update_self] at member
    exact tail coro member
  · simp only [Server.setStack, Function.update_of_ne here, threads] at member
    exact below t' coro member

theorem onlyListenerBelow_applyEffect {mode : SpawnMode} {s : Server T}
    (below : s.OnlyListenerBelow) (next : Server T) (threads : next.threads = s.threads)
    {t : Fin T} {coro : Coro} {effect : Effect} (top : (s.threads t).head? = some coro)
    (starter : ∀ k, effect = .spawns k → coro = .listener) :
    (next.applyEffect mode t effect).OnlyListenerBelow := by
  have popped : ∀ k ∈ (next.threads t).tail.tail, k = .listener := fun k member =>
    below t k (List.mem_of_mem_tail (threads ▸ member))
  have unchanged : next.OnlyListenerBelow := fun t' k member => below t' k (threads ▸ member)
  cases effect with
  | stays => exact unchanged
  | parks | finishes => exact onlyListenerBelow_setStack unchanged rfl popped
  | spawns k =>
      cases mode with
      | posted => exact unchanged
      | inline =>
          refine onlyListenerBelow_setStack unchanged rfl fun k' member => ?_
          rw [List.tail_cons, threads, stack_of_top top, List.mem_cons] at member
          exact member.elim (fun same => same.trans (starter k rfl)) (below t k')

theorem listenerStep_threads {mode : SpawnMode} {s next : Server T} {effect : Effect}
    (stepped : s.listenerStep mode = some (next, effect)) : next.threads = s.threads := by
  unfold listenerStep at stepped
  split at stepped <;> try split at stepped
  all_goals cases stepped
  all_goals rfl

theorem onlyListenerBelow_setUp {s s' : Server T} (below : s.OnlyListenerBelow)
    (moved : SetUpMoves s s') : s'.OnlyListenerBelow := by
  cases moved <;> exact below

theorem onlyListenerBelow_step {mode : SpawnMode} {s s' : Server T} {action : ServerAction T}
    (below : s.OnlyListenerBelow) (stepped : s.step mode action = some s') :
    s'.OnlyListenerBelow := by
  obtain ⟨-, moved⟩ := step_moves stepped
  cases moved with
  | listenerRuns top ran =>
      exact onlyListenerBelow_applyEffect below _ (listenerStep_threads ran) top fun _ _ => rfl
  | pullRuns top linked ran =>
      exact onlyListenerBelow_applyEffect below (s.setLink _ _) rfl top fun k same =>
        absurd same ((Link.pullStep_status ran).2.2.1 k)
  | pushRuns top linked ran =>
      exact onlyListenerBelow_applyEffect below (s.setLink _ _) rfl top fun k same =>
        absurd same ((Link.pushStep_status ran).2.2.1 k)
  | listenerStarts | listenerResumes | pullResumes | pushResumes =>
      exact onlyListenerBelow_setStack below rfl (by simp)
  | setUpReturns top ended => exact onlyListenerBelow_setUp below (listenerReturn_moves ended)
  | _ => exact below

theorem onlyListenerBelow {mode : SpawnMode} {clientState : ClientState} {s : Server T}
    (reached : (serverMachine T mode clientState).Reachable s) : s.OnlyListenerBelow :=
  (serverMachine T mode clientState).invariant (I := OnlyListenerBelow)
    (fun t coro member => by simp [serverMachine] at member)
    (fun _ _ _ below stepped => onlyListenerBelow_step below stepped) reached

/-- **A coroutine that runs is on top of a thread**, unless it is the accept loop. -/
theorem on_top {mode : SpawnMode} {clientState : ClientState} {s : Server T}
    (reached : (serverMachine T mode clientState).Reachable s) (coro : Coro)
    (running : s.status coro = .running) (pump : coro ≠ .listener) :
    ∃ t, (s.threads t).head? = some coro := by
  obtain ⟨t, member⟩ := ((coherent reached).running_iff coro).mp running
  refine ⟨t, ?_⟩
  cases stack : s.threads t with
  | nil => simp [pool, stack] at member
  | cons top rest =>
      simp only [pool, stack, List.mem_cons] at member
      rcases member with same | inRest
      · rw [same, List.head?_cons]
      · have isListener := onlyListenerBelow reached t coro (by simpa [stack] using inRest)
        exact absurd isListener pump

/-- No coroutine is on top of two threads. -/
theorem top_unique {mode : SpawnMode} {clientState : ClientState} {s : Server T}
    (reached : (serverMachine T mode clientState).Reachable s) {coro : Coro} {t t' : Fin T}
    (top : (s.threads t).head? = some coro) (top' : (s.threads t').head? = some coro) : t = t' :=
  (coherent reached).top_unique (stack_of_top top) (stack_of_top top')

end Server

end BookFilerSsh
