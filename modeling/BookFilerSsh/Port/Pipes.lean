import BookFilerSsh.Lib.Pipe
import BookFilerSsh.Lib.Refinement
import BookFilerSsh.Port.Relay
import BookFilerSsh.Port.Server
import BookFilerSsh.Port.Writes

/-!
# The forwarding server as a family of pipes

What a forwarding server is for: every client has two pipes of its own, one in each
direction, that take a chunk from one socket and give it to the other one before they
take the next. The pipe that takes from a socket first gives the 512 zero bytes to that
same socket.

An observer of the server sees a connection being published, the chunks that are read,
the bytes that are written and the errors. What is seen in any run of the server is a
run of a family of such pairs of pipes, and the bytes that have been read from and
written to every socket are those of its pipes (`server_refines`). So no order of the
steps lets one direction, or one client, show in another, each direction keeps the
order of its bytes, and it is never more than one chunk behind (`server_conserves`).
-/

set_option autoImplicit false

namespace BookFilerSsh.Port

open Lib

variable {β : Type}

/-! ## Two pipes -/

/-- The pipes of a connection, each named by the side it takes from, with the bytes
taken from and sent to each socket. -/
structure Duplex (β : Type) where
  pipe : Side → Pipe β
  taken : Side → List β
  sent : Side → List β

/-- Something happens to the pipe that takes from one side. Its preamble goes to the
socket of this side, what it passes on to the other one. -/
noncomputable def Duplex.act (duplex : Duplex β) (event : Side × PipeEvent β) :
    Option (Duplex β) :=
  ((duplex.pipe event.1).act readBufferLength event.2).map fun pipe =>
    { pipe := Function.update duplex.pipe event.1 pipe
      taken := Function.update duplex.taken event.1 (duplex.taken event.1 ++ event.2.taken)
      sent := fun socket =>
        duplex.sent socket ++ if socket = event.1 then event.2.greeted else event.2.given }

/-- A new pair of pipes. -/
noncomputable def duplexMachine (zero : β) : Machine (Duplex β) (Side × PipeEvent β) where
  init :=
    { pipe := fun _ => { ahead := startUpBuffer zero, inside := [], broken := false }
      taken := fun _ => []
      sent := fun _ => [] }
  step := Duplex.act

/-- What happens to the pipe that takes from one side. -/
def sideEvents (side : Side) (events : List (Side × PipeEvent β)) : List (PipeEvent β) :=
  events.filterMap fun event => if event.1 = side then some event.2 else none

section DuplexRuns

variable {zero : β} {events : List (Side × PipeEvent β)} {duplex : Duplex β}

/-- **Each pipe of a pair runs by itself.** -/
theorem duplex_pipe
    (run : (duplexMachine zero).exec (duplexMachine zero).init events = some duplex)
    (side : Side) :
    (pipeMachine readBufferLength (startUpBuffer zero)).exec
      (pipeMachine readBufferLength (startUpBuffer zero)).init (sideEvents side events) =
        some (duplex.pipe side) := by
  induction events using List.reverseRecOn generalizing duplex with
  | nil =>
      cases run
      rfl
  | append_singleton before event ih =>
      obtain ⟨middle, toMiddle, stepped⟩ := Machine.exec_concat_eq_some _ |>.mp run
      obtain ⟨pipe, moved, rfl⟩ := Option.map_eq_some_iff.mp stepped
      rw [sideEvents, List.filterMap_append]
      by_cases here : event.1 = side
      · subst here
        simp only [List.filterMap_cons, if_true, List.filterMap_nil, Function.update_self]
        exact Machine.exec_concat_eq_some _ |>.mpr ⟨_, ih toMiddle, moved⟩
      · simp only [List.filterMap_cons, if_neg here, List.filterMap_nil, List.append_nil,
          Function.update_of_ne (Ne.symm here)]
        exact ih toMiddle

/-- What has been taken from each socket. -/
theorem duplex_taken
    (run : (duplexMachine zero).exec (duplexMachine zero).init events = some duplex)
    (side : Side) : duplex.taken side = (sideEvents side events).flatMap PipeEvent.taken := by
  induction events using List.reverseRecOn generalizing duplex with
  | nil =>
      cases run
      rfl
  | append_singleton before event ih =>
      obtain ⟨middle, toMiddle, stepped⟩ := Machine.exec_concat_eq_some _ |>.mp run
      obtain ⟨pipe, moved, rfl⟩ := Option.map_eq_some_iff.mp stepped
      rw [sideEvents, List.filterMap_append, List.flatMap_append]
      by_cases here : event.1 = side
      · subst here
        simp only [List.filterMap_cons, if_true, List.filterMap_nil, Function.update_self,
          List.flatMap_singleton, ih toMiddle]
        rfl
      · simp only [List.filterMap_cons, if_neg here, List.filterMap_nil, List.flatMap_nil,
          List.append_nil, Function.update_of_ne (Ne.symm here)]
        exact ih toMiddle

/-- What has been sent to each socket. -/
theorem duplex_sent
    (run : (duplexMachine zero).exec (duplexMachine zero).init events = some duplex)
    (side : Side) : duplex.sent side =
      events.flatMap fun event => if side = event.1 then event.2.greeted else event.2.given := by
  induction events using List.reverseRecOn generalizing duplex with
  | nil =>
      cases run
      rfl
  | append_singleton before event ih =>
      obtain ⟨middle, toMiddle, stepped⟩ := Machine.exec_concat_eq_some _ |>.mp run
      obtain ⟨pipe, moved, rfl⟩ := Option.map_eq_some_iff.mp stepped
      rw [List.flatMap_append, List.flatMap_singleton, ← ih toMiddle]

end DuplexRuns

/-! ## What is observed -/

/-- What an observer sees of an action of a pump. -/
def ConnectionImpl.observe (conn : ConnectionImpl β) :
    PumpAction β → Option (Side × PipeEvent β)
  | .reads side (.data bytes _ _) => some (side, .takes bytes)
  | .reads side .failed => some (side, .breaks)
  | .fails side => some (side, .breaks)
  | .writes side count =>
      match conn.pump side with
      | .greeting rest => some (side, .greets (rest.take count))
      | .writing block bytesTransferred done =>
          some (side, .gives (((conn.buffer block bytesTransferred).drop done).take count))
      | _ => none
  | .step _ | .resume _ => none

/-- What an observer sees of an action of the server. -/
def Server.observe (s : Server β) :
    ServerAction β → Option (Machine.FamilyEvent (Side × PipeEvent β))
  | .run =>
      match s.listener with
      | .accepted _ (some _) => some .opens
      | _ => none
  | .pump i action =>
      (s.connectionList[i]?.bind fun conn => conn.observe action).map (.within i)
  | _ => none

/-! ## A pump and its pipe -/

/-- An error has ended what the pump passes on. -/
def PumpPc.Over : PumpPc β → Prop
  | .greeted ec | .readDone _ ec | .written ec => ec = true
  | .returned => True
  | _ => False

namespace PumpView

/-- The zero bytes a pump has not written yet. -/
def ahead (zero : β) (view : PumpView β) : List β :=
  match view.pc with
  | .unspawned | .spawned | .starting => startUpBuffer zero
  | .greeting rest => rest
  | _ => []

/-- The block a pump holds has all the bytes of its chunk. -/
def Whole (view : PumpView β) : Prop :=
  match view.pc with
  | .copied block bytesTransferred | .pushed block bytesTransferred
  | .writing block bytesTransferred _ =>
      (view.buffer block bytesTransferred).length = bytesTransferred
  | _ => True

/-- The pump does the work of the pipe. -/
structure Carries (zero : β) (view : PumpView β) (pipe : Pipe β) : Prop where
  over_broken : view.pc.Over → pipe.broken = true
  going : ¬ view.pc.Over → pipe = ⟨view.ahead zero, view.pending, false⟩
  whole : view.Whole
  filled : view.Filled
  owned : ∀ block, view.pc.block = some block → block < view.heap.length

variable {zero : β}

/-- What the other pump does to the heap does not show in the bytes a pump holds. -/
theorem buffer_of_same {view next : PumpView β} (same : Same view next) {block : ℕ}
    (holds : view.pc.block = some block) (owned : block < view.heap.length) (size : ℕ) :
    next.buffer block size = view.buffer block size := by
  rw [PumpView.buffer, PumpView.buffer, same.data block holds owned]

/-- **A step of the other pump leaves the pipe alone.** -/
theorem Carries.same {view next : PumpView β} {pipe : Pipe β} (carries : view.Carries zero pipe)
    (same : Same view next) : next.Carries zero pipe := by
  obtain ⟨over_broken, going, whole, filled, owned⟩ := carries
  have buffer : ∀ block size, view.pc.block = some block →
      next.buffer block size = view.buffer block size := by
    intro block size holds
    exact buffer_of_same same holds (owned block holds) size
  have pending : next.pending = view.pending := by
    simp only [PumpView.pending, same.pc, same.readBuffer]
    cases pc : view.pc with
    | copied block n | pushed block n => exact buffer block n (by rw [pc]; rfl)
    | writing block n done => simp only [buffer block n (by rw [pc]; rfl)]
    | _ => rfl
  constructor
  · rw [same.pc]
    exact over_broken
  · intro goes
    rw [same.pc] at goes
    rw [going goes, pending, ahead, ahead, same.pc]
  · simp only [Whole, same.pc] at whole ⊢
    cases pc : view.pc with
    | copied block n | pushed block n | writing block n done =>
        rw [pc] at whole
        simp only [buffer block n (by rw [pc]; rfl)]
        exact whole
    | _ => trivial
  · rw [Filled, same.pc, same.readBuffer]
    exact filled
  · intro block holds
    exact Nat.lt_of_lt_of_le (owned block (same.pc ▸ holds)) same.heap

end PumpView

namespace ConnectionImpl

variable {zero : β} {conn next : ConnectionImpl β} {action : PumpAction β} {pipe : Pipe β}

open PumpView

/-- A step that shows nothing leaves the pipe of its pump alone. -/
theorem carries_hidden (carries : (conn.view action.side).Carries zero pipe)
    (acted : conn.act zero action = some next) (hidden : conn.observe action = none) :
    (next.view action.side).Carries zero pipe := by
  obtain ⟨over_broken, going, whole, filled, owned⟩ := carries
  have here : ∀ side, (conn.view side).pc = conn.pump side := fun _ => rfl
  cases act_moves acted with
  | resumes pc | starts pc | enters pc | awaits pc | handles pc =>
      simp only [PumpAction.side, here, pc, PumpPc.Over, ahead, PumpView.pending,
        Bool.false_eq_true, not_false_eq_true, forall_const] at going ⊢
      subst going
      constructor
      · simp [PumpPc.Over]
      · simp [ahead, PumpView.pending]
      · simp [Whole]
      · simp [Filled]
      · simp [PumpPc.block]
  | receives pc =>
      simp only [PumpAction.side, here, pc, PumpPc.Over, ahead, PumpView.pending, Filled,
        Bool.false_eq_true, not_false_eq_true, forall_const] at going filled ⊢
      subst going
      constructor
      · simp [PumpPc.Over]
      · simp [ahead, PumpView.pending]
      · simp [Whole]
      · simpa [Filled] using filled
      · simp [PumpPc.block]
  | returns failed =>
      have broken : pipe.broken = true := by
        apply over_broken
        rw [PumpAction.side, here]
        revert failed
        cases conn.pump _ <;> simp [PumpPc.Failed, PumpPc.Over]
      rw [PumpAction.side, view_setPump]
      constructor
      · intro _
        exact broken
      · intro goes
        exact absurd trivial goes
      · trivial
      · trivial
      · simp [PumpPc.block]
  | allocates pc =>
      simp only [PumpAction.side, here, pc, PumpPc.Over, ahead, PumpView.pending, Whole, Filled,
        not_false_eq_true, forall_const] at going whole filled ⊢
      subst going
      rw [view_setPump, view_allocate]
      constructor
      · simp [PumpPc.Over]
      · simp [ahead, PumpView.pending]
      · simp [Whole]
      · simpa [Filled] using filled
      · simp [PumpPc.block, view]
  | @copies side block n pc =>
      simp only [PumpAction.side, here, pc, PumpPc.Over, ahead, PumpView.pending, Whole, Filled,
        not_false_eq_true, forall_const] at going whole filled owned ⊢
      have inside : block < conn.heap.length := by simpa [view] using owned block rfl
      have copied := buffer_copy inside filled
      subst going
      rw [view_setPump]
      constructor
      · simp [PumpPc.Over]
      · intro goes
        show (⟨[], (conn.readBuffer side).take n, false⟩ : Pipe β) =
          ⟨[], ((conn.copy side block n).view side).buffer block n, false⟩
        rw [view_buffer, copied]
      · show (((conn.copy side block n).view side).buffer block n).length = n
        rw [view_buffer, copied]
        exact List.length_take_of_le filled
      · simp [Filled]
      · intro other holds
        cases holds
        simpa using owned block rfl
  | @pushes side block n pc | @sends side block n pc =>
      simp only [PumpAction.side, here, pc, PumpPc.Over, ahead, PumpView.pending, Whole, Filled,
        not_false_eq_true, forall_const] at going whole filled owned ⊢
      subst going
      constructor
      · simp [PumpPc.Over]
      · simp [ahead, PumpView.pending, PumpView.buffer]
      · simpa [Whole, PumpView.buffer] using whole
      · simp [Filled]
      · simpa [PumpPc.block] using owned
  | reads _ | readFails _ | greetingFails _ | writingFails _ => cases hidden
  | greets pc _ | writes pc _ =>
      simp only [observe, pc] at hidden
      cases hidden

/-- Taking some bytes of a buffer takes at least one. -/
theorem take_ne_nil {bytes : List β} {count : ℕ} (progress : 0 < count ∧ count ≤ bytes.length) :
    bytes.take count ≠ [] := by
  intro empty
  have length := congrArg List.length empty
  rw [List.length_take_of_le progress.2, List.length_nil] at length
  omega

/-- **A step that shows something is a step of the pipe of its pump.** -/
theorem carries_shown (carries : (conn.view action.side).Carries zero pipe)
    (acted : conn.act zero action = some next) {event : Side × PipeEvent β}
    (shown : conn.observe action = some event) :
    event.1 = action.side ∧ ∃ after, pipe.act readBufferLength event.2 = some after ∧
      (next.view action.side).Carries zero after := by
  obtain ⟨over_broken, going, whole, filled, owned⟩ := carries
  have here : ∀ side, (conn.view side).pc = conn.pump side := fun _ => rfl
  cases act_moves acted with
  | @reads side bytes nonempty fits pc =>
      cases shown
      simp only [PumpAction.side, here, pc, PumpPc.Over, ahead, PumpView.pending,
        not_false_eq_true, forall_const] at going ⊢
      subst going
      refine ⟨trivial, _, Pipe.act_takes rfl rfl rfl nonempty fits, ?_⟩
      constructor
      · simp [PumpPc.Over]
      · simp [ahead, PumpView.pending]
      · simp [Whole]
      · simp [Filled]
      · simp [PumpPc.block]
  | readFails pc | greetingFails pc | writingFails pc =>
      cases shown
      simp only [PumpAction.side, here, pc, PumpPc.Over, ahead, PumpView.pending,
        not_false_eq_true, forall_const] at going ⊢
      subst going
      refine ⟨trivial, _, Pipe.act_breaks rfl, ?_⟩
      rw [view_setPump]
      constructor
      · simp
      · simp [PumpPc.Over]
      · simp [Whole]
      · simp [Filled]
      · simp [PumpPc.block]
  | @greets side count rest pc progress =>
      simp only [observe, pc, Option.some.injEq] at shown
      subst shown
      simp only [PumpAction.side, here, pc, PumpPc.Over, ahead, PumpView.pending,
        not_false_eq_true, forall_const] at going ⊢
      subst going
      refine ⟨trivial, _, Pipe.act_greets rfl (take_ne_nil progress) (List.take_prefix _ _), ?_⟩
      rw [view_setPump, view_arrive, List.length_take_of_le progress.2]
      split
      · next last =>
          constructor
          · simp [PumpPc.Over]
          · simp [ahead, PumpView.pending, last]
          · simp [Whole]
          · simp [Filled]
          · simp [PumpPc.block]
      · constructor
        · simp [PumpPc.Over]
        · simp [ahead, PumpView.pending]
        · simp [Whole]
        · simp [Filled]
        · simp [PumpPc.block]
  | @writes side count block n done pc progress =>
      simp only [observe, pc, Option.some.injEq] at shown
      subst shown
      simp only [PumpAction.side, here, pc, PumpPc.Over, ahead, PumpView.pending, Whole,
        not_false_eq_true, forall_const, view_buffer] at going whole owned ⊢
      subst going
      have left : ((conn.buffer block n).drop done).length = n - done := by
        rw [List.length_drop, whole]
      have room : 0 < count ∧ count ≤ ((conn.buffer block n).drop done).length := by
        rw [left]
        omega
      refine ⟨trivial, _, Pipe.act_gives rfl (take_ne_nil room) (List.take_prefix _ _), ?_⟩
      rw [view_setPump, view_arrive, List.length_take_of_le room.2, List.drop_drop]
      split
      · next last =>
          have nothing : (conn.buffer block n).drop (done + count) = [] := by
            apply List.drop_eq_nil_of_le
            exact Nat.le_of_eq (whole.trans last.symm)
          rw [nothing]
          constructor
          · simp [PumpPc.Over]
          · simp [ahead, PumpView.pending]
          · simp [Whole]
          · simp [Filled]
          · simp [PumpPc.block]
      · constructor
        · simp [PumpPc.Over]
        · intro goes
          show (⟨[], (conn.buffer block n).drop (done + count), false⟩ : Pipe β) =
            ⟨[], ((conn.view side).buffer block n).drop (done + count), false⟩
          rw [view_buffer]
        · show ((conn.view side).buffer block n).length = n
          rw [view_buffer]
          exact whole
        · simp [Filled]
        · simpa [PumpPc.block] using owned
  | _ => cases shown

/-! ## The sockets -/

/-- A step that shows nothing leaves the sockets alone. -/
theorem socket_hidden (acted : conn.act zero action = some next)
    (hidden : conn.observe action = none) : next.socket = conn.socket := by
  cases act_moves acted with
  | reads _ | readFails _ | greetingFails _ | writingFails _ => cases hidden
  | greets pc _ | writes pc _ =>
      simp only [observe, pc] at hidden
      cases hidden
  | handles pc => exact socket_writeHandler _ _
  | _ => rfl

/-- What a step that shows something reads. -/
theorem read_shown (acted : conn.act zero action = some next) {event : Side × PipeEvent β}
    (shown : conn.observe action = some event) (socket : Side) :
    (next.socket socket).read =
      Function.update (fun side => (conn.socket side).read) event.1
        ((conn.socket event.1).read ++ event.2.taken) socket := by
  cases act_moves acted with
  | @reads side bytes =>
      cases shown
      by_cases here : socket = side
      · subst here
        simp [fill, setSocket, PipeEvent.taken]
      · simp [fill, setSocket, here]
  | readFails _ | greetingFails _ | writingFails _ =>
      cases shown
      simp [PipeEvent.taken]
  | @greets side count rest pc | @writes side count block n done pc =>
      simp only [observe, pc, Option.some.injEq] at shown
      subst shown
      simp only [PipeEvent.taken, List.append_nil, Function.update_eq_self]
      exact congrArg PumpView.read (view_arrive _ _ socket _)
  | _ => cases shown

/-- What a step that shows something writes. -/
theorem written_shown (acted : conn.act zero action = some next) {event : Side × PipeEvent β}
    (shown : conn.observe action = some event) (socket : Side) :
    (next.socket socket).written = (conn.socket socket).written ++
      if socket = event.1 then event.2.greeted else event.2.given := by
  cases act_moves acted with
  | reads pc =>
      cases shown
      simp [PipeEvent.greeted, PipeEvent.given]
  | readFails _ | greetingFails _ | writingFails _ =>
      cases shown
      simp [PipeEvent.greeted, PipeEvent.given]
  | @greets side count rest pc =>
      simp only [observe, pc, Option.some.injEq] at shown
      subst shown
      by_cases here : socket = side
      · subst here
        simp [PipeEvent.greeted]
      · rw [Side.eq_other here]
        simp [PipeEvent.given]
  | @writes side count block n done pc =>
      simp only [observe, pc, Option.some.injEq] at shown
      subst shown
      by_cases here : socket = side
      · subst here
        simpa [PipeEvent.greeted] using written_arrive_other conn socket.other _
      · rw [Side.eq_other here]
        simp [PipeEvent.given]
  | _ => cases shown

/-- Two pumps never hold the same block. -/
theorem apart_act
    (apart : ∀ side block, (conn.pump side.other).block = some block →
      (conn.pump side).block ≠ some block)
    (owned : ∀ side block, (conn.pump side).block = some block → block < conn.heap.length)
    (acted : conn.act zero action = some next) :
    ∀ side block, (next.pump side.other).block = some block →
      (next.pump side).block ≠ some block := by
  have new : ∀ block, (next.pump action.side).block = some block →
      (next.pump action.side.other).block ≠ some block := by
    intro block holds otherHolds
    rw [pump_act_other acted] at otherHolds
    rcases block_act acted holds with held | fresh
    · exact apart action.side block otherHolds held
    · exact Nat.ne_of_lt (owned _ block otherHolds) fresh
  refine Side.both action.side ?_ ?_
  · intro block otherHolds holds
    exact new block holds otherHolds
  · intro block holds
    rw [Side.other_other] at holds
    exact new block holds

/-! ## A connection and its pipes -/

/-- The connection does the work of two pipes. -/
structure Implements (zero : β) (conn : ConnectionImpl β) (duplex : Duplex β) : Prop where
  carries : ∀ side, (conn.view side).Carries zero (duplex.pipe side)
  apart : ∀ side block, (conn.pump side.other).block = some block →
    (conn.pump side).block ≠ some block
  taken : ∀ side, (conn.socket side).read = duplex.taken side
  sent : ∀ side, (conn.socket side).written = duplex.sent side

variable {duplex : Duplex β}

theorem Implements.owned (implements : conn.Implements zero duplex) :
    ∀ side block, (conn.pump side).block = some block → block < conn.heap.length := by
  intro side block holds
  have inside := (implements.carries side).owned block holds
  rwa [view, List.length_map] at inside

/-- A step that shows nothing leaves both pipes alone. -/
theorem Implements.hidden (implements : conn.Implements zero duplex)
    (acted : conn.act zero action = some next) (hidden : conn.observe action = none) :
    next.Implements zero duplex := by
  have sockets := socket_hidden acted hidden
  constructor
  · refine Side.both action.side ?_ ?_
    · exact carries_hidden (implements.carries action.side) acted hidden
    · exact (implements.carries action.side.other).same
        (same_act (implements.apart action.side) acted)
  · exact apart_act implements.apart implements.owned acted
  · rw [sockets]
    exact implements.taken
  · rw [sockets]
    exact implements.sent

/-- **A step that shows something is a step of the pipes.** -/
theorem Implements.shown (implements : conn.Implements zero duplex)
    (acted : conn.act zero action = some next) {event : Side × PipeEvent β}
    (shown : conn.observe action = some event) :
    ∃ after, duplex.act event = some after ∧ next.Implements zero after := by
  obtain ⟨side, pipe, moved, carries⟩ :=
    carries_shown (implements.carries action.side) acted shown
  have read := read_shown acted shown
  have written := written_shown acted shown
  rw [← side] at moved carries
  refine ⟨_, by rw [Duplex.act, moved, Option.map_some], ?_, ?_, ?_, ?_⟩
  · refine Side.both event.1 ?_ ?_
    · simpa using carries
    · have same := same_act (implements.apart action.side) acted
      rw [← side] at same
      simpa using (implements.carries event.1.other).same same
  · exact apart_act implements.apart implements.owned acted
  · intro socket
    rw [read socket]
    simp only [implements.taken]
  · intro socket
    rw [written socket, implements.sent socket]

/-- A new connection does the work of two new pipes. -/
theorem implements_new (sockets : ∀ side, (conn.socket side).read = [] ∧
    (conn.socket side).written = []) (unspawned : ∀ side, conn.pump side = .unspawned) :
    conn.Implements zero (duplexMachine zero).init := by
  constructor
  · intro side
    have pc : (conn.view side).pc = .unspawned := unspawned side
    constructor
    · simp [pc, PumpPc.Over]
    · simp [duplexMachine, ahead, PumpView.pending, pc]
    · simp [Whole, pc]
    · simp [Filled, pc]
    · simp [pc, PumpPc.block]
  · intro side block holds
    rw [unspawned] at holds
    cases holds
  · exact fun side => (sockets side).1
  · exact fun side => (sockets side).2

/-- Spawning a pump shows nothing. -/
theorem Implements.spawned (implements : conn.Implements zero duplex) {side : Side}
    (unspawned : conn.pump side = .unspawned) :
    (conn.setPump side .spawned).Implements zero duplex := by
  have pc : (conn.view side).pc = .unspawned := unspawned
  have now : (conn.setPump side .spawned).pump side = .spawned := Function.update_self ..
  constructor
  · refine Side.both side ?_ ?_
    · have goes := (implements.carries side).going
      simp only [pc, PumpPc.Over, ahead, PumpView.pending, not_false_eq_true,
        forall_const] at goes
      rw [goes, view_setPump]
      constructor
      · simp [PumpPc.Over]
      · simp [ahead, PumpView.pending]
      · simp [Whole]
      · simp [Filled]
      · simp [PumpPc.block]
    · rw [view_setPump_other]
      exact implements.carries side.other
  · refine Side.both side ?_ ?_
    · intro block _ holds
      rw [now] at holds
      cases holds
    · intro block holds
      rw [Side.other_other, now] at holds
      cases holds
  · exact implements.taken
  · exact implements.sent

/-- A connection gets its id. -/
theorem Implements.named (implements : conn.Implements zero duplex) (connId : UInt32) :
    ({ conn with connId := some connId } : ConnectionImpl β).Implements zero duplex :=
  ⟨implements.carries, implements.apart, implements.taken, implements.sent⟩

/-- A pump that is not spawned takes no step. -/
theorem unspawned_act (acted : conn.act zero action = some next) {side : Side}
    (unspawned : conn.pump side = .unspawned) : next.pump side = .unspawned := by
  by_cases own : side = action.side
  · subst own
    cases act_moves acted with
    | returns failed =>
        rw [PumpAction.side] at unspawned
        rw [unspawned] at failed
        cases failed
    | _ => simp_all [PumpAction.side]
  · have other := pump_act_other acted
    rw [← Side.eq_other own] at other
    exact other.trans unspawned

end ConnectionImpl

/-! ## The server and its pipes -/

namespace Server

variable {s next : Server β} {action : ServerAction β} {duplexes : List (Duplex β)} {zero : β}

/-- The accept loop has not spawned the pump of the connection yet. -/
def Awaits (s : Server β) (i : ℕ) (side : Side) : Prop :=
  match s.listener with
  | .published j | .identified j => i = j
  | .runSpawned j => i = j ∧ side = .dest
  | _ => False

/-- The connections of the server do the work of pairs of pipes. -/
structure Implements (zero : β) (s : Server β) (duplexes : List (Duplex β)) : Prop where
  each : List.Forall₂ (fun conn duplex => conn.Implements zero duplex) s.connectionList duplexes
  fresh : ∀ i conn, s.connectionList[i]? = some conn →
    ∀ side, s.Awaits i side → conn.pump side = .unspawned

/-- The accept loop moves on and works on no connection. -/
theorem Implements.idles (implements : s.Implements zero duplexes)
    (same : next.connectionList = s.connectionList) (idle : ∀ i side, ¬ next.Awaits i side) :
    next.Implements zero duplexes :=
  ⟨same ▸ implements.each, fun i _ _ side awaits => absurd awaits (idle i side)⟩

/-- **A statement of the accept loop that publishes nothing leaves the pipes alone.** -/
theorem Implements.listenerStep_hidden (implements : s.Implements zero duplexes)
    (stepped : s.listenerStep = some next) (hidden : s.observe .run = none) :
    next.Implements zero duplexes := by
  have fresh := implements.fresh
  unfold Server.listenerStep at stepped
  split at stepped
  next => cases stepped; exact implements.idles rfl fun _ _ awaits => awaits
  next => cases stepped; exact implements.idles rfl fun _ _ awaits => awaits
  next => cases stepped; exact implements.idles rfl fun _ _ awaits => awaits
  next => cases stepped; exact implements.idles rfl fun _ _ awaits => awaits
  next => cases stepped; exact implements.idles rfl fun _ _ awaits => awaits
  next => cases stepped; exact implements.idles rfl fun _ _ awaits => awaits
  next dest src pc =>
    simp only [observe, pc] at hidden
    cases hidden
  next i pc =>
    cases stepped
    simp only [Awaits, pc] at fresh
    constructor
    · apply Tables.forall₂_modify_left implements.each
      intro conn duplex _ implemented
      exact implemented.named _
    · apply Tables.forall_modify fresh
      intro conn found
      exact fresh i conn found
  next i pc =>
    cases stepped
    simp only [Awaits, pc] at fresh
    constructor
    · apply Tables.forall₂_modify_left implements.each
      intro conn duplex found implemented
      exact implemented.spawned (fresh i conn found .src rfl)
    · apply Tables.forall_modify
      · intro j conn found side awaits
        exact fresh j conn found side awaits.1
      · rintro conn found side ⟨here, rfl⟩
        exact fresh i conn found .dest here
  next i pc =>
    cases stepped
    simp only [Awaits, pc] at fresh
    constructor
    · apply Tables.forall₂_modify_left implements.each
      intro conn duplex found implemented
      exact implemented.spawned (fresh i conn found .dest ⟨rfl, rfl⟩)
    · exact fun _ _ _ _ awaits => awaits.elim
  next => cases stepped

/-- What a publication does to the list. -/
theorem Implements.publish (implements : s.Implements zero duplexes) {dest src : ℕ} :
    ((s.publish src dest).setListener (.published s.connectionList.length)).Implements zero
      (duplexes ++ [(duplexMachine zero).init]) := by
  constructor
  · apply Tables.forall₂_concat implements.each
    apply ConnectionImpl.implements_new
    · intro side
      cases side <;> exact ⟨rfl, rfl⟩
    · exact fun _ => rfl
  · apply Tables.forall_concat
    · intro i conn found side awaits
      obtain ⟨inside, -⟩ := List.getElem?_eq_some_iff.mp found
      exact absurd awaits (Nat.ne_of_lt inside)
    · exact fun _ _ => rfl

/-- A step of a pump moves no other pump, and not the accept loop. -/
theorem fresh_pump {i : ℕ} {conn after : ConnectionImpl β} {event : PumpAction β}
    (implements : s.Implements zero duplexes) (here : s.connectionList[i]? = some conn)
    (acted : conn.act zero event = some after) :
    ∀ j other, (s.connectionList.set i after)[j]? = some other →
      ∀ side, s.Awaits j side → other.pump side = .unspawned := by
  apply Tables.forall_set implements.fresh
  intro side awaits
  exact ConnectionImpl.unspawned_act acted (implements.fresh i conn here side awaits)

/-- **A step that shows nothing leaves all pipes alone.** -/
theorem Implements.hidden (implements : s.Implements zero duplexes)
    (stepped : s.step zero action = some next) (hidden : s.observe action = none) :
    next.Implements zero duplexes := by
  cases action with
  | run => exact implements.listenerStep_hidden stepped hidden
  | bound ok =>
      simp only [Server.step] at stepped
      split at stepped <;> cases stepped
      cases ok <;> exact implements.idles rfl fun _ _ awaits => awaits
  | connectDone ec =>
      simp only [Server.step, Server.connectDone] at stepped
      split at stepped
      · split at stepped <;> cases stepped <;> exact implements.idles rfl fun _ _ awaits => awaits
      · cases stepped
  | acceptDone ec =>
      simp only [Server.step, Server.acceptDone] at stepped
      split at stepped
      · split at stepped <;> cases stepped <;> exact implements.idles rfl fun _ _ awaits => awaits
      · cases stepped
  | pump i event =>
      obtain ⟨conn, here, rest⟩ := Option.bind_eq_some_iff.mp stepped
      obtain ⟨after, acted, same⟩ := Option.bind_eq_some_iff.mp rest
      cases same
      have quiet : conn.observe event = none := by
        rw [observe, here, Option.bind_some, Option.map_eq_none_iff] at hidden
        exact hidden
      obtain ⟨duplex, there, implemented⟩ := Tables.forall₂_getElem? implements.each here
      constructor
      · apply Tables.forall₂_set_left implements.each
        intro other found
        rw [there, Option.some.injEq] at found
        exact found ▸ implemented.hidden acted quiet
      · exact fresh_pump implements here acted

/-- **A step that shows something is a step of the family.** -/
theorem Implements.shown (implements : s.Implements zero duplexes)
    (stepped : s.step zero action = some next) {event : Machine.FamilyEvent (Side × PipeEvent β)}
    (shown : s.observe action = some event) :
    ∃ after, (duplexMachine zero).family.step duplexes event = some after ∧
      next.Implements zero after := by
  cases action with
  | run =>
      simp only [observe] at shown
      split at shown
      next dest src pc =>
        cases shown
        simp only [Server.step, Server.listenerStep, pc, Option.some.injEq] at stepped
        subst stepped
        exact ⟨_, Machine.family_opens duplexes, implements.publish⟩
      next => cases shown
  | bound ok | connectDone ec | acceptDone ec => cases shown
  | pump i act =>
      obtain ⟨conn, here, rest⟩ := Option.bind_eq_some_iff.mp stepped
      obtain ⟨next, acted, same⟩ := Option.bind_eq_some_iff.mp rest
      cases same
      rw [observe, here, Option.bind_some, Option.map_eq_some_iff] at shown
      obtain ⟨inner, seen, rfl⟩ := shown
      obtain ⟨duplex, there, implemented⟩ := Tables.forall₂_getElem? implements.each here
      obtain ⟨after, moved, follows⟩ := implemented.shown acted seen
      refine ⟨_, Machine.family_within there moved, ?_, ?_⟩
      · exact Tables.forall₂_set implements.each i follows
      · exact fresh_pump implements here acted

end Server

/-! ## Runs -/

/-- The server follows a family of pairs of pipes. -/
theorem refines_family (zero : β) :
    Machine.Refines (serverMachine zero) (duplexMachine zero).family Server.observe
      (Server.Implements zero) where
  initial := ⟨.nil, fun _ _ found => by cases found⟩
  shows := fun _ _ _ _ _ _ implements stepped shown => implements.shown stepped shown
  hides := fun _ _ _ _ _ implements stepped hidden => implements.hidden stepped hidden

/-- What an observer sees of a run of the server. -/
def observed (zero : β) (actions : List (ServerAction β)) :
    List (Machine.FamilyEvent (Side × PipeEvent β)) :=
  (serverMachine zero).trace Server.observe (serverMachine zero).init actions

/-- **The forwarding server is a family of pairs of pipes.** What is observed of any run is a
run of the family, with a pair for every connection, and what was read from and written to
the sockets of a connection is what its pair took and sent. -/
theorem server_refines (zero : β) {actions : List (ServerAction β)} {s : Server β}
    (run : (serverMachine zero).exec (serverMachine zero).init actions = some s) :
    ∃ duplexes, (duplexMachine zero).family.exec (duplexMachine zero).family.init
        (observed zero actions) = some duplexes ∧
      List.Forall₂ (fun conn duplex => ∀ side, (conn.socket side).read = duplex.taken side ∧
        (conn.socket side).written = duplex.sent side) s.connectionList duplexes := by
  obtain ⟨duplexes, familyRun, implements⟩ := (refines_family zero).exec run
  refine ⟨duplexes, familyRun, implements.each.imp ?_⟩
  intro conn duplex implemented side
  exact ⟨implemented.taken side, implemented.sent side⟩

/-- A client is served. -/
def serveClient : List (ServerAction UInt8) :=
  [.run, .bound true, .run, .connectDone false, .run, .acceptDone false, .run, .run, .run, .run]

/-- The zero bytes go back to the client, and the chunk `7 8` it sends is passed on in two
parts. -/
def relayChunk : List (ServerAction UInt8) :=
  ([.resume .src, .step .src, .writes .src 512, .step .src, .step .src,
    .reads .src (.pair 7 8), .step .src, .step .src, .step .src, .step .src, .step .src,
    .writes .src 1, .writes .src 1, .step .src] :
      List (PumpAction UInt8)).map (.pump 0)

section Relayed

-- the start-up buffer has 512 elements
set_option maxRecDepth 8000

theorem server_refines_relayed :
    ∃ s, (serverMachine (0 : UInt8)).exec (serverMachine 0).init (serveClient ++ relayChunk) =
        some s ∧
      ∃ duplexes, (duplexMachine 0).family.exec (duplexMachine (0 : UInt8)).family.init
          (observed 0 (serveClient ++ relayChunk)) = some duplexes ∧
        List.Forall₂ (fun conn duplex => ∀ side, (conn.socket side).read = duplex.taken side ∧
          (conn.socket side).written = duplex.sent side) s.connectionList duplexes :=
  ⟨_, rfl, server_refines 0 rfl⟩

end Relayed

/-- The pump waits for a chunk. -/
def PumpPc.Waits : PumpPc β → Prop
  | .loopTop | .reading => True
  | _ => False

/-- What the events of a connection tell about the sockets and the pump of one side. -/
structure Conserves (zero : β) (conn : ConnectionImpl β) (events : List (Side × PipeEvent β))
    (side : Side) : Prop where
  /-- it passes on what it reads, in order, but for a part of the last chunk -/
  passed : ∃ inside, inside.length ≤ readBufferLength ∧
    (sideEvents side events).flatMap PipeEvent.given ++ inside = (conn.socket side).read
  /-- and all of it when it waits for the next one -/
  waits : (conn.pump side).Waits →
    (sideEvents side events).flatMap PipeEvent.given = (conn.socket side).read
  greets : (sideEvents side events).flatMap PipeEvent.greeted <+: startUpBuffer zero
  /-- it reads nothing before all zero bytes are written -/
  greetsFirst : (conn.socket side).read ≠ [] →
    (sideEvents side events).flatMap PipeEvent.greeted = startUpBuffer zero
  /-- nothing else is written -/
  written : (conn.socket side).written =
    events.flatMap fun event => if side = event.1 then event.2.greeted else event.2.given

/-- **Every client of the server is served in full and in order**, whatever the other clients
and the other direction do. -/
theorem server_conserves (zero : β) {actions : List (ServerAction β)} {s : Server β}
    (run : (serverMachine zero).exec (serverMachine zero).init actions = some s) {i : ℕ}
    {conn : ConnectionImpl β} (here : s.connectionList[i]? = some conn) (side : Side) :
    Conserves zero conn (Machine.eventsOf i (observed zero actions)) side := by
  obtain ⟨duplexes, familyRun, implements⟩ := (refines_family zero).exec run
  obtain ⟨duplex, there, implemented⟩ := Tables.forall₂_getElem? implements.each here
  have duplexRun := Machine.family_member familyRun there
  obtain ⟨greeted, passed, bounded, greetsFirst⟩ := Pipe.conserves (duplex_pipe duplexRun side)
  have taken := (duplex_taken duplexRun side).symm.trans (implemented.taken side).symm
  rw [observed]
  rw [taken] at passed greetsFirst
  constructor
  · exact ⟨_, bounded, passed⟩
  · intro waits
    have going : ¬ (conn.view side).pc.Over := by
      show ¬ (conn.pump side).Over
      cases pc : conn.pump side <;> simp_all [PumpPc.Waits, PumpPc.Over]
    have nothing : (duplex.pipe side).inside = [] := by
      rw [(implemented.carries side).going going]
      show (conn.view side).pending = []
      have same : (conn.view side).pc = conn.pump side := rfl
      cases pc : conn.pump side <;> simp_all [PumpPc.Waits, PumpView.pending]
    rwa [nothing, List.append_nil] at passed
  · exact ⟨_, greeted⟩
  · intro some_read
    rwa [greetsFirst some_read, List.append_nil] at greeted
  · rw [implemented.sent side, duplex_sent duplexRun side]

section Relayed

-- the start-up buffer has 512 elements
set_option maxRecDepth 8000

theorem server_conserves_relayed :
    ∃ s conn, (serverMachine (0 : UInt8)).exec (serverMachine 0).init
        (serveClient ++ relayChunk) = some s ∧ s.connectionList[0]? = some conn ∧
      Conserves 0 conn (Machine.eventsOf 0 (observed 0 (serveClient ++ relayChunk))) .src :=
  ⟨_, _, rfl, rfl, server_conserves 0 rfl rfl .src⟩

end Relayed

end BookFilerSsh.Port
