import BookFilerSsh.Lib.Custody
import BookFilerSsh.Port.Bookkeeping
import BookFilerSsh.Port.Writes

/-!
# The write queues of a forwarded connection

A pump allocates a block for each chunk it reads, pushes it to the write queue of the other
socket, writes it, and leaves it to the handler of that queue to pop and deallocate it. The
two pumps share one allocator, so an account of a block is right only if no block is in two
places at once: the connection is a system of two owners (`custody`), and each step of a
pump is a step of one of them or changes nothing in it (`custody_act`).

`run` and `run2` call the handler after an `async_write` without an error. After one with
an error they return at once, and the handlers never see the error they have a branch for.
The queues are exact throughout a run exactly when no pump returns in this way
(`queuesExact_throughout_iff`): the errors of a start-up write and of a read leave nothing
behind. A block that is left behind stays allocated (`abandoned`).
-/

set_option autoImplicit false

namespace BookFilerSsh.Port

open Lib Lib.Tables

variable {β : Type} {zero : β}

/-! ## Pushes and pops -/

/-- The entries a pump has pushed to its write queue and those that were popped from it. -/
structure QueueRecord where
  pushed : List (ℕ × ℕ) := []
  popped : List (ℕ × ℕ) := []

namespace QueueRecord

/-- What a step adds to the record of its pump. -/
def after (record : QueueRecord) (conn : ConnectionImpl β) (action : PumpAction β) : QueueRecord :=
  match action, conn.pump action.side with
  | .step _, .copied block size => { record with pushed := record.pushed ++ [(block, size)] }
  | .step side, .written false =>
      { record with popped := record.popped ++ (conn.writeQueue side.other).head?.toList }
  | _, _ => record

/-- The buffer whose write is outstanding: from the push of a chunk until its handler runs. -/
def outstanding (record : QueueRecord) : PumpPc β → List (ℕ × ℕ)
  | .pushed block size | .writing block size _ => [(block, size)]
  | .written _ => record.pushed.getLast?.toList
  | _ => []

end QueueRecord

/-- The runs of a connection, with a record of both queues. -/
def queueMachine (zero : β) : Machine (ConnectionImpl β × (Side → QueueRecord)) (PumpAction β) :=
  (pumpMachine zero).recording (fun _ => {}) fun conn action _ records =>
    Function.update records action.side ((records action.side).after conn action)

/-- The block was allocated with the size and deallocated once, with the size it has. -/
def ConnectionImpl.Freed (conn : ConnectionImpl β) (entry : ℕ × ℕ) : Prop :=
  ∃ record, conn.heap[entry.1]? = some record ∧ record.size = entry.2 ∧
    record.deallocated = [record.size]

/-- The write queue of the pump that reads from `side` holds exactly the buffer whose write
is outstanding. When the pump has returned its queue is empty, and every buffer it pushed
was popped and deallocated once. -/
structure QueueExact (conn : ConnectionImpl β) (side : Side) (record : QueueRecord) : Prop where
  queue : conn.writeQueue side.other = record.outstanding (conn.pump side)
  empty : conn.pump side = .returned → conn.writeQueue side.other = []
  popped : conn.pump side = .returned → record.popped = record.pushed
  distinct : conn.pump side = .returned → (record.pushed.map Prod.fst).Nodup
  freed : conn.pump side = .returned → ∀ entry ∈ record.pushed, conn.Freed entry

/-- Both queues are exact. -/
def QueuesExact (s : ConnectionImpl β × (Side → QueueRecord)) : Prop :=
  ∀ side, QueueExact s.1 side (s.2 side)

/-- A pump returns because the `async_write` of a chunk has ended with an error. -/
def ConnectionImpl.Abandons (conn : ConnectionImpl β) : PumpAction β → Prop
  | .step side => conn.pump side = .written true
  | _ => False

/-! ## What is in a queue -/

/-- What is in the queue of a pump at each of its positions. -/
def PumpPc.Queued (queue : List (ℕ × ℕ)) : PumpPc β → Prop
  | .pushed block size | .writing block size _ => queue = [(block, size)]
  | .written _ => ∃ entry, queue = [entry]
  | .returned => True
  | _ => queue = []

/-- The queues fit the positions of their pumps, and what was pushed was popped or is still
in the queue. -/
structure Queued (conn : ConnectionImpl β) (records : Side → QueueRecord) : Prop where
  fits : ∀ side, (conn.pump side).Queued (conn.writeQueue side.other)
  inOrder : ∀ side, (records side).pushed = (records side).popped ++ conn.writeQueue side.other

variable {conn next : ConnectionImpl β} {action : PumpAction β}

/-- A step of a pump and its own queue. -/
theorem PumpPc.Queued.act
    (fits : (conn.pump action.side).Queued (conn.writeQueue action.side.other))
    (acted : conn.act zero action = some next) :
    (next.pump action.side).Queued (next.writeQueue action.side.other) := by
  cases ConnectionImpl.act_moves acted with
  | returns failed => simp [PumpAction.side, ConnectionImpl.setPump, PumpPc.Queued]
  | @handles side pc =>
      simp only [PumpAction.side, pc, PumpPc.Queued] at fits
      obtain ⟨entry, queue⟩ := fits
      have left := ConnectionImpl.writeQueue_writeHandler queue false
      simpa [PumpAction.side, ConnectionImpl.setPump, PumpPc.Queued] using left
  | pushes pc =>
      simp only [PumpAction.side, pc, PumpPc.Queued] at fits
      simp [PumpAction.side, ConnectionImpl.setPump, PumpPc.Queued, ConnectionImpl.push, fits]
  | greets pc progress =>
      simp only [PumpAction.side, pc, PumpPc.Queued] at fits
      simp only [PumpAction.side, ConnectionImpl.setPump, Function.update_self]
      split <;> exact fits
  | writes pc progress =>
      simp only [PumpAction.side, pc, PumpPc.Queued] at fits
      simp only [PumpAction.side, ConnectionImpl.setPump, Function.update_self]
      split
      · exact ⟨_, fits⟩
      · exact fits
  | writingFails pc =>
      simp only [PumpAction.side, pc, PumpPc.Queued] at fits
      simp only [PumpAction.side, ConnectionImpl.setPump, Function.update_self]
      exact ⟨_, fits⟩
  | resumes pc | starts pc | enters pc | awaits pc | receives pc | allocates pc | copies pc
  | sends pc | reads pc | readFails pc | greetingFails pc =>
      simp only [PumpAction.side, pc, PumpPc.Queued] at fits
      simpa [PumpAction.side, ConnectionImpl.setPump, PumpPc.Queued] using fits

namespace QueueRecord

/-- A return pushes and pops nothing. -/
theorem after_failed {record : QueueRecord} {side : Side} (failed : (conn.pump side).Failed) :
    record.after conn (.step side) = record := by
  cases pc : conn.pump side with
  | written ec =>
      rw [pc] at failed
      subst failed
      simp [after, PumpAction.side, pc]
  | copied block size => simp [pc, PumpPc.Failed] at failed
  | _ => simp [after, PumpAction.side, pc]

theorem inOrder_after {record : QueueRecord}
    (inOrder : record.pushed = record.popped ++ conn.writeQueue action.side.other)
    (acted : conn.act zero action = some next) :
    (record.after conn action).pushed =
      (record.after conn action).popped ++ next.writeQueue action.side.other := by
  cases ConnectionImpl.act_moves acted with
  | pushes pc =>
      simp only [PumpAction.side] at inOrder
      simp [after, PumpAction.side, pc, inOrder, ConnectionImpl.push, ConnectionImpl.setPump]
  | @handles side pc =>
      simp only [PumpAction.side] at inOrder
      simp only [after, PumpAction.side, pc, ConnectionImpl.writeQueue_setPump]
      cases queue : conn.writeQueue side.other with
      | nil => simp [ConnectionImpl.writeHandler, queue, inOrder]
      | cons entry rest =>
          rw [ConnectionImpl.writeQueue_writeHandler queue, inOrder, queue]
          simp
  | @returns side failed =>
      simp only [PumpAction.side] at inOrder
      rw [after_failed failed]
      exact inOrder
  | resumes pc | starts pc | enters pc | awaits pc | receives pc | allocates pc | copies pc
  | sends pc | reads pc | readFails pc | greets pc progress | writes pc progress
  | greetingFails pc | writingFails pc =>
      simpa [after, PumpAction.side, pc] using inOrder

end QueueRecord

theorem Queued.act {records : Side → QueueRecord} (queued : Queued conn records)
    (acted : conn.act zero action = some next) :
    Queued next
      (Function.update records action.side ((records action.side).after conn action)) := by
  have otherPump := ConnectionImpl.pump_act_other acted
  have otherQueue := ConnectionImpl.writeQueue_act_other acted
  refine ⟨Side.both action.side ?_ ?_, Side.both action.side ?_ ?_⟩
  · exact (queued.fits action.side).act acted
  · have before := queued.fits action.side.other
    rw [Side.other_other] at before ⊢
    rw [otherPump, otherQueue]
    exact before
  · rw [Function.update_self]
    exact QueueRecord.inOrder_after (queued.inOrder action.side) acted
  · have before := queued.inOrder action.side.other
    rw [Side.other_other] at before ⊢
    rw [Function.update_of_ne (Side.other_ne action.side), otherQueue]
    exact before

theorem queued_of_reachable {s : ConnectionImpl β × (Side → QueueRecord)}
    (reached : (queueMachine zero).Reachable s) : Queued s.1 s.2 := by
  refine Machine.invariant (M := queueMachine zero) (I := fun s => Queued s.1 s.2)
    ⟨fun _ => rfl, fun _ => rfl⟩ ?_ reached
  intro s action t queued stepped
  obtain ⟨next, acted, rfl⟩ := Machine.recording_step_eq_some.mp stepped
  exact queued.act acted

/-! ## The pumps as owners of blocks -/

/-- The block a pump has allocated and not pushed yet. -/
def PumpPc.unpushed : PumpPc β → List (ℕ × ℕ)
  | .allocated block size | .copied block size => [(block, size)]
  | _ => []

theorem PumpPc.unpushed_failed {pc : PumpPc β} (failed : pc.Failed) : pc.unpushed = [] := by
  cases pc with
  | greeted ec | readDone size ec | written ec => rfl
  | _ => exact failed.elim

/-- What the allocator knows of a block. -/
def Block.account (block : Block β) : Account := ⟨block.size, block.deallocated⟩

/-- Each pump has the blocks of its queue in custody, and the one it has not pushed yet. -/
def custody (s : ConnectionImpl β × (Side → QueueRecord)) : Custody Side where
  accounts := s.1.heap.map Block.account
  held side := s.1.writeQueue side.other ++ (s.1.pump side).unpushed
  givenBack side := (s.2 side).popped

/-- A step that moves no block. -/
theorem custody_eq {records : Side → QueueRecord}
    (acted : conn.act zero action = some next)
    (accounts : next.heap.map Block.account = conn.heap.map Block.account)
    (held : next.writeQueue action.side.other ++ (next.pump action.side).unpushed =
      conn.writeQueue action.side.other ++ (conn.pump action.side).unpushed)
    (popped : ((records action.side).after conn action).popped = (records action.side).popped) :
    custody (next, Function.update records action.side ((records action.side).after conn action)) =
      custody (conn, records) := by
  have otherPump := ConnectionImpl.pump_act_other acted
  have otherQueue := ConnectionImpl.writeQueue_act_other acted
  simp only [custody, Custody.mk.injEq]
  refine ⟨accounts, funext (Side.both action.side held ?_),
    funext (Side.both action.side ?_ ?_)⟩
  · rw [otherPump, Side.other_other, otherQueue]
  · rw [Function.update_self]
    exact popped
  · rw [Function.update_of_ne (Side.other_ne action.side)]

/-- `asio_handler_allocate` takes a block. -/
theorem custody_allocate {records : Side → QueueRecord} {side : Side} {size : ℕ}
    (pc : conn.pump side = .received size) :
    custody ((conn.allocate size).setPump side (.allocated conn.heap.length size), records) =
      (custody (conn, records)).take side size := by
  simp only [custody, Custody.take, Custody.mk.injEq]
  refine ⟨?_, funext (Side.both side ?_ ?_), trivial⟩
  · simp [ConnectionImpl.allocate, ConnectionImpl.setPump, Block.account]
  · simp [ConnectionImpl.setPump, PumpPc.unpushed, pc, ConnectionImpl.allocate]
  · simp [ConnectionImpl.setPump, ConnectionImpl.allocate]

/-- The handler of a queue gives its front back. -/
theorem custody_writeHandler {records : Side → QueueRecord} {side : Side} {entry : ℕ × ℕ}
    (pc : conn.pump side = .written false) (queue : conn.writeQueue side.other = [entry]) :
    custody ((conn.writeHandler side.other false).setPump side .loopTop,
        Function.update records side ((records side).after conn (.step side))) =
      (custody (conn, records)).giveBack side entry [] := by
  have popped : ((records side).after conn (.step side)).popped =
      (records side).popped ++ [entry] := by
    simp [QueueRecord.after, PumpAction.side, pc, queue]
  simp only [custody, Custody.giveBack, Custody.mk.injEq]
  refine ⟨?_, funext (Side.both side ?_ ?_), funext (Side.both side ?_ ?_)⟩
  · simp only [ConnectionImpl.setPump, ConnectionImpl.writeHandler, queue]
    exact map_modify_of (g := Block.account) (fun _ => rfl) _ _
  · have left := ConnectionImpl.writeQueue_writeHandler queue false
    simp [ConnectionImpl.setPump, left, PumpPc.unpushed]
  · simp [ConnectionImpl.setPump, ConnectionImpl.writeHandler, queue]
  · simp [popped]
  · simp

/-- **A step of a pump takes a block, gives one back, or moves none.** -/
theorem custody_act {records : Side → QueueRecord} (queued : Queued conn records)
    (acted : conn.act zero action = some next) :
    custody (next, Function.update records action.side ((records action.side).after conn action)) =
        custody (conn, records) ∨
      (custody (conn, records)).Moves (custody (next,
        Function.update records action.side ((records action.side).after conn action))) := by
  cases ConnectionImpl.act_moves acted with
  | @allocates side size pc =>
      right
      have same : (records side).after conn (.step side) = records side := by
        simp [QueueRecord.after, PumpAction.side, pc]
      rw [PumpAction.side, same, Function.update_eq_self, custody_allocate pc]
      exact .takes side size
  | @handles side pc =>
      right
      have fits := queued.fits side
      rw [pc] at fits
      obtain ⟨entry, queue⟩ := fits
      rw [PumpAction.side, custody_writeHandler pc queue]
      exact .givesBack side entry [] (by simp [custody, queue, pc, PumpPc.unpushed])
  | @copies side block size pc =>
      left
      refine custody_eq acted ?_ ?_ ?_
      · exact map_modify_of_eq (g := Block.account)
          (f := fun record =>
            { record with data := (conn.readBuffer side).take size ++ record.data.drop size })
          (fun _ => rfl) _ _
      · simp [PumpAction.side, ConnectionImpl.setPump, ConnectionImpl.copy, PumpPc.unpushed, pc]
      · simp [QueueRecord.after, PumpAction.side, pc]
  | @pushes side block size pc =>
      left
      refine custody_eq acted rfl ?_ ?_
      · simp [PumpAction.side, ConnectionImpl.setPump, ConnectionImpl.push, PumpPc.unpushed, pc]
      · simp [QueueRecord.after, PumpAction.side, pc]
  | @returns side failed =>
      left
      refine custody_eq acted rfl ?_ ?_
      · rw [PumpAction.side, PumpPc.unpushed_failed failed]
        simp [ConnectionImpl.setPump, PumpPc.unpushed]
      · rw [PumpAction.side, QueueRecord.after_failed failed]
  | greets pc progress | writes pc progress =>
      left
      refine custody_eq acted rfl ?_ ?_
      · simp only [PumpAction.side, ConnectionImpl.setPump, Function.update_self, pc]
        split <;> rfl
      · simp [QueueRecord.after, PumpAction.side]
  | resumes pc | starts pc | enters pc | awaits pc | receives pc | sends pc | reads pc
  | readFails pc | greetingFails pc | writingFails pc =>
      left
      refine custody_eq acted rfl ?_ ?_
      · simp [PumpAction.side, ConnectionImpl.setPump, PumpPc.unpushed, pc]
      · simp [QueueRecord.after, PumpAction.side, pc]

/-- **No block is lost or freed twice by the bookkeeping**: what a pump holds was not
deallocated, and what was popped was deallocated once, with its size. -/
theorem custody_once {s : ConnectionImpl β × (Side → QueueRecord)}
    (reached : (queueMachine zero).Reachable s) : (custody s).Once := by
  refine Machine.invariant_of_simulation (M := queueMachine zero) custody
    (fun before after => before.Moves after) Custody.Once ?_ ?_
    (fun before after once moved => once.moves moved) reached
  · intro s action t reachedS stepped
    obtain ⟨next, acted, rfl⟩ := Machine.recording_step_eq_some.mp stepped
    exact custody_act (queued_of_reachable reachedS) acted
  · refine ⟨?_, ?_, ?_, ?_⟩
    · intro side entry member
      cases member
    · intro side entry member
      cases member
    · intro side
      exact List.nodup_nil
    · intro side another _ entry member
      cases member

/-! ## Exact queues -/

/-- What was popped from a queue was deallocated once, with the size it was allocated with. -/
theorem freed_of_popped {s : ConnectionImpl β × (Side → QueueRecord)}
    (once : (custody s).Once) {side : Side} {entry : ℕ × ℕ} (member : entry ∈ (s.2 side).popped) :
    s.1.Freed entry := by
  have account := once.givenBack side entry member
  simp only [custody, List.getElem?_map, Option.map_eq_some_iff] at account
  obtain ⟨record, found, known⟩ := account
  obtain ⟨size, deallocated⟩ := Account.mk.inj known
  exact ⟨record, found, size, deallocated.trans (congrArg (fun size => [size]) size.symm)⟩

/-- Only the queue of a pump that has returned can be wrong. -/
theorem queuesExact_iff {s : ConnectionImpl β × (Side → QueueRecord)}
    (reached : (queueMachine zero).Reachable s) :
    QueuesExact s ↔ ∀ side : Side, s.1.pump side = .returned → s.1.writeQueue side.other = [] := by
  have queued := queued_of_reachable reached
  have once := custody_once reached
  refine ⟨fun exact side => (exact side).empty, ?_⟩
  intro empty side
  have inOrder := queued.inOrder side
  have fits := queued.fits side
  have whole : s.1.pump side = .returned → (s.2 side).popped = (s.2 side).pushed := by
    intro pc
    rw [inOrder, empty side pc, List.append_nil]
  refine ⟨?_, empty side, whole, ?_, ?_⟩
  · cases pc : s.1.pump side with
    | written ec =>
        rw [pc] at fits
        obtain ⟨entry, queue⟩ := fits
        rw [queue] at inOrder ⊢
        simp [QueueRecord.outstanding, inOrder]
    | returned => exact empty side pc
    | _ =>
        rw [pc] at fits
        exact fits
  · intro pc
    have distinct := once.distinct side
    simp only [Custody.taken, custody, pc, PumpPc.unpushed, empty side pc, List.append_nil]
      at distinct
    rw [← whole pc]
    exact distinct
  · intro pc entry member
    rw [← whole pc] at member
    exact freed_of_popped once member

/-- A pump that returns otherwise leaves an empty queue. -/
theorem empty_act (acted : conn.act zero action = some next)
    (fits : (conn.pump action.side).Queued (conn.writeQueue action.side.other))
    (orderly : ¬ conn.Abandons action) (pc : next.pump action.side = .returned) :
    next.writeQueue action.side.other = [] := by
  cases ConnectionImpl.act_moves acted with
  | @returns side failed =>
      simp only [PumpAction.side, ConnectionImpl.writeQueue_setPump] at fits ⊢
      cases before : conn.pump side with
      | greeted ec | readDone size ec =>
          rw [before] at fits
          exact fits
      | written ec =>
          rw [before] at failed
          exact absurd (before.trans (congrArg PumpPc.written failed)) orderly
      | _ => simp [before, PumpPc.Failed] at failed
  | greets _ _ | writes _ _ =>
      simp only [PumpAction.side, ConnectionImpl.setPump, Function.update_self] at pc
      split at pc <;> cases pc
  | _ => simp [PumpAction.side, ConnectionImpl.setPump] at pc

/-- A pump that gives up leaves its chunk in its queue. -/
theorem ConnectionImpl.Abandons.act (abandons : conn.Abandons action)
    (fits : (conn.pump action.side).Queued (conn.writeQueue action.side.other))
    (acted : conn.act zero action = some next) :
    next.pump action.side = .returned ∧ next.writeQueue action.side.other ≠ [] := by
  cases action with
  | step side =>
      have pc : conn.pump side = .written true := abandons
      rw [PumpAction.side, pc] at fits
      obtain ⟨entry, queue⟩ := fits
      rw [act_step, pumpStep, pc] at acted
      cases acted
      exact ⟨by simp [PumpAction.side, setPump], by simp [PumpAction.side, queue]⟩
  | _ => exact abandons.elim

/-- **The write queues are exact** throughout a run exactly when no pump returns from an
`async_write` of a chunk that has ended with an error. -/
theorem queuesExact_throughout_iff (zero : β) (actions : List (PumpAction β)) :
    (queueMachine zero).Throughout QueuesExact (queueMachine zero).init actions ↔
      (queueMachine zero).Guarded (fun s action => ¬ s.1.Abandons action)
        (queueMachine zero).init actions := by
  refine Machine.throughout_iff_guarded ?_ ?_ ?_ actions
  · exact (queuesExact_iff (queueMachine zero).reachable_init).mpr fun _ _ => rfl
  · intro s action t reached exact orderly stepped
    have queued := queued_of_reachable reached
    have empty := (queuesExact_iff reached).mp exact
    refine (queuesExact_iff (reached.step stepped)).mpr ?_
    obtain ⟨next, acted, rfl⟩ := Machine.recording_step_eq_some.mp stepped
    refine Side.both action.side (empty_act acted (queued.fits action.side) orderly) ?_
    have before := empty action.side.other
    rw [Side.other_other] at before ⊢
    rw [ConnectionImpl.pump_act_other acted, ConnectionImpl.writeQueue_act_other acted]
    exact before
  · intro s action t reached against stepped exact
    have empty := (queuesExact_iff (reached.step stepped)).mp exact
    obtain ⟨next, acted, rfl⟩ := Machine.recording_step_eq_some.mp stepped
    obtain ⟨pc, left⟩ := (not_not.mp against).act ((queued_of_reachable reached).fits action.side)
      acted
    exact left (empty action.side pc)

/-- `run` has read the chunk `7`, and its `async_write` ends with an error. -/
def failedWrite : List (PumpAction UInt8) :=
  [.resume .src, .step .src, .writes .src 512, .step .src, .step .src,
    .reads .src (.byte 7), .step .src, .step .src, .step .src,
    .step .src, .step .src, .fails .src, .step .src]

section FailedWrite

-- the start-up buffer has 512 elements
set_option maxRecDepth 8000

theorem failedWrite_left :
    ∃ s, (queueMachine (0 : UInt8)).exec (queueMachine 0).init failedWrite = some s ∧
      s.1.pump .src = .returned ∧ s.1.writeQueue .dest = [(0, 1)] :=
  ⟨_, rfl, rfl, rfl⟩

end FailedWrite

/-- **A chunk whose write fails is left in its queue**, and its block is not deallocated. -/
theorem not_queuesExact_throughout :
    ¬ ∀ actions, (queueMachine (0 : UInt8)).Throughout QueuesExact
      (queueMachine 0).init actions := by
  intro always
  obtain ⟨s, run, pc, left⟩ := failedWrite_left
  have empty := (always failedWrite failedWrite [] s (List.append_nil _).symm run .src).empty pc
  rw [Side.other, left] at empty
  exact List.cons_ne_nil _ _ empty

/-! ## What is left behind -/

/-- A pump that has returned takes no further step. -/
theorem returned_act (acted : conn.act zero action = some next) :
    conn.pump action.side ≠ .returned := by
  cases ConnectionImpl.act_moves acted with
  | returns failed =>
      intro pc
      rw [PumpAction.side] at pc
      rw [pc] at failed
      exact failed
  | resumes pc | starts pc | enters pc | awaits pc | receives pc | allocates pc | copies pc
  | pushes pc | sends pc | handles pc | reads pc | readFails pc | greets pc progress
  | writes pc progress | greetingFails pc | writingFails pc =>
      simp [PumpAction.side, pc]

/-- **What a pump leaves in its queue stays allocated**: nothing that happens later to the
connection pops or deallocates it. -/
theorem abandoned {s t : ConnectionImpl β × (Side → QueueRecord)} {actions : List (PumpAction β)}
    {side : Side} {entry : ℕ × ℕ} (reached : (queueMachine zero).Reachable s)
    (pc : s.1.pump side = .returned) (left : entry ∈ s.1.writeQueue side.other)
    (run : (queueMachine zero).exec s actions = some t) :
    entry ∈ t.1.writeQueue side.other ∧ t.1.Live entry.1 := by
  have kept : t.1.pump side = .returned ∧ entry ∈ t.1.writeQueue side.other := by
    refine Machine.exec_invariant (M := queueMachine zero)
      (I := fun s => s.1.pump side = .returned ∧ entry ∈ s.1.writeQueue side.other) ?_
      ⟨pc, left⟩ run
    rintro s action t ⟨returned, member⟩ stepped
    obtain ⟨next, acted, rfl⟩ := Machine.recording_step_eq_some.mp stepped
    have elsewhere : side ≠ action.side := fun same => returned_act acted (same ▸ returned)
    rw [Side.eq_other elsewhere] at returned member ⊢
    rw [Side.other_other] at member ⊢
    rw [ConnectionImpl.pump_act_other acted, ConnectionImpl.writeQueue_act_other acted]
    exact ⟨returned, member⟩
  have held : entry ∈ (custody t).held side := List.mem_append_left _ kept.2
  have account := (custody_once (reached.exec run)).held side entry held
  refine ⟨kept.2, ?_⟩
  simp only [custody, List.getElem?_map, Option.map_eq_some_iff] at account
  obtain ⟨record, found, known⟩ := account
  rw [ConnectionImpl.Live, List.getElem?_map, found]
  exact congrArg some (Account.mk.inj known).2

end BookFilerSsh.Port
