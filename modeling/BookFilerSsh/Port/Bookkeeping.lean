import BookFilerSsh.Port.Relay

/-!
# The bookkeeping of a forwarded connection

A pump copies what it reads into a block, puts the block into the write queue of the
other socket, writes it, and calls the handler of that queue, which takes the front
entry off. Nothing in the code says that the front entry is the chunk that was written,
and the two pumps have buffers and queues of nearly the same names.

The runs here keep a record of each direction: the chunks read, the chunks handed to
`async_write` with their bytes at that moment, the bytes the loop wrote, and the queue
that each handler call found and left. However the pumps are interleaved, what is handed
over is what was read, what the loop wrote has arrived on the opposite socket, where
nothing else arrives but the start-up bytes of the other pump, each chunk is written in
full before the next read, each handler call finds the chunk just written and nothing
else, and a block that is still in use has not been deallocated (`relaysOnce`).

The invariant of a direction ties the read buffer, the block, the queue and the record
together at each position of its pump (`Direction.Inv`). A step of the other pump reaches
none of them (`Direction.Inv.same`).
-/

set_option autoImplicit false

namespace BookFilerSsh.Port

open Lib

variable {β : Type} {zero : β}

/-! ## The record of a direction -/

/-- A chunk handed to `async_write`: where it begins, its size and its bytes. -/
structure Handed (β : Type) where
  block : ℕ
  size : ℕ
  bytes : List β

/-- A call of the handler of a write queue: the queue it found and the one it left. -/
structure Handling where
  found : List (ℕ × ℕ)
  left : List (ℕ × ℕ)

/-- The handler call that belongs to a chunk: its entry is all there is in the queue. -/
def Handed.handling (chunk : Handed β) : Handling := ⟨[(chunk.block, chunk.size)], []⟩

/-- What the loop of one pump has done. -/
structure Direction (β : Type) where
  chunks : List (List β) := []
  handed : List (Handed β) := []
  sent : List β := []
  handled : List Handling := []

namespace Direction

/-- The bytes of all chunks handed over. -/
def handedBytes (direction : Direction β) : List β := direction.handed.flatMap Handed.bytes

/-- What a step adds to the record of the direction of its pump. -/
def after (direction : Direction β) (conn : ConnectionImpl β) (action : PumpAction β)
    (next : ConnectionImpl β) : Direction β :=
  match action, conn.pump action.side with
  | .reads _ (.data bytes _ _), _ => { direction with chunks := direction.chunks ++ [bytes] }
  | .step _, .pushed block size =>
      { direction with handed := direction.handed ++ [⟨block, size, conn.buffer block size⟩] }
  | .writes _ count, .writing block size done =>
      { direction with
        sent := direction.sent ++ ((conn.buffer block size).drop done).take count }
  | .step side, .written false =>
      { direction with
        handled := direction.handled ++
          [⟨conn.writeQueue side.other, next.writeQueue side.other⟩] }
  | _, _ => direction

end Direction

/-- The runs of a connection, with a record of both directions. -/
def recordedMachine (zero : β) : Machine (ConnectionImpl β × (Side → Direction β)) (PumpAction β) :=
  (pumpMachine zero).recording (fun _ => {}) fun conn action next directions =>
    Function.update directions action.side ((directions action.side).after conn action next)

/-! ## The invariant of a direction -/

namespace PumpView

/-- The chunk that was read and not handed over yet. -/
def unhanded (view : PumpView β) : List (List β) :=
  match view.pc with
  | .readDone size false | .received size | .allocated _ size => [view.readBuffer.take size]
  | .copied block size | .pushed block size => [view.buffer block size]
  | _ => []

end PumpView

namespace Direction

/-- What is handed over is written, and handled. -/
structure Complete (direction : Direction β) : Prop where
  sent : direction.sent = direction.handedBytes
  handled : direction.handled = direction.handed.map Handed.handling

/-- How much of what was handed over is written and handled, and what is in the queue. -/
def Written (direction : Direction β) (view : PumpView β) (queue : List (ℕ × ℕ)) : Prop :=
  match view.pc with
  | .pushed block size => direction.Complete ∧ queue = [(block, size)]
  | .writing block size done =>
      ∃ before : Direction β, before.Complete ∧ queue = [(block, size)] ∧
        direction.handed = before.handed ++ [⟨block, size, view.buffer block size⟩] ∧
        direction.sent = before.sent ++ (view.buffer block size).take done ∧
        direction.handled = before.handled
  | .written false =>
      ∃ (before : Direction β) (last : Handed β), before.Complete ∧
        queue = [(last.block, last.size)] ∧ direction.handed = before.handed ++ [last] ∧
        direction.sent = before.sent ++ last.bytes ∧ direction.handled = before.handled
  | .written true | .returned =>
      direction.sent <+: direction.handedBytes ∧
        direction.handled <+: direction.handed.map Handed.handling
  | _ => direction.Complete ∧ queue = []

/-- The invariant of a direction, with the write queue its pump pushes to. -/
structure Inv (direction : Direction β) (view : PumpView β) (queue : List (ℕ × ℕ)) : Prop where
  read : view.read = direction.chunks.flatten
  chunks : direction.chunks = direction.handed.map Handed.bytes ++ view.unhanded
  written : direction.Written view queue

variable {direction : Direction β} {view next : PumpView β} {queue : List (ℕ × ℕ)}

/-- **A step of the other pump leaves a direction as it is.** -/
theorem Inv.same {greeted relayed : List β} (inv : direction.Inv view queue)
    (pumpInv : view.Inv zero greeted relayed) (same : PumpView.Same view next) :
    direction.Inv next queue := by
  have buffer : ∀ block size, view.pc.block = some block →
      next.buffer block size = view.buffer block size := by
    intro block size holds
    rw [PumpView.buffer, PumpView.buffer, same.data block holds (pumpInv.owned block holds)]
  have unhanded : next.unhanded = view.unhanded := by
    simp only [PumpView.unhanded, same.pc, same.readBuffer]
    cases pc : view.pc with
    | copied block size | pushed block size =>
        exact congrArg (fun bytes => [bytes]) (buffer block size (by rw [pc]; rfl))
    | readDone size ec => cases ec <;> rfl
    | _ => rfl
  refine ⟨same.read.trans inv.read, by rw [unhanded]; exact inv.chunks, ?_⟩
  have written := inv.written
  simp only [Written, same.pc] at written ⊢
  cases pc : view.pc with
  | writing block size done =>
      rw [pc] at written
      simp only [buffer block size (by rw [pc]; rfl)]
      exact written
  | written ec =>
      rw [pc] at written
      cases ec <;> exact written
  | _ =>
      rw [pc] at written
      exact written

end Direction

/-! ## A step of the pump itself -/

namespace ConnectionImpl

@[simp] theorem writeQueue_setPump (conn : ConnectionImpl β) (side : Side) (pc : PumpPc β) :
    (conn.setPump side pc).writeQueue = conn.writeQueue := rfl

@[simp] theorem writeQueue_arrive (conn : ConnectionImpl β) (side : Side) (bytes : List β) :
    (conn.arrive side bytes).writeQueue = conn.writeQueue := rfl

@[simp] theorem writeQueue_fill (conn : ConnectionImpl β) (side : Side) (bytes : List β) :
    (conn.fill side bytes).writeQueue = conn.writeQueue := rfl

@[simp] theorem writeQueue_allocate (conn : ConnectionImpl β) (size : ℕ) :
    (conn.allocate size).writeQueue = conn.writeQueue := rfl

@[simp] theorem writeQueue_copy (conn : ConnectionImpl β) (side : Side) (block size : ℕ) :
    (conn.copy side block size).writeQueue = conn.writeQueue := rfl

@[simp] theorem writeQueue_push (conn : ConnectionImpl β) (side : Side) (block size : ℕ) :
    (conn.push side block size).writeQueue side = conn.writeQueue side ++ [(block, size)] := by
  simp [push]

/-- The handler takes the front entry off its queue. -/
theorem writeQueue_writeHandler {conn : ConnectionImpl β} {side : Side} {entry : ℕ × ℕ}
    {rest : List (ℕ × ℕ)} (queue : conn.writeQueue side = entry :: rest) (ec : Bool) :
    (conn.writeHandler side ec).writeQueue side = rest := by
  unfold writeHandler
  rw [queue]
  cases ec <;> simp [closeSockets]

end ConnectionImpl

namespace Direction

variable {direction : Direction β} {conn next : ConnectionImpl β} {action : PumpAction β}

theorem Complete.prefixes (complete : direction.Complete) :
    direction.sent <+: direction.handedBytes ∧
      direction.handled <+: direction.handed.map Handed.handling :=
  ⟨complete.sent ▸ List.prefix_rfl, complete.handled ▸ List.prefix_rfl⟩

theorem handedBytes_of_handed {before : Direction β} {last : Handed β}
    (handed : direction.handed = before.handed ++ [last]) :
    direction.handedBytes = before.handedBytes ++ last.bytes := by
  simp [handedBytes, handed]

/-- What is written and handled begins what was handed over. -/
theorem Written.prefixes {view : PumpView β} {queue : List (ℕ × ℕ)}
    (written : direction.Written view queue) :
    direction.sent <+: direction.handedBytes ∧
      direction.handled <+: direction.handed.map Handed.handling := by
  unfold Written at written
  split at written
  next => exact written.1.prefixes
  next block size done pc =>
    obtain ⟨before, complete, -, handed, sent, handled⟩ := written
    constructor
    · rw [sent, complete.sent, handedBytes_of_handed handed]
      exact (List.prefix_append_right_inj _).mpr (List.take_prefix _ _)
    · rw [handled, complete.handled, handed, List.map_append]
      exact List.prefix_append _ _
  next pc =>
    obtain ⟨before, last, complete, -, handed, sent, handled⟩ := written
    constructor
    · have all : direction.sent = direction.handedBytes := by
        rw [sent, complete.sent, handedBytes_of_handed handed]
      exact all ▸ List.prefix_rfl
    · rw [handled, complete.handled, handed, List.map_append]
      exact List.prefix_append _ _
  next => exact written
  next => exact written
  next => exact written.1.prefixes

/-- A partial write writes the next bytes of the chunk. -/
theorem Written.writes {view : PumpView β} {queue : List (ℕ × ℕ)} {block size done : ℕ}
    (written : direction.Written view queue)
    (pc : view.pc = .writing block size done) (count : ℕ) :
    Written
      { direction with
        sent := direction.sent ++ ((view.buffer block size).drop done).take count }
      { view with
        pc := if done + count = size then .written false
          else .writing block size (done + count) } queue := by
  simp only [Written, pc] at written
  obtain ⟨before, complete, entry, handed, sent, handled⟩ := written
  have further : (view.buffer block size).take done ++
      ((view.buffer block size).drop done).take count =
        (view.buffer block size).take (done + count) := List.take_add.symm
  by_cases whole : done + count = size
  · rw [if_pos whole]
    refine ⟨before, ⟨block, size, view.buffer block size⟩, complete, entry, handed, ?_, handled⟩
    have all : (view.buffer block size).take (done + count) = view.buffer block size :=
      List.take_of_length_le (by rw [whole]; exact List.length_take_le _ _)
    rw [sent, List.append_assoc, further, all]
  · rw [if_neg whole]
    refine ⟨before, complete, entry, handed, ?_, handled⟩
    rw [sent, List.append_assoc, further]
    rfl

/-- `memcpy` moves the chunk from the read buffer to its block. -/
theorem Inv.copies {side : Side} {queue : List (ℕ × ℕ)} {block size : ℕ}
    (inv : direction.Inv (conn.view side) queue) (pc : conn.pump side = .allocated block size)
    (inside : block < conn.heap.length) (filled : size ≤ (conn.readBuffer side).length) :
    direction.Inv (((conn.copy side block size).setPump side (.copied block size)).view side)
      queue := by
  obtain ⟨read, chunks, written⟩ := inv
  have here : (conn.view side).pc = .allocated block size := pc
  simp only [PumpView.unhanded, Written, here] at chunks written
  refine ⟨by simpa using read, ?_, by simpa [Written] using written⟩
  rw [ConnectionImpl.view_setPump]
  show direction.chunks = direction.handed.map Handed.bytes ++
    [((conn.copy side block size).view side).buffer block size]
  rw [ConnectionImpl.view_buffer, ConnectionImpl.buffer_copy inside filled]
  exact chunks

/-- The handler finds the chunk just written, and leaves the queue empty. -/
theorem Inv.handles {side : Side}
    (inv : direction.Inv (conn.view side) (conn.writeQueue side.other))
    (pc : conn.pump side = .written false) :
    Inv
      { direction with
        handled := direction.handled ++ [⟨conn.writeQueue side.other,
          (conn.writeHandler side.other false).writeQueue side.other⟩] }
      (((conn.writeHandler side.other false).setPump side .loopTop).view side)
      ((conn.writeHandler side.other false).writeQueue side.other) := by
  obtain ⟨read, chunks, written⟩ := inv
  have here : (conn.view side).pc = .written false := pc
  simp only [PumpView.unhanded, Written, here] at chunks written
  obtain ⟨before, last, complete, queue, handed, sent, handled⟩ := written
  have left := ConnectionImpl.writeQueue_writeHandler queue false
  rw [ConnectionImpl.view_setPump, ConnectionImpl.view_writeHandler, left, queue]
  refine ⟨read, chunks, ⟨?_, ?_⟩, rfl⟩
  · rw [sent, complete.sent]
    exact (handedBytes_of_handed handed).symm
  · simp [handled, complete.handled, handed, Handed.handling]

/-- A pump that stops keeps what it has written and handled. -/
theorem Inv.stops {view : PumpView β} {queue : List (ℕ × ℕ)} (inv : direction.Inv view queue)
    (nothing : view.unhanded = []) {pc : PumpPc β}
    (stopped : pc = .returned ∨ pc = .written true) :
    direction.Inv { view with pc := pc } queue := by
  obtain ⟨read, chunks, written⟩ := inv
  rw [nothing] at chunks
  rcases stopped with rfl | rfl
  all_goals exact ⟨read, chunks, written.prefixes⟩

/-- A pump that looks at an error has handed over all it has read. -/
theorem unhanded_failed {side : Side} (failed : (conn.pump side).Failed) :
    (conn.view side).unhanded = [] := by
  have here : (conn.view side).pc = conn.pump side := rfl
  simp only [PumpView.unhanded, here]
  cases pc : conn.pump side with
  | readDone size ec =>
      rw [pc] at failed
      rw [show ec = true from failed]
  | received size | allocated block size | copied block size | pushed block size =>
      rw [pc] at failed
      exact failed.elim
  | _ => rfl

theorem after_failed {side : Side} (failed : (conn.pump side).Failed) :
    direction.after conn (.step side) next = direction := by
  cases pc : conn.pump side with
  | written ec =>
      rw [pc] at failed
      rw [show ec = true from failed] at pc
      simp only [after, PumpAction.side, pc]
  | pushed block size =>
      rw [pc] at failed
      exact failed.elim
  | _ => simp only [after, PumpAction.side, pc]

/-- **A step of the pump keeps the invariant of its direction.** -/
theorem Inv.act {greeted relayed : List β}
    (inv : direction.Inv (conn.view action.side) (conn.writeQueue action.side.other))
    (pumpInv : (conn.view action.side).Inv zero greeted relayed)
    (acted : conn.act zero action = some next) :
    (direction.after conn action next).Inv (next.view action.side)
      (next.writeQueue action.side.other) := by
  have here : ∀ side, (conn.view side).pc = conn.pump side := fun _ => rfl
  cases ConnectionImpl.act_moves acted with
  | resumes pc | starts pc | enters pc | awaits pc | greetingFails pc | readFails pc
  | receives pc | allocates pc =>
      obtain ⟨read, chunks, written⟩ := inv
      simp only [PumpView.unhanded, Written, PumpAction.side, here, pc] at read chunks written ⊢
      simp only [after, PumpAction.side, pc]
      exact ⟨by simpa using read, by simpa [PumpView.unhanded] using chunks,
        by simpa [Written] using written⟩
  | @copies side block size pc =>
      obtain ⟨-, -, filled, owned⟩ := pumpInv
      simp only [PumpView.Filled, PumpAction.side, here, pc] at filled owned
      have inside : block < conn.heap.length := by
        simpa [ConnectionImpl.view] using owned block rfl
      simp only [after, PumpAction.side, pc, ConnectionImpl.writeQueue_setPump,
        ConnectionImpl.writeQueue_copy]
      exact inv.copies pc inside filled
  | pushes pc =>
      obtain ⟨read, chunks, written⟩ := inv
      simp only [PumpView.unhanded, Written, PumpAction.side, here, pc] at read chunks written ⊢
      simp only [after, PumpAction.side, pc]
      exact ⟨by simpa using read, by simpa [PumpView.unhanded, PumpView.buffer] using chunks,
        by simpa [Written, written.2] using written.1⟩
  | @sends side block size pc =>
      obtain ⟨read, chunks, written⟩ := inv
      simp only [PumpView.unhanded, Written, PumpAction.side, here, pc] at read chunks written ⊢
      simp only [after, PumpAction.side, pc, ConnectionImpl.view_setPump]
      refine ⟨read, ?_, ?_⟩
      · simpa [PumpView.unhanded, ← ConnectionImpl.view_buffer conn side] using chunks
      · refine ⟨direction, written.1, written.2, ?_, ?_, rfl⟩
        · rw [← ConnectionImpl.view_buffer conn side]
          rfl
        · simp
  | @handles side pc =>
      simp only [after, PumpAction.side, pc]
      exact inv.handles pc
  | @reads side bytes nonempty fits pc =>
      obtain ⟨read, chunks, written⟩ := inv
      simp only [PumpView.unhanded, Written, PumpAction.side, here, pc] at read chunks written ⊢
      simp only [after]
      refine ⟨?_, ?_, ?_⟩
      · rw [ConnectionImpl.view_setPump, ConnectionImpl.view_fill]
        have readSo : (conn.socket side).read = direction.chunks.flatten := read
        simp [readSo]
      · simpa [PumpView.unhanded] using chunks
      · rw [ConnectionImpl.view_setPump]
        exact ⟨⟨written.1.sent, written.1.handled⟩, written.2⟩
  | @greets side count rest pc progress =>
      obtain ⟨read, chunks, written⟩ := inv
      simp only [PumpView.unhanded, Written, PumpAction.side, here, pc] at read chunks written ⊢
      simp only [after, PumpAction.side, pc]
      split
      all_goals exact ⟨by simpa using read, by simpa [PumpView.unhanded] using chunks,
        by simpa [Written] using written⟩
  | @writes side count block size done pc progress =>
      obtain ⟨read, chunks, written⟩ := inv
      simp only [PumpAction.side] at read chunks written
      simp only [after, PumpAction.side, pc, ConnectionImpl.view_setPump,
        ConnectionImpl.view_arrive, ConnectionImpl.writeQueue_setPump,
        ConnectionImpl.writeQueue_arrive]
      have moved := written.writes pc count
      rw [ConnectionImpl.view_buffer] at moved
      refine ⟨read, ?_, moved⟩
      simp only [PumpView.unhanded, here, pc] at chunks ⊢
      by_cases whole : done + count = size
      · rw [if_pos whole]
        exact chunks
      · rw [if_neg whole]
        exact chunks
  | @returns side failed =>
      rw [PumpAction.side, after_failed failed, ConnectionImpl.view_setPump]
      exact inv.stops (unhanded_failed failed) (.inl rfl)
  | @writingFails side block size done pc =>
      simp only [after, PumpAction.side, ConnectionImpl.view_setPump]
      refine inv.stops ?_ (.inr rfl)
      simp only [PumpAction.side, PumpView.unhanded, here, pc]

/-- **What the loop of a pump sends arrives on the opposite socket.** -/
theorem sent_after (direction : Direction β) (acted : conn.act zero action = some next) :
    ∃ more, (direction.after conn action next).sent = direction.sent ++ more ∧
      (next.socket action.side.other).written =
        (conn.socket action.side.other).written ++ more := by
  cases ConnectionImpl.act_moves acted with
  | writes pc progress =>
      refine ⟨_, ?_, ConnectionImpl.written_arrive ..⟩
      simp only [after, PumpAction.side, pc]
  | greets pc progress =>
      refine ⟨[], ?_, ?_⟩
      · simp only [after, PumpAction.side, pc, List.append_nil]
      · simp [PumpAction.side]
  | returns failed =>
      refine ⟨[], ?_, by simp [PumpAction.side]⟩
      rw [after_failed failed, List.append_nil]
  | handles pc =>
      refine ⟨[], ?_, by simp [PumpAction.side]⟩
      simp only [after, PumpAction.side, pc, List.append_nil]
  | reads pc | readFails pc =>
      exact ⟨[], by simp [after], by simp [PumpAction.side]⟩
  | _ pc =>
      refine ⟨[], ?_, ?_⟩
      · simp only [after, PumpAction.side, pc, List.append_nil]
      · simp [PumpAction.side, ConnectionImpl.copy, ConnectionImpl.allocate, ConnectionImpl.push]

end Direction

/-! ## Blocks in use -/

namespace ConnectionImpl

variable {conn next : ConnectionImpl β} {action : PumpAction β} {block : ℕ}

/-- The block is allocated and was not deallocated. -/
def Live (conn : ConnectionImpl β) (block : ℕ) : Prop :=
  (conn.heap.map Block.deallocated)[block]? = some []

/-- Only a handler call deallocates, and only a block of the queue it handles. -/
theorem Live.act (live : conn.Live block) (acted : conn.act zero action = some next)
    (kept : conn.pump action.side = .written false →
      ∀ entry ∈ conn.writeQueue action.side.other, entry.1 ≠ block) : next.Live block := by
  have inside : block < (conn.heap.map Block.deallocated).length :=
    (List.getElem?_eq_some_iff.mp live).1
  cases act_moves acted with
  | @allocates side size pc =>
      simp only [Live, allocate, setPump, List.map_append]
      rw [List.getElem?_append_left inside]
      exact live
  | @copies side own size pc =>
      have same : (conn.copy side own size).heap.map Block.deallocated =
          conn.heap.map Block.deallocated :=
        Tables.map_modify_of_eq (g := Block.deallocated)
          (f := fun record =>
            { record with data := (conn.readBuffer side).take size ++ record.data.drop size })
          (fun _ => rfl) _ _
      simp only [Live, setPump]
      rw [same]
      exact live
  | @handles side pc =>
      simp only [PumpAction.side] at kept
      simp only [Live, setPump, writeHandler]
      cases queue : conn.writeQueue side.other with
      | nil => exact live
      | cons entry rest =>
          have other : entry.1 ≠ block := kept pc entry (by rw [queue]; exact List.mem_cons_self ..)
          simp only [Bool.false_eq_true, if_false]
          rw [List.getElem?_map, List.getElem?_modify_ne _ _ other, ← List.getElem?_map]
          exact live
  | _ => exact live

/-- A block a pump has just taken is live. -/
theorem live_of_taken (acted : conn.act zero action = some next)
    (holds : (next.pump action.side).block = some block)
    (before : (conn.pump action.side).block ≠ some block) : next.Live block := by
  cases act_moves acted with
  | allocates pc =>
      simp only [PumpAction.side, setPump, Function.update_self, PumpPc.block,
        Option.some.injEq] at holds
      subst holds
      simp [Live, allocate, setPump]
  | greets pc progress =>
      simp only [PumpAction.side, setPump, Function.update_self] at holds
      split at holds <;> cases holds
  | writes pc progress =>
      simp only [PumpAction.side, setPump, Function.update_self, pc] at holds before
      split at holds
      next => cases holds
      next => exact absurd holds before
  | _ => simp_all [PumpAction.side, setPump, PumpPc.block]

/-- A step works on the queue its pump pushes to. -/
theorem writeQueue_act_other (acted : conn.act zero action = some next) :
    next.writeQueue action.side = conn.writeQueue action.side := by
  cases act_moves acted with
  | pushes pc => simp [PumpAction.side, push]
  | handles pc =>
      simp only [PumpAction.side, writeQueue_setPump]
      unfold writeHandler
      split <;> simp
  | _ => rfl

/-- What a pump pushes is the block it holds. -/
theorem mem_writeQueue_act (acted : conn.act zero action = some next) {entry : ℕ × ℕ}
    (member : entry ∈ next.writeQueue action.side.other) :
    entry ∈ conn.writeQueue action.side.other ∨
      (conn.pump action.side).block = some entry.1 := by
  cases act_moves acted with
  | pushes pc =>
      simp only [PumpAction.side, writeQueue_setPump, writeQueue_push, List.mem_append,
        List.mem_singleton] at member
      rcases member with old | rfl
      · exact .inl old
      · right
        rw [PumpAction.side, pc]
        rfl
  | @handles side pc =>
      simp only [PumpAction.side, writeQueue_setPump] at member
      left
      cases queue : conn.writeQueue side.other with
      | nil =>
          simp only [writeHandler, queue, Bool.false_eq_true, if_false] at member
          cases member
      | cons first rest =>
          rw [writeQueue_writeHandler queue] at member
          rw [PumpAction.side, queue]
          exact List.mem_cons_of_mem _ member
  | _ => exact .inl member

theorem length_heap_act (acted : conn.act zero action = some next) :
    conn.heap.length ≤ next.heap.length := by
  cases act_moves acted with
  | allocates pc => simp [allocate, setPump]
  | copies pc => simp [copy, setPump]
  | @handles side pc =>
      simp only [setPump, writeHandler]
      cases conn.writeQueue side.other with
      | nil => exact Nat.le_refl _
      | cons entry rest => simp
  | _ => exact Nat.le_refl _

/-- The handlers find their queues nonempty. -/
theorem undefined_act (acted : conn.act zero action = some next)
    (some_queued : conn.pump action.side = .written false →
      conn.writeQueue action.side.other ≠ []) : next.undefined = conn.undefined := by
  cases act_moves acted with
  | @handles side pc =>
      simp only [setPump, writeHandler]
      cases queue : conn.writeQueue side.other with
      | nil => exact absurd queue (some_queued pc)
      | cons entry rest => rfl
  | _ => rfl

end ConnectionImpl

/-! ## The invariant of the bookkeeping -/

/-- Both directions are in order, and what waits in a queue belongs to its own pump. -/
structure Bookkept (conn : ConnectionImpl β) (directions : Side → Direction β) : Prop where
  direction : ∀ side : Side, (directions side).Inv (conn.view side) (conn.writeQueue side.other)
  queued : ∀ side : Side, ∀ entry ∈ conn.writeQueue side.other,
    entry.1 < conn.heap.length ∧ (conn.pump side.other).block ≠ some entry.1
  live : ∀ side block, (conn.pump side).block = some block → conn.Live block
  defined : conn.undefined = false

namespace Bookkept

variable {conn next : ConnectionImpl β} {directions : Side → Direction β} {action : PumpAction β}

/-- While a chunk is written, and until it is handled, its entry is in the queue. -/
theorem queue_ne_nil (kept : Bookkept conn directions) {side : Side}
    (pc : conn.pump side = .written false) : conn.writeQueue side.other ≠ [] := by
  have written := (kept.direction side).written
  have here : (conn.view side).pc = .written false := pc
  simp only [Direction.Written, here] at written
  obtain ⟨before, last, -, queue, -⟩ := written
  rw [queue]
  exact List.cons_ne_nil _ _

/-- What a pump pushes is a block of its own, which the other pump does not hold. -/
theorem queued_act {greeted relayed : Side → List β} (kept : Bookkept conn directions)
    (inv : conn.Inv zero greeted relayed) (acted : conn.act zero action = some next) :
    ∀ side : Side, ∀ entry ∈ next.writeQueue side.other,
      entry.1 < next.heap.length ∧ (next.pump side.other).block ≠ some entry.1 := by
  have otherPump : next.pump action.side.other = conn.pump action.side.other :=
    (ConnectionImpl.same_act (inv.apart action.side) acted).pc
  have grows := ConnectionImpl.length_heap_act acted
  refine Side.both action.side ?_ ?_
  · intro entry member
    rw [otherPump]
    rcases ConnectionImpl.mem_writeQueue_act acted member with old | pushed
    · obtain ⟨inside, apart⟩ := kept.queued action.side entry old
      exact ⟨Nat.lt_of_lt_of_le inside grows, apart⟩
    · have inside := (inv.pump action.side).owned entry.1 pushed
      simp only [ConnectionImpl.view, List.length_map] at inside
      refine ⟨Nat.lt_of_lt_of_le inside grows, fun holds => ?_⟩
      exact inv.apart action.side entry.1 holds pushed
  · intro entry member
    have old := kept.queued action.side.other
    rw [Side.other_other] at member old ⊢
    rw [ConnectionImpl.writeQueue_act_other acted] at member
    obtain ⟨inside, apart⟩ := old entry member
    refine ⟨Nat.lt_of_lt_of_le inside grows, fun holds => ?_⟩
    rcases ConnectionImpl.block_act acted holds with held | new
    · exact apart held
    · omega

/-- The blocks the pumps hold stay live: what is deallocated is in the queue of the pump
that makes the step, and neither pump holds it. -/
theorem live_act {greeted relayed : Side → List β} (kept : Bookkept conn directions)
    (inv : conn.Inv zero greeted relayed) (acted : conn.act zero action = some next) :
    ∀ side block, (next.pump side).block = some block → next.Live block := by
  have otherPump : next.pump action.side.other = conn.pump action.side.other :=
    (ConnectionImpl.same_act (inv.apart action.side) acted).pc
  refine Side.both action.side ?_ ?_
  · intro block holds
    by_cases held : (conn.pump action.side).block = some block
    · refine (kept.live action.side block held).act acted fun pc => ?_
      rw [pc] at held
      cases held
    · exact ConnectionImpl.live_of_taken acted holds held
  · intro block holds
    rw [otherPump] at holds
    refine (kept.live action.side.other block holds).act acted ?_
    intro _ entry member same
    subst same
    exact (kept.queued action.side entry member).2 holds

theorem act {greeted relayed : Side → List β} (kept : Bookkept conn directions)
    (inv : conn.Inv zero greeted relayed) (acted : conn.act zero action = some next) :
    Bookkept next (Function.update directions action.side
      ((directions action.side).after conn action next)) := by
  refine ⟨Side.both action.side ?_ ?_, kept.queued_act inv acted, kept.live_act inv acted, ?_⟩
  · rw [Function.update_self]
    exact (kept.direction action.side).act (inv.pump action.side) acted
  · have before := kept.direction action.side.other
    rw [Side.other_other] at before ⊢
    rw [Function.update_of_ne (Side.other_ne action.side),
      ConnectionImpl.writeQueue_act_other acted]
    exact before.same (inv.pump action.side.other)
      (ConnectionImpl.same_act (inv.apart action.side) acted)
  · rw [ConnectionImpl.undefined_act acted kept.queue_ne_nil]
    exact kept.defined

end Bookkept

/-! ## Every byte once and in order -/

/-- The loop of a pump relays what it reads: chunk by chunk, each written in full before
the next read, and with the handler call that belongs to it. -/
structure RelaysOnce (zero : β) (conn : ConnectionImpl β) (side : Side)
    (direction : Direction β) : Prop where
  read : (conn.socket side).read = direction.chunks.flatten
  handed : direction.handed.map Handed.bytes <+: direction.chunks
  sent : direction.sent <+: direction.handedBytes
  /-- On the opposite socket arrives what the loop sent, and what the other pump wrote there
  when it started. -/
  written : ∃ greeted, greeted <+: startUpBuffer zero ∧
    Interleaves greeted direction.sent (conn.socket side.other).written
  handled : direction.handled <+: direction.handed.map Handed.handling
  complete : conn.pump side = .loopTop ∨ conn.pump side = .reading →
    direction.handed.map Handed.bytes = direction.chunks ∧
      direction.sent = direction.chunks.flatten ∧
        direction.handled = direction.handed.map Handed.handling
  live : ∀ block, (conn.pump side).block = some block → conn.Live block

theorem Bookkept.relays {conn : ConnectionImpl β} {directions : Side → Direction β}
    {greeted : Side → List β} (kept : Bookkept conn directions)
    (inv : conn.Inv zero greeted fun side => (directions side).sent) (side : Side) :
    RelaysOnce zero conn side (directions side) := by
  obtain ⟨read, chunks, written⟩ := kept.direction side
  obtain ⟨sent, handled⟩ := written.prefixes
  have arrived := inv.written side.other
  rw [Side.other_other] at arrived
  refine ⟨read, ⟨_, chunks.symm⟩, sent, ⟨_, (inv.pump side.other).greeted_initial, arrived⟩,
    handled, fun atLoop => ?_, kept.live side⟩
  have here : (conn.view side).pc = conn.pump side := rfl
  have complete : (directions side).Complete ∧ (conn.view side).unhanded = [] := by
    rcases atLoop with pc | pc
    all_goals
      simp only [Direction.Written, here, pc] at written
      exact ⟨written.1, by simp only [PumpView.unhanded, here, pc]⟩
  rw [complete.2, List.append_nil] at chunks
  refine ⟨chunks.symm, ?_, complete.1.handled⟩
  rw [complete.1.sent, Direction.handedBytes, List.flatMap_def, ← chunks]

/-- A step of a pump keeps the bookkeeping, and what the loops have sent is what the pumps have
relayed. -/
theorem Bookkept.act_sent {conn next : ConnectionImpl β} {directions : Side → Direction β}
    {greeted : Side → List β} {action : PumpAction β} (kept : Bookkept conn directions)
    (inv : conn.Inv zero greeted fun side => (directions side).sent)
    (acted : conn.act zero action = some next) :
    let after := Function.update directions action.side
      ((directions action.side).after conn action next)
    Bookkept next after ∧ ∃ greeted, next.Inv zero greeted fun side => (after side).sent := by
  refine ⟨kept.act inv acted, ?_⟩
  obtain ⟨moreGreeted, moreRelayed, -, arrived, invNext⟩ := inv.act acted
  obtain ⟨more, sent, written⟩ := (directions action.side).sent_after acted
  have same : moreRelayed = more := List.append_cancel_left (arrived.symm.trans written)
  have relayed : (fun side => (Function.update directions action.side
      ((directions action.side).after conn action next) side).sent) =
        Function.update (fun side => (directions side).sent) action.side
          ((directions action.side).sent ++ moreRelayed) := by
    rw [same, ← sent]
    exact funext (Function.apply_update (fun _ direction => direction.sent) directions
      action.side _)
  exact ⟨_, relayed ▸ invNext⟩

/-- **Every byte once and in order.** In every interleaving of the two pumps each of them
relays what it reads chunk by chunk to the opposite socket, from blocks that are still
allocated, and each handler call takes off the entry of the chunk that was just written. -/
theorem relaysOnce (zero : β) {s : ConnectionImpl β × (Side → Direction β)}
    (reached : (recordedMachine zero).Reachable s) :
    (∀ side, RelaysOnce zero s.1 side (s.2 side)) ∧ s.1.undefined = false := by
  obtain ⟨kept, greeted, inv⟩ : Bookkept s.1 s.2 ∧
      ∃ greeted, s.1.Inv zero greeted fun side => (s.2 side).sent := by
    refine Machine.invariant
      (I := fun s => Bookkept s.1 s.2 ∧ ∃ greeted, s.1.Inv zero greeted fun side => (s.2 side).sent)
      ⟨?_, _, inv_init⟩ ?_ reached
    · refine ⟨fun side => ⟨rfl, rfl, ⟨rfl, rfl⟩, rfl⟩, fun side entry member => ?_,
        fun side block holds => ?_, rfl⟩
      · cases member
      · cases holds
    · rintro s action t ⟨kept, greeted, inv⟩ stepped
      obtain ⟨next, acted, rfl⟩ := Machine.recording_step_eq_some.mp stepped
      exact kept.act_sent inv acted
  exact ⟨kept.relays inv, kept.defined⟩

/-- The chunk `7 8` is read from `srcSocket` and written to `destSocket` in two parts. -/
def relayOneChunk : List (PumpAction UInt8) :=
  [.resume .src, .step .src, .resume .dest, .writes .src 512, .step .src, .step .src, .step .dest,
    .reads .src (.pair 7 8), .step .src, .step .src, .step .src, .step .src, .step .src,
    .writes .src 1, .writes .src 1, .step .src]

section OneChunk

-- the start-up buffer has 512 elements
set_option maxRecDepth 8000

theorem relaysOnce_oneChunk :
    ∃ s, (recordedMachine (0 : UInt8)).exec (recordedMachine 0).init relayOneChunk = some s ∧
      (∀ side, RelaysOnce 0 s.1 side (s.2 side)) ∧ s.1.undefined = false :=
  ⟨_, rfl, relaysOnce 0 ⟨relayOneChunk, rfl⟩⟩

end OneChunk

end BookFilerSsh.Port
