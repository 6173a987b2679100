import BookFilerSsh.Lib.Streams
import BookFilerSsh.Lib.Tables
import BookFilerSsh.Port.Connection

/-!
# What a forwarded connection writes to its sockets

Two pumps write to each socket: the one that reads from it writes its zero bytes
when it starts, the other one relays. Whatever the pumps read, however their
writes are cut and in whatever order they run, the bytes that have arrived on a
socket are an interleaving of a prefix of the 512 zero bytes and a prefix of the
bytes read from the other socket (`written_interleaves`).

The invariant follows one pump at a time (`PumpView.Inv`): the bytes read from its
side are those it relayed and those still in its read buffer, in its block or in
the rest of its write. A step of the other pump does not reach any of these
(`ConnectionImpl.same_act`), since the two pumps never hold the same block.
-/

set_option autoImplicit false

namespace BookFilerSsh.Port

open Lib Lib.Tables

variable {β : Type} {zero : β}

/-- The block a pump holds. -/
def PumpPc.block : PumpPc β → Option ℕ
  | .allocated block _ | .copied block _ | .pushed block _ | .writing block _ _ => some block
  | _ => none

/-- What a pump works on: its position, what it read, its read buffer and the
contents of the heap. -/
structure PumpView (β : Type) where
  pc : PumpPc β
  read : List β
  readBuffer : List β
  heap : List (List β)

def ConnectionImpl.view (conn : ConnectionImpl β) (side : Side) : PumpView β where
  pc := conn.pump side
  read := (conn.socket side).read
  readBuffer := conn.readBuffer side
  heap := conn.heap.map Block.data

/-! ## The invariant of a pump -/

namespace PumpView

/-- The beginning of a block. -/
def buffer (view : PumpView β) (block size : ℕ) : List β :=
  (view.heap[block]?.getD []).take size

/-- The bytes a pump has read and not written yet. -/
def pending (view : PumpView β) : List β :=
  match view.pc with
  | .readDone bytesTransferred _ | .received bytesTransferred | .allocated _ bytesTransferred =>
      view.readBuffer.take bytesTransferred
  | .copied block bytesTransferred | .pushed block bytesTransferred =>
      view.buffer block bytesTransferred
  | .writing block bytesTransferred done => (view.buffer block bytesTransferred).drop done
  | _ => []

/-- How much of the zero bytes a pump has written. -/
def Greeted (zero : β) (greeted : List β) (view : PumpView β) : Prop :=
  match view.pc with
  | .unspawned | .spawned | .starting => greeted = []
  | .greeting rest => greeted ++ rest = startUpBuffer zero
  | _ => greeted <+: startUpBuffer zero

/-- What a pump that has relayed `relayed` has read. A pump whose write failed
gives up the bytes it held. -/
def Relayed (relayed : List β) (view : PumpView β) : Prop :=
  match view.pc with
  | .written true | .returned => relayed <+: view.read
  | _ => view.read = relayed ++ view.pending

/-- The chunk a pump has read is in its read buffer. -/
def Filled (view : PumpView β) : Prop :=
  match view.pc with
  | .readDone bytesTransferred _ | .received bytesTransferred | .allocated _ bytesTransferred =>
      bytesTransferred ≤ view.readBuffer.length
  | _ => True

/-- The invariant of one pump, with the zero bytes it wrote to its own side and the
bytes it relayed to the other one. -/
structure Inv (zero : β) (view : PumpView β) (greeted relayed : List β) : Prop where
  greeted : view.Greeted zero greeted
  relayed : view.Relayed relayed
  filled : view.Filled
  owned : ∀ block, view.pc.block = some block → block < view.heap.length

theorem Inv.greeted_initial {view : PumpView β} {greeted relayed : List β}
    (inv : view.Inv zero greeted relayed) : greeted <+: startUpBuffer zero := by
  have greets := inv.greeted
  unfold Greeted at greets
  split at greets
  · exact greets ▸ List.nil_prefix
  · exact greets ▸ List.nil_prefix
  · exact greets ▸ List.nil_prefix
  · exact ⟨_, greets⟩
  · exact greets

/-- What a pump has relayed it has read. -/
theorem Inv.relayed_initial {view : PumpView β} {greeted relayed : List β}
    (inv : view.Inv zero greeted relayed) : relayed <+: view.read := by
  have relays := inv.relayed
  unfold Relayed at relays
  split at relays
  · exact relays
  · exact relays
  · exact ⟨_, relays.symm⟩

/-- What a step of the other pump leaves alone. -/
structure Same (view next : PumpView β) : Prop where
  pc : next.pc = view.pc
  read : next.read = view.read
  readBuffer : next.readBuffer = view.readBuffer
  heap : view.heap.length ≤ next.heap.length
  data : ∀ block, view.pc.block = some block → block < view.heap.length →
    next.heap[block]? = view.heap[block]?

theorem Same.refl (view : PumpView β) : Same view view :=
  ⟨rfl, rfl, rfl, Nat.le_refl _, fun _ _ _ => rfl⟩

/-- **A step of the other pump keeps the invariant of a pump.** -/
theorem Inv.same {view next : PumpView β} {greeted relayed : List β}
    (inv : view.Inv zero greeted relayed) (same : Same view next) :
    next.Inv zero greeted relayed := by
  obtain ⟨greets, relays, filled, owned⟩ := inv
  have buffer : ∀ block size, view.pc.block = some block →
      next.buffer block size = view.buffer block size := by
    intro block size holds
    rw [PumpView.buffer, PumpView.buffer, same.data block holds (owned block holds)]
  have pending : next.pending = view.pending := by
    simp only [PumpView.pending, same.pc, same.readBuffer]
    cases pc : view.pc with
    | copied block n | pushed block n => exact buffer block n (by rw [pc]; rfl)
    | writing block n done => simp only [buffer block n (by rw [pc]; rfl)]
    | _ => rfl
  refine ⟨?_, ?_, ?_, fun block holds => ?_⟩
  · rw [Greeted, same.pc]
    exact greets
  · rw [Relayed, same.pc, same.read, pending]
    exact relays
  · rw [Filled, same.pc, same.readBuffer]
    exact filled
  · exact Nat.lt_of_lt_of_le (owned block (same.pc ▸ holds)) same.heap

end PumpView

/-! ## A step of a pump, seen from the other side -/

namespace ConnectionImpl

open PumpView (Same)

@[simp] theorem view_setPump_other (conn : ConnectionImpl β) (side : Side) (pc : PumpPc β) :
    (conn.setPump side pc).view side.other = conn.view side.other := by
  simp [view, setPump]

@[simp] theorem view_setPump (conn : ConnectionImpl β) (side : Side) (pc : PumpPc β) :
    (conn.setPump side pc).view side = { conn.view side with pc := pc } := by
  simp [view, setPump]

@[simp] theorem view_arrive (conn : ConnectionImpl β) (socket side : Side) (bytes : List β) :
    (conn.arrive socket bytes).view side = conn.view side := by
  by_cases here : side = socket
  · subst here
    simp [view, arrive, setSocket]
  · simp [view, arrive, setSocket, here]

@[simp] theorem view_fill_other (conn : ConnectionImpl β) (side : Side) (bytes : List β) :
    (conn.fill side bytes).view side.other = conn.view side.other := by
  simp [view, fill, setSocket]

@[simp] theorem view_fill (conn : ConnectionImpl β) (side : Side) (bytes : List β) :
    (conn.fill side bytes).view side =
      { conn.view side with
        read := (conn.socket side).read ++ bytes
        readBuffer := bytes ++ (conn.readBuffer side).drop bytes.length } := by
  simp [view, fill, setSocket]

@[simp] theorem view_allocate (conn : ConnectionImpl β) (side : Side) (size : ℕ) :
    (conn.allocate size).view side =
      { conn.view side with heap := (conn.view side).heap ++ [[]] } := by
  simp [view, allocate]

@[simp] theorem view_copy (conn : ConnectionImpl β) (from_ side : Side) (block size : ℕ) :
    (conn.copy from_ block size).view side =
      { conn.view side with
        heap := (conn.view side).heap.modify block fun data =>
          (conn.readBuffer from_).take size ++ data.drop size } := by
  simp only [view, copy, PumpView.mk.injEq, true_and]
  exact map_modify_of (g := Block.data)
    (f := fun record =>
      { record with data := (conn.readBuffer from_).take size ++ record.data.drop size })
    (h := fun data => (conn.readBuffer from_).take size ++ data.drop size) (fun _ => rfl) _ _

@[simp] theorem view_push (conn : ConnectionImpl β) (queue side : Side) (block size : ℕ) :
    (conn.push queue block size).view side = conn.view side := rfl

/-- The handler of a write queue changes nothing a pump works on. -/
@[simp] theorem view_writeHandler (conn : ConnectionImpl β) (queue side : Side) (ec : Bool) :
    (conn.writeHandler queue ec).view side = conn.view side := by
  have contents : ∀ block size : ℕ, (conn.heap.modify block fun record =>
      { record with deallocated := record.deallocated ++ [size] }).map Block.data =
        conn.heap.map Block.data := fun block size =>
    map_modify_of_eq (g := Block.data)
      (f := fun record => { record with deallocated := record.deallocated ++ [size] })
      (fun _ => rfl) _ _
  unfold writeHandler
  split <;> split <;> simp [view, closeSockets, contents]

/-- **A step of a pump leaves the other side alone**, when the pumps hold different
blocks. -/
theorem same_act {conn next : ConnectionImpl β} {action : PumpAction β}
    (apart : ∀ block, (conn.pump action.side.other).block = some block →
      (conn.pump action.side).block ≠ some block)
    (acted : conn.act zero action = some next) :
    Same (conn.view action.side.other) (next.view action.side.other) := by
  cases act_moves acted with
  | allocates pc =>
      simp only [PumpAction.side, view_setPump_other, view_allocate]
      exact ⟨rfl, rfl, rfl, by simp, fun block _ owned => by
        simp [List.getElem?_append_left owned]⟩
  | @copies side block n pc =>
      simp only [PumpAction.side, view_setPump_other, view_copy] at apart ⊢
      refine ⟨rfl, rfl, rfl, by simp, fun other holds _ => ?_⟩
      have different : block ≠ other := fun same =>
        apart other holds (by rw [pc, same]; rfl)
      simp [different]
  | _ => simpa [PumpAction.side] using Same.refl _

/-! ## A step of a pump, seen from its own side -/

@[simp] theorem socket_setPump (conn : ConnectionImpl β) (side : Side) (pc : PumpPc β) :
    (conn.setPump side pc).socket = conn.socket := rfl

@[simp] theorem written_fill (conn : ConnectionImpl β) (side socket : Side) (bytes : List β) :
    ((conn.fill side bytes).socket socket).written = (conn.socket socket).written := by
  by_cases here : socket = side
  · subst here
    simp [fill, setSocket]
  · simp [fill, setSocket, here]

@[simp] theorem written_arrive (conn : ConnectionImpl β) (side : Side) (bytes : List β) :
    ((conn.arrive side bytes).socket side).written = (conn.socket side).written ++ bytes := by
  simp [arrive, setSocket]

@[simp] theorem written_arrive_other (conn : ConnectionImpl β) (side : Side) (bytes : List β) :
    ((conn.arrive side bytes).socket side.other).written = (conn.socket side.other).written := by
  simp [arrive, setSocket]

/-- A partial write of the start-up `async_write` of a pump. -/
def Greets (conn : ConnectionImpl β) : PumpAction β → Prop
  | .writes side _ => ∃ rest, conn.pump side = .greeting rest
  | _ => False

/-- What a step of a pump adds to its two sockets. -/
structure Adds (zero : β) (conn next : ConnectionImpl β) (side : Side)
    (greeted relayed moreGreeted moreRelayed : List β) : Prop where
  inv : (next.view side).Inv zero (greeted ++ moreGreeted) (relayed ++ moreRelayed)
  own : (next.socket side).written = (conn.socket side).written ++ moreGreeted
  other : (next.socket side.other).written = (conn.socket side.other).written ++ moreRelayed

/-- A step that writes nothing. -/
theorem Adds.nothing {conn next : ConnectionImpl β} {side : Side} {greeted relayed : List β}
    (inv : (next.view side).Inv zero greeted relayed)
    (written : ∀ socket, (next.socket socket).written = (conn.socket socket).written) :
    Adds zero conn next side greeted relayed [] [] :=
  ⟨by simpa using inv, by simp [written], by simp [written]⟩

theorem view_buffer (conn : ConnectionImpl β) (side : Side) (block size : ℕ) :
    (conn.view side).buffer block size = conn.buffer block size := by
  simp only [PumpView.buffer, buffer, view, List.getElem?_map]
  cases conn.heap[block]? <;> rfl

/-- `memcpy` moves the pending bytes from the read buffer to the block. -/
theorem buffer_copy {conn : ConnectionImpl β} {side : Side} {block n : ℕ}
    (owned : block < conn.heap.length) (filled : n ≤ (conn.readBuffer side).length) :
    (conn.copy side block n).buffer block n = (conn.readBuffer side).take n := by
  have found : (conn.copy side block n).heap[block]? = some
      { conn.heap[block] with
        data := (conn.readBuffer side).take n ++ conn.heap[block].data.drop n } := by
    simp [copy, owned]
  rw [buffer, found]
  exact List.take_left' (List.length_take_of_le filled)

/-- A partial write of a chunk relays the next of its bytes. -/
theorem adds_writes {conn : ConnectionImpl β} {side : Side} {count block n done : ℕ}
    {greeted relayed : List β} (inv : (conn.view side).Inv zero greeted relayed)
    (pc : conn.pump side = .writing block n done) :
    Adds zero conn ((conn.arrive side.other
      (((conn.buffer block n).drop done).take count)).setPump side
        (if done + count = n then .written false else .writing block n (done + count))) side
      greeted relayed [] (((conn.buffer block n).drop done).take count) := by
  obtain ⟨greets, relays, filled, owned⟩ := inv
  have here : (conn.view side).pc = conn.pump side := rfl
  simp only [PumpView.Greeted, PumpView.Relayed, PumpView.pending, here, pc, view_buffer]
    at greets relays owned
  refine ⟨⟨?_, ?_, ?_, ?_⟩, ?_, ?_⟩
  · split <;> simpa [PumpView.Greeted] using greets
  · split
    next whole =>
      have all : ((conn.buffer block n).drop done).take count = (conn.buffer block n).drop done :=
        List.take_of_length_le (by simp [buffer]; omega)
      simp [PumpView.Relayed, PumpView.pending, all, relays]
    next =>
      rw [view_setPump, view_arrive]
      show (conn.view side).read = relayed ++ ((conn.buffer block n).drop done).take count ++
        ((conn.view side).buffer block n).drop (done + count)
      rw [view_buffer, relays, List.append_assoc, ← List.drop_drop, List.take_append_drop]
  · split <;> simp [PumpView.Filled]
  · split
    next => simp [PumpPc.block]
    next => simpa [PumpPc.block] using owned
  · simpa using written_arrive_other conn side.other (((conn.buffer block n).drop done).take count)
  · simp

/-- A partial write of the zero bytes. -/
theorem adds_greets {conn : ConnectionImpl β} {side : Side} {count : ℕ} {rest : List β}
    {greeted relayed : List β} (inv : (conn.view side).Inv zero greeted relayed)
    (pc : conn.pump side = .greeting rest) :
    Adds zero conn ((conn.arrive side (rest.take count)).setPump side
      (if count = rest.length then .greeted false else .greeting (rest.drop count))) side
      greeted relayed (rest.take count) [] := by
  obtain ⟨greets, relays, -, -⟩ := inv
  have here : (conn.view side).pc = conn.pump side := rfl
  simp only [PumpView.Greeted, PumpView.Relayed, PumpView.pending, here, pc] at greets relays
  refine ⟨⟨?_, ?_, ?_, ?_⟩, by simp, by simp⟩
  · split
    next whole =>
      have all : rest.take count = rest := List.take_of_length_le (by omega)
      simp [PumpView.Greeted, all, greets]
    next => simp [PumpView.Greeted, greets]
  · split <;> simpa [PumpView.Relayed, PumpView.pending] using relays
  · split <;> simp [PumpView.Filled]
  · split <;> simp [PumpPc.block]

/-- A step that is no partial write leaves the bytes where they count the same. -/
theorem inv_quiet {conn next : ConnectionImpl β} {action : PumpAction β} {greeted relayed : List β}
    (inv : (conn.view action.side).Inv zero greeted relayed)
    (acted : conn.act zero action = some next) (quiet : ∀ side count, action ≠ .writes side count) :
    (next.view action.side).Inv zero greeted relayed := by
  have started := inv.greeted_initial
  have prefixed := inv.relayed_initial
  obtain ⟨greets, relays, filled, owned⟩ := inv
  have here : ∀ side, (conn.view side).pc = conn.pump side := fun _ => rfl
  cases act_moves acted with
  | resumes pc | starts pc | enters pc | awaits pc | handles pc | readFails pc =>
      simp only [PumpView.Greeted, PumpView.Relayed, PumpView.pending, PumpAction.side, here, pc]
        at greets relays ⊢
      refine ⟨?_, ?_, by simp [PumpView.Filled], by simp [PumpPc.block]⟩
      · simpa [PumpView.Greeted] using greets
      · simpa [PumpView.Relayed, PumpView.pending] using relays
  | greetingFails pc | writingFails pc =>
      simp only [PumpView.Greeted, PumpView.Relayed, PumpView.pending, PumpAction.side, here, pc]
        at greets relays ⊢
      rw [view_setPump]
      refine ⟨?_, ?_, by simp [PumpView.Filled], by simp [PumpPc.block]⟩
      · first | exact greets | exact ⟨_, greets⟩
      · first | exact ⟨_, relays.symm⟩ | simpa [PumpView.Relayed, PumpView.pending] using relays
  | returns failed =>
      rw [PumpAction.side, view_setPump]
      exact ⟨started, prefixed, trivial, by simp [PumpPc.block]⟩
  | @reads side bytes nonempty fits pc =>
      simp only [PumpView.Greeted, PumpView.Relayed, PumpView.pending, PumpAction.side, here, pc,
        List.append_nil] at greets relays ⊢
      have read : (conn.socket side).read = relayed := relays
      refine ⟨?_, ?_, by simp [PumpView.Filled], by simp [PumpPc.block]⟩
      · simpa [PumpView.Greeted] using greets
      · simp [PumpView.Relayed, PumpView.pending, read]
  | receives pc =>
      simp only [PumpView.Greeted, PumpView.Relayed, PumpView.pending, PumpView.Filled,
        PumpAction.side, here, pc] at greets relays filled ⊢
      refine ⟨?_, ?_, ?_, by simp [PumpPc.block]⟩
      · simpa [PumpView.Greeted] using greets
      · simpa [PumpView.Relayed, PumpView.pending] using relays
      · simpa [PumpView.Filled] using filled
  | allocates pc =>
      simp only [PumpView.Greeted, PumpView.Relayed, PumpView.pending, PumpView.Filled,
        PumpAction.side, here, pc] at greets relays filled ⊢
      refine ⟨?_, ?_, ?_, ?_⟩
      · simpa [PumpView.Greeted] using greets
      · simpa [PumpView.Relayed, PumpView.pending] using relays
      · simpa [PumpView.Filled] using filled
      · rw [view_setPump, view_allocate]
        simp [PumpPc.block, view]
  | @copies side block n pc =>
      simp only [PumpView.Greeted, PumpView.Relayed, PumpView.pending, PumpView.Filled,
        PumpAction.side, here, pc] at greets relays filled owned ⊢
      have inside : block < conn.heap.length := by simpa [view] using owned block rfl
      refine ⟨?_, ?_, by simp [PumpView.Filled], ?_⟩
      · simpa [PumpView.Greeted] using greets
      · rw [view_setPump]
        show (conn.view side).read = relayed ++ ((conn.copy side block n).view side).buffer block n
        rw [relays, view_buffer, buffer_copy inside filled]
        rfl
      · simpa [PumpPc.block] using owned
  | @pushes side block n pc | @sends side block n pc =>
      simp only [PumpView.Greeted, PumpView.Relayed, PumpView.pending, PumpAction.side, here, pc]
        at greets relays owned ⊢
      refine ⟨?_, ?_, by simp [PumpView.Filled], ?_⟩
      · simpa [PumpView.Greeted] using greets
      · simpa [PumpView.Relayed, PumpView.pending, PumpView.buffer] using relays
      · simpa [PumpPc.block] using owned
  | greets _ _ | writes _ _ => exact absurd rfl (quiet _ _)

/-- **What a step writes**: a start-up write adds to the socket of its pump, any
other partial write to the other socket, and no other step adds to either. -/
theorem adds_act {conn next : ConnectionImpl β} {action : PumpAction β} {greeted relayed : List β}
    (inv : (conn.view action.side).Inv zero greeted relayed)
    (acted : conn.act zero action = some next) :
    ∃ moreGreeted moreRelayed, (moreGreeted = [] ↔ ¬ conn.Greets action) ∧
      Adds zero conn next action.side greeted relayed moreGreeted moreRelayed := by
  cases act_moves acted with
  | @greets side count rest pc progress =>
      have some : rest.take count ≠ [] := by
        intro none
        have := congrArg List.length none
        simp only [List.length_take, List.length_nil] at this
        omega
      exact ⟨_, _, by simp [Greets, pc, some], adds_greets inv pc⟩
  | writes pc progress => exact ⟨_, _, by simp [Greets, pc], adds_writes inv pc⟩
  | _ =>
      refine ⟨[], [], by simp [Greets], .nothing (inv_quiet inv acted (by simp)) fun _ => ?_⟩
      simp [copy, allocate, push]

/-! ## The invariant of a connection -/

/-- The invariant of a connection, with the zero bytes each pump has written to its
own socket and the bytes it has relayed to the other one. -/
structure Inv (zero : β) (conn : ConnectionImpl β) (greeted relayed : Side → List β) : Prop where
  pump : ∀ side, (conn.view side).Inv zero (greeted side) (relayed side)
  apart : ∀ side block, (conn.pump side.other).block = some block →
    (conn.pump side).block ≠ some block
  written : ∀ side, Interleaves (greeted side) (relayed side.other) (conn.socket side).written

/-- A pump keeps its block or holds a new one. -/
theorem block_act {conn next : ConnectionImpl β} {action : PumpAction β}
    (acted : conn.act zero action = some next) {block : ℕ}
    (holds : (next.pump action.side).block = some block) :
    (conn.pump action.side).block = some block ∨ block = conn.heap.length := by
  cases act_moves acted with
  | greets pc progress =>
      simp only [PumpAction.side, setPump, Function.update_self] at holds
      split at holds <;> cases holds
  | writes pc progress =>
      simp only [PumpAction.side, setPump, Function.update_self] at holds ⊢
      rw [pc]
      split at holds
      next => cases holds
      next => exact .inl holds
  | _ => simp_all [PumpAction.side, setPump, PumpPc.block]

theorem Inv.act {conn next : ConnectionImpl β} {action : PumpAction β}
    {greeted relayed : Side → List β} (inv : conn.Inv zero greeted relayed)
    (acted : conn.act zero action = some next) :
    ∃ moreGreeted moreRelayed, (moreGreeted = [] ↔ ¬ conn.Greets action) ∧
      (next.socket action.side.other).written =
        (conn.socket action.side.other).written ++ moreRelayed ∧
      next.Inv zero
        (Function.update greeted action.side (greeted action.side ++ moreGreeted))
        (Function.update relayed action.side (relayed action.side ++ moreRelayed)) := by
  obtain ⟨moreGreeted, moreRelayed, greets, adds⟩ := adds_act (inv.pump action.side) acted
  have same := same_act (inv.apart action.side) acted
  have otherPump : next.pump action.side.other = conn.pump action.side.other := same.pc
  have apart : ∀ block, (next.pump action.side).block = some block →
      (next.pump action.side.other).block ≠ some block := by
    intro block holds otherHolds
    rw [otherPump] at otherHolds
    rcases block_act acted holds with held | new
    · exact inv.apart action.side block otherHolds held
    · have inside := (inv.pump action.side.other).owned block otherHolds
      simp [view, new] at inside
  refine ⟨moreGreeted, moreRelayed, greets, adds.other, Side.both action.side ?_ ?_,
    Side.both action.side ?_ ?_, Side.both action.side ?_ ?_⟩
  · simpa using adds.inv
  · simpa using (inv.pump action.side.other).same same
  · exact fun block holds held => apart block held holds
  · intro block holds
    rw [Side.other_other] at holds
    exact apart block holds
  · rw [adds.own]
    simpa using (inv.written action.side).append_left moreGreeted
  · rw [adds.other]
    simpa using (inv.written action.side.other).append_right moreRelayed

end ConnectionImpl

/-! ## Runs -/

/-- A published connection with both pumps spawned, and what can happen to it. -/
def pumpMachine (zero : β) : Machine (ConnectionImpl β) (PumpAction β) where
  init := { pump := fun _ => .spawned }
  step := ConnectionImpl.act zero

/-- The invariant of a new connection. -/
theorem inv_init : (pumpMachine zero).init.Inv zero (fun _ => []) fun _ => [] where
  pump _ := ⟨rfl, rfl, trivial, by simp [pumpMachine, ConnectionImpl.view, PumpPc.block]⟩
  apart _ _ holds := by cases holds
  written _ := .nil

theorem exists_inv {conn : ConnectionImpl β} (reached : (pumpMachine zero).Reachable conn) :
    ∃ greeted relayed, conn.Inv zero greeted relayed := by
  refine Machine.invariant (I := fun conn => ∃ greeted relayed, conn.Inv zero greeted relayed)
    ⟨_, _, inv_init⟩ ?_ reached
  rintro conn action next ⟨greeted, relayed, inv⟩ acted
  obtain ⟨_, _, _, _, kept⟩ := inv.act acted
  exact ⟨_, _, kept⟩

/-- **What has arrived on a socket**: some of the zero bytes and some of the bytes
read from the other socket, each in order. -/
theorem written_interleaves {conn : ConnectionImpl β} (reached : (pumpMachine zero).Reachable conn)
    (side : Side) :
    ∃ greeted relayed, greeted <+: startUpBuffer zero ∧
      relayed <+: (conn.socket side.other).read ∧
        Interleaves greeted relayed (conn.socket side).written := by
  obtain ⟨greeted, relayed, inv⟩ := exists_inv reached
  exact ⟨greeted side, relayed side.other, (inv.pump side).greeted_initial,
    (inv.pump side.other).relayed_initial, inv.written side⟩

end BookFilerSsh.Port
