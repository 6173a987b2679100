import BookFilerSsh.Lib.Machine
import Mathlib.Data.List.Basic
import Mathlib.Logic.Function.Basic

/-!
# The two pumps of a forwarded connection

`port::ConnectionImpl::run` and `run2` as coroutines that run statement by
statement. `run` reads from `srcSocket` and writes to `destSocket`, `run2` the
other way round, and otherwise they are the same, so both are `pumpStep` at the
side they read from. Each begins by writing 512 zero bytes to the socket it reads
from.

A composed `async_write` stays outstanding over any number of partial writes. The
bytes it writes are taken from its buffer when they are written, so a buffer
another statement writes into would show. Buffers are blocks of a heap:
`asio_handler_allocate` returns a block that is disjoint from all others, and the
blocks that were pushed to a queue and not popped yet are in the queue. Popping an
empty queue has no defined behaviour and is recorded in `undefined`.
-/

set_option autoImplicit false

namespace BookFilerSsh.Port

/-- The two ends of a forwarded connection. -/
inductive Side where
  | src
  | dest
  deriving DecidableEq, Repr

namespace Side

def other : Side → Side
  | .src => .dest
  | .dest => .src

@[simp] theorem other_other (side : Side) : side.other.other = side := by cases side <;> rfl

@[simp] theorem other_ne (side : Side) : side.other ≠ side := by cases side <;> simp [other]

@[simp] theorem ne_other (side : Side) : side ≠ side.other := by cases side <;> simp [other]

theorem eq_other {side another : Side} (different : another ≠ side) : another = side.other := by
  cases side <;> cases another <;> simp_all [other]

/-- What holds of one side and of the other holds of both. -/
theorem both {P : Side → Prop} (side : Side) (own : P side) (opposite : P side.other) :
    ∀ another, P another := by
  intro another
  by_cases same : another = side
  · exact same ▸ own
  · exact eq_other same ▸ opposite

end Side

/-- A socket, with the bytes read from it and the bytes that arrived on it. The
descriptor is named by its position among the accepted ones or the connected ones. -/
structure Socket (β : Type) where
  descriptor : ℕ := 0
  isOpen : Bool := true
  read : List β := []
  written : List β := []

/-- A block of memory and the sizes it was deallocated with. -/
structure Block (β : Type) where
  size : ℕ
  data : List β := []
  deallocated : List ℕ := []

/-- The position of a pump. -/
inductive PumpPc (β : Type) where
  | unspawned
  /-- queued by `boost::asio::spawn`, not started -/
  | spawned
  /-- before the `async_write` of the zero bytes -/
  | starting
  /-- parked in it, with the bytes still to write -/
  | greeting (rest : List β)
  | greeted (ec : Bool)
  /-- at the head of the loop, before `async_read_some` -/
  | loopTop
  /-- parked in `async_read_some` -/
  | reading
  | readDone (bytesTransferred : ℕ) (ec : Bool)
  /-- before `asio_handler_allocate` -/
  | received (bytesTransferred : ℕ)
  /-- before `memcpy` -/
  | allocated (block bytesTransferred : ℕ)
  /-- before the push to the write queue -/
  | copied (block bytesTransferred : ℕ)
  /-- before `async_write` -/
  | pushed (block bytesTransferred : ℕ)
  /-- parked in it, with the number of bytes written -/
  | writing (block bytesTransferred done : ℕ)
  | written (ec : Bool)
  | returned
  deriving DecidableEq, Repr

/-- `port::ConnectionImpl`, with the positions of its two coroutines. The members
that come in pairs are named by their side. -/
structure ConnectionImpl (β : Type) where
  socket : Side → Socket β := fun _ => {}
  connId : Option UInt32 := none
  readBuffer : Side → List β := fun _ => []
  writeQueue : Side → List (ℕ × ℕ) := fun _ => []
  heap : List (Block β) := []
  undefined : Bool := false
  pump : Side → PumpPc β := fun _ => .unspawned

/-- `read_buffer_length`. -/
def readBufferLength : ℕ := 1500

/-- How an `async_read_some` completes. -/
inductive ReadEnd (β : Type) where
  | data (bytes : List β) (nonempty : bytes ≠ []) (fits : bytes.length ≤ readBufferLength)
  | failed

/-- A read of one byte. -/
def ReadEnd.byte {β : Type} (b : β) : ReadEnd β :=
  .data [b] (List.concat_ne_nil b []) (Nat.le_add_left 1 1499)

/-- A read of two bytes. -/
def ReadEnd.pair {β : Type} (b c : β) : ReadEnd β :=
  .data [b, c] (List.cons_ne_nil b [c]) (Nat.le_add_left 2 1498)

theorem map_nonempty {β γ : Type} (f : β → γ) {bytes : List β} (nonempty : bytes ≠ []) :
    bytes.map f ≠ [] := by
  simpa using nonempty

theorem map_fits {β γ : Type} (f : β → γ) {bytes : List β}
    (fits : bytes.length ≤ readBufferLength) : (bytes.map f).length ≤ readBufferLength := by
  simpa using fits

/-- The same completion with other bytes. -/
def ReadEnd.map {β γ : Type} (f : β → γ) : ReadEnd β → ReadEnd γ
  | .data bytes nonempty fits => .data (bytes.map f) (map_nonempty f nonempty) (map_fits f fits)
  | .failed => .failed

/-- `boost::array<char, 512> buf = {{0}}`. -/
def startUpBuffer {β : Type} (zero : β) : List β := List.replicate 512 zero

namespace ConnectionImpl

variable {β : Type}

def setPump (conn : ConnectionImpl β) (side : Side) (pc : PumpPc β) : ConnectionImpl β :=
  { conn with pump := Function.update conn.pump side pc }

def setSocket (conn : ConnectionImpl β) (side : Side) (socket : Socket β) : ConnectionImpl β :=
  { conn with socket := Function.update conn.socket side socket }

/-- `srcSocket.close(); destSocket.close();` -/
def closeSockets (conn : ConnectionImpl β) : ConnectionImpl β :=
  { conn with socket := fun side => { conn.socket side with isOpen := false } }

/-- Bytes arrive on a socket. -/
def arrive (conn : ConnectionImpl β) (side : Side) (bytes : List β) : ConnectionImpl β :=
  conn.setSocket side
    { conn.socket side with written := (conn.socket side).written ++ bytes }

/-- `async_read_some` fills the read buffer from its beginning. -/
def fill (conn : ConnectionImpl β) (side : Side) (bytes : List β) : ConnectionImpl β :=
  { conn.setSocket side
      { conn.socket side with read := (conn.socket side).read ++ bytes } with
    readBuffer := Function.update conn.readBuffer side
      (bytes ++ (conn.readBuffer side).drop bytes.length) }

/-- `asio_handler_allocate(size)`: the block is a new one. -/
def allocate (conn : ConnectionImpl β) (size : ℕ) : ConnectionImpl β :=
  { conn with heap := conn.heap ++ [{ size := size }] }

/-- `std::memcpy` from a read buffer to the beginning of a block. -/
def copy (conn : ConnectionImpl β) (side : Side) (block size : ℕ) : ConnectionImpl β :=
  { conn with
    heap := conn.heap.modify block fun record =>
      { record with data := (conn.readBuffer side).take size ++ record.data.drop size } }

/-- A push to a write queue. -/
def push (conn : ConnectionImpl β) (side : Side) (block size : ℕ) : ConnectionImpl β :=
  { conn with
    writeQueue := Function.update conn.writeQueue side (conn.writeQueue side ++ [(block, size)]) }

/-- The bytes of the `async_write` buffer that begins at a block. -/
def buffer (conn : ConnectionImpl β) (block size : ℕ) : List β :=
  (conn.heap[block]?.elim [] Block.data).take size

/-- The handler of a write queue: its front is popped and deallocated, and on an
error the sockets are closed. -/
def writeHandler (side : Side) (conn : ConnectionImpl β) (ec : Bool) : ConnectionImpl β :=
  let handled :=
    match conn.writeQueue side with
    | (block, size) :: rest =>
        { conn with
          writeQueue := Function.update conn.writeQueue side rest
          heap := conn.heap.modify block fun record =>
            { record with deallocated := record.deallocated ++ [size] } }
    | [] => { conn with undefined := true }
  if ec then handled.closeSockets else handled

@[simp] theorem pump_writeHandler (conn : ConnectionImpl β) (side : Side) (ec : Bool) :
    (conn.writeHandler side ec).pump = conn.pump := by
  unfold writeHandler
  split <;> split <;> rfl

/-- Without an error the handlers close nothing. -/
@[simp] theorem socket_writeHandler (conn : ConnectionImpl β) (side : Side) :
    (conn.writeHandler side false).socket = conn.socket := by
  unfold writeHandler
  split <;> rfl

/-- `ConnectionImpl::src_write_handler`. -/
def srcWriteHandler (conn : ConnectionImpl β) (ec : Bool) : ConnectionImpl β :=
  conn.writeHandler .src ec

/-- `ConnectionImpl::dest_write_handler`. -/
def destWriteHandler (conn : ConnectionImpl β) (ec : Bool) : ConnectionImpl β :=
  conn.writeHandler .dest ec

/-- The next statement of the pump that reads from `side`. -/
def pumpStep (zero : β) (side : Side) (conn : ConnectionImpl β) : Option (ConnectionImpl β) :=
  match conn.pump side with
  | .starting => some (conn.setPump side (.greeting (startUpBuffer zero)))
  | .greeted ec => some (conn.setPump side (if ec then .returned else .loopTop))
  | .loopTop => some (conn.setPump side .reading)
  | .readDone bytesTransferred ec =>
      some (conn.setPump side (if ec then .returned else .received bytesTransferred))
  | .received bytesTransferred =>
      some ((conn.allocate bytesTransferred).setPump side
        (.allocated conn.heap.length bytesTransferred))
  | .allocated block bytesTransferred =>
      some ((conn.copy side block bytesTransferred).setPump side (.copied block bytesTransferred))
  | .copied block bytesTransferred =>
      some ((conn.push side.other block bytesTransferred).setPump side
        (.pushed block bytesTransferred))
  | .pushed block bytesTransferred =>
      some (conn.setPump side (.writing block bytesTransferred 0))
  | .written ec =>
      if ec then some (conn.setPump side .returned)
      else some ((conn.writeHandler side.other ec).setPump side .loopTop)
  | _ => none

/-- `ConnectionImpl::run`. -/
def run (zero : β) (conn : ConnectionImpl β) : Option (ConnectionImpl β) :=
  conn.pumpStep zero .src

/-- `ConnectionImpl::run2`. -/
def run2 (zero : β) (conn : ConnectionImpl β) : Option (ConnectionImpl β) :=
  conn.pumpStep zero .dest

/-- A thread takes a spawned pump up. -/
def pumpResume (side : Side) (conn : ConnectionImpl β) : Option (ConnectionImpl β) :=
  match conn.pump side with
  | .spawned => some (conn.setPump side .starting)
  | _ => none

/-- The completion of the `async_read_some` in progress. -/
def pumpRead (side : Side) (completion : ReadEnd β) (conn : ConnectionImpl β) :
    Option (ConnectionImpl β) :=
  match conn.pump side with
  | .reading =>
      match completion with
      | .data bytes _ _ => some ((conn.fill side bytes).setPump side (.readDone bytes.length false))
      | .failed => some (conn.setPump side (.readDone 0 true))
  | _ => none

/-- A partial write of the `async_write` in progress writes `count` bytes. The
composed write completes with its last byte. -/
def pumpWrites (side : Side) (count : ℕ) (conn : ConnectionImpl β) : Option (ConnectionImpl β) :=
  match conn.pump side with
  | .greeting rest =>
      if 0 < count ∧ count ≤ rest.length then
        some ((conn.arrive side (rest.take count)).setPump side
          (if count = rest.length then .greeted false else .greeting (rest.drop count)))
      else none
  | .writing block bytesTransferred done =>
      if 0 < count ∧ done + count ≤ bytesTransferred then
        some ((conn.arrive side.other
            (((conn.buffer block bytesTransferred).drop done).take count)).setPump side
          (if done + count = bytesTransferred then .written false
           else .writing block bytesTransferred (done + count)))
      else none
  | _ => none

/-- The `async_write` in progress completes with an error. -/
def pumpFails (side : Side) (conn : ConnectionImpl β) : Option (ConnectionImpl β) :=
  match conn.pump side with
  | .greeting _ => some (conn.setPump side (.greeted true))
  | .writing _ _ _ => some (conn.setPump side (.written true))
  | _ => none

end ConnectionImpl

/-- A statement of a pump, or what happens to one from outside. -/
inductive PumpAction (β : Type) where
  | step (side : Side)
  | resume (side : Side)
  | reads (side : Side) (completion : ReadEnd β)
  | writes (side : Side) (count : ℕ)
  | fails (side : Side)

/-- The pump an action is about, named by the side it reads from. -/
def PumpAction.side {β : Type} : PumpAction β → Side
  | .step side | .resume side | .reads side _ | .writes side _ | .fails side => side

/-- The effect of an action on a connection. -/
def ConnectionImpl.act {β : Type} (zero : β) (conn : ConnectionImpl β) :
    PumpAction β → Option (ConnectionImpl β)
  | .step .src => conn.run zero
  | .step .dest => conn.run2 zero
  | .resume side => conn.pumpResume side
  | .reads side completion => conn.pumpRead side completion
  | .writes side count => conn.pumpWrites side count
  | .fails side => conn.pumpFails side

theorem ConnectionImpl.act_step {β : Type} (zero : β) (conn : ConnectionImpl β) (side : Side) :
    conn.act zero (.step side) = conn.pumpStep zero side := by
  cases side <;> rfl

/-! ## What a step can do -/

/-- The last socket operation of the pump ended with an error, which the pump has not
looked at yet. -/
def PumpPc.Failed {β : Type} : PumpPc β → Prop
  | .greeted ec | .readDone _ ec | .written ec => ec = true
  | _ => False

namespace ConnectionImpl

variable {β : Type} {zero : β}

/-- The kinds of steps a pump has. -/
inductive Moves (zero : β) (conn : ConnectionImpl β) : PumpAction β → ConnectionImpl β → Prop where
  | resumes {side : Side} (pc : conn.pump side = .spawned) :
      Moves zero conn (.resume side) (conn.setPump side .starting)
  | starts {side : Side} (pc : conn.pump side = .starting) :
      Moves zero conn (.step side) (conn.setPump side (.greeting (startUpBuffer zero)))
  | enters {side : Side} (pc : conn.pump side = .greeted false) :
      Moves zero conn (.step side) (conn.setPump side .loopTop)
  | returns {side : Side} (failed : (conn.pump side).Failed) :
      Moves zero conn (.step side) (conn.setPump side .returned)
  | awaits {side : Side} (pc : conn.pump side = .loopTop) :
      Moves zero conn (.step side) (conn.setPump side .reading)
  | receives {side : Side} {n : ℕ} (pc : conn.pump side = .readDone n false) :
      Moves zero conn (.step side) (conn.setPump side (.received n))
  | allocates {side : Side} {n : ℕ} (pc : conn.pump side = .received n) :
      Moves zero conn (.step side)
        ((conn.allocate n).setPump side (.allocated conn.heap.length n))
  | copies {side : Side} {block n : ℕ} (pc : conn.pump side = .allocated block n) :
      Moves zero conn (.step side) ((conn.copy side block n).setPump side (.copied block n))
  | pushes {side : Side} {block n : ℕ} (pc : conn.pump side = .copied block n) :
      Moves zero conn (.step side)
        ((conn.push side.other block n).setPump side (.pushed block n))
  | sends {side : Side} {block n : ℕ} (pc : conn.pump side = .pushed block n) :
      Moves zero conn (.step side) (conn.setPump side (.writing block n 0))
  | handles {side : Side} (pc : conn.pump side = .written false) :
      Moves zero conn (.step side) ((conn.writeHandler side.other false).setPump side .loopTop)
  | reads {side : Side} {bytes : List β} {nonempty : bytes ≠ []}
      {fits : bytes.length ≤ readBufferLength} (pc : conn.pump side = .reading) :
      Moves zero conn (.reads side (.data bytes nonempty fits))
        ((conn.fill side bytes).setPump side (.readDone bytes.length false))
  | readFails {side : Side} (pc : conn.pump side = .reading) :
      Moves zero conn (.reads side .failed) (conn.setPump side (.readDone 0 true))
  | greets {side : Side} {count : ℕ} {rest : List β} (pc : conn.pump side = .greeting rest)
      (progress : 0 < count ∧ count ≤ rest.length) :
      Moves zero conn (.writes side count) ((conn.arrive side (rest.take count)).setPump side
        (if count = rest.length then .greeted false else .greeting (rest.drop count)))
  | writes {side : Side} {count block n done : ℕ} (pc : conn.pump side = .writing block n done)
      (progress : 0 < count ∧ done + count ≤ n) :
      Moves zero conn (.writes side count) ((conn.arrive side.other
        (((conn.buffer block n).drop done).take count)).setPump side
          (if done + count = n then .written false else .writing block n (done + count)))
  | greetingFails {side : Side} {rest : List β} (pc : conn.pump side = .greeting rest) :
      Moves zero conn (.fails side) (conn.setPump side (.greeted true))
  | writingFails {side : Side} {block n done : ℕ} (pc : conn.pump side = .writing block n done) :
      Moves zero conn (.fails side) (conn.setPump side (.written true))

/-- **Every step of a pump is one of these.** -/
theorem act_moves {conn next : ConnectionImpl β} {action : PumpAction β}
    (acted : conn.act zero action = some next) : Moves zero conn action next := by
  cases action with
  | step side =>
      rw [act_step] at acted
      unfold pumpStep at acted
      split at acted
      next pc =>
        cases acted
        exact .starts pc
      next ec pc =>
        cases ec <;> cases acted
        · exact .enters pc
        · exact .returns (by rw [pc]; rfl)
      next pc =>
        cases acted
        exact .awaits pc
      next n ec pc =>
        cases ec <;> cases acted
        · exact .receives pc
        · exact .returns (by rw [pc]; rfl)
      next n pc =>
        cases acted
        exact .allocates pc
      next block n pc =>
        cases acted
        exact .copies pc
      next block n pc =>
        cases acted
        exact .pushes pc
      next block n pc =>
        cases acted
        exact .sends pc
      next ec pc =>
        cases ec <;> cases acted
        · exact .handles pc
        · exact .returns (by rw [pc]; rfl)
      next => cases acted
  | resume side =>
      simp only [act, pumpResume] at acted
      split at acted <;> cases acted
      next pc => exact .resumes pc
  | reads side completion =>
      simp only [act, pumpRead] at acted
      split at acted
      next pc =>
        cases completion <;> cases acted
        · exact .reads pc
        · exact .readFails pc
      next => cases acted
  | writes side count =>
      simp only [act, pumpWrites] at acted
      split at acted
      next rest pc =>
        split at acted <;> cases acted
        next progress => exact .greets pc progress
      next block n done pc =>
        split at acted <;> cases acted
        next progress => exact .writes pc progress
      next => cases acted
  | fails side =>
      simp only [act, pumpFails] at acted
      split at acted <;> cases acted
      next rest pc => exact .greetingFails pc
      next block n done pc => exact .writingFails pc

end ConnectionImpl

end BookFilerSsh.Port
