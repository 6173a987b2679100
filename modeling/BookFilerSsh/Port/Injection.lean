import BookFilerSsh.Port.Relay

/-!
# The port forwarder injects bytes

Each pump writes 512 zero bytes to the socket it reads from before it relays
anything, where the log says that it writes nothing. What arrives on a socket is a
prefix of what was read from the other one exactly as long as no byte of such a
start-up write has been written (`injectsNothing_throughout_iff`).

A zero byte of the forwarder and a zero byte of a peer are told apart by their
origin: the runs here carry the sender of each byte along. Without the origins
they are the runs of the plain forwarder (`bytes_exec`).
-/

set_option autoImplicit false

namespace BookFilerSsh.Port

open Lib

/-! ## Bytes with their senders -/

/-- Who sent a byte. -/
inductive Origin where
  | forwarder
  | peer (side : Side)
  deriving DecidableEq, Repr

/-- A byte and its sender. -/
structure Sent where
  byte : UInt8
  origin : Origin
  deriving DecidableEq, Repr

/-- An element of the start-up buffer. -/
def Sent.zero : Sent := ⟨0, .forwarder⟩

/-- The same action on other bytes. -/
def PumpAction.map {β γ : Type} (f : Side → β → γ) : PumpAction β → PumpAction γ
  | .step side => .step side
  | .resume side => .resume side
  | .reads side completion => .reads side (completion.map (f side))
  | .writes side count => .writes side count
  | .fails side => .fails side

/-- What is read from a socket was sent by the peer on that side. -/
def PumpAction.traced : PumpAction UInt8 → PumpAction Sent :=
  PumpAction.map fun side byte => ⟨byte, .peer side⟩

/-- The runs of a connection, with the sender of each byte. -/
def tracedMachine : Machine (ConnectionImpl Sent) (PumpAction UInt8) where
  init := (pumpMachine Sent.zero).init
  step conn action := conn.act Sent.zero action.traced

/-! ## The origins are only carried along -/

section Forget

variable {β γ : Type} (f : β → γ)

def Socket.map (socket : Socket β) : Socket γ :=
  { socket with read := socket.read.map f, written := socket.written.map f }

def Block.map (block : Block β) : Block γ :=
  { block with data := block.data.map f }

def PumpPc.map : PumpPc β → PumpPc γ
  | .unspawned => .unspawned
  | .spawned => .spawned
  | .starting => .starting
  | .greeting rest => .greeting (rest.map f)
  | .greeted ec => .greeted ec
  | .loopTop => .loopTop
  | .reading => .reading
  | .readDone n ec => .readDone n ec
  | .received n => .received n
  | .allocated block n => .allocated block n
  | .copied block n => .copied block n
  | .pushed block n => .pushed block n
  | .writing block n done => .writing block n done
  | .written ec => .written ec
  | .returned => .returned

def ConnectionImpl.map (conn : ConnectionImpl β) : ConnectionImpl γ where
  socket side := (conn.socket side).map f
  connId := conn.connId
  readBuffer side := (conn.readBuffer side).map f
  writeQueue := conn.writeQueue
  heap := conn.heap.map (Block.map f)
  undefined := conn.undefined
  pump side := (conn.pump side).map f

namespace ConnectionImpl

@[simp] theorem map_setPump (conn : ConnectionImpl β) (side : Side) (pc : PumpPc β) :
    (conn.setPump side pc).map f = (conn.map f).setPump side (pc.map f) := by
  simp only [map, setPump, mk.injEq, true_and]
  funext another
  by_cases here : another = side
  · subst here
    simp
  · simp [here]

@[simp] theorem map_arrive (conn : ConnectionImpl β) (side : Side) (bytes : List β) :
    (conn.arrive side bytes).map f = (conn.map f).arrive side (bytes.map f) := by
  simp only [map, arrive, setSocket, mk.injEq, and_true]
  funext another
  by_cases here : another = side
  · subst here
    simp [Socket.map]
  · simp [here]

@[simp] theorem map_fill (conn : ConnectionImpl β) (side : Side) (bytes : List β) :
    (conn.fill side bytes).map f = (conn.map f).fill side (bytes.map f) := by
  simp only [map, fill, setSocket, mk.injEq, true_and, and_true]
  constructor <;> funext another <;> by_cases here : another = side
  · subst here
    simp [Socket.map]
  · simp [here]
  · subst here
    simp
  · simp [here]

@[simp] theorem map_allocate (conn : ConnectionImpl β) (size : ℕ) :
    (conn.allocate size).map f = (conn.map f).allocate size := by
  simp [map, allocate, Block.map]

@[simp] theorem map_copy (conn : ConnectionImpl β) (side : Side) (block size : ℕ) :
    (conn.copy side block size).map f = (conn.map f).copy side block size := by
  simp only [map, copy, mk.injEq, true_and, and_true]
  exact Tables.map_modify_of (g := Block.map f)
    (f := fun record =>
      { record with data := (conn.readBuffer side).take size ++ record.data.drop size })
    (h := fun record =>
      { record with
        data := ((conn.readBuffer side).map f).take size ++ record.data.drop size })
    (fun record => by simp [Block.map]) _ _

@[simp] theorem map_push (conn : ConnectionImpl β) (side : Side) (block size : ℕ) :
    (conn.push side block size).map f = (conn.map f).push side block size := rfl

theorem map_buffer (conn : ConnectionImpl β) (block size : ℕ) :
    (conn.buffer block size).map f = (conn.map f).buffer block size := by
  simp only [buffer, map, List.getElem?_map]
  cases conn.heap[block]? <;> simp [Block.map]

@[simp] theorem map_writeHandler (conn : ConnectionImpl β) (side : Side) (ec : Bool) :
    (conn.writeHandler side ec).map f = (conn.map f).writeHandler side ec := by
  have deallocates : ∀ block size : ℕ, (conn.heap.modify block fun record =>
      { record with deallocated := record.deallocated ++ [size] }).map (Block.map f) =
        (conn.heap.map (Block.map f)).modify block fun record =>
          { record with deallocated := record.deallocated ++ [size] } := fun block size =>
    Tables.map_modify_of (g := Block.map f)
      (f := fun record => { record with deallocated := record.deallocated ++ [size] })
      (h := fun record => { record with deallocated := record.deallocated ++ [size] })
      (fun _ => rfl) _ _
  have queue : (conn.map f).writeQueue = conn.writeQueue := rfl
  unfold writeHandler
  rw [queue]
  split <;> cases ec <;> simp [map, closeSockets, Socket.map, deallocates]

@[simp] theorem pump_map (conn : ConnectionImpl β) (side : Side) :
    (conn.map f).pump side = (conn.pump side).map f := rfl

@[simp] theorem length_heap_map (conn : ConnectionImpl β) :
    (conn.map f).heap.length = conn.heap.length := List.length_map _

end ConnectionImpl

@[simp] theorem map_startUpBuffer (zero : β) :
    (startUpBuffer zero).map f = startUpBuffer (f zero) := List.map_replicate

/-- The start-up buffer and the bytes read go through the pumps unseen. -/
theorem ConnectionImpl.act_map (zero : β) (conn : ConnectionImpl β) (action : PumpAction β) :
    (conn.act zero action).map (map f) = (conn.map f).act (f zero) (action.map fun _ => f) := by
  cases action with
  | step side =>
      rw [PumpAction.map, act_step, act_step]
      unfold pumpStep
      rw [pump_map]
      cases conn.pump side with
      | starting => simp [PumpPc.map]
      | greeted ec | readDone _ ec => cases ec <;> simp [PumpPc.map]
      | received _ => simp [PumpPc.map]
      | written ec => cases ec <;> simp [PumpPc.map]
      | _ => simp [PumpPc.map]
  | resume side =>
      simp only [act, PumpAction.map, pumpResume, pump_map]
      cases conn.pump side <;> simp [PumpPc.map]
  | reads side completion =>
      simp only [act, PumpAction.map, pumpRead, pump_map]
      cases conn.pump side with
      | reading => cases completion <;> simp [PumpPc.map, ReadEnd.map]
      | _ => simp [PumpPc.map]
  | writes side count =>
      simp only [act, PumpAction.map, pumpWrites, pump_map]
      cases conn.pump side with
      | greeting rest =>
          simp only [PumpPc.map, List.length_map]
          split
          · rw [Option.map_some, map_setPump, map_arrive]
            split <;> simp [PumpPc.map]
          · rfl
      | writing block n done =>
          simp only [PumpPc.map]
          split
          · rw [Option.map_some, map_setPump, map_arrive]
            split <;> simp [PumpPc.map, map_buffer]
          · rfl
      | _ => simp [PumpPc.map]
  | fails side =>
      simp only [act, PumpAction.map, pumpFails, pump_map]
      cases conn.pump side <;> simp [PumpPc.map]

end Forget

/-- **Without the origins, a run is a run of the plain forwarder.** -/
theorem bytes_exec (conn : ConnectionImpl Sent) (actions : List (PumpAction UInt8)) :
    (tracedMachine.exec conn actions).map (ConnectionImpl.map Sent.byte) =
      (pumpMachine 0).exec (conn.map Sent.byte) actions := by
  have step : ∀ (conn : ConnectionImpl Sent) (action : PumpAction UInt8),
      (tracedMachine.step conn action).map (ConnectionImpl.map Sent.byte) =
        (pumpMachine 0).step (conn.map Sent.byte) action := by
    intro conn action
    have forgotten : action.traced.map (fun _ => Sent.byte) = action := by
      cases action with
      | reads side completion =>
          cases completion <;> simp [PumpAction.traced, PumpAction.map, ReadEnd.map,
            Function.comp_def]
      | _ => rfl
    have mapped := ConnectionImpl.act_map Sent.byte Sent.zero conn action.traced
    rw [forgotten] at mapped
    exact mapped
  induction actions generalizing conn with
  | nil => rfl
  | cons action rest ih =>
      rw [Machine.exec_cons, Machine.exec_cons, ← step]
      cases tracedMachine.step conn action with
      | none => rfl
      | some next => exact ih next

/-! ## What the forwarder adds -/

/-- The stream written to each socket is a prefix of the stream read from the other
one. -/
def InjectsNothing (conn : ConnectionImpl Sent) : Prop :=
  ∀ side, (conn.socket side).written <+: (conn.socket side.other).read

namespace ConnectionImpl

variable {β : Type} {zero : β}

@[simp] theorem read_arrive (conn : ConnectionImpl β) (socket side : Side) (bytes : List β) :
    ((conn.arrive socket bytes).socket side).read = (conn.socket side).read := by
  by_cases here : side = socket
  · subst here
    simp [arrive, setSocket]
  · simp [arrive, setSocket, here]

theorem mem_read_fill {conn : ConnectionImpl β} {from_ side : Side} {bytes : List β} {x : β}
    (member : x ∈ ((conn.fill from_ bytes).socket side).read) :
    x ∈ (conn.socket side).read ∨ from_ = side ∧ x ∈ bytes := by
  by_cases here : side = from_
  · subst here
    simpa [fill, setSocket] using member
  · exact .inl (by simpa [fill, setSocket, here] using member)

/-- A start-up `async_write` can make progress. -/
theorem exists_pumpWrites {conn : ConnectionImpl β} {side : Side} {rest : List β}
    (pc : conn.pump side = .greeting rest) (unwritten : 0 < rest.length) :
    ∃ next, conn.pumpWrites side 1 = some next := by
  have progress : 0 < 1 ∧ 1 ≤ rest.length := ⟨Nat.one_pos, unwritten⟩
  simp only [pumpWrites, pc, if_pos progress]
  exact ⟨_, rfl⟩

/-- Only a completed `async_read_some` adds to what was read. -/
theorem read_act {conn next : ConnectionImpl β} {action : PumpAction β}
    (acted : conn.act zero action = some next) {side : Side} {x : β}
    (member : x ∈ (next.socket side).read) :
    x ∈ (conn.socket side).read ∨
      ∃ bytes nonempty fits, action = .reads side (.data bytes nonempty fits) ∧ x ∈ bytes := by
  cases act_moves acted with
  | reads pc =>
      rcases mem_read_fill member with old | ⟨rfl, new⟩
      · exact .inl old
      · exact .inr ⟨_, _, _, rfl, new⟩
  | _ => exact .inl (by simpa [copy, allocate, push] using member)

end ConnectionImpl

/-- The invariant of a traced run: that of the pumps, and the bytes read from a
socket are those of its peer. -/
structure Traced (conn : ConnectionImpl Sent) (greeted relayed : Side → List Sent) : Prop where
  inv : conn.Inv Sent.zero greeted relayed
  read : ∀ side, ∀ sent ∈ (conn.socket side).read, sent.origin = .peer side

namespace Traced

variable {conn next : ConnectionImpl Sent} {greeted relayed : Side → List Sent}

/-- Only the start-up writes inject. -/
theorem injectsNothing_iff (traced : Traced conn greeted relayed) :
    InjectsNothing conn ↔ ∀ side, greeted side = [] := by
  constructor
  · intro nothing side
    refine List.eq_nil_iff_forall_not_mem.mpr fun sent member => ?_
    have written : sent ∈ (conn.socket side).written :=
      ((traced.inv.written side).mem_iff sent).mpr (.inl member)
    have fromPeer := traced.read side.other sent ((nothing side).subset written)
    have fromForwarder : sent = Sent.zero :=
      List.eq_of_mem_replicate ((traced.inv.pump side).greeted_initial.subset member)
    rw [fromForwarder] at fromPeer
    cases fromPeer
  · intro none side
    have written := traced.inv.written side
    rw [none side] at written
    rw [written.eq_right]
    exact (traced.inv.pump side.other).relayed_initial

theorem act {action : PumpAction UInt8} (traced : Traced conn greeted relayed)
    (acted : tracedMachine.step conn action = some next) :
    ∃ moreGreeted moreRelayed, (moreGreeted = [] ↔ ¬ conn.Greets action.traced) ∧
      Traced next
        (Function.update greeted action.traced.side (greeted action.traced.side ++ moreGreeted))
        moreRelayed := by
  obtain ⟨moreGreeted, moreRelayed, greets, -, inv⟩ := traced.inv.act acted
  refine ⟨moreGreeted, _, greets, inv, fun side sent member => ?_⟩
  rcases ConnectionImpl.read_act acted member with old | ⟨bytes, nonempty, fits, reads, new⟩
  · exact traced.read side sent old
  · cases action with
    | reads from_ completion =>
        cases completion with
        | data raw rawNonempty rawFits =>
            injection reads with fromSide data
            injection data with bytesEq
            rw [← bytesEq, List.mem_map] at new
            obtain ⟨_, _, rfl⟩ := new
            rw [fromSide]
        | failed => cases reads
    | _ => cases reads

end Traced

/-- The invariant of every traced run. -/
theorem exists_traced {conn : ConnectionImpl Sent} (reached : tracedMachine.Reachable conn) :
    ∃ greeted relayed, Traced conn greeted relayed := by
  have initial : Traced tracedMachine.init (fun _ => []) fun _ => [] :=
    ⟨inv_init, fun _ _ member => by cases member⟩
  refine Machine.invariant (I := fun conn => ∃ greeted relayed, Traced conn greeted relayed)
    ⟨_, _, initial⟩ ?_ reached
  rintro conn action next ⟨greeted, relayed, traced⟩ acted
  obtain ⟨_, _, _, kept⟩ := traced.act acted
  exact ⟨_, _, kept⟩

/-- **Exactly when the forwarder injects nothing**: as long as no byte of a start-up
`async_write` has been written. -/
theorem injectsNothing_throughout_iff (actions : List (PumpAction UInt8)) :
    tracedMachine.Throughout InjectsNothing tracedMachine.init actions ↔
      tracedMachine.Guarded (fun conn action => ¬ conn.Greets action.traced)
        tracedMachine.init actions := by
  refine Machine.throughout_iff_guarded ?_ ?_ ?_ actions
  · exact fun _ => List.prefix_rfl
  · intro conn action next reached nothing guarded acted
    obtain ⟨greeted, relayed, traced⟩ := exists_traced reached
    obtain ⟨moreGreeted, _, greets, kept⟩ := traced.act acted
    have none := traced.injectsNothing_iff.mp nothing
    refine kept.injectsNothing_iff.mpr fun side => ?_
    by_cases own : side = action.traced.side
    · subst own
      simp [none, greets.mpr guarded]
    · simp [own, none]
  · intro conn action next reached against acted nothing
    obtain ⟨greeted, relayed, traced⟩ := exists_traced reached
    obtain ⟨moreGreeted, _, greets, kept⟩ := traced.act acted
    have none := kept.injectsNothing_iff.mp nothing action.traced.side
    rw [Function.update_self, List.append_eq_nil_iff] at none
    exact greets.mp none.2 (not_not.mp against)

/-- **The first write of the forwarder injects a byte**: nothing has been read yet. -/
theorem not_injectsNothing_startUp :
    ¬ ∀ actions, tracedMachine.Throughout InjectsNothing tracedMachine.init actions := by
  intro always
  have guarded := (injectsNothing_throughout_iff _).mp
    (always [.resume .src, .step .src, .writes .src 1])
  obtain ⟨started, run⟩ : ∃ conn : ConnectionImpl Sent,
      tracedMachine.exec tracedMachine.init [.resume .src, .step .src] = some conn ∧
        conn.pump .src = .greeting (startUpBuffer Sent.zero) := ⟨_, rfl, rfl⟩
  have unwritten : 0 < (startUpBuffer Sent.zero).length := by
    rw [startUpBuffer, List.length_replicate]
    decide
  obtain ⟨next, wrote⟩ := ConnectionImpl.exists_pumpWrites run.2 unwritten
  exact guarded [.resume .src, .step .src] (.writes .src 1) [] started next rfl run.1 wrote
    ⟨_, run.2⟩

end BookFilerSsh.Port
