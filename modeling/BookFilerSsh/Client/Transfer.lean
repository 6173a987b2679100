import BookFilerSsh.Client.State
import Mathlib.Data.List.Basic

/-!
# Moving bytes through the command channel

`ClientImpl::send` and `ClientImpl::read` with the two loops they call. The
results of `libssh2_channel_write` and `libssh2_channel_read` are inputs: the
`call`-th write of one `send` returns `results call`.

`writeCommandChannel` hands the library the whole of `commandStr` on every
iteration, from its first byte (`writeLoop`). Its loop ends for any results,
since an iteration that goes on has increased `writtenBytes`.

The loop of `readCommandChannel` tests the variable `rc` of the function, which
the `int rc` of the body shadows and which stays zero (`outerRc`). So the body
runs once, and one call makes one `libssh2_channel_read`
(`readCommandChannel_cons`).
-/

set_option autoImplicit false

namespace BookFilerSsh

variable {β : Type}

/-! ## Writing -/

/-- What a run of `writeCommandChannel` leaves: its result, the client, and the
bytes the channel accepted during it. -/
structure WriteRun (β : Type) where
  state : WorkState
  client : ClientImpl β
  accepted : List β

namespace ClientImpl

/-- The bytes the channel accepts in a write of `commandStr` that returns
`result`. -/
def acceptedBy (client : ClientImpl β) (result : Int) : List β :=
  (client.commandStr.take client.commandStrLen).take result.toNat

/-- `writtenBytes += rc`. -/
def countWritten (client : ClientImpl β) (rc : Int) : ClientImpl β :=
  { client with writtenBytes := client.writtenBytes + rc.toNat }

/-- The test of the write loop. -/
def WritesAgain (client : ClientImpl β) (rc : Int) : Prop :=
  0 < rc ∧ client.writtenBytes < client.commandStrLen

instance (client : ClientImpl β) (rc : Int) : Decidable (client.WritesAgain rc) :=
  inferInstanceAs (Decidable (_ ∧ _))

/-- An iteration that goes on leaves less to write. -/
theorem WritesAgain.decreases {client : ClientImpl β} {rc : Int}
    (again : (client.countWritten rc).WritesAgain rc) :
    (client.countWritten rc).commandStrLen - (client.countWritten rc).writtenBytes <
      client.commandStrLen - client.writtenBytes := by
  obtain ⟨positive, below⟩ := again
  simp only [countWritten] at below ⊢
  omega

/-- The loop of `writeCommandChannel`, from its `call`-th iteration on. -/
def writeLoop (results : ℕ → Int) (client : ClientImpl β) (call : ℕ) : WriteRun β :=
  let rc := toInt (results call)
  let accepted := client.acceptedBy (results call)
  if rc < 0 then ⟨.STILL_WORKING, client, accepted⟩
  else if again : (client.countWritten rc).WritesAgain rc then
    let rest := writeLoop results (client.countWritten rc) (call + 1)
    { rest with accepted := accepted ++ rest.accepted }
  else ⟨.WORK_DONE, client.countWritten rc, accepted⟩
termination_by client.commandStrLen - client.writtenBytes
decreasing_by exact again.decreases

/-- The bytes accepted by the loop: those of its first write, then those of the
rest of the loop when it goes on. -/
theorem writeLoop_accepted (results : ℕ → Int) (client : ClientImpl β) (call : ℕ) :
    (writeLoop results client call).accepted =
      client.acceptedBy (results call) ++
        if (client.countWritten (toInt (results call))).WritesAgain (toInt (results call)) then
          (writeLoop results (client.countWritten (toInt (results call))) (call + 1)).accepted
        else [] := by
  rw [writeLoop]
  by_cases failed : toInt (results call) < 0
  · have stops : ¬ (client.countWritten (toInt (results call))).WritesAgain
        (toInt (results call)) := fun again => by
      have := again.1
      omega
    simp [failed, stops]
  · by_cases again : (client.countWritten (toInt (results call))).WritesAgain
        (toInt (results call)) <;> simp [failed, again]

/-- `ClientImpl::writeCommandChannel`. -/
def writeCommandChannel (results : ℕ → Int) (client : ClientImpl β) : WriteRun β :=
  writeLoop results { client with writtenBytes := 0 } 0

/-- The assignments of `ClientImpl::send` before it writes. -/
def loadCommand (client : ClientImpl β) (bufferStr : List β) (len : ℕ) : ClientImpl β :=
  { client with commandStr := bufferStr, commandStrLen := len, writtenBytes := 0 }

/-- `ClientImpl::send`: the result is `0` whatever `writeCommandChannel`
returned. -/
def send (results : ℕ → Int) (client : ClientImpl β) (bufferStr : List β) (len : ℕ) :
    Int × WriteRun β :=
  (0, writeCommandChannel results (client.loadCommand bufferStr len))

/-! ## Reading -/

end ClientImpl

/-- `sizeof(buffer)` in the read functions. -/
def readBufferSize : ℕ := 0x4001

/-- A result of `libssh2_channel_read`: some bytes in the buffer, or a code that
is zero or negative. -/
inductive ReadResult (β : Type) where
  | chunk (bytes : List β) (nonempty : bytes ≠ []) (fits : bytes.length ≤ readBufferSize)
  | code (rc : Int) (notPositive : rc ≤ 0)

namespace ReadResult

theorem zero_notPositive : (0 : Int) ≤ 0 := Int.le_refl 0

/-- A chunk of one byte. -/
def byte (b : β) : ReadResult β :=
  .chunk [b] (List.cons_ne_nil b []) (show 1 ≤ 0x4001 by decide)

/-- The same result with other bytes. -/
def map {γ : Type} (f : β → γ) : ReadResult β → ReadResult γ
  | .chunk bytes nonempty fits =>
      .chunk (bytes.map f) (by simpa using nonempty) (by simpa using fits)
  | .code rc notPositive => .code rc notPositive

/-- The value the call returns. -/
def rc : ReadResult β → Int
  | .chunk bytes _ _ => bytes.length
  | .code rc _ => rc

/-- The bytes the call puts into the buffer. -/
def bytes : ReadResult β → List β
  | .chunk bytes _ _ => bytes
  | .code _ _ => []

/-- The library returns as many bytes as its result says. -/
theorem toNat_rc (result : ReadResult β) : result.rc.toNat = result.bytes.length := by
  cases result with
  | chunk bytes _ _ => simp [ReadResult.bytes, rc]
  | code rc notPositive => simp only [ReadResult.bytes, ReadResult.rc, List.length_nil]; omega

theorem bytes_of_rc_neg {result : ReadResult β} (negative : result.rc < 0) :
    result.bytes = [] := by
  cases result with
  | chunk bytes _ _ => simp [rc] at negative; omega
  | code _ _ => rfl

end ReadResult

/-- The `rc` of `readCommandChannel` that its loop tests. It is set where it is
declared and nowhere else. -/
def outerRc : Int := 0

namespace ClientImpl

/-- `commandChannelReadStr.clear(); commandChannelReadLen = 0;` -/
def clearRead (client : ClientImpl β) : ClientImpl β :=
  { client with commandChannelReadStr := [], commandChannelReadLen := 0 }

/-- `commandChannelReadStr.append(buffer, rc)`. -/
def appendRead (client : ClientImpl β) (buffer : List β) (rc : Int) : ClientImpl β :=
  { client with commandChannelReadStr := client.commandChannelReadStr ++ buffer.take rc.toNat }

/-- `commandChannelReadLen += rc`. -/
def countRead (client : ClientImpl β) (rc : Int) : ClientImpl β :=
  { client with commandChannelReadLen := client.commandChannelReadLen + rc.toNat }

/-- The loop of `readCommandChannel`. It returns the results it did not use, or
nothing when it waits for a result that does not come. -/
def readLoop (client : ClientImpl β) :
    List (ReadResult β) → Option (WorkState × ClientImpl β × List (ReadResult β))
  | [] => none
  | result :: rest =>
      if result.rc < 0 then some (.STILL_WORKING, client, rest)
      else
        let read := (client.appendRead result.bytes result.rc).countRead result.rc
        if 0 < outerRc then readLoop read rest else some (.WORK_DONE, read, rest)

/-- `ClientImpl::readCommandChannel`. -/
def readCommandChannel (client : ClientImpl β) (results : List (ReadResult β)) :
    Option (WorkState × ClientImpl β × List (ReadResult β)) :=
  client.clearRead.readLoop results

/-- `ClientImpl::read`: the bytes and the length the caller gets. -/
def read (client : ClientImpl β) (results : List (ReadResult β)) :
    Option ((List β × ℕ) × ClientImpl β × List (ReadResult β)) :=
  (client.clearRead.readCommandChannel results).map fun run =>
    ((run.2.1.commandChannelReadStr, run.2.1.commandChannelReadLen), run.2.1, run.2.2)

/-- What the client holds after one `libssh2_channel_read`. -/
def afterRead (client : ClientImpl β) (result : ReadResult β) : ClientImpl β :=
  { client with
    commandChannelReadStr := result.bytes
    commandChannelReadLen := result.bytes.length }

/-- **One call makes one read.** -/
theorem readCommandChannel_cons (client : ClientImpl β) (result : ReadResult β)
    (rest : List (ReadResult β)) :
    client.readCommandChannel (result :: rest) =
      some (if result.rc < 0 then .STILL_WORKING else .WORK_DONE, client.afterRead result,
        rest) := by
  by_cases negative : result.rc < 0
  · simp [readCommandChannel, readLoop, clearRead, afterRead, negative,
      ReadResult.bytes_of_rc_neg negative]
  · simp [readCommandChannel, readLoop, clearRead, afterRead, appendRead, countRead, outerRc,
      negative, ReadResult.toNat_rc]

/-- `ClientImpl::read` hands its caller what one `libssh2_channel_read` returned. -/
theorem read_cons (client : ClientImpl β) (result : ReadResult β) (rest : List (ReadResult β)) :
    client.read (result :: rest) =
      some ((result.bytes, result.bytes.length), client.afterRead result, rest) := by
  simp [read, readCommandChannel_cons, clearRead, afterRead]

end ClientImpl

end BookFilerSsh
