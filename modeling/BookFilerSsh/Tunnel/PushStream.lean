import BookFilerSsh.Client.Transfer
import BookFilerSsh.Lib.Streams
import Mathlib.Order.Monotone.Basic

/-!
# The bytes a tunnel pushes into its channel

`ssh::ConnectionImpl::runPush` reads a chunk from the local socket and sends it,
until a read or a send fails. A round of the loop is the chunk that was read and
the results of the channel writes made for it.

The write loop restarts from the first byte of the chunk after every partial
write. So the channel accepts the chunks exactly as they were read if and only
if every write that resumes after a partial one accepts bytes that happen to be
the ones due at that offset (`pushesExactly_iff`). A chunk accepted by one write
is such a case (`ResumesExactly.of_whole`); two different bytes accepted one by
one are not (`not_pushesExactly_split`).
-/

set_option autoImplicit false

namespace BookFilerSsh

variable {β : Type}

/-- `ConnectionImpl::read_buffer_length`. -/
def readBufferLength : ℕ := 1500

/-- What a successful `srcSocket.async_read_some` into `src_read_buffer` reads. -/
structure SrcRead (β : Type) where
  bytes : List β
  nonempty : bytes ≠ []
  fits : bytes.length ≤ readBufferLength

/-- The same read with other bytes. -/
def SrcRead.map {γ : Type} (f : β → γ) (read : SrcRead β) : SrcRead γ where
  bytes := read.bytes.map f
  nonempty := by simpa using read.nonempty
  fits := by simpa using read.fits

/-- One round of `runPush`: the chunk read, and the result of each channel write
made while it is sent. -/
structure PushRound (β : Type) where
  read : SrcRead β
  results : ℕ → Int

/-- What a run of `runPush` leaves. -/
structure PushRun (β : Type) where
  rc : Int
  client : ClientImpl β
  accepted : List β

/-- `ConnectionImpl::runPush`. After the last round the next read reports an
error. -/
def runPush (client : ClientImpl β) : List (PushRound β) → PushRun β
  | [] => ⟨-1, client, []⟩
  | round :: rest =>
      let sent := client.send round.results round.read.bytes round.read.bytes.length
      if sent.1 < 0 then ⟨-1, sent.2.client, sent.2.accepted⟩
      else
        let later := runPush sent.2.client rest
        { later with accepted := sent.2.accepted ++ later.accepted }

namespace PushRound

/-- Each write accepts a nonempty prefix of what it is handed. -/
def AcceptsPrefixes (round : PushRound β) : Prop :=
  ∀ call, 0 < round.results call ∧ round.results call ≤ round.read.bytes.length

/-- The number of bytes accepted before the `call`-th write. -/
def acceptedBefore (round : PushRound β) : ℕ → ℕ
  | 0 => 0
  | call + 1 => round.acceptedBefore call + (round.results call).toNat

/-- Every write of the round, made while bytes are still due, accepts the bytes
of the chunk that come next: the chunk has, at the offset the earlier writes
reached, the same bytes as at its beginning. -/
def ResumesExactly (round : PushRound β) : Prop :=
  ∀ call, round.acceptedBefore call < round.read.bytes.length →
    round.read.bytes.take (round.results call).toNat <+:
      round.read.bytes.drop (round.acceptedBefore call)

/-- What the channel accepts in the round. -/
def accepted (round : PushRound β) (client : ClientImpl β) : List β :=
  (client.send round.results round.read.bytes round.read.bytes.length).2.accepted

end PushRound

/-- The channel accepts exactly the chunks read, in order. -/
def PushesExactly (client : ClientImpl β) (rounds : List (PushRound β)) : Prop :=
  (runPush client rounds).accepted = rounds.flatMap fun round => round.read.bytes

/-! ## One round -/

namespace PushRound

variable {round : PushRound β}

/-- The client inside the write loop of a round, before its `call`-th write. -/
structure Sending (round : PushRound β) (call : ℕ) (client : ClientImpl β) : Prop where
  str : client.commandStr = round.read.bytes
  len : client.commandStrLen = round.read.bytes.length
  written : client.writtenBytes = round.acceptedBefore call

theorem AcceptsPrefixes.toInt_eq (accepts : round.AcceptsPrefixes) (call : ℕ) :
    toInt (round.results call) = round.results call := by
  have bounds := accepts call
  have fits : round.read.bytes.length ≤ 1500 := round.read.fits
  exact toInt_of_small (by omega) (by omega)

theorem Sending.loadCommand (client : ClientImpl β) :
    round.Sending 0 { client.loadCommand round.read.bytes round.read.bytes.length with
      writtenBytes := 0 } where
  str := rfl
  len := rfl
  written := rfl

/-- One write of a round. -/
theorem Sending.countWritten (accepts : round.AcceptsPrefixes) {call : ℕ}
    {client : ClientImpl β} (sending : round.Sending call client) :
    round.Sending (call + 1) (client.countWritten (toInt (round.results call))) where
  str := sending.str
  len := sending.len
  written := by
    rw [accepts.toInt_eq call]
    simp only [ClientImpl.countWritten, acceptedBefore, sending.written]

theorem Sending.acceptedBy {call : ℕ} {client : ClientImpl β}
    (sending : round.Sending call client) :
    client.acceptedBy (round.results call) =
      round.read.bytes.take (round.results call).toNat := by
  simp only [ClientImpl.acceptedBy, sending.str, sending.len, List.take_length]

/-- After a write the loop goes on while bytes are due. -/
theorem Sending.writesAgain_iff (accepts : round.AcceptsPrefixes) {call : ℕ}
    {client : ClientImpl β} (sending : round.Sending (call + 1) client) :
    client.WritesAgain (toInt (round.results call)) ↔
      round.acceptedBefore (call + 1) < round.read.bytes.length := by
  rw [accepts.toInt_eq call, ClientImpl.WritesAgain, sending.written, sending.len]
  exact and_iff_right (accepts call).1

/-- The write loop of a round, unrolled once: its first write, and the rest of
the loop while bytes are due. -/
theorem Sending.writeLoop_accepted (accepts : round.AcceptsPrefixes) {call : ℕ}
    {client : ClientImpl β} (sending : round.Sending call client) :
    (ClientImpl.writeLoop round.results client call).accepted =
      round.read.bytes.take (round.results call).toNat ++
        if round.acceptedBefore (call + 1) < round.read.bytes.length then
          (ClientImpl.writeLoop round.results
            (client.countWritten (toInt (round.results call))) (call + 1)).accepted
        else [] := by
  have again := (sending.countWritten accepts).writesAgain_iff accepts
  rw [ClientImpl.writeLoop_accepted, sending.acceptedBy]
  simp only [again]

/-- From its `call`-th write on, the loop accepts at least what is due. -/
theorem Sending.due_le_accepted (accepts : round.AcceptsPrefixes) {call : ℕ}
    {client : ClientImpl β} (sending : round.Sending call client) :
    round.read.bytes.length - round.acceptedBefore call ≤
      (ClientImpl.writeLoop round.results client call).accepted.length := by
  induction due : round.read.bytes.length - round.acceptedBefore call using
    Nat.strongRecOn generalizing call client with
  | ind rest ih =>
      subst due
      have bounds := accepts call
      rw [sending.writeLoop_accepted accepts, List.length_append, List.length_take]
      split
      · rename_i more
        have later := ih _ (by simp only [acceptedBefore] at more ⊢; omega)
          (sending.countWritten accepts) rfl
        simp only [acceptedBefore] at later
        omega
      · rename_i enough
        simp only [acceptedBefore] at enough
        simp only [List.length_nil]
        omega

theorem acceptedBefore_mono (round : PushRound β) : Monotone round.acceptedBefore :=
  monotone_nat_of_le_succ fun _ => Nat.le_add_right _ _

/-- A stream that begins with the first `n` elements of `s` is the rest of `s`
from an offset on exactly when those elements recur there and the stream goes on
as the rest does. -/
theorem take_append_eq_drop_iff {s tail : List β} {n offset : ℕ} (within : n ≤ s.length) :
    s.take n ++ tail = s.drop offset ↔
      s.take n <+: s.drop offset ∧ tail = s.drop (offset + n) := by
  have takeLength : (s.take n).length = n := by rw [List.length_take]; omega
  constructor
  · intro same
    refine ⟨⟨tail, same⟩, ?_⟩
    rw [← List.drop_drop, ← same, List.drop_append_of_le_length (by omega), List.drop_of_length_le
      (by omega), List.nil_append]
  · rintro ⟨⟨rest, split⟩, tailEq⟩
    rw [tailEq, ← List.drop_drop, ← split, List.drop_append_of_le_length (by omega),
      List.drop_of_length_le (by omega), List.nil_append]

/-- From its `call`-th write on, the loop accepts exactly the rest of the chunk
if and only if every write from there on accepts the bytes due. -/
theorem Sending.writeLoop_exact_iff (accepts : round.AcceptsPrefixes) {call : ℕ}
    {client : ClientImpl β} (sending : round.Sending call client)
    (due : round.acceptedBefore call < round.read.bytes.length) :
    (ClientImpl.writeLoop round.results client call).accepted =
        round.read.bytes.drop (round.acceptedBefore call) ↔
      ∀ later, call ≤ later → round.acceptedBefore later < round.read.bytes.length →
        round.read.bytes.take (round.results later).toNat <+:
          round.read.bytes.drop (round.acceptedBefore later) := by
  induction rest : round.read.bytes.length - round.acceptedBefore call using
    Nat.strongRecOn generalizing call client with
  | ind rest ih =>
      subst rest
      have bounds := accepts call
      have nextOffset : round.acceptedBefore call + (round.results call).toNat =
          round.acceptedBefore (call + 1) := rfl
      rw [sending.writeLoop_accepted accepts, take_append_eq_drop_iff (by omega), nextOffset]
      have tailIff : (if round.acceptedBefore (call + 1) < round.read.bytes.length then
            (ClientImpl.writeLoop round.results
              (client.countWritten (toInt (round.results call))) (call + 1)).accepted
          else []) = round.read.bytes.drop (round.acceptedBefore (call + 1)) ↔
          ∀ later, call + 1 ≤ later → round.acceptedBefore later < round.read.bytes.length →
            round.read.bytes.take (round.results later).toNat <+:
              round.read.bytes.drop (round.acceptedBefore later) := by
        split
        · rename_i more
          exact ih _ (by omega) (sending.countWritten accepts) more rfl
        · rename_i enough
          rw [List.drop_of_length_le (by omega)]
          refine ⟨fun _ later after more => ?_, fun _ => rfl⟩
          have := round.acceptedBefore_mono after
          omega
      rw [tailIff]
      constructor
      · rintro ⟨here, after⟩ later from_ more
        rcases Nat.eq_or_lt_of_le from_ with same | below
        · exact same ▸ here
        · exact after later below more
      · intro all
        exact ⟨all call (Nat.le_refl _) due, fun later after => all later (by omega)⟩

/-- **One round is exact if and only if its writes resume exactly.** -/
theorem accepted_eq_iff (accepts : round.AcceptsPrefixes) (client : ClientImpl β) :
    round.accepted client = round.read.bytes ↔ round.ResumesExactly := by
  have due : round.acceptedBefore 0 < round.read.bytes.length :=
    List.length_pos_iff.mpr round.read.nonempty
  have exact := (Sending.loadCommand client).writeLoop_exact_iff accepts due
  simpa [ResumesExactly, accepted, ClientImpl.send, ClientImpl.writeCommandChannel,
    acceptedBefore] using exact

/-- The channel never accepts less than the chunk. -/
theorem length_le_accepted (accepts : round.AcceptsPrefixes) (client : ClientImpl β) :
    round.read.bytes.length ≤ (round.accepted client).length :=
  (Sending.loadCommand client).due_le_accepted accepts

/-- A chunk accepted whole by the first write is accepted exactly. -/
theorem ResumesExactly.of_whole (whole : round.results 0 = round.read.bytes.length) :
    round.ResumesExactly := by
  intro call due
  cases call with
  | zero => simp [whole, acceptedBefore]
  | succ call =>
      have first : round.acceptedBefore 1 = round.read.bytes.length := by
        simp [acceptedBefore, whole]
      have := round.acceptedBefore_mono (show 1 ≤ call + 1 by omega)
      omega

end PushRound

/-! ## The whole run -/

/-- What the write loop accepts depends on the members it works on only. -/
theorem ClientImpl.writeLoop_accepted_congr (results : ℕ → Int) {client other : ClientImpl β}
    (str : client.commandStr = other.commandStr) (len : client.commandStrLen = other.commandStrLen)
    (written : client.writtenBytes = other.writtenBytes) (call : ℕ) :
    (writeLoop results client call).accepted = (writeLoop results other call).accepted := by
  induction due : client.commandStrLen - client.writtenBytes using Nat.strongRecOn
    generalizing client other call with
  | ind rest ih =>
      subst due
      have same : client.acceptedBy (results call) = other.acceptedBy (results call) := by
        simp only [acceptedBy, str, len]
      have again : (client.countWritten (toInt (results call))).WritesAgain (toInt (results call)) ↔
          (other.countWritten (toInt (results call))).WritesAgain (toInt (results call)) := by
        simp only [WritesAgain, countWritten, len, written]
      rw [writeLoop_accepted, writeLoop_accepted results other, same]
      by_cases more : (client.countWritten (toInt (results call))).WritesAgain
          (toInt (results call))
      · rw [if_pos more, if_pos (again.mp more)]
        have sameCount : (client.countWritten (toInt (results call))).writtenBytes =
            (other.countWritten (toInt (results call))).writtenBytes := by
          simp only [countWritten, written]
        have later : (writeLoop results (client.countWritten (toInt (results call)))
            (call + 1)).accepted =
              (writeLoop results (other.countWritten (toInt (results call)))
                (call + 1)).accepted := by
          refine ih _ more.decreases ?_ ?_ sameCount (call + 1) rfl
          · exact str
          · exact len
        rw [later]
      · rw [if_neg more, if_neg (mt again.mpr more)]

/-- What a round accepts does not depend on what the client held before it. -/
theorem PushRound.accepted_eq (round : PushRound β) (client other : ClientImpl β) :
    round.accepted client = round.accepted other := by
  simp only [accepted, ClientImpl.send, ClientImpl.writeCommandChannel]
  refine ClientImpl.writeLoop_accepted_congr round.results ?_ ?_ ?_ 0 <;> rfl

/-- The channel accepts what the rounds accept, one after the other: a `send`
never fails. -/
theorem runPush_accepted (client other : ClientImpl β) (rounds : List (PushRound β)) :
    (runPush client rounds).accepted = rounds.flatMap fun round => round.accepted other := by
  induction rounds generalizing client with
  | nil => rfl
  | cons round rest ih =>
      have sent : ¬ (client.send round.results round.read.bytes round.read.bytes.length).1 < 0 := by
        simp [ClientImpl.send]
      rw [runPush]
      simp only [sent, if_false, List.flatMap_cons, ih]
      rw [← round.accepted_eq client other]
      rfl

/-- **Exactly when the push direction is byte-exact.** -/
theorem pushesExactly_iff (client : ClientImpl β) (rounds : List (PushRound β))
    (accepts : ∀ round ∈ rounds, round.AcceptsPrefixes) :
    PushesExactly client rounds ↔ ∀ round ∈ rounds, round.ResumesExactly := by
  rw [PushesExactly, runPush_accepted client client,
    Lib.flatMap_eq_flatMap_iff fun round member =>
      PushRound.length_le_accepted (accepts round member) client]
  exact forall₂_congr fun round member => PushRound.accepted_eq_iff (accepts round member) client

/-- The chunk `1 2`, with given results of its writes. -/
def chunkOneTwo (results : ℕ → Int) : PushRound UInt8 where
  read := { bytes := [1, 2], nonempty := by decide, fits := by decide }
  results := results

/-- A chunk accepted by one write arrives as it was read. -/
theorem pushesExactly_whole : PushesExactly ({} : ClientImpl UInt8) [chunkOneTwo fun _ => 2] :=
  (pushesExactly_iff _ _ (by simp [PushRound.AcceptsPrefixes, chunkOneTwo])).mpr
    (by simpa using PushRound.ResumesExactly.of_whole rfl)

/-- **Bytes are repeated.** When the two writes of the chunk `1 2` accept a byte
each, the channel accepts `1 1`. -/
theorem not_pushesExactly_split :
    ¬ ∀ (client : ClientImpl UInt8) (rounds : List (PushRound UInt8)),
      (∀ round ∈ rounds, round.AcceptsPrefixes) → PushesExactly client rounds := by
  intro always
  have exact := always {} [chunkOneTwo fun _ => 1]
    (by simp [PushRound.AcceptsPrefixes, chunkOneTwo])
  rw [PushesExactly, runPush_accepted {} {}] at exact
  simp only [List.flatMap_singleton] at exact
  rw [PushRound.accepted_eq_iff (by simp [PushRound.AcceptsPrefixes, chunkOneTwo])] at exact
  have second := exact 1 (by decide)
  revert second
  decide

end BookFilerSsh
