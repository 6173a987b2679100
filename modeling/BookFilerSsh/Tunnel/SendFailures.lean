import BookFilerSsh.Tunnel.PushStream

/-!
# Channel writes that fail

A write of the command channel fails when it returns a negative code, or zero while
bytes are still due. Which writes a `send` makes, and so whether one of them fails,
depends on their results and on the length only (`WriteFails`).

`writeCommandChannel` tells its caller of a negative code
(`writeCommandChannel_state_iff`) and of a zero result not at all. `send` does not look at
what it is told and returns zero, so `runPush` never sees a failure: it reads and sends on
to the end of its input
(`readsMade_eq`). A failure is reported only when there is none
(`writeFailures_reported_iff`).
-/

set_option autoImplicit false

namespace BookFilerSsh

variable {β : Type}

/-! ## The writes of one send -/

/-- The number of bytes counted as written before the `call`-th write. -/
def writtenBefore (results : ℕ → Int) : ℕ → ℕ
  | 0 => 0
  | call + 1 => writtenBefore results call + (toInt (results call)).toNat

/-- The loop makes its `call`-th write: each write before it accepted something and
left bytes to write. -/
def MakesWrite (results : ℕ → Int) (len call : ℕ) : Prop :=
  ∀ earlier < call, 0 < toInt (results earlier) ∧ writtenBefore results (earlier + 1) < len

/-- A write that is made returns a negative code, or zero while bytes are due. -/
def WriteFails (results : ℕ → Int) (len : ℕ) : Prop :=
  ∃ call, MakesWrite results len call ∧
    (results call < 0 ∨ (results call = 0 ∧ writtenBefore results call < len))

theorem MakesWrite.succ_iff {results : ℕ → Int} {len call : ℕ}
    (made : MakesWrite results len call) :
    MakesWrite results len (call + 1) ↔
      0 < toInt (results call) ∧ writtenBefore results (call + 1) < len := by
  constructor
  · intro next
    exact next call (Nat.lt_succ_self call)
  · intro here earlier below
    rcases Nat.lt_succ_iff_lt_or_eq.mp below with before | same
    · exact made earlier before
    · exact same ▸ here

/-- A later write is made only when the next one is. -/
theorem MakesWrite.of_later {results : ℕ → Int} {len call later : ℕ}
    (made : MakesWrite results len later) (before : call ≤ later) :
    MakesWrite results len call := by
  intro earlier below
  exact made earlier (Nat.lt_of_lt_of_le below before)

namespace ClientImpl

/-- From its `call`-th write on, the loop reports exactly a negative code. -/
theorem writeLoop_state_iff (results : ℕ → Int) {client : ClientImpl β} {call : ℕ}
    (made : MakesWrite results client.commandStrLen call)
    (counted : client.writtenBytes = writtenBefore results call) :
    (writeLoop results client call).state = .STILL_WORKING ↔
      ∃ later, call ≤ later ∧ MakesWrite results client.commandStrLen later ∧
        toInt (results later) < 0 := by
  induction due : client.commandStrLen - client.writtenBytes using Nat.strongRecOn
    generalizing client call with
  | ind rest ih =>
      subst due
      have countedNext : (client.countWritten (toInt (results call))).writtenBytes =
          writtenBefore results (call + 1) := by
        simp only [countWritten, writtenBefore, counted]
      have next : MakesWrite results client.commandStrLen (call + 1) ↔
          (client.countWritten (toInt (results call))).WritesAgain (toInt (results call)) := by
        rw [made.succ_iff, WritesAgain, countedNext]
        rfl
      rw [writeLoop]
      by_cases failed : toInt (results call) < 0
      · simp only [failed, if_true, true_iff]
        exact ⟨call, Nat.le_refl call, made, failed⟩
      · by_cases again : (client.countWritten (toInt (results call))).WritesAgain
            (toInt (results call))
        · have madeNext : MakesWrite results
              (client.countWritten (toInt (results call))).commandStrLen (call + 1) :=
            next.mpr again
          have later := ih _ again.decreases madeNext countedNext rfl
          simp only [failed, if_false, again, dif_pos]
          rw [later]
          constructor
          · rintro ⟨later, after, madeLater, negative⟩
            exact ⟨later, by omega, madeLater, negative⟩
          · rintro ⟨later, from_, madeLater, negative⟩
            rcases Nat.eq_or_lt_of_le from_ with same | after
            · exact absurd (same ▸ negative) failed
            · exact ⟨later, after, madeLater, negative⟩
        · simp only [failed, if_false, again, dif_neg, not_false_eq_true, reduceCtorEq, false_iff]
          rintro ⟨later, from_, madeLater, negative⟩
          rcases Nat.eq_or_lt_of_le from_ with same | after
          · exact failed (same ▸ negative)
          · exact again (next.mp (madeLater.of_later after))

/-- **What `writeCommandChannel` tells its caller**: that a write returned a negative
code. -/
theorem writeCommandChannel_state_iff (results : ℕ → Int) (client : ClientImpl β) :
    (client.writeCommandChannel results).state = .STILL_WORKING ↔
      ∃ call, MakesWrite results client.commandStrLen call ∧ toInt (results call) < 0 := by
  have made : MakesWrite results client.commandStrLen 0 :=
    fun earlier below => absurd below (Nat.not_lt_zero earlier)
  have reports := @writeLoop_state_iff β results { client with writtenBytes := 0 } 0 made rfl
  simpa [writeCommandChannel] using reports

/-- A `send` whose write fails returns a negative value. -/
def ReportsFailure (results : ℕ → Int) (client : ClientImpl β) (bufferStr : List β) : Prop :=
  WriteFails results bufferStr.length → (client.send results bufferStr bufferStr.length).1 < 0

/-- `send` returns zero in any case. -/
theorem reportsFailure_iff (results : ℕ → Int) (client : ClientImpl β) (bufferStr : List β) :
    client.ReportsFailure results bufferStr ↔ ¬ WriteFails results bufferStr.length := by
  constructor
  · intro reports fails
    exact absurd (reports fails) (Int.lt_irrefl 0)
  · intro succeeds fails
    exact absurd fails succeeds

end ClientImpl

/-! ## The pump -/

/-- A write made while the chunk of the round is sent fails. -/
def PushRound.Fails (round : PushRound β) : Prop :=
  WriteFails round.results round.read.bytes.length

/-- The number of reads `runPush` makes, the last one included that reports an error. -/
def readsMade (client : ClientImpl β) : List (PushRound β) → ℕ
  | [] => 1
  | round :: rest =>
      let sent := client.send round.results round.read.bytes round.read.bytes.length
      if sent.1 < 0 then 1 else 1 + readsMade sent.2.client rest

/-- After a round with a failed write `runPush` returns -1: it reads no further chunk,
and sends none. -/
def StopsAtFailure (client : ClientImpl β) (rounds : List (PushRound β)) : Prop :=
  ∀ before round after, rounds = before ++ round :: after → round.Fails →
    (runPush client rounds).rc = -1 ∧ readsMade client rounds = before.length + 1

/-- **The pump reads on to the end of its input.** -/
theorem readsMade_eq (client : ClientImpl β) (rounds : List (PushRound β)) :
    readsMade client rounds = rounds.length + 1 := by
  induction rounds generalizing client with
  | nil => rfl
  | cons round rest ih =>
      have sent : ¬ (client.send round.results round.read.bytes round.read.bytes.length).1 < 0 :=
        Int.lt_irrefl 0
      simp only [readsMade, sent, if_false, ih, List.length_cons]
      omega

theorem stopsAtFailure_iff (client : ClientImpl β) (rounds : List (PushRound β)) :
    StopsAtFailure client rounds ↔ ∀ round ∈ rounds, ¬ round.Fails := by
  constructor
  · intro stops round member fails
    obtain ⟨before, after, split⟩ := List.append_of_mem member
    obtain ⟨-, reads⟩ := stops before round after split fails
    rw [readsMade_eq, split, List.length_append, List.length_cons] at reads
    omega
  · intro succeed before round after split fails
    have member : round ∈ rounds := by
      rw [split]
      exact List.mem_append_right before (List.mem_cons_self ..)
    exact absurd fails (succeed round member)

/-- **A failed write is reported only when there is none**, by `send` and to `runPush`. -/
theorem writeFailures_reported_iff (results : ℕ → Int) (client : ClientImpl β)
    (bufferStr : List β) (rounds : List (PushRound β)) :
    (client.ReportsFailure results bufferStr ↔ ¬ WriteFails results bufferStr.length) ∧
      (StopsAtFailure client rounds ↔ ∀ round ∈ rounds, ¬ round.Fails) :=
  ⟨client.reportsFailure_iff results bufferStr, stopsAtFailure_iff client rounds⟩

/-- **A lost chunk is followed by the next one.** The writes of the chunk `1 2` are
refused with `LIBSSH2_ERROR_SOCKET_SEND`, and those of the chunk after it accepted. -/
theorem not_writeFailures_reported :
    ¬ ∀ (results : ℕ → Int) (client : ClientImpl UInt8) (bufferStr : List UInt8)
      (rounds : List (PushRound UInt8)),
        client.ReportsFailure results bufferStr ∧ StopsAtFailure client rounds := by
  intro always
  have refused : (chunkOneTwo fun _ => -7).Fails := by
    refine ⟨0, ?_, .inl (by decide)⟩
    intro earlier below
    exact absurd below (Nat.not_lt_zero earlier)
  have stops := (always (fun _ => -7) {} [1, 2]
    [chunkOneTwo fun _ => -7, chunkOneTwo fun _ => 2]).2
  have reads := (stops [] _ _ rfl refused).2
  rw [readsMade_eq] at reads
  exact absurd reads (by decide)

end BookFilerSsh
