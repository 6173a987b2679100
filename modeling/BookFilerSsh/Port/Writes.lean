import BookFilerSsh.Port.Relay

/-!
# The composed writes of a forwarded connection

Both pumps write to both sockets: a pump writes its zero bytes to the socket it reads
from, and its loop writes to the other one. An `async_write` is outstanding over any
number of partial writes, and the partial writes of two of them on one socket may be
interleaved, so at most one may be outstanding on a socket.

Each pump waits for its own writes. Nothing makes it wait for those of the other pump:
there is at most one write on each socket throughout a run exactly when neither pump
begins one while the other pump is writing to the same socket
(`oneWrite_throughout_iff`).
-/

set_option autoImplicit false

namespace BookFilerSsh.Port

open Lib

variable {β : Type} {zero : β}

/-! ## Outstanding writes -/

namespace PumpPc

/-- The start-up `async_write` is outstanding. -/
def isGreeting : PumpPc β → Bool
  | .greeting _ => true
  | _ => false

/-- The `async_write` of the loop is outstanding. -/
def isWriting : PumpPc β → Bool
  | .writing .. => true
  | _ => false

/-- The next statement is the `async_write` of the loop. -/
def isPushed : PumpPc β → Bool
  | .pushed .. => true
  | _ => false

end PumpPc

namespace ConnectionImpl

/-- The number of `async_write`s outstanding on a socket: the start-up write of its own
pump, and the write of the other pump's loop. -/
def outstanding (conn : ConnectionImpl β) (side : Side) : ℕ :=
  (conn.pump side).isGreeting.toNat + (conn.pump side.other).isWriting.toNat

/-- At most one `async_write` is outstanding on each socket. -/
def OneWrite (conn : ConnectionImpl β) : Prop := ∀ side, conn.outstanding side ≤ 1

/-- A pump begins a write on a socket the other pump is writing to: `run` its start-up
write on `srcSocket` while the loop of `run2` writes there, or the loop of `run` its write
on `destSocket` before the start-up write of `run2` has completed, or conversely. -/
def Overlaps (conn : ConnectionImpl β) : PumpAction β → Prop
  | .step side =>
      conn.pump side = .starting ∧ (conn.pump side.other).isWriting = true ∨
        (conn.pump side).isPushed = true ∧ (conn.pump side.other).isGreeting = true
  | _ => False

theorem oneWrite_iff (conn : ConnectionImpl β) :
    conn.OneWrite ↔ ∀ side,
      ¬ ((conn.pump side).isGreeting = true ∧ (conn.pump side.other).isWriting = true) := by
  refine forall_congr' fun side => ?_
  rw [outstanding]
  cases (conn.pump side).isGreeting <;> cases (conn.pump side.other).isWriting <;> simp

variable {conn next : ConnectionImpl β} {action : PumpAction β}

/-- A step of a pump does not move the other one. -/
theorem pump_act_other (acted : conn.act zero action = some next) :
    next.pump action.side.other = conn.pump action.side.other := by
  cases act_moves acted <;> simp [PumpAction.side, setPump, arrive, setSocket, fill, allocate,
    copy, push]

/-- **When a write begins.** A start-up write is outstanding after a step only when it was
before or begins with it, and a write of the loop likewise. -/
theorem begins_act (acted : conn.act zero action = some next) :
    ((next.pump action.side).isGreeting = true →
        (conn.pump action.side).isGreeting = true ∨
          action = .step action.side ∧ conn.pump action.side = .starting) ∧
      ((next.pump action.side).isWriting = true →
        (conn.pump action.side).isWriting = true ∨
          action = .step action.side ∧ (conn.pump action.side).isPushed = true) := by
  cases act_moves acted with
  | starts pc => simp [PumpAction.side, setPump, pc, PumpPc.isWriting]
  | sends pc => simp [PumpAction.side, setPump, pc, PumpPc.isGreeting, PumpPc.isPushed]
  | greets pc progress =>
      simp only [PumpAction.side, setPump, Function.update_self]
      split <;> simp [PumpPc.isGreeting, PumpPc.isWriting, pc]
  | writes pc progress =>
      simp only [PumpAction.side, setPump, Function.update_self]
      split <;> simp [PumpPc.isGreeting, PumpPc.isWriting, pc]
  | _ => simp [PumpAction.side, setPump, PumpPc.isGreeting, PumpPc.isWriting]

/-- A step that begins no second write keeps one write on each socket. -/
theorem OneWrite.act (one : conn.OneWrite) (apart : ¬ conn.Overlaps action)
    (acted : conn.act zero action = some next) : next.OneWrite := by
  have otherPump := pump_act_other acted
  obtain ⟨greets, writes⟩ := begins_act acted
  rw [oneWrite_iff] at one ⊢
  rintro side ⟨greeting, writing⟩
  by_cases own : side = action.side
  · subst own
    rw [otherPump] at writing
    rcases greets greeting with before | ⟨isStep, starting⟩
    · exact one action.side ⟨before, writing⟩
    · rw [isStep] at apart
      exact apart (.inl ⟨starting, writing⟩)
  · rw [Side.eq_other own] at greeting writing
    rw [Side.other_other] at writing
    rw [otherPump] at greeting
    rcases writes writing with before | ⟨isStep, pushed⟩
    · have apartBefore := one action.side.other
      rw [Side.other_other] at apartBefore
      exact apartBefore ⟨greeting, before⟩
    · rw [isStep] at apart
      exact apart (.inr ⟨pushed, greeting⟩)

/-- A step that begins a second write breaks it. -/
theorem Overlaps.act (overlaps : conn.Overlaps action)
    (acted : conn.act zero action = some next) : ¬ next.OneWrite := by
  have otherPump := pump_act_other acted
  rw [oneWrite_iff]
  intro one
  cases action with
  | step side =>
      rw [act_step] at acted
      rcases overlaps with ⟨starting, writing⟩ | ⟨pushed, greeting⟩
      · simp only [pumpStep, starting, Option.some.injEq] at acted
        refine one side ⟨?_, ?_⟩
        · simp [← acted, setPump, PumpPc.isGreeting]
        · exact otherPump ▸ writing
      · cases pc : conn.pump side with
        | pushed block size =>
            simp only [pumpStep, pc, Option.some.injEq] at acted
            have other := one side.other
            rw [Side.other_other] at other
            refine other ⟨?_, ?_⟩
            · exact otherPump ▸ greeting
            · simp [← acted, setPump, PumpPc.isWriting]
        | _ => simp [pc, PumpPc.isPushed] at pushed
  | _ => exact overlaps

end ConnectionImpl

/-! ## Runs -/

/-- **At most one write on each socket**, exactly as long as neither pump begins one while
the other is writing to the same socket. -/
theorem oneWrite_throughout_iff (zero : β) (actions : List (PumpAction β)) :
    (pumpMachine zero).Throughout ConnectionImpl.OneWrite (pumpMachine zero).init actions ↔
      (pumpMachine zero).Guarded (fun conn action => ¬ conn.Overlaps action)
        (pumpMachine zero).init actions := by
  refine Machine.throughout_iff_guarded ?_ ?_ ?_ actions
  · intro side
    exact Nat.zero_le 1
  · intro conn action next _ one apart acted
    exact one.act apart acted
  · intro conn action next _ against acted
    exact (not_not.mp against).act acted

/-- `run` has begun its start-up write on `srcSocket`, and the loop of `run2` writes the
chunk `7` there. -/
def writeTwice : List (PumpAction UInt8) :=
  [.resume .src, .step .src, .resume .dest, .step .dest, .writes .dest 512, .step .dest,
    .step .dest, .reads .dest (.byte 7), .step .dest, .step .dest, .step .dest, .step .dest,
    .step .dest]

section Twice

-- the start-up buffer has 512 elements
set_option maxRecDepth 8000

theorem writeTwice_outstanding :
    ∃ conn, (pumpMachine (0 : UInt8)).exec (pumpMachine 0).init writeTwice = some conn ∧
      conn.outstanding .src = 2 :=
  ⟨_, rfl, rfl⟩

end Twice

/-- **Two writes are outstanding on one socket** when its peer is slow. -/
theorem not_oneWrite_throughout :
    ¬ ∀ actions, (pumpMachine (0 : UInt8)).Throughout ConnectionImpl.OneWrite
      (pumpMachine 0).init actions := by
  intro always
  obtain ⟨conn, run, two⟩ := writeTwice_outstanding
  have one := always writeTwice writeTwice [] conn (List.append_nil _).symm run .src
  rw [two] at one
  exact absurd one (by decide)

end BookFilerSsh.Port
