import Mathlib.Data.Finset.Card

/-!
# Condition variables

A condition variable is the set of the callers blocked on it. A wait without a condition of
its own blocks its caller in any case. `notifyOne` unblocks one of the callers blocked at
that moment, whichever, and has no effect when there are none: nothing is kept for a caller
that blocks later. A blocked caller may also wake up on its own.

The counts of the calls made so far say how many callers should still be blocked: as many
as there are waits without a notification (`Bounded`). Notifications and wake-ups keep this,
and so does a wait, unless there have been more notifications than waits: then it breaks it
(`Bounded.step`, `Event.Uncovered.step`). When the notifications that found nobody are
counted as well, no condition is needed (`Accounted.step`).
-/

set_option autoImplicit false

namespace Lib

universe u

/-- A condition variable: the callers blocked on it. -/
structure ConditionVariable (κ : Type u) where
  blocked : Finset κ := ∅

namespace ConditionVariable

variable {κ : Type u}

/-- What can happen to a condition variable. -/
inductive Event (κ : Type u) where
  | waits (caller : κ)
  /-- `notifyOne`, with the caller it unblocks -/
  | notifies (unblocked : Option κ)
  /-- a caller wakes up without a notification -/
  | wakes (caller : κ)

/-- The calls made so far. A notification that finds nobody blocked is missed. -/
structure Calls where
  waits : ℕ := 0
  notifies : ℕ := 0
  missed : ℕ := 0
  deriving DecidableEq, Repr

/-- The calls made after an event. -/
def Calls.after (calls : Calls) : Event κ → Calls
  | .waits _ => { calls with waits := calls.waits + 1 }
  | .notifies (some _) => { calls with notifies := calls.notifies + 1 }
  | .notifies none =>
      { calls with notifies := calls.notifies + 1, missed := calls.missed + 1 }
  | .wakes _ => calls

/-- No more callers are blocked than there are waits without a notification. -/
def Bounded (condition : ConditionVariable κ) (calls : Calls) : Prop :=
  (condition.blocked.card : ℤ) ≤ max 0 ((calls.waits : ℤ) - calls.notifies)

/-- Every wait has its caller blocked, or a notification that was not missed, or a caller
that woke up. -/
def Accounted (condition : ConditionVariable κ) (calls : Calls) : Prop :=
  condition.blocked.card + calls.notifies ≤ calls.waits + calls.missed

/-- A wait after more notifications than waits. -/
def Event.Uncovered (calls : Calls) : Event κ → Prop
  | .waits _ => calls.waits < calls.notifies
  | _ => False

/-- As long as no notification is missed nobody is blocked without need. -/
theorem Accounted.bounded {condition : ConditionVariable κ} {calls : Calls}
    (accounted : Accounted condition calls) (noneMissed : calls.missed = 0) :
    Bounded condition calls := by
  unfold Accounted at accounted
  unfold Bounded
  omega

/-! ## Steps -/

variable [DecidableEq κ]

def block (condition : ConditionVariable κ) (caller : κ) : ConditionVariable κ :=
  ⟨insert caller condition.blocked⟩

def unblock (condition : ConditionVariable κ) (caller : κ) : Option (ConditionVariable κ) :=
  if caller ∈ condition.blocked then some ⟨condition.blocked.erase caller⟩ else none

/-- One of the blocked callers is unblocked, if there is one. -/
def notifyOne (condition : ConditionVariable κ) : Option κ → Option (ConditionVariable κ)
  | some caller => condition.unblock caller
  | none => if condition.blocked = ∅ then some condition else none

def step (condition : ConditionVariable κ) : Event κ → Option (ConditionVariable κ)
  | .waits caller => some (condition.block caller)
  | .notifies unblocked => condition.notifyOne unblocked
  | .wakes caller => condition.unblock caller

variable {condition next : ConditionVariable κ} {calls : Calls} {event : Event κ} {caller : κ}

theorem unblock_eq_some :
    condition.unblock caller = some next ↔
      caller ∈ condition.blocked ∧ next = ⟨condition.blocked.erase caller⟩ := by
  unfold unblock
  split
  next blocked => simp [blocked, eq_comm]
  next outside => simp [outside]

theorem card_unblock (unblocked : condition.unblock caller = some next) :
    next.blocked.card + 1 = condition.blocked.card := by
  obtain ⟨blocked, rfl⟩ := unblock_eq_some.mp unblocked
  exact Finset.card_erase_add_one blocked

theorem card_block_le (condition : ConditionVariable κ) (caller : κ) :
    (condition.block caller).blocked.card ≤ condition.blocked.card + 1 :=
  Finset.card_insert_le caller condition.blocked

theorem card_block_pos (condition : ConditionVariable κ) (caller : κ) :
    0 < (condition.block caller).blocked.card :=
  Finset.card_pos.mpr (Finset.insert_nonempty caller condition.blocked)

/-- **A step keeps the bound**, unless it is a wait after more notifications than waits. -/
theorem Bounded.step (bounded : Bounded condition calls) (covered : ¬ event.Uncovered calls)
    (stepped : condition.step event = some next) : Bounded next (calls.after event) := by
  unfold Bounded at bounded ⊢
  cases event with
  | waits caller =>
      cases stepped
      have more := condition.card_block_le caller
      have enough : calls.notifies ≤ calls.waits := Nat.le_of_not_lt covered
      simp only [Calls.after]
      omega
  | notifies unblocked =>
      cases unblocked with
      | none =>
          simp only [ConditionVariable.step, notifyOne] at stepped
          split at stepped <;> cases stepped
          next nobody =>
            rw [nobody, Finset.card_empty]
            exact Int.le_max_left _ _
      | some caller =>
          have fewer := card_unblock stepped
          simp only [Calls.after]
          omega
  | wakes caller =>
      have fewer := card_unblock stepped
      simp only [Calls.after]
      omega

/-- A wait after more notifications than waits breaks it. -/
theorem Event.Uncovered.step (uncovered : event.Uncovered calls)
    (stepped : condition.step event = some next) : ¬ Bounded next (calls.after event) := by
  cases event with
  | waits caller =>
      cases stepped
      have blocked := condition.card_block_pos caller
      have fewer : calls.waits < calls.notifies := uncovered
      simp only [Bounded, Calls.after]
      omega
  | _ => exact uncovered.elim

/-- **Every step keeps the account.** -/
theorem Accounted.step (accounted : Accounted condition calls)
    (stepped : condition.step event = some next) : Accounted next (calls.after event) := by
  unfold Accounted at accounted ⊢
  cases event with
  | waits caller =>
      cases stepped
      have more := condition.card_block_le caller
      simp only [Calls.after]
      omega
  | notifies unblocked =>
      cases unblocked with
      | none =>
          simp only [ConditionVariable.step, notifyOne] at stepped
          split at stepped <;> cases stepped
          simp only [Calls.after]
          omega
      | some caller =>
          have fewer := card_unblock stepped
          simp only [Calls.after]
          omega
  | wakes caller =>
      have fewer := card_unblock stepped
      simp only [Calls.after]
      omega

end ConditionVariable

end Lib
