import BookFilerSsh.Lib.ConditionVariable
import BookFilerSsh.Lib.Machine
import Mathlib.Logic.Function.Basic

/-!
# Waiting for a notification

`ModuleExport::wait` and `notify` let the examples wait for the end of the program. A wait
adds a condition variable for its handle to the map, unless there is one, and blocks on it;
a notification looks its handle up and notifies one of the callers blocked on it. There is
no flag that a notification sets and a wait looks at: a notification that finds no
condition variable, or nobody blocked, is gone.

Each handle has a condition variable of its own, empty as long as there is none in the map
(`ModuleExport.condition`), and every action is an event of the one of its handle or leaves
them all alone (`ModuleExport.condition_act`). So the number of callers blocked on a handle
is bounded by the waits without a notification exactly as long as no wait comes after more
notifications than waits (`notifications_reach`).
-/

set_option autoImplicit false

namespace BookFilerSsh

open Lib

variable {κ : Type}

/-! ## The calls -/

/-- Where a caller is in `wait`. -/
inductive WaitPc where
  | outside
  /-- blocked in `conditionVariableMap.at(handle_).wait(mutexLock)` -/
  | blocked (handle : String)
  /-- unblocked, before it locks the mutex again and returns -/
  | unblocked (handle : String)
  deriving DecidableEq, Repr

/-- `ModuleExport`: its map of condition variables, and its callers. -/
structure ModuleExport (κ : Type) where
  conditionVariableMap : String → Option (ConditionVariable κ) := fun _ => none
  callers : κ → WaitPc := fun _ => .outside

namespace ModuleExport

/-- The condition variable of a handle. One that is not in the map has nobody blocked. -/
def condition (sshModule : ModuleExport κ) (handle : String) : ConditionVariable κ :=
  (sshModule.conditionVariableMap handle).getD {}

def setCondition (sshModule : ModuleExport κ) (handle : String)
    (condition : ConditionVariable κ) : ModuleExport κ :=
  { sshModule with
    conditionVariableMap :=
      Function.update sshModule.conditionVariableMap handle (some condition) }

/-- `conditionVariableMap.emplace`: an entry that exists is kept. -/
def emplace (sshModule : ModuleExport κ) (handle : String) : ModuleExport κ :=
  match sshModule.conditionVariableMap handle with
  | some _ => sshModule
  | none => sshModule.setCondition handle {}

@[simp] theorem condition_setCondition (sshModule : ModuleExport κ) (handle : String)
    (condition : ConditionVariable κ) :
    (sshModule.setCondition handle condition).condition =
      Function.update sshModule.condition handle condition := by
  funext another
  by_cases same : another = handle
  · subst same
    simp [ModuleExport.condition, setCondition]
  · simp [ModuleExport.condition, setCondition, same]

theorem condition_of_some {sshModule : ModuleExport κ} {handle : String}
    {condition : ConditionVariable κ}
    (found : sshModule.conditionVariableMap handle = some condition) :
    sshModule.condition handle = condition := by
  rw [ModuleExport.condition, found]
  rfl

/-- After `emplace` a handle has a condition variable, the one it had before if any. -/
theorem emplace_found (sshModule : ModuleExport κ) (handle : String) :
    (sshModule.emplace handle).conditionVariableMap handle = some (sshModule.condition handle) := by
  unfold emplace
  split
  next condition found => rw [found, condition_of_some found]
  next missing => simp [setCondition, condition, missing]

theorem emplace_setCondition (sshModule : ModuleExport κ) (handle : String)
    (condition : ConditionVariable κ) :
    (sshModule.emplace handle).setCondition handle condition =
      sshModule.setCondition handle condition := by
  unfold emplace
  split
  · rfl
  · simp [setCondition]

variable [DecidableEq κ]

def setCaller (sshModule : ModuleExport κ) (caller : κ) (pc : WaitPc) : ModuleExport κ :=
  { sshModule with callers := Function.update sshModule.callers caller pc }

/-- `ModuleExport::wait` up to blocking, which releases the mutex. -/
def wait (sshModule : ModuleExport κ) (caller : κ) (handle : String) : Option (ModuleExport κ) :=
  match sshModule.callers caller with
  | .outside =>
      let emplaced := sshModule.emplace handle
      match emplaced.conditionVariableMap handle with
      | some condition =>
          some ((emplaced.setCondition handle (condition.block caller)).setCaller caller
            (.blocked handle))
      | none => some emplaced
  | _ => none

/-- `ModuleExport::notify`, with the caller that is unblocked. -/
def notify (sshModule : ModuleExport κ) (caller : κ) (handle : String) (unblocked : Option κ) :
    Option (ModuleExport κ) :=
  match sshModule.callers caller with
  | .outside =>
      match sshModule.conditionVariableMap handle, unblocked with
      | some condition, some other =>
          (condition.notifyOne (some other)).map fun next =>
            (sshModule.setCondition handle next).setCaller other (.unblocked handle)
      | some condition, none => (condition.notifyOne none).map (sshModule.setCondition handle)
      | none, some _ => none
      | none, none => some sshModule
  | _ => none

/-- A blocked caller wakes up without a notification. -/
def wakeUp (sshModule : ModuleExport κ) (caller : κ) (handle : String) :
    Option (ModuleExport κ) :=
  match sshModule.conditionVariableMap handle with
  | some condition =>
      (condition.unblock caller).map fun next =>
        (sshModule.setCondition handle next).setCaller caller (.unblocked handle)
  | none => none

/-- An unblocked caller locks the mutex and returns from `wait`, which unlocks it. -/
def returnFromWait (sshModule : ModuleExport κ) (caller : κ) (handle : String) :
    Option (ModuleExport κ) :=
  if sshModule.callers caller = .unblocked handle then some (sshModule.setCaller caller .outside)
  else none

end ModuleExport

/-- A call, and what happens to a caller in one. -/
inductive ModuleAction (κ : Type) where
  | wait (caller : κ) (handle : String)
  | notify (caller : κ) (handle : String) (unblocked : Option κ)
  | wakeUp (caller : κ) (handle : String)
  | returnFromWait (caller : κ) (handle : String)

namespace ModuleAction

/-- The handle of the call an action belongs to. -/
def handle : ModuleAction κ → String
  | .wait _ handle | .notify _ handle _ | .wakeUp _ handle | .returnFromWait _ handle => handle

/-- What an action is to the condition variable of its handle. -/
def event : ModuleAction κ → Option (ConditionVariable.Event κ)
  | .wait caller _ => some (.waits caller)
  | .notify _ _ unblocked => some (.notifies unblocked)
  | .wakeUp caller _ => some (.wakes caller)
  | .returnFromWait _ _ => none

end ModuleAction

/-- The effect of an action. -/
def ModuleExport.act [DecidableEq κ] (sshModule : ModuleExport κ) :
    ModuleAction κ → Option (ModuleExport κ)
  | .wait caller handle => sshModule.wait caller handle
  | .notify caller handle unblocked => sshModule.notify caller handle unblocked
  | .wakeUp caller handle => sshModule.wakeUp caller handle
  | .returnFromWait caller handle => sshModule.returnFromWait caller handle

/-! ## What an action can do -/

namespace ModuleExport

variable [DecidableEq κ] {sshModule next : ModuleExport κ} {action : ModuleAction κ}

/-- The kinds of actions. -/
inductive Moves (sshModule : ModuleExport κ) : ModuleAction κ → ModuleExport κ → Prop where
  | waits {caller : κ} {handle : String} (outside : sshModule.callers caller = .outside) :
      Moves sshModule (.wait caller handle)
        ((sshModule.setCondition handle ((sshModule.condition handle).block caller)).setCaller
          caller (.blocked handle))
  | notifies {caller other : κ} {handle : String}
      (blocked : other ∈ (sshModule.condition handle).blocked) :
      Moves sshModule (.notify caller handle (some other))
        ((sshModule.setCondition handle
          ⟨(sshModule.condition handle).blocked.erase other⟩).setCaller other (.unblocked handle))
  | misses {caller : κ} {handle : String} (nobody : (sshModule.condition handle).blocked = ∅) :
      Moves sshModule (.notify caller handle none) sshModule
  | wakes {caller : κ} {handle : String}
      (blocked : caller ∈ (sshModule.condition handle).blocked) :
      Moves sshModule (.wakeUp caller handle)
        ((sshModule.setCondition handle
          ⟨(sshModule.condition handle).blocked.erase caller⟩).setCaller caller (.unblocked handle))
  | returns {caller : κ} {handle : String}
      (unblocked : sshModule.callers caller = .unblocked handle) :
      Moves sshModule (.returnFromWait caller handle) (sshModule.setCaller caller .outside)

/-- **Every action is one of these.** -/
theorem act_moves (acted : sshModule.act action = some next) : Moves sshModule action next := by
  cases action with
  | wait caller handle =>
      simp only [act, wait, emplace_found, emplace_setCondition] at acted
      split at acted <;> cases acted
      next outside => exact .waits outside
  | notify caller handle unblocked =>
      simp only [act, notify] at acted
      split at acted
      next outside =>
        split at acted
        next condition other found =>
          obtain ⟨left, notified, rfl⟩ := Option.map_eq_some_iff.mp acted
          rw [← condition_of_some found] at notified
          obtain ⟨blocked, rfl⟩ := ConditionVariable.unblock_eq_some.mp notified
          exact .notifies blocked
        next condition found =>
          obtain ⟨left, notified, rfl⟩ := Option.map_eq_some_iff.mp acted
          simp only [ConditionVariable.notifyOne] at notified
          split at notified <;> cases notified
          next nobody =>
            have same : sshModule.setCondition handle condition = sshModule := by
              rw [setCondition, ← found, Function.update_eq_self]
            rw [same]
            exact .misses (condition_of_some found ▸ nobody)
        next => cases acted
        next missing =>
          cases acted
          exact .misses (by rw [condition, missing]; rfl)
      next => cases acted
  | wakeUp caller handle =>
      simp only [act, wakeUp] at acted
      split at acted
      next condition found =>
        obtain ⟨left, woken, rfl⟩ := Option.map_eq_some_iff.mp acted
        rw [← condition_of_some found] at woken
        obtain ⟨blocked, rfl⟩ := ConditionVariable.unblock_eq_some.mp woken
        exact .wakes blocked
      next => cases acted
  | returnFromWait caller handle =>
      simp only [act, returnFromWait] at acted
      split at acted <;> cases acted
      next unblocked => exact .returns unblocked

@[simp] theorem condition_setCaller (sshModule : ModuleExport κ) (caller : κ) (pc : WaitPc) :
    (sshModule.setCaller caller pc).condition = sshModule.condition := rfl

/-- **An action is an event of the condition variable of its handle**, or leaves it alone. -/
theorem condition_act (acted : sshModule.act action = some next) :
    match action.event with
    | some event =>
        (sshModule.condition action.handle).step event = some (next.condition action.handle)
    | none => next.condition action.handle = sshModule.condition action.handle := by
  cases act_moves acted with
  | waits outside => simp [ModuleAction.event, ModuleAction.handle, ConditionVariable.step]
  | notifies blocked | wakes blocked =>
      simp only [ModuleAction.event, ModuleAction.handle, ConditionVariable.step,
        ConditionVariable.notifyOne, condition_setCaller, condition_setCondition,
        Function.update_self]
      exact ConditionVariable.unblock_eq_some.mpr ⟨blocked, rfl⟩
  | misses nobody =>
      simp [ModuleAction.event, ModuleAction.handle, ConditionVariable.step,
        ConditionVariable.notifyOne, nobody]
  | returns unblocked => rfl

/-- It leaves those of the other handles alone. -/
theorem condition_act_other (acted : sshModule.act action = some next) {handle : String}
    (other : handle ≠ action.handle) : next.condition handle = sshModule.condition handle := by
  cases act_moves acted with
  | waits _ | notifies _ | wakes _ =>
      rw [condition_setCaller, condition_setCondition]
      exact Function.update_of_ne other _ _
  | misses _ | returns _ => rfl

end ModuleExport

/-! ## Runs -/

/-- A module nobody has called yet, and its calls. -/
def moduleMachine (κ : Type) [DecidableEq κ] : Machine (ModuleExport κ) (ModuleAction κ) where
  init := {}
  step := ModuleExport.act

/-- The calls made so far on each handle. -/
abbrev HandleCalls : Type := String → ConditionVariable.Calls

/-- The runs of the module, with a record of the calls on each handle. -/
def callsMachine (κ : Type) [DecidableEq κ] :
    Machine (ModuleExport κ × HandleCalls) (ModuleAction κ) :=
  (moduleMachine κ).recording (fun _ => {}) fun _ action _ calls =>
    match action.event with
    | some event =>
        Function.update calls action.handle ((calls action.handle).after event)
    | none => calls

/-- The callers blocked in `wait(handle)` are no more than the `wait(handle)` calls that have
no `notify(handle)` call. -/
def BlockedBounded (handle : String) (s : ModuleExport κ × HandleCalls) : Prop :=
  (s.1.condition handle).Bounded (s.2 handle)

/-- A `wait(handle)` call after more `notify(handle)` than `wait(handle)` calls. -/
def WaitsLate (handle : String) (s : ModuleExport κ × HandleCalls) :
    ModuleAction κ → Prop
  | .wait _ waited => waited = handle ∧ (s.2 handle).waits < (s.2 handle).notifies
  | _ => False

section Runs

variable [DecidableEq κ] {s t : ModuleExport κ × HandleCalls} {action : ModuleAction κ}
  {handle : String}

/-- A caller moves in or out of one condition variable and stays where it is in the others. -/
theorem placed_move {sshModule : ModuleExport κ} {condition : ConditionVariable κ} {mover : κ}
    {pc : WaitPc}
    (placed : ∀ caller handle, caller ∈ (sshModule.condition handle).blocked ↔
      sshModule.callers caller = .blocked handle)
    (others : ∀ caller, caller ≠ mover →
      (caller ∈ condition.blocked ↔ caller ∈ (sshModule.condition handle).blocked))
    (own : mover ∈ condition.blocked ↔ pc = .blocked handle)
    (elsewhere : ∀ other, other ≠ handle →
      sshModule.callers mover ≠ .blocked other ∧ pc ≠ .blocked other) :
    ∀ caller another,
      caller ∈ (((sshModule.setCondition handle condition).setCaller mover pc).condition
          another).blocked ↔
        ((sshModule.setCondition handle condition).setCaller mover pc).callers caller =
          .blocked another := by
  intro caller another
  rw [ModuleExport.condition_setCaller, ModuleExport.condition_setCondition]
  simp only [ModuleExport.setCaller, ModuleExport.setCondition]
  by_cases moves : caller = mover
  · subst moves
    rw [Function.update_self]
    by_cases here : another = handle
    · subst here
      rw [Function.update_self]
      exact own
    · obtain ⟨before, after⟩ := elsewhere another here
      rw [Function.update_of_ne here, placed]
      exact iff_of_false before after
  · rw [Function.update_of_ne moves]
    by_cases here : another = handle
    · subst here
      rw [Function.update_self, others caller moves]
      exact placed caller another
    · rw [Function.update_of_ne here]
      exact placed caller another

/-- **The callers a condition variable has blocked are those blocked in `wait`.** -/
theorem mem_blocked_iff {sshModule : ModuleExport κ}
    (reached : (moduleMachine κ).Reachable sshModule) (caller : κ) (handle : String) :
    caller ∈ (sshModule.condition handle).blocked ↔
      sshModule.callers caller = .blocked handle := by
  refine Machine.invariant (M := moduleMachine κ)
    (I := fun sshModule => ∀ caller handle, caller ∈ (sshModule.condition handle).blocked ↔
      sshModule.callers caller = .blocked handle) ?_ ?_ reached caller handle
  · intro caller handle
    simp [moduleMachine, ModuleExport.condition]
  · intro sshModule action next placed acted
    -- a blocked caller is blocked on one handle
    have once : ∀ {caller : κ} {handle other : String},
        caller ∈ (sshModule.condition handle).blocked → other ≠ handle →
          sshModule.callers caller ≠ .blocked other := by
      intro caller handle other blocked different same
      rw [placed, same] at blocked
      exact different (WaitPc.blocked.inj blocked)
    cases ModuleExport.act_moves acted with
    | @waits caller handle outside =>
        refine placed_move placed ?_ ?_ ?_
        · intro another different
          simp [ConditionVariable.block, different]
        · simp [ConditionVariable.block]
        · intro other different
          rw [outside]
          exact ⟨WaitPc.noConfusion, fun same => different (WaitPc.blocked.inj same).symm⟩
    | notifies blocked | wakes blocked =>
        refine placed_move placed ?_ ?_ ?_
        · intro another different
          simp [different]
        · simp
        · intro other different
          exact ⟨once blocked different, WaitPc.noConfusion⟩
    | misses nobody => exact placed
    | @returns returning handle unblocked =>
        intro caller another
        rw [ModuleExport.condition_setCaller, placed]
        simp only [ModuleExport.setCaller]
        by_cases same : caller = returning
        · subst same
          rw [Function.update_self, unblocked]
          exact iff_of_false WaitPc.noConfusion WaitPc.noConfusion
        · rw [Function.update_of_ne same]

/-- An action on another handle changes neither the condition variable nor the calls. -/
theorem other_step (stepped : (callsMachine κ).step s action = some t)
    (other : handle ≠ action.handle) :
    t.1.condition handle = s.1.condition handle ∧ t.2 handle = s.2 handle := by
  obtain ⟨next, acted, rfl⟩ := Machine.recording_step_eq_some.mp stepped
  refine ⟨ModuleExport.condition_act_other acted other, ?_⟩
  cases action.event with
  | none => rfl
  | some event => exact Function.update_of_ne other _ _

/-- **A step, seen from a handle**: nothing happens, or an event of its condition variable,
and the step is a late wait when the event is. -/
theorem step_seen (stepped : (callsMachine κ).step s action = some t) (handle : String) :
    (t.1.condition handle = s.1.condition handle ∧ t.2 handle = s.2 handle ∧
        ¬ WaitsLate handle s action) ∨
      ∃ event, (s.1.condition handle).step event = some (t.1.condition handle) ∧
        t.2 handle = (s.2 handle).after event ∧
          (WaitsLate handle s action ↔ event.Uncovered (s.2 handle)) := by
  by_cases own : handle = action.handle
  · subst own
    obtain ⟨next, acted, rfl⟩ := Machine.recording_step_eq_some.mp stepped
    have moved := ModuleExport.condition_act acted
    cases action with
    | returnFromWait caller handle => exact .inl ⟨moved, rfl, not_false⟩
    | wait caller handle =>
        refine .inr ⟨_, moved, Function.update_self .., ?_⟩
        exact ⟨fun late => late.2, fun uncovered => ⟨rfl, uncovered⟩⟩
    | notify caller handle unblocked | wakeUp caller handle =>
        exact .inr ⟨_, moved, Function.update_self .., Iff.rfl⟩
  · obtain ⟨condition, calls⟩ := other_step stepped own
    refine .inl ⟨condition, calls, fun late => own ?_⟩
    cases action with
    | wait caller waited => exact late.1.symm
    | _ => exact late.elim

/-- A step keeps the bound of a handle, unless it is a late wait. -/
theorem BlockedBounded.step (bounded : BlockedBounded handle s)
    (inTime : ¬ WaitsLate handle s action) (stepped : (callsMachine κ).step s action = some t) :
    BlockedBounded handle t := by
  unfold BlockedBounded at bounded ⊢
  rcases step_seen stepped handle with ⟨condition, calls, -⟩ | ⟨event, moved, calls, late⟩
  · rw [condition, calls]
    exact bounded
  · rw [calls]
    exact ConditionVariable.Bounded.step bounded
      (fun uncovered => inTime (late.mpr uncovered)) moved

/-- A late wait breaks it. -/
theorem WaitsLate.step (waitsLate : WaitsLate handle s action)
    (stepped : (callsMachine κ).step s action = some t) : ¬ BlockedBounded handle t := by
  rcases step_seen stepped handle with ⟨-, -, inTime⟩ | ⟨event, moved, calls, late⟩
  · exact absurd waitsLate inTime
  · rw [BlockedBounded, calls]
    exact (late.mp waitsLate).step moved

/-- **In every reachable state the waits of a handle account for its blocked callers**, when
the notifications that found nobody are counted too. -/
theorem accounted_of_reachable (reached : (callsMachine κ).Reachable s) (handle : String) :
    (s.1.condition handle).Accounted (s.2 handle) := by
  refine Machine.invariant (M := callsMachine κ)
    (I := fun s => (s.1.condition handle).Accounted (s.2 handle)) ?_ ?_ reached
  · exact Nat.le_refl _
  · intro s action t accounted stepped
    rcases step_seen stepped handle with ⟨condition, calls, -⟩ | ⟨event, moved, calls, -⟩
    · rw [condition, calls]
      exact accounted
    · rw [calls]
      exact accounted.step moved

/-- As long as every notification finds somebody, nobody is blocked without need. -/
theorem blockedBounded_of_noneMissed (reached : (callsMachine κ).Reachable s)
    (noneMissed : (s.2 handle).missed = 0) : BlockedBounded handle s :=
  (accounted_of_reachable reached handle).bounded noneMissed

end Runs

/-- What the notifications of a handle do. No more callers are blocked in `wait` than there
are waits without a notification exactly as long as no wait comes late; notifications that
found nobody blocked apart, it is always so; and calls on other handles do not matter. -/
structure NotificationsReach (κ : Type) [DecidableEq κ] (handle : String) : Prop where
  blocked : ∀ s, (callsMachine κ).Reachable s → ∀ caller,
    caller ∈ (s.1.condition handle).blocked ↔ s.1.callers caller = .blocked handle
  bounded : ∀ actions,
    (callsMachine κ).Throughout (BlockedBounded handle) (callsMachine κ).init actions ↔
      (callsMachine κ).Guarded (fun s action => ¬ WaitsLate handle s action)
        (callsMachine κ).init actions
  accounted : ∀ s, (callsMachine κ).Reachable s →
    (s.1.condition handle).blocked.card + (s.2 handle).notifies ≤
      (s.2 handle).waits + (s.2 handle).missed
  apart : ∀ s action t, action.handle ≠ handle → (callsMachine κ).step s action = some t →
    t.1.condition handle = s.1.condition handle ∧ t.2 handle = s.2 handle

/-- **A notification reaches those who are already blocked.** -/
theorem notifications_reach (κ : Type) [DecidableEq κ] (handle : String) :
    NotificationsReach κ handle where
  blocked := fun s reached caller => mem_blocked_iff reached.of_recording caller handle
  bounded := by
    refine Machine.throughout_iff_guarded ?_ ?_ ?_
    · exact Int.le_max_left _ _
    · intro s action t _ bounded inTime stepped
      exact bounded.step inTime stepped
    · intro s action t _ against stepped
      exact (not_not.mp against).step stepped
  accounted := fun s reached => accounted_of_reachable reached handle
  apart := by
    intro s action t other stepped
    exact other_step stepped (Ne.symm other)

/-- Caller `1` calls `notify` before caller `0` calls `wait`. -/
def notifyFirst : List (ModuleAction ℕ) := [.notify 1 "exit" none, .wait 0 "exit"]

theorem notifyFirst_blocked :
    ∃ s, (callsMachine ℕ).exec (callsMachine ℕ).init notifyFirst = some s ∧
      (s.1.condition "exit").blocked.card = 1 ∧ s.2 "exit" = ⟨1, 1, 1⟩ :=
  ⟨_, rfl, rfl, rfl⟩

/-- **A notification that comes first is lost**, and the caller is blocked. -/
theorem not_blockedBounded_always :
    ¬ ∀ handle s, (callsMachine ℕ).Reachable s → BlockedBounded handle s := by
  intro always
  obtain ⟨s, run, one, calls⟩ := notifyFirst_blocked
  have bounded := always "exit" s ⟨notifyFirst, run⟩
  rw [BlockedBounded, ConditionVariable.Bounded, one, calls] at bounded
  exact absurd bounded (by decide)

end BookFilerSsh
