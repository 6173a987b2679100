import Mathlib.Data.Fintype.EquivFin
import Mathlib.Data.List.Nodup
import Mathlib.Logic.Function.Basic

/-!
# Coroutines on a pool of threads

A pool of `n` threads runs coroutines named by the elements of a type. A
coroutine that is running holds a thread: it is on the stack of that thread,
either on top or below the coroutines it started inline. A parked coroutine
holds no thread and waits for a completion, and a ready one waits for an idle
thread.

`Coherent` says that statuses and stacks agree: a coroutine runs exactly when it
is on a stack, and it is on one stack only, once. Every step keeps it
(`Coherent.step`). What follows is that two threads never have the same
coroutine on top (`Coherent.top_unique`), and that threads held by coroutines
out of `count` many are at most `count` (`Coherent.threads_le`).
-/

set_option autoImplicit false

namespace Lib.Pool

universe u

/-- Where a coroutine is in its life. -/
inductive Status where
  | absent
  | parked
  | ready
  | running
  | finished
  deriving DecidableEq, Repr

/-- The status of every coroutine, and the stack of every thread. -/
structure State (Coro : Type u) (n : ℕ) where
  status : Coro → Status
  stack : Fin n → List Coro

variable {Coro : Type u} {n : ℕ}

namespace State

/-- A thread takes a stack. -/
def setStack (s : State Coro n) (t : Fin n) (stack : List Coro) : State Coro n :=
  { s with stack := Function.update s.stack t stack }

@[simp] theorem setStack_status (s : State Coro n) (t : Fin n) (stack : List Coro) :
    (s.setStack t stack).status = s.status := rfl

@[simp] theorem setStack_stack (s : State Coro n) (t : Fin n) (stack : List Coro) :
    (s.setStack t stack).stack = Function.update s.stack t stack := rfl

/-- A coroutine takes a status. -/
def setStatus [DecidableEq Coro] (s : State Coro n) (k : Coro) (status : Status) :
    State Coro n :=
  { s with status := Function.update s.status k status }

@[simp] theorem setStatus_stack [DecidableEq Coro] (s : State Coro n) (k : Coro)
    (status : Status) : (s.setStatus k status).stack = s.stack := rfl

@[simp] theorem setStatus_status [DecidableEq Coro] (s : State Coro n) (k : Coro)
    (status : Status) : (s.setStatus k status).status = Function.update s.status k status := rfl

end State

/-- One step of the pool. -/
inductive Step [DecidableEq Coro] : State Coro n → State Coro n → Prop where
  /-- An idle thread takes up a ready coroutine. -/
  | resume {s : State Coro n} {t : Fin n} {k : Coro} (idle : s.stack t = [])
      (ready : s.status k = .ready) :
      Step s ((s.setStatus k .running).setStack t [k])
  /-- The completion a parked coroutine waits for arrives. -/
  | wake {s : State Coro n} {k : Coro} (parked : s.status k = .parked) :
      Step s (s.setStatus k .ready)
  /-- The coroutine on top of a thread gives the thread up. -/
  | park {s : State Coro n} {t : Fin n} {k : Coro} {rest : List Coro}
      (top : s.stack t = k :: rest) :
      Step s ((s.setStatus k .parked).setStack t rest)
  /-- The coroutine on top of a thread returns. -/
  | finish {s : State Coro n} {t : Fin n} {k : Coro} {rest : List Coro}
      (top : s.stack t = k :: rest) :
      Step s ((s.setStatus k .finished).setStack t rest)
  /-- A new coroutine is queued. -/
  | post {s : State Coro n} {k : Coro} (absent : s.status k = .absent) :
      Step s (s.setStatus k .ready)
  /-- A new coroutine starts inline, above the one that starts it. -/
  | nest {s : State Coro n} {t : Fin n} {k starter : Coro} {rest : List Coro}
      (top : s.stack t = starter :: rest) (absent : s.status k = .absent) :
      Step s ((s.setStatus k .running).setStack t (k :: starter :: rest))

/-! ## Statuses and stacks in agreement -/

/-- Statuses and stacks agree. -/
structure Coherent (s : State Coro n) : Prop where
  running_iff : ∀ k, s.status k = .running ↔ ∃ t, k ∈ s.stack t
  nodup : ∀ t, (s.stack t).Nodup
  unique : ∀ k t t', k ∈ s.stack t → k ∈ s.stack t' → t = t'

/-- A pool in which nothing runs and every thread is idle. -/
theorem Coherent.idle {s : State Coro n} (notRunning : ∀ k, s.status k ≠ .running)
    (idle : ∀ t, s.stack t = []) : Coherent s where
  running_iff := fun k => by simp [notRunning k, idle]
  nodup := fun t => by simp [idle t]
  unique := fun k t _ member _ => by simp [idle t] at member

/-- A coroutine that does not run is on no stack. -/
theorem Coherent.not_mem {s : State Coro n} (coherent : Coherent s) {k : Coro}
    (notRunning : s.status k ≠ .running) (t : Fin n) : k ∉ s.stack t :=
  fun member => notRunning ((coherent.running_iff k).mpr ⟨t, member⟩)

/-- Two threads never have the same coroutine on top. -/
theorem Coherent.top_unique {s : State Coro n} (coherent : Coherent s) {k : Coro}
    {t t' : Fin n} {rest rest' : List Coro} (top : s.stack t = k :: rest)
    (top' : s.stack t' = k :: rest') : t = t' :=
  coherent.unique k t t' (by simp [top]) (by simp [top'])

/-- When every thread has a coroutine out of a family of `count` on top, there
are at most `count` threads. -/
theorem Coherent.threads_le {s : State Coro n} (coherent : Coherent s) {count : ℕ}
    (family : ℕ → Coro)
    (held : ∀ t, ∃ i < count, ∃ rest, s.stack t = family i :: rest) : n ≤ count := by
  choose index bound rest top using held
  have injective : Function.Injective fun t => (⟨index t, bound t⟩ : Fin count) := by
    intro t t' same
    have sameIndex : index t = index t' := congrArg Fin.val same
    exact coherent.top_unique (top t) (by rw [top t', sameIndex])
  simpa using Fintype.card_le_of_injective _ injective

section Steps

variable [DecidableEq Coro]

/-- Pushing a coroutine that does not run onto a stack. -/
theorem Coherent.push {s : State Coro n} (coherent : Coherent s) {k : Coro} {t : Fin n}
    (notRunning : s.status k ≠ .running) :
    Coherent ((s.setStatus k .running).setStack t (k :: s.stack t)) where
  running_iff := by
    intro j
    by_cases same : j = k
    · subst same
      simp only [State.setStack_status, State.setStatus_status, Function.update_self, true_iff]
      exact ⟨t, by simp⟩
    · simp only [State.setStack_status, State.setStatus_status, Function.update_of_ne same,
        State.setStack_stack, State.setStatus_stack, coherent.running_iff j]
      constructor
      · rintro ⟨t', member⟩
        refine ⟨t', ?_⟩
        by_cases here : t' = t
        · subst here
          simp [member]
        · simpa [Function.update_of_ne here] using member
      · rintro ⟨t', member⟩
        refine ⟨t', ?_⟩
        by_cases here : t' = t
        · subst here
          simpa [same] using member
        · simpa [Function.update_of_ne here] using member
  nodup := by
    intro t'
    by_cases here : t' = t
    · subst here
      simpa using ⟨coherent.not_mem notRunning t', coherent.nodup t'⟩
    · simpa [Function.update_of_ne here] using coherent.nodup t'
  unique := by
    intro j t₁ t₂ first second
    have back : ∀ t', j ∈ Function.update s.stack t (k :: s.stack t) t' →
        j ∈ s.stack t' ∨ (j = k ∧ t' = t) := by
      intro t' member
      by_cases here : t' = t
      · subst here
        rw [Function.update_self, List.mem_cons] at member
        exact member.symm.imp id fun same => ⟨same, rfl⟩
      · rw [Function.update_of_ne here] at member
        exact Or.inl member
    rcases back t₁ first with old₁ | ⟨same₁, here₁⟩ <;>
      rcases back t₂ second with old₂ | ⟨same₂, here₂⟩
    · exact coherent.unique j t₁ t₂ old₁ old₂
    · exact absurd old₁ (same₂ ▸ coherent.not_mem notRunning t₁)
    · exact absurd old₂ (same₁ ▸ coherent.not_mem notRunning t₂)
    · exact here₁.trans here₂.symm

/-- Popping the coroutine on top of a stack, into any status but running. -/
theorem Coherent.pop {s : State Coro n} (coherent : Coherent s) {k : Coro} {t : Fin n}
    {rest : List Coro} {status : Status} (top : s.stack t = k :: rest)
    (stops : status ≠ .running) :
    Coherent ((s.setStatus k status).setStack t rest) := by
  have onTop : k ∈ s.stack t := by simp [top]
  have notBelow : k ∉ rest := by
    have nodup := coherent.nodup t
    rw [top, List.nodup_cons] at nodup
    exact nodup.1
  have shrinks : ∀ t' j, j ∈ Function.update s.stack t rest t' → j ∈ s.stack t' ∧ j ≠ k := by
    intro t' j member
    by_cases here : t' = t
    · subst here
      rw [Function.update_self] at member
      exact ⟨by simp [top, member], fun same => notBelow (same ▸ member)⟩
    · rw [Function.update_of_ne here] at member
      exact ⟨member, fun same => here (coherent.unique k t' t (same ▸ member) onTop)⟩
  have remains : ∀ t' j, j ∈ s.stack t' → j ≠ k → j ∈ Function.update s.stack t rest t' := by
    intro t' j member other
    by_cases here : t' = t
    · subst here
      simpa [top, other] using member
    · rwa [Function.update_of_ne here]
  refine ⟨?_, ?_, ?_⟩
  · intro j
    by_cases same : j = k
    · subst same
      simp only [State.setStack_status, State.setStatus_status, Function.update_self, stops,
        State.setStack_stack, State.setStatus_stack, false_iff, not_exists]
      exact fun t' member => (shrinks t' j member).2 rfl
    · simp only [State.setStack_status, State.setStatus_status, Function.update_of_ne same,
        State.setStack_stack, State.setStatus_stack, coherent.running_iff j]
      exact ⟨fun ⟨t', member⟩ => ⟨t', remains t' j member same⟩,
        fun ⟨t', member⟩ => ⟨t', (shrinks t' j member).1⟩⟩
  · intro t'
    by_cases here : t' = t
    · subst here
      have nodup := coherent.nodup t'
      rw [top, List.nodup_cons] at nodup
      simpa using nodup.2
    · simpa [Function.update_of_ne here] using coherent.nodup t'
  · intro j t₁ t₂ first second
    exact coherent.unique j t₁ t₂ (shrinks t₁ j first).1 (shrinks t₂ j second).1

/-- Changing the status of a coroutine that does not run, into any status but
running. -/
theorem Coherent.requeue {s : State Coro n} (coherent : Coherent s) {k : Coro}
    {status : Status} (notRunning : s.status k ≠ .running) (stops : status ≠ .running) :
    Coherent (s.setStatus k status) where
  running_iff := by
    intro j
    by_cases same : j = k
    · subst same
      simp only [State.setStatus_status, Function.update_self, stops, State.setStatus_stack,
        false_iff, not_exists]
      exact coherent.not_mem notRunning
    · simpa [Function.update_of_ne same] using coherent.running_iff j
  nodup := coherent.nodup
  unique := coherent.unique

/-- **Every step keeps statuses and stacks in agreement.** -/
theorem Coherent.step {s s' : State Coro n} (coherent : Coherent s) (step : Step s s') :
    Coherent s' := by
  cases step with
  | @resume t k idle ready =>
      have pushed := coherent.push (t := t) (k := k) (by simp [ready])
      rwa [idle] at pushed
  | wake parked => exact coherent.requeue (by simp [parked]) (by decide)
  | park top => exact coherent.pop top (by decide)
  | finish top => exact coherent.pop top (by decide)
  | post absent => exact coherent.requeue (by simp [absent]) (by decide)
  | @nest t k starter rest top absent =>
      have pushed := coherent.push (t := t) (k := k) (by simp [absent])
      rwa [top] at pushed

end Steps

end Lib.Pool
