import Mathlib.Data.List.Induction
import Mathlib.Tactic.ByContra

/-!
# Machines, their runs and the rules for runs

A machine has an initial state and a partial step function: an action that is
not enabled in a state leads nowhere. An interleaving of several parties is a
list of actions, so a statement about every order of steps is a statement about
every run.

Two rules carry the statements about runs.

* `Machine.invariant`: what holds initially and is kept by every step holds in
  every reachable state.
* `Machine.throughout_iff_guarded`: when every step that respects a guard keeps
  a property and every enabled step against the guard breaks it, the property
  holds throughout a run exactly when every step of the run respects the guard.

`Machine.exec_rank` bounds how often something happens in a run by a rank it lowers.

`Machine.recording` is a machine that keeps a record of its steps and is otherwise the
same (`Machine.exec_recording`). `Machine.invariant_of_simulation` moves an invariant of a
relation on abstract states to the machine, when every step of the machine is a step of the
relation or leaves the abstract state as it is.
-/

set_option autoImplicit false

namespace Lib

universe u v w

/-- An initial state and a partial step function. -/
structure Machine (State : Type u) (Action : Type v) where
  init : State
  step : State → Action → Option State

namespace Machine

variable {State : Type u} {Action : Type v} (M : Machine State Action)

/-- The state a run ends in, when each of its actions is enabled in turn. -/
def exec (s : State) : List Action → Option State
  | [] => some s
  | a :: as => (M.step s a).bind fun next => exec next as

/-- A state some run from the initial state ends in. -/
def Reachable (s : State) : Prop := ∃ as, M.exec M.init as = some s

/-- Some run leads from the one state to the other. -/
def Leads (s t : State) : Prop := ∃ as, M.exec s as = some t

/-- The property holds in every state the run passes through, first and last
included. A list of actions is a run as far as its actions are enabled. -/
def Throughout (P : State → Prop) (s : State) (as : List Action) : Prop :=
  ∀ before after t, as = before ++ after → M.exec s before = some t → P t

/-- Every action the run takes respects the guard in the state it is taken in. -/
def Guarded (guard : State → Action → Prop) (s : State) (as : List Action) : Prop :=
  ∀ before a after t next, as = before ++ a :: after → M.exec s before = some t →
    M.step t a = some next → guard t a

/-! ## Runs -/

@[simp] theorem exec_nil (s : State) : M.exec s [] = some s := rfl

@[simp] theorem exec_cons (s : State) (a : Action) (as : List Action) :
    M.exec s (a :: as) = (M.step s a).bind fun next => M.exec next as := rfl

theorem exec_append (s : State) (as bs : List Action) :
    M.exec s (as ++ bs) = (M.exec s as).bind fun next => M.exec next bs := by
  induction as generalizing s with
  | nil => rfl
  | cons a as ih =>
      cases stepped : M.step s a with
      | none => simp [stepped]
      | some next => simp [stepped, ih next]

theorem exec_append_eq_some {s t : State} {as bs : List Action} :
    M.exec s (as ++ bs) = some t ↔
      ∃ middle, M.exec s as = some middle ∧ M.exec middle bs = some t := by
  rw [exec_append, Option.bind_eq_some_iff]

theorem exec_concat_eq_some {s t : State} {as : List Action} {a : Action} :
    M.exec s (as ++ [a]) = some t ↔
      ∃ middle, M.exec s as = some middle ∧ M.step middle a = some t := by
  rw [exec_append_eq_some]
  simp

theorem reachable_init : M.Reachable M.init := ⟨[], rfl⟩

variable {M}

theorem Reachable.exec {s t : State} {as : List Action} (reached : M.Reachable s)
    (run : M.exec s as = some t) : M.Reachable t := by
  obtain ⟨before, toS⟩ := reached
  exact ⟨before ++ as, M.exec_append_eq_some.mpr ⟨s, toS, run⟩⟩

theorem Reachable.step {s t : State} {a : Action} (reached : M.Reachable s)
    (stepped : M.step s a = some t) : M.Reachable t :=
  reached.exec (show M.exec s [a] = some t by simp [stepped])

theorem Leads.refl (s : State) : M.Leads s s := ⟨[], rfl⟩

theorem Leads.step {s t : State} {a : Action} (stepped : M.step s a = some t) : M.Leads s t :=
  ⟨[a], by simp [stepped]⟩

theorem Leads.trans {s t u : State} (first : M.Leads s t) (second : M.Leads t u) :
    M.Leads s u := by
  obtain ⟨as, toT⟩ := first
  obtain ⟨bs, toU⟩ := second
  exact ⟨as ++ bs, M.exec_append_eq_some.mpr ⟨t, toT, toU⟩⟩

theorem Reachable.leads {s t : State} (reached : M.Reachable s) (leads : M.Leads s t) :
    M.Reachable t := by
  obtain ⟨as, run⟩ := leads
  exact reached.exec run

/-! ## Invariants -/

/-- What every step keeps, every run keeps. -/
theorem exec_invariant {I : State → Prop}
    (keeps : ∀ s a t, I s → M.step s a = some t → I t) {s t : State} {as : List Action}
    (holds : I s) (run : M.exec s as = some t) : I t := by
  induction as generalizing s with
  | nil =>
      rw [exec_nil, Option.some.injEq] at run
      exact run ▸ holds
  | cons a as ih =>
      rw [exec_cons, Option.bind_eq_some_iff] at run
      obtain ⟨next, stepped, rest⟩ := run
      exact ih (keeps s a next holds stepped) rest

/-- **The invariant rule.** -/
theorem invariant {I : State → Prop} (initial : I M.init)
    (keeps : ∀ s a t, I s → M.step s a = some t → I t) {s : State}
    (reached : M.Reachable s) : I s := by
  obtain ⟨as, run⟩ := reached
  exact exec_invariant keeps initial run

/-- An invariant whose step lemma may use another invariant. -/
theorem invariant_with {J I : State → Prop} (background : ∀ s, M.Reachable s → J s)
    (initial : I M.init)
    (keeps : ∀ s a t, J s → I s → M.step s a = some t → I t) {s : State}
    (reached : M.Reachable s) : I s := by
  have both : M.Reachable s ∧ I s := by
    refine M.invariant (I := fun s => M.Reachable s ∧ I s) ⟨M.reachable_init, initial⟩ ?_ reached
    rintro s a t ⟨reachedS, holds⟩ stepped
    exact ⟨reachedS.step stepped, keeps s a t (background s reachedS) holds stepped⟩
  exact both.2

/-- A relation on abstract states, and an invariant of it, carry over to a
machine each of whose steps is a step of the relation or invisible in it. -/
theorem invariant_of_simulation {Abstract : Type w} (view : State → Abstract)
    (related : Abstract → Abstract → Prop) (I : Abstract → Prop)
    (simulates : ∀ s a t, M.Reachable s → M.step s a = some t →
      view t = view s ∨ related (view s) (view t))
    (initial : I (view M.init))
    (keeps : ∀ x y, I x → related x y → I y) {s : State}
    (reached : M.Reachable s) : I (view s) := by
  refine M.invariant_with (J := M.Reachable) (I := fun s => I (view s)) (fun _ reachedS => reachedS)
    initial ?_ reached
  intro s a t reachedS holds stepped
  rcases simulates s a t reachedS stepped with same | moved
  · rw [same]
    exact holds
  · exact keeps _ _ holds moved

/-! ## Records of a run -/

/-- The machine, with a record that every step may add to. -/
def recording (M : Machine State Action) {Log : Type w} (start : Log)
    (record : State → Action → State → Log → Log) : Machine (State × Log) Action where
  init := (M.init, start)
  step s a := (M.step s.1 a).map fun next => (next, record s.1 a next s.2)

section Recording

variable {Log : Type w} {start : Log} {record : State → Action → State → Log → Log}

/-- **Keeping a record changes no run.** -/
theorem exec_recording (s : State × Log) (as : List Action) :
    ((M.recording start record).exec s as).map Prod.fst = M.exec s.1 as := by
  induction as generalizing s with
  | nil => rfl
  | cons a as ih =>
      rw [exec_cons, exec_cons]
      cases stepped : M.step s.1 a with
      | none => simp [recording, stepped]
      | some next =>
          have recorded : (M.recording start record).step s a =
              some (next, record s.1 a next s.2) := by simp [recording, stepped]
          rw [recorded, Option.bind_some, Option.bind_some]
          exact ih (next, record s.1 a next s.2)

theorem Reachable.of_recording {s : State × Log}
    (reached : (M.recording start record).Reachable s) :
    M.Reachable s.1 := by
  obtain ⟨as, run⟩ := reached
  refine ⟨as, ?_⟩
  rw [show M.init = (M.recording start record).init.1 from rfl, ← exec_recording, run]
  rfl

theorem recording_step_eq_some {s t : State × Log} {a : Action} :
    (M.recording start record).step s a = some t ↔
      ∃ next, M.step s.1 a = some next ∧ (next, record s.1 a next s.2) = t :=
  Option.map_eq_some_iff

end Recording

/-! ## Properties of whole runs -/

theorem Throughout.mono {P Q : State → Prop} {s : State} {as : List Action}
    (throughout : M.Throughout Q s as) (weaker : ∀ t, Q t → P t) : M.Throughout P s as :=
  fun before after t split run => weaker t (throughout before after t split run)

/-- A property kept by every step that respects the guard holds throughout every
run whose steps all respect it. -/
theorem throughout_of_guarded {P : State → Prop} {guard : State → Action → Prop}
    (initial : P M.init)
    (keeps : ∀ s a t, M.Reachable s → P s → guard s a → M.step s a = some t → P t)
    {as : List Action} (guarded : M.Guarded guard M.init as) :
    M.Throughout P M.init as := by
  intro before
  induction before using List.reverseRecOn with
  | nil =>
      intro after t _ run
      rw [exec_nil, Option.some.injEq] at run
      exact run ▸ initial
  | append_singleton before a ih =>
      intro after t split run
      obtain ⟨middle, toMiddle, stepped⟩ := M.exec_concat_eq_some.mp run
      have splitBefore : as = before ++ a :: after := by rw [split]; simp
      exact keeps middle a t ⟨before, toMiddle⟩ (ih (a :: after) middle splitBefore toMiddle)
        (guarded before a after middle t splitBefore toMiddle stepped) stepped

/-- When every enabled step against the guard breaks the property, a run that
keeps it throughout takes no such step. -/
theorem guarded_of_throughout {P : State → Prop} {guard : State → Action → Prop}
    (breaks : ∀ s a t, M.Reachable s → ¬ guard s a → M.step s a = some t → ¬ P t)
    {as : List Action} (throughout : M.Throughout P M.init as) :
    M.Guarded guard M.init as := by
  intro before a after t next split toT stepped
  by_contra against
  refine breaks t a next ⟨before, toT⟩ against stepped ?_
  exact throughout (before ++ [a]) after next (by rw [split]; simp)
    (M.exec_concat_eq_some.mpr ⟨t, toT, stepped⟩)

theorem guarded_cons {guard : State → Action → Prop} {s : State} {a : Action} {as : List Action}
    (first : ∀ next, M.step s a = some next → guard s a ∧ M.Guarded guard next as) :
    M.Guarded guard s (a :: as) := by
  intro before b after t next split run stepped
  cases before with
  | nil =>
      rw [exec_nil, Option.some.injEq] at run
      obtain ⟨rfl, -⟩ := List.cons.inj split
      exact run ▸ (first next (run ▸ stepped)).1
  | cons c before =>
      obtain ⟨rfl, rest⟩ := List.cons.inj split
      rw [exec_cons, Option.bind_eq_some_iff] at run
      obtain ⟨middle, taken, toT⟩ := run
      exact (first middle taken).2 before b after t next rest toT stepped

/-- Run the actions and test the guard at each of them. -/
def respects (M : Machine State Action) (guard : State → Action → Prop)
    [∀ s a, Decidable (guard s a)] (s : State) : List Action → Bool
  | [] => true
  | a :: as =>
      match M.step s a with
      | none => true
      | some next => decide (guard s a) && M.respects guard next as

theorem guarded_of_respects {guard : State → Action → Prop} [∀ s a, Decidable (guard s a)]
    {s : State} {as : List Action} (passes : M.respects guard s as = true) :
    M.Guarded guard s as := by
  induction as generalizing s with
  | nil =>
      intro before a after t next split
      exact absurd split (by simp)
  | cons a as ih =>
      refine guarded_cons fun next stepped => ?_
      rw [respects, stepped] at passes
      obtain ⟨holds, rest⟩ := Bool.and_eq_true_iff.mp passes
      exact ⟨of_decide_eq_true holds, ih rest⟩

/-- **The guard rule.** A property that guarded steps keep and unguarded steps
break holds throughout a run exactly when the run respects the guard. -/
theorem throughout_iff_guarded {P : State → Prop} {guard : State → Action → Prop}
    (initial : P M.init)
    (keeps : ∀ s a t, M.Reachable s → P s → guard s a → M.step s a = some t → P t)
    (breaks : ∀ s a t, M.Reachable s → ¬ guard s a → M.step s a = some t → ¬ P t)
    (as : List Action) :
    M.Throughout P M.init as ↔ M.Guarded guard M.init as :=
  ⟨guarded_of_throughout breaks, throughout_of_guarded initial keeps⟩

/-! ## Ranks -/

/-- **The rank rule.** A rank that no step raises and every counted one lowers bounds how
many of them a run takes. -/
theorem exec_rank {I : State → Prop} {allowed : Action → Prop} (counted : Action → Bool)
    (rank : State → ℕ) (keeps : ∀ s a t, I s → M.step s a = some t → I t)
    (sinks : ∀ s a t, I s → allowed a → M.step s a = some t →
      (if counted a = true then 1 else 0) + rank t ≤ rank s)
    {s t : State} {as : List Action} (holds : I s) (all : ∀ a ∈ as, allowed a)
    (run : M.exec s as = some t) : as.countP counted + rank t ≤ rank s := by
  induction as generalizing s with
  | nil =>
      rw [exec_nil, Option.some.injEq] at run
      subst run
      exact Nat.le_of_eq (Nat.zero_add _)
  | cons a as ih =>
      rw [exec_cons, Option.bind_eq_some_iff] at run
      obtain ⟨next, stepped, rest⟩ := run
      have first := sinks s a next holds (all a List.mem_cons_self) stepped
      have later := ih (keeps s a next holds stepped)
        (fun b later => all b (List.mem_cons_of_mem a later)) rest
      rw [List.countP_cons]
      omega

end Machine

end Lib
