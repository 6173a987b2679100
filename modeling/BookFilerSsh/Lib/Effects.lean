import Mathlib.Init

/-!
# Programs with state and exceptions

Rules for programs in `EStateM`, whose state changes survive an exception.

The equations of the first section run a program step by step on a state. The
second section is a logic for invariants: `Keeps P E program` says that the program
keeps `P` whether it returns or throws, and throws exceptions in `E` only. It has a
rule for each way programs are put together: a program made of parts that keep `P`
keeps `P`, whatever the results of its tests are.
-/

set_option autoImplicit false

namespace Lib

universe u

variable {ε σ α β : Type u}

namespace Effects

/-- The state a run ends in, by return or by exception. -/
def finalState : EStateM.Result ε σ α → σ
  | .ok _ s => s
  | .error _ s => s

/-! ## Running a program -/

theorem run_bind (program : EStateM ε σ α) (rest : α → EStateM ε σ β) (s : σ) :
    (program >>= rest) s =
      match program s with
      | .ok a next => rest a next
      | .error e next => .error e next := rfl

theorem run_pure (a : α) (s : σ) : (pure a : EStateM ε σ α) s = .ok a s := rfl

theorem run_throw (e : ε) (s : σ) : (throw e : EStateM ε σ α) s = .error e s := rfl

theorem run_modify (f : σ → σ) (s : σ) :
    (modify f : EStateM ε σ PUnit) s = .ok PUnit.unit (f s) := rfl

theorem run_get (s : σ) : (get : EStateM ε σ σ) s = .ok s s := rfl

theorem run_ite (p : Prop) [Decidable p] (yes no : EStateM ε σ α) (s : σ) :
    (if p then yes else no) s = if p then yes s else no s := by
  split <;> rfl

/-! ## Invariants of a program -/

/-- A run ends in a state with `Q`, and what it throws is in `E`. -/
def Ends (Q : σ → Prop) (E : ε → Prop) : EStateM.Result ε σ α → Prop
  | .ok _ s => Q s
  | .error e s => Q s ∧ E e

theorem Ends.final {Q : σ → Prop} {E : ε → Prop} {result : EStateM.Result ε σ α}
    (ends : Ends Q E result) : Q (finalState result) := by
  cases result with
  | ok a s => exact ends
  | error e s => exact ends.1

theorem Ends.and {Q R : σ → Prop} {E : ε → Prop} {result : EStateM.Result ε σ α}
    (first : Ends Q E result) (second : Ends R E result) :
    Ends (fun s => Q s ∧ R s) E result := by
  cases result with
  | ok a s => exact ⟨first, second⟩
  | error e s => exact ⟨⟨first.1, second.1⟩, first.2⟩

theorem Ends.imp {Q R : σ → Prop} {E F : ε → Prop} {result : EStateM.Result ε σ α}
    (ends : Ends Q E result) (state : ∀ s, Q s → R s) (thrown : ∀ e, E e → F e) :
    Ends R F result := by
  cases result with
  | ok a s => exact state s ends
  | error e s => exact ⟨state s ends.1, thrown e ends.2⟩

/-- The program keeps `P`, whether it returns or throws, and what it throws is in `E`. -/
def Keeps (P : σ → Prop) (E : ε → Prop) (program : EStateM ε σ α) : Prop :=
  ∀ s, P s → Ends P E (program s)

namespace Keeps

variable {P : σ → Prop} {E : ε → Prop}

theorem pure (a : α) : Keeps P E (Pure.pure a : EStateM ε σ α) := fun _ holds => holds

theorem throw {e : ε} (expected : E e) : Keeps P E (MonadExcept.throw e : EStateM ε σ α) :=
  fun _ holds => ⟨holds, expected⟩

theorem get : Keeps P E (MonadState.get : EStateM ε σ σ) := fun _ holds => holds

theorem modify {f : σ → σ} (kept : ∀ s, P s → P (f s)) :
    Keeps P E (modify f : EStateM ε σ PUnit) := kept

theorem bind {program : EStateM ε σ α} {rest : α → EStateM ε σ β} (first : Keeps P E program)
    (second : ∀ a, Keeps P E (rest a)) : Keeps P E (program >>= rest) := by
  intro s holds
  have after := first s holds
  rw [run_bind]
  cases ran : program s with
  | ok a next =>
      rw [ran] at after
      exact second a next after
  | error e next =>
      rw [ran] at after
      exact after

/-- What follows a `get` may use that it runs in the state it got. -/
theorem get_bind {rest : σ → EStateM ε σ α}
    (kept : ∀ s, P s → Ends P E (rest s s)) : Keeps P E (MonadState.get >>= rest) := kept

theorem ite {p : Prop} [Decidable p] {yes no : EStateM ε σ α} (first : p → Keeps P E yes)
    (second : ¬ p → Keeps P E no) : Keeps P E (if p then yes else no) := by
  split
  · rename_i holds
    exact first holds
  · rename_i fails
    exact second fails

end Keeps

end Effects

end Lib
