import Mathlib.Data.List.Basic

/-!
# Records filled from a map

A constructor that runs through the entries of a map and assigns each value to the
member its key names. When every member is assigned under one key of its own, the
order of the entries does not matter: a member ends up with what the map has under
its key, and keeps what it held before when there is nothing it can take
(`get_fill`).
-/

set_option autoImplicit false

namespace Lib.Assignments

universe u v w z

variable {κ : Type u} {ν : Type v} {σ : Type w} {α : Type z}

/-- Run through the entries and assign each of them. -/
def fill (assign : σ → κ → ν → σ) (entries : List (κ × ν)) (record : σ) : σ :=
  entries.foldl (fun record entry => assign record entry.1 entry.2) record

/-- The member `get` is assigned under `key` only, there to the value taken from the
entry, or not at all when the entry has none for it. -/
structure AssignedUnder (assign : σ → κ → ν → σ) (get : σ → α) (key : κ)
    (take : ν → Option α) : Prop where
  here : ∀ record value, get (assign record key value) = (take value).getD (get record)
  elsewhere : ∀ record other value, other ≠ key → get (assign record other value) = get record

variable {assign : σ → κ → ν → σ} {get : σ → α} {key : κ} {take : ν → Option α}

/-- A member whose key does not occur is left alone. -/
theorem get_fill_of_notMem (member : AssignedUnder assign get key take)
    {entries : List (κ × ν)} (absent : key ∉ entries.map Prod.fst) (record : σ) :
    get (fill assign entries record) = get record := by
  induction entries generalizing record with
  | nil => rfl
  | cons entry entries ih =>
      simp only [List.map_cons, List.mem_cons, not_or] at absent
      obtain ⟨other, absentLater⟩ := absent
      have step := member.elsewhere record entry.1 entry.2 fun same => other same.symm
      exact (ih absentLater (assign record entry.1 entry.2)).trans step

/-- **A member holds what the map has under its key.** -/
theorem get_fill [BEq κ] [LawfulBEq κ] (member : AssignedUnder assign get key take)
    {entries : List (κ × ν)} (distinct : (entries.map Prod.fst).Nodup) (record : σ) :
    get (fill assign entries record) = ((entries.lookup key).bind take).getD (get record) := by
  induction entries generalizing record with
  | nil => rfl
  | cons entry entries ih =>
      obtain ⟨first, value⟩ := entry
      rw [List.map_cons, List.nodup_cons] at distinct
      obtain ⟨absent, distinctLater⟩ := distinct
      by_cases same : first = key
      · subst same
        have rest := get_fill_of_notMem member absent (assign record first value)
        rw [List.lookup_cons_self]
        exact rest.trans (member.here record value)
      · have step := member.elsewhere record first value same
        have skipped : ((first, value) :: entries).lookup key = entries.lookup key := by
          rw [List.lookup_cons, beq_eq_false_iff_ne.mpr (Ne.symm same)]
        rw [skipped, ← step]
        exact ih distinctLater (assign record first value)

end Lib.Assignments
