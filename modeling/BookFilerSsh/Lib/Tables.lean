import Mathlib.Data.List.Basic
import Mathlib.Data.List.Forall2
import Mathlib.Data.Finset.Card

/-!
# Tables that grow at the end and are updated in place

A table is a list whose entries are named by their position. Two ways of
following a table through its updates are used.

* A projection of the entries: an update that does not show in the projection
  leaves the projected table as it is (`map_set_of_eq`), and an update that does
  is an update of the projected table (`map_modify_of`).
* A property of every entry and its position, kept by an update when the new
  entry has it (`forall_set`, `forall_modify`, `forall_concat`).

The positions of an entry are as many as the table has of it (`card_positions`).

Two tables that belong together entry by entry stay so when an entry of one or of both
is updated (`forall₂_set`, `forall₂_modify_left`).
-/

set_option autoImplicit false

namespace Lib.Tables

universe u v

variable {α : Type u} {γ : Type v}

/-! ## Projections -/

theorem map_set_of_eq {g : α → γ} {table : List α} {i : ℕ} {x y : α}
    (found : table[i]? = some x) (same : g y = g x) :
    (table.set i y).map g = table.map g := by
  refine List.ext_getElem? fun j => ?_
  by_cases here : i = j
  · subst here
    obtain ⟨inside, rfl⟩ := List.getElem?_eq_some_iff.mp found
    simp [inside, same]
  · simp [List.getElem?_set_ne here]

theorem map_modify_of {g : α → γ} {f : α → α} {h : γ → γ} (through : ∀ x, g (f x) = h (g x))
    (table : List α) (i : ℕ) : (table.modify i f).map g = (table.map g).modify i h := by
  refine List.ext_getElem? fun j => ?_
  by_cases here : i = j
  · subst here
    simp only [List.getElem?_map, List.getElem?_modify, if_true, Option.map_eq_map,
      Option.map_map, Function.comp_def, through]
  · simp [here]

/-- An update that does not show. -/
theorem map_modify_of_eq {g : α → γ} {f : α → α} (same : ∀ x, g (f x) = g x)
    (table : List α) (i : ℕ) : (table.modify i f).map g = table.map g := by
  rw [map_modify_of (h := id) same, List.modify_id]

theorem modify_concat (f : α → α) (before : List α) (x : α) {i : ℕ} (last : before.length = i) :
    (before ++ [x]).modify i f = before ++ [f x] := by
  subst last
  refine List.ext_getElem? fun j => ?_
  rcases Nat.lt_trichotomy j before.length with inside | here | outside
  · simp [List.getElem?_append_left inside, Nat.ne_of_gt inside]
  · simp [here]
  · rw [List.getElem?_eq_none (by simp; omega), List.getElem?_eq_none (by simp; omega)]

/-! ## Properties of every entry -/

theorem forall_set {P : ℕ → α → Prop} {table : List α} {i : ℕ} {y : α}
    (holds : ∀ j x, table[j]? = some x → P j x) (new : P i y) :
    ∀ j x, (table.set i y)[j]? = some x → P j x := by
  intro j x found
  by_cases here : i = j
  · subst here
    rw [List.getElem?_set_self', Option.map_eq_map, Option.map_eq_some_iff] at found
    obtain ⟨_, _, rfl⟩ := found
    exact new
  · rw [List.getElem?_set_ne here] at found
    exact holds j x found

theorem forall_modify {P : ℕ → α → Prop} {table : List α} {i : ℕ} {f : α → α}
    (holds : ∀ j x, table[j]? = some x → P j x)
    (new : ∀ x, table[i]? = some x → P i (f x)) :
    ∀ j x, (table.modify i f)[j]? = some x → P j x := by
  intro j x found
  rw [List.getElem?_modify, Option.map_eq_map, Option.map_eq_some_iff] at found
  obtain ⟨y, foundY, rfl⟩ := found
  by_cases here : i = j
  · subst here
    simpa using new y foundY
  · simpa [here] using holds j y foundY

theorem forall_concat {P : ℕ → α → Prop} {table : List α} {y : α}
    (holds : ∀ j x, table[j]? = some x → P j x) (new : P table.length y) :
    ∀ j x, (table ++ [y])[j]? = some x → P j x := by
  intro j x found
  rcases Nat.lt_trichotomy j table.length with inside | here | outside
  · rw [List.getElem?_append_left inside] at found
    exact holds j x found
  · subst here
    rw [List.getElem?_concat_length, Option.some.injEq] at found
    exact found ▸ new
  · rw [List.getElem?_eq_none (by simp; omega)] at found
    cases found

/-! ## The positions of an entry -/

theorem getElem?_concat_of_ne {table : List α} {x y : α} (other : y ≠ x) {i : ℕ} :
    (table ++ [y])[i]? = some x ↔ table[i]? = some x := by
  rcases Nat.lt_trichotomy i table.length with inside | here | outside
  · rw [List.getElem?_append_left inside]
  · simp [here, other]
  · rw [List.getElem?_eq_none (by simp; omega), List.getElem?_eq_none (by omega)]

section Positions

variable [DecidableEq α] {table : List α} {x : α} {i : ℕ}

/-- Where the table has the entry. -/
def positions (table : List α) (x : α) : Finset ℕ :=
  (Finset.range table.length).filter fun i => table[i]? = some x

theorem mem_positions : i ∈ positions table x ↔ table[i]? = some x := by
  unfold positions
  rw [Finset.mem_filter, Finset.mem_range, and_iff_right_iff_imp]
  exact fun found => (List.getElem?_eq_some_iff.mp found).1

theorem card_positions (table : List α) (x : α) : (positions table x).card = table.count x := by
  induction table using List.reverseRecOn with
  | nil => rfl
  | append_singleton before y ih =>
      have kept : (Finset.range before.length).filter (fun i => (before ++ [y])[i]? = some x) =
          positions before x := by
        refine Finset.filter_congr fun i member => ?_
        rw [List.getElem?_append_left (Finset.mem_range.mp member)]
      rw [positions, List.length_append, List.length_singleton, Finset.range_add_one,
        Finset.filter_insert, List.getElem?_concat_length, kept, List.count_append,
        List.count_singleton, ← ih]
      by_cases same : y = x
      · subst same
        rw [if_pos rfl, if_pos (by simp), Finset.card_insert_of_notMem]
        simp [mem_positions]
      · rw [if_neg (by simpa using same), if_neg (by simpa using same), Nat.add_zero]

end Positions

/-! ## Two tables, entry by entry -/

section Forall₂

variable {R : α → γ → Prop} {left : List α} {right : List γ}

theorem forall₂_getElem? (related : List.Forall₂ R left right) {i : ℕ} {x : α}
    (found : left[i]? = some x) : ∃ y, right[i]? = some y ∧ R x y := by
  induction related generalizing i with
  | nil => cases found
  | @cons a b left right one _ ih =>
      cases i with
      | zero =>
          cases found
          exact ⟨b, rfl, one⟩
      | succ i => exact ih found

theorem forall₂_concat (related : List.Forall₂ R left right) {x : α} {y : γ} (new : R x y) :
    List.Forall₂ R (left ++ [x]) (right ++ [y]) :=
  List.rel_append related (.cons new .nil)

theorem forall₂_set (related : List.Forall₂ R left right) (i : ℕ) {x : α} {y : γ} (new : R x y) :
    List.Forall₂ R (left.set i x) (right.set i y) := by
  induction related generalizing i with
  | nil => exact .nil
  | cons one rest ih =>
      cases i with
      | zero => exact .cons new rest
      | succ i => exact .cons one (ih i)

theorem forall₂_set_left (related : List.Forall₂ R left right) {i : ℕ} {x : α}
    (new : ∀ y, right[i]? = some y → R x y) : List.Forall₂ R (left.set i x) right := by
  induction related generalizing i with
  | nil => exact .nil
  | @cons a b left right one rest ih =>
      cases i with
      | zero => exact .cons (new b rfl) rest
      | succ i => exact .cons one (ih new)

theorem forall₂_modify_left (related : List.Forall₂ R left right) {i : ℕ} {f : α → α}
    (new : ∀ x y, left[i]? = some x → R x y → R (f x) y) :
    List.Forall₂ R (left.modify i f) right := by
  induction related generalizing i with
  | nil => simp
  | @cons a b left right one rest ih =>
      cases i with
      | zero => exact .cons (new a b rfl one) rest
      | succ i => exact .cons one (ih new)

end Forall₂

end Lib.Tables
