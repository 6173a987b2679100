import Mathlib.Data.List.Flatten
import Mathlib.Data.List.Perm.Basic
import Mathlib.Algebra.GroupWithZero.Nat
import Mathlib.Algebra.Order.Group.Nat

/-!
# Work lists

A loop that takes the item at the front of a queue, gives some output for it and puts
further items at the end, until the queue is empty or an item stops it. Items get
smaller, so the loop ends, whatever the queue holds.

The loop goes through the items generation by generation: where no item it reaches
stops it, its output is that of the first generation, then that of the items these
put in the queue, and so on (`drain_eq_levels`). So it gives what a recursive visit of
the items gives, in another order (`drain_perm_visit`).
-/

set_option autoImplicit false

namespace Lib

universe u v w z

/-- What the loop does with an item: its output, and the items it puts in the queue
unless it stops the loop. The items put in the queue are smaller together than the
one they come from. -/
structure WorkList (α : Type u) (β : Type v) where
  handle : α → List β × Option (List α)
  size : α → ℕ
  smaller : ∀ item next, (handle item).2 = some next → (next.map size).sum < size item

namespace WorkList

variable {α : Type u} {β : Type v} (W : WorkList α β)

/-- Run the loop on a queue: the output, and whether the queue was emptied. -/
def drain (queue : List α) : List β × Bool :=
  match queue with
  | [] => ([], true)
  | item :: rest =>
      match _handled : (W.handle item).2 with
      | none => ((W.handle item).1, false)
      | some next =>
          let later := drain (rest ++ next)
          ((W.handle item).1 ++ later.1, later.2)
termination_by (queue.map W.size).sum
decreasing_by
  have shrinks := W.smaller item next _handled
  simp only [List.map_append, List.sum_append, List.map_cons, List.sum_cons]
  omega

theorem drain_nil : W.drain [] = ([], true) := by
  rw [drain]

variable {W}

theorem drain_cons_of_stops {item : α} (stops : (W.handle item).2 = none) (rest : List α) :
    W.drain (item :: rest) = ((W.handle item).1, false) := by
  rw [drain]
  split
  · rfl
  · next next handled => cases stops.symm.trans handled

theorem drain_cons_of_continues {item : α} {next : List α}
    (continues : (W.handle item).2 = some next) (rest : List α) :
    W.drain (item :: rest) =
      ((W.handle item).1 ++ (W.drain (rest ++ next)).1, (W.drain (rest ++ next)).2) := by
  rw [drain]
  split
  · next handled => cases continues.symm.trans handled
  · next other handled =>
      cases continues.symm.trans handled
      rfl

/-! ## Generations -/

/-- Items with `P` give `output`, put `children` in the queue, and these have `P`. -/
structure Closed (W : WorkList α β) (P : α → Prop) (output : α → List β)
    (children : α → List α) : Prop where
  handle_eq : ∀ item, P item → W.handle item = (output item, some (children item))
  children_closed : ∀ item, P item → ∀ child ∈ children item, P child

/-- The output of the items `n` generations below an item, in order. -/
def level (output : α → List β) (children : α → List α) : ℕ → α → List β
  | 0, item => output item
  | n + 1, item => (children item).flatMap (level output children n)

/-- No item is `n` generations below the item. -/
def EndsBy (children : α → List α) : ℕ → α → Prop
  | 0, _ => False
  | n + 1, item => ∀ child ∈ children item, EndsBy children n child

theorem EndsBy.succ {children : α → List α} {n : ℕ} {item : α}
    (ends : EndsBy children n item) : EndsBy children (n + 1) item := by
  induction n generalizing item with
  | zero => exact ends.elim
  | succ n ih =>
      intro child among
      exact ih (ends child among)

variable {P : α → Prop} {output : α → List β} {children : α → List α}

/-- The items at the front are handled first; what they put in the queue comes after
the items behind them. -/
theorem Closed.drain_append (closed : W.Closed P output children) {front : List α}
    (allowed : ∀ item ∈ front, P item) (back : List α) :
    W.drain (front ++ back) =
      (front.flatMap output ++ (W.drain (back ++ front.flatMap children)).1,
        (W.drain (back ++ front.flatMap children)).2) := by
  induction front generalizing back with
  | nil => simp only [List.nil_append, List.flatMap_nil, List.append_nil]
  | cons item front ih =>
      have handled := closed.handle_eq item (allowed item List.mem_cons_self)
      have continues : (W.handle item).2 = some (children item) := by rw [handled]
      have later := ih (fun other among => allowed other (List.mem_cons_of_mem item among))
        (back ++ children item)
      rw [List.append_assoc] at later
      rw [List.cons_append, drain_cons_of_continues continues, List.append_assoc, later, handled]
      simp only [List.flatMap_cons, List.append_assoc]

/-- One generation is handled, then the next. -/
theorem Closed.drain_eq (closed : W.Closed P output children) {queue : List α}
    (allowed : ∀ item ∈ queue, P item) :
    W.drain queue =
      (queue.flatMap output ++ (W.drain (queue.flatMap children)).1,
        (W.drain (queue.flatMap children)).2) := by
  have whole := closed.drain_append allowed []
  rwa [List.append_nil, List.nil_append] at whole

theorem flatMap_level_succ (output : α → List β) (children : α → List α) (n : ℕ)
    (queue : List α) :
    (queue.flatMap children).flatMap (level output children n) =
      queue.flatMap (level output children (n + 1)) := by
  rw [List.flatMap_assoc]
  rfl

/-- **The loop empties the queue and gives its output generation by generation.** -/
theorem Closed.drain_eq_levels (closed : W.Closed P output children) (n : ℕ) {queue : List α}
    (allowed : ∀ item ∈ queue, P item) (ends : ∀ item ∈ queue, EndsBy children n item) :
    W.drain queue =
      ((List.range n).flatMap fun k => queue.flatMap (level output children k), true) := by
  induction n generalizing queue with
  | zero =>
      have none_left : queue = [] := List.eq_nil_iff_forall_not_mem.mpr ends
      rw [none_left, drain_nil]
      rfl
  | succ n ih =>
      have allowedNext : ∀ child ∈ queue.flatMap children, P child := by
        intro child among
        obtain ⟨item, here, below⟩ := List.mem_flatMap.mp among
        exact closed.children_closed item (allowed item here) child below
      have endsNext : ∀ child ∈ queue.flatMap children, EndsBy children n child := by
        intro child among
        obtain ⟨item, here, below⟩ := List.mem_flatMap.mp among
        exact ends item here child below
      rw [closed.drain_eq allowed, ih allowedNext endsNext, List.range_succ_eq_map,
        List.flatMap_cons, List.flatMap_map]
      simp only [flatMap_level_succ]
      rfl

/-! ## Recursive visits -/

/-- Two nested loops can be exchanged, up to the order of the output. -/
theorem flatMap_flatMap_perm {γ : Type w} {δ : Type z} (first : List γ) (second : List δ)
    (give : γ → δ → List β) :
    (first.flatMap fun c => second.flatMap fun d => give c d).Perm
      (second.flatMap fun d => first.flatMap fun c => give c d) := by
  induction second with
  | nil =>
      simp only [List.flatMap_nil]
      rw [List.flatMap_eq_nil_iff.mpr fun c among => rfl]
  | cons d second ih =>
      simp only [List.flatMap_cons]
      exact ((List.flatMap_append_perm first (fun c => give c d) _).symm).trans
        (ih.append_left _)

/-- A recursive visit gives the output of an item and of everything below it. -/
def Visits (P : α → Prop) (output : α → List β) (children : α → List α)
    (visit : α → List β) : Prop :=
  ∀ item, P item → (visit item).Perm (output item ++ (children item).flatMap visit)

theorem Closed.levels_perm_visit (closed : W.Closed P output children) {visit : α → List β}
    (visits : Visits P output children visit) (n : ℕ) {item : α} (allowed : P item)
    (ends : EndsBy children n item) :
    ((List.range n).flatMap fun k => level output children k item).Perm (visit item) := by
  induction n generalizing item with
  | zero => exact ends.elim
  | succ n ih =>
      refine List.Perm.trans ?_ (visits item allowed).symm
      rw [List.range_succ_eq_map, List.flatMap_cons, List.flatMap_map]
      refine List.Perm.append_left (output item) ?_
      refine (flatMap_flatMap_perm (List.range n) (children item) _).trans ?_
      refine List.Perm.flatMap_left (children item) ?_
      intro child among
      exact ih (closed.children_closed item allowed child among) (ends child among)

/-- **The loop gives what a recursive visit gives, in another order.** -/
theorem Closed.drain_perm_visit (closed : W.Closed P output children) {visit : α → List β}
    (visits : Visits P output children visit) (n : ℕ) {item : α} (allowed : P item)
    (ends : EndsBy children n item) : ((W.drain [item]).1).Perm (visit item) := by
  have allAllowed : ∀ other ∈ [item], P other := by
    intro other among
    rw [List.mem_singleton.mp among]
    exact allowed
  have allEnd : ∀ other ∈ [item], EndsBy children n other := by
    intro other among
    rw [List.mem_singleton.mp among]
    exact ends
  rw [closed.drain_eq_levels n allAllowed allEnd]
  simp only [List.flatMap_singleton]
  exact closed.levels_perm_visit visits n allowed ends

end WorkList

end Lib
