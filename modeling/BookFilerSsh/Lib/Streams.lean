import Mathlib.Data.List.Basic

/-!
# Byte streams as lists

Two facts about streams that are put together from pieces.

* When every piece of one stream is at least as long as the piece of the other
  stream it stands for, the streams are equal only when all pieces are
  (`flatMap_eq_flatMap_iff`): a surplus in one piece is never made up for by a
  later one.
* `Interleaves first second merged` says that `merged` consists of `first` and
  `second`, each in its own order. Two writers that append to one stream, a few
  elements at a time in any order, leave an interleaving of what each of them
  wrote (`Interleaves.append_left`, `Interleaves.append_right`).
-/

set_option autoImplicit false

namespace Lib

universe u v

variable {α : Type u} {ι : Type v}

/-! ## Streams made of pieces -/

theorem length_flatMap_le {f g : ι → List α} {items : List ι}
    (longer : ∀ i ∈ items, (g i).length ≤ (f i).length) :
    (items.flatMap g).length ≤ (items.flatMap f).length := by
  induction items with
  | nil => exact Nat.le_refl _
  | cons i items ih =>
      have headLonger := longer i (List.mem_cons_self ..)
      have tailLonger := ih fun j member => longer j (List.mem_cons_of_mem _ member)
      simp only [List.flatMap_cons, List.length_append]
      omega

/-- **Surplus is never made up for.** -/
theorem flatMap_eq_flatMap_iff {f g : ι → List α} {items : List ι}
    (longer : ∀ i ∈ items, (g i).length ≤ (f i).length) :
    items.flatMap f = items.flatMap g ↔ ∀ i ∈ items, f i = g i := by
  induction items with
  | nil => simp
  | cons i items ih =>
      have headLonger := longer i (List.mem_cons_self ..)
      have tailLonger : ∀ j ∈ items, (g j).length ≤ (f j).length :=
        fun j member => longer j (List.mem_cons_of_mem _ member)
      rw [List.flatMap_cons, List.flatMap_cons, List.forall_mem_cons, ← ih tailLonger]
      constructor
      · intro same
        have lengths := congrArg List.length same
        simp only [List.length_append] at lengths
        have tails := length_flatMap_le tailLonger
        exact List.append_inj same (by omega)
      · rintro ⟨headSame, tailSame⟩
        rw [headSame, tailSame]

/-! ## Interleavings -/

/-- `merged` consists of the elements of `first` and of `second`, each list in
its own order. -/
inductive Interleaves : List α → List α → List α → Prop where
  | nil : Interleaves [] [] []
  | left {first second merged : List α} (x : α) :
      Interleaves first second merged → Interleaves (first ++ [x]) second (merged ++ [x])
  | right {first second merged : List α} (x : α) :
      Interleaves first second merged → Interleaves first (second ++ [x]) (merged ++ [x])

namespace Interleaves

variable {first second merged : List α}

/-- The first writer appends. -/
theorem append_left (interleaves : Interleaves first second merged) (xs : List α) :
    Interleaves (first ++ xs) second (merged ++ xs) := by
  induction xs generalizing first merged with
  | nil => simpa using interleaves
  | cons x xs ih => simpa using ih (interleaves.left x)

/-- The second writer appends. -/
theorem append_right (interleaves : Interleaves first second merged) (xs : List α) :
    Interleaves first (second ++ xs) (merged ++ xs) := by
  induction xs generalizing second merged with
  | nil => simpa using interleaves
  | cons x xs ih => simpa using ih (interleaves.right x)

theorem mem_iff (interleaves : Interleaves first second merged) (x : α) :
    x ∈ merged ↔ x ∈ first ∨ x ∈ second := by
  induction interleaves with
  | nil => simp
  | left y _ ih => simp only [List.mem_append, ih]; tauto
  | right y _ ih => simp only [List.mem_append, ih]; tauto

/-- With nothing from the first writer, the stream is the second writer's. -/
theorem eq_right (interleaves : Interleaves [] second merged) : merged = second := by
  generalize empty : ([] : List α) = first at interleaves
  induction interleaves with
  | nil => rfl
  | left x _ _ => simp at empty
  | right x _ ih => rw [ih empty]

end Interleaves

end Lib
