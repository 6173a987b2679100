import Mathlib.Data.List.Nodup
import Mathlib.Logic.Function.Basic

/-!
# Blocks in custody

Several owners take blocks from one allocator. A block is taken with a size, is then in
the custody of the owner that took it, and is released with some size. An owner releases
its blocks in the order in which it took them, each with the size it took it with.

`Custody.Once.moves` is the rule for their steps: whatever the owners take and release,
and in whatever order, no block is in custody twice, one in custody has not been released,
and one that was given back was released once and with its own size.
-/

set_option autoImplicit false

namespace Lib

universe u

/-- What the allocator knows of a block: its size and the sizes it was released with. -/
structure Account where
  size : ℕ
  releases : List ℕ
  deriving DecidableEq, Repr

/-- The accounts of all blocks, named by their position. An owner has blocks in custody and
has given blocks back, each with the size it was taken with. -/
structure Custody (Owner : Type u) where
  accounts : List Account
  held : Owner → List (ℕ × ℕ)
  givenBack : Owner → List (ℕ × ℕ)

namespace Custody

variable {Owner : Type u}

/-- All blocks an owner has taken, in order. -/
def taken (custody : Custody Owner) (owner : Owner) : List (ℕ × ℕ) :=
  custody.givenBack owner ++ custody.held owner

theorem mem_taken {custody : Custody Owner} {owner : Owner} {entry : ℕ × ℕ} :
    entry ∈ custody.taken owner ↔
      entry ∈ custody.givenBack owner ∨ entry ∈ custody.held owner :=
  List.mem_append

/-! ## Every block once -/

/-- No block was taken twice, one in custody was not released, and one that was given back
was released once, with its size. -/
structure Once (custody : Custody Owner) : Prop where
  held : ∀ owner, ∀ entry ∈ custody.held owner, custody.accounts[entry.1]? = some ⟨entry.2, []⟩
  givenBack : ∀ owner, ∀ entry ∈ custody.givenBack owner,
    custody.accounts[entry.1]? = some ⟨entry.2, [entry.2]⟩
  distinct : ∀ owner, ((custody.taken owner).map Prod.fst).Nodup
  apart : ∀ owner other, other ≠ owner → ∀ entry ∈ custody.taken owner,
    ∀ another ∈ custody.taken other, another.1 ≠ entry.1

/-- The entries are about blocks that exist. -/
theorem Once.inside {custody : Custody Owner} (once : custody.Once) {owner : Owner}
    {entry : ℕ × ℕ} (member : entry ∈ custody.taken owner) : entry.1 < custody.accounts.length := by
  rcases mem_taken.mp member with back | held
  · exact (List.getElem?_eq_some_iff.mp (once.givenBack owner entry back)).1
  · exact (List.getElem?_eq_some_iff.mp (once.held owner entry held)).1

/-! ## Steps -/

variable [DecidableEq Owner]

/-- An owner takes a new block. -/
def take (custody : Custody Owner) (owner : Owner) (size : ℕ) : Custody Owner where
  accounts := custody.accounts ++ [⟨size, []⟩]
  held := Function.update custody.held owner
    (custody.held owner ++ [(custody.accounts.length, size)])
  givenBack := custody.givenBack

/-- An owner gives the block of an entry back, and keeps the rest. -/
def giveBack (custody : Custody Owner) (owner : Owner) (entry : ℕ × ℕ) (rest : List (ℕ × ℕ)) :
    Custody Owner where
  accounts := custody.accounts.modify entry.1 fun account =>
    { account with releases := account.releases ++ [entry.2] }
  held := Function.update custody.held owner rest
  givenBack := Function.update custody.givenBack owner (custody.givenBack owner ++ [entry])

/-- A step of an owner. -/
inductive Moves (custody : Custody Owner) : Custody Owner → Prop where
  | takes (owner : Owner) (size : ℕ) : Moves custody (custody.take owner size)
  | givesBack (owner : Owner) (entry : ℕ × ℕ) (rest : List (ℕ × ℕ))
      (front : custody.held owner = entry :: rest) :
      Moves custody (custody.giveBack owner entry rest)

theorem taken_take (custody : Custody Owner) (owner : Owner) (size : ℕ) :
    (custody.take owner size).taken = Function.update custody.taken owner
      (custody.taken owner ++ [(custody.accounts.length, size)]) := by
  funext another
  by_cases own : another = owner
  · subst own
    simp [taken, take]
  · simp [taken, take, own]

/-- Giving a block back does not change what was taken. -/
theorem taken_giveBack {custody : Custody Owner} {owner : Owner} {entry : ℕ × ℕ}
    {rest : List (ℕ × ℕ)} (front : custody.held owner = entry :: rest) :
    (custody.giveBack owner entry rest).taken = custody.taken := by
  funext another
  by_cases own : another = owner
  · subst own
    simp [taken, giveBack, front]
  · simp [taken, giveBack, own]

namespace Once

variable {custody next : Custody Owner}

theorem take (once : custody.Once) (owner : Owner) (size : ℕ) : (custody.take owner size).Once := by
  have kept : ∀ {another : Owner} {entry : ℕ × ℕ}, entry ∈ custody.taken another →
      (custody.accounts ++ [⟨size, []⟩])[entry.1]? = custody.accounts[entry.1]? :=
    fun member => List.getElem?_append_left (once.inside member)
  -- the new block lies behind all blocks that were taken
  have new : ∀ {another : Owner} {entry : ℕ × ℕ}, entry ∈ custody.taken another →
      entry.1 ≠ custody.accounts.length :=
    fun member => Nat.ne_of_lt (once.inside member)
  refine ⟨?_, ?_, ?_, ?_⟩
  · intro another entry member
    by_cases own : another = owner
    · subst own
      simp only [Custody.take, Function.update_self, List.mem_append, List.mem_singleton] at member
      rcases member with old | rfl
      · exact (kept (mem_taken.mpr (.inr old))).trans (once.held another entry old)
      · simp [Custody.take]
    · simp only [Custody.take, Function.update_of_ne own] at member
      exact (kept (mem_taken.mpr (.inr member))).trans (once.held another entry member)
  · intro another entry member
    exact (kept (mem_taken.mpr (.inl member))).trans (once.givenBack another entry member)
  · intro another
    rw [taken_take]
    by_cases own : another = owner
    · subst own
      rw [Function.update_self, List.map_append, List.map_singleton, List.nodup_append_comm]
      refine List.nodup_cons.mpr ⟨?_, once.distinct another⟩
      intro again
      obtain ⟨entry, member, same⟩ := List.mem_map.mp again
      exact new member same
    · rw [Function.update_of_ne own]
      exact once.distinct another
  · rw [taken_take]
    intro first second different entry member another memberAnother
    by_cases own : first = owner
    · subst own
      rw [Function.update_of_ne different] at memberAnother
      rw [Function.update_self, List.mem_append, List.mem_singleton] at member
      rcases member with old | rfl
      · exact once.apart first second different entry old another memberAnother
      · exact new memberAnother
    · rw [Function.update_of_ne own] at member
      by_cases ownSecond : second = owner
      · subst ownSecond
        rw [Function.update_self, List.mem_append, List.mem_singleton] at memberAnother
        rcases memberAnother with old | rfl
        · exact once.apart first second different entry member another old
        · exact (new member).symm
      · rw [Function.update_of_ne ownSecond] at memberAnother
        exact once.apart first second different entry member another memberAnother

/-- The block at the front of an owner's custody is in no other entry. -/
theorem front_notMem (once : custody.Once) {owner : Owner} {entry : ℕ × ℕ} {rest : List (ℕ × ℕ)}
    (front : custody.held owner = entry :: rest) {another : Owner} {other : ℕ × ℕ}
    (member : other ∈ custody.givenBack another ∨
      other ∈ Function.update custody.held owner rest another) :
    entry.1 ≠ other.1 := by
  have frontTaken : entry ∈ custody.taken owner :=
    mem_taken.mpr (.inr (by rw [front]; exact List.mem_cons_self ..))
  by_cases own : another = owner
  · subst own
    have distinct := once.distinct another
    rw [taken, front, List.map_append, List.map_cons, List.nodup_middle, List.nodup_cons,
      ← List.map_append] at distinct
    rw [Function.update_self, ← List.mem_append] at member
    exact fun same => distinct.1 (same ▸ List.mem_map_of_mem member)
  · rw [Function.update_of_ne own] at member
    exact once.apart another owner (Ne.symm own) other (mem_taken.mpr member) entry frontTaken

theorem giveBack (once : custody.Once) {owner : Owner} {entry : ℕ × ℕ} {rest : List (ℕ × ℕ)}
    (front : custody.held owner = entry :: rest) : (custody.giveBack owner entry rest).Once := by
  have account := once.held owner entry (by rw [front]; exact List.mem_cons_self ..)
  refine ⟨?_, ?_, ?_, ?_⟩
  · intro another other member
    have different := once.front_notMem front (.inr member)
    have old : other ∈ custody.held another := by
      by_cases own : another = owner
      · subst own
        simp only [Custody.giveBack, Function.update_self] at member
        rw [front]
        exact List.mem_cons_of_mem _ member
      · simpa only [Custody.giveBack, Function.update_of_ne own] using member
    simp only [Custody.giveBack, List.getElem?_modify_ne _ _ different]
    exact once.held another other old
  · intro another other member
    by_cases same : other = entry
    · subst same
      simp [Custody.giveBack, account]
    · have old : other ∈ custody.givenBack another := by
        by_cases own : another = owner
        · subst own
          simpa [Custody.giveBack, same] using member
        · simpa only [Custody.giveBack, Function.update_of_ne own] using member
      have different := once.front_notMem front (.inl old)
      simp only [Custody.giveBack, List.getElem?_modify_ne _ _ different]
      exact once.givenBack another other old
  · rw [taken_giveBack front]
    exact once.distinct
  · rw [taken_giveBack front]
    exact once.apart

/-- **Whatever the owners take and give back, every block is taken and released once.** -/
theorem moves (once : custody.Once) (moved : custody.Moves next) : next.Once := by
  cases moved with
  | takes owner size => exact once.take owner size
  | givesBack owner entry rest front => exact once.giveBack front

end Once

end Custody

end Lib
