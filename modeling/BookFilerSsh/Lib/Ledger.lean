import Mathlib.Data.Finset.Card
import BookFilerSsh.Lib.Tables

/-!
# A ledger of handles and their owners

A library returns handles and owners hold them, at most one each. The ledger counts how
often each handle was released. It is balanced when every handle is either held by exactly
one owner and not released, or released once and held by nobody.

`Ledger.Balanced.moves` is the rule for its steps: an owner enters with nothing, takes a new
handle, or releases the one it holds. In a balanced ledger as many handles are open as there
are owners that hold one (`Ledger.Balanced.card_owners`).
-/

set_option autoImplicit false

namespace Lib

open Tables

/-- How often each handle was released, and what each owner holds. Handles and owners are
named by their position. -/
structure Ledger where
  released : List ℕ
  held : List (Option ℕ)
  deriving DecidableEq, Repr

namespace Ledger

/-- The owner holds the handle. -/
def Has (ledger : Ledger) (owner handle : ℕ) : Prop :=
  ledger.held[owner]? = some (some handle)

/-- Every handle is held by one owner and not released, or released once. -/
structure Balanced (ledger : Ledger) : Prop where
  unreleased : ∀ owner handle, ledger.Has owner handle → ledger.released[handle]? = some 0
  apart : ∀ owner other handle, ledger.Has owner handle → ledger.Has other handle → owner = other
  settled : ∀ handle times, ledger.released[handle]? = some times →
    times = 1 ∨ ∃ owner, ledger.Has owner handle

/-! ## Steps -/

/-- A new owner. -/
def enter (ledger : Ledger) : Ledger :=
  { ledger with held := ledger.held ++ [none] }

/-- The owner takes a new handle. -/
def acquire (ledger : Ledger) (owner : ℕ) : Ledger where
  released := ledger.released ++ [0]
  held := ledger.held.set owner (some ledger.released.length)

/-- The owner releases its handle. -/
def release (ledger : Ledger) (owner handle : ℕ) : Ledger where
  released := ledger.released.modify handle (· + 1)
  held := ledger.held.set owner none

/-- A step of the owners, or of none of them. -/
inductive Moves (ledger : Ledger) : Ledger → Prop where
  | stays : Moves ledger ledger
  | enters : Moves ledger ledger.enter
  | acquires {owner : ℕ} (free : ledger.held[owner]? = some none) :
      Moves ledger (ledger.acquire owner)
  | releases {owner handle : ℕ} (has : ledger.Has owner handle) :
      Moves ledger (ledger.release owner handle)

variable {ledger : Ledger} {owner other handle : ℕ}

/-- A new owner holds nothing. -/
theorem has_enter : ledger.enter.Has owner handle ↔ ledger.Has owner handle :=
  getElem?_concat_of_ne (Option.some_ne_none handle).symm

theorem has_acquire (free : ledger.held[owner]? = some none) :
    (ledger.acquire owner).Has other handle ↔
      ledger.Has other handle ∨ other = owner ∧ handle = ledger.released.length := by
  have inside := (List.getElem?_eq_some_iff.mp free).1
  unfold Has acquire
  by_cases own : other = owner
  · subst own
    rw [List.getElem?_set_self inside, free]
    simp [eq_comm]
  · simp [List.getElem?_set_ne (Ne.symm own), own]

theorem has_release (has : ledger.Has owner handle) {another : ℕ} :
    (ledger.release owner handle).Has other another ↔ ledger.Has other another ∧ other ≠ owner := by
  have inside := (List.getElem?_eq_some_iff.mp has).1
  unfold Has release
  by_cases own : other = owner
  · subst own
    simp [inside]
  · simp [List.getElem?_set_ne (Ne.symm own), own]

/-- Who holds a handle after a step. -/
theorem exists_has_acquire (free : ledger.held[owner]? = some none) :
    (∃ handle, (ledger.acquire owner).Has other handle) ↔
      owner = other ∨ ∃ handle, ledger.Has other handle := by
  simp only [has_acquire free, exists_or, exists_and_left, exists_eq, and_true]
  rw [or_comm, eq_comm]

theorem exists_has_release (has : ledger.Has owner handle) :
    (∃ another, (ledger.release owner handle).Has other another) ↔
      owner ≠ other ∧ ∃ another, ledger.Has other another := by
  simp only [has_release has, exists_and_right]
  rw [and_comm, ne_comm]

theorem balanced_nil : Balanced ⟨[], []⟩ := by
  constructor <;> simp [Has]

namespace Balanced

theorem enter (balanced : ledger.Balanced) : ledger.enter.Balanced where
  unreleased owner handle has := balanced.unreleased owner handle (has_enter.mp has)
  apart owner other handle has hasToo :=
    balanced.apart owner other handle (has_enter.mp has) (has_enter.mp hasToo)
  settled handle times found :=
    (balanced.settled handle times found).imp_right fun ⟨owner, has⟩ => ⟨owner, has_enter.mpr has⟩

/-- A held handle is one of the ledger. -/
theorem inside (balanced : ledger.Balanced) (has : ledger.Has owner handle) :
    handle < ledger.released.length :=
  (List.getElem?_eq_some_iff.mp (balanced.unreleased owner handle has)).1

theorem acquire (balanced : ledger.Balanced) (free : ledger.held[owner]? = some none) :
    (ledger.acquire owner).Balanced := by
  refine ⟨?_, ?_, ?_⟩
  · intro other handle has
    rcases (has_acquire free).mp has with old | ⟨-, rfl⟩
    · exact (List.getElem?_append_left (balanced.inside old)).trans
        (balanced.unreleased other handle old)
    · exact List.getElem?_concat_length
  · intro first second handle has hasToo
    rcases (has_acquire free).mp has with old | ⟨own, new⟩ <;>
      rcases (has_acquire free).mp hasToo with oldToo | ⟨ownToo, newToo⟩
    · exact balanced.apart first second handle old oldToo
    · exact absurd newToo (Nat.ne_of_lt (balanced.inside old))
    · exact absurd new (Nat.ne_of_lt (balanced.inside oldToo))
    · exact own.trans ownToo.symm
  · refine forall_concat (fun handle times found => ?_) ?_
    · exact (balanced.settled handle times found).imp_right fun ⟨other, has⟩ =>
        ⟨other, (has_acquire free).mpr (.inl has)⟩
    · exact .inr ⟨owner, (has_acquire free).mpr (.inr ⟨rfl, rfl⟩)⟩

theorem release (balanced : ledger.Balanced) (has : ledger.Has owner handle) :
    (ledger.release owner handle).Balanced := by
  have elsewhere : ∀ {other another}, ledger.Has other another → other ≠ owner →
      another ≠ handle := by
    rintro other another hasOther apart rfl
    exact apart (balanced.apart other owner another hasOther has)
  refine ⟨?_, ?_, ?_⟩
  · intro other another hasAfter
    obtain ⟨before, apart⟩ := (has_release has).mp hasAfter
    rw [← balanced.unreleased other another before]
    exact List.getElem?_modify_ne _ _ (elsewhere before apart).symm
  · intro first second another hasFirst hasSecond
    exact balanced.apart first second another ((has_release has).mp hasFirst).1
      ((has_release has).mp hasSecond).1
  · intro another times found
    by_cases own : another = handle
    · subst own
      have zero := balanced.unreleased owner another has
      refine .inl ?_
      simpa [Ledger.release, zero, eq_comm] using found
    · have before : ledger.released[another]? = some times :=
        (List.getElem?_modify_ne _ _ (Ne.symm own)).symm.trans found
      rcases balanced.settled another times before with once | ⟨other, hasOther⟩
      · exact .inl once
      · refine .inr ⟨other, (has_release has).mpr ⟨hasOther, ?_⟩⟩
        rintro rfl
        exact own (Option.some.inj (Option.some.inj (hasOther.symm.trans has)))

/-- **Every step keeps the ledger balanced.** -/
theorem moves (balanced : ledger.Balanced) {next : Ledger} (moved : ledger.Moves next) :
    next.Balanced := by
  cases moved with
  | stays => exact balanced
  | enters => exact balanced.enter
  | acquires free => exact balanced.acquire free
  | releases has => exact balanced.release has

end Balanced

/-! ## Counting -/

/-- The owners that hold a handle. -/
def owners (ledger : Ledger) : Finset ℕ :=
  (Finset.range ledger.held.length).filter fun owner => (ledger.held[owner]?.join).isSome

theorem mem_owners : owner ∈ ledger.owners ↔ ∃ handle, ledger.Has owner handle := by
  unfold owners Has
  rw [Finset.mem_filter, Finset.mem_range]
  constructor
  · rintro ⟨-, holds⟩
    obtain ⟨handle, held⟩ := Option.isSome_iff_exists.mp holds
    exact ⟨handle, Option.join_eq_some_iff.mp held⟩
  · rintro ⟨handle, held⟩
    exact ⟨(List.getElem?_eq_some_iff.mp held).1, by simp [held]⟩

/-- **As many handles are open as owners hold one.** -/
theorem Balanced.card_owners (balanced : ledger.Balanced) :
    ledger.owners.card = ledger.released.count 0 := by
  rw [← card_positions]
  choose! held has using fun owner (member : owner ∈ ledger.owners) => mem_owners.mp member
  refine Finset.card_bij (fun owner _ => held owner) ?_ ?_ ?_
  · intro owner member
    have zero := balanced.unreleased owner _ (has owner member)
    exact mem_positions.mpr zero
  · intro first memberFirst second memberSecond same
    have hasSecond := has second memberSecond
    rw [← same] at hasSecond
    exact balanced.apart first second _ (has first memberFirst) hasSecond
  · intro handle member
    rcases balanced.settled handle 0 (mem_positions.mp member) with once | ⟨owner, hasOwner⟩
    · cases once
    · have member : owner ∈ ledger.owners := mem_owners.mpr ⟨handle, hasOwner⟩
      have same := (has owner member).symm.trans hasOwner
      exact ⟨owner, member, Option.some.inj (Option.some.inj same)⟩

end Ledger

end Lib
