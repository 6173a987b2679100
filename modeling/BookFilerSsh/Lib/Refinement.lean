import BookFilerSsh.Lib.Machine

/-!
# Refinement and families of machines

An observer of a machine sees an event at some of its steps and nothing at the others.
A machine refines another when a relation between their states follows every step: one
that shows an event is a step of the other machine with this event, and one that shows
nothing leaves the other machine where it is. What an observer sees of a run is then a
run of the other machine (`Machine.Refines.exec`).

A family of a machine has any number of members, each of which is opened at some time and
runs by itself from then on. What happens to one member is a run of the machine
(`Machine.family_member`), so what holds of the machine holds of every member.
-/

set_option autoImplicit false

namespace Lib

universe u v w z

namespace Machine

variable {State : Type u} {Action : Type v} {Abstract : Type w} {Event : Type z}

/-- What an observer sees of a run, as far as its actions are enabled. -/
def trace (M : Machine State Action) (observe : State → Action → Option Event) (s : State) :
    List Action → List Event
  | [] => []
  | a :: as => (M.step s a).elim [] fun next => (observe s a).toList ++ M.trace observe next as

section Trace

variable {M : Machine State Action} {observe : State → Action → Option Event}

theorem trace_append {s t : State} {before : List Action} (run : M.exec s before = some t)
    (after : List Action) :
    M.trace observe s (before ++ after) =
      M.trace observe s before ++ M.trace observe t after := by
  induction before generalizing s with
  | nil =>
      rw [exec_nil, Option.some.injEq] at run
      subst run
      rfl
  | cons a before ih =>
      rw [exec_cons, Option.bind_eq_some_iff] at run
      obtain ⟨next, stepped, rest⟩ := run
      simp only [List.cons_append, trace, stepped, Option.elim_some, ih rest, List.append_assoc]

theorem trace_concat {s t next : State} {before : List Action} {a : Action}
    (run : M.exec s before = some t) (stepped : M.step t a = some next) :
    M.trace observe s (before ++ [a]) = M.trace observe s before ++ (observe t a).toList := by
  rw [trace_append run]
  simp only [trace, stepped, Option.elim_some, List.append_nil]

end Trace

/-! ## Refinement -/

/-- The machine `M` refines `N`, as an observer of `M` sees it. -/
structure Refines (M : Machine State Action) (N : Machine Abstract Event)
    (observe : State → Action → Option Event) (R : State → Abstract → Prop) : Prop where
  initial : R M.init N.init
  shows : ∀ s x a t e, M.Reachable s → R s x → M.step s a = some t → observe s a = some e →
    ∃ y, N.step x e = some y ∧ R t y
  hides : ∀ s x a t, M.Reachable s → R s x → M.step s a = some t → observe s a = none → R t x

/-- **What an observer sees of a run is a run of the refined machine.** -/
theorem Refines.exec {M : Machine State Action} {N : Machine Abstract Event}
    {observe : State → Action → Option Event} {R : State → Abstract → Prop}
    (refines : Refines M N observe R) {as : List Action} {s : State}
    (run : M.exec M.init as = some s) :
    ∃ x, N.exec N.init (M.trace observe M.init as) = some x ∧ R s x := by
  induction as using List.reverseRecOn generalizing s with
  | nil =>
      rw [exec_nil, Option.some.injEq] at run
      subst run
      exact ⟨N.init, rfl, refines.initial⟩
  | append_singleton before a ih =>
      obtain ⟨middle, toMiddle, stepped⟩ := M.exec_concat_eq_some.mp run
      obtain ⟨x, abstractRun, related⟩ := ih toMiddle
      rw [trace_concat toMiddle stepped]
      cases observed : observe middle a with
      | none =>
          refine ⟨x, ?_, refines.hides middle x a s ⟨before, toMiddle⟩ related stepped observed⟩
          rw [Option.toList_none, List.append_nil]
          exact abstractRun
      | some e =>
          obtain ⟨y, abstractStep, after⟩ :=
            refines.shows middle x a s e ⟨before, toMiddle⟩ related stepped observed
          exact ⟨y, N.exec_concat_eq_some.mpr ⟨x, abstractRun, abstractStep⟩, after⟩

/-! ## Families -/

/-- A member is opened, or something happens to one. -/
inductive FamilyEvent (Event : Type z) where
  | opens
  | within (i : ℕ) (event : Event)

/-- Any number of members, each of which runs by itself. -/
def family (N : Machine Abstract Event) : Machine (List Abstract) (FamilyEvent Event) where
  init := []
  step members
    | .opens => some (members ++ [N.init])
    | .within i event => members[i]?.bind fun member =>
        (N.step member event).map fun next => members.set i next

/-- What happens to one member. -/
def eventsOf (i : ℕ) (events : List (FamilyEvent Event)) : List Event :=
  events.filterMap fun
    | .opens => none
    | .within j event => if j = i then some event else none

theorem eventsOf_append (i : ℕ) (before after : List (FamilyEvent Event)) :
    eventsOf i (before ++ after) = eventsOf i before ++ eventsOf i after :=
  List.filterMap_append

variable {N : Machine Abstract Event}

theorem family_opens (members : List Abstract) :
    N.family.step members .opens = some (members ++ [N.init]) := rfl

theorem family_within {members : List Abstract} {i : ℕ} {member next : Abstract} {event : Event}
    (here : members[i]? = some member) (stepped : N.step member event = some next) :
    N.family.step members (.within i event) = some (members.set i next) := by
  show members[i]?.bind _ = _
  rw [here, Option.bind_some, stepped, Option.map_some]

theorem family_within_eq_some {members after : List Abstract} {i : ℕ} {event : Event}
    (stepped : N.family.step members (.within i event) = some after) :
    ∃ member next, members[i]? = some member ∧ N.step member event = some next ∧
      after = members.set i next := by
  obtain ⟨member, here, moved⟩ := Option.bind_eq_some_iff.mp stepped
  obtain ⟨next, memberStep, rfl⟩ := Option.map_eq_some_iff.mp moved
  exact ⟨member, next, here, memberStep, rfl⟩

/-- Nothing happens to a member that has not been opened. -/
theorem eventsOf_unopened {events : List (FamilyEvent Event)} {members : List Abstract}
    (run : N.family.exec [] events = some members) {i : ℕ} (unopened : members.length ≤ i) :
    eventsOf i events = [] := by
  induction events using List.reverseRecOn generalizing members with
  | nil => rfl
  | append_singleton before event ih =>
      obtain ⟨middle, toMiddle, stepped⟩ := N.family.exec_concat_eq_some.mp run
      rw [eventsOf_append]
      cases event with
      | opens =>
          cases stepped
          rw [List.length_append] at unopened
          rw [ih toMiddle (Nat.le_trans (Nat.le_add_right _ _) unopened)]
          rfl
      | within j event =>
          obtain ⟨member, next, here, memberStep, rfl⟩ := family_within_eq_some stepped
          rw [List.length_set] at unopened
          have different : j ≠ i := by
            intro same
            subst same
            exact absurd (List.getElem?_eq_some_iff.mp here).1 (Nat.not_lt.mpr unopened)
          rw [ih toMiddle unopened, eventsOf, List.filterMap_cons]
          simp only [if_neg different, List.filterMap_nil, List.append_nil]

/-- **What happens to one member is a run of the machine.** -/
theorem family_member {events : List (FamilyEvent Event)} {members : List Abstract}
    (run : N.family.exec [] events = some members) {i : ℕ} {member : Abstract}
    (here : members[i]? = some member) : N.exec N.init (eventsOf i events) = some member := by
  induction events using List.reverseRecOn generalizing members member with
  | nil =>
      cases run
      cases here
  | append_singleton before event ih =>
      obtain ⟨middle, toMiddle, stepped⟩ := N.family.exec_concat_eq_some.mp run
      rw [eventsOf_append]
      cases event with
      | opens =>
          cases stepped
          have nothing : eventsOf i [(FamilyEvent.opens : FamilyEvent Event)] = [] := rfl
          rw [nothing, List.append_nil]
          by_cases inside : i < middle.length
          · rw [List.getElem?_append_left inside] at here
            exact ih toMiddle here
          · rw [eventsOf_unopened toMiddle (Nat.not_lt.mp inside)]
            rw [List.getElem?_append_right (Nat.not_lt.mp inside)] at here
            obtain ⟨last, rfl⟩ := List.getElem?_eq_some_iff.mp here
            simp only [List.getElem_singleton]
            rfl
      | within j event =>
          obtain ⟨old, next, found, memberStep, rfl⟩ := family_within_eq_some stepped
          by_cases same : j = i
          · subst same
            obtain ⟨inside, -⟩ := List.getElem?_eq_some_iff.mp found
            rw [List.getElem?_set_self inside, Option.some.injEq] at here
            subst here
            have last : eventsOf j [FamilyEvent.within j event] = [event] := by
              simp only [eventsOf, List.filterMap_cons, if_pos, List.filterMap_nil]
            rw [last]
            exact N.exec_concat_eq_some.mpr ⟨old, ih toMiddle found, memberStep⟩
          · rw [List.getElem?_set_ne same] at here
            have nothing : eventsOf i [FamilyEvent.within j event] = [] := by
              simp only [eventsOf, List.filterMap_cons, if_neg same, List.filterMap_nil]
            rw [nothing, List.append_nil]
            exact ih toMiddle here

end Machine

end Lib
