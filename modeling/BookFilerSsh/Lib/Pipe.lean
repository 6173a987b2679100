import BookFilerSsh.Lib.Machine
import Mathlib.Data.List.Basic

/-!
# Bounded pipes

A pipe takes a piece of a stream, gives it out in parts and takes the next piece when it
has given out all of this one. Before it takes anything it gives out a preamble of its
own. When it breaks it stays as it is.

So what it has given is what it has taken, in order, up to the piece inside, and never
more than the capacity is inside (`Pipe.conserves`).
-/

set_option autoImplicit false

namespace Lib

universe u

variable {α : Type u}

/-- A pipe: the preamble still to give, the piece inside, and whether it is broken. -/
structure Pipe (α : Type u) where
  ahead : List α
  inside : List α
  broken : Bool

/-- What happens to a pipe. -/
inductive PipeEvent (α : Type u) where
  /-- it gives out some of the preamble -/
  | greets (part : List α)
  | takes (piece : List α)
  | gives (part : List α)
  | breaks

namespace Pipe

open Classical in
/-- The effect of an event, if the pipe allows it. -/
noncomputable def act (capacity : ℕ) (pipe : Pipe α) : PipeEvent α → Option (Pipe α)
  | .greets part =>
      if pipe.broken = false ∧ part ≠ [] ∧ part <+: pipe.ahead then
        some { pipe with ahead := pipe.ahead.drop part.length }
      else none
  | .takes piece =>
      if pipe.broken = false ∧ pipe.ahead = [] ∧ pipe.inside = [] ∧ piece ≠ [] ∧
          piece.length ≤ capacity then
        some { pipe with inside := piece }
      else none
  | .gives part =>
      if pipe.broken = false ∧ part ≠ [] ∧ part <+: pipe.inside then
        some { pipe with inside := pipe.inside.drop part.length }
      else none
  | .breaks => if pipe.broken = false then some { pipe with broken := true } else none

variable {capacity : ℕ} {pipe next : Pipe α}

theorem act_greets {part : List α} (whole : pipe.broken = false) (some_part : part ≠ [])
    (begins : part <+: pipe.ahead) :
    pipe.act capacity (.greets part) = some { pipe with ahead := pipe.ahead.drop part.length } :=
  if_pos ⟨whole, some_part, begins⟩

theorem act_takes {piece : List α} (whole : pipe.broken = false) (greeted : pipe.ahead = [])
    (empty : pipe.inside = []) (some_piece : piece ≠ []) (fits : piece.length ≤ capacity) :
    pipe.act capacity (.takes piece) = some { pipe with inside := piece } :=
  if_pos ⟨whole, greeted, empty, some_piece, fits⟩

theorem act_gives {part : List α} (whole : pipe.broken = false) (some_part : part ≠ [])
    (begins : part <+: pipe.inside) :
    pipe.act capacity (.gives part) = some { pipe with inside := pipe.inside.drop part.length } :=
  if_pos ⟨whole, some_part, begins⟩

theorem act_breaks (whole : pipe.broken = false) :
    pipe.act capacity .breaks = some { pipe with broken := true } :=
  if_pos whole

/-- The kinds of steps a pipe has. -/
inductive Moves (capacity : ℕ) (pipe : Pipe α) : PipeEvent α → Pipe α → Prop where
  | greets {part : List α} (begins : part <+: pipe.ahead) :
      Moves capacity pipe (.greets part) { pipe with ahead := pipe.ahead.drop part.length }
  | takes {piece : List α} (greeted : pipe.ahead = []) (empty : pipe.inside = [])
      (fits : piece.length ≤ capacity) :
      Moves capacity pipe (.takes piece) { pipe with inside := piece }
  | gives {part : List α} (begins : part <+: pipe.inside) :
      Moves capacity pipe (.gives part) { pipe with inside := pipe.inside.drop part.length }
  | breaks : Moves capacity pipe .breaks { pipe with broken := true }

theorem act_moves {event : PipeEvent α} (acted : pipe.act capacity event = some next) :
    Moves capacity pipe event next := by
  cases event with
  | greets part =>
      obtain ⟨allowed, same⟩ := Option.ite_none_right_eq_some.mp acted
      cases same
      exact .greets allowed.2.2
  | takes piece =>
      obtain ⟨allowed, same⟩ := Option.ite_none_right_eq_some.mp acted
      cases same
      exact .takes allowed.2.1 allowed.2.2.1 allowed.2.2.2.2
  | gives part =>
      obtain ⟨allowed, same⟩ := Option.ite_none_right_eq_some.mp acted
      cases same
      exact .gives allowed.2.2
  | breaks =>
      obtain ⟨allowed, same⟩ := Option.ite_none_right_eq_some.mp acted
      cases same
      exact .breaks

end Pipe

/-- A new pipe with a preamble. -/
noncomputable def pipeMachine (capacity : ℕ) (preamble : List α) :
    Machine (Pipe α) (PipeEvent α) where
  init := { ahead := preamble, inside := [], broken := false }
  step := Pipe.act capacity

/-! ## What a pipe takes and gives -/

namespace PipeEvent

/-- The part of the preamble that is given. -/
def greeted : PipeEvent α → List α
  | .greets part => part
  | _ => []

/-- The piece that is taken. -/
def taken : PipeEvent α → List α
  | .takes piece => piece
  | _ => []

/-- The part of a piece that is given. -/
def given : PipeEvent α → List α
  | .gives part => part
  | _ => []

end PipeEvent

/-- What a pipe holds after some events. -/
structure Pipe.Holds (capacity : ℕ) (preamble : List α) (events : List (PipeEvent α))
    (pipe : Pipe α) : Prop where
  greeted : events.flatMap PipeEvent.greeted ++ pipe.ahead = preamble
  passed : events.flatMap PipeEvent.given ++ pipe.inside = events.flatMap PipeEvent.taken
  bounded : pipe.inside.length ≤ capacity
  greetsFirst : events.flatMap PipeEvent.taken ≠ [] → pipe.ahead = []

/-- What is dropped from the front of a list is what has been given of it. -/
theorem append_drop_of_begins {before part rest : List α} (begins : part <+: rest) :
    before ++ part ++ rest.drop part.length = before ++ rest := by
  obtain ⟨tail, rfl⟩ := begins
  rw [List.drop_left, List.append_assoc]

/-- One event. -/
theorem Pipe.Holds.act {capacity : ℕ} {preamble : List α} {events : List (PipeEvent α)}
    {pipe next : Pipe α} (holds : Pipe.Holds capacity preamble events pipe) {event : PipeEvent α}
    (moves : Pipe.Moves capacity pipe event next) :
    Pipe.Holds capacity preamble (events ++ [event]) next := by
  obtain ⟨greeted, passed, bounded, greetsFirst⟩ := holds
  cases moves with
  | greets begins =>
      constructor
      · simp only [List.flatMap_append, List.flatMap_singleton, PipeEvent.greeted]
        rw [append_drop_of_begins begins]
        exact greeted
      · simpa only [List.flatMap_append, List.flatMap_singleton, PipeEvent.given,
          PipeEvent.taken, List.append_nil] using passed
      · exact bounded
      · intro some_taken
        simp only [List.flatMap_append, List.flatMap_singleton, PipeEvent.taken,
          List.append_nil] at some_taken
        rw [greetsFirst some_taken, List.drop_nil]
  | takes allGreeted empty fits =>
      constructor
      · simpa only [List.flatMap_append, List.flatMap_singleton, PipeEvent.greeted,
          List.append_nil] using greeted
      · simp only [List.flatMap_append, List.flatMap_singleton, PipeEvent.given,
          PipeEvent.taken, List.append_nil]
        rw [← passed, empty, List.append_nil]
      · exact fits
      · intro some_taken
        exact allGreeted
  | gives begins =>
      constructor
      · simpa only [List.flatMap_append, List.flatMap_singleton, PipeEvent.greeted,
          List.append_nil] using greeted
      · simp only [List.flatMap_append, List.flatMap_singleton, PipeEvent.given,
          PipeEvent.taken, List.append_nil]
        rw [append_drop_of_begins begins]
        exact passed
      · rw [List.length_drop]
        exact Nat.le_trans (Nat.sub_le _ _) bounded
      · simpa only [List.flatMap_append, List.flatMap_singleton, PipeEvent.taken,
          List.append_nil] using greetsFirst
  | breaks =>
      constructor
      · simpa only [List.flatMap_append, List.flatMap_singleton, PipeEvent.greeted,
          List.append_nil] using greeted
      · simpa only [List.flatMap_append, List.flatMap_singleton, PipeEvent.given,
          PipeEvent.taken, List.append_nil] using passed
      · exact bounded
      · simpa only [List.flatMap_append, List.flatMap_singleton, PipeEvent.taken,
          List.append_nil] using greetsFirst

/-- **A pipe gives what it takes, in order, and is never more than its capacity behind.** -/
theorem Pipe.conserves {capacity : ℕ} {preamble : List α} {events : List (PipeEvent α)}
    {pipe : Pipe α}
    (run : (pipeMachine capacity preamble).exec (pipeMachine capacity preamble).init events =
      some pipe) : Pipe.Holds capacity preamble events pipe := by
  induction events using List.reverseRecOn generalizing pipe with
  | nil =>
      cases run
      exact ⟨rfl, rfl, Nat.zero_le _, fun impossible => absurd rfl impossible⟩
  | append_singleton before event ih =>
      obtain ⟨middle, toMiddle, stepped⟩ := Machine.exec_concat_eq_some _ |>.mp run
      exact (ih toMiddle).act (Pipe.act_moves stepped)

end Lib
