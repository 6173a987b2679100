import BookFilerSsh.Lib.Machine

/-!
# Machines that serve one call at a time

A machine with a part that is idle between two calls takes many steps to serve one, and
what is seen of it when it is idle is the work of a function that takes a whole call at
once (`Machine.Serving`). Every run between idle states is then a sequence of calls of that
function (`Machine.Serving.exec`), and when every call can be served, exactly these
sequences are runs (`Machine.Serving.leads_iff`).
-/

set_option autoImplicit false

namespace Lib.Machine

universe u v w

variable {State : Type u} {Action : Type v} {View Call : Type w}

/-- A call in progress goes on or ends, and what is seen of its end is what the function
makes of what was seen before it. -/
structure Serving (M : Machine State Action) (idle : State → Prop) (busy : State → State → Prop)
    (view : State → View) (serve : View → Call → Option View) : Prop where
  begins : ∀ s a t, idle s → M.step s a = some t → busy s t
  goesOn : ∀ s m a t, idle s → busy s m → M.step m a = some t →
    busy s t ∨ idle t ∧ ∃ call, serve (view s) call = some (view t)
  apart : ∀ s m, busy s m → ¬ idle m

namespace Serving

variable {M : Machine State Action} {idle : State → Prop} {busy : State → State → Prop}
  {view : State → View} {serve : View → Call → Option View}

/-- A run from an idle state is a sequence of whole calls, and perhaps one in progress. -/
theorem exec_cases (serving : M.Serving idle busy view serve) {s t : State} {as : List Action}
    (start : idle s) (run : M.exec s as = some t) :
    ∃ (calls : List Call) (middle : State),
      calls.foldlM serve (view s) = some (view middle) ∧ idle middle ∧
        (t = middle ∨ busy middle t) := by
  induction as using List.reverseRecOn generalizing t with
  | nil =>
      rw [exec_nil, Option.some.injEq] at run
      subst run
      exact ⟨[], s, rfl, start, .inl rfl⟩
  | append_singleton before a ih =>
      obtain ⟨last, toLast, stepped⟩ := M.exec_concat_eq_some.mp run
      obtain ⟨calls, middle, served, rests, rfl | inside⟩ := ih toLast
      · exact ⟨calls, last, served, rests, .inr (serving.begins last a t rests stepped)⟩
      · rcases serving.goesOn middle last a t rests inside stepped with still | ⟨ended, call, one⟩
        · exact ⟨calls, middle, served, rests, .inr still⟩
        · refine ⟨calls ++ [call], t, ?_, ended, .inl rfl⟩
          simp [List.foldlM_append, served, one]

/-- **A run between idle states is a sequence of calls.** -/
theorem exec (serving : M.Serving idle busy view serve) {s t : State} {as : List Action}
    (start : idle s) (run : M.exec s as = some t) (rests : idle t) :
    ∃ calls : List Call, calls.foldlM serve (view s) = some (view t) := by
  obtain ⟨calls, middle, served, -, rfl | inside⟩ := serving.exec_cases start run
  · exact ⟨calls, served⟩
  · exact absurd rests (serving.apart middle t inside)

/-- **The machine, seen when it is idle, is the function**, when every call is served. -/
theorem leads_iff (serving : M.Serving idle busy view serve)
    (served : ∀ s call y, idle s → serve (view s) call = some y →
      ∃ t, M.Leads s t ∧ idle t ∧ view t = y)
    {s : State} (start : idle s) (y : View) :
    (∃ t, M.Leads s t ∧ idle t ∧ view t = y) ↔
      ∃ calls : List Call, calls.foldlM serve (view s) = some y := by
  constructor
  · rintro ⟨t, ⟨as, run⟩, rests, rfl⟩
    exact serving.exec start run rests
  · rintro ⟨calls, folded⟩
    induction calls generalizing s with
    | nil => exact ⟨s, .refl s, start, Option.some.inj folded⟩
    | cons call calls ih =>
        rw [List.foldlM_cons, Option.bind_eq_bind, Option.bind_eq_some_iff] at folded
        obtain ⟨next, one, rest⟩ := folded
        obtain ⟨middle, leads, rests, rfl⟩ := served s call next start one
        obtain ⟨t, later, ended, same⟩ := ih rests rest
        exact ⟨t, leads.trans later, ended, same⟩

end Serving

end Lib.Machine
