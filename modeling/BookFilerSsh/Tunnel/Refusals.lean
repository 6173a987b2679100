import BookFilerSsh.Tunnel.Layout

/-!
# When the set-up of a client is refused

The accept loop drops a client when `connect` or `tunnel` returns a negative code. Seen
from the library that is a refusal: handshake or authentication returned a code, or no
channel was opened. A client that is past `CreateSSHSession` holds its session
(`Server.holdsSession`), so `tunnel` has no other reason to fail, and the loop gets to
the dropping of a client by a refusal and by nothing else (`Server.refuses_of_step`,
`Server.step_of_refuses`).

`Server.Turns` says of a step whose turn it was, which is all that an invariant of the
accept loop looks at.
-/

set_option autoImplicit false

namespace BookFilerSsh

open Lib.Tables Lib.Effects

variable {T : ℕ}

/-! ## Refusals -/

/-- libssh2 refuses the set-up: handshake or authentication returns a code, or no channel
is opened. -/
def SetupAnswer.Refuses : SetupAnswer → Prop
  | .handshake rc | .auth rc => rc ≠ 0
  | .channel opened => opened = false
  | _ => False

def ServerAction.Refuses : ServerAction T → Prop
  | .setupDone _ answer => answer.Refuses
  | _ => False

/-- The client that has got its session, before the end of `tunnel`. -/
def ListenerPc.inSession : ListenerPc → Option ℕ
  | .handshaking _ c | .authenticating _ c | .opening _ c => some c
  | _ => none

namespace Server

/-! ## Whose turn it is -/

/-- What a step does to all but the threads: a pump acts on its link, the accept loop
takes its next statement or ends its call, or it is waiting and something happens to it. -/
inductive Turns (mode : SpawnMode) (u : Server T) : Server T → Prop where
  | pump {i : ℕ} {link after : Link TaggedByte} {action : LinkAction TaggedByte}
      (threads : Fin T → List Coro) (linked : u.link i = some link)
      (acted : link.act action = some after) :
      Turns mode u { u.setLink i after with threads := threads }
  | listener {next : Server T} {effect : Effect} (threads : Fin T → List Coro)
      (stepped : u.listenerStep mode = some (next, effect)) :
      Turns mode u { next with threads := threads }
  | setUp {answer : SetupAnswer} {next : Server T} (ended : u.listenerReturn answer = some next) :
      Turns mode u next
  | clientArrives : Turns mode u { u with backlog := u.backlog + 1 }
  | outside {pc : ListenerPc} (backlog : ℕ) (threads : Fin T → List Coro)
      (away : u.listener = .spawned ∨ u.listener = .accepting ∨ ∃ ec, u.listener = .accepted ec)
      (there : pc.inSession = none) :
      Turns mode u { u.setListener pc with backlog := backlog, threads := threads }

theorem Moves.turns {mode : SpawnMode} {u next : Server T} {action : ServerAction T}
    (moved : Moves mode u action next) : Turns mode u next := by
  cases moved with
  | @listenerRuns t after effect top ran =>
      obtain ⟨threads, same⟩ := applyEffect_eq mode after t effect
      rw [same]
      exact .listener threads ran
  | @pullRuns t i link after effect top linked ran =>
      have acted : link.act .pullStep = some after := by rw [Link.act, ran]; rfl
      obtain ⟨threads, same⟩ := applyEffect_eq mode (u.setLink i after) t effect
      rw [same]
      exact .pump threads linked acted
  | @pushRuns t i link after effect top linked ran =>
      have acted : link.act .pushStep = some after := by rw [Link.act, ran]; rfl
      obtain ⟨threads, same⟩ := applyEffect_eq mode (u.setLink i after) t effect
      rw [same]
      exact .pump threads linked acted
  | @pullResumes t i link after idle linked resumed =>
      have acted : link.act .pullResume = some after := resumed
      exact .pump _ linked acted
  | @pushResumes t i link after idle linked resumed =>
      have acted : link.act .pushResume = some after := resumed
      exact .pump _ linked acted
  | @readReturns t i link after channel result top linked named ended =>
      have acted : link.act (.pullReturn _) = some after := ended
      exact .pump u.threads linked acted
  | @writeReturns t i link after result top linked ended =>
      have acted : link.act (.pushReturn result) = some after := ended
      exact .pump u.threads linked acted
  | @readsLocal i link after completion linked woken =>
      have acted : link.act (.pushWake _) = some after := woken
      exact .pump u.threads linked acted
  | @writesLocal i link after ec linked woken =>
      have acted : link.act (.pullWake ec) = some after := woken
      exact .pump u.threads linked acted
  | setUpReturns top ended => exact .setUp ended
  | clientArrives => exact .clientArrives
  | listenerStarts idle pc => exact .outside u.backlog _ (.inl pc) rfl
  | listenerResumes idle pc => exact .outside u.backlog _ (.inr (.inr ⟨_, pc⟩)) rfl
  | acceptFails pc =>
      have there : (ListenerPc.accepted true).inSession = none := rfl
      exact .outside u.backlog u.threads (.inr (.inl pc)) there
  | accepts pc waiting => exact .outside _ u.threads (.inr (.inl pc)) rfl

/-! ## The session of a client in set-up -/

variable {mode : SpawnMode} {clientState : ClientState}

/-- A client past `CreateSSHSession` holds a session. -/
def HoldsSession (u : Server T) : Prop :=
  ∀ c client, u.clients[c]? = some client → u.listener.inSession = some c →
    client.session ≠ none

theorem listenerStep_listener {u next : Server T} {effect : Effect}
    (stepped : u.listenerStep mode = some (next, effect)) :
    next.listener.inSession = none ∧ ∀ i c, next.listener ≠ .dropping i c := by
  unfold listenerStep at stepped
  split at stepped <;> try split at stepped
  all_goals cases stepped
  all_goals exact ⟨rfl, fun _ _ => ListenerPc.noConfusion⟩

theorem HoldsSession.of_none {u : Server T} (none : u.listener.inSession = none) :
    u.HoldsSession := by
  intro c client found here
  rw [none] at here
  cases here

theorem HoldsSession.congr {u next : Server T} (holds : u.HoldsSession)
    (listener : next.listener = u.listener) (clients : next.clients = u.clients) :
    next.HoldsSession := by
  unfold HoldsSession
  rw [listener, clients]
  exact holds

theorem HoldsSession.pump {u : Server T} (holds : u.HoldsSession) {i : ℕ}
    {link after : Link TaggedByte} {action : LinkAction TaggedByte}
    (linked : u.link i = some link) (acted : link.act action = some after) :
    (u.setLink i after).HoldsSession := by
  have frame := Link.frame_act acted
  obtain ⟨found, c, uses, foundClient, channel, opened, foundChannel⟩ := link_eq_some linked
  rw [setLink_eq uses opened frame]
  refine forall_set (P := fun c (client : ClientImpl TaggedByte) =>
    u.listener.inSession = some c → client.session ≠ none) holds fun here => ?_
  rw [frame.session]
  exact holds c link.client foundClient here

/-- A call that leaves the client a session. -/
theorem HoldsSession.setCtx {u next : Server T} {c : ℕ} {after : Ctx TaggedByte}
    (clients : next.clients = u.clients.set c after.client)
    (here : next.listener.inSession = some c) (session : after.client.session ≠ none) :
    next.HoldsSession := by
  intro d client found there
  rw [here, Option.some.injEq] at there
  subst there
  rw [clients, List.getElem?_set_self', Option.map_eq_map, Option.map_eq_some_iff] at found
  obtain ⟨_, _, rfl⟩ := found
  exact session

theorem HoldsSession.ctx {u : Server T} (holds : u.HoldsSession) {c : ℕ} {ctx : Ctx TaggedByte}
    (found : u.ctx c = some ctx) (here : u.listener.inSession = some c) :
    ctx.client.session ≠ none := by
  obtain ⟨client, foundClient, rfl⟩ := Option.map_eq_some_iff.mp found
  exact holds c client foundClient here

theorem onClient_listener {α : Type} {u next : Server T} {c : ℕ} {call : ClientM TaggedByte α}
    {pc : ListenerPc} (stepped : u.onClient c call (fun _ s => s.setListener pc) = some next) :
    next.listener = pc ∨ next.listener = u.listener := by
  obtain ⟨ctx, found, ⟨_, rfl⟩ | rfl⟩ := onClient_eq_some stepped
  · exact .inl rfl
  · exact .inr rfl

/-- `tunnel` drops the client when no channel is opened, or when it has no session. -/
theorem onClient_tunnel {u next : Server T} {i c : ℕ} {opened : Bool}
    (here : u.listener = .opening i c)
    (ended : u.listenerReturn (.channel opened) = some next) :
    ∃ ctx, u.ctx c = some ctx ∧ next.listener =
      if (ctx.openCommandChannel opened).client.commandChannel = none then .dropping i c
      else .tunnelled i c := by
  simp only [listenerReturn, here, onClient, ClientImpl.tunnel_run, Option.bind_eq_bind,
    Option.bind_eq_some_iff, Option.pure_def, Option.some.injEq] at ended
  obtain ⟨ctx, found, rfl⟩ := ended
  refine ⟨ctx, found, ?_⟩
  by_cases refused : (ctx.openCommandChannel opened).client.commandChannel = none <;>
    simp [refused]

theorem session_startThreadIo (ctx : Ctx TaggedByte) (rc : Int) :
    (finalState ((do
      let _ ← ClientImpl.sessionCall rc
      ClientImpl.startThreadIo) ctx)).client.session = ctx.client.session := by
  simp only [ClientImpl.sessionCall, ClientImpl.startThreadIo, run_bind, run_modify, run_pure,
    run_get, run_ite, run_throw]
  split <;> rfl

theorem HoldsSession.listenerReturn {u next : Server T} {answer : SetupAnswer}
    (holds : u.HoldsSession) (ended : u.listenerReturn answer = some next) :
    next.HoldsSession := by
  have returned := ended
  unfold Server.listenerReturn at ended
  split at ended
  case h_1 ok here =>
    cases ended
    refine .of_none ?_
    cases ok <;> rfl
  case h_2 i c outcome here =>
    obtain ⟨ctx, found, ⟨_, rfl⟩ | rfl⟩ := onClient_eq_some ended
    · exact .of_none rfl
    · exact .of_none (congrArg ListenerPc.inSession here)
  case h_3 i c created here =>
    obtain ⟨ctx, found, ran⟩ := Option.bind_eq_some_iff.mp ended
    cases created with
    | true =>
        cases ran
        exact .setCtx rfl rfl (Option.some_ne_none _)
    | false =>
        cases ran
        exact .of_none (congrArg ListenerPc.inSession here)
  case h_4 i c rc here =>
    have inSession : u.listener.inSession = some c := congrArg ListenerPc.inSession here
    split at ended
    · obtain ⟨ctx, found, ran⟩ := Option.bind_eq_some_iff.mp ended
      cases ran
      exact .of_none rfl
    · obtain ⟨ctx, found, ⟨_, rfl⟩ | rfl⟩ := onClient_eq_some ended
      · refine .setCtx rfl rfl ?_
        rw [session_startThreadIo]
        exact holds.ctx found inSession
      · refine .setCtx rfl inSession ?_
        rw [session_startThreadIo]
        exact holds.ctx found inSession
  case h_5 i c rc here =>
    have inSession : u.listener.inSession = some c := congrArg ListenerPc.inSession here
    obtain ⟨ctx, found, ran⟩ := Option.bind_eq_some_iff.mp ended
    have session := holds.ctx found inSession
    cases ran
    by_cases refused : rc ≠ 0
    · refine .of_none ?_
      rw [setListener_listener, if_pos refused]
      rfl
    · refine .setCtx rfl ?_ session
      exact congrArg ListenerPc.inSession (if_neg refused)
  case h_6 i c opened here =>
    obtain ⟨ctx, found, there⟩ := onClient_tunnel here returned
    refine .of_none ?_
    rw [there]
    split <;> rfl
  case h_7 i c results here =>
    obtain ⟨ctx, found, ⟨_, rfl⟩ | rfl⟩ := onClient_eq_some ended
    · exact .of_none rfl
    · exact .of_none (congrArg ListenerPc.inSession here)
  case h_8 => cases ended

/-! ## The dropping of a client -/

/-- The accept loop drops a client only after a refusal. -/
theorem refuses_of_listenerReturn {u next : Server T} {answer : SetupAnswer} {i c : ℕ}
    (holds : u.HoldsSession) (ended : u.listenerReturn answer = some next)
    (drops : next.listener = .dropping i c) (before : u.listener ≠ .dropping i c) :
    answer.Refuses := by
  have returned := ended
  unfold listenerReturn at ended
  split at ended
  case h_1 ok here =>
    cases ended
    cases ok <;> cases drops
  case h_2 _ _ outcome here | h_3 _ _ created here =>
    rcases onClient_listener ended with there | same
    · cases there.symm.trans drops
    · exact absurd (same.symm.trans drops) before
  case h_4 _ _ rc here =>
    split at ended
    · assumption
    · rcases onClient_listener ended with there | same
      · cases there.symm.trans drops
      · exact absurd (same.symm.trans drops) before
  case h_5 _ _ rc here =>
    rcases onClient_listener ended with there | same
    · by_cases refused : rc ≠ 0
      · exact refused
      · rw [if_neg refused] at there
        cases there.symm.trans drops
    · exact absurd (same.symm.trans drops) before
  case h_6 _ c opened here =>
    obtain ⟨ctx, found, there⟩ := onClient_tunnel here returned
    obtain ⟨sid, session⟩ := Option.ne_none_iff_exists'.mp
      (holds.ctx found (congrArg ListenerPc.inSession here))
    cases opened with
    | false => rfl
    | true =>
        have got : (ctx.openCommandChannel true).client.commandChannel ≠ none := by
          simp [Ctx.openCommandChannel_session session]
        rw [if_neg got] at there
        cases there.symm.trans drops
  case h_7 _ _ results here =>
    rcases onClient_listener ended with there | same
    · cases there.symm.trans drops
    · exact absurd (same.symm.trans drops) before
  case h_8 => cases ended

/-- After a refusal it does. -/
theorem listenerReturn_of_refuses {u next : Server T} {answer : SetupAnswer}
    (refused : answer.Refuses) (ended : u.listenerReturn answer = some next) :
    ∃ i c, next.listener = .dropping i c := by
  have returned := ended
  unfold listenerReturn at ended
  split at ended
  case h_4 i c rc here =>
    have failed : rc ≠ 0 := refused
    rw [if_pos failed] at ended
    obtain ⟨ctx, found, ran⟩ := Option.bind_eq_some_iff.mp ended
    cases ran
    exact ⟨i, c, rfl⟩
  case h_5 i c rc here =>
    have failed : rc ≠ 0 := refused
    obtain ⟨ctx, found, ran⟩ := Option.bind_eq_some_iff.mp ended
    cases ran
    exact ⟨i, c, if_pos failed⟩
  case h_6 i c opened here =>
    have failed : opened = false := refused
    subst failed
    obtain ⟨ctx, found, there⟩ := onClient_tunnel here returned
    have null : (ctx.openCommandChannel false).client.commandChannel = none := by
      by_contra got
      cases (Ctx.session_of_openCommandChannel got).1
    rw [if_pos null] at there
    exact ⟨i, c, there⟩
  all_goals first | exact refused.elim | cases ended

theorem HoldsSession.step {u next : Server T} {action : ServerAction T} (holds : u.HoldsSession)
    (stepped : u.step mode action = some next) : next.HoldsSession := by
  cases (step_moves stepped).2.turns with
  | pump threads linked acted => exact (holds.pump linked acted).congr rfl rfl
  | listener threads ran => exact .of_none (listenerStep_listener ran).1
  | setUp ended => exact holds.listenerReturn ended
  | clientArrives => exact holds.congr rfl rfl
  | outside backlog threads away there => exact .of_none there

theorem holdsSession {u : Server T}
    (reached : (serverMachine T mode clientState).Reachable u) : u.HoldsSession :=
  (serverMachine T mode clientState).invariant (I := HoldsSession) (.of_none rfl)
    (fun _ _ _ holds stepped => holds.step stepped) reached

/-- A step to the dropping of the client comes with a refusal. -/
theorem refuses_of_step {u next : Server T} {action : ServerAction T} {i c : ℕ}
    (holds : u.HoldsSession) (stepped : u.step mode action = some next)
    (drops : next.listener = .dropping i c) (before : u.listener ≠ .dropping i c) :
    action.Refuses := by
  cases (step_moves stepped).2 with
  | listenerRuns top ran =>
      rw [applyEffect_listener] at drops
      exact absurd drops ((listenerStep_listener ran).2 i c)
  | setUpReturns top ended => exact refuses_of_listenerReturn holds ended drops before
  | pullRuns | pushRuns =>
      rw [applyEffect_listener] at drops
      exact absurd drops before
  | listenerStarts | listenerResumes | acceptFails | accepts => cases drops
  | _ => exact absurd drops before

/-- A refusal leads to the dropping of the client. -/
theorem step_of_refuses {u next : Server T} {action : ServerAction T} (refused : action.Refuses)
    (stepped : u.step mode action = some next) : ∃ i c, next.listener = .dropping i c := by
  cases (step_moves stepped).2 with
  | setUpReturns top ended => exact listenerReturn_of_refuses refused ended
  | _ => exact refused.elim

end Server

end BookFilerSsh
