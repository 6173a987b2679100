import BookFilerSsh.Client.Phases
import BookFilerSsh.Client.Recording
import BookFilerSsh.Lib.Calls

/-!
# A command in one thread

Once `threadIo` has returned, nobody but the caller of `command` runs the `ioContext`, and
the statements of `command`, taken one at a time, come to what the function `command` of
`Client.EventLoop` computes at once: the same client and the same ledger of handles, for the
same commands, whatever handlers earlier calls have left pending (`commands_alone`).

`ClientImpl.commandAfter` is that function as its caller sees it. The function and the
statements differ in one place. When an exception leaves a handler, the `ioContext` counts
its work as finished, and the function stops before that.
-/

set_option autoImplicit false

namespace BookFilerSsh

open Lib Lib.Effects

namespace ClientImpl

/-- What a caller finds, unless the call goes on waiting. -/
def leaves {α : Type} : EStateM.Result Fault (Ctx UInt8) α → Option (Ctx UInt8)
  | .ok _ after => some after
  | .error .blocked _ => none
  | .error _ thrown => some (thrown.onIo fun io => io.workFinished .returned)

/-- `ClientImpl::command`, as its caller sees it. -/
def commandAfter (commandStr : List UInt8) (script : CommandScript) (ctx : Ctx UInt8) :
    Option (Ctx UInt8) :=
  leaves (command commandStr script ctx)

/-! ## The events of a run -/

theorem io_openCommandChannel (ctx : Ctx UInt8) (opened : Bool) :
    (ctx.openCommandChannel opened).io = ctx.io := by
  unfold Ctx.openCommandChannel
  cases ctx.client.session <;> cases opened <;> rfl

/-- A `DoWork` function leaves the `ioContext` alone, and waits for nothing. -/
theorem keeps_io_doWork (io : IoContext) (work : Work) (answers : Answers) :
    Keeps (fun ctx => ctx.io = io) (· ≠ .blocked) (doWork work answers) := by
  have waits : ∀ what, Fault.logicError what ≠ .blocked := fun _ same => Fault.noConfusion same
  have calls : ∀ rc what, Keeps (fun ctx => ctx.io = io) (· ≠ .blocked) (do
      modify Ctx.useCommandChannel
      if rc = libssh2ErrorEagain then return .STILL_WORKING
      if rc ≠ 0 then throw (.logicError what)
      return .WORK_DONE : ClientM UInt8 WorkState) := by
    intro rc what
    refine .bind (.modify fun _ same => same) fun _ => .ite (fun _ => .pure _) fun _ => ?_
    exact .ite (fun _ => .bind (.throw (waits what)) fun _ => .pure _) fun _ => .pure _
  cases work with
  | DoCreateChannel =>
      refine .bind (.modify fun ctx same => (io_openCommandChannel ctx _).trans same) fun _ => ?_
      refine .bind .get fun _ => .ite (fun _ => .pure _) fun _ => ?_
      refine .bind (.modify fun _ same => same) fun _ => ?_
      exact .ite (fun _ => .pure _) fun _ => .throw (waits _)
  | DoExecute => exact calls answers.rc _
  | readCommandChannel =>
      intro ctx same
      rw [doWork, doReadCommandChannel_run]
      exact same
  | DoCloseChannel => exact calls answers.rc _
  | readListenChannel =>
      refine .bind (.modify fun _ same => same) fun _ => ?_
      refine .ite (fun _ => .bind (.modify fun _ same => same) fun _ => .pure _) fun _ => ?_
      refine .ite (fun _ => .pure _) fun _ => ?_
      exact .ite (fun _ => .bind (.throw (waits _)) fun _ => .pure _) fun _ => .pure _

theorem ends_doWork (work : Work) (answers : Answers) (ctx : Ctx UInt8) :
    Ends (fun after => after.io = ctx.io) (· ≠ .blocked) (doWork work answers ctx) :=
  keeps_io_doWork ctx.io work answers ctx rfl

variable {start ctx after : Ctx UInt8} {events : List Event} {event : Event} {handler : Handler}

/-- The run has come to `ctx` with these events, and goes on. -/
structure Going (events : List Event) (start ctx : Ctx UInt8) : Prop where
  comes : ∀ rest, run (events ++ rest) start = run rest ctx
  goes : ctx.io.stopped = false

theorem Going.refl (goes : ctx.io.stopped = false) : Going [] ctx ctx := ⟨fun _ => rfl, goes⟩

theorem io_of_worked {state : WorkState} {work : Work} {answers : Answers}
    (worked : doWork work answers ctx = .ok state after) : after.io = ctx.io := by
  have ends := ends_doWork work answers ctx
  rw [worked] at ends
  exact ends

namespace Going

variable (going : Going events start ctx) (found : ctx.io.pending[event.index]? = some handler)
include going found

/-- The work is not done: the handler waits again. -/
theorem still (worked : doWork handler.work event.answers (taken event ctx) =
    .ok .STILL_WORKING after) : Going (events ++ [event]) start (rearmed handler after) := by
  refine ⟨fun rest => ?_, ?_⟩
  · rw [List.append_assoc, going.comes]
    exact run_still going.goes found worked
  · show after.io.stopped = false
    rw [io_of_worked worked]
    exact going.goes

/-- The work is done. -/
theorem done (worked : doWork handler.work event.answers (taken event ctx) =
    .ok .WORK_DONE after) : run (events ++ [event]) start = .ok () (after.onIo IoContext.stop) := by
  rw [going.comes]
  exact run_done going.goes found worked

/-- An exception leaves the handler. -/
theorem throws {fault : Fault} (worked : doWork handler.work event.answers (taken event ctx) =
    .error fault after) : run (events ++ [event]) start = .error fault after := by
  rw [going.comes, run_cons going.goes found, run_bind, dispatch_going going.goes found, run_bind,
    worked]

end Going

/-- A stopped run returns at once. -/
theorem run_of_stopped (stopped : ctx.io.stopped = true) : run events ctx = .ok () ctx := by
  have ends : ctx.client.ioContext.stopped = true := stopped
  cases events <;> simp [run, runEnds, run_bind, run_get, ends, run_pure]

/-- Nothing happens any more. -/
theorem run_nil_of_armed (goes : ctx.io.stopped = false) (armed : ctx.io.pending ≠ []) :
    run [] ctx = .error .blocked ctx := by
  have going : ctx.client.ioContext.stopped = false := goes
  have some : ctx.client.ioContext.pending ≠ [] := armed
  simp [run, runEnds, run_bind, run_get, going, some, run_pure, run_throw]

/-- An index without a handler is no event. -/
theorem run_skip (goes : ctx.io.stopped = false) (armed : ctx.io.pending ≠ [])
    (missing : ctx.io.pending[event.index]? = none) :
    run (event :: events) ctx = run events ctx := by
  have going : ctx.client.ioContext.stopped = false := goes
  have some : ctx.client.ioContext.pending ≠ [] := armed
  have none : ctx.client.ioContext.pending[event.index]? = none := missing
  simp only [run, runEnds, run_bind, run_get, going, some, if_false, run_pure, Bool.false_eq_true,
    dispatch, none]

/-! ## A run, one statement at a time -/

/-- A stopped `ioContext` stays as it is, and so does one with a pending handler. -/
theorem workFinished_eq {io : IoContext} (supplied : io.stopped = true ∨ io.pending ≠ []) :
    io.workFinished .returned = io := by
  unfold IoContext.workFinished
  split
  next idle =>
    rcases supplied with stopped | armed
    · show { io with stopped := true } = io
      rw [← stopped]
    · exact absurd (List.isEmpty_iff.mp (Bool.and_eq_true_iff.mp idle).1) armed
  next => rfl

/-- The run has come to its end. -/
def Halted (start ctx : Ctx UInt8) : Prop :=
  ctx.io.stopped = true ∧ ∃ events, run events start = .ok () ctx

/-- Where the only thread that runs the `ioContext` is, and what it has made of it. -/
def Inside (start : Ctx UInt8) : RunPc → Ctx UInt8 → Prop
  | .entering, ctx => ctx = start
  | .waiting, ctx | .leaving, ctx =>
      (ctx.io.pending ≠ [] ∧ ∃ events, Going events start ctx) ∨ Halted start ctx
  | .checking handler, ctx | .calling handler, ctx =>
      ∃ events index before, Going events start before ∧
        before.io.pending[index]? = some handler ∧ ctx = before.onIo fun io => io.take index
  | .finishing handler state, ctx =>
      ∃ (events : List Event) (event : Event) (before : Ctx UInt8), Going events start before ∧
        before.io.pending[event.index]? = some handler ∧
          doWork handler.work event.answers (taken event before) = .ok state ctx
  | .returned, ctx => ∃ events, run events start = .ok () ctx
  | .threw, _ => False

/-- An exception has left the run. -/
def Threw (start ctx : Ctx UInt8) : Prop :=
  ∃ events fault thrown, run events start = .error fault thrown ∧ fault ≠ .blocked ∧
    ctx = thrown.onIo fun io => io.workFinished .returned

theorem Inside.ioMoves {pc next : RunPc} {action : RunAction} {io : IoContext}
    (fresh : start.io.stopped = false) (armed : start.io.pending ≠ [])
    (inside : Inside start pc ctx) (moves : IoMoves ctx.io .returned pc action io next) :
    Inside start next (ctx.onIo fun _ => io) := by
  cases moves with
  | starves idle =>
      obtain rfl : ctx = start := inside
      exact absurd (List.isEmpty_iff.mp (Bool.and_eq_true_iff.mp idle).1) armed
  | comesLate stopped =>
      obtain rfl : ctx = start := inside
      rw [fresh] at stopped
      cases stopped
  | enters going =>
      obtain rfl : ctx = start := inside
      exact .inl ⟨armed, [], .refl fresh⟩
  | returns stopped =>
      rcases inside with ⟨-, events, going⟩ | ⟨-, ended⟩
      · rw [going.goes] at stopped
        cases stopped
      · exact ended
  | dispatches goes found =>
      rcases inside with ⟨-, events, going⟩ | ⟨stopped, -⟩
      · exact ⟨events, _, ctx, going, found, rfl⟩
      · rw [goes] at stopped
        cases stopped
  | skips handler stopped =>
      obtain ⟨events, index, before, going, found, rfl⟩ := inside
      exact absurd (going.goes.symm.trans stopped) nofun
  | passes handler goes => exact inside
  | rearms handler =>
      obtain ⟨events, event, before, going, found, worked⟩ := inside
      refine .inl ⟨?_, _, going.still found worked⟩
      exact List.append_ne_nil_of_right_ne_nil _ (List.cons_ne_nil _ _)
  | stops handler =>
      obtain ⟨events, event, before, going, found, worked⟩ := inside
      exact .inr ⟨rfl, _, going.done found worked⟩
  | leaves =>
      have same : ctx.io.workFinished .returned = ctx.io :=
        workFinished_eq (inside.symm.imp And.left And.left)
      rw [same]
      exact inside

/-- **Every statement of a run brings it one event further**, or ends it. -/
theorem Inside.step {pc next : RunPc} {action : RunAction} (fresh : start.io.stopped = false)
    (armed : start.io.pending ≠ []) (inside : Inside start pc ctx)
    (ran : runStep ctx .returned pc action = some (after, next)) :
    Inside start next after ∨ next = .threw ∧ Threw start after := by
  rcases runStep_cases ran with ⟨io, moves, rfl⟩ | ⟨handler, answers, rfl, rfl, called⟩
  · exact .inl (inside.ioMoves fresh armed moves)
  · obtain ⟨events, index, before, going, found, rfl⟩ := inside
    rcases called with ⟨state, worked, rfl⟩ | ⟨fault, thrown, failed, rfl, rfl⟩
    · exact .inl ⟨events, ⟨index, answers⟩, before, going, found, worked⟩
    · have throws : run (events ++ [⟨index, answers⟩]) start = .error fault thrown :=
        going.throws found failed
      have ends := ends_doWork handler.work answers (before.onIo fun io => io.take index)
      rw [failed] at ends
      exact .inr ⟨rfl, _, fault, thrown, throws, ends.2, rfl⟩

/-! ## A command, one statement at a time -/

/-- The phases before this one have been run. -/
inductive Begins (commandStr : List UInt8) (start : Ctx UInt8) : Phase → Ctx UInt8 → Prop where
  | create :
      Begins commandStr start .create
        (start.assign fun client => { client with commandStr := commandStr })
  | execute {events : List Event} {before after : Ctx UInt8}
      (begins : Begins commandStr start .create before)
      (ran : phase .DoCreateChannel events before = .ok () after) :
      Begins commandStr start .execute after
  | reads {events : List Event} {before after : Ctx UInt8}
      (begins : Begins commandStr start .execute before)
      (ran : phase .DoExecute events before = .ok () after) :
      Begins commandStr start .reads
        (after.assign fun client => { client with commandChannelReadStr := [] })
  | close {events : List Event} {before after : Ctx UInt8}
      (begins : Begins commandStr start .reads before)
      (ran : phase .readCommandChannel events before = .ok () after) :
      Begins commandStr start .close after

namespace Begins

variable {commandStr : List UInt8} {before : Ctx UInt8}

/-- All phases have been run, and the channel is freed. -/
theorem returns (begins : Begins commandStr start .close before)
    (ran : phase .DoCloseChannel events before = .ok () after) (freeWouldBlock : Bool) :
    ∃ script, command commandStr script start =
      .ok 0 (finalState (cleanup freeWouldBlock after)) := by
  cases begins with
  | @close reads _ _ begins third =>
      cases begins with
      | @reads execute _ _ begins second =>
          cases begins with
          | @execute create _ _ begins first =>
              cases begins
              refine ⟨⟨create, execute, reads, events, freeWouldBlock⟩, ?_⟩
              simp only [command, run_bind, run_modify, first, second, third, ran]
              rfl

/-- An exception leaves a phase. -/
theorem throws {current : Phase} {fault : Fault} (begins : Begins commandStr start current before)
    (ran : phase current.work events before = .error fault after) :
    ∃ script, command commandStr script start = .error fault after := by
  cases begins with
  | create =>
      refine ⟨⟨events, [], [], [], false⟩, ?_⟩
      simp only [Phase.work] at ran
      simp only [command, run_bind, run_modify, ran]
  | @execute create _ _ begins first =>
      cases begins
      refine ⟨⟨create, events, [], [], false⟩, ?_⟩
      simp only [Phase.work] at ran
      simp only [command, run_bind, run_modify, first, ran]
  | @reads execute _ _ begins second =>
      cases begins with
      | @execute create _ _ begins first =>
          cases begins
          refine ⟨⟨create, execute, events, [], false⟩, ?_⟩
          simp only [Phase.work] at ran
          simp only [command, run_bind, run_modify, first, second, ran]
  | @close reads _ _ begins third =>
      cases begins with
      | @reads execute _ _ begins second =>
          cases begins with
          | @execute create _ _ begins first =>
              cases begins
              refine ⟨⟨create, execute, reads, events, false⟩, ?_⟩
              simp only [Phase.work] at ran
              simp only [command, run_bind, run_modify, first, second, third, ran]

end Begins

/-- Where the caller of `command` is, and what it has made of the client. -/
def Doing (commandStr : List UInt8) (start : Ctx UInt8) : MainPc → Ctx UInt8 → Prop
  | .idle, _ => False
  | .resetting current, ctx => Begins commandStr start current ctx
  | .armingRead current, ctx =>
      ∃ before, Begins commandStr start current before ∧ ctx = before.onIo IoContext.reset
  | .armingWrite current, ctx =>
      ∃ before, Begins commandStr start current before ∧
        ctx = before.onIo fun io => io.reset.arm ⟨current.work, true⟩
  | .running current pc, ctx =>
      ∃ before, Begins commandStr start current before ∧ Inside (begun current.work before) pc ctx
  | .cleaning, ctx =>
      ∃ events before, Begins commandStr start .close before ∧
        phase .DoCloseChannel events before = .ok () ctx

theorem leaves_error {α : Type} {fault : Fault} (hard : fault ≠ .blocked) (thrown : Ctx UInt8) :
    leaves (.error fault thrown : EStateM.Result Fault (Ctx UInt8) α) =
      some (thrown.onIo fun io => io.workFinished .returned) := by
  cases fault with
  | blocked => exact absurd rfl hard
  | _ => rfl

end ClientImpl

open ClientImpl

namespace ClientThreads

variable {s next : ClientThreads} {action : RunAction} {commandStr : List UInt8}
  {start : Ctx UInt8}

/-- The commands so far, the last one first. -/
def commands (s : ClientThreads) : List (List UInt8) := s.log.map CommandLog.commandStr

theorem commandStr_recordCalls (log : List CommandLog) (calls : List ChannelCall) :
    (recordCalls log calls).map CommandLog.commandStr = log.map CommandLog.commandStr := by
  cases log <;> rfl

/-- What no statement of `command` changes. -/
theorem frame_mainStep (stepped : s.mainStep action = some next) :
    next.threadIo = s.threadIo ∧ next.terminated = s.terminated ∧ next.commands = s.commands := by
  unfold mainStep at stepped
  split at stepped
  case h_6 =>
      obtain ⟨result, -, rfl⟩ := Option.map_eq_some_iff.mp stepped
      exact ⟨rfl, rfl, commandStr_recordCalls ..⟩
  case h_7 =>
      cases stepped
      exact ⟨rfl, rfl, commandStr_recordCalls ..⟩
  all_goals cases stepped
  all_goals exact ⟨rfl, rfl, rfl⟩

/-- **Every statement of `command` brings it further**, or ends it. -/
theorem doing_mainStep (doing : Doing commandStr start s.main s.ctx)
    (alone : s.threadIo = .returned) (stepped : s.mainStep action = some next) :
    Doing commandStr start next.main next.ctx ∨
      next.main = .idle ∧ ∃ script, commandAfter commandStr script start = some next.ctx := by
  unfold mainStep at stepped
  split at stepped
  next current pc =>
      cases stepped
      rw [pc] at doing
      exact .inl ⟨s.ctx, doing, rfl⟩
  next current pc =>
      cases stepped
      rw [pc] at doing
      obtain ⟨before, begins, same⟩ := doing
      exact .inl ⟨before, begins, by rw [same]; rfl⟩
  next current pc =>
      cases stepped
      rw [pc] at doing
      obtain ⟨before, begins, same⟩ := doing
      exact .inl ⟨before, begins, by rw [same]; rfl⟩
  next pc =>
      cases stepped
      rw [pc] at doing
      obtain ⟨before, begins, events, ran⟩ := doing
      exact .inl (.reads begins ran)
  next current other pc =>
      cases stepped
      rw [pc] at doing
      obtain ⟨before, begins, events, ran⟩ := doing
      cases current with
      | create => exact .inl (.execute begins ran)
      | execute => exact (other rfl).elim
      | reads => exact .inl (.close begins ran)
      | close => exact .inl ⟨events, before, begins, ran⟩
  next current inside pc _ _ =>
      obtain ⟨⟨after, now⟩, ran, rfl⟩ := Option.map_eq_some_iff.mp stepped
      rw [pc] at doing
      rw [alone] at ran
      obtain ⟨before, begins, within⟩ := doing
      have armed : (begun current.work before).io.pending ≠ [] :=
        List.append_ne_nil_of_right_ne_nil _ (List.cons_ne_nil _ _)
      rcases within.step rfl armed ran with goesOn | ⟨rfl, events, fault, thrown, throws, hard, rfl⟩
      · have inRun : now ≠ .threw := by
          rintro rfl
          exact goesOn
        refine .inl ?_
        show Doing commandStr start (mainAt current now) after
        rw [mainAt, if_neg inRun]
        exact ⟨before, begins, goesOn⟩
      · obtain ⟨script, ends⟩ := begins.throws throws
        exact .inr ⟨rfl, script, (congrArg leaves ends).trans (leaves_error hard thrown)⟩
  next answers pc =>
      cases stepped
      rw [pc] at doing
      obtain ⟨events, before, begins, ran⟩ := doing
      obtain ⟨script, ends⟩ := begins.returns ran (decide (answers.rc = libssh2ErrorEagain))
      exact .inr ⟨rfl, script, congrArg leaves ends⟩
  next => cases stepped

/-! ## Every command can be served -/

/-- The caller of `command` is at `main` and `threadIo` has returned. -/
structure At (main : MainPc) (ctx : Ctx UInt8) (commands : List (List UInt8))
    (s : ClientThreads) : Prop where
  main : s.main = main
  ctx : s.ctx = ctx
  alone : s.threadIo = .returned
  alive : s.terminated = false
  commands : s.commands = commands

/-- The caller of `command` gets from `s` to `main`. -/
def Gets (origin : Ctx UInt8) (s : ClientThreads) (main : MainPc) (ctx : Ctx UInt8) : Prop :=
  ∃ t, (commandMachine origin).Leads s t ∧ t.At main ctx s.commands

variable {origin ctx after last : Ctx UInt8} {main later : MainPc} {current : Phase}
  {commands : List (List UInt8)}

theorem Gets.trans (gets : Gets origin s main ctx)
    (goes : ∀ t : ClientThreads, t.At main ctx s.commands → Gets origin t later after) :
    Gets origin s later after := by
  obtain ⟨t, leads, there⟩ := gets
  obtain ⟨u, leadsOn, main, ctx, alone, alive, commands⟩ := goes t there
  exact ⟨u, leads.trans leadsOn, main, ctx, alone, alive, commands.trans there.commands⟩

/-- A statement of `command`. -/
theorem gets_mainStep (here : s.At main ctx commands) (stepped : s.mainStep action = some next) :
    Gets origin s next.main next.ctx := by
  obtain ⟨alone, alive, same⟩ := frame_mainStep stepped
  refine ⟨next, .step (a := .run .main action) ?_, rfl, rfl, alone.trans here.alone,
    alive.trans here.alive, same⟩
  simp [commandMachine, step, here.alive, stepped]

/-- A statement inside `run()`. -/
theorem gets_runStep {pc now : RunPc} (here : s.At (.running current pc) ctx commands)
    (inRun : pc ≠ .returned) (ran : runStep ctx .returned pc action = some (after, now)) :
    Gets origin s (mainAt current now) after := by
  have stepped : s.mainStep action = some
      { s with
        ctx := after
        main := mainAt current now
        log := recordCalls s.log (callsOf s.ctx pc action) } := by
    rw [← here.ctx, ← here.alone] at ran
    cases pc with
    | returned => exact absurd rfl inRun
    | _ => simp [mainStep, here.main, ran]
  exact gets_mainStep here stepped

/-- A handler is dispatched, and its `DoWork` function is called. -/
theorem gets_call {event : Event} {handler : Handler} {now : RunPc}
    (here : s.At (.running current .waiting) ctx commands) (goes : ctx.io.stopped = false)
    (found : ctx.io.pending[event.index]? = some handler)
    (called : runStep (taken event ctx) .returned (.calling handler) (.call event.answers) =
      some (after, now)) : Gets origin s (mainAt current now) after := by
  have dispatched : runStep ctx .returned .waiting (.dispatch event.index) =
      some (taken event ctx, .checking handler) := by
    simp only [runStep, goes, found]
    rfl
  have untouched : (taken event ctx).io.stopped = false := goes
  have checked : runStep (taken event ctx) .returned (.checking handler) .next =
      some (taken event ctx, .calling handler) := by
    simp only [runStep, untouched]
    rfl
  refine (gets_runStep here nofun dispatched).trans fun t there => ?_
  refine (gets_runStep there nofun checked).trans fun t there => ?_
  exact gets_runStep there nofun called

/-- A handler that armed itself again, or stopped the `ioContext`, lets the thread wait. -/
theorem gets_waiting {handler : Handler} {state : WorkState}
    (here : s.At (.running current (.finishing handler state)) ctx commands)
    (finished : runStep ctx .returned (.finishing handler state) .next = some (after, .leaving))
    (supplied : after.io.stopped = true ∨ after.io.pending ≠ []) :
    Gets origin s (.running current .waiting) after := by
  have left : runStep after .returned .leaving .next = some (after, .waiting) := by
    show some (after.onIo fun _ => after.io.workFinished .returned, RunPc.waiting) = _
    rw [workFinished_eq supplied]
    rfl
  refine (gets_runStep here nofun finished).trans fun t there => ?_
  exact gets_runStep there nofun left

theorem gets_returned (here : s.At (.running current .waiting) ctx commands)
    (stopped : ctx.io.stopped = true) : Gets origin s (.running current .returned) ctx := by
  have returned : runStep ctx .returned .waiting .next = some (ctx, .returned) := by
    simp [runStep, stopped]
  exact gets_runStep here nofun returned

/-- A run returns, an exception leaves it, or it goes on waiting. -/
def Serves (origin : Ctx UInt8) (s : ClientThreads) (current : Phase) :
    EStateM.Result Fault (Ctx UInt8) Unit → Prop
  | .ok _ after => Gets origin s (.running current .returned) after
  | .error .blocked _ => True
  | .error _ thrown => Gets origin s .idle (thrown.onIo fun io => io.workFinished .returned)

theorem Serves.trans {result : EStateM.Result Fault (Ctx UInt8) Unit}
    (gets : Gets origin s main ctx)
    (serves : ∀ t : ClientThreads, t.At main ctx s.commands → Serves origin t current result) :
    Serves origin s current result := by
  cases result with
  | ok _ after => exact gets.trans serves
  | error fault thrown =>
      cases fault with
      | blocked => trivial
      | _ => exact gets.trans serves

/-- **Every run can be taken one statement at a time.** -/
theorem serves_run {events : List Event} (here : s.At (.running current .waiting) ctx commands)
    (supplied : ctx.io.stopped = true ∨ ctx.io.pending ≠ []) :
    Serves origin s current (run events ctx) := by
  induction events generalizing s ctx commands with
  | nil =>
      cases stopped : ctx.io.stopped with
      | true =>
          rw [run_of_stopped stopped]
          exact gets_returned here stopped
      | false =>
          rw [run_nil_of_armed stopped (supplied.resolve_left (by simp [stopped]))]
          trivial
  | cons event events ih =>
      cases stopped : ctx.io.stopped with
      | true =>
          rw [run_of_stopped stopped]
          exact gets_returned here stopped
      | false =>
          have armed := supplied.resolve_left (by simp [stopped])
          cases found : ctx.io.pending[event.index]? with
          | none =>
              rw [run_skip stopped armed found]
              exact ih here supplied
          | some handler =>
              cases worked : doWork handler.work event.answers (taken event ctx) with
              | error fault thrown =>
                  have called : runStep (taken event ctx) .returned (.calling handler)
                      (.call event.answers) =
                        some (thrown.onIo fun io => io.workFinished .returned, .threw) := by
                    simp only [runStep, worked]
                  have throws : run (event :: events) ctx = .error fault thrown := by
                    rw [run_cons stopped found, run_bind, dispatch_going stopped found, run_bind,
                      worked]
                  have gets : Gets origin s _ _ := gets_call here stopped found called
                  rw [throws]
                  cases fault with
                  | blocked => trivial
                  | _ => exact gets
              | ok state after =>
                  have called : runStep (taken event ctx) .returned (.calling handler)
                      (.call event.answers) = some (after, .finishing handler state) := by
                    simp only [runStep, worked]
                  refine Serves.trans (gets_call here stopped found called) fun t there => ?_
                  cases state with
                  | STILL_WORKING =>
                      have pending : (rearmed handler after).io.pending ≠ [] :=
                        List.append_ne_nil_of_right_ne_nil _ (List.cons_ne_nil _ _)
                      rw [run_still stopped found worked]
                      refine Serves.trans (gets_waiting there rfl (.inr pending)) fun u back => ?_
                      exact ih back (.inr pending)
                  | WORK_DONE =>
                      rw [run_done stopped found worked]
                      refine Serves.trans (gets_waiting there rfl (.inl rfl)) fun u back => ?_
                      exact gets_returned back rfl

/-- A statement between the runs. -/
theorem gets_next (here : s.At main ctx commands)
    (stepped : s.mainStep .next = some { s with ctx := after, main := later }) :
    Gets origin s later after :=
  gets_mainStep here stepped

/-- A phase, from `reset()` to the end of `run()`. -/
theorem serves_phase (here : s.At (.resetting current) ctx commands) (events : List Event) :
    Serves origin s current (phase current.work events ctx) := by
  have armed : (begun current.work ctx).io.pending ≠ [] :=
    List.append_ne_nil_of_right_ne_nil _ (List.cons_ne_nil _ _)
  have supplied : (begun current.work ctx).io.outOfWork .returned = false := by
    simp [IoContext.outOfWork, armed]
  have entered : runStep (begun current.work ctx) .returned .entering .next =
      some (begun current.work ctx, .waiting) := by
    simp only [runStep, supplied]
    rfl
  have begins : Gets origin s (.running current .entering) (begun current.work ctx) := by
    have reset : Gets origin s (.armingRead current) (ctx.onIo IoContext.reset) :=
      gets_next here (by simp only [mainStep, here.main, here.ctx])
    refine reset.trans fun t there => ?_
    have armsRead : Gets origin t (.armingWrite current)
        ((ctx.onIo IoContext.reset).onIo fun io => io.arm ⟨current.work, true⟩) :=
      gets_next there (by simp only [mainStep, there.main, there.ctx])
    refine armsRead.trans fun t there => ?_
    exact gets_next there (by simp only [mainStep, there.main, there.ctx]; rfl)
  rw [phase_eq]
  refine Serves.trans begins fun t there => ?_
  refine Serves.trans (gets_runStep there (by decide) entered) fun t there => ?_
  exact serves_run there (.inr armed)

/-- What `command` does after a phase: it clears the text before the channel is read. -/
def passed : Phase → Ctx UInt8 → Ctx UInt8
  | .execute, ctx => ctx.assign fun client => { client with commandChannelReadStr := [] }
  | _, ctx => ctx

/-- The end of a phase: the next one begins, or the channel is freed. -/
theorem gets_afterPhase (here : s.At (.running current .returned) ctx commands) :
    Gets origin s (.afterPhase current) (passed current ctx) := by
  cases current <;> exact gets_next here (by simp only [mainStep, here.main, here.ctx]; rfl)

theorem gets_cleanup (here : s.At .cleaning ctx commands) (freeWouldBlock : Bool) :
    Gets origin s .idle (finalState (cleanup freeWouldBlock ctx)) := by
  have freed : ∀ rc : Int,
      Gets origin s .idle (finalState (cleanup (decide (rc = libssh2ErrorEagain)) ctx)) := by
    intro rc
    have stepped : s.mainStep (.call { rc := rc }) = some
        { s with
          ctx := finalState (cleanup (decide (rc = libssh2ErrorEagain)) ctx)
          main := .idle
          log := recordCalls s.log [.free] } := by
      simp only [mainStep, here.main, here.ctx]
    exact gets_mainStep here stepped
  cases freeWouldBlock with
  | true => exact freed libssh2ErrorEagain
  | false => exact freed 0

/-- An exception that leaves a phase leaves `command`. -/
theorem Serves.throws {α : Type} {fault : Fault} {thrown : Ctx UInt8}
    (serves : Serves origin s current (.error fault thrown))
    (left : leaves (.error fault thrown : EStateM.Result Fault (Ctx UInt8) α) = some after) :
    Gets origin s .idle after := by
  cases fault with
  | blocked => cases left
  | _ =>
      cases left
      exact serves

/-- A phase, and what `command` does after it. -/
theorem gets_phase {α : Type} (here : s.At (.resetting current) ctx commands)
    {events : List Event} {rest : Unit → ClientM UInt8 α}
    (served : leaves ((phase current.work events >>= rest) ctx) = some after)
    (goesOn : ∀ middle t, t.At (.afterPhase current) (passed current middle) s.commands →
      leaves (rest () middle) = some after → Gets origin t .idle after) :
    Gets origin s .idle after := by
  have serves : Serves origin s current _ := serves_phase here events
  rw [run_bind] at served
  cases ran : phase current.work events ctx with
  | ok _ middle =>
      rw [ran] at serves served
      refine Gets.trans serves fun t there => ?_
      refine (gets_afterPhase there).trans fun u next => ?_
      exact goesOn middle u (there.commands ▸ next) served
  | error fault thrown =>
      rw [ran] at serves served
      exact serves.throws served

/-- **Every command can be taken one statement at a time.** -/
theorem gets_command {start : Ctx UInt8} {script : CommandScript}
    (here : s.At (.resetting .create)
      (start.assign fun client => { client with commandStr := commandStr }) commands)
    (served : commandAfter commandStr script start = some after) : Gets origin s .idle after := by
  refine gets_phase here served fun created t there served => ?_
  refine gets_phase there served fun executed t there served => ?_
  refine gets_phase there served fun ended t there served => ?_
  refine gets_phase there served fun closed t there served => ?_
  cases served
  exact gets_cleanup there script.freeWouldBlock

/-! ## Many commands -/

/-- No command is being served, and `threadIo` has returned. -/
structure Rests (s : ClientThreads) : Prop where
  main : s.main = .idle
  alone : s.threadIo = .returned
  alive : s.terminated = false

/-- A command is being served. -/
structure Busy (s now : ClientThreads) : Prop where
  alone : now.threadIo = .returned
  alive : now.terminated = false
  doing : ∃ commandStr, Doing commandStr s.ctx now.main now.ctx ∧
    now.commands = commandStr :: s.commands

/-- What the owner of a client sees between two commands: the client and its handles, and
the commands so far. -/
def seen (s : ClientThreads) : Ctx UInt8 × List (List UInt8) := (s.ctx, s.commands)

/-- The function `command`, on what is seen. -/
def serve (before : Ctx UInt8 × List (List UInt8)) (call : List UInt8 × CommandScript) :
    Option (Ctx UInt8 × List (List UInt8)) :=
  (commandAfter call.1 call.2 before.1).map fun after => (after, call.1 :: before.2)

/-- `command` is called. -/
def called (s : ClientThreads) (commandStr : List UInt8) : ClientThreads :=
  { s with
    ctx := s.ctx.assign fun client => { client with commandStr := commandStr }
    main := .resetting .create
    log := ⟨commandStr, []⟩ :: s.log }

/-- When `threadIo` has returned, only the owner of the client takes steps. -/
theorem step_cases {action : CommandAction} (alone : s.threadIo = .returned)
    (stepped : s.step action = some next) :
    (s.main = .idle ∧ ∃ commandStr, next = s.called commandStr) ∨
      ∃ statement, s.mainStep statement = some next := by
  unfold step at stepped
  split at stepped
  · cases stepped
  · split at stepped
    next commandStr =>
      obtain ⟨idle, same⟩ := Option.ite_none_right_eq_some.mp stepped
      exact .inl ⟨idle, commandStr, (Option.some.inj same).symm⟩
    next statement => exact .inr ⟨statement, stepped⟩
    next statement =>
      rw [threadIoStep, alone] at stepped
      cases statement <;> cases stepped

theorem serving (origin : Ctx UInt8) :
    (commandMachine origin).Serving Rests Busy seen serve := by
  refine ⟨?_, ?_, ?_⟩
  · intro s action next rests stepped
    rcases step_cases rests.alone stepped with ⟨-, commandStr, rfl⟩ | ⟨statement, stepped⟩
    · exact ⟨rests.alone, rests.alive, commandStr, .create, rfl⟩
    · simp [mainStep, rests.main] at stepped
  · intro s now action next rests busy stepped
    obtain ⟨commandStr, doing, commands⟩ := busy.doing
    rcases step_cases busy.alone stepped with ⟨idle, -⟩ | ⟨statement, stepped⟩
    · rw [idle] at doing
      exact doing.elim
    · obtain ⟨alone, alive, same⟩ := frame_mainStep stepped
      have alone := alone.trans busy.alone
      have alive := alive.trans busy.alive
      have same := same.trans commands
      rcases doing_mainStep doing busy.alone stepped with goesOn | ⟨idle, script, ends⟩
      · exact .inl ⟨alone, alive, commandStr, goesOn, same⟩
      · refine .inr ⟨⟨idle, alone, alive⟩, (commandStr, script), ?_⟩
        simp [serve, seen, ends, same]
  · intro s now busy rests
    obtain ⟨commandStr, doing, -⟩ := busy.doing
    rw [rests.main] at doing
    exact doing

theorem served (origin : Ctx UInt8) (s : ClientThreads) (call : List UInt8 × CommandScript)
    (after : Ctx UInt8 × List (List UInt8)) (rests : s.Rests)
    (answer : serve s.seen call = some after) :
    ∃ t, (commandMachine origin).Leads s t ∧ t.Rests ∧ t.seen = after := by
  obtain ⟨commandStr, script⟩ := call
  obtain ⟨ctx, served, rfl⟩ := Option.map_eq_some_iff.mp answer
  have begins : (commandMachine origin).step s (.command commandStr) =
      some (s.called commandStr) := by
    simp [commandMachine, step, rests.alive, rests.main, called]
  have here : (s.called commandStr).At (.resetting .create)
      (s.ctx.assign fun client => { client with commandStr := commandStr })
      (commandStr :: s.commands) := ⟨rfl, rfl, rests.alone, rests.alive, rfl⟩
  obtain ⟨t, leads, there⟩ : Gets origin (s.called commandStr) .idle ctx :=
    gets_command here served
  refine ⟨t, (Machine.Leads.step begins).trans leads, ⟨there.main, there.alone, there.alive⟩, ?_⟩
  exact Prod.ext there.ctx there.commands

end ClientThreads

/-- **A command in one thread is the function `command`.** Once `threadIo` has returned, what
any run makes of a client, seen between two commands, is what the function makes of it for
the same commands, and whatever the function makes of it some run does. -/
theorem commands_alone (origin : Ctx UInt8) (s : ClientThreads) (rests : s.Rests)
    (after : Ctx UInt8 × List (List UInt8)) :
    (∃ t, (commandMachine origin).Leads s t ∧ t.Rests ∧ t.seen = after) ↔
      ∃ calls : List (List UInt8 × CommandScript),
        calls.foldlM ClientThreads.serve s.seen = some after :=
  (ClientThreads.serving origin).leads_iff (ClientThreads.served origin) rests after

/-- Each phase is ended by its own write-ready handler. -/
def writeReadyScript : CommandScript where
  create := [{ index := 1 }]
  execute := [{ index := 2 }]
  reads := [{ index := 3 }]
  close := [{ index := 4 }]

/-- `threadIo` finds nothing to run, and a command is served. -/
theorem commands_alone_writeReadyScript :
    ∃ s t, (commandMachine connectedCtx).step (commandMachine connectedCtx).init
        (.run .threadIo .next) = some s ∧
      (commandMachine connectedCtx).Leads s t ∧ t.Rests ∧ t.commands = [[108, 115]] := by
  have served := (commands_alone connectedCtx
    { ctx := connectedCtx.onIo .stop, threadIo := .returned } ⟨rfl, rfl, rfl⟩ _).mpr
    ⟨[([108, 115], writeReadyScript)], rfl⟩
  obtain ⟨t, leads, rests, seen⟩ := served
  exact ⟨_, t, rfl, leads, rests, congrArg Prod.snd seen⟩

end BookFilerSsh
