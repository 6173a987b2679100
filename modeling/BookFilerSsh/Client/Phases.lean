import BookFilerSsh.Client.Threads

/-!
# The phases of a command

`Progress.after` is the order that the calls for a command must have: the channel is
opened, again after `EAGAIN` only, the command is executed once, and the channel is
read, closed and freed. `PhasesApart` says that the calls of every command keep that
order, that a thread calls a `DoWork` function in the phase of that function and before
its work is done, and that `run()` returns in a phase when the work of the phase is done.

`LoopAsync` knows neither the phase it was armed in nor whether its work is already
done, so a single handler that is left over breaks the law
(`not_phasesApart_staleHandler`). `ClientThreads.Orderly` names the steps that may break
it: a left-over handler is dispatched, `reset()` overtakes the test in `LoopAsync`, the
two threads meet between that test and `stop()`, `exec` or `close` has to be called
again, or a context without a handler is stopped. It holds in every run without them
(`phasesApart_of_orderly`): what a thread has still to call is then one of the phase
(`Due`).
-/

set_option autoImplicit false

namespace BookFilerSsh

open Lib.Effects

/-! ## The order of the calls -/

/-- How far a command has come. -/
inductive Progress where
  | opening
  | opened
  | executed
  | readDone
  | closed
  | freed
  /-- libssh2 returned an error, which `command` throws. -/
  | failed
  deriving DecidableEq, Repr

/-- The order the calls for a command must have. -/
def Progress.after (commandStr : List UInt8) : Progress → ChannelCall → Option Progress
  | .opening, .openSession true _ => some .opened
  | .opening, .openSession false lastError =>
      some (if lastError = libssh2ErrorEagain then .opening else .failed)
  | .opened, .exec str rc =>
      if str = cString commandStr ∧ rc ≠ libssh2ErrorEagain then
        some (if rc = 0 then .executed else .failed)
      else none
  | .executed, .read rc => some (if rc < 0 then .executed else .readDone)
  | .readDone, .close rc =>
      if rc ≠ libssh2ErrorEagain then some (if rc = 0 then .closed else .failed) else none
  | .closed, .free => some .freed
  | _, _ => none

namespace CommandLog

/-- How far the calls have brought the command, when they were in order. -/
def progress (entry : CommandLog) : Option Progress :=
  entry.calls.foldl (fun reached call => reached.bind fun progress =>
    progress.after entry.commandStr call) (some .opening)

/-- All the calls of the command were made, or one of them failed. -/
def Over (entry : CommandLog) : Prop :=
  entry.progress = some .freed ∨ entry.progress = some .failed

instance (entry : CommandLog) : Decidable entry.Over := inferInstanceAs (Decidable (_ ∨ _))

/-- One more call brings the command one step further. -/
theorem progress_record (entry : CommandLog) (call : ChannelCall) :
    (entry.record [call]).progress =
      entry.progress.bind fun progress => progress.after entry.commandStr call := by
  simp [progress, record]

end CommandLog

/-! ## Phases that do not leak -/

namespace Phase

/-- How far a command is when the phase begins. -/
def start : Phase → Progress
  | .create => .opening
  | .execute => .opened
  | .reads => .executed
  | .close => .readDone

/-- How far a command is when the work of the phase is done. -/
def done : Phase → Progress
  | .create => .opened
  | .execute => .executed
  | .reads => .readDone
  | .close => .closed

/-- How far the reply to a call of the phase brings the command. -/
def reached (phase : Phase) : Reply → Progress
  | .again => phase.start
  | .done => phase.done
  | .error => .failed

theorem work_ne_readListenChannel (phase : Phase) : phase.work ≠ .readListenChannel := by
  cases phase <;> decide

end Phase

/-- A command may be this far when its thread is at `main`. Within a phase its work may
have failed: the exception is on its way to `std::terminate`. -/
def MainPc.Admits (entry : CommandLog) : MainPc → Prop
  | .idle => entry.Over
  | .resetting phase => entry.progress = some phase.start
  | .running phase .returned => entry.progress = some phase.done
  | .armingRead phase | .armingWrite phase | .running phase _ =>
      entry.progress = some phase.start ∨ entry.progress = some phase.done ∨
        entry.progress = some .failed
  | .cleaning => entry.progress = some .closed

/-- The calls of a command that is admitted are in order. -/
theorem MainPc.Admits.inOrder {main : MainPc} {entry : CommandLog} (admits : main.Admits entry) :
    entry.progress ≠ none := by
  intro broken
  unfold MainPc.Admits at admits
  split at admits <;> simp [CommandLog.Over, broken] at admits

/-- The calls of every command are in order, a `DoWork` function is called in its own phase
and not after its work is done, and `run()` returns in a phase when its work is done. -/
structure PhasesApart (s : ClientThreads) : Prop where
  earlier : ∀ entry ∈ s.log.tail, entry.Over
  current : ∀ entry ∈ s.log.head?, s.main.Admits entry
  own : s.terminated = false → ∀ thread handler, s.runPc thread = .calling handler →
    ∃ phase, s.main.phase = some phase ∧ phase.work = handler.work ∧
      ∀ entry ∈ s.log.head?, entry.progress = some phase.start

/-! ## What breaks the law -/

namespace RunPc

/-- The thread is before the `stopped()` test of `LoopAsync`. -/
def beforeTest : RunPc → Bool
  | .checking _ => true
  | _ => false

/-- The thread is past the test, and its `DoWork` function not called yet. -/
def pastTest : RunPc → Bool
  | .calling _ => true
  | _ => false

end RunPc

/-- `reset()` comes next. -/
def MainPc.atReset : MainPc → Bool
  | .resetting _ => true
  | _ => false

/-- What a call of a `DoWork` function has to respect: `exec` and `close` need not be called
again, the work is not done while the other thread is past its test, and the command does
not fail while the other thread has a handler. -/
structure CallGuard (thread : ThreadId) (ctx : Ctx UInt8) (other : RunPc) (handler : Handler)
    (answers : Answers) : Prop where
  once : handler.work = .DoExecute ∨ handler.work = .DoCloseChannel →
    answers.rc ≠ libssh2ErrorEagain
  last : answers.reply ctx.client.session handler.work = .done → other.pastTest = false
  alone : thread = .main → answers.reply ctx.client.session handler.work = .error →
    other.beforeTest = false ∧ other.pastTest = false

/-- What a step inside `run()` has to respect: no handler of another phase is dispatched, the
test in `LoopAsync` is not made between the `WORK_DONE` of the other thread and its `stop()`,
and the `ioContext` is not stopped for want of work after `reset()` and before a handler is
armed. -/
def RunGuard (main : MainPc) (ctx : Ctx UInt8) (thread : ThreadId) (other : RunPc) :
    RunPc → RunAction → Prop
  | .waiting, .dispatch index =>
      ∀ handler ∈ ctx.io.pending[index]?, main.phase.map Phase.work = some handler.work
  | .checking _, .next => ctx.io.stopped = false → other.aboutToStop = false
  | .calling handler, .call answers => CallGuard thread ctx other handler answers
  | .entering, .next | .leaving, .next => ctx.io.outOfWork other = true → main.unarmed = false
  | _, _ => True

/-- What a step has to respect: a step inside `run()` its guard, and `reset()` that `threadIo`
is not before the test in `LoopAsync`. -/
def ClientThreads.Orderly (s : ClientThreads) : CommandAction → Prop
  | .command _ => True
  | .run thread action =>
      (thread = .main → s.main.atReset = true → s.threadIo.beforeTest = false) ∧
        RunGuard s.main s.ctx thread (s.otherPc thread) (s.runPc thread) action

instance (thread : ThreadId) (ctx : Ctx UInt8) (other : RunPc) (handler : Handler)
    (answers : Answers) : Decidable (CallGuard thread ctx other handler answers) :=
  decidable_of_iff
    ((handler.work = .DoExecute ∨ handler.work = .DoCloseChannel →
        answers.rc ≠ libssh2ErrorEagain) ∧
      (answers.reply ctx.client.session handler.work = .done → other.pastTest = false) ∧
      (thread = .main → answers.reply ctx.client.session handler.work = .error →
        other.beforeTest = false ∧ other.pastTest = false))
    ⟨fun ⟨once, last, alone⟩ => ⟨once, last, alone⟩,
      fun guarded => ⟨guarded.once, guarded.last, guarded.alone⟩⟩

instance (main : MainPc) (ctx : Ctx UInt8) (thread : ThreadId) (other pc : RunPc)
    (action : RunAction) : Decidable (RunGuard main ctx thread other pc action) := by
  unfold RunGuard
  split <;> infer_instance

instance (s : ClientThreads) : (action : CommandAction) → Decidable (s.Orderly action)
  | .command _ => inferInstanceAs (Decidable True)
  | .run _ _ => inferInstanceAs (Decidable (_ ∧ _))

/-! ## The work of a phase -/

/-- The work is not done: nothing stops the `ioContext`. -/
structure Working (io : IoContext) (pc other : RunPc) : Prop where
  going : io.stopped = false
  calm : pc.aboutToStop = false
  calmOther : other.aboutToStop = false

/-- The work is done: the `ioContext` is stopped, or one thread is about to stop it. -/
inductive Finished (io : IoContext) (pc other : RunPc) : Prop
  | stopped (stopped : io.stopped = true) (calm : pc.aboutToStop = false)
      (calmOther : other.aboutToStop = false)
  | own (going : io.stopped = false) (ending : pc.aboutToStop = true)
      (calmOther : other.aboutToStop = false)
  | others (going : io.stopped = false) (calm : pc.aboutToStop = false)
      (ending : other.aboutToStop = true)

/-- There is a handler of which a `DoWork` function may still be called. -/
def Armed (io : IoContext) (pc other : RunPc) : Prop :=
  io.pending ≠ [] ∨ pc.holdsHandler = true ∨ other.holdsHandler = true

theorem Working.symm {io : IoContext} {pc other : RunPc} (working : Working io pc other) :
    Working io other pc :=
  ⟨working.going, working.calmOther, working.calm⟩

theorem Finished.symm {io : IoContext} {pc other : RunPc} (finished : Finished io pc other) :
    Finished io other pc := by
  cases finished with
  | stopped stopped calm calmOther => exact .stopped stopped calmOther calm
  | own going ending calmOther => exact .others going calmOther ending
  | others going calm ending => exact .own going ending calm

theorem Armed.symm {io : IoContext} {pc other : RunPc} (armed : Armed io pc other) :
    Armed io other pc :=
  armed.imp id Or.symm

namespace RunPc

theorem executing_of_aboutToStop {pc : RunPc} (ending : pc.aboutToStop = true) :
    pc.executing = true := by
  cases pc <;> simp_all [aboutToStop, executing]

theorem executing_of_holdsHandler {pc : RunPc} (holds : pc.holdsHandler = true) :
    pc.executing = true := by
  cases pc <;> simp_all [holdsHandler, executing]

end RunPc

/-- The other thread executes a handler, so there is work. -/
theorem outOfWork_of_executing {io : IoContext} {other : RunPc}
    (executing : other.executing = true) :
    io.outOfWork other = false := by
  simp [IoContext.outOfWork, executing]

/-- A handler that is armed counts as work, unless it is the one that is given up. -/
theorem Armed.outOfWork {io : IoContext} {pc other : RunPc} (armed : Armed io pc other)
    (none : pc.holdsHandler = false) : io.outOfWork other = false := by
  rcases armed with pending | own | others
  · simp [IoContext.outOfWork, pending]
  · rw [none] at own
    cases own
  · exact outOfWork_of_executing (RunPc.executing_of_holdsHandler others)

namespace IoMoves

variable {io after : IoContext} {other pc next : RunPc} {action : RunAction}

/-- No handler is finished without a call. -/
theorem calm (moves : IoMoves io other pc action after next) : next.aboutToStop = false := by
  cases moves <;> rfl

theorem not_threw (moves : IoMoves io other pc action after next) : next ≠ .threw := by
  cases moves <;> nofun

/-- The `ioContext` is stopped for want of work, or by a thread that was about to. -/
theorem stopped_cases (moves : IoMoves io other pc action after next) :
    after.stopped = io.stopped ∨
      after.stopped = true ∧
        ((pc = .entering ∨ pc = .leaving) ∧ io.outOfWork other = true ∨ pc.aboutToStop = true) := by
  cases moves with
  | starves idle => exact .inr ⟨rfl, .inl ⟨.inl rfl, idle⟩⟩
  | stops => exact .inr ⟨rfl, .inr rfl⟩
  | leaves =>
      unfold IoContext.workFinished
      split
      next idle => exact .inr ⟨rfl, .inl ⟨.inr rfl, idle⟩⟩
      next => exact .inl rfl
  | comesLate => exact .inl rfl
  | enters => exact .inl rfl
  | returns => exact .inl rfl
  | dispatches => exact .inl rfl
  | skips => exact .inl rfl
  | passes => exact .inl rfl
  | rearms => exact .inl rfl

/-- Only `reset()` undoes `stop()`. -/
theorem stopped (moves : IoMoves io other pc action after next) (stopped : io.stopped = true) :
    after.stopped = true := by
  rcases moves.stopped_cases with same | ⟨now, -⟩
  · exact same.trans stopped
  · exact now

/-- A thread that is about to stop the `ioContext` does it next. -/
theorem stopped_of_aboutToStop (moves : IoMoves io other pc action after next)
    (ending : pc.aboutToStop = true) : after.stopped = true := by
  cases moves <;> first | rfl | cases ending

/-- **`run()` returns when the `ioContext` is stopped.** -/
theorem stopped_of_returned (moves : IoMoves io other pc action after next)
    (returned : next = .returned) : after.stopped = true := by
  cases moves with
  | starves => rfl
  | comesLate stopped => exact stopped
  | returns stopped => exact stopped
  | _ => cases returned

/-- While the work is not done, no step without a call stops the `ioContext`, unless
there is no outstanding work. -/
theorem working (moves : IoMoves io other pc action after next) (working : Working io pc other)
    (supplied : pc = .entering ∨ pc = .leaving → io.outOfWork other = false) :
    Working after next other := by
  refine ⟨?_, moves.calm, working.calmOther⟩
  rcases moves.stopped_cases with same | ⟨-, ⟨at_, idle⟩ | ending⟩
  · exact same.trans working.going
  · exact absurd (idle.symm.trans (supplied at_)) nofun
  · exact absurd (ending.symm.trans working.calm) nofun

/-- No handler is given up while the work is not done. -/
theorem armed (moves : IoMoves io other pc action after next) (working : Working io pc other)
    (armed : Armed io pc other) : Armed after next other := by
  have still (none : pc.holdsHandler = false) : io.pending ≠ [] ∨ other.holdsHandler = true := by
    rcases armed with pending | own | others
    · exact .inl pending
    · exact absurd (none.symm.trans own) nofun
    · exact .inr others
  have going := working.going
  cases moves with
  | starves => exact (still rfl).imp id .inr
  | comesLate => exact (still rfl).imp id .inr
  | enters => exact (still rfl).imp id .inr
  | returns => exact (still rfl).imp id .inr
  | dispatches => exact .inr (.inl rfl)
  | skips handler stopped => exact absurd (going.symm.trans stopped) nofun
  | passes => exact .inr (.inl rfl)
  | rearms => exact .inl (by simp [IoContext.arm])
  | stops => exact absurd working.calm nofun
  | leaves =>
      rcases still rfl with pending | others
      · left
        unfold IoContext.workFinished
        split <;> exact pending
      · exact .inr (.inr others)

/-- Once the work is done, a step without a call leaves it done. -/
theorem finished (moves : IoMoves io other pc action after next) (finished : Finished io pc other) :
    Finished after next other := by
  cases finished with
  | stopped stopped calm calmOther => exact .stopped (moves.stopped stopped) moves.calm calmOther
  | own going ending calmOther =>
      exact .stopped (moves.stopped_of_aboutToStop ending) moves.calm calmOther
  | others going calm ending =>
      -- the other thread executes a handler, so there is outstanding work
      refine .others ?_ moves.calm ending
      rcases moves.stopped_cases with same | ⟨-, ⟨-, idle⟩ | own⟩
      · exact same.trans going
      · have busy : io.outOfWork other = false :=
          outOfWork_of_executing (RunPc.executing_of_aboutToStop ending)
        exact absurd (idle.symm.trans busy) nofun
      · exact absurd (own.symm.trans calm) nofun

end IoMoves

/-! ## The calls of a phase -/

/-- **The work of a phase makes its own call**, which brings the command from the start
of the phase as far as the reply says. -/
theorem call_of_phase (phase : Phase) (answers : Answers) (ctx : Ctx UInt8)
    (once : phase.work = .DoExecute ∨ phase.work = .DoCloseChannel →
      answers.rc ≠ libssh2ErrorEagain) :
    ∃ call, phase.work.channelCalls ctx answers = [call] ∧
      phase.start.after ctx.client.commandStr call =
        some (phase.reached (answers.reply ctx.client.session phase.work)) := by
  cases phase with
  | create =>
      refine ⟨_, rfl, ?_⟩
      simp only [Phase.start, Phase.work, Answers.reply, ClientImpl.isSome_openCommandChannel]
      by_cases opened : ctx.client.session.isSome ∧ answers.opened
      · rw [if_pos opened, Bool.and_eq_true_iff.mpr opened]
        rfl
      · rw [if_neg opened, Bool.eq_false_iff.mpr (mt Bool.and_eq_true_iff.mp opened)]
        rw [Progress.after]
        by_cases again : answers.rc = libssh2ErrorEagain
        · rw [if_pos again, if_pos again]
          rfl
        · rw [if_neg again, if_neg again]
          rfl
  | execute =>
      have answered : answers.rc ≠ libssh2ErrorEagain := once (.inl rfl)
      refine ⟨_, rfl, ?_⟩
      simp only [Phase.start, Phase.work, Answers.reply, Reply.ofCode, Progress.after, true_and]
      rw [if_pos answered, if_neg answered]
      by_cases done : answers.rc = 0
      · rw [if_pos done, if_pos done]
        rfl
      · rw [if_neg done, if_neg done]
        rfl
  | reads =>
      refine ⟨_, rfl, ?_⟩
      simp only [Phase.start, Phase.work, Answers.reply, Progress.after]
      by_cases more : answers.read.rc < 0
      · rw [if_pos more, if_pos more]
        rfl
      · rw [if_neg more, if_neg more]
        rfl
  | close =>
      have answered : answers.rc ≠ libssh2ErrorEagain := once (.inr rfl)
      refine ⟨_, rfl, ?_⟩
      simp only [Phase.start, Phase.work, Answers.reply, Reply.ofCode, Progress.after]
      rw [if_pos answered, if_neg answered]
      by_cases done : answers.rc = 0
      · rw [if_pos done, if_pos done]
        rfl
      · rw [if_neg done, if_neg done]
        rfl

/-! ## What a step keeps -/

/-- The current command is this far. -/
def Reached (log : List CommandLog) (progress : Progress) : Prop :=
  ∀ entry ∈ log.head?, entry.progress = some progress

/-- The client still holds the string of the current command. -/
def Named (log : List CommandLog) (ctx : Ctx UInt8) : Prop :=
  ∀ entry ∈ log.head?, entry.commandStr = ctx.client.commandStr

@[simp] theorem recordCalls_nil (log : List CommandLog) : recordCalls log [] = log := by
  cases log <;> simp [recordCalls, CommandLog.record]

@[simp] theorem tail_recordCalls (log : List CommandLog) (calls : List ChannelCall) :
    (recordCalls log calls).tail = log.tail := by
  cases log <;> simp [recordCalls]

theorem Named.record {log : List CommandLog} {ctx after : Ctx UInt8} (named : Named log ctx)
    (same : after.client.commandStr = ctx.client.commandStr) (calls : List ChannelCall) :
    Named (recordCalls log calls) after := by
  cases log with
  | nil => exact nofun
  | cons entry log =>
      rintro _ ⟨⟩
      rw [same]
      exact named entry rfl

theorem Reached.record {log : List CommandLog} {ctx : Ctx UInt8} {before after : Progress}
    {call : ChannelCall} (reached : Reached log before) (named : Named log ctx)
    (follows : before.after ctx.client.commandStr call = some after) :
    Reached (recordCalls log [call]) after := by
  cases log with
  | nil => exact nofun
  | cons entry log =>
      rintro _ ⟨⟩
      rw [entry.progress_record, reached entry rfl, named entry rfl]
      exact follows

/-- Within a phase, its work is done or not. -/
def PhaseAt (phase : Phase) (log : List CommandLog) (io : IoContext) (pc other : RunPc)
    (unarmed : Bool) : Prop :=
  (Reached log phase.start ∧ Working io pc other ∧ (unarmed = false → Armed io pc other)) ∨
    (Reached log phase.done ∧ Finished io pc other)

theorem PhaseAt.symm {phase : Phase} {log : List CommandLog} {io : IoContext} {pc other : RunPc}
    {unarmed : Bool} (within : PhaseAt phase log io pc other unarmed) :
    PhaseAt phase log io other pc unarmed := by
  rcases within with ⟨reached, working, armed⟩ | ⟨reached, finished⟩
  · exact .inl ⟨reached, working.symm, fun has => (armed has).symm⟩
  · exact .inr ⟨reached, finished.symm⟩

/-- Arming a handler stops nothing. -/
theorem PhaseAt.arm {phase : Phase} {log : List CommandLog} {io : IoContext} {pc other : RunPc}
    {unarmed : Bool} (within : PhaseAt phase log io pc other unarmed) (handler : Handler) :
    PhaseAt phase log (io.arm handler) pc other false := by
  rcases within with ⟨reached, working, -⟩ | ⟨reached, finished⟩
  · refine .inl ⟨reached, ⟨working.going, working.calm, working.calmOther⟩, fun _ => .inl ?_⟩
    simp [IoContext.arm]
  · refine .inr ⟨reached, ?_⟩
    cases finished with
    | stopped stopped calm calmOther => exact .stopped stopped calm calmOther
    | own going ending calmOther => exact .own going ending calmOther
    | others going calm ending => exact .others going calm ending

/-- A thread that calls `run()` has no handler yet. -/
theorem PhaseAt.enter {phase : Phase} {log : List CommandLog} {io : IoContext} {other : RunPc}
    {unarmed : Bool} (within : PhaseAt phase log io .returned other unarmed) :
    PhaseAt phase log io .entering other unarmed := by
  rcases within with ⟨reached, working, armed⟩ | ⟨reached, finished⟩
  · exact .inl ⟨reached, ⟨working.going, rfl, working.calmOther⟩, armed⟩
  · refine .inr ⟨reached, ?_⟩
    cases finished with
    | stopped stopped _ calmOther => exact .stopped stopped rfl calmOther
    | own _ ending => cases ending
    | others going _ ending => exact .others going rfl ending

/-- The handler that a thread has still to call is one of the phase: before the test, unless
the `ioContext` is stopped, and past it while nothing stops the `ioContext`. -/
structure Due (phase : Option Phase) (io : IoContext) (pc other : RunPc) : Prop where
  tested : ∀ handler, pc = .checking handler →
    io.stopped = true ∨ phase.map Phase.work = some handler.work
  called : ∀ handler, pc = .calling handler →
    phase.map Phase.work = some handler.work ∧ io.stopped = false ∧ other.aboutToStop = false

namespace Due

variable {phase : Option Phase} {io after : IoContext} {pc other next : RunPc}

/-- A thread that calls nothing. -/
theorem of_uncalled (before : pc.beforeTest = false) (past : pc.pastTest = false) :
    Due phase io pc other where
  tested handler at_ := by
    rw [at_] at before
    cases before
  called handler at_ := by
    rw [at_] at past
    cases past

/-- The `ioContext` is stopped no more than it was, and the other thread does not stop it. -/
theorem mono (due : Due phase io pc other) (same : after.stopped = io.stopped)
    (calm : next.aboutToStop = false) : Due phase after pc next where
  tested handler at_ := same ▸ due.tested handler at_
  called handler at_ := by
    obtain ⟨own, going, -⟩ := due.called handler at_
    exact ⟨own, same.trans going, calm⟩

/-- In no phase nothing is called, so that the next phase starts with nothing to call. -/
theorem enterPhase (due : Due none io pc other) (before : pc.beforeTest = false) :
    Due phase after pc next := by
  refine of_uncalled before ?_
  cases pc with
  | calling handler => exact absurd (due.called handler rfl).1 (Option.some_ne_none _).symm
  | _ => rfl

/-- When the `ioContext` is stopped, nothing of the phase is left to be called. -/
theorem leavePhase (due : Due phase io pc other) (stopped : io.stopped = true) :
    Due none io pc next where
  tested _ _ := .inl stopped
  called handler at_ := by
    have going := (due.called handler at_).2.1
    exact absurd (going.symm.trans stopped) Bool.false_ne_true

/-- A step of the thread without a call. -/
theorem ioMoves {action : RunAction} (due : Due phase io pc other)
    (moves : IoMoves io other pc action after next)
    (dispatched : ∀ index, action = .dispatch index →
      ∀ handler ∈ io.pending[index]?, phase.map Phase.work = some handler.work)
    (tested : ∀ handler, pc = .checking handler → io.stopped = false →
      other.aboutToStop = false) : Due phase after next other := by
  cases moves with
  | dispatches _ found =>
      refine ⟨?_, nofun⟩
      rintro _ ⟨⟩
      exact .inr (dispatched _ rfl _ found)
  | passes handler going =>
      refine ⟨nofun, ?_⟩
      rintro _ ⟨⟩
      refine ⟨(due.tested handler rfl).resolve_left fun stopped => ?_, going,
        tested handler rfl going⟩
      exact absurd (going.symm.trans stopped) nofun
  | _ => exact of_uncalled rfl rfl

/-- A step of the other thread without a call. -/
theorem ioMoves_other {action : RunAction} (due : Due phase io other pc)
    (moves : IoMoves io other pc action after next) : Due phase after other next where
  tested handler at_ := (due.tested handler at_).imp moves.stopped id
  called handler at_ := by
    obtain ⟨own, going, calm⟩ := due.called handler at_
    refine ⟨own, ?_, moves.calm⟩
    have busy : io.outOfWork other = false := outOfWork_of_executing (by rw [at_]; rfl)
    rcases moves.stopped_cases with same | ⟨-, ⟨-, idle⟩ | ending⟩
    · exact same.trans going
    · exact absurd (idle.symm.trans busy) nofun
    · exact absurd (ending.symm.trans calm) nofun

end Due

section Step

variable {phase : Phase} {log : List CommandLog} {ctx after : Ctx UInt8} {pc other next : RunPc}
  {unarmed : Bool} {action : RunAction} {io : IoContext}

/-- The other steps inside `run()` call nothing. -/
theorem callsOf_of_ioMoves {io' : IoContext} (moves : IoMoves io other pc action io' next) :
    callsOf ctx pc action = [] := by
  cases moves <;> rfl

/-- A step without a call keeps what a phase keeps. -/
theorem PhaseAt.ioMoves (within : PhaseAt phase log ctx.io pc other unarmed)
    (moves : IoMoves ctx.io other pc action io next)
    (supplied : pc = .entering ∨ pc = .leaving → ctx.io.outOfWork other = true → unarmed = false) :
    PhaseAt phase log io next other unarmed := by
  rcases within with ⟨reached, working, armed⟩ | ⟨reached, finished⟩
  · refine .inl ⟨reached, moves.working working fun at_ => ?_, fun has =>
      moves.armed working (armed has)⟩
    by_contra idle
    rw [Bool.not_eq_false] at idle
    have none : pc.holdsHandler = false := by
      rcases at_ with rfl | rfl <;> rfl
    exact absurd (idle.symm.trans ((armed (supplied at_ idle)).outOfWork none)) nofun
  · exact .inr ⟨reached, moves.finished finished⟩

/-- A call is made before the work of the phase is done. -/
theorem PhaseAt.open_of_calling {handler : Handler}
    (within : PhaseAt phase log io (.calling handler) other unarmed)
    (due : Due (some phase) io (.calling handler) other) :
    phase.work = handler.work ∧ Reached log phase.start ∧ Working io (.calling handler) other := by
  obtain ⟨own, going, calm⟩ := due.called handler rfl
  refine ⟨Option.some.inj own, ?_⟩
  rcases within with ⟨reached, working, -⟩ | ⟨-, finished⟩
  · exact ⟨reached, working⟩
  · cases finished with
    | stopped stopped => exact absurd (stopped.symm.trans going) nofun
    | own _ ending => cases ending
    | others _ _ ending => exact absurd (ending.symm.trans calm) nofun

/-- **A call within its phase** leaves its work to be done or does it, or it fails and
the thread throws. -/
theorem PhaseAt.callMoves {handler : Handler} {answers : Answers}
    (within : PhaseAt phase log ctx.io (.calling handler) other unarmed) (named : Named log ctx)
    (due : Due (some phase) ctx.io (.calling handler) other)
    (once : handler.work = .DoExecute ∨ handler.work = .DoCloseChannel →
      answers.rc ≠ libssh2ErrorEagain)
    (moves : CallMoves ctx other handler answers after next) :
    after.client.commandStr = ctx.client.commandStr ∧
      ((after.io = ctx.io ∧
          (∃ st, next = .finishing handler st ∧
            (st = .WORK_DONE → answers.reply ctx.client.session handler.work = .done)) ∧
          PhaseAt phase (recordCalls log (handler.work.channelCalls ctx answers)) after.io next
            other unarmed) ∨
        (next = .threw ∧ ctx.io.stopped = false ∧ other.aboutToStop = false ∧
          answers.reply ctx.client.session handler.work = .error ∧
          Reached (recordCalls log (handler.work.channelCalls ctx answers)) .failed)) := by
  obtain ⟨own, reached, working⟩ := within.open_of_calling due
  obtain ⟨result, same, worked⟩ :=
    ClientImpl.doWork_reply answers ctx phase.work_ne_readListenChannel
  obtain ⟨call, made, follows⟩ := call_of_phase phase answers ctx (own ▸ once)
  rw [← own, made]
  rw [CallMoves, ← own] at moves
  have far := reached.record named follows
  cases replied : answers.reply ctx.client.session phase.work with
  | again =>
      rw [replied] at worked far
      rcases moves with ⟨st, ran, rfl⟩ | ⟨fault, thrown, ran, -⟩
      · cases worked.symm.trans ran
        have still : Armed ctx.io (.finishing handler .STILL_WORKING) other := .inr (.inl rfl)
        have calm : Working ctx.io (.finishing handler .STILL_WORKING) other :=
          ⟨working.going, rfl, working.calmOther⟩
        have sameIo : after.io = ctx.io := same.io
        exact ⟨same.commandStr, .inl ⟨same.io, ⟨_, rfl, nofun⟩,
          .inl ⟨far, sameIo ▸ calm, fun _ => sameIo ▸ still⟩⟩⟩
      · cases worked.symm.trans ran
  | done =>
      rw [replied] at worked far
      rcases moves with ⟨st, ran, rfl⟩ | ⟨fault, thrown, ran, -⟩
      · cases worked.symm.trans ran
        have ending : Finished ctx.io (.finishing handler .WORK_DONE) other :=
          .own working.going rfl working.calmOther
        have sameIo : after.io = ctx.io := same.io
        exact ⟨same.commandStr, .inl ⟨same.io, ⟨_, rfl, fun _ => rfl⟩,
          .inr ⟨far, sameIo ▸ ending⟩⟩⟩
      · cases worked.symm.trans ran
  | error =>
      rw [replied] at worked far
      obtain ⟨fault, failed⟩ := worked
      rcases moves with ⟨st, ran, -⟩ | ⟨fault, thrown, ran, rfl, rfl⟩
      · cases failed.symm.trans ran
      · cases failed.symm.trans ran
        exact ⟨same.commandStr, .inr ⟨rfl, working.going, working.calmOther, rfl, far⟩⟩

/-- **An orderly step inside `run()`, within a phase.** -/
theorem PhaseAt.runStep {main : MainPc} {thread : ThreadId}
    (within : PhaseAt phase log ctx.io pc other main.unarmed) (named : Named log ctx)
    (phaseOf : main.phase = some phase) (due : Due (some phase) ctx.io pc other)
    (dueOther : Due (some phase) ctx.io other pc) (guard : RunGuard main ctx thread other pc action)
    (ran : runStep ctx other pc action = some (after, next)) :
    after.client.commandStr = ctx.client.commandStr ∧
      ((next ≠ .threw ∧ (next = .returned → after.io.stopped = true) ∧
          (ctx.io.stopped = true → after.io.stopped = true) ∧
          PhaseAt phase (recordCalls log (callsOf ctx pc action)) after.io next other main.unarmed ∧
          Due (some phase) after.io next other ∧ Due (some phase) after.io other next) ∨
        (next = .threw ∧ ctx.io.stopped = false ∧ other.aboutToStop = false ∧
          (thread = .main → other.beforeTest = false ∧ other.pastTest = false) ∧
          Reached (recordCalls log (callsOf ctx pc action)) .failed)) := by
  rcases runStep_cases ran with ⟨io, moves, rfl⟩ | ⟨handler, answers, rfl, rfl, moves⟩
  · rw [callsOf_of_ioMoves moves, recordCalls_nil]
    refine ⟨rfl, .inl ⟨moves.not_threw, moves.stopped_of_returned, moves.stopped,
      within.ioMoves moves fun at_ => ?_, due.ioMoves moves ?_ ?_, dueOther.ioMoves_other moves⟩⟩
    · rcases at_ with rfl | rfl <;> cases moves <;> exact guard
    · rintro index rfl
      cases moves
      exact phaseOf ▸ guard
    · rintro handler rfl
      cases moves <;> exact guard
  · obtain ⟨same, outcome⟩ := within.callMoves named due guard.once moves
    refine ⟨same, outcome.imp ?_ ?_⟩
    · rintro ⟨sameIo, ⟨st, rfl, last⟩, still⟩
      refine ⟨nofun, nofun, fun stopped => sameIo ▸ stopped, still, .of_uncalled rfl rfl, ?_⟩
      cases st with
      | STILL_WORKING => exact dueOther.mono (congrArg IoContext.stopped sameIo) rfl
      | WORK_DONE =>
          -- the other thread is not past its test
          refine ⟨fun handler at_ => sameIo ▸ dueOther.tested handler at_, fun handler at_ => ?_⟩
          have past := guard.last (last rfl)
          rw [at_] at past
          cases past
    · rintro ⟨threw, going, calm, failed, reached⟩
      exact ⟨threw, going, calm, fun owner => guard.alone owner failed, reached⟩

/-- A step inside `run()` while no phase is on: nothing is called. -/
theorem runStep_outside {main : MainPc} {thread : ThreadId} (outside : main.phase = none)
    (due : Due none ctx.io pc other) (guard : RunGuard main ctx thread other pc action)
    (ran : runStep ctx other pc action = some (after, next)) :
    after.client.commandStr = ctx.client.commandStr ∧ next ≠ .threw ∧ next.aboutToStop = false ∧
      callsOf ctx pc action = [] ∧ Due none after.io next other := by
  rcases runStep_cases ran with ⟨io, moves, rfl⟩ | ⟨handler, answers, rfl, rfl, -⟩
  · refine ⟨rfl, moves.not_threw, moves.calm, callsOf_of_ioMoves moves, due.ioMoves moves ?_ ?_⟩
    · rintro index rfl
      cases moves
      exact outside ▸ guard
    · rintro handler rfl
      cases moves <;> exact guard
  · exact absurd (due.called handler rfl).1 (Option.some_ne_none _).symm

end Step

/-! ## What every run keeps -/

namespace ClientThreads

/-- In a phase, what a phase keeps. Outside of one, the command is as far as it can be
there, and no thread is about to stop the `ioContext`. -/
structure Stage (s : ClientThreads) : Prop where
  within : ∀ phase, s.main.phase = some phase →
    PhaseAt phase s.log s.ctx.io s.main.runPc s.threadIo s.main.unarmed
  returned : ∀ phase, s.main = .running phase .returned → s.ctx.io.stopped = true
  outside : s.main.phase = none →
    (∀ entry ∈ s.log.head?, s.main.Admits entry) ∧ s.threadIo.aboutToStop = false
  due : Due s.main.phase s.ctx.io s.main.runPc s.threadIo
  dueIo : Due s.main.phase s.ctx.io s.threadIo s.main.runPc

/-- What an orderly run keeps. -/
structure Inv (s : ClientThreads) : Prop where
  apart : PhasesApart s
  named : Named s.log s.ctx
  stage : s.terminated = false → s.Stage

end ClientThreads

/-- When `run()` has returned, the work of the phase is done. -/
theorem PhaseAt.done {phase : Phase} {log : List CommandLog} {io : IoContext} {pc other : RunPc}
    {unarmed : Bool} (within : PhaseAt phase log io pc other unarmed)
    (stopped : io.stopped = true) :
    Reached log phase.done ∧ other.aboutToStop = false := by
  rcases within with ⟨-, working, -⟩ | ⟨reached, finished⟩
  · exact absurd (working.going.symm.trans stopped) nofun
  · cases finished with
    | stopped _ _ calmOther => exact ⟨reached, calmOther⟩
    | own going => exact absurd (going.symm.trans stopped) nofun
    | others going => exact absurd (going.symm.trans stopped) nofun

theorem PhaseAt.reached {phase : Phase} {log : List CommandLog} {io : IoContext} {pc other : RunPc}
    {unarmed : Bool} (within : PhaseAt phase log io pc other unarmed) :
    Reached log phase.start ∨ Reached log phase.done :=
  within.imp And.left And.left

namespace ClientThreads

variable {s t : ClientThreads}

/-- A phase admits its start and its end, and a failure while it goes on. -/
theorem admits_of_phase {main : MainPc} {phase : Phase} {entry : CommandLog}
    (own : main.phase = some phase) (going : main ≠ .running phase .returned)
    (far : entry.progress = some phase.start ∨ entry.progress = some phase.done ∨
      entry.progress = some .failed) : main.Admits entry := by
  cases main with
  | idle => cases own
  | resetting phase => cases own
  | cleaning => cases own
  | armingRead phase =>
      cases own
      exact far
  | armingWrite phase =>
      cases own
      exact far
  | running phase pc =>
      cases own
      cases pc with
      | returned => exact absurd rfl going
      | entering => exact far
      | waiting => exact far
      | checking handler => exact far
      | calling handler => exact far
      | finishing handler st => exact far
      | leaving => exact far
      | threw => exact far

/-- Where the command is admits how far it is. -/
theorem Stage.admits (stage : s.Stage) : ∀ entry ∈ s.log.head?, s.main.Admits entry := by
  intro entry current
  cases own : s.main.phase with
  | none => exact (stage.outside own).1 entry current
  | some phase =>
      have within := stage.within phase own
      by_cases returned : s.main = .running phase .returned
      · rw [returned]
        exact (within.done (stage.returned phase returned)).1 entry current
      · exact admits_of_phase own returned (within.reached.imp (· entry current)
          fun reached => .inl (reached entry current))

/-- What a thread calls is due. -/
theorem Stage.dueAt (stage : s.Stage) (thread : ThreadId) :
    Due s.main.phase s.ctx.io (s.runPc thread) (s.otherPc thread) := by
  cases thread with
  | main => exact stage.due
  | threadIo => exact stage.dueIo

/-- Within a phase, as either thread sees it. -/
theorem Stage.withinAt (stage : s.Stage) {phase : Phase} (own : s.main.phase = some phase)
    (thread : ThreadId) :
    PhaseAt phase s.log s.ctx.io (s.runPc thread) (s.otherPc thread) s.main.unarmed := by
  cases thread with
  | main => exact stage.within phase own
  | threadIo => exact (stage.within phase own).symm

/-- **A `DoWork` function is called in its own phase**, and before its work is done. -/
theorem Stage.own (stage : s.Stage) (thread : ThreadId) (handler : Handler)
    (calling : s.runPc thread = .calling handler) :
    ∃ phase, s.main.phase = some phase ∧ phase.work = handler.work ∧
      ∀ entry ∈ s.log.head?, entry.progress = some phase.start := by
  have due := stage.dueAt thread
  obtain ⟨phase, own, -⟩ := Option.map_eq_some_iff.mp (due.called handler calling).1
  have within := stage.withinAt own thread
  rw [calling] at due within
  rw [own] at due
  obtain ⟨work, reached, -⟩ := within.open_of_calling due
  exact ⟨phase, own, work, reached⟩

/-- A command is over before the next one begins. -/
theorem Inv.of_stage (earlier : ∀ entry ∈ s.log.tail, entry.Over) (named : Named s.log s.ctx)
    (stage : s.Stage) : s.Inv :=
  ⟨⟨earlier, stage.admits, fun _ => stage.own⟩, named, fun _ => stage⟩

/-- Outside of a phase the thread in `command` takes no part in `run()`. -/
theorem runPc_of_outside {main : MainPc} (none : main.phase = none) : main.runPc = .returned := by
  cases main <;> first | rfl | cases none

/-- Outside of a phase. -/
theorem Stage.of_outside (none : s.main.phase = none)
    (admits : ∀ entry ∈ s.log.head?, s.main.Admits entry)
    (calm : s.threadIo.aboutToStop = false) (dueIo : Due .none s.ctx.io s.threadIo .returned) :
    s.Stage where
  within phase own := by
    rw [none] at own
    cases own
  returned phase at_ := by
    rw [at_] at none
    cases none
  outside _ := ⟨admits, calm⟩
  due := by
    rw [runPc_of_outside none]
    exact .of_uncalled rfl rfl
  dueIo := by
    rw [none, runPc_of_outside none]
    exact dueIo

/-- Within a phase. -/
theorem Stage.of_within {phase : Phase} (own : s.main.phase = some phase)
    (within : PhaseAt phase s.log s.ctx.io s.main.runPc s.threadIo s.main.unarmed)
    (returned : s.main = .running phase .returned → s.ctx.io.stopped = true)
    (due : Due (some phase) s.ctx.io s.main.runPc s.threadIo)
    (dueIo : Due (some phase) s.ctx.io s.threadIo s.main.runPc) : s.Stage where
  within other same := Option.some.inj (own.symm.trans same) ▸ within
  returned other at_ := by
    rw [at_] at own
    cases own
    exact returned at_
  outside none := by
    rw [own] at none
    cases none
  due := own ▸ due
  dueIo := own ▸ dueIo

theorem Inv.earlier_record (inv : s.Inv) (calls : List ChannelCall) :
    ∀ entry ∈ (recordCalls s.log calls).tail, entry.Over := by
  rw [tail_recordCalls]
  exact inv.apart.earlier

/-- Between two phases. -/
theorem Inv.afterPhase (inv : s.Inv) {phase : Phase} {ctx : Ctx UInt8}
    (same : ctx.client.commandStr = s.ctx.client.commandStr) (done : Reached s.log phase.done)
    (calm : s.threadIo.aboutToStop = false) (dueIo : Due none ctx.io s.threadIo .returned) :
    Inv { s with ctx := ctx, main := .afterPhase phase } := by
  have named : Named s.log ctx := fun entry current => (inv.named entry current).trans same.symm
  refine .of_stage inv.apart.earlier named ?_
  cases phase <;> exact .of_outside rfl done calm dueIo

/-- A step of the thread in `command`. -/
theorem Inv.mainStep (inv : s.Inv) (alive : s.terminated = false) {action : RunAction}
    (orderly : s.Orderly (.run .main action)) (stepped : s.mainStep action = some t) : t.Inv := by
  have stage := inv.stage alive
  have earlier := inv.earlier_record
  have dueIo := stage.dueIo
  have guard : RunGuard s.main s.ctx .main s.threadIo s.main.runPc action := orderly.2
  unfold ClientThreads.mainStep at stepped
  split at stepped
  next phase at_ =>
      obtain ⟨start, calm⟩ := stage.outside (by rw [at_]; rfl)
      have before : s.threadIo.beforeTest = false := orderly.1 rfl (by rw [at_]; rfl)
      rw [at_] at start dueIo
      cases stepped
      exact .of_stage inv.apart.earlier inv.named
        (.of_within rfl (.inl ⟨start, ⟨rfl, rfl, calm⟩, nofun⟩) nofun (.of_uncalled rfl rfl)
          (dueIo.enterPhase before))
  next phase at_ =>
      have within := stage.within phase (by rw [at_]; rfl)
      rw [at_] at within dueIo
      cases stepped
      exact .of_stage inv.apart.earlier inv.named
        (.of_within rfl (within.arm _) nofun (.of_uncalled rfl rfl) (dueIo.mono rfl rfl))
  next phase at_ =>
      have within := stage.within phase (by rw [at_]; rfl)
      rw [at_] at within dueIo
      cases stepped
      exact .of_stage inv.apart.earlier inv.named
        (.of_within rfl (within.arm _).enter nofun (.of_uncalled rfl rfl) (dueIo.mono rfl rfl))
  next at_ =>
      have within := stage.within .execute (by rw [at_]; rfl)
      have stopped := stage.returned .execute at_
      obtain ⟨done, calm⟩ := within.done stopped
      cases stepped
      exact inv.afterPhase rfl done calm (dueIo.leavePhase stopped)
  next phase _ at_ =>
      have within := stage.within phase (by rw [at_]; rfl)
      have stopped := stage.returned phase at_
      obtain ⟨done, calm⟩ := within.done stopped
      cases stepped
      exact inv.afterPhase rfl done calm (dueIo.leavePhase stopped)
  next phase pc at_ _ _ =>
      have within := stage.within phase (by rw [at_]; rfl)
      have due := stage.due
      have own : s.main.phase = some phase := congrArg MainPc.phase at_
      have here : s.main.runPc = pc := congrArg MainPc.runPc at_
      rw [here] at within due dueIo guard
      rw [own] at due dueIo
      obtain ⟨⟨after, next⟩, ran, made⟩ := Option.map_eq_some_iff.mp stepped
      cases made
      obtain ⟨same, ⟨goes, returned, -, within, due, dueIo⟩ | ⟨rfl, -, calm, alone, failed⟩⟩ :=
        within.runStep inv.named own due dueIo guard ran
      · have unarmed : s.main.unarmed = false := congrArg MainPc.unarmed at_
        rw [unarmed] at within
        rw [mainAt, if_neg goes]
        refine .of_stage (earlier _) (inv.named.record same _)
          (.of_within rfl within ?_ due dueIo)
        exact fun at_ => returned (congrArg MainPc.runPc at_)
      · obtain ⟨before, past⟩ := alone rfl
        rw [mainAt, if_pos rfl]
        refine .of_stage (earlier _) (inv.named.record same _)
          (.of_outside rfl ?_ calm (.of_uncalled before past))
        exact fun entry current => .inr (failed entry current)
  next answers at_ =>
      obtain ⟨closed, calm⟩ := stage.outside (by rw [at_]; rfl)
      rw [at_] at closed dueIo
      cases stepped
      have freed : Reached (recordCalls s.log [.free]) .freed :=
        Reached.record closed inv.named rfl
      refine .of_stage (earlier _) (inv.named.record rfl _)
        (.of_outside rfl ?_ calm (dueIo.mono rfl rfl))
      exact fun entry current => .inl (freed entry current)
  next => cases stepped

/-- A step of `threadIo`. -/
theorem Inv.threadIoStep (inv : s.Inv) (alive : s.terminated = false) {action : RunAction}
    (orderly : s.Orderly (.run .threadIo action)) (stepped : s.threadIoStep action = some t) :
    t.Inv := by
  obtain ⟨⟨after, next⟩, ran, made⟩ := Option.map_eq_some_iff.mp stepped
  cases made
  have stage := inv.stage alive
  have earlier := inv.earlier_record (callsOf s.ctx s.threadIo action)
  have guard : RunGuard s.main s.ctx .threadIo s.main.runPc s.threadIo action := orderly.2
  have due := stage.dueIo
  have dueMain := stage.due
  cases own : s.main.phase with
  | none =>
      obtain ⟨admits, -⟩ := stage.outside own
      rw [own] at due
      obtain ⟨same, -, calm, none, due⟩ := runStep_outside own due guard ran
      rw [none, recordCalls_nil] at earlier ⊢
      have named : Named s.log after := fun entry current =>
        (inv.named entry current).trans same.symm
      rw [runPc_of_outside own] at due
      exact .of_stage earlier named (.of_outside own admits calm due)
  | some phase =>
      rw [own] at due dueMain
      obtain ⟨same, ⟨goes, -, stays, within, due, dueMain⟩ | ⟨rfl, going, -, -, failed⟩⟩ :=
        (stage.within phase own).symm.runStep inv.named own due dueMain guard ran
      · refine .of_stage earlier (inv.named.record same _)
          (.of_within own within.symm ?_ dueMain due)
        exact fun at_ => stays (stage.returned phase at_)
      · -- the process is terminated
        refine ⟨⟨earlier, fun entry current => ?_, nofun⟩, inv.named.record same _, nofun⟩
        refine admits_of_phase own (fun at_ => ?_) (.inr (.inr (failed entry current)))
        exact absurd (going.symm.trans (stage.returned phase at_)) nofun

/-- **An orderly step keeps the phases apart.** -/
theorem Inv.step (inv : s.Inv) {action : CommandAction} (orderly : s.Orderly action)
    (stepped : s.step action = some t) : t.Inv := by
  unfold ClientThreads.step at stepped
  split at stepped
  next => cases stepped
  next alive =>
      rw [Bool.not_eq_true] at alive
      cases action with
      | command commandStr =>
          simp only at stepped
          split at stepped
          next idle =>
              cases stepped
              have stage := inv.stage alive
              have dueIo := stage.dueIo
              obtain ⟨ended, calm⟩ := stage.outside (by rw [idle]; rfl)
              rw [idle] at ended dueIo
              have earlier : ∀ entry ∈ s.log, entry.Over := by
                intro entry member
                cases log : s.log with
                | nil =>
                    rw [log] at member
                    cases member
                | cons current rest =>
                    rw [log] at member
                    rcases List.mem_cons.mp member with rfl | old
                    · exact ended entry (by rw [log]; rfl)
                    · exact inv.apart.earlier entry (by rw [log]; exact old)
              refine .of_stage earlier ?_ (.of_outside rfl ?_ calm (dueIo.mono rfl rfl))
              · rintro _ ⟨⟩
                rfl
              · rintro _ ⟨⟩
                rfl
          next => cases stepped
      | run thread action =>
          cases thread with
          | main => exact inv.mainStep alive orderly stepped
          | threadIo => exact inv.threadIoStep alive orderly stepped

end ClientThreads

/-- A client with a session, in blocking mode as `connect` leaves it. -/
def connectedCtx : Ctx UInt8 where
  lib := { sessions := [⟨true, 0⟩] }
  client := { session := some 0, sockOpen := true, threadIo := some ⟨true⟩ }

end BookFilerSsh
