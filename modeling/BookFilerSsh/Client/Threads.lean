import BookFilerSsh.Client.EventLoop
import BookFilerSsh.Lib.Machine

/-!
# The two threads of a client

`ClientImpl::command` in the owner's thread, and the thread `threadIo` that `connect`
started, which runs the same `ioContext`. A step is one statement of a thread: a test
of the run loop, the dispatch of a pending handler, the `stopped()` test of
`LoopAsync`, the call of the `DoWork` function, arming again, stopping. So an
interleaving is any list of steps, over any number of commands, with any answers of
libssh2.

`run()` ends when the `ioContext` is stopped, and stops it when there is no outstanding
work: no pending handler and none that is executed (`IoContext.outOfWork`). The calls
of a command on the channel are logged. What the steps inside `run()` can do is said
once, by `IoMoves` and `runStep_cases`.
-/

set_option autoImplicit false

namespace BookFilerSsh

/-! ## Running the context in a thread -/

/-- A position of a thread inside `ioContext.run()`. -/
inductive RunPc where
  | entering
  | waiting
  /-- `if (ioContext.stopped())` in `LoopAsync` -/
  | checking (handler : Handler)
  /-- `state st = DoWork();` -/
  | calling (handler : Handler)
  /-- What `LoopAsync` does with the result. -/
  | finishing (handler : Handler) (st : WorkState)
  /-- The handler returned, and the `ioContext` counts its work finished. -/
  | leaving
  | returned
  | threw
  deriving DecidableEq, Repr

namespace RunPc

/-- The thread executes a handler, which counts as outstanding work. -/
def executing : RunPc → Bool
  | .checking _ | .calling _ | .finishing _ _ | .leaving => true
  | _ => false

/-- The handler of the thread may still arm itself again. -/
def holdsHandler : RunPc → Bool
  | .checking _ | .calling _ | .finishing _ _ => true
  | _ => false

/-- The work of the handler is done, and the `ioContext` not stopped yet. -/
def aboutToStop : RunPc → Bool
  | .finishing _ .WORK_DONE => true
  | _ => false

end RunPc

/-- A step of a thread: its next statement, a dispatch, or a call with its answers. -/
inductive RunAction where
  | next
  | dispatch (index : ℕ)
  | call (answers : Answers)

namespace IoContext

/-- No handler is pending, and the other thread executes none. -/
def outOfWork (io : IoContext) (other : RunPc) : Bool :=
  io.pending.isEmpty && !other.executing

/-- The work of a handler is finished: without outstanding work the `ioContext` is
stopped. -/
def workFinished (io : IoContext) (other : RunPc) : IoContext :=
  if io.outOfWork other then io.stop else io

end IoContext

namespace Ctx

/-- A change of the `ioContext` of the client. -/
def onIo (ctx : Ctx UInt8) (f : IoContext → IoContext) : Ctx UInt8 :=
  ctx.assign fun client => client.onIo f

/-- `ioContext` -/
def io (ctx : Ctx UInt8) : IoContext := ctx.client.ioContext

end Ctx

/-- A step inside `ioContext.run()`. -/
def runStep (ctx : Ctx UInt8) (other : RunPc) : RunPc → RunAction → Option (Ctx UInt8 × RunPc)
  | .entering, .next =>
      if ctx.io.outOfWork other then some (ctx.onIo .stop, .returned)
      else some (ctx, if ctx.io.stopped then .returned else .waiting)
  | .waiting, .next => if ctx.io.stopped then some (ctx, .returned) else none
  | .waiting, .dispatch index =>
      if ctx.io.stopped then none
      else ctx.io.pending[index]?.map fun handler =>
        (ctx.onIo fun io => io.take index, .checking handler)
  | .checking handler, .next =>
      some (ctx, if ctx.io.stopped then .leaving else .calling handler)
  | .calling handler, .call answers =>
      match ClientImpl.doWork handler.work answers ctx with
      | .ok st after => some (after, .finishing handler st)
      | .error _ after => some (after.onIo fun io => io.workFinished other, .threw)
  | .finishing handler .STILL_WORKING, .next => some (ctx.onIo fun io => io.arm handler, .leaving)
  | .finishing _ .WORK_DONE, .next => some (ctx.onIo .stop, .leaving)
  | .leaving, .next => some (ctx.onIo fun io => io.workFinished other, .waiting)
  | _, _ => none

/-! ## What a step inside `run()` does -/

/-- The steps that make no call, as changes of the `ioContext`. -/
inductive IoMoves (io : IoContext) (other : RunPc) :
    RunPc → RunAction → IoContext → RunPc → Prop
  | starves (idle : io.outOfWork other = true) : IoMoves io other .entering .next io.stop .returned
  | comesLate (stopped : io.stopped = true) : IoMoves io other .entering .next io .returned
  | enters (going : io.stopped = false) : IoMoves io other .entering .next io .waiting
  | returns (stopped : io.stopped = true) : IoMoves io other .waiting .next io .returned
  | dispatches (going : io.stopped = false) {index : ℕ} {handler : Handler}
      (found : io.pending[index]? = some handler) :
      IoMoves io other .waiting (.dispatch index) (io.take index) (.checking handler)
  | skips (handler : Handler) (stopped : io.stopped = true) :
      IoMoves io other (.checking handler) .next io .leaving
  | passes (handler : Handler) (going : io.stopped = false) :
      IoMoves io other (.checking handler) .next io (.calling handler)
  | rearms (handler : Handler) :
      IoMoves io other (.finishing handler .STILL_WORKING) .next (io.arm handler) .leaving
  | stops (handler : Handler) :
      IoMoves io other (.finishing handler .WORK_DONE) .next io.stop .leaving
  | leaves : IoMoves io other .leaving .next (io.workFinished other) .waiting

/-- What the call of a `DoWork` function does. -/
def CallMoves (ctx : Ctx UInt8) (other : RunPc) (handler : Handler) (answers : Answers)
    (after : Ctx UInt8) (next : RunPc) : Prop :=
  (∃ st, ClientImpl.doWork handler.work answers ctx = .ok st after ∧ next = .finishing handler st) ∨
    ∃ fault thrown, ClientImpl.doWork handler.work answers ctx = .error fault thrown ∧
      after = (thrown.onIo fun io => io.workFinished other) ∧ next = .threw

/-- **A step inside `run()`** changes the `ioContext` only, or is a call. -/
theorem runStep_cases {ctx after : Ctx UInt8} {other pc next : RunPc} {action : RunAction}
    (ran : runStep ctx other pc action = some (after, next)) :
    (∃ io, IoMoves ctx.io other pc action io next ∧ after = (ctx.onIo fun _ => io)) ∨
      ∃ handler answers, pc = .calling handler ∧ action = .call answers ∧
        CallMoves ctx other handler answers after next := by
  unfold runStep at ran
  split at ran
  next =>
      split at ran
      next idle =>
          cases ran
          exact .inl ⟨_, .starves idle, rfl⟩
      next =>
          cases stopped : ctx.io.stopped with
          | true =>
              rw [stopped] at ran
              cases ran
              exact .inl ⟨_, .comesLate stopped, rfl⟩
          | false =>
              rw [stopped] at ran
              cases ran
              exact .inl ⟨_, .enters stopped, rfl⟩
  next =>
      split at ran
      next stopped =>
          cases ran
          exact .inl ⟨_, .returns stopped, rfl⟩
      next => cases ran
  next index =>
      split at ran
      next => cases ran
      next going =>
          obtain ⟨handler, found, made⟩ := Option.map_eq_some_iff.mp ran
          cases made
          exact .inl ⟨_, .dispatches (by simpa using going) found, rfl⟩
  next handler =>
      cases stopped : ctx.io.stopped with
      | true =>
          rw [stopped] at ran
          cases ran
          exact .inl ⟨_, .skips handler stopped, rfl⟩
      | false =>
          rw [stopped] at ran
          cases ran
          exact .inl ⟨_, .passes handler stopped, rfl⟩
  next handler answers =>
      refine .inr ⟨handler, answers, rfl, rfl, ?_⟩
      split at ran
      next st thrown worked =>
          cases ran
          exact .inl ⟨st, worked, rfl⟩
      next fault thrown failed =>
          cases ran
          exact .inr ⟨fault, thrown, failed, rfl, rfl⟩
  next handler =>
      cases ran
      exact .inl ⟨_, .rearms handler, rfl⟩
  next handler =>
      cases ran
      exact .inl ⟨_, .stops handler, rfl⟩
  next =>
      cases ran
      exact .inl ⟨_, .leaves, rfl⟩
  next => cases ran

/-! ## Commands -/

/-- The four phases of `ClientImpl::command`. -/
inductive Phase where
  | create
  | execute
  | reads
  | close
  deriving DecidableEq, Repr

namespace Phase

/-- The function its handlers are bound to. -/
def work : Phase → Work
  | .create => .DoCreateChannel
  | .execute => .DoExecute
  | .reads => .readCommandChannel
  | .close => .DoCloseChannel

/-- The phase that follows. -/
def following : Phase → Option Phase
  | .create => some .execute
  | .execute => some .reads
  | .reads => some .close
  | .close => none

end Phase

/-- A position of the thread that calls `command`. -/
inductive MainPc where
  | idle
  /-- `ioContext.reset();` -/
  | resetting (phase : Phase)
  /-- `sockPtr->async_read_some(..)` -/
  | armingRead (phase : Phase)
  /-- `sockPtr->async_write_some(..)` -/
  | armingWrite (phase : Phase)
  /-- `ioContext.run();` -/
  | running (phase : Phase) (pc : RunPc)
  /-- `Cleanup();` -/
  | cleaning
  deriving DecidableEq, Repr

namespace MainPc

/-- The phase whose handlers may run. -/
def phase : MainPc → Option Phase
  | .armingRead phase | .armingWrite phase | .running phase _ => some phase
  | _ => none

/-- The phase was reset, and none of its handlers is armed. -/
def unarmed : MainPc → Bool
  | .armingRead _ => true
  | _ => false

/-- The position inside `run()`; outside, the thread takes no part in it. -/
def runPc : MainPc → RunPc
  | .running _ pc => pc
  | _ => .returned

/-- After `run()` returned in a phase. -/
def afterPhase (phase : Phase) : MainPc :=
  match phase.following with
  | some next => .resetting next
  | none => .cleaning

end MainPc

/-! ## Calls on the channel -/

/-- A call of libssh2 that a command makes on its channel, with its result. -/
inductive ChannelCall where
  | openSession (opened : Bool) (lastError : Int)
  | exec (commandStr : List UInt8) (rc : Int)
  | read (rc : Int)
  | close (rc : Int)
  | free
  deriving DecidableEq, Repr

/-- The C string a `std::string` is passed as. -/
def cString (str : List UInt8) : List UInt8 := str.takeWhile (· ≠ 0)

/-- The calls a `DoWork` function makes on the channel. -/
def Work.channelCalls (ctx : Ctx UInt8) (answers : Answers) : Work → List ChannelCall
  | .DoCreateChannel =>
      [.openSession (ctx.openCommandChannel answers.opened).client.commandChannel.isSome answers.rc]
  | .DoExecute => [.exec (cString ctx.client.commandStr) answers.rc]
  | .readCommandChannel => [.read answers.read.rc]
  | .DoCloseChannel => [.close answers.rc]
  | .readListenChannel => []

/-- A command and the calls made for it. -/
structure CommandLog where
  commandStr : List UInt8
  calls : List ChannelCall := []
  deriving DecidableEq, Repr

/-- More calls. -/
def CommandLog.record (entry : CommandLog) (calls : List ChannelCall) : CommandLog :=
  { entry with calls := entry.calls ++ calls }

/-- Log calls for the current command. -/
def recordCalls (log : List CommandLog) (calls : List ChannelCall) : List CommandLog :=
  log.modifyHead fun entry => entry.record calls

/-- The calls on the channel that an action inside `run()` makes. -/
def callsOf (ctx : Ctx UInt8) : RunPc → RunAction → List ChannelCall
  | .calling handler, .call answers => handler.work.channelCalls ctx answers
  | _, _ => []

/-! ## The machine -/

/-- A client with its two threads. The log holds the commands, the current one first. -/
structure ClientThreads where
  ctx : Ctx UInt8
  main : MainPc := .idle
  threadIo : RunPc := .entering
  log : List CommandLog := []
  /-- An exception left `threadIo`. -/
  terminated : Bool := false
  deriving DecidableEq, Repr

inductive ThreadId where
  | main
  | threadIo
  deriving DecidableEq, Repr

/-- A call of `command`, or a step of a thread. -/
inductive CommandAction where
  | command (commandStr : List UInt8)
  | run (thread : ThreadId) (action : RunAction)

namespace ClientThreads

def runPc (s : ClientThreads) : ThreadId → RunPc
  | .main => s.main.runPc
  | .threadIo => s.threadIo

/-- The position of the other thread. -/
def otherPc (s : ClientThreads) : ThreadId → RunPc
  | .main => s.threadIo
  | .threadIo => s.main.runPc

/-- Where the caller of `command` is when `run()` is at `pc`: an exception leaves it. -/
def mainAt (phase : Phase) (pc : RunPc) : MainPc :=
  if pc = .threw then .idle else .running phase pc

/-- A step of the thread in `command`. -/
def mainStep (s : ClientThreads) (action : RunAction) : Option ClientThreads :=
  match s.main, action with
  | .resetting phase, .next =>
      some { s with ctx := s.ctx.onIo .reset, main := .armingRead phase }
  | .armingRead phase, .next =>
      some { s with
        ctx := s.ctx.onIo fun io => io.arm ⟨phase.work, true⟩
        main := .armingWrite phase }
  | .armingWrite phase, .next =>
      some { s with
        ctx := s.ctx.onIo fun io => io.arm ⟨phase.work, false⟩
        main := .running phase .entering }
  | .running .execute .returned, .next =>
      some { s with
        ctx := s.ctx.assign fun client => { client with commandChannelReadStr := [] }
        main := .afterPhase .execute }
  | .running phase .returned, .next => some { s with main := .afterPhase phase }
  | .running phase pc, inside =>
      (runStep s.ctx s.threadIo pc inside).map fun result =>
        { s with
          ctx := result.1
          main := mainAt phase result.2
          log := recordCalls s.log (callsOf s.ctx pc inside) }
  | .cleaning, .call answers =>
      some { s with
        ctx := Lib.Effects.finalState
          (ClientImpl.cleanup (decide (answers.rc = libssh2ErrorEagain)) s.ctx)
        main := .idle
        log := recordCalls s.log [.free] }
  | _, _ => none

/-- A step of `runIoContext`. -/
def threadIoStep (s : ClientThreads) (action : RunAction) : Option ClientThreads :=
  (runStep s.ctx s.main.runPc s.threadIo action).map fun result =>
    { s with
      ctx := result.1
      threadIo := result.2
      log := recordCalls s.log (callsOf s.ctx s.threadIo action)
      terminated := decide (result.2 = .threw) }

/-- A step of the machine. -/
def step (s : ClientThreads) (action : CommandAction) : Option ClientThreads :=
  if s.terminated then none
  else
    match action with
    | .command commandStr =>
        if s.main = .idle then
          some { s with
            ctx := s.ctx.assign fun client => { client with commandStr := commandStr }
            main := .resetting .create
            log := ⟨commandStr, []⟩ :: s.log }
        else none
    | .run .main action => s.mainStep action
    | .run .threadIo action => s.threadIoStep action

end ClientThreads

/-- A client after `connect`, and the commands run on it. -/
def commandMachine (ctx : Ctx UInt8) : Lib.Machine ClientThreads CommandAction where
  init := { ctx := ctx }
  step := ClientThreads.step

end BookFilerSsh
