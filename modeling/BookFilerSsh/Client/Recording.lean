import BookFilerSsh.Client.EventLoop
import BookFilerSsh.Lib.Streams
import Mathlib.Data.List.TakeWhile

/-!
# What the read phases record

The read phase of `command` and the one of `forwarding` run a read function on every
dispatched handler, until it reads the end of the channel. Both collect what they
read in a string of the client. Here the channel has an `Output`, some chunks with
`EAGAIN` anywhere between them, and then its end. In the read phase of `command` only
its own handlers are dispatched, in any order (`Delivers`). In `forwarding` any pending
handler is, also one that an earlier `command` left over (`ReadsInOrder`).

`readCommandChannel` says that its work is done when it has read one chunk, so its
phase records the first chunk (`phase_readCommandChannel`). `readListenChannel` goes
on to the end of the channel, whichever handler calls it, and appends of every chunk
what stands before its first zero byte. A handler that is left over ends the phase when
its own work is done, and what the channel has then still to return is not read
(`run_forwarded`).
-/

set_option autoImplicit false

namespace BookFilerSsh

open Lib.Effects

/-! ## What a channel delivers -/

/-- `libssh2_channel_read` at the end of the channel. -/
def endOfChannel : ReadResult UInt8 := .code 0 ReadResult.zero_notPositive

namespace ReadResult

/-- Some bytes. -/
def isChunk : ReadResult UInt8 → Bool
  | .chunk .. => true
  | .code .. => false

/-- Some bytes, or the answer that there are none yet. -/
def IsOutput : ReadResult UInt8 → Prop
  | .chunk .. => True
  | .code rc _ => rc = libssh2ErrorEagain

theorem bytes_eq_nil_iff (result : ReadResult UInt8) :
    result.bytes = [] ↔ result.isChunk = false := by
  cases result with
  | chunk bytes nonempty fits => exact iff_of_false nonempty Bool.true_eq_false.mp
  | code rc notPositive => exact iff_of_true rfl rfl

end ReadResult

/-- What a channel returns before its end. -/
structure Output where
  results : List (ReadResult UInt8)
  isOutput : ∀ result ∈ results, result.IsOutput

namespace Output

/-- The bytes of all chunks. -/
def bytes (output : Output) : List UInt8 := output.results.flatMap ReadResult.bytes

/-- The chunks. -/
def chunks (output : Output) : List (ReadResult UInt8) := output.results.filter ReadResult.isChunk

end Output

/-- Each event dispatches a handler of this work. While the work goes on the handler
waits again. -/
def Fires (work : Work) : List Handler → List Event → Prop
  | _, [] => True
  | pending, event :: events =>
      ∃ handler, pending[event.index]? = some handler ∧ handler.work = work ∧
        Fires work (pending.eraseIdx event.index ++ [handler]) events

/-- The events of a phase: its own handlers fire, in any order, and read the output
up to the end of the channel. -/
structure Delivers (work : Work) (pending : List Handler) (output : Output)
    (events : List Event) : Prop where
  reads : events.map (fun event => event.answers.read) = output.results ++ [endOfChannel]
  fires : Fires work (pending ++ [⟨work, true⟩, ⟨work, false⟩]) events

/-- The handlers of the phase fire in turn. -/
def inTurn (output : Output) : List Event :=
  (output.results ++ [endOfChannel]).map fun result => { index := 0, answers := { read := result } }

theorem fires_inTurn (work : Work) (results : List (ReadResult UInt8)) {first second : Handler}
    (own : first.work = work) (ownToo : second.work = work) :
    Fires work [first, second]
      (results.map fun result => { index := 0, answers := { read := result } }) := by
  induction results generalizing first second with
  | nil => trivial
  | cons result rest ih => exact ⟨first, rfl, own, ih ownToo own⟩

/-- Any output may be delivered. -/
theorem delivers_inTurn (work : Work) (output : Output) :
    Delivers work [] output (inTurn output) := by
  refine ⟨?_, fires_inTurn work _ rfl rfl⟩
  rw [inTurn, List.map_map]
  exact List.map_id _

/-! ## One event -/

namespace ClientImpl

variable {event : Event} {events : List Event} {ctx after : Ctx UInt8} {handler : Handler}

/-- The client when both handlers of a phase are armed. -/
def begun (work : Work) (ctx : Ctx UInt8) : Ctx UInt8 :=
  ctx.assign fun client => client.onIo fun io => (io.reset.arm ⟨work, true⟩).arm ⟨work, false⟩

theorem phase_eq (work : Work) (events : List Event) (ctx : Ctx UInt8) :
    phase work events ctx = run events (begun work ctx) := rfl

theorem pending_begun (work : Work) (ctx : Ctx UInt8) :
    (begun work ctx).client.ioContext.pending =
      ctx.client.ioContext.pending ++ [⟨work, true⟩, ⟨work, false⟩] :=
  (List.append_cons ..).symm

/-- The client when the handler of an event is dispatched. -/
def taken (event : Event) (ctx : Ctx UInt8) : Ctx UInt8 :=
  ctx.assign fun client => client.onIo fun io => io.take event.index

/-- A context that is not stopped calls the handler. -/
theorem dispatch_going (going : ctx.client.ioContext.stopped = false)
    (found : ctx.client.ioContext.pending[event.index]? = some handler) :
    dispatch event ctx =
      (doWork handler.work event.answers >>= fun state =>
        if state = .STILL_WORKING then arm handler else stop) (taken event ctx) := by
  have untouched : ¬ (taken event ctx).client.ioContext.stopped = true := by
    simp [taken, Ctx.assign, onIo, IoContext.take, going]
  simp only [dispatch, run_bind, run_get, found, run_modify, loopAsync]
  rw [← taken, if_neg untouched]
  rfl

/-- The client when the handler of an event waits again. -/
def rearmed (handler : Handler) (ctx : Ctx UInt8) : Ctx UInt8 :=
  ctx.assign fun client => client.onIo fun io => io.arm handler

theorem run_cons (going : ctx.client.ioContext.stopped = false)
    (found : ctx.client.ioContext.pending[event.index]? = some handler) :
    run (event :: events) ctx = (dispatch event >>= fun _ => run events) ctx := by
  have some_pending : ctx.client.ioContext.pending ≠ [] := by
    intro none
    simp [none] at found
  simp only [run, runEnds, run_bind, run_get, going, some_pending, if_false, run_pure,
    Bool.false_eq_true]

/-- A call that leaves the `ioContext` alone leaves the handler as the last one pending. -/
theorem pending_rearmed (handler : Handler)
    (same : after.client.ioContext = (taken event ctx).client.ioContext) :
    (rearmed handler after).client.ioContext.pending =
      ctx.client.ioContext.pending.eraseIdx event.index ++ [handler] := by
  simp only [rearmed, Ctx.assign, onIo, IoContext.arm, same, taken, IoContext.take]

/-- The work is not done: the handler waits again, and the run goes on. -/
theorem run_still (going : ctx.client.ioContext.stopped = false)
    (found : ctx.client.ioContext.pending[event.index]? = some handler)
    (worked : doWork handler.work event.answers (taken event ctx) = .ok .STILL_WORKING after) :
    run (event :: events) ctx = run events (rearmed handler after) := by
  rw [run_cons going found, run_bind, dispatch_going going found, run_bind, worked]
  rfl

/-- The work is done: the context is stopped, and `run()` returns. -/
theorem run_done (going : ctx.client.ioContext.stopped = false)
    (found : ctx.client.ioContext.pending[event.index]? = some handler)
    (worked : doWork handler.work event.answers (taken event ctx) = .ok .WORK_DONE after) :
    run (event :: events) ctx =
      .ok () (after.assign fun client => client.onIo IoContext.stop) := by
  rw [run_cons going found, run_bind, dispatch_going going found, run_bind, worked]
  cases events <;> rfl

/-- The work fails: the exception leaves `run()`. -/
theorem run_failed {fault : Fault} (going : ctx.client.ioContext.stopped = false)
    (found : ctx.client.ioContext.pending[event.index]? = some handler)
    (worked : doWork handler.work event.answers (taken event ctx) = .error fault after) :
    run (event :: events) ctx = .error fault after := by
  rw [run_cons going found, run_bind, dispatch_going going found, run_bind, worked]

/-- No handler is pending at the index: nothing is dispatched. -/
theorem run_absent (going : ctx.client.ioContext.stopped = false)
    (armed : ctx.client.ioContext.pending ≠ [])
    (absent : ctx.client.ioContext.pending[event.index]? = none) :
    run (event :: events) ctx = run events ctx := by
  simp only [run, runEnds, dispatch, run_bind, run_get, going, armed, absent, if_false, run_pure,
    Bool.false_eq_true]

/-- With handlers pending and nothing to happen, `run()` waits. -/
theorem run_blocked (going : ctx.client.ioContext.stopped = false)
    (armed : ctx.client.ioContext.pending ≠ []) : run [] ctx = .error .blocked ctx := by
  simp only [run, runEnds, run_bind, run_get, going, armed, if_false, run_pure,
    Bool.false_eq_true, if_true, run_throw]

end ClientImpl

/-! ## command -/

/-- The bytes of the first chunk. -/
def firstChunk : List (ReadResult UInt8) → List UInt8
  | [] => []
  | result :: rest => if result.rc < 0 then firstChunk rest else result.bytes

namespace ClientImpl

/-- Every read of the phase starts afresh, and a chunk ends it. -/
theorem run_readCommandChannel (results : List (ReadResult UInt8)) {events : List Event}
    {ctx : Ctx UInt8} (going : ctx.client.ioContext.stopped = false)
    (reads : events.map (fun event => event.answers.read) = results ++ [endOfChannel])
    (fires : Fires .readCommandChannel ctx.client.ioContext.pending events) :
    ∃ after, run events ctx = .ok () after ∧
      after.client.commandChannelReadStr = firstChunk results ∧
        after.client.commandChannelReadLen = (firstChunk results).length := by
  induction results generalizing events ctx with
  | nil =>
      obtain ⟨event, rfl, read⟩ := List.map_eq_singleton_iff.mp reads
      obtain ⟨handler, found, work, -⟩ := fires
      have worked := doReadCommandChannel_run event.answers (taken event ctx)
      rw [read, if_neg (by decide)] at worked
      refine ⟨_, run_done going found (by rw [work]; exact worked), ?_, ?_⟩ <;> rfl
  | cons result rest ih =>
      obtain ⟨event, later, rfl, read, readsLater⟩ := List.map_eq_cons_iff.mp reads
      obtain ⟨handler, found, work, firesLater⟩ := fires
      have worked := doReadCommandChannel_run event.answers (taken event ctx)
      simp only [read] at worked
      by_cases negative : result.rc < 0
      · rw [if_pos negative] at worked
        rw [run_still going found (by rw [work]; exact worked), firstChunk, if_pos negative]
        exact ih going readsLater firesLater
      · rw [if_neg negative] at worked
        rw [firstChunk, if_neg negative]
        exact ⟨_, run_done going found (by rw [work]; exact worked), rfl, rfl⟩

end ClientImpl

/-- The first chunk is the whole output only when no chunk comes after it. -/
theorem flatMap_eq_firstChunk_iff {results : List (ReadResult UInt8)}
    (isOutput : ∀ result ∈ results, result.IsOutput) :
    results.flatMap ReadResult.bytes = firstChunk results ↔
      (results.filter ReadResult.isChunk).length ≤ 1 := by
  induction results with
  | nil => simp [firstChunk]
  | cons result rest ih =>
      have isOutputRest : ∀ result ∈ rest, result.IsOutput :=
        fun later member => isOutput later (List.mem_cons_of_mem _ member)
      cases result with
      | code rc notPositive =>
          have again : rc = libssh2ErrorEagain := isOutput _ (List.mem_cons_self ..)
          have negative : (ReadResult.code rc notPositive : ReadResult UInt8).rc < 0 := by
            rw [ReadResult.rc, again]
            decide
          rw [firstChunk, if_pos negative]
          exact ih isOutputRest
      | chunk bytes nonempty fits =>
          have positive : ¬ (ReadResult.chunk bytes nonempty fits : ReadResult UInt8).rc < 0 := by
            simp only [ReadResult.rc]
            omega
          rw [firstChunk, if_neg positive, List.flatMap_cons, List.append_right_eq_self]
          have isChunk : (ReadResult.chunk bytes nonempty fits).isChunk = true := rfl
          have alone : (rest.filter ReadResult.isChunk).length + 1 ≤ 1 ↔
              rest.filter ReadResult.isChunk = [] := by
            rw [← List.length_eq_zero_iff]
            omega
          rw [List.filter_cons_of_pos isChunk, List.length_cons, alone,
            List.flatMap_eq_nil_iff, List.filter_eq_nil_iff]
          constructor
          · intro empty later member isChunk
            cases later with
            | chunk bytes nonempty fits => exact nonempty (empty _ member)
            | code rc notPositive => exact absurd isChunk Bool.false_ne_true
          · intro none later member
            cases later with
            | chunk bytes nonempty fits => exact absurd rfl (none _ member)
            | code rc notPositive => rfl

/-- The phase ends with the whole output recorded, and its length. -/
def RecordsWhole (ctx : Ctx UInt8) (events : List Event) (output : Output) : Prop :=
  ∃ after, ClientImpl.phase .readCommandChannel events ctx = .ok () after ∧
    after.client.commandChannelReadStr = output.bytes ∧
      after.client.commandChannelReadLen = output.bytes.length

/-- What the read phase of `command` records: the first chunk. -/
theorem phase_readCommandChannel {ctx : Ctx UInt8} {events : List Event} {output : Output}
    (delivers : Delivers .readCommandChannel ctx.client.ioContext.pending output events) :
    ∃ after, ClientImpl.phase .readCommandChannel events ctx = .ok () after ∧
      after.client.commandChannelReadStr = firstChunk output.results ∧
        after.client.commandChannelReadLen = (firstChunk output.results).length := by
  rw [ClientImpl.phase_eq]
  refine ClientImpl.run_readCommandChannel output.results rfl delivers.reads ?_
  rw [ClientImpl.pending_begun]
  exact delivers.fires

/-- **`command` records the first chunk of its output**, so the whole only when there is
no other. -/
theorem command_recordsWhole_iff {ctx : Ctx UInt8} {events : List Event} {output : Output}
    (delivers : Delivers .readCommandChannel ctx.client.ioContext.pending output events) :
    RecordsWhole ctx events output ↔ output.chunks.length ≤ 1 := by
  obtain ⟨ended, returns, str, len⟩ := phase_readCommandChannel delivers
  rw [Output.chunks, ← flatMap_eq_firstChunk_iff output.isOutput]
  constructor
  · rintro ⟨after, returned, whole, -⟩
    obtain rfl : ended = after := by simpa [returns] using returned
    exact whole.symm.trans str
  · intro whole
    refine ⟨ended, returns, ?_, ?_⟩
    · rw [str, Output.bytes, whole]
    · rw [len, Output.bytes, whole]

/-- The output `7`, after one `EAGAIN`. -/
def oneChunk : Output where
  results := [.code libssh2ErrorEagain (by decide), .byte 7]
  isOutput := by
    rintro _ (_ | ⟨_, _ | ⟨_, ⟨⟩⟩⟩) <;> trivial

theorem command_recordsWhole_oneChunk : RecordsWhole {} (inTurn oneChunk) oneChunk :=
  (command_recordsWhole_iff (delivers_inTurn .readCommandChannel oneChunk)).mpr (by decide)

/-- The output `7 8`, in two chunks. -/
def twoChunks : Output where
  results := [.byte 7, .byte 8]
  isOutput := by
    rintro _ (_ | ⟨_, _ | ⟨_, ⟨⟩⟩⟩) <;> trivial

/-- The second chunk of an output is not even read. -/
theorem not_command_recordsWhole :
    ¬ ∀ (ctx : Ctx UInt8) (events : List Event) (output : Output),
      Delivers .readCommandChannel ctx.client.ioContext.pending output events →
        RecordsWhole ctx events output := by
  intro records
  have delivers : Delivers .readCommandChannel ({} : Ctx UInt8).client.ioContext.pending twoChunks
      (inTurn twoChunks) := delivers_inTurn .readCommandChannel twoChunks
  obtain ⟨ended, returns, first, -⟩ := phase_readCommandChannel delivers
  obtain ⟨after, returned, whole, -⟩ := records {} (inTurn twoChunks) twoChunks delivers
  obtain rfl : ended = after := by simpa [returns] using returned
  exact absurd (whole.symm.trans first) (by decide)

/-! ## forwarding -/

namespace ClientImpl

/-- A read of the listen channel appends what stands before the first zero byte, and
only the end of the channel ends the work. -/
theorem doReadListenChannel_of_isOutput {answers : Answers} (ctx : Ctx UInt8)
    (isOutput : answers.read.IsOutput) :
    ∃ after, doReadListenChannel answers ctx = .ok .STILL_WORKING after ∧
      after.client.ioContext = ctx.client.ioContext ∧
        after.client.session = ctx.client.session ∧
          after.client.listenChannelReadStr =
            ctx.client.listenChannelReadStr ++ answers.read.bytes.takeWhile (· ≠ 0) := by
  cases result : answers.read with
  | chunk bytes nonempty fits =>
      have positive : 0 < answers.read.rc := by
        rw [result]
        simpa [ReadResult.rc, List.length_pos_iff] using nonempty
      simp only [doReadListenChannel, run_bind, run_modify, positive, if_true, run_pure]
      refine ⟨_, rfl, rfl, rfl, ?_⟩
      rw [result]
      rfl
  | code rc notPositive =>
      have again : rc = libssh2ErrorEagain := by
        rw [result] at isOutput
        exact isOutput
      have same : answers.read.rc = libssh2ErrorEagain := by
        rw [result]
        exact again
      have notYet : ¬ 0 < libssh2ErrorEagain := by decide
      simp only [doReadListenChannel, run_bind, run_modify, same, notYet, if_false,
        if_true, run_pure]
      exact ⟨_, rfl, rfl, rfl, (List.append_nil _).symm⟩

theorem doReadListenChannel_of_end {answers : Answers} (ctx : Ctx UInt8)
    (ended : answers.read = endOfChannel) :
    doReadListenChannel answers ctx = .ok .WORK_DONE ctx.useListenChannel := by
  have zero : answers.read.rc = 0 := by rw [ended]; rfl
  have notPositive : ¬ (0 : Int) < 0 := by decide
  have notAgain : ¬ (0 : Int) = libssh2ErrorEagain := by decide
  simp only [doReadListenChannel, run_bind, run_modify, zero, notPositive, notAgain,
    if_false, ne_eq, not_true_eq_false, run_pure]

/-- The client after an event whose handler waits again, and has recorded these bytes. -/
structure WaitsAgain (event : Event) (handler : Handler) (recorded : List UInt8)
    (ctx next : Ctx UInt8) : Prop where
  going : next.client.ioContext.stopped = false
  pending : next.client.ioContext.pending =
    ctx.client.ioContext.pending.eraseIdx event.index ++ [handler]
  session : next.client.session = ctx.client.session
  listened : next.client.listenChannelReadStr = ctx.client.listenChannelReadStr ++ recorded

section Events

variable {event : Event} {ctx after : Ctx UInt8} {handler : Handler} {recorded : List UInt8}

theorem WaitsAgain.armed (waits : WaitsAgain event handler recorded ctx after) :
    after.client.ioContext.pending ≠ [] := by
  rw [waits.pending]
  exact List.concat_ne_nil _ _

/-- A handler of `forwarding` that reads output records it up to its first zero byte. -/
theorem run_listens (events : List Event) (going : ctx.client.ioContext.stopped = false)
    (found : ctx.client.ioContext.pending[event.index]? = some handler)
    (work : handler.work = .readListenChannel) (isOutput : event.answers.read.IsOutput) :
    ∃ next, run (event :: events) ctx = run events next ∧
      WaitsAgain event handler (event.answers.read.bytes.takeWhile (· ≠ 0)) ctx next := by
  obtain ⟨next, worked, sameIo, sameSession, appended⟩ :=
    doReadListenChannel_of_isOutput (taken event ctx) isOutput
  refine ⟨rearmed handler next, run_still going found (by rw [work]; exact worked), ?_⟩
  exact ⟨(congrArg IoContext.stopped sameIo).trans going, pending_rearmed handler sameIo,
    sameSession, appended⟩

/-- A handler of `forwarding` that reads the end of the channel ends the run. -/
theorem run_ends (events : List Event) (going : ctx.client.ioContext.stopped = false)
    (found : ctx.client.ioContext.pending[event.index]? = some handler)
    (work : handler.work = .readListenChannel) (read : event.answers.read = endOfChannel) :
    ∃ ended, run (event :: events) ctx = .ok () ended ∧
      ended.client.listenChannelReadStr = ctx.client.listenChannelReadStr := by
  have worked := doReadListenChannel_of_end (taken event ctx) read
  refine ⟨_, run_done going found (by rw [work]; exact worked), ?_⟩
  rfl

/-- What a handler does that is left over: it waits again, or it ends the run, and it records
nothing. -/
theorem run_leftOver (events : List Event) (going : ctx.client.ioContext.stopped = false)
    (found : ctx.client.ioContext.pending[event.index]? = some handler)
    (work : handler.work ≠ .readListenChannel) :
    match event.answers.reply ctx.client.session handler.work with
    | .again => ∃ next, run (event :: events) ctx = run events next ∧
        WaitsAgain event handler [] ctx next
    | .done => ∃ ended, run (event :: events) ctx = .ok () ended ∧
        ended.client.listenChannelReadStr = ctx.client.listenChannelReadStr
    | .error => ∃ fault ended, run (event :: events) ctx = .error fault ended := by
  obtain ⟨next, same, worked⟩ := doWork_reply event.answers (taken event ctx) work
  have session : (taken event ctx).client.session = ctx.client.session := rfl
  rw [session] at worked
  split
  next replied =>
    rw [replied] at worked
    refine ⟨rearmed handler next, run_still going found worked, ?_⟩
    exact ⟨(congrArg IoContext.stopped same.io).trans going, pending_rearmed handler same.io,
      same.session, same.listened.trans (List.append_nil _).symm⟩
  next replied =>
    rw [replied] at worked
    exact ⟨_, run_done going found worked, same.listened⟩
  next replied =>
    rw [replied] at worked
    obtain ⟨fault, failed⟩ := worked
    exact ⟨fault, next, run_failed going found failed⟩

end Events

/-- When only handlers of `forwarding` fire, it reads on to the end of the channel. -/
theorem run_readListenChannel {results : List (ReadResult UInt8)}
    (isOutput : ∀ result ∈ results, result.IsOutput) {events : List Event} {ctx : Ctx UInt8}
    (going : ctx.client.ioContext.stopped = false)
    (reads : events.map (fun event => event.answers.read) = results ++ [endOfChannel])
    (fires : Fires .readListenChannel ctx.client.ioContext.pending events) :
    ∃ after, run events ctx = .ok () after := by
  induction results generalizing events ctx with
  | nil =>
      obtain ⟨event, rfl, read⟩ := List.map_eq_singleton_iff.mp reads
      obtain ⟨handler, found, work, -⟩ := fires
      obtain ⟨ended, returns, -⟩ := run_ends [] going found work read
      exact ⟨ended, returns⟩
  | cons result rest ih =>
      obtain ⟨event, later, rfl, read, readsLater⟩ := List.map_eq_cons_iff.mp reads
      obtain ⟨handler, found, work, firesLater⟩ := fires
      have isOutputRest : ∀ result ∈ rest, result.IsOutput :=
        fun other member => isOutput other (List.mem_cons_of_mem _ member)
      have first : event.answers.read.IsOutput := by
        rw [read]
        exact isOutput result (List.mem_cons_self ..)
      obtain ⟨next, goesOn, waits⟩ := run_listens later going found work first
      rw [goesOn]
      exact ih isOutputRest waits.going readsLater (waits.pending ▸ firesLater)

end ClientImpl

/-- The handlers that are pending in `forwarding`: what is left over, and its own. -/
def forwardingHandlers (pending : List Handler) : List Handler :=
  pending ++ [⟨.readListenChannel, true⟩, ⟨.readListenChannel, false⟩]

/-- Events of `forwarding`: each dispatches a pending handler, whichever it is, and a handler
of `forwarding` reads what the channel returns next. -/
def ReadsInOrder : List Handler → List (ReadResult UInt8) → List Event → Prop
  | _, _, [] => True
  | pending, results, event :: events =>
      match pending[event.index]? with
      | none => ReadsInOrder pending results events
      | some handler =>
          if handler.work = .readListenChannel then
            results.head? = some event.answers.read ∧
              ReadsInOrder (pending.eraseIdx event.index ++ [handler]) results.tail events
          else ReadsInOrder (pending.eraseIdx event.index ++ [handler]) results events

/-- A handler that an earlier command left over does its work, and so ends the phase, while a
chunk is unread. -/
def endsEarly (session : Option SessionId) :
    List Handler → List (ReadResult UInt8) → List Event → Bool
  | _, _, [] => false
  | pending, results, event :: events =>
      match pending[event.index]? with
      | none => endsEarly session pending results events
      | some handler =>
          if handler.work = .readListenChannel then
            endsEarly session (pending.eraseIdx event.index ++ [handler]) results.tail events
          else
            match event.answers.reply session handler.work with
            | .again => endsEarly session (pending.eraseIdx event.index ++ [handler]) results events
            | .done => results.any ReadResult.isChunk
            | .error => false

/-- Handlers of `forwarding` that fire in any order read the output and do not end early. -/
theorem Fires.readsInOrder {pending : List Handler} {events : List Event}
    (session : Option SessionId) (fires : Fires .readListenChannel pending events) :
    ReadsInOrder pending (events.map fun event => event.answers.read) events ∧
      endsEarly session pending (events.map fun event => event.answers.read) events = false := by
  induction events generalizing pending with
  | nil => exact ⟨trivial, rfl⟩
  | cons event events ih =>
      obtain ⟨handler, found, work, later⟩ := fires
      simp only [ReadsInOrder, endsEarly, found, work, if_true]
      exact ⟨⟨rfl, (ih later).1⟩, (ih later).2⟩

/-- Such events are events of a phase with handlers left over. -/
theorem Delivers.readsInOrder {pending : List Handler} {output : Output} {events : List Event}
    (delivers : Delivers .readListenChannel pending output events) :
    ReadsInOrder (forwardingHandlers pending) (output.results ++ [endOfChannel]) events := by
  rw [← delivers.reads]
  exact (delivers.fires.readsInOrder none).1

/-- Nothing is left to be read. -/
theorem endsEarly_nil (session : Option SessionId) (pending : List Handler) (events : List Event) :
    endsEarly session pending [] events = false := by
  induction events generalizing pending with
  | nil => rfl
  | cons event events ih =>
      rw [endsEarly]
      split
      next => exact ih pending
      next handler _ =>
          split
          next => exact ih _
          next =>
              split
              next => exact ih _
              next => rfl
              next => rfl

/-- The end of the channel is no chunk. -/
theorem any_isChunk_append_end (results : List (ReadResult UInt8)) :
    (results ++ [endOfChannel]).any ReadResult.isChunk = results.any ReadResult.isChunk := by
  rw [List.any_append]
  exact Bool.or_false _

namespace ClientImpl

/-- **What a run of the read phase records**: of every chunk that is read what stands before
its first zero byte, and nothing of the chunks that are unread when the phase ends early. -/
theorem run_forwarded {results : List (ReadResult UInt8)}
    (isOutput : ∀ result ∈ results, result.IsOutput) {events : List Event} {ctx after : Ctx UInt8}
    (going : ctx.client.ioContext.stopped = false) (armed : ctx.client.ioContext.pending ≠ [])
    (inOrder : ReadsInOrder ctx.client.ioContext.pending (results ++ [endOfChannel]) events)
    (returned : run events ctx = .ok () after) :
    ∃ read unread, results = read ++ unread ∧
      after.client.listenChannelReadStr = ctx.client.listenChannelReadStr ++
        (read.flatMap fun result => result.bytes.takeWhile (· ≠ 0)) ∧
      unread.any ReadResult.isChunk = endsEarly ctx.client.session ctx.client.ioContext.pending
        (results ++ [endOfChannel]) events := by
  induction events generalizing results ctx with
  | nil =>
      rw [run_blocked going armed] at returned
      cases returned
  | cons event events ih =>
      rw [ReadsInOrder] at inOrder
      rw [endsEarly]
      cases found : ctx.client.ioContext.pending[event.index]? with
      | none =>
          rw [found] at inOrder
          rw [run_absent going armed found] at returned
          exact ih isOutput going armed inOrder returned
      | some handler =>
          simp only [found] at inOrder
          simp only
          by_cases work : handler.work = .readListenChannel
          · rw [if_pos work] at inOrder ⊢
            obtain ⟨ahead, readsLater⟩ := inOrder
            cases results with
            | nil =>
                have read : event.answers.read = endOfChannel := (Option.some.inj ahead).symm
                obtain ⟨ended, returns, kept⟩ := run_ends events going found work read
                rw [returns] at returned
                cases returned
                exact ⟨[], [], rfl, kept.trans (List.append_nil _).symm, (endsEarly_nil ..).symm⟩
            | cons result rest =>
                obtain rfl : event.answers.read = result := (Option.some.inj ahead).symm
                obtain ⟨next, goesOn, waits⟩ := run_listens events going found work
                  (isOutput _ (List.mem_cons_self ..))
                rw [goesOn] at returned
                obtain ⟨read, unread, rfl, recorded, early⟩ := ih
                  (fun other member => isOutput other (List.mem_cons_of_mem _ member))
                  waits.going waits.armed (waits.pending ▸ readsLater) returned
                rw [waits.pending, waits.session] at early
                refine ⟨event.answers.read :: read, unread, rfl, ?_, early⟩
                rw [recorded, waits.listened, List.flatMap_cons, List.append_assoc]
          · -- a handler that is left over
            rw [if_neg work] at inOrder ⊢
            have does := run_leftOver events going found work
            cases replied : event.answers.reply ctx.client.session handler.work with
            | again =>
                rw [replied] at does
                obtain ⟨next, goesOn, waits⟩ := does
                rw [goesOn] at returned
                have later := ih isOutput waits.going waits.armed (waits.pending ▸ inOrder) returned
                rw [waits.pending, waits.session, waits.listened, List.append_nil] at later
                exact later
            | done =>
                rw [replied] at does
                obtain ⟨ended, returns, kept⟩ := does
                rw [returns] at returned
                cases returned
                exact ⟨[], results, rfl, kept.trans (List.append_nil _).symm,
                  (any_isChunk_append_end results).symm⟩
            | error =>
                rw [replied] at does
                obtain ⟨fault, ended, failed⟩ := does
                rw [failed] at returned
                cases returned

end ClientImpl

/-- When `forwarding` returns 0, it has recorded the whole stream. -/
def RecordsStream (ctx : Ctx UInt8) (script : ForwardingScript) (output : Output) : Prop :=
  ∀ after, ClientImpl.forwarding script ctx = .ok 0 after →
    after.client.listenChannelReadStr = output.bytes

/-- The calls for a channel leave the `ioContext` alone, and the session. -/
theorem openListenChannel_kept (script : ForwardingScript) (ctx : Ctx UInt8) :
    (ClientImpl.openListenChannel script ctx).client.ioContext = ctx.client.ioContext ∧
      (ClientImpl.openListenChannel script ctx).client.session = ctx.client.session := by
  have accepts (ctx : Ctx UInt8) :
      (ctx.acceptForwarded script.accepted).client.ioContext = ctx.client.ioContext ∧
        (ctx.acceptForwarded script.accepted).client.session = ctx.client.session := by
    unfold Ctx.acceptForwarded
    split <;> try split
    all_goals exact ⟨rfl, rfl⟩
  have listens (ctx : Ctx UInt8) :
      (ctx.listen script.listened).client.ioContext = ctx.client.ioContext ∧
        (ctx.listen script.listened).client.session = ctx.client.session := by
    unfold Ctx.listen
    split <;> try split
    all_goals exact ⟨rfl, rfl⟩
  rw [ClientImpl.openListenChannel, (accepts _).1, (accepts _).2, (listens _).1, (listens _).2]
  exact ⟨rfl, rfl⟩

/-- `forwarding` before it reads. -/
def readyToRead (script : ForwardingScript) (ctx : Ctx UInt8) : Ctx UInt8 :=
  ClientImpl.begun .readListenChannel
    (((ClientImpl.openListenChannel script ctx).setBlocking false).assign fun client =>
      { client with listenChannelReadStr := [] })

theorem pending_readyToRead (script : ForwardingScript) (ctx : Ctx UInt8) :
    (readyToRead script ctx).client.ioContext.pending =
      forwardingHandlers ctx.client.ioContext.pending := by
  rw [readyToRead, ClientImpl.pending_begun, forwardingHandlers]
  exact congrArg (·.pending ++ _) (openListenChannel_kept script ctx).1

/-- With a channel, `forwarding` returns 0 when its run returns. -/
theorem forwarding_of_run {ctx : Ctx UInt8} {script : ForwardingScript}
    (gets : ClientImpl.GetsChannel script ctx.client) :
    ClientImpl.forwarding script ctx =
      (ClientImpl.run script.reads >>= fun _ => pure 0) (readyToRead script ctx) := by
  rw [ClientImpl.forwarding_of_getsChannel gets]
  rfl

/-- `forwarding` returns 0 only with a channel, and then its run has returned. -/
theorem run_of_forwarding {ctx after : Ctx UInt8} {script : ForwardingScript}
    (returned : ClientImpl.forwarding script ctx = .ok 0 after) :
    ClientImpl.run script.reads (readyToRead script ctx) = .ok () after := by
  have gets : ClientImpl.GetsChannel script ctx.client := by
    by_contra none
    obtain ⟨ended, refused, -⟩ := ClientImpl.forwarding_of_not_getsChannel none
    rw [refused] at returned
    cases returned
  rw [forwarding_of_run gets, run_bind] at returned
  cases ran : ClientImpl.run script.reads (readyToRead script ctx) with
  | ok _ ended =>
      rw [ran] at returned
      cases returned
      rfl
  | error fault ended =>
      rw [ran] at returned
      cases returned

/-- **What `forwarding` has recorded when it returns 0**: of every chunk that was read what
stands before its first zero byte. -/
theorem forwarding_records {ctx after : Ctx UInt8} {script : ForwardingScript} {output : Output}
    (inOrder : ReadsInOrder (forwardingHandlers ctx.client.ioContext.pending)
      (output.results ++ [endOfChannel]) script.reads)
    (returned : ClientImpl.forwarding script ctx = .ok 0 after) :
    ∃ read unread, output.results = read ++ unread ∧
      after.client.listenChannelReadStr =
        (read.flatMap fun result => result.bytes.takeWhile (· ≠ 0)) ∧
      unread.any ReadResult.isChunk = endsEarly ctx.client.session
        (forwardingHandlers ctx.client.ioContext.pending) (output.results ++ [endOfChannel])
          script.reads := by
  have ran := run_of_forwarding returned
  have pending := pending_readyToRead script ctx
  have session : (readyToRead script ctx).client.session = ctx.client.session :=
    (openListenChannel_kept script ctx).2
  have armed : (readyToRead script ctx).client.ioContext.pending ≠ [] := by
    rw [pending]
    exact List.append_ne_nil_of_right_ne_nil _ (List.cons_ne_nil _ _)
  have forwarded := ClientImpl.run_forwarded output.isOutput rfl armed (pending ▸ inOrder) ran
  rw [pending, session] at forwarded
  exact forwarded

/-- With a channel, `forwarding` returns 0 when only its own handlers fire. -/
theorem forwarding_returns {ctx : Ctx UInt8} {script : ForwardingScript} {output : Output}
    (gets : ClientImpl.GetsChannel script ctx.client)
    (delivers : Delivers .readListenChannel ctx.client.ioContext.pending output script.reads) :
    ∃ after, ClientImpl.forwarding script ctx = .ok 0 after := by
  have fires : Fires .readListenChannel (readyToRead script ctx).client.ioContext.pending
      script.reads := by
    rw [pending_readyToRead]
    exact delivers.fires
  obtain ⟨after, returns⟩ :=
    ClientImpl.run_readListenChannel output.isOutput rfl delivers.reads fires
  refine ⟨after, ?_⟩
  rw [forwarding_of_run gets, run_bind, returns]
  rfl

/-- What is recorded is the whole stream when no chunk has a zero byte and none is unread. -/
theorem recorded_eq_bytes_iff (read unread : List (ReadResult UInt8)) :
    (read.flatMap fun result => result.bytes.takeWhile (· ≠ 0)) =
        (read ++ unread).flatMap ReadResult.bytes ↔
      (∀ result ∈ read ++ unread, 0 ∉ result.bytes) ∧
        unread.any ReadResult.isChunk = false := by
  have shorter : ∀ result ∈ read,
      (result.bytes.takeWhile (· ≠ 0)).length ≤ result.bytes.length :=
    fun result _ => (List.takeWhile_sublist _).length_le
  have noChunk : unread.any ReadResult.isChunk = false ↔
      unread.flatMap ReadResult.bytes = [] := by
    rw [List.any_eq_false, List.flatMap_eq_nil_iff]
    exact forall₂_congr fun result _ =>
      (Bool.not_eq_true _).to_iff.trans result.bytes_eq_nil_iff.symm
  rw [noChunk, List.flatMap_append]
  constructor
  · intro same
    have lengths := congrArg List.length same
    rw [List.length_append] at lengths
    have none : unread.flatMap ReadResult.bytes = [] := by
      rw [← List.length_eq_zero_iff]
      have bound := Lib.length_flatMap_le shorter
      omega
    rw [none, List.append_nil, eq_comm, Lib.flatMap_eq_flatMap_iff shorter] at same
    refine ⟨fun result member zero => ?_, none⟩
    rcases List.mem_append.mp member with wasRead | left
    · have whole := List.takeWhile_eq_self_iff.mp (same result wasRead).symm 0 zero
      exact absurd whole (by decide)
    · rw [List.flatMap_eq_nil_iff.mp none result left] at zero
      cases zero
  · rintro ⟨text, none⟩
    rw [none, List.append_nil, eq_comm, Lib.flatMap_eq_flatMap_iff shorter]
    intro result member
    refine (List.takeWhile_eq_self_iff.mpr fun byte present => ?_).symm
    have nonzero : byte ≠ 0 := by
      rintro rfl
      exact text result (List.mem_append_left _ member) present
    exact decide_eq_true nonzero

/-- **`forwarding` records text exactly**, unless it ends early. With a channel it returns 0
at the end of the channel when only its own handlers fire, in any order. Whichever handlers
fire, when it returns 0 it has recorded the stream if no chunk has a zero byte in it and no
handler that an earlier command left over ends the phase while a chunk is unread, and only
then. -/
theorem forwarding_recordsStream_iff {ctx : Ctx UInt8} {script : ForwardingScript}
    {output : Output} :
    (ClientImpl.GetsChannel script ctx.client →
      Delivers .readListenChannel ctx.client.ioContext.pending output script.reads →
        ∃ after, ClientImpl.forwarding script ctx = .ok 0 after) ∧
      (ReadsInOrder (forwardingHandlers ctx.client.ioContext.pending)
          (output.results ++ [endOfChannel]) script.reads →
        ∀ after, ClientImpl.forwarding script ctx = .ok 0 after →
          (after.client.listenChannelReadStr = output.bytes ↔
            (∀ result ∈ output.results, 0 ∉ result.bytes) ∧
              endsEarly ctx.client.session (forwardingHandlers ctx.client.ioContext.pending)
                (output.results ++ [endOfChannel]) script.reads = false)) := by
  refine ⟨forwarding_returns, fun inOrder after returned => ?_⟩
  obtain ⟨read, unread, split, recorded, early⟩ := forwarding_records inOrder returned
  rw [recorded, ← early, Output.bytes, split]
  exact recorded_eq_bytes_iff read unread

/-- A client with a session, before its first `forwarding`. -/
def oneSession : Ctx UInt8 where
  lib := ({} : Libssh2 UInt8).sessionInit
  client := { session := some 0 }

/-- A `forwarding` that gets a channel, whose handlers fire in turn. -/
def forwardsInTurn (output : Output) : ForwardingScript where
  listened := true
  accepted := true
  reads := inTurn output

/-- The client, with a handler that an earlier command left over. -/
def withLeftOver : Ctx UInt8 :=
  oneSession.assign fun client => client.onIo fun io => io.arm ⟨.DoCreateChannel, true⟩

/-- A `forwarding` in which the handler that is left over fires first, and opens a channel or
has to open it again. -/
def forwardsAfterLeftOver (opened : Bool) : ForwardingScript where
  listened := true
  accepted := true
  reads :=
    [{ index := 0, answers := { opened := opened, rc := libssh2ErrorEagain } },
      { index := 0, answers := { read := .byte 7 } },
      { index := 0, answers := { read := .byte 8 } },
      { index := 1 }]

theorem readsInOrder_forwardsAfterLeftOver (opened : Bool) :
    ReadsInOrder (forwardingHandlers withLeftOver.client.ioContext.pending)
      (twoChunks.results ++ [endOfChannel]) (forwardsAfterLeftOver opened).reads :=
  And.intro rfl (And.intro rfl (And.intro rfl trivial))

/-- Text is recorded by the own handlers, and with a handler left over as long as that one
does not do its work. -/
theorem forwarding_recordsStream_text :
    (∃ after, ClientImpl.forwarding (forwardsInTurn twoChunks) oneSession = .ok 0 after) ∧
      (∃ after, ClientImpl.forwarding (forwardsAfterLeftOver false) withLeftOver = .ok 0 after ∧
        after.client.listenChannelReadStr = twoChunks.bytes) ∧
      ∃ after, ClientImpl.forwarding (forwardsAfterLeftOver true) withLeftOver = .ok 0 after ∧
        after.client.listenChannelReadStr ≠ twoChunks.bytes := by
  have delivers : Delivers .readListenChannel oneSession.client.ioContext.pending twoChunks
      (forwardsInTurn twoChunks).reads := delivers_inTurn .readListenChannel twoChunks
  refine ⟨forwarding_recordsStream_iff.1 (by decide) delivers, ⟨_, rfl, ?_⟩, ⟨_, rfl, ?_⟩⟩
  · have records := forwarding_recordsStream_iff.2 (readsInOrder_forwardsAfterLeftOver false) _ rfl
    exact records.mpr ⟨by decide, by decide⟩
  · have records := forwarding_recordsStream_iff.2 (readsInOrder_forwardsAfterLeftOver true) _ rfl
    exact fun whole => absurd (records.mp whole).2 (by decide)

/-- The output `7 0 8`, in one chunk. -/
def binaryChunk : Output where
  results := [.chunk [7, 0, 8] (by decide) (by decide)]
  isOutput := by
    rintro _ (_ | ⟨_, ⟨⟩⟩)
    trivial

/-- Of the chunk `7 0 8` the byte `7` is recorded. -/
theorem not_forwarding_recordsStream :
    ¬ ∀ (ctx : Ctx UInt8) (script : ForwardingScript) (output : Output),
      Delivers .readListenChannel ctx.client.ioContext.pending output script.reads →
        RecordsStream ctx script output := by
  intro records
  have delivers : Delivers .readListenChannel oneSession.client.ioContext.pending binaryChunk
      (forwardsInTurn binaryChunk).reads := delivers_inTurn .readListenChannel binaryChunk
  obtain ⟨after, returned⟩ := forwarding_returns (by decide) delivers
  obtain ⟨read, unread, split, recorded, -⟩ := forwarding_records delivers.readsInOrder returned
  have whole := (records _ _ _ delivers after returned).symm.trans recorded
  rw [Output.bytes, split] at whole
  have text := ((recorded_eq_bytes_iff read unread).mp whole.symm).1
  rw [← split] at text
  exact absurd text (by decide)

end BookFilerSsh
