import BookFilerSsh.Tunnel.Scheduling

/-!
# Idle tunnels and the threads of the pool

`runPull` reads with a blocking call, so a connection whose remote is silent holds
a thread. When every thread is held so, no data of a local client is sent and no
client is accepted, however long they wait.

With fewer connections than threads this cannot happen, since a connection holds
one thread at most. With as many connections as threads it can, whatever the
number of threads is and in both modes of `spawn`: a round of the accept loop on
an idle thread ends with that thread held by the new connection
(`Server.round`), and after a round on every thread the next client waits
(`neverStarved_iff`).
-/

set_option autoImplicit false

namespace BookFilerSsh

open Lib.Pool Lib.Tables Lib.Effects

namespace Server

variable {T : ℕ}

/-- The thread is held by a `runPull` that waits for its remote. -/
def HeldByPull (s : Server T) (t : Fin T) : Prop :=
  ∃ (i : ℕ) (conn : ConnectionImpl TaggedByte), (s.threads t).head? = some (.pull i) ∧
    s.connectionList[i]? = some conn ∧ conn.pull = .inRead

/-- A coroutine is ready to run, or a client is waiting to be accepted. -/
def WorkWaits (s : Server T) : Prop := (∃ coro, s.status coro = .ready) ∨ 0 < s.backlog

/-- Every thread waits for a silent remote while there is something to do. -/
def Starved (s : Server T) : Prop := (∀ t, s.HeldByPull t) ∧ s.WorkWaits

/-- **A connection holds one thread at most.** -/
theorem threads_le_of_held {mode : SpawnMode} {clientState : ClientState} {s : Server T}
    (reached : (serverMachine T mode clientState).Reachable s) (held : ∀ t, s.HeldByPull t) :
    T ≤ s.connectionList.length := by
  refine (coherent reached).threads_le Coro.pull fun t => ?_
  obtain ⟨i, conn, top, found, -⟩ := held t
  exact ⟨i, (List.getElem?_eq_some_iff.mp found).1, _, stack_of_top top⟩

/-! ## Pumps that go on -/

end Server

/-- What so many statements of `runPull` leave, when it keeps its thread. -/
def Link.pullSteps {β : Type} (link : Link β) : ℕ → Option (Link β)
  | 0 => some link
  | n + 1 =>
      match link.pullStep with
      | some (next, .stays) => next.pullSteps n
      | _ => none

namespace Server

variable {T : ℕ}

/-- A round of the accept loop on thread `t` since state `start`: the new
connection has this link. -/
structure InRound (start : Server T) (t : Fin T) (stack : List Coro) (pc : ListenerPc)
    (link : Link TaggedByte) (s : Server T) : Prop where
  runs : s.terminated = false
  listener : s.listener = pc
  threads : s.threads = Function.update start.threads t stack
  conns : s.connectionList = start.connectionList ++ [link.conn]
  linked : s.link start.connectionList.length = some link

section Rounds

variable {start s : Server T} {t : Fin T} {pc : ListenerPc} {link next : Link TaggedByte}
  {stack : List Coro} (mode : SpawnMode) (clientState : ClientState)

theorem InRound.head (round : InRound start t stack pc link s) :
    (s.threads t).head? = stack.head? := by
  rw [round.threads, Function.update_self]

/-- What an action of a pump of the new connection leaves. -/
theorem InRound.setLink (round : InRound start t stack pc link s) (frame : link.Frame next) :
    InRound start t stack pc next (s.setLink start.connectionList.length next) where
  runs := round.runs
  listener := round.listener
  threads := round.threads
  conns := by simp [Server.setLink, onState, round.conns]
  linked := link_setLink round.linked frame

/-- What an effect of the coroutine on top leaves. -/
theorem InRound.setStack (round : InRound start t stack pc link s) (after : List Coro) :
    InRound start t after pc link (s.setStack t after) where
  runs := round.runs
  listener := round.listener
  threads := by simp [Server.setStack, round.threads]
  conns := round.conns
  linked := round.linked

/-- The coroutine on top gives its thread up. -/
theorem InRound.parks {coro : Coro} {rest : List Coro}
    (round : InRound start t (coro :: rest) pc link s) :
    InRound start t rest pc link (s.applyEffect mode t .parks) := by
  have tail : (s.threads t).tail = rest := by rw [round.threads, Function.update_self]; rfl
  have parked := round.setStack rest
  rwa [← tail] at parked ⊢

/-- Statements of `runPull` that keep its thread. -/
theorem InRound.pullSteps {rest : List Coro} {n : ℕ}
    (round : InRound start t (.pull start.connectionList.length :: rest) pc link s)
    (ran : link.pullSteps n = some next) :
    ∃ s', (serverMachine T mode clientState).Leads s s' ∧
      InRound start t (.pull start.connectionList.length :: rest) pc next s' := by
  induction n generalizing link s with
  | zero =>
      rw [Link.pullSteps, Option.some.injEq] at ran
      exact ⟨s, .refl s, ran ▸ round⟩
  | succ n ih =>
      rw [Link.pullSteps] at ran
      split at ran
      · rename_i middle stepped
        have after := round.setLink (Link.frame_pullStep stepped)
        obtain ⟨s', leads, last⟩ := ih after ran
        refine ⟨s', .trans (.step (a := .run t) ?_) leads, last⟩
        simp [serverMachine, Server.step, round.runs, round.head, coroStep, pumpStep, round.linked,
          stepped, applyEffect]
      · cases ran

/-- `runPull` gets to its `async_write`. -/
theorem InRound.pullParks {rest : List Coro}
    (round : InRound start t (.pull start.connectionList.length :: rest) pc link s)
    (stepped : link.pullStep = some (next, .parks)) :
    ∃ s', (serverMachine T mode clientState).Leads s s' ∧ InRound start t rest pc next s' := by
  refine ⟨_, .step (a := .run t) ?_, (round.setLink (Link.frame_pullStep stepped)).parks mode⟩
  simp [serverMachine, Server.step, round.runs, round.head, coroStep, pumpStep, round.linked,
    stepped]

/-! ## Setting the client of a round up -/

/-- A set-up on thread `t` since state `start`, with the new connection and what the
calls on the new client left. -/
structure InSetUp (start : Server T) (t : Fin T) (pc : ListenerPc)
    (conn : ConnectionImpl TaggedByte) (ctx : Ctx TaggedByte) (s : Server T) : Prop where
  runs : s.terminated = false
  listener : s.listener = pc
  threads : s.threads = Function.update start.threads t [.listener]
  conns : s.connectionList = start.connectionList ++ [conn]
  clients : s.clients = start.clients ++ [ctx.client]
  lib : s.lib = ctx.lib

/-- A client is accepted and gets a client of its own. -/
theorem accepts_client (runs : start.terminated = false) (accepting : start.listener = .accepting)
    (idle : start.threads t = []) :
    ∃ s, (serverMachine T mode clientState).Leads start s ∧
      InSetUp start t (.connecting start.connectionList.length start.clients.length)
        { connId := some (start.connectionIdIncrement + 1) }
        ⟨start.lib, { clientState := start.clientState }⟩ s := by
  refine ⟨{ start with
    listener := .connecting start.connectionList.length start.clients.length
    connectionList := start.connectionList ++ [{ connId := some (start.connectionIdIncrement + 1) }]
    clients := start.clients ++ [{ clientState := start.clientState }]
    connectionIdIncrement := start.connectionIdIncrement + 1
    threads := Function.update start.threads t [.listener]
    history := start.history ++ [.created start.connectionList.length start.clients.length] },
    ⟨[.clientArrives, .acceptDone false, .resume t .listener, .run t, .run t, .run t], ?_⟩, ?_⟩
  · simp [serverMachine, Server.step, runs, accepting, idle, coroResume, setListener, coroStep,
      listenerStep, applyEffect, onState, ListenerState.publish, ListenerState.setId,
      ListenerState.setConn, ListenerState.makeClient, record, modify_concat, setStack]
  · exact ⟨runs, rfl, rfl, rfl, rfl, rfl⟩

/-- A call of the set-up returns. -/
theorem InSetUp.returns {α : Type} {conn : ConnectionImpl TaggedByte} {ctx after : Ctx TaggedByte}
    {a : α} (setUp : InSetUp start t pc conn ctx s) (answer : SetupAnswer)
    (call : ClientM TaggedByte α) (pc' : ListenerPc)
    (calls : s.listenerReturn answer =
      s.onClient start.clients.length call fun _ s => s.setListener pc')
    (ran : call ctx = .ok a after) :
    ∃ s', (serverMachine T mode clientState).Leads s s' ∧ InSetUp start t pc' conn after s' := by
  have found : s.ctx start.clients.length = some ctx := by
    simp [ListenerState.ctx, setUp.clients, setUp.lib]
  refine ⟨(s.onState (.setCtx · start.clients.length after)).setListener pc',
    .step (a := .setupDone t answer) ?_, ?_⟩
  · simp [serverMachine, Server.step, setUp.runs, setUp.threads, calls, onClient, found, ran]
  · refine ⟨setUp.runs, rfl, setUp.threads, setUp.conns, ?_, rfl⟩
    simp [onState, setListener, ListenerState.setCtx, setUp.clients]

/-- The client before its channel is opened. -/
def dialled (ctx : Ctx TaggedByte) : Ctx TaggedByte :=
  ctx.openSocket.openSession.useSession.startThreadIo.useSession

/-- The stages of `connect` succeed one after the other. -/
theorem InSetUp.connects {conn : ConnectionImpl TaggedByte} {ctx : Ctx TaggedByte} {i : ℕ}
    (setUp : InSetUp start t (.connecting i start.clients.length) conn ctx s)
    (noThread : ctx.client.threadIo = none) :
    ∃ s', (serverMachine T mode clientState).Leads s s' ∧
      InSetUp start t (.opening i start.clients.length) conn (dialled ctx) s' := by
  obtain ⟨s₁, leads₁, setUp₁⟩ := setUp.returns mode clientState (.socket .connected)
    (ClientImpl.connectSocket .connected) (.creating i start.clients.length)
    (by simp only [listenerReturn, setUp.listener]) rfl
  obtain ⟨s₂, leads₂, setUp₂⟩ := setUp₁.returns mode clientState (.session true)
    (ClientImpl.createSSHSession true) (.handshaking i start.clients.length)
    (by simp only [listenerReturn, setUp₁.listener]) rfl
  have starts : (do let _ ← ClientImpl.sessionCall 0; ClientImpl.startThreadIo :
      ClientM TaggedByte Unit) ctx.openSocket.openSession =
        .ok () ctx.openSocket.openSession.useSession.startThreadIo := by
    have noneHeld : ctx.openSocket.openSession.useSession.holdsThread = false := by
      simp [Ctx.holdsThread, Ctx.useSession, Ctx.openSession, Ctx.openSocket, noThread]
    simp only [ClientImpl.sessionCall, ClientImpl.startThreadIo, run_bind, run_modify, run_pure,
      run_get, run_ite, noneHeld, Bool.false_eq_true, if_false]
  obtain ⟨s₃, leads₃, setUp₃⟩ := setUp₂.returns mode clientState (.handshake 0) _
    (.authenticating i start.clients.length) (by simp [listenerReturn, setUp₂.listener]) starts
  obtain ⟨s₄, leads₄, setUp₄⟩ := setUp₃.returns mode clientState (.auth 0)
    (ClientImpl.sessionCall 0) (.opening i start.clients.length)
    (by simp [listenerReturn, setUp₃.listener]) rfl
  exact ⟨s₄, ((leads₁.trans leads₂).trans leads₃).trans leads₄, setUp₄⟩

/-- The channel is opened and the connection gets its client. -/
theorem InSetUp.opens {conn : ConnectionImpl TaggedByte} {ctx : Ctx TaggedByte} {sid : SessionId}
    (setUp : InSetUp start t (.opening start.connectionList.length start.clients.length) conn ctx s)
    (session : ctx.client.session = some sid) :
    ∃ s', (serverMachine T mode clientState).Leads s s' ∧
      InRound start t [.listener] (.clientSet start.connectionList.length)
        { conn := { conn with sshClient := some start.clients.length }
          client := { ctx.client with commandChannel := some ctx.lib.channels.length }
          channel := { session := sid } } s' := by
  have found : s.ctx start.clients.length = some ctx := by
    simp [ListenerState.ctx, setUp.clients, setUp.lib]
  have opened := Ctx.openCommandChannel_session session
  refine ⟨(((((s.onState (.setCtx · start.clients.length (ctx.openCommandChannel true))).record
      (.opened start.clients.length s.lib.channels.length))).onState
        (.setSshClient · start.connectionList.length start.clients.length))).setListener
          (.clientSet start.connectionList.length),
    ⟨[.setupDone t (.channel true), .run t], ?_⟩, setUp.runs, rfl, setUp.threads, ?_, ?_⟩
  · simp [serverMachine, Server.step, setUp.runs, setUp.threads, setUp.listener, listenerReturn,
      onClient, found, ClientImpl.tunnel_run, opened, setListener, onState, record, coroStep,
      listenerStep, applyEffect]
  · simp [setListener, onState, record, ListenerState.setSshClient, ListenerState.setConn,
      ListenerState.setCtx, setUp.conns, modify_concat]
  · simp [Server.link, setListener, onState, record, ListenerState.setSshClient,
      ListenerState.setConn, ListenerState.setCtx, setUp.conns, modify_concat, setUp.clients,
      opened, Libssh2.openChannel]

/-! ## A round of the accept loop -/

/-- The stack of a thread on which the accept loop has spawned a coroutine. -/
def spawned (coro : Coro) : SpawnMode → List Coro
  | .inline => [coro, .listener]
  | .posted => [.listener]

/-- The accept loop assigns to the new connection and goes on. -/
theorem InRound.assigns (round : InRound start t stack pc link s)
    (f : ConnectionImpl TaggedByte → ConnectionImpl TaggedByte)
    (sameClient : (f link.conn).sshClient = link.conn.sshClient) (pc' : ListenerPc) :
    InRound start t stack pc' { link with conn := f link.conn }
      ((s.onState (.setConn · start.connectionList.length f)).setListener pc') where
  runs := round.runs
  listener := rfl
  threads := round.threads
  conns := by
    simp [onState, setListener, ListenerState.setConn, round.conns, modify_concat]
  linked := by
    obtain ⟨foundConn, c, uses, foundClient, channel, opened, foundChannel⟩ :=
      link_eq_some round.linked
    simp [Server.link, onState, setListener, ListenerState.setConn, foundConn, sameClient, uses,
      foundClient, opened, foundChannel]

theorem InRound.spawnsPull
    (round : InRound start t [.listener] (.clientSet start.connectionList.length) link s) :
    ∃ s', (serverMachine T mode clientState).Leads s s' ∧
      InRound start t (spawned (.pull start.connectionList.length) mode)
        (.pullSpawned start.connectionList.length)
        { link with conn := { link.conn with pull := Link.pullStart mode } } s' := by
  have after := round.assigns (fun conn => { conn with pull := Link.pullStart mode }) rfl
    (.pullSpawned start.connectionList.length)
  cases mode with
  | posted =>
      refine ⟨_, .step (a := .run t) ?_, after⟩
      simp [serverMachine, Server.step, round.runs, round.head, coroStep, listenerStep,
        round.listener, applyEffect, ListenerState.spawnPull]
  | inline =>
      refine ⟨_, .step (a := .run t) ?_, after.setStack _⟩
      simp [serverMachine, Server.step, round.runs, round.threads, coroStep, listenerStep,
        round.listener, applyEffect, ListenerState.spawnPull, spawned, after.threads]

theorem InRound.spawnsPush
    (round : InRound start t [.listener] (.pullSpawned start.connectionList.length) link s) :
    ∃ s', (serverMachine T mode clientState).Leads s s' ∧
      InRound start t (spawned (.push start.connectionList.length) mode) .loopTop
        { link with conn := { link.conn with push := Link.pushStart mode } } s' := by
  have after := round.assigns (fun conn => { conn with push := Link.pushStart mode }) rfl .loopTop
  cases mode with
  | posted =>
      refine ⟨_, .step (a := .run t) ?_, after⟩
      simp [serverMachine, Server.step, round.runs, round.head, coroStep, listenerStep,
        round.listener, applyEffect, ListenerState.spawnPush]
  | inline =>
      refine ⟨_, .step (a := .run t) ?_, after.setStack _⟩
      simp [serverMachine, Server.step, round.runs, round.threads, coroStep, listenerStep,
        round.listener, applyEffect, ListenerState.spawnPush, spawned, after.threads]

/-- The accept loop waits for the next client. -/
theorem InRound.listens (round : InRound start t [.listener] .loopTop link s) :
    ∃ s', (serverMachine T mode clientState).Leads s s' ∧
      InRound start t [] .accepting link s' := by
  have waits : InRound start t [.listener] .accepting link (s.setListener .accepting) :=
    ⟨round.runs, rfl, round.threads, round.conns, round.linked⟩
  refine ⟨_, .step (a := .run t) ?_, waits.parks mode⟩
  simp [serverMachine, Server.step, round.runs, round.head, coroStep, listenerStep, round.listener]

/-- The read of the new connection returns. -/
theorem InRound.returns {rest : List Coro}
    (round : InRound start t (.pull start.connectionList.length :: rest) pc link s)
    (result : ReadResult UInt8) (inRead : link.conn.pull = .inRead) :
    ∃ s' tag, (serverMachine T mode clientState).Leads s s' ∧
      InRound start t (.pull start.connectionList.length :: rest) pc
        { link.setPull (.readDone (result.map tag)) with
          channel := { link.channel with
            returned := link.channel.returned ++ (result.map tag).bytes } } s' := by
  obtain ⟨channel, named⟩ := channelOf_of_link round.linked
  have ended : ∀ got : ReadResult TaggedByte, link.act (.pullReturn got) =
      some { link.setPull (.readDone got) with
        channel := { link.channel with returned := link.channel.returned ++ got.bytes } } := by
    intro got
    rw [Link.act, Link.pullReturn, inRead]
  refine ⟨_, fun byte => ⟨byte, .channel channel⟩, .step (a := .readDone t result) ?_,
    round.setLink (Link.frame_act (ended _))⟩
  have returned := ended (result.map fun byte => ⟨byte, .channel channel⟩)
  rw [Link.act] at returned
  simp [serverMachine, Server.step, round.runs, round.head, named, onLink, round.linked, returned]

/-- The `async_write` of the new connection completes. -/
theorem InRound.wakes (round : InRound start t stack pc link s) (ec : Bool)
    (woken : link.pullWake ec = some next) :
    ∃ s', (serverMachine T mode clientState).Leads s s' ∧ InRound start t stack pc next s' := by
  have acted : link.act (.pullWake ec) = some next := woken
  refine ⟨_, .step (a := .localWritten start.connectionList.length ec) ?_,
    round.setLink (Link.frame_act acted)⟩
  simp [serverMachine, Server.step, round.runs, onLink, round.linked, woken]

/-- `runPush` gets to its `async_read_some`. -/
theorem InRound.pushParks {rest : List Coro}
    (round : InRound start t (.push start.connectionList.length :: rest) pc link s)
    (stepped : link.pushStep = some (next, .parks)) :
    ∃ s', (serverMachine T mode clientState).Leads s s' ∧ InRound start t rest pc next s' := by
  refine ⟨_, .step (a := .run t) ?_, (round.setLink (Link.frame_pushStep stepped)).parks mode⟩
  simp [serverMachine, Server.step, round.runs, round.head, coroStep, pumpStep, round.linked,
    stepped]

/-- The idle thread takes the new `runPull` up. -/
theorem InRound.resumesPull (round : InRound start t [] pc link s)
    (resumed : link.pullResume = some next) :
    ∃ s', (serverMachine T mode clientState).Leads s s' ∧
      InRound start t [.pull start.connectionList.length] pc next s' := by
  have acted : link.act .pullResume = some next := resumed
  refine ⟨_, .step (a := .resume t (.pull start.connectionList.length)) ?_,
    (round.setLink (Link.frame_act acted)).setStack _⟩
  simp [serverMachine, Server.step, round.runs, round.threads, coroResume, onLink, round.linked,
    resumed]

/-- Every thread before `count` is held by a connection whose remote is silent, the
others are idle, and the accept loop waits for a client. -/
structure Held (count : ℕ) (s : Server T) : Prop where
  runs : s.terminated = false
  accepting : s.listener = .accepting
  conns : s.connectionList.length = count
  held : ∀ t : Fin T, t.val < count → s.HeldByPull t
  idle : ∀ t : Fin T, count ≤ t.val → s.threads t = []

/-- A round that ends with the new connection in its read holds one thread more. -/
theorem InRound.held {count : ℕ} (before : Held count start) (here : t.val = count)
    (round : InRound start t [.pull start.connectionList.length] .accepting link s)
    (inRead : link.conn.pull = .inRead) : Held (count + 1) s where
  runs := round.runs
  accepting := round.listener
  conns := by rw [round.conns, List.length_append, before.conns, List.length_singleton]
  held := by
    intro t' inside
    by_cases same : t' = t
    · subst same
      exact ⟨_, link.conn, round.head, by simp [round.conns], inRead⟩
    · have earlier : t'.val < count := by
        have : t'.val ≠ t.val := fun eq => same (Fin.ext eq)
        omega
      obtain ⟨i, conn, top, found, pc⟩ := before.held t' earlier
      refine ⟨i, conn, ?_, ?_, pc⟩
      · rw [round.threads, Function.update_of_ne same]
        exact top
      · rw [round.conns, List.getElem?_append_left (List.getElem?_eq_some_iff.mp found).1]
        exact found
  idle := by
    intro t' outside
    have other : t' ≠ t := by
      rintro rfl
      omega
    rw [round.threads, Function.update_of_ne other]
    exact before.idle t' (by omega)

/-- A round whose pumps are queued: the thread takes `runPull` up. -/
theorem holds_posted
    (round : InRound start t [.listener] (.clientSet start.connectionList.length) link s) :
    ∃ s' last, (serverMachine T .posted clientState).Leads s s' ∧
      InRound start t [.pull start.connectionList.length] .accepting last s' ∧
        last.conn.pull = .inRead := by
  obtain ⟨s₁, leads₁, round₁⟩ := round.spawnsPull .posted clientState
  obtain ⟨s₂, leads₂, round₂⟩ := InRound.spawnsPush .posted clientState round₁
  obtain ⟨s₃, leads₃, round₃⟩ := InRound.listens .posted clientState round₂
  obtain ⟨s₄, leads₄, round₄⟩ := round₃.resumesPull .posted clientState rfl
  obtain ⟨s₅, leads₅, round₅⟩ := InRound.pullSteps .posted clientState (n := 3) round₄ rfl
  exact ⟨s₅, _, (((leads₁.trans leads₂).trans leads₃).trans leads₄).trans leads₅, round₅, rfl⟩

/-- A byte the remote of a new connection sends. -/
def greeting : ReadResult UInt8 := .chunk [0] (by decide) (by decide)

/-- A round whose pumps start inline: the remote sends once, so that the accept
loop under them goes on, and then falls silent. -/
theorem holds_inline
    (round : InRound start t [.listener] (.clientSet start.connectionList.length) link s) :
    ∃ s' last, (serverMachine T .inline clientState).Leads s s' ∧
      InRound start t [.pull start.connectionList.length] .accepting last s' ∧
        last.conn.pull = .inRead := by
  obtain ⟨s₁, leads₁, round₁⟩ := round.spawnsPull .inline clientState
  obtain ⟨s₂, leads₂, round₂⟩ := InRound.pullSteps .inline clientState (n := 3) round₁ rfl
  obtain ⟨s₃, tag, leads₃, round₃⟩ := InRound.returns .inline clientState round₂ greeting rfl
  obtain ⟨s₄, leads₄, round₄⟩ := InRound.pullSteps .inline clientState (n := 4) round₃ rfl
  obtain ⟨s₅, leads₅, round₅⟩ := InRound.pullParks .inline clientState round₄ rfl
  obtain ⟨s₆, leads₆, round₆⟩ := InRound.spawnsPush .inline clientState round₅
  obtain ⟨s₇, leads₇, round₇⟩ := InRound.pushParks .inline clientState round₆ rfl
  obtain ⟨s₈, leads₈, round₈⟩ := InRound.listens .inline clientState round₇
  obtain ⟨s₉, leads₉, round₉⟩ := round₈.wakes .inline clientState false rfl
  obtain ⟨s₁₀, leads₁₀, round₁₀⟩ := round₉.resumesPull .inline clientState rfl
  obtain ⟨s₁₁, leads₁₁, round₁₁⟩ := InRound.pullSteps .inline clientState (n := 4) round₁₀ rfl
  have toWrite := (((leads₁.trans leads₂).trans leads₃).trans leads₄).trans leads₅
  have toAccept := (leads₆.trans leads₇).trans leads₈
  exact ⟨s₁₁, _, (toWrite.trans toAccept).trans ((leads₉.trans leads₁₀).trans leads₁₁), round₁₁,
    rfl⟩

/-- **A round of the accept loop holds one thread more**, in both modes of `spawn`. -/
theorem round {count : ℕ} (before : Held count start) (free : count < T) :
    ∃ s, (serverMachine T mode clientState).Leads start s ∧ Held (count + 1) s := by
  have idle := before.idle ⟨count, free⟩ (Nat.le_refl _)
  obtain ⟨s₁, leads₁, setUp₁⟩ :=
    accepts_client mode clientState before.runs before.accepting idle
  obtain ⟨s₂, leads₂, setUp₂⟩ := setUp₁.connects mode clientState rfl
  obtain ⟨s₃, leads₃, round₃⟩ := setUp₂.opens mode clientState rfl
  have holds : ∃ s' last, (serverMachine T mode clientState).Leads s₃ s' ∧
      InRound start ⟨count, free⟩ [.pull start.connectionList.length] .accepting last s' ∧
        last.conn.pull = .inRead := by
    cases mode with
    | posted => exact holds_posted clientState round₃
    | inline => exact holds_inline clientState round₃
  obtain ⟨s₄, last, leads₄, round₄, inRead⟩ := holds
  exact ⟨s₄, ((leads₁.trans leads₂).trans leads₃).trans leads₄, round₄.held before rfl inRead⟩

/-- The accept loop starts and waits for its first client. -/
theorem held_zero (positive : 0 < T) :
    ∃ s, (serverMachine T mode clientState).Reachable s ∧ Held 0 s := by
  refine ⟨{ clientState := clientState, listener := .accepting },
    ⟨[.resume ⟨0, positive⟩ .listener, .setupDone ⟨0, positive⟩ (.bound true), .run ⟨0, positive⟩],
      ?_⟩, rfl, rfl, rfl, fun t inside => absurd inside (Nat.not_lt_zero _), fun _ _ => rfl⟩
  simp [serverMachine, Server.step, coroResume, setListener, listenerReturn, coroStep, listenerStep,
    applyEffect, Server.setStack]

/-- As many connections as there are threads can hold all of them. -/
theorem held_all (positive : 0 < T) {count : ℕ} (enough : count ≤ T) :
    ∃ s, (serverMachine T mode clientState).Reachable s ∧ Held count s := by
  induction count with
  | zero => exact held_zero mode clientState positive
  | succ count ih =>
      obtain ⟨s, reached, before⟩ := ih (Nat.le_of_succ_le enough)
      obtain ⟨next, leads, after⟩ := round mode clientState before enough
      exact ⟨next, reached.leads leads, after⟩

end Rounds

end Server

/-- **The pool starves exactly when it may get as many connections as it has
threads.** -/
theorem neverStarved_iff (T : ℕ) (mode : SpawnMode) (clientState : ClientState)
    (connections : ℕ) :
    (∀ s, (serverMachine T mode clientState).Reachable s →
      s.connectionList.length ≤ connections → ¬ s.Starved) ↔ connections < T := by
  constructor
  · intro never
    by_contra atLeast
    rcases Nat.eq_zero_or_pos T with none | positive
    · subst none
      refine never _ (Lib.Machine.reachable_init _) (Nat.zero_le _) ⟨fun t => t.elim0, Or.inl ?_⟩
      exact ⟨.listener, rfl⟩
    · obtain ⟨s, reached, held⟩ := Server.held_all mode clientState positive (Nat.le_refl T)
      have arrives : (serverMachine T mode clientState).step s .clientArrives =
          some { s with backlog := s.backlog + 1 } := by
        simp [serverMachine, Server.step, held.runs]
      have few : s.connectionList.length ≤ connections := by
        rw [held.conns]
        omega
      exact never _ (reached.step arrives) few
        ⟨fun t => held.held t t.isLt, Or.inr (Nat.succ_pos _)⟩
  · intro fewer s reached few starved
    have := Server.threads_le_of_held reached starved.1
    omega

/-- One connection with a silent remote on one thread, and a second client. -/
def silentRemote : List (ServerAction 1) :=
  acceptsOne onlyThread ++
    [.resume onlyThread (.pull 0), .run onlyThread, .run onlyThread, .run onlyThread,
      .clientArrives]

/-- **A silent remote starves the server.** -/
theorem not_neverStarved_silentRemote :
    ¬ ∀ s, (serverMachine 1 .posted {}).Reachable s → ¬ s.Starved := by
  intro never
  refine never _ ⟨silentRemote, rfl⟩ ⟨fun t => ⟨0, _, ?_, rfl, rfl⟩, Or.inr (Nat.succ_pos _)⟩
  rw [Subsingleton.elim t onlyThread]
  rfl

end BookFilerSsh
