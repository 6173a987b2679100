import BookFilerSsh.Lib.Tables
import BookFilerSsh.Tunnel.Server

/-!
# What a step of the tunnel server can do

`Server.Moves` lists the kinds of steps the server has, each with the call that
makes it, and `Server.step_moves` says that there are no others. A step of a pump
is an action on its link, which leaves the shape of the connection as it is:
whose client it uses and which of its pumps are spawned.

The layout of the server says how the accept loop, the connections and the
clients fit together: the connection of the running iteration is the last one,
the `i`-th connection uses the `i`-th client or none, and it has no pump before
it has a client. Every reachable state has this layout (`Server.layout`).
-/

set_option autoImplicit false

namespace BookFilerSsh

open Lib.Tables

/-! ## The kinds of steps -/

namespace Server

variable {T : ℕ}

/-- What a step of the server can do. -/
inductive Moves (mode : SpawnMode) (s : Server T) : ServerAction T → Server T → Prop where
  | listenerRuns {t : Fin T} {next : Server T} {effect : Effect}
      (top : (s.threads t).head? = some .listener)
      (stepped : s.listenerStep mode = some (next, effect)) :
      Moves mode s (.run t) (next.applyEffect mode t effect)
  | pullRuns {t : Fin T} {i : ℕ} {link next : Link TaggedByte} {effect : Effect}
      (top : (s.threads t).head? = some (.pull i)) (linked : s.link i = some link)
      (stepped : link.pullStep = some (next, effect)) :
      Moves mode s (.run t) ((s.setLink i next).applyEffect mode t effect)
  | pushRuns {t : Fin T} {i : ℕ} {link next : Link TaggedByte} {effect : Effect}
      (top : (s.threads t).head? = some (.push i)) (linked : s.link i = some link)
      (stepped : link.pushStep = some (next, effect)) :
      Moves mode s (.run t) ((s.setLink i next).applyEffect mode t effect)
  | listenerStarts {t : Fin T} (idle : s.threads t = []) (pc : s.listener = .spawned) :
      Moves mode s (.resume t .listener) ((s.setListener .binding).setStack t [.listener])
  | listenerResumes {t : Fin T} {ec : Bool} (idle : s.threads t = [])
      (pc : s.listener = .accepted ec) :
      Moves mode s (.resume t .listener) ((s.setListener (.resumed ec)).setStack t [.listener])
  | pullResumes {t : Fin T} {i : ℕ} {link next : Link TaggedByte} (idle : s.threads t = [])
      (linked : s.link i = some link) (resumed : link.pullResume = some next) :
      Moves mode s (.resume t (.pull i)) ((s.setLink i next).setStack t [.pull i])
  | pushResumes {t : Fin T} {i : ℕ} {link next : Link TaggedByte} (idle : s.threads t = [])
      (linked : s.link i = some link) (resumed : link.pushResume = some next) :
      Moves mode s (.resume t (.push i)) ((s.setLink i next).setStack t [.push i])
  | setUpReturns {t : Fin T} {answer : SetupAnswer} {next : Server T}
      (top : (s.threads t).head? = some .listener)
      (ended : s.listenerReturn answer = some next) : Moves mode s (.setupDone t answer) next
  | readReturns {t : Fin T} {i : ℕ} {link next : Link TaggedByte} {channel : ChannelId}
      {result : ReadResult UInt8} (top : (s.threads t).head? = some (.pull i))
      (linked : s.link i = some link) (named : s.channelOf i = some channel)
      (ended : link.pullReturn (result.map fun byte => ⟨byte, .channel channel⟩) = some next) :
      Moves mode s (.readDone t result) (s.setLink i next)
  | writeReturns {t : Fin T} {i : ℕ} {link next : Link TaggedByte} {result : Int}
      (top : (s.threads t).head? = some (.push i)) (linked : s.link i = some link)
      (ended : link.pushReturn result = some next) :
      Moves mode s (.writeDone t result) (s.setLink i next)
  | clientArrives : Moves mode s .clientArrives { s with backlog := s.backlog + 1 }
  | acceptFails (pc : s.listener = .accepting) :
      Moves mode s (.acceptDone true) (s.setListener (.accepted true))
  | accepts (pc : s.listener = .accepting) (waiting : s.backlog ≠ 0) :
      Moves mode s (.acceptDone false)
        { s.setListener (.accepted false) with backlog := s.backlog - 1 }
  | readsLocal {i : ℕ} {link next : Link TaggedByte} {completion : SrcReadEnd UInt8}
      (linked : s.link i = some link)
      (woken : link.pushWake (completion.map fun byte => ⟨byte, .socket i⟩) = some next) :
      Moves mode s (.localRead i completion) (s.setLink i next)
  | writesLocal {i : ℕ} {link next : Link TaggedByte} {ec : Bool}
      (linked : s.link i = some link) (woken : link.pullWake ec = some next) :
      Moves mode s (.localWritten i ec) (s.setLink i next)

theorem onLink_eq_some {s s' : Server T} {i : ℕ}
    {f : Link TaggedByte → Option (Link TaggedByte)} (stepped : s.onLink i f = some s') :
    ∃ link next, s.link i = some link ∧ f link = some next ∧ s' = s.setLink i next := by
  simp only [onLink, Option.bind_eq_bind, Option.bind_eq_some_iff, Option.pure_def,
    Option.some.injEq] at stepped
  obtain ⟨link, linked, next, moved, rfl⟩ := stepped
  exact ⟨link, next, linked, moved, rfl⟩

theorem pumpStep_eq_some {s : Server T} {i : ℕ}
    {f : Link TaggedByte → Option (Link TaggedByte × Effect)} {after : Server T × Effect}
    (stepped : s.pumpStep i f = some after) :
    ∃ link next, s.link i = some link ∧ f link = some (next, after.2) ∧
      after.1 = s.setLink i next := by
  simp only [pumpStep, Option.bind_eq_bind, Option.bind_eq_some_iff, Option.pure_def,
    Option.some.injEq] at stepped
  obtain ⟨link, linked, ⟨next, effect⟩, moved, rfl⟩ := stepped
  exact ⟨link, next, linked, moved, rfl⟩

/-- **Every step is one of these.** -/
theorem step_moves {mode : SpawnMode} {s s' : Server T} {action : ServerAction T}
    (stepped : s.step mode action = some s') :
    s.terminated = false ∧ Moves mode s action s' := by
  unfold step at stepped
  split at stepped
  · cases stepped
  rename_i running
  refine ⟨by simpa using running, ?_⟩
  cases action with
  | run t =>
      simp only [Option.bind_eq_bind, Option.bind_eq_some_iff, Option.pure_def,
        Option.some.injEq] at stepped
      obtain ⟨coro, top, ⟨next, effect⟩, ran, rfl⟩ := stepped
      cases coro with
      | listener => exact .listenerRuns top ran
      | pull i =>
          obtain ⟨link, after, linked, moved, same⟩ := pumpStep_eq_some ran
          simp only at same moved
          subst same
          exact .pullRuns top linked moved
      | push i =>
          obtain ⟨link, after, linked, moved, same⟩ := pumpStep_eq_some ran
          simp only at same moved
          subst same
          exact .pushRuns top linked moved
  | resume t coro =>
      simp only at stepped
      split at stepped
      · rename_i idle
        simp only [Option.bind_eq_bind, Option.bind_eq_some_iff, Option.pure_def,
          Option.some.injEq] at stepped
        obtain ⟨next, resumed, rfl⟩ := stepped
        cases coro with
        | listener =>
            simp only [coroResume] at resumed
            split at resumed <;> cases resumed
            · rename_i pc
              exact .listenerStarts idle pc
            · rename_i pc
              exact .listenerResumes idle pc
        | pull i =>
            obtain ⟨link, after, linked, moved, rfl⟩ := onLink_eq_some resumed
            exact .pullResumes idle linked moved
        | push i =>
            obtain ⟨link, after, linked, moved, rfl⟩ := onLink_eq_some resumed
            exact .pushResumes idle linked moved
      · cases stepped
  | setupDone t answer =>
      simp only at stepped
      split at stepped
      · rename_i top
        exact .setUpReturns top stepped
      · cases stepped
  | readDone t result =>
      simp only at stepped
      split at stepped
      · rename_i i top
        simp only [Option.bind_eq_bind, Option.bind_eq_some_iff] at stepped
        obtain ⟨channel, named, ended⟩ := stepped
        obtain ⟨link, after, linked, moved, rfl⟩ := onLink_eq_some ended
        exact .readReturns top linked named moved
      · cases stepped
  | writeDone t result =>
      simp only at stepped
      split at stepped
      · rename_i i top
        obtain ⟨link, after, linked, moved, rfl⟩ := onLink_eq_some stepped
        exact .writeReturns top linked moved
      · cases stepped
  | clientArrives =>
      cases stepped
      exact .clientArrives
  | acceptDone ec =>
      simp only at stepped
      split at stepped
      · rename_i pc
        cases ec with
        | true =>
            cases stepped
            exact .acceptFails pc
        | false =>
            simp only [Bool.false_eq_true, if_false] at stepped
            split at stepped
            · cases stepped
            · rename_i waiting
              cases stepped
              exact .accepts pc waiting
      · cases stepped
  | localRead i completion =>
      obtain ⟨link, after, linked, moved, rfl⟩ := onLink_eq_some stepped
      exact .readsLocal linked moved
  | localWritten i ec =>
      obtain ⟨link, after, linked, moved, rfl⟩ := onLink_eq_some stepped
      exact .writesLocal linked moved

end Server

/-! ## The shape of a connection -/

/-- `boost::asio::spawn` was called for this pump. -/
def PullPc.isSpawned {β : Type} : PullPc β → Bool
  | .unspawned => false
  | _ => true

/-- `boost::asio::spawn` was called for this pump. -/
def PushPc.isSpawned {β : Type} : PushPc β → Bool
  | .unspawned => false
  | _ => true

/-- The client a connection uses and which of its pumps are spawned. -/
structure Shape where
  client : Option ℕ := none
  pull : Bool := false
  push : Bool := false
  deriving DecidableEq, Repr

/-- The shape of a connection. -/
def ConnectionImpl.shape {β : Type} (conn : ConnectionImpl β) : Shape where
  client := conn.sshClient
  pull := conn.pull.isSpawned
  push := conn.push.isSpawned

namespace Link

variable {β : Type}

/-- What no action of a pump changes. -/
structure Frame (link next : Link β) : Prop where
  shape : next.conn.shape = link.conn.shape
  commandChannel : next.client.commandChannel = link.client.commandChannel
  listenChannel : next.client.listenChannel = link.client.listenChannel
  session : next.client.session = link.client.session
  isOpen : next.conn.srcSocket.isOpen = link.conn.srcSocket.isOpen
  owner : next.channel.session = link.channel.session
  released : next.channel.released = link.channel.released

theorem frame_pullStep {link next : Link β} {effect : Effect}
    (stepped : link.pullStep = some (next, effect)) : Frame link next := by
  unfold pullStep at stepped
  split at stepped <;> try split at stepped
  all_goals cases stepped
  all_goals rename_i pc
  all_goals constructor <;>
    simp_all [ConnectionImpl.shape, PullPc.isSpawned, setPull, setClient, handOver,
      ClientImpl.clearRead, ClientImpl.appendRead, ClientImpl.countRead, outerRc]

theorem frame_pushStep {link next : Link β} {effect : Effect}
    (stepped : link.pushStep = some (next, effect)) : Frame link next := by
  unfold pushStep at stepped
  split at stepped <;> try split at stepped
  all_goals cases stepped
  all_goals rename_i pc
  all_goals constructor <;>
    simp_all [ConnectionImpl.shape, PushPc.isSpawned, setPush, setClient,
      ClientImpl.countWritten]

/-- **No action changes the shape of the connection, or closes anything.** -/
theorem frame_act {link next : Link β} {action : LinkAction β}
    (acted : link.act action = some next) : Frame link next := by
  cases action with
  | pullStep =>
      obtain ⟨⟨after, effect⟩, stepped, rfl⟩ := Option.map_eq_some_iff.mp acted
      exact frame_pullStep stepped
  | pushStep =>
      obtain ⟨⟨after, effect⟩, stepped, rfl⟩ := Option.map_eq_some_iff.mp acted
      exact frame_pushStep stepped
  | _ =>
      simp only [act, pullReturn, pullWake, pullResume, pushReturn, pushWake, pushResume] at acted
      split at acted <;> try split at acted
      all_goals cases acted
      all_goals constructor <;>
        simp_all [ConnectionImpl.shape, PullPc.isSpawned, PushPc.isSpawned, setPull, setPush,
          fillBuffer]

end Link

/-! ## The layout -/

/-- How the connections and clients stand at each position of the accept loop. In
an iteration the connection is the last one. -/
def ListenerPc.Fits (shapes : List Shape) (clients : ℕ) : ListenerPc → Prop
  | .published i | .identified i =>
      clients = i ∧ ∃ before, shapes = before ++ [{}] ∧ before.length = i
  | .connecting i c | .creating i c | .handshaking i c | .authenticating i c | .opening i c
  | .dropping i c | .tunnelled i c =>
      c = i ∧ clients = i + 1 ∧ ∃ before, shapes = before ++ [{}] ∧ before.length = i
  | .clientSet i =>
      clients = i + 1 ∧
        ∃ before, shapes = before ++ [{ client := some i }] ∧ before.length = i
  | .pullSpawned i =>
      clients = i + 1 ∧
        ∃ before, shapes = before ++ [{ client := some i, pull := true }] ∧ before.length = i
  | _ => clients = shapes.length

/-- The connections and clients fit the position of the accept loop, and a
connection uses the client of its own iteration. -/
structure Layout (pc : ListenerPc) (shapes : List Shape) (clients : ℕ) : Prop where
  fits : pc.Fits shapes clients
  own : ∀ (i : ℕ) (shape : Shape), shapes[i]? = some shape → shape = {} ∨ shape.client = some i

/-- The connection and the client whose set-up is in a call. -/
def ListenerPc.inSetUp : ListenerPc → Option (ℕ × ℕ)
  | .connecting i c | .creating i c | .handshaking i c | .authenticating i c | .opening i c
  | .dropping i c => some (i, c)
  | _ => none

theorem ListenerPc.fits_inSetUp {pc : ListenerPc} {i c : ℕ} (here : pc.inSetUp = some (i, c))
    (shapes : List Shape) (clients : ℕ) :
    pc.Fits shapes clients ↔
      c = i ∧ clients = i + 1 ∧
        ∃ before, shapes = before ++ [({} : Shape)] ∧ before.length = i := by
  cases pc <;> simp_all [inSetUp, Fits]

/-- Every connection has its client, except that of an iteration that has not
created one. -/
theorem ListenerPc.Fits.count {pc : ListenerPc} {shapes : List Shape} {clients : ℕ}
    (fits : pc.Fits shapes clients) :
    clients = shapes.length ∨
      ∃ before, shapes = before ++ [({} : Shape)] ∧ clients = before.length := by
  cases pc with
  | published i | identified i =>
      obtain ⟨rfl, before, rfl, last⟩ := fits
      exact Or.inr ⟨before, rfl, last.symm⟩
  | connecting i c | creating i c | handshaking i c | authenticating i c | opening i c
  | dropping i c | tunnelled i c =>
      obtain ⟨-, rfl, before, rfl, last⟩ := fits
      exact Or.inl (by simp [last])
  | clientSet i | pullSpawned i =>
      obtain ⟨rfl, before, rfl, last⟩ := fits
      exact Or.inl (by simp [last])
  | _ => exact Or.inl fits

namespace Server

variable {T : ℕ}

/-- What a statement of the accept loop can do. -/
inductive ListenerMoves (mode : SpawnMode) (s : Server T) : Server T → Prop where
  | returns (here : s.listener = .unbound) : ListenerMoves mode s (s.setListener .returned)
  | accepts (here : s.listener = .loopTop) : ListenerMoves mode s (s.setListener .accepting)
  | retries (here : s.listener = .resumed true) : ListenerMoves mode s (s.setListener .loopTop)
  | publishes (here : s.listener = .resumed false) :
      ListenerMoves mode s
        ((s.onState .publish).setListener (.published s.connectionList.length))
  | numbers {i : ℕ} (here : s.listener = .published i) :
      ListenerMoves mode s ((s.onState (.setId · i)).setListener (.identified i))
  | creates {i : ℕ} (here : s.listener = .identified i) :
      ListenerMoves mode s
        (((s.onState .makeClient).record (.created i s.clients.length)).setListener
          (.connecting i s.clients.length))
  | hands {i c : ℕ} (here : s.listener = .tunnelled i c) :
      ListenerMoves mode s ((s.onState (.setSshClient · i c)).setListener (.clientSet i))
  | spawnsPull {i : ℕ} (here : s.listener = .clientSet i) :
      ListenerMoves mode s ((s.onState (.spawnPull · mode i)).setListener (.pullSpawned i))
  | spawnsPush {i : ℕ} (here : s.listener = .pullSpawned i) :
      ListenerMoves mode s ((s.onState (.spawnPush · mode i)).setListener .loopTop)

theorem listenerStep_moves {mode : SpawnMode} {s next : Server T} {effect : Effect}
    (stepped : s.listenerStep mode = some (next, effect)) : ListenerMoves mode s next := by
  unfold listenerStep at stepped
  split at stepped <;> rename_i here <;> try split at stepped
  all_goals cases stepped
  · exact .returns here
  · exact .accepts here
  · rename_i failed
    exact .retries (failed ▸ here)
  · rename_i ec accepted
    obtain rfl : ec = false := eq_false_of_ne_true accepted
    exact .publishes here
  · exact .numbers here
  · exact .creates here
  · exact .hands here
  · exact .spawnsPull here
  · exact .spawnsPush here

/-- What the end of a call of the accept loop can do. -/
inductive SetUpMoves (s : Server T) : Server T → Prop where
  | binds {pc : ListenerPc} (here : s.listener = .binding) (goes : pc = .loopTop ∨ pc = .unbound) :
      SetUpMoves s (s.setListener pc)
  | faults {i c : ℕ} {ctx after : Ctx TaggedByte} (here : s.listener.inSetUp = some (i, c))
      (found : s.ctx c = some ctx) (quiet : ctx.Quiet after) :
      SetUpMoves s (s.onState (.setCtx · c after)).terminate
  | goesOn {i c : ℕ} {pc : ListenerPc} {ctx after : Ctx TaggedByte}
      (here : s.listener.inSetUp = some (i, c)) (there : pc.inSetUp = some (i, c))
      (found : s.ctx c = some ctx) (quiet : ctx.Quiet after) :
      SetUpMoves s ((s.onState (.setCtx · c after)).setListener pc)
  | opens {i c : ℕ} {sid : SessionId} {ctx : Ctx TaggedByte} (here : s.listener = .opening i c)
      (found : s.ctx c = some ctx) (session : ctx.client.session = some sid) :
      SetUpMoves s (((s.onState (.setCtx · c (ctx.openCommandChannel true))).record
        (.opened c s.lib.channels.length)).setListener (.tunnelled i c))
  | drops {i c : ℕ} {ctx after : Ctx TaggedByte} (here : s.listener = .dropping i c)
      (found : s.ctx c = some ctx) (quiet : ctx.Quiet after) :
      SetUpMoves s ((s.onState (.setCtx · c after)).setListener .loopTop)

open Lib.Effects

theorem onClient_eq_some {α : Type} {s s' : Server T} {c : ℕ} {call : ClientM TaggedByte α}
    {next : α → Server T → Server T} (stepped : s.onClient c call next = some s') :
    ∃ ctx, s.ctx c = some ctx ∧
      ((∃ a, s' = next a (s.onState (.setCtx · c (finalState (call ctx))))) ∨
        s' = (s.onState (.setCtx · c (finalState (call ctx)))).terminate) := by
  simp only [onClient, Option.bind_eq_bind, Option.bind_eq_some_iff] at stepped
  obtain ⟨ctx, found, stepped⟩ := stepped
  refine ⟨ctx, found, ?_⟩
  split at stepped <;> rename_i ran <;> cases stepped
  · exact Or.inl ⟨_, by rw [ran]; rfl⟩
  · exact Or.inr (by rw [ran]; rfl)

/-- A call of the set-up that is quiet, after which the set-up goes on. -/
theorem setUp_goesOn {α : Type} {s s' : Server T} {i c : ℕ} {call : ClientM TaggedByte α}
    {pc : ListenerPc} (here : s.listener.inSetUp = some (i, c)) (there : pc.inSetUp = some (i, c))
    (quiet : ∀ ctx : Ctx TaggedByte, ctx.Quiet (finalState (call ctx)))
    (stepped : s.onClient c call (fun _ s => s.setListener pc) = some s') : SetUpMoves s s' := by
  obtain ⟨ctx, found, ⟨_, rfl⟩ | rfl⟩ := onClient_eq_some stepped
  · exact .goesOn here there found (quiet ctx)
  · exact .faults here found (quiet ctx)

theorem listenerReturn_moves {s s' : Server T} {answer : SetupAnswer}
    (ended : s.listenerReturn answer = some s') : SetUpMoves s s' := by
  unfold listenerReturn at ended
  split at ended
  · rename_i ok here
    cases ended
    exact .binds here (by cases ok <;> simp)
  · rename_i i c outcome here
    exact setUp_goesOn (by rw [here]; rfl) rfl
      (fun ctx => (ClientImpl.quiet_connectSocket ctx outcome ctx (.refl ctx)).final) ended
  · rename_i i c created here
    exact setUp_goesOn (by rw [here]; rfl) rfl
      (fun ctx => (ClientImpl.quiet_createSSHSession ctx created ctx (.refl ctx)).final) ended
  · rename_i i c rc here
    split at ended
    · exact setUp_goesOn (by rw [here]; rfl) rfl
        (fun ctx => (ClientImpl.quiet_sessionCall ctx rc ctx (.refl ctx)).final) ended
    · refine setUp_goesOn (by rw [here]; rfl) rfl (fun ctx => ?_) ended
      exact ((ClientImpl.quiet_sessionCall ctx rc).bind
        (fun _ => ClientImpl.quiet_startThreadIo ctx) ctx (.refl ctx)).final
  · rename_i i c rc here
    refine setUp_goesOn (by rw [here]; rfl) (by split <;> rfl) (fun ctx => ?_) ended
    exact (ClientImpl.quiet_sessionCall ctx rc ctx (.refl ctx)).final
  · rename_i i c opened here
    simp only [onClient, ClientImpl.tunnel_run, Option.bind_eq_bind, Option.bind_eq_some_iff,
      Option.pure_def, Option.some.injEq] at ended
    obtain ⟨ctx, found, ended⟩ := ended
    by_cases refused : (ctx.openCommandChannel opened).client.commandChannel = none
    · simp only [refused, Option.isNone_none, if_true, Int.reduceNeg, Int.reduceLT] at ended
      subst ended
      exact .goesOn (by rw [here]; rfl) rfl found (ctx.quiet_openCommandChannel refused)
    · obtain ⟨rfl, sid, session⟩ := Ctx.session_of_openCommandChannel refused
      simp only [Option.isNone_iff_eq_none, refused, if_false, lt_irrefl] at ended
      subst ended
      exact .opens here found session
  · rename_i i c results here
    obtain ⟨ctx, found, ⟨_, rfl⟩ | rfl⟩ := onClient_eq_some ended
    · exact .drops here found (ClientImpl.quiet_destruct results ctx)
    · exact .faults (by rw [here]; rfl) found (ClientImpl.quiet_destruct results ctx)
  · cases ended

/-- What a link is made of. -/
theorem link_eq_some {s : Server T} {i : ℕ} {link : Link TaggedByte}
    (linked : s.link i = some link) :
    s.connectionList[i]? = some link.conn ∧
      ∃ c, link.conn.sshClient = some c ∧ s.clients[c]? = some link.client ∧
        ∃ channel, link.client.commandChannel = some channel ∧
          s.lib.channels[channel]? = some link.channel := by
  simp only [Server.link, Option.bind_eq_bind, Option.bind_eq_some_iff, Option.pure_def,
    Option.some.injEq] at linked
  obtain ⟨conn, foundConn, c, uses, client, foundClient, channel, opened, record, foundChannel,
    rfl⟩ := linked
  exact ⟨foundConn, c, uses, foundClient, channel, opened, foundChannel⟩

/-- What a step can do, apart from which coroutines are on which thread. -/
inductive Changes (s : Server T) : Server T → Prop where
  | pump {i : ℕ} {link next : Link TaggedByte} {channel : ChannelId}
      (action : LinkAction TaggedByte) (threads : Fin T → List Coro) (linked : s.link i = some link)
      (named : s.channelOf i = some channel) (acted : link.act action = some next)
      (brings : action.Brings (·.origin = .channel channel) (·.origin = .socket i)) :
      Changes s { s.setLink i next with threads := threads }
  | listener {mode : SpawnMode} {next : Server T} {effect : Effect} {threads : Fin T → List Coro}
      (stepped : s.listenerStep mode = some (next, effect)) :
      Changes s { next with threads := threads }
  | position (pc : ListenerPc) (backlog : ℕ) (threads : Fin T → List Coro)
      (fits : ∀ shapes clients, s.listener.Fits shapes clients → pc.Fits shapes clients)
      (setUp : pc.inSetUp = s.listener.inSetUp) :
      Changes s { s.setListener pc with backlog := backlog, threads := threads }
  | setUp {next : Server T} (moved : SetUpMoves s next) : Changes s next

theorem applyEffect_eq (mode : SpawnMode) (s : Server T) (t : Fin T) (effect : Effect) :
    ∃ threads, s.applyEffect mode t effect = { s with threads := threads } := by
  cases effect <;> cases mode <;> exact ⟨_, rfl⟩

theorem channelOf_of_link {s : Server T} {i : ℕ} {link : Link TaggedByte}
    (linked : s.link i = some link) : ∃ channel, s.channelOf i = some channel := by
  obtain ⟨foundConn, c, uses, foundClient, channel, opened, -⟩ := link_eq_some linked
  exact ⟨channel, by simp [channelOf, foundConn, uses, foundClient, opened]⟩

theorem Moves.changes {mode : SpawnMode} {s s' : Server T} {action : ServerAction T}
    (moved : Moves mode s action s') : Changes s s' := by
  cases moved with
  | @listenerRuns t next effect top stepped =>
      obtain ⟨threads, same⟩ := next.applyEffect_eq mode t effect
      rw [same]
      exact .listener stepped
  | @pullRuns t i link next effect top linked stepped =>
      obtain ⟨threads, same⟩ := (s.setLink i next).applyEffect_eq mode t effect
      obtain ⟨channel, named⟩ := channelOf_of_link linked
      rw [same]
      exact .pump .pullStep _ linked named (by simp [Link.act, stepped]) trivial
  | @pushRuns t i link next effect top linked stepped =>
      obtain ⟨threads, same⟩ := (s.setLink i next).applyEffect_eq mode t effect
      obtain ⟨channel, named⟩ := channelOf_of_link linked
      rw [same]
      exact .pump .pushStep _ linked named (by simp [Link.act, stepped]) trivial
  | listenerStarts idle pc =>
      exact .position .binding s.backlog _ (by rw [pc]; exact fun _ _ h => h)
        (by rw [pc]; rfl)
  | listenerResumes idle pc =>
      exact .position (.resumed _) s.backlog _
        (by rw [pc]; exact fun _ _ h => h) (by rw [pc]; rfl)
  | pullResumes idle linked resumed =>
      obtain ⟨channel, named⟩ := channelOf_of_link linked
      exact .pump .pullResume _ linked named resumed trivial
  | pushResumes idle linked resumed =>
      obtain ⟨channel, named⟩ := channelOf_of_link linked
      exact .pump .pushResume _ linked named resumed trivial
  | setUpReturns top ended => exact .setUp (listenerReturn_moves ended)
  | @readReturns t i link next channel result top linked named ended =>
      refine .pump (.pullReturn _) s.threads linked named ended ?_
      cases result with
      | chunk bytes nonempty fits => simp [LinkAction.Brings, ReadResult.map, ReadResult.bytes]
      | code rc notPositive => simp [LinkAction.Brings, ReadResult.map, ReadResult.bytes]
  | writeReturns top linked ended =>
      obtain ⟨channel, named⟩ := channelOf_of_link linked
      exact .pump (.pushReturn _) s.threads linked named ended trivial
  | clientArrives =>
      exact .position s.listener (s.backlog + 1) s.threads
        (fun _ _ h => h) rfl
  | acceptFails pc =>
      exact .position (.accepted true) s.backlog s.threads
        (by rw [pc]; exact fun _ _ h => h) (by rw [pc]; rfl)
  | accepts pc waiting =>
      exact .position (.accepted false) (s.backlog - 1) s.threads
        (by rw [pc]; exact fun _ _ h => h) (by rw [pc]; rfl)
  | @readsLocal i link next completion linked woken =>
      obtain ⟨channel, named⟩ := channelOf_of_link linked
      refine .pump (.pushWake _) s.threads linked named woken ?_
      cases completion with
      | data read => simp [LinkAction.Brings, SrcReadEnd.map, SrcRead.map]
      | failed => trivial
  | writesLocal linked woken =>
      obtain ⟨channel, named⟩ := channelOf_of_link linked
      exact .pump (.pullWake _) s.threads linked named woken trivial

@[simp] theorem applyEffect_toListenerState (mode : SpawnMode) (s : Server T) (t : Fin T)
    (effect : Effect) : (s.applyEffect mode t effect).toListenerState = s.toListenerState := by
  cases effect <;> cases mode <;> rfl

@[simp] theorem applyEffect_listener (mode : SpawnMode) (s : Server T) (t : Fin T)
    (effect : Effect) : (s.applyEffect mode t effect).listener = s.listener := by
  cases effect <;> cases mode <;> rfl

@[simp] theorem applyEffect_history (mode : SpawnMode) (s : Server T) (t : Fin T)
    (effect : Effect) : (s.applyEffect mode t effect).history = s.history := by
  cases effect <;> cases mode <;> rfl

/-- What a step of a pump leaves, written out. -/
theorem setLink_eq {s : Server T} {i c : ℕ} {channel : ChannelId} {link next : Link TaggedByte}
    (uses : link.conn.sshClient = some c) (opened : link.client.commandChannel = some channel)
    (frame : link.Frame next) :
    s.setLink i next = s.onState fun state =>
      { state with
        connectionList := state.connectionList.set i next.conn
        clients := state.clients.set c next.client
        lib := { state.lib with channels := state.lib.channels.set channel next.channel } } := by
  have usesNext : next.conn.sshClient = some c := (congrArg Shape.client frame.shape).trans uses
  have openedNext : next.client.commandChannel = some channel :=
    frame.commandChannel.trans opened
  simp only [setLink, usesNext, openedNext]

/-- The link a step of a pump leaves. -/
theorem link_setLink {s : Server T} {i : ℕ} {link next : Link TaggedByte}
    (linked : s.link i = some link) (frame : link.Frame next) :
    (s.setLink i next).link i = some next := by
  obtain ⟨foundConn, c, uses, foundClient, channel, opened, foundChannel⟩ := link_eq_some linked
  have usesNext : next.conn.sshClient = some c := (congrArg Shape.client frame.shape).trans uses
  have openedNext : next.client.commandChannel = some channel :=
    frame.commandChannel.trans opened
  have insideConn := (List.getElem?_eq_some_iff.mp foundConn).1
  have insideClient := (List.getElem?_eq_some_iff.mp foundClient).1
  have insideChannel := (List.getElem?_eq_some_iff.mp foundChannel).1
  rw [setLink_eq uses opened frame]
  simp [Server.link, onState, insideConn, usesNext, insideClient, openedNext, insideChannel]

/-- The shapes of the connections. -/
def shapes (s : Server T) : List Shape := s.connectionList.map ConnectionImpl.shape

@[simp] theorem setListener_listener (s : Server T) (pc : ListenerPc) :
    (s.setListener pc).listener = pc := rfl

@[simp] theorem setListener_toListenerState (s : Server T) (pc : ListenerPc) :
    (s.setListener pc).toListenerState = s.toListenerState := rfl

@[simp] theorem setListener_shapes (s : Server T) (pc : ListenerPc) :
    (s.setListener pc).shapes = s.shapes := rfl

@[simp] theorem setCtx_shapes (s : Server T) (c : ℕ) (ctx : Ctx TaggedByte) :
    (s.onState (.setCtx · c ctx)).shapes = s.shapes := rfl

@[simp] theorem setCtx_clients_length (s : Server T) (c : ℕ) (ctx : Ctx TaggedByte) :
    (s.onState (.setCtx · c ctx)).clients.length = s.clients.length :=
  List.length_set

/-- The server has the layout its accept loop calls for. -/
def LaidOut (s : Server T) : Prop := Layout s.listener s.shapes s.clients.length

/-- A connection uses the client of its own iteration. -/
theorem own_client {s : Server T} {i : ℕ} {conn : ConnectionImpl TaggedByte} {c : ℕ}
    (laid : s.LaidOut) (found : s.connectionList[i]? = some conn) (uses : conn.sshClient = some c) :
    c = i := by
  have shape : s.shapes[i]? = some conn.shape := by simp [shapes, found]
  rcases laid.own i conn.shape shape with empty | own
  · have null := congrArg Shape.client empty
    simp [ConnectionImpl.shape, uses] at null
  · simpa [ConnectionImpl.shape, uses] using own

/-- A client in use was created. -/
theorem client_inside {s : Server T} (laid : s.LaidOut) {i c : ℕ}
    {conn : ConnectionImpl TaggedByte} (found : s.connectionList[i]? = some conn)
    (uses : conn.sshClient = some c) : c < s.clients.length := by
  obtain rfl := own_client laid found uses
  have shape : s.shapes[c]? = some conn.shape := by simp [shapes, found]
  have held : conn.shape ≠ {} := fun empty => by
    have null := congrArg Shape.client empty
    simp [ConnectionImpl.shape, uses] at null
  have inside : c < s.shapes.length := (List.getElem?_eq_some_iff.mp shape).1
  rcases laid.fits.count with full | ⟨before, last, count⟩
  · exact full ▸ inside
  · rw [last, List.length_append, List.length_singleton] at inside
    rcases Nat.lt_succ_iff_lt_or_eq.mp inside with below | atEnd
    · exact count ▸ below
    · rw [last, atEnd, List.getElem?_concat_length, Option.some.injEq] at shape
      exact absurd shape.symm held

/-- A step of a pump leaves the shapes as they are. -/
theorem setLink_shapes {s : Server T} {i : ℕ} {link next : Link TaggedByte}
    (linked : s.link i = some link) (frame : link.Frame next) :
    (s.setLink i next).shapes = s.shapes :=
  map_set_of_eq (link_eq_some linked).1 frame.shape

@[simp] theorem setLink_clients_length (s : Server T) (i : ℕ) (link : Link TaggedByte) :
    (s.setLink i link).clients.length = s.clients.length := by
  simp only [setLink, onState]
  split <;> simp

theorem laidOut_setLink {s : Server T} {i : ℕ} {link next : Link TaggedByte} (laid : s.LaidOut)
    (linked : s.link i = some link) (frame : link.Frame next) : (s.setLink i next).LaidOut := by
  rw [LaidOut, setLink_shapes linked frame, setLink_clients_length]
  exact laid

theorem publish_shapes (s : Server T) :
    (s.onState .publish).shapes = s.shapes ++ [({} : Shape)] := by
  simp [shapes, onState, ListenerState.publish, ConnectionImpl.shape, PullPc.isSpawned,
    PushPc.isSpawned]

theorem setId_shapes (s : Server T) (i : ℕ) : (s.onState (.setId · i)).shapes = s.shapes :=
  map_modify_of_eq (g := ConnectionImpl.shape)
    (f := fun conn => { conn with connId := some s.connectionIdIncrement }) (fun _ => rfl) _ _

theorem setSshClient_shapes (s : Server T) (i c : ℕ) :
    (s.onState (.setSshClient · i c)).shapes =
      s.shapes.modify i fun shape => { shape with client := some c } :=
  map_modify_of (g := ConnectionImpl.shape) (f := fun conn => { conn with sshClient := some c })
    (fun _ => rfl) _ _

theorem spawnPull_shapes (s : Server T) (mode : SpawnMode) (i : ℕ) :
    (s.onState (.spawnPull · mode i)).shapes =
      s.shapes.modify i fun shape => { shape with pull := true } :=
  map_modify_of (g := ConnectionImpl.shape)
    (f := fun conn => { conn with pull := Link.pullStart mode })
    (fun _ => by cases mode <;> rfl) _ _

theorem spawnPush_shapes (s : Server T) (mode : SpawnMode) (i : ℕ) :
    (s.onState (.spawnPush · mode i)).shapes =
      s.shapes.modify i fun shape => { shape with push := true } :=
  map_modify_of (g := ConnectionImpl.shape)
    (f := fun conn => { conn with push := Link.pushStart mode })
    (fun _ => by cases mode <;> rfl) _ _

theorem laidOut_listenerStep {mode : SpawnMode} {s next : Server T} {effect : Effect}
    (laid : s.LaidOut) (stepped : s.listenerStep mode = some (next, effect)) : next.LaidOut := by
  obtain ⟨fits, own⟩ := laid
  unfold listenerStep at stepped
  cases pc : s.listener with
  | unbound =>
      simp only [pc, Option.some.injEq, Prod.mk.injEq] at stepped fits
      obtain ⟨rfl, -⟩ := stepped
      exact ⟨fits, own⟩
  | loopTop =>
      simp only [pc, Option.some.injEq, Prod.mk.injEq] at stepped fits
      obtain ⟨rfl, -⟩ := stepped
      exact ⟨fits, own⟩
  | resumed ec =>
      simp only [pc] at stepped fits
      have count : s.clients.length = s.shapes.length := fits
      split at stepped <;> cases stepped
      · exact ⟨fits, own⟩
      · have shapes := publish_shapes s
        refine ⟨⟨?_, s.shapes, shapes, by simp [Server.shapes]⟩, ?_⟩
        · rw [Server.shapes, List.length_map] at count
          exact count
        · intro i shape found
          rw [setListener_shapes, shapes] at found
          exact forall_concat own (Or.inl rfl) i shape found
  | published i =>
      simp only [pc, Option.some.injEq, Prod.mk.injEq] at stepped fits
      obtain ⟨rfl, -⟩ := stepped
      rw [LaidOut, setListener_shapes, setId_shapes]
      exact ⟨fits, own⟩
  | identified i =>
      simp only [pc, Option.some.injEq, Prod.mk.injEq] at stepped fits
      obtain ⟨rfl, -⟩ := stepped
      obtain ⟨count, before, shapes, last⟩ := fits
      refine ⟨⟨count, ?_, before, shapes, last⟩, own⟩
      simp [onState, record, setListener, ListenerState.makeClient, count]
  | tunnelled i c =>
      simp only [pc, Option.some.injEq, Prod.mk.injEq] at stepped fits
      obtain ⟨rfl, -⟩ := stepped
      obtain ⟨rfl, count, before, shapes, last⟩ := fits
      rw [LaidOut, setListener_shapes, setSshClient_shapes]
      refine ⟨⟨count, before, by rw [shapes, modify_concat _ _ _ last], last⟩, ?_⟩
      exact forall_modify own fun _ _ => Or.inr rfl
  | clientSet i =>
      simp only [pc, Option.some.injEq, Prod.mk.injEq] at stepped fits
      obtain ⟨rfl, -⟩ := stepped
      obtain ⟨count, before, shapes, last⟩ := fits
      rw [LaidOut, setListener_shapes, spawnPull_shapes]
      refine ⟨⟨count, before, by rw [shapes, modify_concat _ _ _ last], last⟩, ?_⟩
      refine forall_modify own fun shape found => Or.inr ?_
      rw [shapes, ← last, List.getElem?_concat_length, Option.some.injEq] at found
      rw [← found, last]
  | pullSpawned i =>
      simp only [pc, Option.some.injEq, Prod.mk.injEq] at stepped fits
      obtain ⟨rfl, -⟩ := stepped
      obtain ⟨count, before, shapes, last⟩ := fits
      rw [LaidOut, setListener_shapes, spawnPush_shapes]
      have length := congrArg List.length shapes
      rw [List.length_append, List.length_singleton, last] at length
      refine ⟨count.trans ?_, forall_modify own fun shape found => Or.inr ?_⟩
      · rw [List.length_modify, length]
      · rw [shapes, ← last, List.getElem?_concat_length, Option.some.injEq] at found
        rw [← found, last]
  | _ => simp [pc] at stepped

theorem laidOut_setUp {s s' : Server T} (laid : s.LaidOut) (moved : SetUpMoves s s') :
    s'.LaidOut := by
  obtain ⟨fits, own⟩ := laid
  cases moved with
  | binds here goes =>
      rw [here] at fits
      refine ⟨?_, own⟩
      rcases goes with rfl | rfl <;> exact fits
  | faults here found quiet =>
      refine ⟨?_, own⟩
      have count := setCtx_clients_length s
      exact (count _ _).symm ▸ fits
  | @goesOn i c pc ctx after here there found quiet =>
      refine ⟨?_, own⟩
      rw [setListener_shapes, setListener_toListenerState, setCtx_shapes, setCtx_clients_length]
      exact (ListenerPc.fits_inSetUp there _ _).mpr ((ListenerPc.fits_inSetUp here _ _).mp fits)
  | @opens i c sid ctx here found session =>
      rw [here] at fits
      obtain ⟨own', count, last⟩ := fits
      exact ⟨⟨own', (setCtx_clients_length ..).trans count, last⟩, own⟩
  | @drops i c ctx after here found quiet =>
      rw [here] at fits
      obtain ⟨-, count, before, shapes, last⟩ := fits
      refine ⟨(setCtx_clients_length ..).trans (count.trans ?_), own⟩
      rw [setListener_shapes, setCtx_shapes, shapes, List.length_append, last]
      rfl

/-- Every step keeps the layout. -/
theorem laidOut_changes {s s' : Server T} (laid : s.LaidOut) (changed : Changes s s') :
    s'.LaidOut := by
  cases changed with
  | pump _ _ linked named acted brings =>
      have kept := laidOut_setLink laid linked (Link.frame_act acted)
      exact ⟨kept.fits, kept.own⟩
  | listener stepped =>
      have kept := laidOut_listenerStep laid stepped
      exact ⟨kept.fits, kept.own⟩
  | position _ _ _ fits setUp => exact ⟨fits _ _ laid.fits, laid.own⟩
  | setUp moved => exact laidOut_setUp laid moved

end Server

/-- **Every reachable state has the layout its accept loop calls for.** -/
theorem Server.layout {T : ℕ} {mode : SpawnMode} {clientState : ClientState} {s : Server T}
    (reached : (serverMachine T mode clientState).Reachable s) : s.LaidOut := by
  refine (serverMachine T mode clientState).invariant (I := Server.LaidOut) ?_ ?_ reached
  · exact ⟨rfl, fun i shape found => by simp [Server.shapes, serverMachine] at found⟩
  · exact fun s action s' laid stepped =>
      laidOut_changes laid (step_moves stepped).2.changes

end BookFilerSsh
