import BookFilerSsh.Tunnel.Wiring

/-!
# What is left of a tunnel connection whose pumps have returned

`runPush` returns when its read from the local socket fails, the end of the stream
included, and `runPull` when its write to it fails. Neither touches the other end:
the channel stays open when the client has gone, the socket stays open when it
cannot be written to, and nothing removes the connection from
`serverState->connectionList`.

So in every reachable state the local socket of every connection is open
(`Server.socketsOpen`) and so is the channel of every client (`Server.held`), and
connections are torn down as a whole exactly as long as no pump has gone on after an
error (`Server.tornDown_throughout_iff`).
-/

set_option autoImplicit false

namespace BookFilerSsh

open Lib Lib.Tables

/-! ## Pumps that return -/

/-- The `async_write` of the pump has failed. -/
def PullPc.Failed {β : Type} : PullPc β → Prop
  | .resumed ec => ec = true
  | _ => False

/-- The `async_read_some` of the pump has failed, or its `send` has reported an
error. -/
def PushPc.Failed {β : Type} : PushPc β → Prop
  | .resumed _ ec => ec = true
  | .sent rc => rc < 0
  | _ => False

/-- Neither pump has returned. -/
structure ConnectionImpl.Pumping {β : Type} (conn : ConnectionImpl β) : Prop where
  pull : conn.pull ≠ .returned
  push : conn.push ≠ .returned

namespace Link

variable {β : Type} {link next : Link β}

/-- The action lets a pump go on after an error. -/
def GivesUp (link : Link β) : LinkAction β → Prop
  | .pullStep => link.conn.pull.Failed
  | .pushStep => link.conn.push.Failed
  | _ => False

theorem returned_pullStep {effect : Effect} (failed : link.conn.pull.Failed)
    (stepped : link.pullStep = some (next, effect)) : next.conn.pull = .returned := by
  unfold PullPc.Failed at failed
  split at failed
  next ec pc =>
    simp only [pullStep, pc, failed, if_true, Option.some.injEq, Prod.mk.injEq] at stepped
    rw [← stepped.1]
    rfl
  next => cases failed

theorem returned_pushStep {effect : Effect} (failed : link.conn.push.Failed)
    (stepped : link.pushStep = some (next, effect)) : next.conn.push = .returned := by
  unfold PushPc.Failed at failed
  split at failed
  next n ec pc =>
    simp only [pushStep, pc, failed, if_true, Option.some.injEq, Prod.mk.injEq] at stepped
    rw [← stepped.1]
    rfl
  next rc pc =>
    simp only [pushStep, pc, failed, if_true, Option.some.injEq, Prod.mk.injEq] at stepped
    rw [← stepped.1]
    rfl
  next => cases failed

theorem pumping_pullStep {effect : Effect} (pumping : link.conn.Pumping)
    (goesOn : ¬ link.conn.pull.Failed) (stepped : link.pullStep = some (next, effect)) :
    next.conn.Pumping := by
  unfold pullStep at stepped
  split at stepped <;> try split at stepped
  all_goals cases stepped
  all_goals constructor <;>
    simp_all [setPull, setClient, handOver, PullPc.Failed, pumping.push, outerRc]

theorem pumping_pushStep {effect : Effect} (pumping : link.conn.Pumping)
    (goesOn : ¬ link.conn.push.Failed) (stepped : link.pushStep = some (next, effect)) :
    next.conn.Pumping := by
  unfold pushStep at stepped
  split at stepped <;> try split at stepped
  all_goals cases stepped
  all_goals constructor <;> simp_all [setPush, setClient, PushPc.Failed, pumping.pull]

/-- An action lets a pump return when it goes on after an error, and only then. -/
theorem pumping_act {action : LinkAction β} (pumping : link.conn.Pumping)
    (goesOn : ¬ link.GivesUp action) (acted : link.act action = some next) :
    next.conn.Pumping := by
  cases action with
  | pullStep =>
      obtain ⟨⟨after, effect⟩, stepped, rfl⟩ := Option.map_eq_some_iff.mp acted
      exact pumping_pullStep pumping goesOn stepped
  | pushStep =>
      obtain ⟨⟨after, effect⟩, stepped, rfl⟩ := Option.map_eq_some_iff.mp acted
      exact pumping_pushStep pumping goesOn stepped
  | _ =>
      simp only [act, pullReturn, pullWake, pullResume, pushReturn, pushWake, pushResume] at acted
      split at acted <;> try split at acted
      all_goals cases acted
      all_goals constructor <;>
        simp [setPull, setPush, fillBuffer, pumping.pull, pumping.push]

end Link

/-! ## What stays open -/

namespace Server

variable {T : ℕ}

/-- The local socket of every connection is open. -/
def SocketsOpen (s : Server T) : Prop :=
  ∀ (i : ℕ) (conn : ConnectionImpl TaggedByte), s.connectionList[i]? = some conn →
    conn.srcSocket.isOpen = true

/-- What a client of the server holds: the channel it opened on its own session, not
released, and no other. -/
def Holds (lib : Libssh2 TaggedByte) (client : ClientImpl TaggedByte) : Prop :=
  client.listenChannel = none ∧ ∀ channel, client.commandChannel = some channel →
    ∃ record, lib.channels[channel]? = some record ∧ record.released = 0 ∧
      client.session = some record.session

def HandlesHeld (s : Server T) : Prop :=
  ∀ (c : ℕ) (client : ClientImpl TaggedByte), s.clients[c]? = some client → Holds s.lib client

theorem setUp_connectionList {s s' : Server T} (moved : SetUpMoves s s') :
    s'.connectionList = s.connectionList := by
  cases moved <;> rfl

/-- What a step of a pump keeps of its connection it keeps of all of them. -/
theorem forall_conn_setLink {P : ConnectionImpl TaggedByte → Prop} {s : Server T} {i : ℕ}
    {next : Link TaggedByte}
    (holds : ∀ (i : ℕ) (conn : ConnectionImpl TaggedByte),
      s.connectionList[i]? = some conn → P conn)
    (after : P next.conn) :
    ∀ (j : ℕ) (conn : ConnectionImpl TaggedByte),
      (s.setLink i next).connectionList[j]? = some conn → P conn :=
  forall_set holds after

/-- What the assignments of the accept loop keep of a connection. -/
theorem forall_conn_listenerStep {P : ConnectionImpl TaggedByte → Prop} (published : P {})
    (identified : ∀ conn connId, P conn → P { conn with connId := connId })
    (wired : ∀ conn sshClient, P conn → P { conn with sshClient := sshClient })
    (pullSpawned : ∀ conn mode, P conn → P { conn with pull := Link.pullStart mode })
    (pushSpawned : ∀ conn mode, P conn → P { conn with push := Link.pushStart mode })
    {mode : SpawnMode} {s next : Server T} {effect : Effect}
    (holds : ∀ (i : ℕ) (conn : ConnectionImpl TaggedByte),
      s.connectionList[i]? = some conn → P conn)
    (stepped : s.listenerStep mode = some (next, effect)) :
    ∀ (i : ℕ) (conn : ConnectionImpl TaggedByte), next.connectionList[i]? = some conn → P conn := by
  unfold listenerStep at stepped
  cases pc : s.listener with
  | resumed ec =>
      simp only [pc] at stepped
      split at stepped <;> cases stepped
      · exact holds
      · exact forall_concat holds published
  | published i =>
      simp only [pc, Option.some.injEq, Prod.mk.injEq] at stepped
      obtain ⟨rfl, -⟩ := stepped
      exact forall_modify holds fun conn found => identified conn _ (holds i conn found)
  | tunnelled i c =>
      simp only [pc, Option.some.injEq, Prod.mk.injEq] at stepped
      obtain ⟨rfl, -⟩ := stepped
      exact forall_modify holds fun conn found => wired conn _ (holds i conn found)
  | clientSet i =>
      simp only [pc, Option.some.injEq, Prod.mk.injEq] at stepped
      obtain ⟨rfl, -⟩ := stepped
      exact forall_modify holds fun conn found => pullSpawned conn _ (holds i conn found)
  | pullSpawned i =>
      simp only [pc, Option.some.injEq, Prod.mk.injEq] at stepped
      obtain ⟨rfl, -⟩ := stepped
      exact forall_modify holds fun conn found => pushSpawned conn _ (holds i conn found)
  | unbound | loopTop | identified i =>
      simp only [pc, Option.some.injEq, Prod.mk.injEq] at stepped
      obtain ⟨rfl, -⟩ := stepped
      exact holds
  | _ => simp [pc] at stepped

theorem socketsOpen {mode : SpawnMode} {clientState : ClientState} {s : Server T}
    (reached : (serverMachine T mode clientState).Reachable s) : s.SocketsOpen := by
  refine (serverMachine T mode clientState).invariant (I := SocketsOpen) ?_ ?_ reached
  · intro i conn found
    simp [serverMachine] at found
  · intro s action next holds stepped
    cases (step_moves stepped).2.changes with
    | pump _ _ linked named acted brings =>
        have isOpen := holds _ _ (link_eq_some linked).1
        exact forall_conn_setLink holds ((Link.frame_act acted).isOpen.trans isOpen)
    | listener ran =>
        have kept := forall_conn_listenerStep (P := fun conn => conn.srcSocket.isOpen = true) rfl
          (fun _ _ isOpen => isOpen) (fun _ _ isOpen => isOpen) (fun _ _ isOpen => isOpen)
          (fun _ _ isOpen => isOpen) holds ran
        exact kept
    | position _ _ _ _ _ => exact holds
    | setUp moved =>
        rw [SocketsOpen, setUp_connectionList moved]
        exact holds

/-- A client in set-up has no channel yet. -/
theorem channel_of_inSetUp {s : Server T} (order : s.InOrder) {i c : ℕ}
    {ctx : Ctx TaggedByte} (here : s.listener.inSetUp = some (i, c)) (found : s.ctx c = some ctx) :
    ctx.client.commandChannel = none := by
  cases opened : ctx.client.commandChannel with
  | none => rfl
  | some channel =>
      exact absurd (order.recorded.named c _ (ctx_eq_some found).1 channel opened)
        (order.recorded.unopened i c channel here)

/-- A call of the set-up of one client leaves what the others hold alone. -/
theorem handlesHeld_setCtx {s : Server T} (order : s.InOrder) (held : s.HandlesHeld) {i c : ℕ}
    {ctx after : Ctx TaggedByte} (here : s.listener.inSetUp = some (i, c))
    (found : s.ctx c = some ctx) (quiet : ctx.Quiet after) :
    (s.onState (.setCtx · c after)).HandlesHeld := by
  obtain ⟨foundClient, lib⟩ := ctx_eq_some found
  have null := channel_of_inSetUp order here found
  have nullListen := (held c _ foundClient).1
  have others : ∀ (d : ℕ) (client : ClientImpl TaggedByte), s.clients[d]? = some client →
      Holds after.lib client := by
    intro d client foundD
    refine ⟨(held d client foundD).1, fun channel opened => ?_⟩
    obtain ⟨record, foundRecord, unreleased, session⟩ := (held d client foundD).2 channel opened
    have returned := order.sessions.returned d _ ⟨client, foundD, session⟩
    refine ⟨record, ?_, unreleased, session⟩
    rw [lib] at foundRecord returned
    refine quiet.spares null nullListen channel record foundRecord returned fun same => ?_
    -- the session would be that of the client in set-up, which has no channel
    obtain rfl :=
      order.sessions.apart c d _ ⟨ctx.client, foundClient, same⟩ ⟨client, foundD, session⟩
    rw [foundClient, Option.some.injEq] at foundD
    rw [← foundD, null] at opened
    cases opened
  refine forall_set others ⟨quiet.listenChannel nullListen, fun channel opened => ?_⟩
  rcases quiet.channel with same | gone
  · rw [same, null] at opened
    cases opened
  · rw [gone] at opened
    cases opened

/-- The channel a client opens is its own. -/
theorem handlesHeld_opens {s : Server T} (held : s.HandlesHeld) {c : ℕ} {sid : SessionId}
    {ctx : Ctx TaggedByte} (found : s.ctx c = some ctx) (session : ctx.client.session = some sid) :
    (s.onState (.setCtx · c (ctx.openCommandChannel true))).HandlesHeld := by
  obtain ⟨foundClient, lib⟩ := ctx_eq_some found
  have channels : (ctx.openCommandChannel true).lib.channels =
      s.lib.channels ++ [{ session := sid }] := by
    simp [Ctx.openCommandChannel_session session, Libssh2.openChannel, lib]
  have client : (ctx.openCommandChannel true).client =
      { ctx.client with commandChannel := some s.lib.channels.length } := by
    simp [Ctx.openCommandChannel_session session, lib]
  have others : ∀ (d : ℕ) (client : ClientImpl TaggedByte), s.clients[d]? = some client →
      Holds (ctx.openCommandChannel true).lib client := by
    intro d client foundD
    refine ⟨(held d client foundD).1, fun channel opened => ?_⟩
    obtain ⟨record, foundRecord, kept⟩ := (held d client foundD).2 channel opened
    have inside := (List.getElem?_eq_some_iff.mp foundRecord).1
    exact ⟨record, by rw [channels, List.getElem?_append_left inside, foundRecord], kept⟩
  refine forall_set (P := fun _ client => Holds (ctx.openCommandChannel true).lib client) others
    ⟨?_, fun channel opened => ?_⟩
  · rw [client]
    exact (held c _ foundClient).1
  · simp only [client, Option.some.injEq] at opened
    subst opened
    exact ⟨{ session := sid }, by rw [channels, List.getElem?_concat_length], rfl, by
      rw [client]
      exact session⟩

/-- A pump changes the traffic of a channel only. -/
theorem handlesHeld_setLink {s : Server T} (held : s.HandlesHeld) {i : ℕ}
    {link next : Link TaggedByte} (linked : s.link i = some link) (frame : link.Frame next) :
    (s.setLink i next).HandlesHeld := by
  obtain ⟨-, c, uses, foundClient, channel, opened, foundChannel⟩ := link_eq_some linked
  have inside := (List.getElem?_eq_some_iff.mp foundChannel).1
  rw [setLink_eq uses opened frame]
  have others : ∀ (d : ℕ) (client : ClientImpl TaggedByte), s.clients[d]? = some client →
      Holds { s.lib with channels := s.lib.channels.set channel next.channel } client := by
    intro d client foundD
    refine ⟨(held d client foundD).1, fun channel' opened' => ?_⟩
    obtain ⟨record, foundRecord, unreleased, session⟩ := (held d client foundD).2 channel' opened'
    by_cases same : channel = channel'
    · subst same
      rw [foundChannel, Option.some.injEq] at foundRecord
      subst foundRecord
      exact ⟨next.channel, List.getElem?_set_self inside, frame.released.trans unreleased,
        by rw [frame.owner]; exact session⟩
    · exact ⟨record, by rw [List.getElem?_set_ne same, foundRecord], unreleased, session⟩
  obtain ⟨listen, holds⟩ := others c _ foundClient
  refine forall_set others ⟨frame.listenChannel.trans listen, fun channel' opened' => ?_⟩
  obtain ⟨record, foundRecord, unreleased, session⟩ :=
    holds channel' (frame.commandChannel.symm.trans opened')
  exact ⟨record, foundRecord, unreleased, frame.session.trans session⟩

theorem handlesHeld_changes {s next : Server T} (order : s.InOrder) (held : s.HandlesHeld)
    (changed : Changes s next) : next.HandlesHeld := by
  cases changed with
  | pump _ _ linked named acted brings =>
      exact handlesHeld_setLink held linked (Link.frame_act acted)
  | listener stepped =>
      unfold listenerStep at stepped
      cases pc : s.listener with
      | identified i =>
          simp only [pc, Option.some.injEq, Prod.mk.injEq] at stepped
          obtain ⟨rfl, -⟩ := stepped
          exact forall_concat held ⟨rfl, fun channel opened => by cases opened⟩
      | resumed ec =>
          simp only [pc] at stepped
          split at stepped <;> cases stepped <;> exact held
      | unbound | loopTop | published _ | tunnelled _ _ | clientSet _ | pullSpawned _ =>
          simp only [pc, Option.some.injEq, Prod.mk.injEq] at stepped
          obtain ⟨rfl, -⟩ := stepped
          exact held
      | _ => simp [pc] at stepped
  | position _ _ _ _ _ => exact held
  | setUp moved =>
      cases moved with
      | binds here goes => exact held
      | faults here found quiet => exact handlesHeld_setCtx order held here found quiet
      | goesOn here there found quiet => exact handlesHeld_setCtx order held here found quiet
      | opens here found session => exact handlesHeld_opens held found session
      | drops here found quiet =>
          exact handlesHeld_setCtx order held (by rw [here]; rfl) found quiet

/-- **The channel of every client is open**, once it has opened it. -/
theorem held {mode : SpawnMode} {clientState : ClientState} {s : Server T}
    (reached : (serverMachine T mode clientState).Reachable s) : s.HandlesHeld := by
  refine (serverMachine T mode clientState).invariant_with (J := InOrder) (fun _ => inOrder)
    ?_ ?_ reached
  · intro c client found
    simp [serverMachine] at found
  · exact fun s action next order held stepped =>
      handlesHeld_changes order held (step_moves stepped).2.changes

/-- The channel of a connection is open. -/
theorem unreleased_of_link {s : Server T} (held : s.HandlesHeld) {i : ℕ} {link : Link TaggedByte}
    (linked : s.link i = some link) : link.channel.released = 0 := by
  obtain ⟨-, c, -, foundClient, channel, opened, foundChannel⟩ := link_eq_some linked
  obtain ⟨record, foundRecord, unreleased, -⟩ := (held c _ foundClient).2 channel opened
  rw [foundChannel, Option.some.injEq] at foundRecord
  exact foundRecord ▸ unreleased

/-! ## Tearing down -/

/-- Connections are torn down as a whole: when a pump has returned, the end it writes
to is closed, and a connection both of whose pumps have returned is gone. -/
structure TornDown (s : Server T) : Prop where
  socket : ∀ (i : ℕ) (conn : ConnectionImpl TaggedByte), s.connectionList[i]? = some conn →
    conn.pull = .returned → conn.srcSocket.isOpen = false
  channel : ∀ (i : ℕ) (link : Link TaggedByte), s.link i = some link →
    link.conn.push = .returned → link.channel.released ≠ 0
  removed : ∀ (i : ℕ) (conn : ConnectionImpl TaggedByte), s.connectionList[i]? = some conn →
    ¬ (conn.pull = .returned ∧ conn.push = .returned)

/-- The action lets a pump go on after an error. -/
def GivesUp (s : Server T) : ServerAction T → Prop
  | .run t => ∃ i link, s.link i = some link ∧
      (((s.threads t).head? = some (.pull i) ∧ link.conn.pull.Failed) ∨
        ((s.threads t).head? = some (.push i) ∧ link.conn.push.Failed))
  | _ => False

/-- No pump of a connection has returned. -/
def Pumping (s : Server T) : Prop :=
  ∀ (i : ℕ) (conn : ConnectionImpl TaggedByte), s.connectionList[i]? = some conn → conn.Pumping

theorem Pumping.tornDown {s : Server T} (pumping : s.Pumping) : s.TornDown where
  socket i conn found returned := absurd returned (pumping i conn found).pull
  channel i link linked returned :=
    absurd returned (pumping i link.conn (link_eq_some linked).1).push
  removed i conn found returned := (pumping i conn found).pull returned.1

theorem Pumping.setLink {s : Server T} (pumping : s.Pumping) {i : ℕ} {link next : Link TaggedByte}
    {action : LinkAction TaggedByte} (linked : s.link i = some link)
    (goesOn : ¬ link.GivesUp action) (acted : link.act action = some next) :
    (s.setLink i next).Pumping :=
  forall_conn_setLink pumping
    (Link.pumping_act (pumping i link.conn (link_eq_some linked).1) goesOn acted)

theorem Pumping.step {mode : SpawnMode} {s next : Server T} {action : ServerAction T}
    (pumping : s.Pumping) (goesOn : ¬ s.GivesUp action)
    (stepped : s.step mode action = some next) : next.Pumping := by
  cases (step_moves stepped).2 with
  | listenerRuns top ran =>
      rw [Pumping, applyEffect_toListenerState]
      refine forall_conn_listenerStep (P := ConnectionImpl.Pumping) ⟨by simp, by simp⟩
        (fun _ _ kept => ⟨kept.pull, kept.push⟩) (fun _ _ kept => ⟨kept.pull, kept.push⟩)
        (fun _ mode kept => ⟨?_, kept.push⟩) (fun _ mode kept => ⟨kept.pull, ?_⟩) pumping ran
      · cases mode <;> simp [Link.pullStart]
      · cases mode <;> simp [Link.pushStart]
  | @pullRuns t i link next effect top linked ran =>
      rw [Pumping, applyEffect_toListenerState]
      have acted : link.act .pullStep = some next := by rw [Link.act, ran]; rfl
      have noError : ¬ link.GivesUp .pullStep :=
        fun failed => goesOn ⟨i, link, linked, .inl ⟨top, failed⟩⟩
      exact pumping.setLink linked noError acted
  | @pushRuns t i link next effect top linked ran =>
      rw [Pumping, applyEffect_toListenerState]
      have acted : link.act .pushStep = some next := by rw [Link.act, ran]; rfl
      have noError : ¬ link.GivesUp .pushStep :=
        fun failed => goesOn ⟨i, link, linked, .inr ⟨top, failed⟩⟩
      exact pumping.setLink linked noError acted
  | @pullResumes t i link next idle linked resumed =>
      have acted : link.act .pullResume = some next := resumed
      exact pumping.setLink linked id acted
  | @pushResumes t i link next idle linked resumed =>
      have acted : link.act .pushResume = some next := resumed
      exact pumping.setLink linked id acted
  | @readReturns t i link next channel result top linked named ended =>
      have acted : link.act (.pullReturn _) = some next := ended
      exact pumping.setLink linked id acted
  | @writeReturns t i link next result top linked ended =>
      have acted : link.act (.pushReturn result) = some next := ended
      exact pumping.setLink linked id acted
  | @readsLocal i link next completion linked woken =>
      have acted : link.act (.pushWake _) = some next := woken
      exact pumping.setLink linked id acted
  | @writesLocal i link next ec linked woken =>
      have acted : link.act (.pullWake ec) = some next := woken
      exact pumping.setLink linked id acted
  | setUpReturns top ended =>
      rw [Pumping, setUp_connectionList (listenerReturn_moves ended)]
      exact pumping
  | listenerStarts _ _ | listenerResumes _ _ | clientArrives | acceptFails _ | accepts _ _ =>
      exact pumping

/-- A pump that goes on after an error leaves its connection half open. -/
theorem GivesUp.step {mode : SpawnMode} {s next : Server T} {action : ServerAction T}
    (givesUp : s.GivesUp action) (stepped : s.step mode action = some next)
    (socketsOpen : next.SocketsOpen) (held : next.HandlesHeld) : ¬ next.TornDown := by
  intro tornDown
  cases (step_moves stepped).2 with
  | listenerRuns top ran =>
      obtain ⟨i, link, linked, ⟨top', -⟩ | ⟨top', -⟩⟩ := givesUp <;> simp [top] at top'
  | @pullRuns t i link after effect top linked ran =>
      obtain ⟨j, link', linked', ⟨top', failed⟩ | ⟨top', failed⟩⟩ := givesUp
      · rw [top] at top'
        cases top'
        rw [linked, Option.some.injEq] at linked'
        subst linked'
        have kept := link_setLink linked (Link.frame_pullStep ran)
        have found : ((s.setLink i after).applyEffect mode t effect).connectionList[i]? =
            some after.conn := by
          rw [applyEffect_toListenerState]
          exact (link_eq_some kept).1
        have closed := tornDown.socket i _ found (Link.returned_pullStep failed ran)
        rw [socketsOpen i _ found] at closed
        cases closed
      · simp [top] at top'
  | @pushRuns t i link after effect top linked ran =>
      obtain ⟨j, link', linked', ⟨top', failed⟩ | ⟨top', failed⟩⟩ := givesUp
      · simp [top] at top'
      · rw [top] at top'
        cases top'
        rw [linked, Option.some.injEq] at linked'
        subst linked'
        have kept : ((s.setLink i after).applyEffect mode t effect).link i = some after := by
          simp only [Server.link, applyEffect_toListenerState]
          exact link_setLink linked (Link.frame_pushStep ran)
        exact tornDown.channel i after kept (Link.returned_pushStep failed ran)
          (unreleased_of_link held kept)
  | _ => cases givesUp

/-- **Exactly when tunnel connections are torn down as a whole**: as long as no pump
has gone on after an error. -/
theorem tornDown_throughout_iff (mode : SpawnMode) (clientState : ClientState)
    (actions : List (ServerAction T)) :
    (serverMachine T mode clientState).Throughout TornDown
        (serverMachine T mode clientState).init actions ↔
      (serverMachine T mode clientState).Guarded (fun s action => ¬ s.GivesUp action)
        (serverMachine T mode clientState).init actions := by
  constructor
  · refine Machine.guarded_of_throughout fun s action next reached against stepped => ?_
    have reachedNext := reached.step stepped
    exact (not_not.mp against).step stepped (socketsOpen reachedNext) (held reachedNext)
  · intro guarded
    refine (Machine.throughout_of_guarded (P := Pumping) ?_ ?_ guarded).mono
      fun s pumping => pumping.tornDown
    · intro i conn found
      simp [serverMachine] at found
    · exact fun s action next _ pumping goesOn stepped => pumping.step goesOn stepped

end Server

end BookFilerSsh
