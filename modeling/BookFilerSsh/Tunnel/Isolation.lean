import BookFilerSsh.Lib.Refinement
import BookFilerSsh.Tunnel.Provision
import BookFilerSsh.Tunnel.PullStream

/-!
# The connections of the tunnel server run by themselves

The pumps of one connection share a client and a channel with nobody else. So what they
have come to in a run of the server, on any number of threads and between the set-ups of
other clients, is what they come to when they run alone and do what they did in that run
(`connection_runs_alone`): a connection is a machine of its own, and the server is many of
them side by side.

An observer of the `i`-th connection sees the actions of its two pumps
(`Server.observeAt`). A pump that is spawned inline is taken up by the thread that spawned
it, which is an action of the pump like any other. What the observer leaves out is who
the client is and what it holds besides the data of the pumps (`Link.core`).
-/

set_option autoImplicit false

namespace BookFilerSsh

open Lib Lib.Tables

/-! ## What the pumps of a connection look at -/

section Links

variable {β : Type}

/-- A pump that is not spawned yet is a spawned one that has not been taken up. -/
def PullPc.up : PullPc β → PullPc β
  | .unspawned => .spawned
  | pc => pc

/-- A pump that is not spawned yet is a spawned one that has not been taken up. -/
def PushPc.up : PushPc β → PushPc β
  | .unspawned => .spawned
  | pc => pc

/-- The part of a connection its pumps look at. -/
def ConnectionImpl.core (conn : ConnectionImpl β) : ConnectionImpl β where
  srcSocket := conn.srcSocket
  srcReadBuffer := conn.srcReadBuffer
  pull := conn.pull.up
  push := conn.push.up

namespace Link

/-- The part of a link its pumps look at. -/
def core (link : Link β) : Link β where
  conn := link.conn.core
  client := link.client
  channel :=
    { session := 0
      accepted := link.channel.accepted
      returned := link.channel.returned }

variable {link next : Link β}

theorem core_pullStep {effect : Effect} (stepped : link.pullStep = some (next, effect)) :
    link.core.pullStep = some (next.core, effect) := by
  unfold pullStep at stepped
  split at stepped <;> try split at stepped
  all_goals cases stepped
  all_goals simp_all [pullStep, core, ConnectionImpl.core, PullPc.up, setPull, setClient,
    handOver, outerRc]

theorem core_pushStep {effect : Effect} (stepped : link.pushStep = some (next, effect)) :
    link.core.pushStep = some (next.core, effect) := by
  unfold pushStep at stepped
  split at stepped <;> try split at stepped
  all_goals cases stepped
  all_goals simp_all [pushStep, core, ConnectionImpl.core, PushPc.up, setPush, setClient]

/-- **No action looks at more of a link than its core.** -/
theorem core_act {action : LinkAction β} (acted : link.act action = some next) :
    link.core.act action = some next.core := by
  cases action with
  | pullStep =>
      obtain ⟨⟨after, effect⟩, stepped, rfl⟩ := Option.map_eq_some_iff.mp acted
      simp only [act, core_pullStep stepped, Option.map_some]
  | pushStep =>
      obtain ⟨⟨after, effect⟩, stepped, rfl⟩ := Option.map_eq_some_iff.mp acted
      simp only [act, core_pushStep stepped, Option.map_some]
  | pullReturn result | pullWake ec | pullResume =>
      simp only [act, pullReturn, pullWake, pullResume] at acted ⊢
      split at acted <;> cases acted
      all_goals simp_all [core, ConnectionImpl.core, PullPc.up, setPull]
  | pushReturn result | pushWake completion | pushResume =>
      simp only [act, pushReturn, pushWake, pushResume] at acted ⊢
      split at acted <;> try split at acted
      all_goals cases acted
      all_goals simp_all [core, ConnectionImpl.core, PushPc.up, setPush, fillBuffer]

/-- Spawning `runPull` is no action, or the one that takes it up. -/
theorem core_spawnPull (mode : SpawnMode) (unspawned : link.conn.pull = .unspawned) :
    (link.setPull (pullStart mode)).core = link.core ∧ mode = .posted ∨
      link.core.act .pullResume = some (link.setPull (pullStart mode)).core ∧
        mode = .inline := by
  cases mode <;>
    simp [core, ConnectionImpl.core, setPull, pullStart, unspawned, PullPc.up, act, pullResume]

/-- Spawning `runPush` is no action, or the one that takes it up. -/
theorem core_spawnPush (mode : SpawnMode) (unspawned : link.conn.push = .unspawned) :
    (link.setPush (pushStart mode)).core = link.core ∧ mode = .posted ∨
      link.core.act .pushResume = some (link.setPush (pushStart mode)).core ∧
        mode = .inline := by
  cases mode <;>
    simp [core, ConnectionImpl.core, setPush, pushStart, unspawned, PushPc.up, act, pushResume]

end Link

/-- What becomes of the link of a connection: one of its pumps acts, or none does, or the
connection gets its client. -/
inductive LinkFollows : Option (Link β) → Option (LinkAction β) → Option (Link β) → Prop where
  | acts {link next : Link β} {action : LinkAction β}
      (acted : link.core.act action = some next.core) :
      LinkFollows (some link) (some action) (some next)
  | rests {before after : Option (Link β)} (same : after.map Link.core = before.map Link.core) :
      LinkFollows before none after
  | begins {link : Link β} (new : link.core = Link.fresh link.client 0) :
      LinkFollows none none (some link)

end Links

/-! ## What an observer of a connection sees -/

namespace Server

variable {T : ℕ}

/-- A pump that is spawned inline is taken up by the thread that spawns it. -/
def takenUp (mode : SpawnMode) (event : ℕ × LinkAction TaggedByte) :
    Option (ℕ × LinkAction TaggedByte) :=
  match mode with
  | .inline => some event
  | .posted => none

/-- What a statement of the accept loop does to a pump. -/
def spawnEvent (mode : SpawnMode) : ListenerPc → Option (ℕ × LinkAction TaggedByte)
  | .clientSet i => takenUp mode (i, .pullResume)
  | .pullSpawned i => takenUp mode (i, .pushResume)
  | _ => none

/-- What an observer sees of an action of the server: a connection and an action of one of
its pumps. -/
def observe (mode : SpawnMode) (s : Server T) :
    ServerAction T → Option (ℕ × LinkAction TaggedByte)
  | .run t =>
      match (s.threads t).head? with
      | some (.pull i) => some (i, .pullStep)
      | some (.push i) => some (i, .pushStep)
      | some .listener => spawnEvent mode s.listener
      | none => none
  | .resume _ (.pull i) => some (i, .pullResume)
  | .resume _ (.push i) => some (i, .pushResume)
  | .readDone t result =>
      match (s.threads t).head? with
      | some (.pull i) => (s.channelOf i).map fun channel =>
          (i, .pullReturn (result.map fun byte => ⟨byte, .channel channel⟩))
      | _ => none
  | .writeDone t result =>
      match (s.threads t).head? with
      | some (.push i) => some (i, .pushReturn result)
      | _ => none
  | .localRead i completion =>
      some (i, .pushWake (completion.map fun byte => ⟨byte, .socket i⟩))
  | .localWritten i ec => some (i, .pullWake ec)
  | _ => none

/-- The part of an event that is about one connection. -/
def eventAt (i : ℕ) (event : Option (ℕ × LinkAction TaggedByte)) : Option (LinkAction TaggedByte) :=
  event.bind fun event => if event.1 = i then some event.2 else none

/-- What an observer of one connection sees. -/
def observeAt (mode : SpawnMode) (i : ℕ) (s : Server T) (action : ServerAction T) :
    Option (LinkAction TaggedByte) :=
  eventAt i (s.observe mode action)

/-! ## The link of a connection -/

variable {s s' : Server T}

/-- Two connections have different channels. -/
theorem channel_apart (laid : s.LaidOut) (recorded : s.Recorded) {i j : ℕ} (apart : i ≠ j)
    {channel : ChannelId} (one : s.channelOf i = some channel)
    (two : s.channelOf j = some channel) : False :=
  apart ((recorded.openedOnce i channel j channel (opened_of_channelOf laid recorded one)
    (opened_of_channelOf laid recorded two)).mpr rfl)

/-- **A step of a pump leaves the other links alone.** -/
theorem link_setLink_other (laid : s.LaidOut) (recorded : s.Recorded) {i j : ℕ} (apart : j ≠ i)
    {link next : Link TaggedByte} (linked : s.link i = some link) (frame : link.Frame next) :
    (s.setLink i next).link j = s.link j := by
  obtain ⟨foundConn, c, uses, foundClient, channel, opened, foundChannel⟩ := link_eq_some linked
  obtain rfl := own_client laid foundConn uses
  have named : s.channelOf c = some channel := by
    simp [channelOf, foundConn, uses, foundClient, opened]
  rw [setLink_eq uses opened frame]
  cases found : s.connectionList[j]? with
  | none => simp [Server.link, onState, List.getElem?_set_ne (Ne.symm apart), found]
  | some conn =>
      cases client : conn.sshClient with
      | none => simp [Server.link, onState, List.getElem?_set_ne (Ne.symm apart), found, client]
      | some d =>
          obtain rfl := own_client laid found client
          cases foundD : s.clients[d]? with
          | none =>
              simp [Server.link, onState, List.getElem?_set_ne (Ne.symm apart), found, client,
                foundD]
          | some other =>
              cases holds : other.commandChannel with
              | none =>
                  simp [Server.link, onState, List.getElem?_set_ne (Ne.symm apart), found, client,
                    foundD, holds]
              | some channel' =>
                  have different : channel ≠ channel' := by
                    intro same
                    subst same
                    refine channel_apart laid recorded apart ?_ named
                    simp [channelOf, found, client, foundD, holds]
                  simp [Server.link, onState, List.getElem?_set_ne (Ne.symm apart), found, client,
                    foundD, holds, List.getElem?_set_ne different]

/-- What the core of a link is made of. -/
theorem core_link (s : Server T) (i : ℕ) : (s.link i).map Link.core =
    s.connectionList[i]?.bind fun conn => conn.sshClient.bind fun c => s.clients[c]?.bind
      fun client => client.commandChannel.bind fun channel => s.lib.traffic[channel]?.map
        fun stream => ⟨conn.core, client, ⟨0, 0, stream.1, stream.2⟩⟩ := by
  simp only [Server.link, Libssh2.traffic, List.getElem?_map, Option.bind_eq_bind,
    Option.map_eq_bind, Option.pure_def, Option.bind_assoc]
  rfl

/-- **What leaves a link as it is**: its connection, its client and the traffic of its
channel stay as they are. -/
theorem core_link_eq {i : ℕ} {next : Server T}
    (conns : ∀ conn, s.connectionList[i]? = some conn → ∃ after,
      next.connectionList[i]? = some after ∧ after.sshClient = conn.sshClient ∧
        after.core = conn.core)
    (published : s.connectionList[i]? = none → ∀ after, next.connectionList[i]? = some after →
      after.sshClient = none)
    (clients : ∀ conn c, s.connectionList[i]? = some conn → conn.sshClient = some c →
      next.clients[c]? = s.clients[c]?)
    (traffic : ∀ (c : ℕ) client channel, s.clients[c]? = some client →
      client.commandChannel = some channel →
        next.lib.traffic[channel]? = s.lib.traffic[channel]?) :
    (next.link i).map Link.core = (s.link i).map Link.core := by
  rw [core_link, core_link]
  cases found : s.connectionList[i]? with
  | none =>
      cases after : next.connectionList[i]? with
      | none => rfl
      | some conn => simp only [Option.bind_some, Option.bind_none, published found conn after]
  | some conn =>
      obtain ⟨after, foundAfter, client, core⟩ := conns conn found
      simp only [foundAfter, Option.bind_some, client, core]
      cases uses : conn.sshClient with
      | none => rfl
      | some c =>
          simp only [Option.bind_some, clients conn c found uses]
          cases foundC : s.clients[c]? with
          | none => rfl
          | some held =>
              simp only [Option.bind_some]
              cases channel : held.commandChannel with
              | none => rfl
              | some id => simp only [Option.bind_some, traffic c held id foundC channel]

/-- The client in set-up is no connection's. -/
theorem unused_of_inSetUp (laid : s.LaidOut) {i c j d : ℕ} {conn : ConnectionImpl TaggedByte}
    (here : s.listener.inSetUp = some (i, c)) (found : s.connectionList[j]? = some conn)
    (uses : conn.sshClient = some d) : c ≠ d := by
  rintro rfl
  obtain rfl := own_client laid found uses
  obtain ⟨rfl, -, before, shapes, last⟩ := (ListenerPc.fits_inSetUp here _ _).mp laid.fits
  have shape : s.shapes[c]? = some conn.shape := by simp [Server.shapes, found]
  rw [shapes, ← last, List.getElem?_concat_length, Option.some.injEq] at shape
  have null := congrArg Shape.client shape
  simp [ConnectionImpl.shape, uses] at null

/-- **The set-up of a client leaves every link alone.** -/
theorem core_link_setUp (laid : s.LaidOut) (order : s.InOrder) (moved : SetUpMoves s s') (i : ℕ) :
    (s'.link i).map Link.core = (s.link i).map Link.core := by
  have conns : ∀ (after : Server T), after.connectionList = s.connectionList →
      ∀ conn, s.connectionList[i]? = some conn → ∃ same, after.connectionList[i]? = some same ∧
        same.sshClient = conn.sshClient ∧ same.core = conn.core :=
    fun after same conn found => ⟨conn, same ▸ found, rfl, rfl⟩
  have published : ∀ (after : Server T), after.connectionList = s.connectionList →
      s.connectionList[i]? = none → ∀ conn, after.connectionList[i]? = some conn →
        conn.sshClient = none := by
    intro after same outside conn found
    rw [same, outside] at found
    cases found
  have quiet : ∀ {k c : ℕ} {ctx after : Ctx TaggedByte}, s.listener.inSetUp = some (k, c) →
      s.ctx c = some ctx → ctx.Quiet after →
        ((s.onState (.setCtx · c after)).link i).map Link.core = (s.link i).map Link.core := by
    intro k c ctx after here found quiet
    refine core_link_eq (conns _ rfl) (published _ rfl) ?_ ?_
    · intro conn d foundConn uses
      exact List.getElem?_set_ne (unused_of_inSetUp laid here foundConn uses)
    · intro d client channel _ _
      have traffic : after.lib.traffic = s.lib.traffic := by
        rw [(ctx_eq_some found).2]
        exact quiet.traffic
      exact congrArg (·[channel]?) traffic
  cases moved with
  | binds here goes => rfl
  | faults here found q => exact quiet here found q
  | goesOn here there found q => exact quiet here found q
  | drops here found q => exact quiet (by rw [here]; rfl) found q
  | @opens k c sid ctx here found session =>
      obtain ⟨foundClient, lib⟩ := ctx_eq_some found
      refine core_link_eq (conns _ rfl) (published _ rfl) ?_ ?_
      · intro conn d foundConn uses
        exact List.getElem?_set_ne (unused_of_inSetUp laid (by rw [here]; rfl) foundConn uses)
      · intro d client channel foundD opened
        have streams : (ctx.openCommandChannel true).lib.traffic = s.lib.traffic ++ [([], [])] := by
          simp [Ctx.openCommandChannel_session session, Libssh2.traffic, Libssh2.openChannel, lib]
        have inside := (order.recorded.opened d channel
          (order.recorded.named d client foundD channel opened)).2
        show (ctx.openCommandChannel true).lib.traffic[channel]? = _
        rw [streams]
        exact List.getElem?_append_left (by simpa [Libssh2.traffic] using inside)

/-- A statement of the accept loop that leaves clients and ledger alone, and the other
connections. -/
theorem core_link_modify {i j : ℕ}
    {f : ConnectionImpl TaggedByte → ConnectionImpl TaggedByte}
    (same : ∀ conn, i = j → s.connectionList[i]? = some conn →
      (f conn).sshClient = conn.sshClient ∧ (f conn).core = conn.core) :
    ((s.onState (.setConn · j f)).link i).map Link.core = (s.link i).map Link.core := by
  apply core_link_eq
  · intro conn found
    refine ⟨if j = i then f conn else conn, ?_, ?_⟩
    · show (s.connectionList.modify j f)[i]? = _
      rw [List.getElem?_modify, found]
      rfl
    · split
      next here => exact same conn here.symm found
      next => exact ⟨rfl, rfl⟩
  · intro outside after found
    have none : (s.connectionList.modify j f)[i]? = none := by
      rw [List.getElem?_modify, outside]
      rfl
    cases none.symm.trans found
  · exact fun _ _ _ _ => rfl
  · exact fun _ _ _ _ _ => rfl

theorem core_link_publish (i : ℕ) :
    ((s.onState .publish).link i).map Link.core = (s.link i).map Link.core := by
  apply core_link_eq
  · intro conn found
    have inside := (List.getElem?_eq_some_iff.mp found).1
    exact ⟨conn, (List.getElem?_append_left inside).trans found, rfl, rfl⟩
  · intro outside after found
    have behind := List.getElem?_eq_none_iff.mp outside
    rw [show (s.onState .publish).connectionList = s.connectionList ++ [{}] from rfl,
      List.getElem?_append_right behind] at found
    obtain ⟨last, rfl⟩ := List.getElem?_eq_some_iff.mp found
    rw [List.getElem_singleton]
  · exact fun _ _ _ _ => rfl
  · exact fun _ _ _ _ _ => rfl

theorem core_link_makeClient (laid : s.LaidOut) (i : ℕ) :
    ((s.onState .makeClient).link i).map Link.core = (s.link i).map Link.core := by
  apply core_link_eq
  · exact fun conn found => ⟨conn, found, rfl, rfl⟩
  · exact fun outside after found => by cases outside.symm.trans found
  · exact fun conn c found uses => List.getElem?_append_left (client_inside laid found uses)
  · exact fun _ _ _ _ _ => rfl

/-- An assignment to a connection that keeps its client. -/
theorem link_setConn {i : ℕ} {link : Link TaggedByte} (linked : s.link i = some link)
    {f : ConnectionImpl TaggedByte → ConnectionImpl TaggedByte}
    (keeps : (f link.conn).sshClient = link.conn.sshClient) :
    (s.onState (.setConn · i f)).link i = some { link with conn := f link.conn } := by
  obtain ⟨foundConn, c, uses, foundClient, channel, opened, foundChannel⟩ := link_eq_some linked
  simp [Server.link, onState, ListenerState.setConn, foundConn, keeps, uses, foundClient, opened,
    foundChannel]

/-- The shape of a connection, in the list of shapes. -/
theorem shape_of_last {before : List Shape} {shape : Shape} {i : ℕ}
    (shapes : s.shapes = before ++ [shape]) (last : before.length = i) :
    ∃ conn, s.connectionList[i]? = some conn ∧ conn.shape = shape := by
  have found : s.shapes[i]? = some shape := by
    rw [shapes, ← last, List.getElem?_concat_length]
  rw [Server.shapes, List.getElem?_map, Option.map_eq_some_iff] at found
  exact found

/-- The link of the last connection, when it has a client. -/
theorem link_of_last (held : s.HandlesHeld) (equipped : s.Equipped) {before : List Shape}
    {shape : Shape} {i c : ℕ} (shapes : s.shapes = before ++ [shape]) (last : before.length = i)
    (uses : shape.client = some c) :
    ∃ link, s.link i = some link ∧ link.conn.shape = shape := by
  obtain ⟨conn, found, rfl⟩ := shape_of_last shapes last
  obtain ⟨link, linked, rfl⟩ :=
    link_of_hasChannel held found uses (equipped.used i conn c found uses)
  exact ⟨link, linked, rfl⟩

theorem unspawned_of_shape {conn : ConnectionImpl TaggedByte} :
    (conn.shape.pull = false → conn.pull = .unspawned) ∧
      (conn.shape.push = false → conn.push = .unspawned) := by
  constructor
  · intro pull
    cases pc : conn.pull <;> simp_all [ConnectionImpl.shape, PullPc.isSpawned]
  · intro push
    cases pc : conn.push <;> simp_all [ConnectionImpl.shape, PushPc.isSpawned]

/-- **A connection that gets its client is a new link.** -/
theorem begins_setSshClient (laid : s.LaidOut) (recorded : s.Recorded) (held : s.HandlesHeld)
    (unused : s.Unused) (equipped : s.Equipped) {j c : ℕ} (pc : s.listener = .tunnelled j c) :
    s.link j = none ∧ ∃ link, (s.onState (.setSshClient · j c)).link j = some link ∧
      link.core = Link.fresh link.client 0 := by
  have fits := laid.fits
  rw [pc] at fits
  obtain ⟨rfl, -, before, shapes, last⟩ := fits
  obtain ⟨conn, found, shape⟩ := shape_of_last shapes last
  obtain ⟨client, channel, foundClient, opened⟩ := equipped.ready _ _ pc
  obtain ⟨record, foundRecord, -⟩ := (held c client foundClient).2 channel opened
  have null : conn.sshClient = none := congrArg Shape.client shape
  have pull : conn.pull = .unspawned := unspawned_of_shape.1 (congrArg Shape.pull shape)
  have push : conn.push = .unspawned := unspawned_of_shape.2 (congrArg Shape.push shape)
  obtain ⟨socket, buffer⟩ := unused.conns c conn found (by rw [pull]; rfl) (by rw [push]; rfl)
  have quiet := unused.channels c channel (record.accepted, record.returned)
    (recorded.named c client foundClient channel opened)
    (by simp [Libssh2.traffic, foundRecord]) (by
      intro other foundOther
      cases found.symm.trans foundOther
      exact null)
  obtain ⟨accepted, returned⟩ := Prod.mk.inj quiet
  refine ⟨by simp [Server.link, found, null], ⟨{ conn with sshClient := some c }, client, record⟩,
    ?_, ?_⟩
  · simp [Server.link, onState, ListenerState.setSshClient, ListenerState.setConn, found,
      foundClient, opened, foundRecord]
  · simp [Link.core, ConnectionImpl.core, Link.fresh, socket, buffer, pull, push, PullPc.up,
      PushPc.up, accepted, returned]

theorem eventAt_self (i : ℕ) (action : LinkAction TaggedByte) :
    eventAt i (some (i, action)) = some action := if_pos rfl

theorem eventAt_other {i j : ℕ} (apart : j ≠ i) (action : LinkAction TaggedByte) :
    eventAt i (some (j, action)) = none := if_neg apart

/-- What a spawn does to a link. -/
theorem follows_spawn {mode : SpawnMode} {i j : ℕ} {link : Link TaggedByte}
    (linked : s.link j = some link) {f : ConnectionImpl TaggedByte → ConnectionImpl TaggedByte}
    (keeps : (f link.conn).sshClient = link.conn.sshClient) {action : LinkAction TaggedByte}
    (spawns : ({ link with conn := f link.conn } : Link TaggedByte).core = link.core ∧
        mode = .posted ∨
      link.core.act action = some ({ link with conn := f link.conn } : Link TaggedByte).core ∧
        mode = .inline) :
    LinkFollows (s.link i)
      (eventAt i (takenUp mode (j, action)))
      ((s.onState (.setConn · j f)).link i) := by
  by_cases own : j = i
  · subst own
    rw [linked, link_setConn linked keeps]
    rcases spawns with ⟨same, rfl⟩ | ⟨acted, rfl⟩
    · exact .rests (congrArg some same)
    · simp only [takenUp, eventAt_self]
      exact .acts acted
  · have rests := core_link_modify (s := s) (i := i) (j := j) (f := f)
      fun conn here _ => absurd here.symm own
    have hidden : eventAt i (takenUp mode (j, action)) = none := by
      cases mode with
      | inline => exact eventAt_other own action
      | posted => rfl
    rw [hidden]
    exact .rests rests

/-- **A statement of the accept loop and the links.** -/
theorem follows_listenerStep {mode : SpawnMode} {next : Server T} {effect : Effect}
    (laid : s.LaidOut) (recorded : s.Recorded) (held : s.HandlesHeld) (unused : s.Unused)
    (equipped : s.Equipped) (stepped : s.listenerStep mode = some (next, effect)) (i : ℕ) :
    LinkFollows (s.link i) (eventAt i (spawnEvent mode s.listener)) (next.link i) := by
  have fits := laid.fits
  have quiet : ∀ pc, (∀ j, pc ≠ .clientSet j) → (∀ j, pc ≠ .pullSpawned j) →
      eventAt i (spawnEvent mode pc) = none := by
    intro pc noPull noPush
    unfold spawnEvent
    split
    next j => exact absurd rfl (noPull j)
    next j => exact absurd rfl (noPush j)
    next => rfl
  cases listenerStep_moves stepped with
  | returns here | accepts here | retries here =>
      rw [here, quiet _ (by simp) (by simp)]
      exact .rests rfl
  | publishes here =>
      rw [here, quiet _ (by simp) (by simp)]
      exact .rests (core_link_publish i)
  | numbers here =>
      rw [here, quiet _ (by simp) (by simp)]
      exact .rests (core_link_modify fun conn _ _ => ⟨rfl, rfl⟩)
  | creates here =>
      rw [here, quiet _ (by simp) (by simp)]
      exact .rests (core_link_makeClient laid i)
  | @hands j c here =>
      rw [here, quiet _ (by simp) (by simp)]
      by_cases own : j = i
      · subst own
        obtain ⟨before, link, after, new⟩ := begins_setSshClient laid recorded held
          unused equipped here
        rw [before]
        show LinkFollows none none ((s.onState (.setSshClient · j c)).link j)
        rw [after]
        exact .begins new
      · exact .rests (core_link_modify fun conn same _ => absurd same.symm own)
  | @spawnsPull j here =>
      rw [here] at fits ⊢
      obtain ⟨-, before, shapes, last⟩ := fits
      obtain ⟨link, linked, shape⟩ := link_of_last held equipped shapes last rfl
      have unspawned : link.conn.pull = .unspawned :=
        unspawned_of_shape.1 (congrArg Shape.pull shape)
      exact follows_spawn (f := fun conn => { conn with pull := Link.pullStart mode }) linked rfl
        (Link.core_spawnPull mode unspawned)
  | @spawnsPush j here =>
      rw [here] at fits ⊢
      obtain ⟨-, before, shapes, last⟩ := fits
      obtain ⟨link, linked, shape⟩ := link_of_last held equipped shapes last rfl
      have unspawned : link.conn.push = .unspawned :=
        unspawned_of_shape.2 (congrArg Shape.push shape)
      exact follows_spawn (f := fun conn => { conn with push := Link.pushStart mode }) linked rfl
        (Link.core_spawnPush mode unspawned)

/-- What a pump does to its link and to those of the others. -/
theorem follows_pump (laid : s.LaidOut) (recorded : s.Recorded) {j : ℕ}
    {link next : Link TaggedByte} {action : LinkAction TaggedByte}
    (linked : s.link j = some link) (acted : link.act action = some next) (i : ℕ) :
    LinkFollows (s.link i) (eventAt i (some (j, action))) ((s.setLink j next).link i) := by
  have frame := Link.frame_act acted
  by_cases own : j = i
  · subst own
    rw [linked, link_setLink linked frame, eventAt_self]
    exact .acts (Link.core_act acted)
  · rw [eventAt_other own, link_setLink_other laid recorded (Ne.symm own) linked frame]
    exact .rests rfl

/-- What the threads, the position of the accept loop and the backlog do to a link. -/
theorem link_congr {next : Server T} (same : next.toListenerState = s.toListenerState) (i : ℕ) :
    next.link i = s.link i := by
  unfold Server.link
  rw [same]

/-- **A step of the server, as an observer of one connection sees it.** -/
theorem link_follows {mode : SpawnMode} {action : ServerAction T} (inPlace : s.InPlace)
    (moved : Moves mode s action s') (i : ℕ) :
    LinkFollows (s.link i) (s.observeAt mode i action) (s'.link i) := by
  obtain ⟨laid, order, held, unused, equipped⟩ := inPlace
  have recorded := order.recorded
  unfold observeAt
  cases moved with
  | listenerRuns top stepped =>
      rw [link_congr (applyEffect_toListenerState ..)]
      simp only [observe, top]
      exact follows_listenerStep laid recorded held unused equipped stepped i
  | @pullRuns t j link next effect top linked stepped =>
      have acted : link.act .pullStep = some next := by rw [Link.act, stepped]; rfl
      rw [link_congr (applyEffect_toListenerState ..)]
      simp only [observe, top]
      exact follows_pump laid recorded linked acted i
  | @pushRuns t j link next effect top linked stepped =>
      have acted : link.act .pushStep = some next := by rw [Link.act, stepped]; rfl
      rw [link_congr (applyEffect_toListenerState ..)]
      simp only [observe, top]
      exact follows_pump laid recorded linked acted i
  | @pullResumes t j link next idle linked resumed =>
      have acted : link.act .pullResume = some next := resumed
      exact follows_pump laid recorded linked acted i
  | @pushResumes t j link next idle linked resumed =>
      have acted : link.act .pushResume = some next := resumed
      exact follows_pump laid recorded linked acted i
  | @readReturns t j link next channel result top linked named ended =>
      have acted : link.act (.pullReturn _) = some next := ended
      simp only [observe, top, named, Option.map_some]
      exact follows_pump laid recorded linked acted i
  | @writeReturns t j link next result top linked ended =>
      have acted : link.act (.pushReturn result) = some next := ended
      simp only [observe, top]
      exact follows_pump laid recorded linked acted i
  | @readsLocal j link next completion linked woken =>
      have acted : link.act (.pushWake _) = some next := woken
      exact follows_pump laid recorded linked acted i
  | @writesLocal j link next ec linked woken =>
      have acted : link.act (.pullWake ec) = some next := woken
      exact follows_pump laid recorded linked acted i
  | setUpReturns top ended =>
      exact .rests (core_link_setUp laid order (listenerReturn_moves ended) i)
  | listenerStarts idle pc | listenerResumes idle pc | clientArrives | acceptFails pc
  | accepts pc waiting => exact .rests rfl

/-! ## Runs -/

/-- A link that comes from a run of its own: the one of these actions, from a new link. -/
def Alone (seen : List (LinkAction TaggedByte)) : Option (Link TaggedByte) → Prop
  | none => seen = []
  | some link => ∃ client : ClientImpl TaggedByte,
      (linkMachine client 0).exec (Link.fresh client 0) seen = some link.core

/-- What follows a link that comes from a run of its own comes from one. -/
theorem Alone.follows {seen : List (LinkAction TaggedByte)}
    {before after : Option (Link TaggedByte)} {event : Option (LinkAction TaggedByte)}
    (alone : Alone seen before) (follows : LinkFollows before event after) :
    Alone (seen ++ event.toList) after := by
  cases follows with
  | acts acted =>
      obtain ⟨client, run⟩ := alone
      refine ⟨client, ?_⟩
      exact (linkMachine client 0).exec_concat_eq_some.mpr ⟨_, run, acted⟩
  | rests same =>
      rw [Option.toList_none, List.append_nil]
      cases before with
      | none =>
          rw [Option.map_none, Option.map_eq_none_iff] at same
          subst same
          exact alone
      | some link =>
          obtain ⟨next, rfl, core⟩ := Option.map_eq_some_iff.mp same
          obtain ⟨client, run⟩ := alone
          exact ⟨client, run.trans (congrArg some core.symm)⟩
  | @begins link new =>
      obtain rfl : seen = [] := alone
      exact ⟨link.client, congrArg some new.symm⟩

/-- Every link of a run of the server comes from a run of its own. -/
theorem alone_exec {mode : SpawnMode} {clientState : ClientState} {actions : List (ServerAction T)}
    (run : (serverMachine T mode clientState).exec (serverMachine T mode clientState).init actions =
      some s) (i : ℕ) :
    Alone ((serverMachine T mode clientState).trace (observeAt mode i)
      (serverMachine T mode clientState).init actions) (s.link i) := by
  induction actions using List.reverseRecOn generalizing s with
  | nil =>
      rw [Machine.exec_nil, Option.some.injEq] at run
      subst run
      rfl
  | append_singleton before action ih =>
      obtain ⟨middle, toMiddle, stepped⟩ := Machine.exec_concat_eq_some _ |>.mp run
      rw [Machine.trace_concat toMiddle stepped]
      exact (ih toMiddle).follows
        (link_follows (inPlace ⟨before, toMiddle⟩) (step_moves stepped).2 i)

end Server

/-- **Every connection of the tunnel server runs by itself.** In every run, on any number of
threads and among any other clients, the pumps of a connection come to what they come to
when they are alone and take the actions they took in the run; and a connection without a
client has taken none. -/
theorem connection_runs_alone {T : ℕ} (mode : SpawnMode) (clientState : ClientState)
    (actions : List (ServerAction T)) (s : Server T)
    (run : (serverMachine T mode clientState).exec (serverMachine T mode clientState).init actions =
      some s) (i : ℕ) :
    (s.link i = none → (serverMachine T mode clientState).trace (Server.observeAt mode i)
      (serverMachine T mode clientState).init actions = []) ∧
    ∀ link, s.link i = some link → ∃ client : ClientImpl TaggedByte,
      (linkMachine client 0).exec (Link.fresh client 0)
        ((serverMachine T mode clientState).trace (Server.observeAt mode i)
          (serverMachine T mode clientState).init actions) = some link.core := by
  have alone := Server.alone_exec run i
  constructor
  · intro unlinked
    rw [unlinked] at alone
    exact alone
  · intro link linked
    rw [linked] at alone
    exact alone

theorem connection_runs_alone_pullThrough :
    ∃ s, (serverMachine 1 .posted {}).exec (serverMachine 1 .posted {}).init pullThrough = some s ∧
      ∃ link, s.link 0 = some link ∧ link.core.conn.srcSocket.written = [⟨9, .channel 0⟩] ∧
        ∃ client : ClientImpl TaggedByte, (linkMachine client 0).exec (Link.fresh client 0)
          ((serverMachine 1 .posted {}).trace (Server.observeAt .posted 0)
            (serverMachine 1 .posted {}).init pullThrough) = some link.core :=
  ⟨_, rfl, _, rfl, rfl, (connection_runs_alone .posted {} pullThrough _ rfl 0).2 _ rfl⟩

end BookFilerSsh
