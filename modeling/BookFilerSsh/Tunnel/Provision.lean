import BookFilerSsh.Tunnel.Teardown

/-!
# What the connections of the tunnel server are given

A connection is published without a client and without pumps, and nothing goes through it
until it gets them; a channel carries nothing before its client is given to a connection
(`Server.Unused`). The client that a connection gets has its channel and keeps it
(`Server.Equipped`). So the pumps of every connection with a client have a link to work
on (`Server.link_of_hasChannel`), and that link is new when the connection gets its
client.

`Server.InPlace` collects this with the layout, the history and the handles of the server,
and every reachable state has it (`Server.inPlace`).
-/

set_option autoImplicit false

namespace BookFilerSsh

open Lib.Tables

section Links

variable {β : Type}

/-- Only a spawned pump acts. -/
theorem Link.spawned_of_act {link next : Link β} {action : LinkAction β}
    (acted : link.act action = some next) :
    link.conn.pull.isSpawned = true ∨ link.conn.push.isSpawned = true := by
  cases pull : link.conn.pull with
  | unspawned =>
      cases push : link.conn.push with
      | unspawned =>
          cases action <;>
            simp [act, pullStep, pullReturn, pullWake, pullResume, pushStep, pushReturn, pushWake,
              pushResume, pull, push] at acted
      | _ => exact .inr rfl
  | _ => exact .inl rfl

/-- Nothing has gone through a connection whose pumps are not spawned. -/
def ConnectionImpl.Untouched (conn : ConnectionImpl β) : Prop :=
  conn.pull.isSpawned = false → conn.push.isSpawned = false →
    conn.srcSocket = {} ∧ conn.srcReadBuffer = []

end Links

namespace Server

variable {T : ℕ}

/-! ## Connections without pumps -/

/-- A connection without pumps is as it was published, and a channel carries nothing before
its client is given to a connection. -/
structure Unused (s : Server T) : Prop where
  conns : ∀ (i : ℕ) conn, s.connectionList[i]? = some conn → conn.Untouched
  channels : ∀ (c : ℕ) (channel : ChannelId) stream, .opened c channel ∈ s.history →
    s.lib.traffic[channel]? = some stream →
      (∀ conn, s.connectionList[c]? = some conn → conn.sshClient = none) → stream = ([], [])

variable {s s' : Server T}

/-- A step of a pump. -/
theorem unused_setLink (laid : s.LaidOut) (order : s.InOrder) (unused : s.Unused) {i : ℕ}
    {link next : Link TaggedByte} {action : LinkAction TaggedByte} (linked : s.link i = some link)
    (acted : link.act action = some next) : (s.setLink i next).Unused := by
  have frame := Link.frame_act acted
  obtain ⟨foundConn, c, uses, foundClient, channel, opened, foundChannel⟩ := link_eq_some linked
  obtain rfl := own_client laid foundConn uses
  have usesNext : next.conn.sshClient = some c := (congrArg Shape.client frame.shape).trans uses
  have here := order.recorded.named c link.client foundClient channel opened
  have insideConn := (List.getElem?_eq_some_iff.mp foundConn).1
  rw [setLink_eq uses opened frame]
  constructor
  · apply forall_set unused.conns
    intro pull push
    have pullSame : link.conn.pull.isSpawned = false :=
      (congrArg Shape.pull frame.shape).symm.trans pull
    have pushSame : link.conn.push.isSpawned = false :=
      (congrArg Shape.push frame.shape).symm.trans push
    rcases Link.spawned_of_act acted with spawned | spawned
    · exact absurd (spawned.symm.trans pullSame) (by decide)
    · exact absurd (spawned.symm.trans pushSame) (by decide)
  · intro d channel' stream opened' found none
    by_cases own : d = c
    · subst own
      have null := none next.conn (List.getElem?_set_self insideConn)
      rw [usesNext] at null
      cases null
    · have different : channel ≠ channel' := by
        intro same
        exact own ((order.recorded.openedOnce d channel' c channel opened' here).mpr same.symm)
      refine unused.channels d channel' stream opened' ?_ ?_
      · rw [← found]
        simp [onState, Libssh2.traffic, List.map_set, List.getElem?_set_ne different]
      · intro conn foundD
        exact none conn ((List.getElem?_set_ne (Ne.symm own)).trans foundD)

/-- A statement of the accept loop takes no connection its client. -/
theorem conn_listenerStep {mode : SpawnMode} {next : Server T} {effect : Effect}
    (stepped : s.listenerStep mode = some (next, effect)) {i : ℕ} {conn : ConnectionImpl TaggedByte}
    (found : s.connectionList[i]? = some conn) :
    ∃ after, next.connectionList[i]? = some after ∧
      (after.sshClient = none → conn.sshClient = none) := by
  have modified : ∀ (j : ℕ) (f : ConnectionImpl TaggedByte → ConnectionImpl TaggedByte),
      (∀ conn, (f conn).sshClient = none → conn.sshClient = none) →
        ∃ after, (s.connectionList.modify j f)[i]? = some after ∧
          (after.sshClient = none → conn.sshClient = none) := by
    intro j f keeps
    refine ⟨if j = i then f conn else conn, ?_, ?_⟩
    · rw [List.getElem?_modify, found]
      rfl
    · split
      · exact keeps conn
      · exact id
  cases listenerStep_moves stepped with
  | publishes here =>
      have inside := (List.getElem?_eq_some_iff.mp found).1
      exact ⟨conn, (List.getElem?_append_left inside).trans found, id⟩
  | @numbers j here | @spawnsPull j here | @spawnsPush j here => exact modified j _ fun _ => id
  | @hands j c here => exact modified j _ fun _ null => by cases null
  | returns here | accepts here | retries here | creates here => exact ⟨conn, found, id⟩

/-- What the accept loop does to the ledger and the channels of the history. -/
theorem lib_listenerStep {mode : SpawnMode} {next : Server T} {effect : Effect}
    (stepped : s.listenerStep mode = some (next, effect)) :
    next.lib = s.lib ∧
      ∀ c channel, .opened c channel ∈ next.history → .opened c channel ∈ s.history := by
  cases listenerStep_moves stepped with
  | creates here =>
      refine ⟨rfl, fun c channel opened => ?_⟩
      simpa [record, setListener, onState] using opened
  | _ => exact ⟨rfl, fun _ _ opened => opened⟩

theorem unused_listenerStep {mode : SpawnMode} {next : Server T} {effect : Effect}
    (unused : s.Unused) (stepped : s.listenerStep mode = some (next, effect)) : next.Unused := by
  obtain ⟨lib, history⟩ := lib_listenerStep stepped
  constructor
  · refine forall_conn_listenerStep ?_ ?_ ?_ ?_ ?_ unused.conns stepped
    · exact fun _ _ => ⟨rfl, rfl⟩
    · exact fun _ _ untouched => untouched
    · exact fun _ _ untouched => untouched
    · intro conn mode _ pull
      cases mode <;> cases pull
    · intro conn mode _ _ push
      cases mode <;> cases push
  · intro c channel stream opened found none
    rw [lib] at found
    refine unused.channels c channel stream (history c channel opened) found ?_
    intro conn foundConn
    obtain ⟨after, foundAfter, back⟩ := conn_listenerStep stepped foundConn
    exact back (none after foundAfter)

/-- A call of the set-up. -/
theorem unused_setUp (unused : s.Unused) (moved : SetUpMoves s s') : s'.Unused := by
  have quiet : ∀ {c : ℕ} {ctx after : Ctx TaggedByte}, s.ctx c = some ctx → ctx.Quiet after →
      (s.onState (.setCtx · c after)).Unused := by
    intro c ctx after found quiet
    have traffic : after.lib.traffic = s.lib.traffic := by
      rw [(ctx_eq_some found).2]
      exact quiet.traffic
    refine ⟨unused.conns, ?_⟩
    intro d channel stream opened foundStream none
    exact unused.channels d channel stream opened (traffic ▸ foundStream) none
  cases moved with
  | binds here goes => exact ⟨unused.conns, unused.channels⟩
  | faults here found q | goesOn here there found q | drops here found q =>
      obtain ⟨conns, channels⟩ := quiet found q
      exact ⟨conns, channels⟩
  | @opens i c sid ctx here found session =>
      obtain ⟨foundClient, lib⟩ := ctx_eq_some found
      have streams : (ctx.openCommandChannel true).lib.traffic = s.lib.traffic ++ [([], [])] := by
        simp [Ctx.openCommandChannel_session session, Libssh2.traffic, Libssh2.openChannel, lib]
      refine ⟨unused.conns, ?_⟩
      intro d channel stream opened foundStream none
      simp only [onState, record, setListener, ListenerState.setCtx, streams, List.mem_append,
        List.mem_singleton] at opened foundStream
      by_cases last : channel = s.lib.traffic.length
      · subst last
        rw [List.getElem?_concat_length, Option.some.injEq] at foundStream
        exact foundStream.symm
      · rcases opened with old | new
        · refine unused.channels d channel stream old ?_ none
          have inside := (List.getElem?_eq_some_iff.mp foundStream).1
          rw [List.length_append, List.length_singleton] at inside
          rwa [List.getElem?_append_left
            (Nat.lt_of_le_of_ne (Nat.le_of_lt_succ inside) last)] at foundStream
        · cases new
          exact absurd (by simp [Libssh2.traffic]) last

theorem unused_changes (laid : s.LaidOut) (order : s.InOrder) (unused : s.Unused)
    (changed : Changes s s') : s'.Unused := by
  cases changed with
  | pump action threads linked named acted brings =>
      obtain ⟨conns, channels⟩ := unused_setLink laid order unused linked acted
      exact ⟨conns, channels⟩
  | listener stepped =>
      obtain ⟨conns, channels⟩ := unused_listenerStep unused stepped
      exact ⟨conns, channels⟩
  | position pc backlog threads fits setUp => exact ⟨unused.conns, unused.channels⟩
  | setUp moved => exact unused_setUp unused moved

/-! ## Connections with a client -/

/-- The `c`-th client has its channel. -/
def HasChannel (s : Server T) (c : ℕ) : Prop :=
  ∃ client channel, s.clients[c]? = some client ∧ client.commandChannel = some channel

/-- The client of a connection has its channel, as has one that is about to be given to a
connection. -/
structure Equipped (s : Server T) : Prop where
  used : ∀ (i : ℕ) conn c, s.connectionList[i]? = some conn → conn.sshClient = some c →
    s.HasChannel c
  ready : ∀ i c, s.listener = .tunnelled i c → s.HasChannel c

/-- The link of a connection whose client has its channel. -/
theorem link_of_hasChannel (held : s.HandlesHeld) {i c : ℕ} {conn : ConnectionImpl TaggedByte}
    (found : s.connectionList[i]? = some conn) (uses : conn.sshClient = some c)
    (has : s.HasChannel c) : ∃ link, s.link i = some link ∧ link.conn = conn := by
  obtain ⟨client, channel, foundClient, opened⟩ := has
  obtain ⟨record, foundRecord, -⟩ := (held c client foundClient).2 channel opened
  refine ⟨⟨conn, client, record⟩, ?_, rfl⟩
  simp [Server.link, found, uses, foundClient, opened, foundRecord]

/-- A client with a channel is not in set-up. -/
theorem HasChannel.apart {i c d : ℕ} {ctx : Ctx TaggedByte} (has : s.HasChannel d)
    (order : s.InOrder) (here : s.listener.inSetUp = some (i, c)) (found : s.ctx c = some ctx) :
    c ≠ d := by
  rintro rfl
  obtain ⟨client, channel, foundClient, opened⟩ := has
  have same : client = ctx.client :=
    Option.some.inj (foundClient.symm.trans (ctx_eq_some found).1)
  rw [same, channel_of_inSetUp order here found] at opened
  cases opened

/-- The accept loop drops no client. -/
theorem client_listenerStep {mode : SpawnMode} {next : Server T} {effect : Effect}
    (stepped : s.listenerStep mode = some (next, effect)) {d : ℕ}
    {client : ClientImpl TaggedByte} (found : s.clients[d]? = some client) :
    next.clients[d]? = some client := by
  cases listenerStep_moves stepped with
  | creates here =>
      have inside := (List.getElem?_eq_some_iff.mp found).1
      exact (List.getElem?_append_left inside).trans found
  | _ => exact found

/-- A connection has had its client, or the accept loop has just set up that client. -/
def HadClient (s : Server T) (i : ℕ) (conn : ConnectionImpl TaggedByte) : Prop :=
  ∀ c, conn.sshClient = some c →
    (∃ before, s.connectionList[i]? = some before ∧ before.sshClient = some c) ∨
      s.listener = .tunnelled i c

theorem hadClient_listenerStep {mode : SpawnMode} {next : Server T} {effect : Effect}
    (stepped : s.listenerStep mode = some (next, effect)) :
    ∀ i conn, next.connectionList[i]? = some conn → s.HadClient i conn := by
  have holds : ∀ (i : ℕ) conn, s.connectionList[i]? = some conn → s.HadClient i conn :=
    fun _ conn found _ uses => .inl ⟨conn, found, uses⟩
  have assigned : ∀ (j : ℕ) (f : ConnectionImpl TaggedByte → ConnectionImpl TaggedByte),
      (∀ conn, (f conn).sshClient = conn.sshClient) →
        ∀ i conn, (s.connectionList.modify j f)[i]? = some conn → s.HadClient i conn :=
    fun j f keeps => forall_modify holds fun conn found _ uses =>
      .inl ⟨conn, found, (keeps conn).symm.trans uses⟩
  cases listenerStep_moves stepped with
  | publishes here => exact forall_concat holds fun _ uses => by cases uses
  | @numbers j here | @spawnsPull j here | @spawnsPush j here => exact assigned j _ fun _ => rfl
  | hands here =>
      refine forall_modify holds fun _ _ d uses => .inr ?_
      cases uses
      exact here
  | returns here | accepts here | retries here | creates here => exact holds

theorem hadClient_changes (changed : Changes s s') :
    ∀ i conn, s'.connectionList[i]? = some conn → s.HadClient i conn := by
  have holds : ∀ (i : ℕ) conn, s.connectionList[i]? = some conn → s.HadClient i conn :=
    fun _ conn found _ uses => .inl ⟨conn, found, uses⟩
  cases changed with
  | pump action threads linked named acted brings =>
      have client := congrArg Shape.client (Link.frame_act acted).shape
      exact forall_set holds fun _ uses =>
        .inl ⟨_, (link_eq_some linked).1, client.symm.trans uses⟩
  | listener stepped =>
      have listed := hadClient_listenerStep stepped
      exact listed
  | position pc backlog threads fits setUp => exact holds
  | setUp moved =>
      rw [setUp_connectionList moved]
      exact holds

/-- **A client keeps its channel.** -/
theorem HasChannel.changes {d : ℕ} (has : s.HasChannel d) (order : s.InOrder)
    (changed : Changes s s') : s'.HasChannel d := by
  obtain ⟨client, channel, found, opened⟩ := id has
  have elsewhere : ∀ {i c : ℕ} {ctx after : Ctx TaggedByte}, s.listener.inSetUp = some (i, c) →
      s.ctx c = some ctx → (s.onState (.setCtx · c after)).clients[d]? = some client :=
    fun here foundCtx => (List.getElem?_set_ne (has.apart order here foundCtx)).trans found
  cases changed with
  | @pump i link next _ action threads linked named acted brings =>
      have frame := Link.frame_act acted
      obtain ⟨-, c, uses, foundClient, channel', opened', -⟩ := link_eq_some linked
      rw [setLink_eq uses opened' frame]
      by_cases own : c = d
      · subst own
        have inside := (List.getElem?_eq_some_iff.mp foundClient).1
        exact ⟨next.client, channel', List.getElem?_set_self inside,
          frame.commandChannel.trans opened'⟩
      · exact ⟨client, channel, (List.getElem?_set_ne own).trans found, opened⟩
  | listener stepped =>
      exact ⟨client, channel, client_listenerStep stepped found, opened⟩
  | position pc backlog threads fits setUp => exact has
  | setUp moved =>
      cases moved with
      | binds here goes => exact has
      | faults here foundCtx quiet | goesOn here there foundCtx quiet =>
          exact ⟨client, channel, elsewhere here foundCtx, opened⟩
      | opens here foundCtx session | drops here foundCtx quiet =>
          exact ⟨client, channel, elsewhere (by rw [here]; rfl) foundCtx, opened⟩

theorem untunnelled_listenerStep {mode : SpawnMode} {next : Server T} {effect : Effect}
    (stepped : s.listenerStep mode = some (next, effect)) (i c : ℕ) :
    next.listener ≠ .tunnelled i c := by
  cases listenerStep_moves stepped <;> exact ListenerPc.noConfusion

/-- Only the client that has just opened its channel is about to be given to a connection. -/
theorem ready_of_moves {mode : SpawnMode} {action : ServerAction T} {i c : ℕ}
    (moved : Moves mode s action s') (there : s'.listener = .tunnelled i c) :
    s.listener = .tunnelled i c ∨ s'.HasChannel c := by
  cases moved with
  | listenerRuns top stepped =>
      rw [applyEffect_listener] at there
      exact absurd there (untunnelled_listenerStep stepped i c)
  | pullRuns top linked stepped | pushRuns top linked stepped =>
      rw [applyEffect_listener] at there
      exact .inl there
  | setUpReturns top ended =>
      cases listenerReturn_moves ended with
      | binds here goes => rcases goes with rfl | rfl <;> cases there
      | faults here found quiet => exact .inl there
      | goesOn here inSetUp found quiet =>
          obtain rfl : _ = ListenerPc.tunnelled i c := there
          cases inSetUp
      | opens here found session =>
          cases there
          obtain ⟨foundClient, lib⟩ := ctx_eq_some found
          have inside := (List.getElem?_eq_some_iff.mp foundClient).1
          refine .inr ⟨_, s.lib.channels.length, List.getElem?_set_self inside, ?_⟩
          simp [Ctx.openCommandChannel_session session, lib]
      | drops here found quiet => cases there
  | listenerStarts idle pc | listenerResumes idle pc | acceptFails pc | accepts pc waiting =>
      cases there
  | _ => exact .inl there

theorem equipped_moves {mode : SpawnMode} {action : ServerAction T}
    (order : s.InOrder) (equipped : s.Equipped) (moved : Moves mode s action s') :
    s'.Equipped := by
  have changed := moved.changes
  refine ⟨?_, ?_⟩
  · intro i conn c found uses
    rcases hadClient_changes changed i conn found c uses with
      ⟨before, foundBefore, usesBefore⟩ | pc
    · exact (equipped.used i before c foundBefore usesBefore).changes order changed
    · exact (equipped.ready _ _ pc).changes order changed
  · intro i c there
    rcases ready_of_moves moved there with here | has
    · exact (equipped.ready i c here).changes order changed
    · exact has

/-! ## Reachable states -/

/-- What holds of every reachable state. -/
structure InPlace (s : Server T) : Prop where
  laid : s.LaidOut
  order : s.InOrder
  held : s.HandlesHeld
  unused : s.Unused
  equipped : s.Equipped

/-- **Every reachable state is in place.** -/
theorem inPlace {mode : SpawnMode} {clientState : ClientState}
    (reached : (serverMachine T mode clientState).Reachable s) : s.InPlace := by
  have kept : s.Unused ∧ s.Equipped := by
    refine (serverMachine T mode clientState).invariant_with
      (J := fun s => s.LaidOut ∧ s.InOrder) (I := fun s => s.Unused ∧ s.Equipped)
      (fun _ reached => ⟨layout reached, inOrder reached⟩) ?_ ?_ reached
    · refine ⟨⟨?_, ?_⟩, ⟨?_, ?_⟩⟩ <;> simp [serverMachine]
    · rintro s action next ⟨laid, order⟩ ⟨unused, equipped⟩ stepped
      have moved := (step_moves stepped).2
      exact ⟨unused_changes laid order unused moved.changes, equipped_moves order equipped moved⟩
  exact ⟨layout reached, inOrder reached, Server.held reached, kept.1, kept.2⟩

end Server

end BookFilerSsh
