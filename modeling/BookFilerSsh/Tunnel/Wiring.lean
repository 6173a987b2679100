import BookFilerSsh.Tunnel.Layout

/-!
# No connection of the tunnel server is cross-wired

Every byte carries where it was read. In every reachable state a byte handed to
the `i`-th accepted client was read from the channel that the client created in
the `i`-th iteration opened, a byte accepted by that channel was read from the
`i`-th accepted socket, and no client is used by two connections
(`never_crossWired`).

The invariant has three layers. A link is wired when everything on the way from
its channel to its socket has one property and everything on the way back another
one, which every action of its pumps keeps (`Link.wired_act`). The history of the
server names one iteration and one client for every channel (`Server.Recorded`).
The server is wired when the data of every connection, of every client and of
every channel have the origins the history gives them (`Server.Wired`).
-/

set_option autoImplicit false

namespace BookFilerSsh

open Lib.Tables

/-! ## Wired links -/

section Links

variable {β : Type}

/-- The bytes a position of `runPull` holds. -/
def PullPc.bytes : PullPc β → List β
  | .readDone result => result.bytes
  | .strCopied bufferStr | .lenCopied bufferStr _ | .writing bufferStr _ => bufferStr
  | _ => []

/-- The bytes a position of `runPush` holds. -/
def PushPc.bytes : PushPc β → List β
  | .sending bufferStr _ => bufferStr
  | _ => []

/-- What a connection holds on its way out has `P`, on its way in `Q`. -/
structure ConnectionImpl.Wired (P Q : β → Prop) (conn : ConnectionImpl β) : Prop where
  written : ∀ byte ∈ conn.srcSocket.written, P byte
  pulled : ∀ byte ∈ conn.pull.bytes, P byte
  buffered : ∀ byte ∈ conn.srcReadBuffer, Q byte
  pushed : ∀ byte ∈ conn.push.bytes, Q byte

/-- What a client was read and what it sends. -/
structure ClientImpl.Wired (P Q : β → Prop) (client : ClientImpl β) : Prop where
  readStr : ∀ byte ∈ client.commandChannelReadStr, P byte
  commandStr : ∀ byte ∈ client.commandStr, Q byte

/-- The bytes on the way out may have any weaker property. -/
theorem ConnectionImpl.Wired.mono {P P' Q : β → Prop} {conn : ConnectionImpl β}
    (wired : conn.Wired P Q) (weaker : ∀ byte, P byte → P' byte) : conn.Wired P' Q :=
  ⟨fun byte member => weaker byte (wired.written byte member),
    fun byte member => weaker byte (wired.pulled byte member), wired.buffered, wired.pushed⟩

theorem ClientImpl.Wired.mono {P P' Q : β → Prop} {client : ClientImpl β}
    (wired : client.Wired P Q) (weaker : ∀ byte, P byte → P' byte) : client.Wired P' Q :=
  ⟨fun byte member => weaker byte (wired.readStr byte member), wired.commandStr⟩

/-- A connection, its client and its channel. -/
structure Link.Wired (P Q : β → Prop) (link : Link β) : Prop where
  conn : link.conn.Wired P Q
  client : link.client.Wired P Q
  accepted : ∀ byte ∈ link.channel.accepted, Q byte

namespace Link

variable {P Q : β → Prop}

theorem forall_take {xs : List β} (holds : ∀ byte ∈ xs, P byte) (n : ℕ) :
    ∀ byte ∈ xs.take n, P byte :=
  fun byte member => holds byte (List.mem_of_mem_take member)

theorem wired_pullStep {link next : Link β} {effect : Effect} (wired : link.Wired P Q)
    (stepped : link.pullStep = some (next, effect)) : next.Wired P Q := by
  obtain ⟨⟨written, pulled, buffered, pushed⟩, ⟨readStr, commandStr⟩, accepted⟩ := wired
  unfold pullStep at stepped
  cases pc : link.conn.pull with
  | loopTop | readCleared =>
      simp only [pc, Option.some.injEq, Prod.mk.injEq] at stepped
      obtain ⟨rfl, -⟩ := stepped
      exact ⟨⟨written, by simp [setPull, PullPc.bytes], buffered, pushed⟩,
        ⟨by simp [setPull, setClient, ClientImpl.clearRead], commandStr⟩, accepted⟩
  | entered =>
      simp only [pc, Option.some.injEq, Prod.mk.injEq] at stepped
      obtain ⟨rfl, -⟩ := stepped
      exact ⟨⟨written, by simp [setPull, PullPc.bytes], buffered, pushed⟩,
        ⟨readStr, commandStr⟩, accepted⟩
  | readDone result =>
      simp only [pc] at stepped pulled
      split at stepped <;> cases stepped
      · exact ⟨⟨written, by simp [setPull, PullPc.bytes], buffered, pushed⟩,
          ⟨readStr, commandStr⟩, accepted⟩
      · refine ⟨⟨written, by simp [setPull, PullPc.bytes], buffered, pushed⟩,
          ⟨?_, commandStr⟩, accepted⟩
        exact List.forall_mem_append.mpr ⟨readStr, forall_take pulled _⟩
  | appended rc =>
      simp only [pc, outerRc, lt_irrefl, if_false, Option.some.injEq, Prod.mk.injEq] at stepped
      obtain ⟨rfl, -⟩ := stepped
      exact ⟨⟨written, by simp [setPull, PullPc.bytes], buffered, pushed⟩,
        ⟨readStr, commandStr⟩, accepted⟩
  | readReturned =>
      simp only [pc, Option.some.injEq, Prod.mk.injEq] at stepped
      obtain ⟨rfl, -⟩ := stepped
      exact ⟨⟨written, readStr, buffered, pushed⟩, ⟨readStr, commandStr⟩, accepted⟩
  | strCopied bufferStr =>
      simp only [pc, Option.some.injEq, Prod.mk.injEq] at stepped pulled
      obtain ⟨rfl, -⟩ := stepped
      exact ⟨⟨written, pulled, buffered, pushed⟩, ⟨readStr, commandStr⟩, accepted⟩
  | lenCopied bufferStr len =>
      simp only [pc] at stepped pulled
      split at stepped <;> cases stepped
      · exact ⟨⟨written, by simp [setPull, PullPc.bytes], buffered, pushed⟩,
          ⟨readStr, commandStr⟩, accepted⟩
      · refine ⟨⟨?_, pulled, buffered, pushed⟩, ⟨readStr, commandStr⟩, accepted⟩
        exact List.forall_mem_append.mpr ⟨written, forall_take pulled _⟩
  | resumed ec =>
      simp only [pc] at stepped
      split at stepped <;> cases stepped <;>
        exact ⟨⟨written, by simp [setPull, PullPc.bytes], buffered, pushed⟩,
          ⟨readStr, commandStr⟩, accepted⟩
  | _ => simp [pc] at stepped

theorem wired_pushStep {link next : Link β} {effect : Effect} (wired : link.Wired P Q)
    (stepped : link.pushStep = some (next, effect)) : next.Wired P Q := by
  obtain ⟨⟨written, pulled, buffered, pushed⟩, ⟨readStr, commandStr⟩, accepted⟩ := wired
  unfold pushStep at stepped
  cases pc : link.conn.push with
  | resumed bytesTransferred ec =>
      simp only [pc] at stepped
      split at stepped <;> cases stepped
      · exact ⟨⟨written, pulled, buffered, by simp [setPush, PushPc.bytes]⟩,
          ⟨readStr, commandStr⟩, accepted⟩
      · exact ⟨⟨written, pulled, buffered, forall_take buffered _⟩,
          ⟨readStr, commandStr⟩, accepted⟩
  | sending bufferStr len =>
      simp only [pc, Option.some.injEq, Prod.mk.injEq] at stepped pushed
      obtain ⟨rfl, -⟩ := stepped
      exact ⟨⟨written, pulled, buffered, by simp [setPush, PushPc.bytes]⟩,
        ⟨readStr, pushed⟩, accepted⟩
  | counted rc =>
      simp only [pc] at stepped
      split at stepped <;> cases stepped <;>
        exact ⟨⟨written, pulled, buffered, by simp [setPush, PushPc.bytes]⟩,
          ⟨readStr, commandStr⟩, accepted⟩
  | writeDone _ | sent _ =>
      simp only [pc] at stepped
      split at stepped <;> cases stepped <;>
        exact ⟨⟨written, pulled, buffered, by simp [setPush, PushPc.bytes]⟩,
          ⟨readStr, commandStr⟩, accepted⟩
  | loopTop | strSet _ | lenSet | writeEntered | writeLoopTop =>
      simp only [pc, Option.some.injEq, Prod.mk.injEq] at stepped
      obtain ⟨rfl, -⟩ := stepped
      exact ⟨⟨written, pulled, buffered, by simp [setPush, PushPc.bytes]⟩,
        ⟨readStr, commandStr⟩, accepted⟩
  | _ => simp [pc] at stepped

/-- **Every action keeps a link wired**, when the bytes it brings in are of the
right kind. -/
theorem wired_act {link next : Link β} {action : LinkAction β} (wired : link.Wired P Q)
    (brings : action.Brings P Q) (acted : link.act action = some next) : next.Wired P Q := by
  obtain ⟨⟨written, pulled, buffered, pushed⟩, ⟨readStr, commandStr⟩, accepted⟩ := id wired
  cases action with
  | pullStep =>
      obtain ⟨⟨after, effect⟩, stepped, rfl⟩ := Option.map_eq_some_iff.mp acted
      exact wired_pullStep wired stepped
  | pushStep =>
      obtain ⟨⟨after, effect⟩, stepped, rfl⟩ := Option.map_eq_some_iff.mp acted
      exact wired_pushStep wired stepped
  | pullReturn result =>
      simp only [act, pullReturn] at acted
      split at acted <;> cases acted
      exact ⟨⟨written, brings, buffered, pushed⟩, ⟨readStr, commandStr⟩, accepted⟩
  | pullWake ec =>
      simp only [act, pullWake] at acted
      split at acted <;> cases acted
      exact ⟨⟨written, by simp [setPull, PullPc.bytes], buffered, pushed⟩,
        ⟨readStr, commandStr⟩, accepted⟩
  | pullResume =>
      simp only [act, pullResume] at acted
      split at acted <;> cases acted <;>
        exact ⟨⟨written, by simp [setPull, PullPc.bytes], buffered, pushed⟩,
          ⟨readStr, commandStr⟩, accepted⟩
  | pushReturn result =>
      simp only [act, pushReturn] at acted
      split at acted <;> try split at acted
      all_goals cases acted
      refine ⟨⟨written, pulled, buffered, by simp [setPush, PushPc.bytes]⟩,
        ⟨readStr, commandStr⟩, ?_⟩
      exact List.forall_mem_append.mpr ⟨accepted, forall_take (forall_take commandStr _) _⟩
  | pushWake completion =>
      simp only [act, pushWake] at acted
      split at acted <;> try split at acted
      all_goals cases acted
      · refine ⟨⟨written, pulled, ?_, by simp [setPush, PushPc.bytes]⟩,
          ⟨readStr, commandStr⟩, accepted⟩
        exact List.forall_mem_append.mpr
          ⟨brings, fun byte member => buffered byte (List.mem_of_mem_drop member)⟩
      · exact ⟨⟨written, pulled, buffered, by simp [setPush, PushPc.bytes]⟩,
          ⟨readStr, commandStr⟩, accepted⟩
  | pushResume =>
      simp only [act, pushResume] at acted
      split at acted <;> cases acted <;>
        exact ⟨⟨written, pulled, buffered, by simp [setPush, PushPc.bytes]⟩,
          ⟨readStr, commandStr⟩, accepted⟩

end Link

end Links

/-! ## The history -/

namespace Server

variable {T : ℕ}

/-- The history names one iteration for every client and one client for every
channel, and no client that is being set up has a channel yet. -/
structure Recorded (s : Server T) : Prop where
  created : ∀ i c, .created i c ∈ s.history ↔ c = i ∧ i < s.clients.length
  opened : ∀ c channel, .opened c channel ∈ s.history →
    c < s.clients.length ∧ channel < s.lib.channels.length
  openedOnce : ∀ c channel c' channel', .opened c channel ∈ s.history →
    .opened c' channel' ∈ s.history → (c = c' ↔ channel = channel')
  unopened : ∀ i c channel, s.listener.inSetUp = some (i, c) → .opened c channel ∉ s.history
  named : ∀ c client, s.clients[c]? = some client →
    ∀ channel, client.commandChannel = some channel → .opened c channel ∈ s.history

/-- The session the `c`-th client holds. -/
def SessionOf (s : Server T) (c : ℕ) (sid : SessionId) : Prop :=
  ∃ client, s.clients[c]? = some client ∧ client.session = some sid

/-- Sessions of clients are sessions of the library, each of one client. -/
structure SessionsApart (s : Server T) : Prop where
  returned : ∀ c sid, s.SessionOf c sid → sid < s.lib.sessions.length
  apart : ∀ c c' sid, s.SessionOf c sid → s.SessionOf c' sid → c = c'

/-! ## The wired server -/

/-- The byte was read from the channel that the `i`-th client opened. -/
def FromChannel (s : Server T) (i : ℕ) (byte : TaggedByte) : Prop :=
  ∃ channel, .opened i channel ∈ s.history ∧ byte.origin = .channel channel

/-- The byte was read from the `i`-th accepted socket. -/
def FromSocket (i : ℕ) (byte : TaggedByte) : Prop := byte.origin = .socket i

/-- The data of every connection, client and channel have the origins the history
gives them. -/
structure Wired (s : Server T) : Prop where
  conns : ∀ (i : ℕ) (conn : ConnectionImpl TaggedByte), s.connectionList[i]? = some conn →
    conn.Wired (s.FromChannel i) (FromSocket i)
  clients : ∀ (c : ℕ) (client : ClientImpl TaggedByte), s.clients[c]? = some client →
    client.Wired (s.FromChannel c) (FromSocket c)
  traffic : ∀ (c : ℕ) (channel : ChannelId) (stream : List TaggedByte × List TaggedByte),
    .opened c channel ∈ s.history →
    s.lib.traffic[channel]? = some stream → ∀ byte ∈ stream.1, FromSocket c byte

/-- What the set-up of the history and the data of the server keep. -/
structure InOrder (s : Server T) : Prop where
  recorded : s.Recorded
  sessions : s.SessionsApart
  wired : s.Wired

/-! ### A step of a pump -/

/-- The channel of a connection was opened by its client. -/
theorem opened_of_channelOf {s : Server T} {i : ℕ} {channel : ChannelId} (laid : s.LaidOut)
    (recorded : s.Recorded) (named : s.channelOf i = some channel) :
    .opened i channel ∈ s.history := by
  simp only [channelOf, Option.bind_eq_bind, Option.bind_eq_some_iff] at named
  obtain ⟨conn, foundConn, c, uses, client, foundClient, opened⟩ := named
  obtain rfl := own_client laid foundConn uses
  exact recorded.named c client foundClient channel opened

theorem inOrder_setLink {s : Server T} {i : ℕ} {link next : Link TaggedByte} (laid : s.LaidOut)
    (order : s.InOrder) (linked : s.link i = some link) (frame : link.Frame next)
    (wired : next.Wired (s.FromChannel i) (FromSocket i)) : (s.setLink i next).InOrder := by
  obtain ⟨recorded, ⟨returned, apart⟩, ⟨conns, clients, traffic⟩⟩ := order
  obtain ⟨foundConn, c, uses, foundClient, channel, opened, foundChannel⟩ := link_eq_some linked
  obtain rfl := own_client laid foundConn uses
  have here := recorded.named c link.client foundClient channel opened
  rw [setLink_eq uses opened frame]
  have sessionBack : ∀ d sid, SessionOf (s.onState fun state =>
      { state with
        connectionList := state.connectionList.set c next.conn
        clients := state.clients.set c next.client
        lib := { state.lib with channels := state.lib.channels.set channel next.channel } }) d sid →
      s.SessionOf d sid := by
    rintro d sid ⟨client, found, holds⟩
    exact forall_set (P := fun d client => ∀ sid, client.session = some sid → s.SessionOf d sid)
      (fun d client found sid holds => ⟨client, found, holds⟩)
      (fun sid holds => ⟨link.client, foundClient, frame.session.symm.trans holds⟩)
      d client found sid holds
  refine ⟨⟨?_, ?_, recorded.openedOnce, recorded.unopened, ?_⟩, ⟨?_, ?_⟩, ⟨?_, ?_, ?_⟩⟩
  · simpa [onState] using recorded.created
  · simpa [onState] using recorded.opened
  · refine forall_set recorded.named fun channel' opened' => ?_
    exact recorded.named c link.client foundClient channel'
      (frame.commandChannel.symm.trans opened')
  · exact fun d sid holds => returned d sid (sessionBack d sid holds)
  · exact fun d d' sid holds holds' =>
      apart d d' sid (sessionBack d sid holds) (sessionBack d' sid holds')
  · exact forall_set conns wired.conn
  · exact forall_set clients wired.client
  · intro d channel' stream opened' found
    simp only [onState, Libssh2.traffic, List.map_set] at found
    have streams := forall_set
      (P := fun channel' stream =>
        .opened d channel' ∈ s.history → ∀ byte ∈ stream.1, FromSocket d byte)
      (fun channel' stream found opened' => traffic d channel' stream opened' found)
      (fun opened' => ?_) channel' stream found
    · exact streams opened'
    · obtain rfl := (recorded.openedOnce d channel c channel opened' here).mpr rfl
      exact wired.accepted

/-! ### The set-up of a client -/

/-- Positions that are in no set-up the state was not in before may change freely. -/
theorem InOrder.congr {s s' : Server T} (order : s.InOrder)
    (state : s'.toListenerState = s.toListenerState) (history : s'.history = s.history)
    (setUp : ∀ pair, s'.listener.inSetUp = some pair → s.listener.inSetUp = some pair) :
    s'.InOrder := by
  obtain ⟨⟨created, opened, openedOnce, unopened, named⟩, ⟨returned, apart⟩,
    ⟨conns, clients, traffic⟩⟩ := order
  cases s
  cases s'
  simp only at state history
  subst state history
  exact ⟨⟨created, opened, openedOnce, fun i c channel here => unopened i c channel (setUp _ here),
    named⟩, ⟨returned, apart⟩, ⟨conns, clients, traffic⟩⟩

theorem ctx_eq_some {s : Server T} {c : ℕ} {ctx : Ctx TaggedByte} (found : s.ctx c = some ctx) :
    s.clients[c]? = some ctx.client ∧ s.lib = ctx.lib := by
  simp only [ListenerState.ctx, Option.map_eq_some_iff] at found
  obtain ⟨client, foundClient, rfl⟩ := found
  exact ⟨foundClient, rfl⟩

/-- A call that changes one client and the ledger, and gets at most new sessions,
keeps sessions apart. -/
theorem sessionsApart_setCtx {s : Server T} {c : ℕ} {ctx after : Ctx TaggedByte}
    (sessions : s.SessionsApart) (found : s.ctx c = some ctx)
    (grows : ctx.lib.sessions.length ≤ after.lib.sessions.length)
    (new : ∀ sid, after.client.session = some sid → ctx.client.session = some sid ∨
      (ctx.lib.sessions.length ≤ sid ∧ sid < after.lib.sessions.length)) :
    (s.onState (.setCtx · c after)).SessionsApart := by
  obtain ⟨returned, apart⟩ := sessions
  obtain ⟨foundClient, lib⟩ := ctx_eq_some found
  have back : ∀ d sid, (s.onState (.setCtx · c after)).SessionOf d sid → s.SessionOf d sid ∨
      (d = c ∧ ctx.lib.sessions.length ≤ sid ∧ sid < after.lib.sessions.length) := by
    rintro d sid ⟨client, foundD, holds⟩
    refine forall_set
      (P := fun d client => ∀ sid, client.session = some sid → s.SessionOf d sid ∨
        (d = c ∧ ctx.lib.sessions.length ≤ sid ∧ sid < after.lib.sessions.length))
      (fun d client found sid holds => Or.inl ⟨client, found, holds⟩) (fun sid holds => ?_)
      d client foundD sid holds
    exact (new sid holds).imp (fun old => ⟨ctx.client, foundClient, old⟩) fun fresh => ⟨rfl, fresh⟩
  rw [lib] at returned
  refine ⟨fun d sid holds => ?_, fun d d' sid holds holds' => ?_⟩
  · rcases back d sid holds with old | ⟨-, -, below⟩
    · exact Nat.lt_of_lt_of_le (returned d sid old) grows
    · exact below
  · rcases back d sid holds with old | ⟨same, fresh, -⟩ <;>
      rcases back d' sid holds' with old' | ⟨same', fresh', -⟩
    · exact apart d d' sid old old'
    · exact absurd (returned d sid old) (Nat.not_lt.mpr fresh')
    · exact absurd (returned d' sid old') (Nat.not_lt.mpr fresh)
    · exact same.trans same'.symm

/-- A quiet call of the set-up. -/
theorem inOrder_setCtx {s : Server T} {c : ℕ} {ctx after : Ctx TaggedByte} (order : s.InOrder)
    (found : s.ctx c = some ctx) (quiet : ctx.Quiet after) :
    (s.onState (.setCtx · c after)).InOrder := by
  obtain ⟨recorded, sessions, ⟨conns, clients, traffic⟩⟩ := order
  obtain ⟨foundClient, lib⟩ := ctx_eq_some found
  have sameTraffic : after.lib.traffic = s.lib.traffic := lib ▸ quiet.traffic
  have sameCount : after.lib.channels.length = s.lib.channels.length := by
    simpa [Libssh2.traffic] using congrArg List.length sameTraffic
  refine ⟨⟨?_, ?_, recorded.openedOnce, recorded.unopened, ?_⟩,
    sessionsApart_setCtx sessions found quiet.sessions quiet.session, ⟨conns, ?_, ?_⟩⟩
  · simpa [onState, ListenerState.setCtx] using recorded.created
  · simpa [onState, ListenerState.setCtx, sameCount] using recorded.opened
  · refine forall_set recorded.named fun channel opened => ?_
    rcases quiet.channel with same | null
    · exact recorded.named c ctx.client foundClient channel (same.symm.trans opened)
    · rw [null] at opened
      cases opened
  · have before := clients c ctx.client foundClient
    exact forall_set clients
      ⟨by rw [quiet.readStr]; exact before.readStr,
        by rw [quiet.commandStr]; exact before.commandStr⟩
  · intro d channel stream opened found
    exact traffic d channel stream opened (by rw [← sameTraffic]; exact found)

/-- The history names the channel that a client opens: it is a new one, and its first. -/
theorem recorded_opens {s : Server T} {i c : ℕ} {sid : SessionId} {ctx : Ctx TaggedByte}
    (recorded : s.Recorded) (here : s.listener = .opening i c) (found : s.ctx c = some ctx)
    (session : ctx.client.session = some sid) :
    (((s.onState (.setCtx · c (ctx.openCommandChannel true))).record
      (.opened c s.lib.channels.length)).setListener (.tunnelled i c)).Recorded := by
  obtain ⟨foundClient, lib⟩ := ctx_eq_some found
  have newClient : ∀ channel, .opened c channel ∉ s.history :=
    fun channel => recorded.unopened i c channel (by rw [here]; rfl)
  have newChannel : ∀ d, .opened d s.lib.channels.length ∉ s.history :=
    fun d member => Nat.lt_irrefl _ (recorded.opened d _ member).2
  have inside : c < s.clients.length := (List.getElem?_eq_some_iff.mp foundClient).1
  refine ⟨fun j d => ?_, ?_, ?_, fun j d channel inSetUp => ?_, ?_⟩
  · simpa [onState, record, setListener, ListenerState.setCtx] using recorded.created j d
  · intro d channel opened
    have lengths : (ctx.openCommandChannel true).lib.channels.length =
        s.lib.channels.length + 1 := by
      simp [Ctx.openCommandChannel_session session, Libssh2.openChannel, lib]
    simp only [onState, record, setListener, ListenerState.setCtx, List.length_set, lengths,
      List.mem_append, List.mem_singleton] at opened ⊢
    rcases opened with old | new
    · have before := recorded.opened d channel old
      exact ⟨before.1, Nat.lt_succ_of_lt before.2⟩
    · cases new
      exact ⟨inside, Nat.lt_succ_self _⟩
  · intro d channel d' channel' opened opened'
    simp only [onState, record, setListener, List.mem_append, List.mem_singleton] at opened opened'
    rcases opened with old | new <;> rcases opened' with old' | new'
    · exact recorded.openedOnce d channel d' channel' old old'
    · cases new'
      refine ⟨?_, ?_⟩ <;> rintro rfl
      · exact absurd old (newClient channel)
      · exact absurd old (newChannel d)
    · cases new
      refine ⟨?_, ?_⟩ <;> rintro rfl
      · exact absurd old' (newClient channel')
      · exact absurd old' (newChannel d')
    · cases new
      cases new'
      simp
  · simp [setListener, ListenerPc.inSetUp] at inSetUp
  · refine forall_set
      (fun d client found channel opened =>
        List.mem_append_left _ (recorded.named d client found channel opened))
      fun channel opened => ?_
    simp only [Ctx.openCommandChannel_session session, ← lib] at opened
    cases opened
    exact List.mem_append_right _ (List.mem_singleton.mpr rfl)

/-- No byte has gone through the new channel. -/
theorem wired_opens {s : Server T} {i c : ℕ} {sid : SessionId} {ctx : Ctx TaggedByte}
    (wired : s.Wired) (found : s.ctx c = some ctx) (session : ctx.client.session = some sid) :
    (((s.onState (.setCtx · c (ctx.openCommandChannel true))).record
      (.opened c s.lib.channels.length)).setListener (.tunnelled i c)).Wired := by
  obtain ⟨conns, clients, traffic⟩ := wired
  obtain ⟨foundClient, lib⟩ := ctx_eq_some found
  have grows : ∀ d byte, s.FromChannel d byte →
      (((s.onState (.setCtx · c (ctx.openCommandChannel true))).record
        (.opened c s.lib.channels.length)).setListener (.tunnelled i c)).FromChannel d byte :=
    fun _ _ => Exists.imp fun _ => And.imp (List.mem_append_left _) id
  refine ⟨fun j conn foundConn => (conns j conn foundConn).mono (grows j), ?_, ?_⟩
  · have opens : ((ctx.openCommandChannel true).client.Wired (s.FromChannel c) (FromSocket c)) := by
      have before := clients c ctx.client foundClient
      rw [Ctx.openCommandChannel_session session]
      exact ⟨before.readStr, before.commandStr⟩
    exact forall_set (fun d client foundD => (clients d client foundD).mono (grows d))
      (opens.mono (grows c))
  · intro d channel stream opened foundStream
    have streams : (ctx.openCommandChannel true).lib.traffic = s.lib.traffic ++ [([], [])] := by
      simp [Ctx.openCommandChannel_session session, Libssh2.traffic, Libssh2.openChannel, lib]
    simp only [onState, record, setListener, ListenerState.setCtx, streams, List.mem_append,
      List.mem_singleton] at opened foundStream
    refine forall_concat
      (P := fun channel stream => (.opened d channel ∈ s.history ∨
        ServerEvent.opened d channel = .opened c s.lib.channels.length) →
          ∀ byte ∈ stream.1, FromSocket d byte)
      (fun channel stream found opened => ?_) (fun _ => by simp) channel stream foundStream opened
    rcases opened with old | new
    · exact traffic d channel stream old found
    · cases new
      rw [List.getElem?_eq_none (by simp [Libssh2.traffic])] at found
      cases found

/-- The client opens its channel. -/
theorem inOrder_opens {s : Server T} {i c : ℕ} {sid : SessionId} {ctx : Ctx TaggedByte}
    (order : s.InOrder) (here : s.listener = .opening i c) (found : s.ctx c = some ctx)
    (session : ctx.client.session = some sid) :
    (((s.onState (.setCtx · c (ctx.openCommandChannel true))).record
      (.opened c s.lib.channels.length)).setListener (.tunnelled i c)).InOrder := by
  have sameSessions : (ctx.openCommandChannel true).lib.sessions = ctx.lib.sessions := by
    simp [Ctx.openCommandChannel_session session, Libssh2.openChannel]
  have apart := sessionsApart_setCtx order.sessions found (Nat.le_of_eq (by rw [sameSessions]))
    (fun sid' holds => Or.inl (by simpa [Ctx.openCommandChannel_session session] using holds))
  exact ⟨recorded_opens order.recorded here found session, ⟨apart.returned, apart.apart⟩,
    wired_opens order.wired found session⟩

theorem inOrder_setUp {s s' : Server T} (order : s.InOrder) (moved : SetUpMoves s s') :
    s'.InOrder := by
  cases moved with
  | binds here goes =>
      refine order.congr rfl rfl fun pair inSetUp => ?_
      rcases goes with rfl | rfl <;> simp [setListener, ListenerPc.inSetUp] at inSetUp
  | faults here found quiet =>
      exact (inOrder_setCtx order found quiet).congr rfl rfl fun _ inSetUp => inSetUp
  | goesOn here there found quiet =>
      exact (inOrder_setCtx order found quiet).congr rfl rfl fun pair inSetUp =>
        here.trans (there.symm.trans inSetUp)
  | opens here found session => exact inOrder_opens order here found session
  | drops here found quiet =>
      exact (inOrder_setCtx order found quiet).congr rfl rfl fun pair inSetUp => by
        simp [setListener, ListenerPc.inSetUp] at inSetUp

/-! ### A step of the accept loop -/

/-- A change of the connections only. -/
theorem InOrder.withConns {s : Server T} (order : s.InOrder)
    {conns : List (ConnectionImpl TaggedByte)} (increment : UInt32)
    (wired : ∀ (i : ℕ) (conn : ConnectionImpl TaggedByte), conns[i]? = some conn →
      conn.Wired (s.FromChannel i) (FromSocket i)) :
    (s.onState fun state => { state with
      connectionList := conns
      connectionIdIncrement := increment }).InOrder := by
  obtain ⟨⟨created, opened, openedOnce, unopened, named⟩, ⟨returned, apart⟩,
    ⟨-, clients, traffic⟩⟩ := order
  exact ⟨⟨created, opened, openedOnce, unopened, named⟩, ⟨returned, apart⟩,
    ⟨wired, clients, traffic⟩⟩

/-- An assignment to a connection that moves no bytes. -/
theorem InOrder.setConn {s : Server T} (order : s.InOrder) (i : ℕ)
    {f : ConnectionImpl TaggedByte → ConnectionImpl TaggedByte}
    (wired : ∀ (P Q : TaggedByte → Prop) (conn : ConnectionImpl TaggedByte),
      conn.Wired P Q → (f conn).Wired P Q) :
    (s.onState (.setConn · i f)).InOrder :=
  order.withConns s.connectionIdIncrement
    (forall_modify order.wired.conns fun conn found =>
      wired _ _ conn (order.wired.conns i conn found))

theorem inOrder_makeClient {s : Server T} (order : s.InOrder) {i : ℕ}
    (count : s.clients.length = i) :
    (((s.onState .makeClient).record (.created i s.clients.length)).setListener
      (.connecting i s.clients.length)).InOrder := by
  obtain ⟨recorded, ⟨returned, apart⟩, ⟨conns, clients, traffic⟩⟩ := order
  have back : ∀ d sid, (((s.onState .makeClient).record (.created i s.clients.length)).setListener
      (.connecting i s.clients.length)).SessionOf d sid → s.SessionOf d sid := by
    rintro d sid ⟨client, found, holds⟩
    exact forall_concat (P := fun d client => ∀ sid, client.session = some sid → s.SessionOf d sid)
      (fun d client found sid holds => ⟨client, found, holds⟩) (fun sid holds => by simp at holds)
      d client found sid holds
  have mem_iff : ∀ c channel, .opened c channel ∈
      s.history ++ [.created i s.clients.length] ↔ .opened c channel ∈ s.history := by
    simp
  have unchanged : ∀ c byte, s.FromChannel c byte →
      (((s.onState .makeClient).record (.created i s.clients.length)).setListener
        (.connecting i s.clients.length)).FromChannel c byte :=
    fun c _ => Exists.imp fun channel => And.imp (mem_iff c channel).mpr id
  refine ⟨⟨?_, ?_, ?_, ?_, ?_⟩, ⟨?_, ?_⟩, ⟨?_, ?_, ?_⟩⟩
  · intro j c
    have old := recorded.created j c
    simp only [onState, record, setListener, ListenerState.makeClient, List.mem_append,
      List.mem_singleton, List.length_append, List.length_singleton, old]
    subst count
    constructor
    · rintro (⟨rfl, below⟩ | same)
      · exact ⟨rfl, Nat.lt_succ_of_lt below⟩
      · cases same
        exact ⟨rfl, Nat.lt_succ_self _⟩
    · rintro ⟨rfl, below⟩
      rcases Nat.lt_succ_iff_lt_or_eq.mp below with inside | last
      · exact Or.inl ⟨rfl, inside⟩
      · exact Or.inr (by rw [last])
  · intro c channel opened
    have := recorded.opened c channel ((mem_iff c channel).mp opened)
    exact ⟨by simpa [onState, record, setListener, ListenerState.makeClient] using
      Nat.lt_succ_of_lt this.1, this.2⟩
  · exact fun c channel c' channel' opened opened' => recorded.openedOnce c channel c' channel'
      ((mem_iff c channel).mp opened) ((mem_iff c' channel').mp opened')
  · intro j c channel inSetUp opened
    simp only [setListener, ListenerPc.inSetUp, Option.some.injEq, Prod.mk.injEq] at inSetUp
    have := (recorded.opened c channel ((mem_iff c channel).mp opened)).1
    omega
  · exact forall_concat
      (fun c client found channel opened =>
        (mem_iff c channel).mpr (recorded.named c client found channel opened))
      fun channel opened => by simp at opened
  · exact fun d sid holds => returned d sid (back d sid holds)
  · exact fun d d' sid holds holds' => apart d d' sid (back d sid holds) (back d' sid holds')
  · exact fun j conn found => (conns j conn found).mono (unchanged j)
  · exact forall_concat (fun c client found => (clients c client found).mono (unchanged c))
      ⟨by simp, by simp⟩
  · exact fun c channel stream opened => traffic c channel stream ((mem_iff c channel).mp opened)

theorem inOrder_listenerStep {mode : SpawnMode} {s next : Server T} {effect : Effect}
    (laid : s.LaidOut) (order : s.InOrder)
    (stepped : s.listenerStep mode = some (next, effect)) : next.InOrder := by
  unfold listenerStep at stepped
  have leaves : ∀ (s : Server T) (pc : ListenerPc), pc.inSetUp = none → s.InOrder →
      (s.setListener pc).InOrder := fun s pc outside order =>
    order.congr rfl rfl fun pair inSetUp => by simp [setListener, outside] at inSetUp
  cases pc : s.listener with
  | unbound | loopTop =>
      simp only [pc, Option.some.injEq, Prod.mk.injEq] at stepped
      obtain ⟨rfl, -⟩ := stepped
      exact leaves _ _ rfl order
  | resumed ec =>
      simp only [pc] at stepped
      split at stepped <;> cases stepped
      · exact leaves _ _ rfl order
      · refine leaves _ _ rfl (order.withConns _ (forall_concat order.wired.conns ?_))
        constructor <;> simp [PullPc.bytes, PushPc.bytes]
  | published i =>
      simp only [pc, Option.some.injEq, Prod.mk.injEq] at stepped
      obtain ⟨rfl, -⟩ := stepped
      exact leaves _ _ rfl (order.setConn i fun P Q conn wired =>
        ⟨wired.written, wired.pulled, wired.buffered, wired.pushed⟩)
  | identified i =>
      simp only [pc, Option.some.injEq, Prod.mk.injEq] at stepped
      obtain ⟨rfl, -⟩ := stepped
      have fits := laid.fits
      rw [pc] at fits
      exact inOrder_makeClient order fits.1
  | tunnelled i c =>
      simp only [pc, Option.some.injEq, Prod.mk.injEq] at stepped
      obtain ⟨rfl, -⟩ := stepped
      exact leaves _ _ rfl (order.setConn i fun P Q conn wired =>
        ⟨wired.written, wired.pulled, wired.buffered, wired.pushed⟩)
  | clientSet i =>
      simp only [pc, Option.some.injEq, Prod.mk.injEq] at stepped
      obtain ⟨rfl, -⟩ := stepped
      exact leaves _ _ rfl (order.setConn i fun P Q conn wired =>
        ⟨wired.written, by cases mode <;> simp [Link.pullStart, PullPc.bytes], wired.buffered,
          wired.pushed⟩)
  | pullSpawned i =>
      simp only [pc, Option.some.injEq, Prod.mk.injEq] at stepped
      obtain ⟨rfl, -⟩ := stepped
      exact leaves _ _ rfl (order.setConn i fun P Q conn wired =>
        ⟨wired.written, wired.pulled, wired.buffered,
          by cases mode <;> simp [Link.pushStart, PushPc.bytes]⟩)
  | _ => simp [pc] at stepped

/-! ### Every step -/

theorem inOrder_changes {s s' : Server T} (laid : s.LaidOut) (order : s.InOrder)
    (changed : Changes s s') : s'.InOrder := by
  cases changed with
  | @pump i link next channel action threads linked named acted brings =>
      have wired : link.Wired (s.FromChannel i) (FromSocket i) := by
        obtain ⟨foundConn, c, uses, foundClient, channel, opened, foundChannel⟩ :=
          link_eq_some linked
        obtain rfl := own_client laid foundConn uses
        refine ⟨order.wired.conns c _ foundConn, order.wired.clients c _ foundClient, ?_⟩
        refine order.wired.traffic c channel (link.channel.accepted, link.channel.returned)
          (order.recorded.named c _ foundClient channel opened) ?_
        simp [Libssh2.traffic, foundChannel]
      have fromChannel : ∀ byte : TaggedByte, byte.origin = .channel channel →
          s.FromChannel i byte := fun byte origin =>
        ⟨channel, opened_of_channelOf laid order.recorded named, origin⟩
      have next := inOrder_setLink laid order linked (Link.frame_act acted)
        (Link.wired_act wired (brings.mono fromChannel) acted)
      exact next.congr rfl rfl fun _ inSetUp => inSetUp
  | listener stepped =>
      exact (inOrder_listenerStep laid order stepped).congr rfl rfl fun _ inSetUp => inSetUp
  | position pc backlog threads fits setUp =>
      exact order.congr rfl rfl fun _ inSetUp => setUp.symm.trans inSetUp
  | setUp moved => exact inOrder_setUp order moved

/-- The data and the history of every reachable state are in order. -/
theorem inOrder {mode : SpawnMode} {clientState : ClientState} {s : Server T}
    (reached : (serverMachine T mode clientState).Reachable s) : s.InOrder := by
  refine (serverMachine T mode clientState).invariant_with (J := Server.LaidOut)
    (fun _ => Server.layout) ?_ ?_ reached
  · refine ⟨⟨?_, ?_, ?_, ?_, ?_⟩, ⟨?_, ?_⟩, ⟨?_, ?_, ?_⟩⟩ <;>
      simp [serverMachine, SessionOf]
  · exact fun s action s' laid order stepped =>
      inOrder_changes laid order (step_moves stepped).2.changes

/-- No byte crosses from one connection to another: what the `i`-th client was
sent comes from the channel of the client created in its iteration, what that
channel accepted comes from the `i`-th socket, and iterations, clients, sessions
and channels belong together one to one. -/
structure WiredApart (s : Server T) : Prop where
  delivered : ∀ (i : ℕ) (conn : ConnectionImpl TaggedByte), s.connectionList[i]? = some conn →
    ∀ byte ∈ conn.srcSocket.written, ∃ c channel, .created i c ∈ s.history ∧
      .opened c channel ∈ s.history ∧ byte.origin = .channel channel
  accepted : ∀ (i c : ℕ) (channel : ChannelId) (record : Channel TaggedByte),
    .created i c ∈ s.history → .opened c channel ∈ s.history →
      s.lib.channels[channel]? = some record → ∀ byte ∈ record.accepted, byte.origin = .socket i
  ownClient : ∀ (i c : ℕ) (conn : ConnectionImpl TaggedByte), s.connectionList[i]? = some conn →
    conn.sshClient = some c → .created i c ∈ s.history
  oneClient : ∀ i c i' c', .created i c ∈ s.history → .created i' c' ∈ s.history →
    (i = i' ↔ c = c')
  oneChannel : ∀ c channel c' channel', .opened c channel ∈ s.history →
    .opened c' channel' ∈ s.history → (c = c' ↔ channel = channel')
  oneSession : ∀ c c' sid, s.SessionOf c sid → s.SessionOf c' sid → c = c'

end Server

/-- **Tunnel connections are never cross-wired**, whatever becomes of the set-ups
and in whatever order the coroutines run. -/
theorem never_crossWired {T : ℕ} (mode : SpawnMode) (clientState : ClientState) (s : Server T)
    (reached : (serverMachine T mode clientState).Reachable s) : s.WiredApart := by
  have laid := Server.layout reached
  obtain ⟨recorded, sessions, wired⟩ := Server.inOrder reached
  refine ⟨?_, ?_, ?_, ?_, recorded.openedOnce, sessions.apart⟩
  · intro i conn found byte member
    obtain ⟨channel, opened, origin⟩ := (wired.conns i conn found).written byte member
    have inside := (recorded.opened i channel opened).1
    exact ⟨i, channel, (recorded.created i i).mpr ⟨rfl, inside⟩, opened, origin⟩
  · intro i c channel record created opened found byte member
    obtain ⟨rfl, -⟩ := (recorded.created i c).mp created
    refine wired.traffic c channel (record.accepted, record.returned) opened ?_ byte member
    simp [Libssh2.traffic, found]
  · intro i c conn found uses
    have inside := Server.client_inside laid found uses
    obtain rfl := Server.own_client laid found uses
    exact (recorded.created c c).mpr ⟨rfl, inside⟩
  · intro i c i' c' created created'
    rw [((recorded.created i c).mp created).1, ((recorded.created i' c').mp created').1]

/-- A client is accepted, its set-up succeeds, and a byte is pulled through. -/
def pullThrough : List (ServerAction 1) :=
  acceptsOne onlyThread ++
    [.resume onlyThread (.pull 0), .run onlyThread, .run onlyThread, .run onlyThread,
      .readDone onlyThread (.chunk [9] (by decide) (by decide)), .run onlyThread, .run onlyThread,
      .run onlyThread, .run onlyThread, .run onlyThread]

theorem never_crossWired_pullThrough :
    ∃ s, (serverMachine 1 .posted {}).exec (serverMachine 1 .posted {}).init pullThrough = some s ∧
      s.WiredApart ∧ s.connectionList.map (fun conn => conn.srcSocket.written) =
        [[⟨9, .channel 0⟩]] :=
  ⟨_, rfl, never_crossWired .posted {} _ ⟨pullThrough, rfl⟩, rfl⟩

end BookFilerSsh
