import BookFilerSsh.Client.EventLoop

/-!
# Which handles a client releases

The life of a `ClientImpl` is a list of public calls, whose exceptions the caller
catches, and the destructor. What it must see to is that every session libssh2
returned is freed once, every channel and listener is released once, by itself or
with its session, and no released handle is used (`Libssh2.AllReleasedOnce`).

Everything but `connect` sees to it. Channels and listeners whose pointer is
overwritten go with their session, and a released pointer is set to null at once, so
a client that owns its handles (`Owned`) goes on owning them. `connect` assigns
`session` without looking at what it holds: when that is an open session, nothing
refers to it any more and nothing frees it (`Lost`). So the handles are released
exactly when no `connect` gets past `ConnectSocket` after another one got a session
(`releasesOnce_iff`).
-/

set_option autoImplicit false

namespace BookFilerSsh

open Lib.Tables Lib.Effects

/-! ## The life of a client -/

/-- A public call, with what happens in it. -/
inductive ClientCall where
  | connect (results : ConnectResults)
  | tunnel (opened : Bool)
  | command (commandStr : List UInt8) (script : CommandScript)
  | forwarding (script : ForwardingScript)

namespace ClientCall

def run : ClientCall → ClientM UInt8 Int
  | .connect results => ClientImpl.connect results
  | .tunnel opened => ClientImpl.tunnel opened
  | .command commandStr script => ClientImpl.command commandStr script
  | .forwarding script => ClientImpl.forwarding script

/-- The caller catches what the call throws. -/
def caught (call : ClientCall) : ClientM UInt8 Unit := fun ctx =>
  match call.run ctx with
  | .ok _ after => .ok () after
  | .error .systemError after => .ok () after
  | .error (.logicError _) after => .ok () after
  | .error fault after => .error fault after

/-- A `connect` that gets a session. -/
def GetsSession : ClientCall → Prop
  | .connect results => results.socket = .connected ∧ results.sessionCreated = true
  | _ => False

/-- A `connect` that gets past `ConnectSocket`, and so assigns `session`. -/
def AssignsSession : ClientCall → Prop
  | .connect results => results.socket = .connected
  | _ => False

end ClientCall

/-- The calls in turn, then the destructor. -/
def lifetime : List ClientCall → ReleaseResults → ClientM UInt8 Unit
  | [], release => ClientImpl.destruct release
  | call :: calls, release => do
      call.caught
      lifetime calls release

/-- No call waits for an event that does not come. -/
def Completes : EStateM.Result Fault (Ctx UInt8) Unit → Prop
  | .error .blocked _ => False
  | _ => True

/-! ## Handles that are owned -/

/-- The channel was returned and not released. -/
def LiveChannel (channels : List (Channel UInt8)) (c : ChannelId) : Prop :=
  ∃ record, channels[c]? = some record ∧ record.released = 0

/-- The other channels stay live. -/
theorem LiveChannel.modify {channels : List (Channel UInt8)} {c d : ChannelId}
    {f : Channel UInt8 → Channel UInt8} (live : LiveChannel channels d) (other : c ≠ d) :
    LiveChannel (channels.modify c f) d := by
  obtain ⟨record, found, unreleased⟩ := live
  exact ⟨record, by simp [other, found], unreleased⟩

theorem LiveChannel.append {channels : List (Channel UInt8)} {c : ChannelId}
    (live : LiveChannel channels c) (channel : Channel UInt8) :
    LiveChannel (channels ++ [channel]) c := by
  obtain ⟨record, found, unreleased⟩ := live
  have inside := (List.getElem?_eq_some_iff.mp found).1
  exact ⟨record, by rw [List.getElem?_append_left inside, found], unreleased⟩

theorem LiveChannel.inside {channels : List (Channel UInt8)} {c : ChannelId}
    (live : LiveChannel channels c) : c < channels.length := by
  obtain ⟨record, found, -⟩ := live
  exact (List.getElem?_eq_some_iff.mp found).1

/-- At most one session was returned and the client refers to it, every other handle
belongs to it and was released at most once, and what the client refers to was not
released. -/
structure Owned (lib : Libssh2 UInt8) (handles : Handles) : Prop where
  session :
    (handles.session = none ∧ lib.sessions = [] ∧ lib.channels = [] ∧ lib.listeners = []) ∨
      (handles.session = some 0 ∧ ∃ blocking, lib.sessions = [⟨blocking, 0⟩])
  thread : handles.session = none → handles.threadIo.any StdThread.joinable = false
  channels : ∀ channel ∈ lib.channels, channel.session = 0 ∧ channel.released ≤ 1
  listeners : ∀ listener ∈ lib.listeners, listener.session = 0 ∧ listener.released ≤ 1
  commandChannel : ∀ c, handles.commandChannel = some c → LiveChannel lib.channels c
  listenChannel : ∀ c, handles.listenChannel = some c → LiveChannel lib.channels c
  apart : ∀ c, handles.commandChannel = some c → handles.listenChannel ≠ some c
  listener : ∀ l, handles.listener = some l →
    ∃ record, lib.listeners[l]? = some record ∧ record.released = 0
  misuses : lib.misuses = 0

def Ctx.Owns (ctx : Ctx UInt8) : Prop := Owned ctx.lib ctx.client.handles

namespace Owned

variable {lib : Libssh2 UInt8} {handles : Handles}

/-- A call on the session of the client misuses nothing. -/
theorem useSession (owned : Owned lib handles) : lib.useSession handles.session = lib := by
  rcases owned.session with ⟨null, -⟩ | ⟨held, blocking, sessions⟩
  · rw [null]
    rfl
  · simp [held, Libssh2.useSession, Libssh2.note, Libssh2.sessionOpen, sessions]

/-- A call on a live channel misuses nothing. -/
theorem useChannel_eq {channel : Option ChannelId}
    (live : ∀ c, channel = some c → LiveChannel lib.channels c) : lib.useChannel channel = lib := by
  cases channel with
  | none => rfl
  | some c =>
      obtain ⟨record, found, unreleased⟩ := live c rfl
      simp [Libssh2.useChannel, Libssh2.note, Libssh2.channelOpen, found, unreleased]

theorem useListener (owned : Owned lib handles) : lib.useListener handles.listener = lib := by
  cases held : handles.listener with
  | none => rfl
  | some l =>
      obtain ⟨record, found, unreleased⟩ := owned.listener l held
      simp [Libssh2.useListener, Libssh2.note, Libssh2.listenerOpen, found, unreleased]

theorem setBlocking (owned : Owned lib handles) (blocking : Bool) :
    Owned (lib.setBlocking handles.session blocking) handles := by
  rcases id owned.session with ⟨null, -⟩ | ⟨held, mode, sessions⟩
  · rw [null]
    exact owned
  · have same := owned.useSession
    rw [held] at same
    rw [held, Libssh2.setBlocking, same]
    exact ⟨.inr ⟨held, blocking, by simp [sessions]⟩, owned.thread, owned.channels,
      owned.listeners, owned.commandChannel, owned.listenChannel, owned.apart, owned.listener,
      owned.misuses⟩

/-- Releasing a live channel counts it released, or does nothing when the call would
block. -/
theorem channelFree_eq {c : ChannelId} (live : LiveChannel lib.channels c) (eagain : Bool) :
    lib.channelFree (some c) eagain = lib ∨
      lib.channelFree (some c) eagain =
        { lib with
          channels := lib.channels.modify c fun record =>
            { record with released := record.released + 1 } } := by
  have same : lib.useChannel (some c) = lib := useChannel_eq fun d held => by
    cases held
    exact live
  obtain ⟨record, found, -⟩ := live
  simp only [Libssh2.channelFree, found, same]
  split
  · exact .inl rfl
  · exact .inr rfl

/-- A live channel is released once. -/
theorem released_modify (owned : Owned lib handles) {c : ChannelId}
    (live : LiveChannel lib.channels c) :
    ∀ channel ∈ lib.channels.modify c (fun record =>
      { record with released := record.released + 1 }),
        channel.session = 0 ∧ channel.released ≤ 1 := by
  obtain ⟨live, foundLive, unreleased⟩ := live
  intro channel member
  obtain ⟨d, found⟩ := List.mem_iff_getElem?.mp member
  refine forall_modify (P := fun _ channel => channel.session = 0 ∧ channel.released ≤ 1)
    (fun d channel found => owned.channels channel (List.mem_of_getElem? found))
    (fun channel found => ?_) d channel found
  rw [foundLive, Option.some.injEq] at found
  subst found
  exact ⟨(owned.channels live (List.mem_of_getElem? foundLive)).1, by simp [unreleased]⟩

/-- What a session with a live channel means. -/
theorem session_of_live (owned : Owned lib handles) {c : ChannelId}
    (live : LiveChannel lib.channels c) :
    handles.session = some 0 ∧ ∃ blocking, lib.sessions = [⟨blocking, 0⟩] := by
  rcases owned.session with ⟨-, -, empty, -⟩ | held
  · obtain ⟨record, found, -⟩ := live
    simp [empty] at found
  · exact held

/-- A client that has a session has the only one. -/
theorem session_of_held (owned : Owned lib handles) {s : SessionId}
    (held : handles.session = some s) : s = 0 ∧ ∃ blocking, lib.sessions = [⟨blocking, 0⟩] := by
  rcases owned.session with ⟨null, -⟩ | ⟨zero, sessions⟩
  · rw [null] at held
    cases held
  · exact ⟨Option.some.inj (held.symm.trans zero), sessions⟩

theorem freeCommandChannel (owned : Owned lib handles) (eagain : Bool) :
    Owned (lib.channelFree handles.commandChannel eagain)
      { handles with commandChannel := none } := by
  have drops : Owned lib { handles with commandChannel := none } :=
    ⟨owned.session, owned.thread, owned.channels, owned.listeners, nofun, owned.listenChannel,
      nofun, owned.listener, owned.misuses⟩
  cases held : handles.commandChannel with
  | none => exact drops
  | some c =>
      have live := owned.commandChannel c held
      rcases channelFree_eq live eagain with same | released
      · rw [same]
        exact drops
      · rw [released]
        refine ⟨.inr (owned.session_of_live live), owned.thread, owned.released_modify live,
          owned.listeners, nofun, fun d heldD => ?_, nofun, owned.listener, owned.misuses⟩
        exact (owned.listenChannel d heldD).modify fun same => owned.apart c held (same ▸ heldD)

theorem freeListenChannel (owned : Owned lib handles) (eagain : Bool) :
    Owned (lib.channelFree handles.listenChannel eagain)
      { handles with listenChannel := none } := by
  have drops : Owned lib { handles with listenChannel := none } :=
    ⟨owned.session, owned.thread, owned.channels, owned.listeners, owned.commandChannel, nofun,
      nofun, owned.listener, owned.misuses⟩
  cases held : handles.listenChannel with
  | none => exact drops
  | some c =>
      have live := owned.listenChannel c held
      rcases channelFree_eq live eagain with same | released
      · rw [same]
        exact drops
      · rw [released]
        refine ⟨.inr (owned.session_of_live live), owned.thread, owned.released_modify live,
          owned.listeners, fun d heldD => ?_, nofun, nofun, owned.listener, owned.misuses⟩
        exact (owned.commandChannel d heldD).modify fun same => owned.apart d heldD (same ▸ held)

theorem cancelListener (owned : Owned lib handles) (eagain : Bool) :
    Owned (lib.forwardCancel handles.listener eagain) { handles with listener := none } := by
  have drops : Owned lib { handles with listener := none } :=
    ⟨owned.session, owned.thread, owned.channels, owned.listeners, owned.commandChannel,
      owned.listenChannel, owned.apart, nofun, owned.misuses⟩
  cases held : handles.listener with
  | none => exact drops
  | some l =>
      have same := owned.useListener
      obtain ⟨record, found, unreleased⟩ := owned.listener l held
      have session : handles.session = some 0 ∧ ∃ blocking, lib.sessions = [⟨blocking, 0⟩] := by
        rcases owned.session with ⟨-, -, -, empty⟩ | session
        · simp [empty] at found
        · exact session
      rw [held] at same
      simp only [Libssh2.forwardCancel, found, same]
      split
      · exact drops
      · refine ⟨.inr session, owned.thread, owned.channels, fun listener member => ?_,
          owned.commandChannel, owned.listenChannel, owned.apart, nofun, owned.misuses⟩
        obtain ⟨m, foundM⟩ := List.mem_iff_getElem?.mp member
        refine forall_modify (P := fun _ listener => listener.session = 0 ∧ listener.released ≤ 1)
          (fun m listener found => owned.listeners listener (List.mem_of_getElem? found))
          (fun listener foundL => ?_) m listener foundM
        rw [found, Option.some.injEq] at foundL
        subst foundL
        exact ⟨(owned.listeners record (List.mem_of_getElem? found)).1, by simp [unreleased]⟩

/-- A new channel of the session, which the client refers to by one of its members. -/
theorem openChannel (owned : Owned lib handles) {s : SessionId}
    (held : handles.session = some s) (after : Handles)
    (session : after.session = handles.session) (listener : after.listener = handles.listener)
    (channels :
      (after.commandChannel = some lib.channels.length ∧
        after.listenChannel = handles.listenChannel) ∨
      (after.commandChannel = handles.commandChannel ∧
        after.listenChannel = some lib.channels.length)) :
    Owned (lib.openChannel s) after := by
  obtain ⟨rfl, sessions⟩ := owned.session_of_held held
  have new : LiveChannel (lib.openChannel 0).channels lib.channels.length :=
    ⟨_, List.getElem?_concat_length, rfl⟩
  have command : ∀ c, handles.commandChannel = some c →
      LiveChannel (lib.openChannel 0).channels c :=
    fun c heldC => (owned.commandChannel c heldC).append _
  have listen : ∀ c, handles.listenChannel = some c → LiveChannel (lib.openChannel 0).channels c :=
    fun c heldC => (owned.listenChannel c heldC).append _
  refine ⟨.inr ⟨session.trans held, sessions⟩, fun null => ?_, fun channel member => ?_,
    owned.listeners, fun c heldC => ?_, fun c heldC => ?_, fun c heldC heldL => ?_,
    fun l heldL => owned.listener l (listener ▸ heldL), owned.misuses⟩
  · rw [session, held] at null
    cases null
  · rcases List.mem_append.mp member with old | single
    · exact owned.channels channel old
    · rw [List.mem_singleton.mp single]
      exact ⟨rfl, Nat.zero_le _⟩
  · rcases channels with ⟨opened, -⟩ | ⟨kept, -⟩
    · rw [opened, Option.some.injEq] at heldC
      exact heldC ▸ new
    · exact command c (kept ▸ heldC)
  · rcases channels with ⟨-, kept⟩ | ⟨-, opened⟩
    · exact listen c (kept ▸ heldC)
    · rw [opened, Option.some.injEq] at heldC
      exact heldC ▸ new
  · rcases channels with ⟨opened, kept⟩ | ⟨kept, opened⟩
    · rw [opened, Option.some.injEq] at heldC
      exact absurd (owned.listenChannel c (kept ▸ heldL)).inside (heldC ▸ Nat.lt_irrefl _)
    · rw [opened, Option.some.injEq] at heldL
      exact absurd (owned.commandChannel c (kept ▸ heldC)).inside (heldL ▸ Nat.lt_irrefl _)

theorem forwardListen (owned : Owned lib handles) {s : SessionId}
    (held : handles.session = some s) (after : Handles) (session : after.session = handles.session)
    (command : after.commandChannel = handles.commandChannel)
    (listen : after.listenChannel = handles.listenChannel)
    (listener : after.listener = some lib.listeners.length) :
    Owned (lib.forwardListen s) after := by
  obtain ⟨rfl, sessions⟩ := owned.session_of_held held
  refine ⟨.inr ⟨session.trans held, sessions⟩, fun null => ?_, owned.channels,
    fun record member => ?_, by rw [command]; exact owned.commandChannel,
    by rw [listen]; exact owned.listenChannel,
    by rw [command, listen]; exact owned.apart, fun l heldL => ?_, owned.misuses⟩
  · rw [session, held] at null
    cases null
  · rcases List.mem_append.mp member with old | single
    · exact owned.listeners record old
    · rw [List.mem_singleton.mp single]
      exact ⟨rfl, Nat.zero_le _⟩
  · rw [listener, Option.some.injEq] at heldL
    subst heldL
    exact ⟨_, List.getElem?_concat_length, rfl⟩

/-- Pointers may be dropped. -/
theorem drop (owned : Owned lib handles) (after : Handles)
    (session : after.session = handles.session) (threadIo : after.threadIo = handles.threadIo)
    (command : after.commandChannel = handles.commandChannel ∨ after.commandChannel = none)
    (listen : after.listenChannel = handles.listenChannel ∨ after.listenChannel = none)
    (listener : after.listener = handles.listener ∨ after.listener = none) :
    Owned lib after := by
  refine ⟨by rw [session]; exact owned.session, by rw [session, threadIo]; exact owned.thread,
    owned.channels, owned.listeners, fun c held => ?_, fun c held => ?_, fun c held heldL => ?_,
    fun l held => ?_, owned.misuses⟩
  · rcases command with same | null
    · exact owned.commandChannel c (same ▸ held)
    · rw [null] at held
      cases held
  · rcases listen with same | null
    · exact owned.listenChannel c (same ▸ held)
    · rw [null] at held
      cases held
  · rcases command with same | null
    · rcases listen with sameL | nullL
      · exact owned.apart c (same ▸ held) (sameL ▸ heldL)
      · rw [nullL] at heldL
        cases heldL
    · rw [null] at held
      cases held
  · rcases listener with same | null
    · exact owned.listener l (same ▸ held)
    · rw [null] at held
      cases held

end Owned

/-! ## What the calls keep -/

/-- **A client that owns its handles goes on owning them**, whatever `tunnel`,
`command` and `forwarding` do. -/
theorem stable_owns : Stable Ctx.Owns where
  assigns ctx f same owns := by
    rw [Ctx.Owns, Ctx.assign, same]
    exact owns
  usesSession ctx owns := by
    rw [Ctx.Owns, Ctx.useSession]
    exact (Owned.useSession owns).symm ▸ owns
  usesCommandChannel ctx owns := by
    have same := Owned.useChannel_eq (Owned.commandChannel owns)
    rw [Ctx.Owns, Ctx.useCommandChannel]
    exact same.symm ▸ owns
  usesListenChannel ctx owns := by
    have same := Owned.useChannel_eq (Owned.listenChannel owns)
    rw [Ctx.Owns, Ctx.useListenChannel]
    exact same.symm ▸ owns
  setsBlocking ctx blocking owns := Owned.setBlocking owns blocking
  opens ctx opened owns := by
    have same := Owned.useSession owns
    cases held : ctx.client.session with
    | none =>
        rw [Ctx.openCommandChannel, held]
        exact Owned.drop owns _ rfl rfl (.inr rfl) (.inl rfl) (.inl rfl)
    | some s =>
        rw [ClientImpl.handles, held] at same
        simp only [Ctx.openCommandChannel, held, same]
        split
        · exact Owned.openChannel owns held _ held.symm rfl (.inl ⟨rfl, rfl⟩)
        · exact Owned.drop owns _ held.symm rfl (.inr rfl) (.inl rfl) (.inl rfl)
  frees ctx eagain owns := Owned.freeCommandChannel owns eagain
  listens ctx listened owns := by
    have same := Owned.useSession owns
    cases held : ctx.client.session with
    | none =>
        rw [Ctx.listen, held]
        exact Owned.drop owns _ rfl rfl (.inl rfl) (.inl rfl) (.inr rfl)
    | some s =>
        rw [ClientImpl.handles, held] at same
        simp only [Ctx.listen, held, same]
        split
        · exact Owned.forwardListen owns held _ held.symm rfl rfl rfl
        · exact Owned.drop owns _ held.symm rfl (.inl rfl) (.inl rfl) (.inr rfl)
  accepts ctx accepted owns := by
    have same := Owned.useListener owns
    have session := Owned.session owns
    simp only [Ctx.acceptForwarded]
    split
    next record found =>
      -- the listener belongs to the session of the client
      obtain ⟨l, heldL, foundL⟩ := Option.bind_eq_some_iff.mp found
      have member := List.mem_of_getElem? foundL
      have zero := (Owned.listeners owns record member).1
      have held : ctx.client.session = some 0 := by
        rcases session with ⟨-, -, -, empty⟩ | ⟨held, -⟩
        · simp [empty] at member
        · exact held
      rw [ClientImpl.handles] at same
      rw [same, zero]
      split
      · exact Owned.openChannel owns held _ rfl rfl (.inr ⟨rfl, rfl⟩)
      · exact Owned.drop owns _ rfl rfl (.inl rfl) (.inr rfl) (.inl rfl)
    next => exact Owned.drop owns _ rfl rfl (.inl rfl) (.inr rfl) (.inl rfl)

/-- Freeing the session of a client releases the handles that are left. -/
theorem Owned.freeSession {lib : Libssh2 UInt8} {handles : Handles} (owned : Owned lib handles)
    (eagain : Bool) :
    (((lib.setBlocking handles.session true).useSession handles.session).sessionFree
      handles.session eagain).AllReleasedOnce := by
  have blocking := owned.setBlocking true
  rw [blocking.useSession]
  rcases owned.session with ⟨null, sessions, channels, listeners⟩ | ⟨held, mode, sessions⟩
  · rw [null]
    exact ⟨by simp [Libssh2.sessionFree, Libssh2.setBlocking, sessions],
      by simp [Libssh2.sessionFree, Libssh2.setBlocking, channels],
      by simp [Libssh2.sessionFree, Libssh2.setBlocking, listeners], owned.misuses⟩
  · have same := owned.useSession
    rw [held] at same blocking ⊢
    have set : (lib.setBlocking (some 0) true).sessions = [⟨true, 0⟩] := by
      simp [Libssh2.setBlocking, same, sessions]
    have goes : (lib.setBlocking (some 0) true).givesUp 0 eagain = false := by
      simp [Libssh2.givesUp, Libssh2.isBlocking, set]
    have live := blocking.useSession
    rw [held] at live
    simp only [Libssh2.sessionFree, goes, live]
    refine ⟨by simp [set], fun channel member => ?_, fun listener member => ?_, blocking.misuses⟩
    · obtain ⟨record, old, rfl⟩ := List.mem_map.mp member
      obtain ⟨own, once⟩ := blocking.channels record old
      unfold Libssh2.channelGoesWith
      split
      · rfl
      · rename_i released
        have : record.released ≠ 0 := fun zero => released ⟨own, zero⟩
        omega
    · obtain ⟨record, old, rfl⟩ := List.mem_map.mp member
      obtain ⟨own, once⟩ := blocking.listeners record old
      unfold Libssh2.listenerGoesWith
      split
      · rfl
      · rename_i released
        have : record.released ≠ 0 := fun zero => released ⟨own, zero⟩
        omega

/-- **The destructor of a client that owns its handles releases them all.** -/
theorem released_of_owns {ctx : Ctx UInt8} (owns : ctx.Owns) (results : ReleaseResults) :
    (ctx.released results).lib.AllReleasedOnce := by
  have command := Owned.freeCommandChannel owns results.commandChannel
  have listen := command.freeListenChannel results.listenChannel
  have listener := listen.cancelListener results.listener
  exact listener.freeSession results.session

/-! ## Sessions that are lost -/

/-- An open session that the client does not refer to. -/
def Ctx.Lost (ctx : Ctx UInt8) : Prop :=
  ∃ s session, ctx.lib.sessions[s]? = some session ∧ session.freed = 0 ∧
    ctx.client.session ≠ some s

/-- What leaves the sessions and the pointer to one alone. -/
theorem Ctx.Lost.congr {ctx after : Ctx UInt8} (lost : ctx.Lost)
    (sessions : after.lib.sessions = ctx.lib.sessions)
    (session : after.client.session = ctx.client.session) : after.Lost := by
  obtain ⟨s, record, found, unfreed, other⟩ := lost
  exact ⟨s, record, by rw [sessions, found], unfreed, by rw [session]; exact other⟩

/-- **A lost session stays lost.** -/
theorem stable_lost : Stable Ctx.Lost where
  assigns ctx f same lost := lost.congr rfl (congrArg Handles.session same)
  usesSession ctx lost := lost.congr (by simp [Ctx.useSession]) rfl
  usesCommandChannel ctx lost := lost.congr (by simp [Ctx.useCommandChannel]) rfl
  usesListenChannel ctx lost := lost.congr (by simp [Ctx.useListenChannel]) rfl
  setsBlocking ctx blocking lost := by
    obtain ⟨s, record, found, unfreed, other⟩ := lost
    exact ⟨s, record, (ctx.lib.setBlocking_sessions_of_ne other blocking).trans found, unfreed,
      other⟩
  opens ctx opened lost := by
    unfold Ctx.openCommandChannel
    split
    next s held =>
      split <;> exact lost.congr (by simp [Libssh2.openChannel]) rfl
    next => exact lost.congr rfl rfl
  frees ctx eagain lost := lost.congr (by simp [Ctx.freeCommandChannel]) rfl
  listens ctx listened lost := by
    unfold Ctx.listen
    split
    next s held => split <;> exact lost.congr (by simp [Libssh2.forwardListen]) rfl
    next => exact lost.congr rfl rfl
  accepts ctx accepted lost := by
    unfold Ctx.acceptForwarded
    split
    next record found => split <;> exact lost.congr (by simp [Libssh2.openChannel]) rfl
    next => exact lost.congr rfl rfl

/-- What the calls other than a `connect` that assigns `session` keep. -/
theorem Stable.keeps_call {P : Ctx UInt8 → Prop} (stable : Stable P) {call : ClientCall}
    (spares : ¬ call.AssignsSession) : Keeps P Fault.Recoverable call.run := by
  cases call with
  | tunnel opened => exact stable.steady.keeps_tunnel opened
  | command commandStr script => exact stable.steady.keeps_command commandStr script
  | forwarding script => exact stable.keeps_forwarding script
  | connect results =>
      obtain ⟨socket, created, handshake, auth⟩ := results
      intro ctx holds
      cases socket with
      | resolveThrows =>
          rw [ClientCall.run, ClientImpl.connect_resolveThrows]
          exact ⟨holds, nofun⟩
      | connectThrows =>
          rw [ClientCall.run, ClientImpl.connect_connectThrows]
          exact ⟨stable.assigns ctx (fun client => { client with sockOpen := true }) rfl holds,
            nofun⟩
      | connected => exact absurd rfl spares

/-- A session that was returned and not freed. -/
def Ctx.SessionOpen (ctx : Ctx UInt8) : Prop :=
  ∃ (s : SessionId) (session : Session), ctx.lib.sessions[s]? = some session ∧ session.freed = 0

theorem Ctx.Lost.sessionOpen {ctx : Ctx UInt8} (lost : ctx.Lost) : ctx.SessionOpen := by
  obtain ⟨s, session, found, unfreed, -⟩ := lost
  exact ⟨s, session, found, unfreed⟩

theorem Ctx.Owns.sessionOpen {ctx : Ctx UInt8} (owns : ctx.Owns)
    (held : ctx.client.session.isSome) : ctx.SessionOpen := by
  rcases Owned.session owns with ⟨null, -⟩ | ⟨-, blocking, sessions⟩
  · exact absurd null (Option.isSome_iff_ne_none.mp held)
  · exact ⟨0, ⟨blocking, 0⟩, by rw [sessions]; rfl, rfl⟩

/-- The client refers to the new session, so to no other. -/
theorem Ctx.SessionOpen.openSession {ctx : Ctx UInt8} (opened : ctx.SessionOpen) :
    ctx.openSession.Lost := by
  obtain ⟨s, record, found, unfreed⟩ := opened
  have inside := (List.getElem?_eq_some_iff.mp found).1
  have other : some ctx.lib.sessions.length ≠ some s := by
    rw [ne_eq, Option.some.injEq]
    exact Nat.ne_of_gt inside
  have still : ctx.openSession.lib.sessions[s]? = ctx.lib.sessionInit.sessions[s]? :=
    ctx.lib.sessionInit.setBlocking_sessions_of_ne other true
  refine ⟨s, record, ?_, unfreed, other⟩
  rw [still, Libssh2.sessionInit, List.getElem?_append_left inside, found]

/-- **A `connect` past `ConnectSocket` loses the session that is open.** -/
theorem lost_connect {ctx : Ctx UInt8} (opened : ctx.SessionOpen) {results : ConnectResults}
    (connected : results.socket = .connected) :
    Ends Ctx.Lost (fun _ => True) (ClientImpl.connect results ctx) := by
  obtain ⟨socket, created, handshake, auth⟩ := results
  obtain rfl : socket = .connected := connected
  cases created with
  | false =>
      rw [ClientImpl.connect_noSession]
      obtain ⟨s, session, found, unfreed⟩ := opened
      exact ⟨⟨s, session, found, unfreed, nofun⟩, trivial⟩
  | true =>
      have socketOpen : ctx.openSocket.SessionOpen := opened
      have used := stable_lost.usesSession _ socketOpen.openSession
      have started : ctx.openSocket.openSession.useSession.startThreadIo.Lost := used.congr rfl rfl
      rw [ClientImpl.connect_session]
      split
      · exact used
      · split
        · exact ⟨used, trivial⟩
        · exact stable_lost.usesSession _ started

theorem lost_run {ctx : Ctx UInt8} (opened : ctx.SessionOpen) {call : ClientCall}
    (assigns : call.AssignsSession) : Ends Ctx.Lost (fun _ => True) (call.run ctx) := by
  cases call with
  | connect results => exact lost_connect opened assigns
  | tunnel opened => exact assigns.elim
  | command commandStr script => exact assigns.elim
  | forwarding script => exact assigns.elim

theorem keeps_run_lost (call : ClientCall) : Keeps Ctx.Lost (fun _ => True) call.run := by
  intro ctx lost
  by_cases assigns : call.AssignsSession
  · exact lost_run lost.sessionOpen assigns
  · exact (stable_lost.keeps_call assigns ctx lost).imp (fun _ => id) fun _ _ => trivial

/-- The destructor frees the session the client refers to only. -/
theorem Ctx.Lost.released {ctx : Ctx UInt8} (lost : ctx.Lost) (results : ReleaseResults) :
    (ctx.released results).Lost := by
  have listen {before : Ctx UInt8} (eagain : Bool) (held : before.Lost) :
      (before.freeListenChannel eagain).Lost :=
    held.congr (before.lib.channelFree_sessions _ _) rfl
  have cancel {before : Ctx UInt8} (eagain : Bool) (held : before.Lost) :
      (before.cancelListener eagain).Lost :=
    held.congr (before.lib.forwardCancel_sessions _ _) rfl
  have channel : (ctx.freeCommandChannel results.commandChannel).Lost := stable_lost.frees _ _ lost
  obtain ⟨s, record, found, unfreed, other⟩ :=
    cancel results.listener (listen results.listenChannel channel)
  refine ⟨s, record, ?_, unfreed, nofun⟩
  refine (Libssh2.sessionFree_sessions_of_ne _ other _).trans ?_
  rw [Libssh2.useSession_sessions]
  exact (Libssh2.setBlocking_sessions_of_ne _ other true).trans found

/-- A lost session is never freed. -/
theorem Ctx.Lost.not_allReleasedOnce {ctx : Ctx UInt8} (lost : ctx.Lost) :
    ¬ ctx.lib.AllReleasedOnce := by
  obtain ⟨s, record, found, unfreed, -⟩ := lost
  intro all
  have freed := all.sessions record (List.mem_of_getElem? found)
  omega

/-! ## The whole life -/

namespace ClientCall

/-- What is caught changes nothing more. -/
theorem ends_caught {Q : Ctx UInt8 → Prop} {E : Fault → Prop} {call : ClientCall}
    {ctx : Ctx UInt8} (ends : Ends Q E (call.run ctx)) : Ends Q E (call.caught ctx) := by
  unfold caught
  cases ran : call.run ctx with
  | ok rc after =>
      rw [ran] at ends
      exact ends
  | error fault after =>
      rw [ran] at ends
      cases fault with
      | systemError => exact ends.1
      | logicError what => exact ends.1
      | terminate => exact ends
      | blocked => exact ends

/-- A call that returns neither a value nor an exception blocks, unless the process
is terminated. -/
theorem caught_error {call : ClientCall} {ctx after : Ctx UInt8} {fault : Fault}
    (ran : call.caught ctx = .error fault after) : fault = .terminate ∨ fault = .blocked := by
  unfold caught at ran
  split at ran
  · cases ran
  · cases ran
  · cases ran
  next other stopped system logic _ =>
    cases ran
    cases fault with
    | systemError => exact (system rfl).elim
    | logicError what => exact (logic what rfl).elim
    | terminate => exact .inl rfl
    | blocked => exact .inr rfl

end ClientCall

/-- Nothing that happens later frees a lost session. -/
theorem keeps_lifetime_lost (calls : List ClientCall) (release : ReleaseResults) :
    Keeps Ctx.Lost (fun _ => True) (lifetime calls release) := by
  induction calls with
  | nil =>
      intro ctx lost
      rw [lifetime, ClientImpl.destruct_run]
      split
      · exact ⟨lost.released release, trivial⟩
      · exact lost.released release
  | cons call calls ih =>
      exact .bind (fun ctx lost => ClientCall.ends_caught (keeps_run_lost call ctx lost))
        fun _ => ih

/-- The session pointer is one that only `connect` assigns. -/
theorem stable_session (session : Option SessionId) :
    Stable fun ctx => ctx.client.session = session where
  assigns ctx f same holds := (congrArg Handles.session same).trans holds
  usesSession ctx := id
  usesCommandChannel ctx := id
  usesListenChannel ctx := id
  setsBlocking ctx blocking := id
  opens ctx opened holds := by
    unfold Ctx.openCommandChannel
    split
    · split <;> exact holds
    · exact holds
  frees ctx eagain := id
  listens ctx listened holds := by
    unfold Ctx.listen
    split
    · split <;> exact holds
    · exact holds
  accepts ctx accepted holds := by
    unfold Ctx.acceptForwarded
    split
    · split <;> exact holds
    · exact holds

/-- The first session of a client. -/
theorem Ctx.Owns.openSession {ctx : Ctx UInt8} (owns : ctx.Owns)
    (null : ctx.client.session = none) : ctx.openSession.Owns := by
  have owned : Owned ctx.lib ctx.client.handles := owns
  have sessions : ctx.lib.sessions = [] := by
    rcases owned.session with ⟨-, empty, -⟩ | ⟨held, -⟩
    · exact empty
    · exact absurd (null.symm.trans held) nofun
  have returned : Owned ctx.lib.sessionInit ctx.openSession.client.handles :=
    ⟨.inr ⟨congrArg some (by rw [sessions]; rfl), true, by rw [Libssh2.sessionInit, sessions]; rfl⟩,
      nofun, owned.channels, owned.listeners, owned.commandChannel, owned.listenChannel,
      owned.apart, owned.listener, owned.misuses⟩
  exact returned.setBlocking true

/-- Once there is a session, the thread may be anything. -/
theorem Ctx.Owns.startThreadIo {ctx : Ctx UInt8} (owns : ctx.Owns)
    (held : ctx.client.session ≠ none) : ctx.startThreadIo.Owns := by
  have owned : Owned ctx.lib ctx.client.handles := owns
  exact ⟨owned.session, fun null => absurd null held, owned.channels, owned.listeners,
    owned.commandChannel, owned.listenChannel, owned.apart, owned.listener, owned.misuses⟩

/-- What a call makes of a client that owns its handles. -/
def Serves (ctx : Ctx UInt8) (call : ClientCall) (after : Ctx UInt8) : Prop :=
  after.Owns ∧ (after.client.session.isSome ↔ ctx.client.session.isSome ∨ call.GetsSession)

/-- **A call on a client that owns its handles leaves it owning them**, unless it
assigns `session` while the client holds one. -/
theorem serves_run {ctx : Ctx UInt8} (owns : ctx.Owns) {call : ClientCall}
    (spares : ctx.client.session.isSome → ¬ call.AssignsSession) :
    Ends (Serves ctx call) Fault.Recoverable (call.run ctx) := by
  by_cases assigns : call.AssignsSession
  · have null : ctx.client.session = none := by
      rw [← Option.not_isSome_iff_eq_none]
      exact fun held => spares held assigns
    cases call with
    | tunnel opened => exact assigns.elim
    | command commandStr script => exact assigns.elim
    | forwarding script => exact assigns.elim
    | connect results =>
        obtain ⟨socket, created, handshake, auth⟩ := results
        obtain rfl : socket = .connected := assigns
        have socketOpen : ctx.openSocket.Owns :=
          stable_owns.assigns ctx (fun client => { client with sockOpen := true }) rfl owns
        cases created with
        | false =>
            rw [ClientCall.run, ClientImpl.connect_noSession]
            refine ⟨⟨?_, ?_⟩, nofun⟩
            · exact Owned.drop socketOpen _ null.symm rfl (.inl rfl) (.inl rfl) (.inl rfl)
            · simp [Ctx.loseSession, null, ClientCall.GetsSession]
        | true =>
            have opened : ctx.openSocket.openSession.useSession.Owns :=
              stable_owns.usesSession _ (socketOpen.openSession null)
            have started := stable_owns.usesSession _ (opened.startThreadIo nofun)
            have holdsThread : ctx.holdsThread = false := Owned.thread owns null
            have got : ClientCall.GetsSession (.connect ⟨.connected, true, handshake, auth⟩) :=
              ⟨rfl, rfl⟩
            rw [ClientCall.run, ClientImpl.connect_session, holdsThread]
            split
            · exact ⟨opened, iff_of_true rfl (.inr got)⟩
            · exact ⟨started, iff_of_true rfl (.inr got)⟩
  · have same := stable_session ctx.client.session
    refine ((stable_owns.keeps_call assigns ctx owns).and (same.keeps_call assigns ctx rfl)).imp
      (fun after kept => ⟨kept.1, ?_⟩) fun _ => id
    have none : ¬ call.GetsSession := by
      cases call with
      | connect results => exact fun got => assigns got.1
      | tunnel opened => exact id
      | command commandStr script => exact id
      | forwarding script => exact id
    rw [kept.2]
    exact ⟨.inl, fun held => held.resolve_right none⟩

/-- Whether a client that owns its handles releases them all. -/
theorem lifetime_allReleasedOnce_iff (calls : List ClientCall) (release : ReleaseResults)
    {ctx : Ctx UInt8} (owns : ctx.Owns)
    (completes : Completes (lifetime calls release ctx)) :
    (finalState (lifetime calls release ctx)).lib.AllReleasedOnce ↔
      (ctx.client.session.isSome → ∀ call ∈ calls, ¬ call.AssignsSession) ∧
        calls.Pairwise fun earlier later => earlier.GetsSession → ¬ later.AssignsSession := by
  induction calls generalizing ctx with
  | nil =>
      have all := released_of_owns owns release
      refine iff_of_true ?_ ⟨fun _ => List.forall_mem_nil _, .nil⟩
      rw [lifetime, ClientImpl.destruct_run]
      split <;> exact all
  | cons call calls ih =>
      by_cases spares : ctx.client.session.isSome → ¬ call.AssignsSession
      · have ends := ClientCall.ends_caught (serves_run owns spares)
        cases ran : call.caught ctx with
        | ok _ after =>
            have runs : lifetime (call :: calls) release ctx = lifetime calls release after := by
              rw [lifetime, run_bind, ran]
            rw [ran] at ends
            obtain ⟨ownsAfter, holds⟩ := ends
            rw [runs] at completes ⊢
            rw [ih ownsAfter completes, holds, List.pairwise_cons, List.forall_mem_cons]
            constructor
            · rintro ⟨later, apart⟩
              exact ⟨fun held => ⟨spares held, later (.inl held)⟩,
                fun call member got => later (.inr got) call member, apart⟩
            · rintro ⟨held, got, apart⟩
              refine ⟨fun either => ?_, apart⟩
              rcases either with old | new
              · exact (held old).2
              · exact fun call member => got call member new
        | error fault after =>
            rw [ran] at ends
            rcases ClientCall.caught_error ran with terminate | blocked
            · exact absurd terminate ends.2
            · rw [lifetime, run_bind, ran, blocked] at completes
              exact completes.elim
      · -- the session that the client holds is lost
        obtain ⟨held, assigns⟩ := Classical.not_imp.mp spares
        rw [not_not] at assigns
        have lost : Ends Ctx.Lost (fun _ => True) (lifetime (call :: calls) release ctx) := by
          have ends := ClientCall.ends_caught (lost_run (owns.sessionOpen held) assigns)
          rw [lifetime, run_bind]
          cases ran : call.caught ctx with
          | ok _ after =>
              rw [ran] at ends
              exact keeps_lifetime_lost calls release after ends
          | error fault after =>
              rw [ran] at ends
              exact ends
        refine iff_of_false lost.final.not_allReleasedOnce fun ⟨spared, _⟩ => ?_
        exact spared held call (List.mem_cons_self ..) assigns

/-- **The handles of a client are released once** exactly when no `connect` gets past
`ConnectSocket` after an earlier one got a session. -/
theorem releasesOnce_iff (clientState : ClientState) (calls : List ClientCall)
    (release : ReleaseResults)
    (completes : Completes (lifetime calls release { client := { clientState := clientState } })) :
    (finalState (lifetime calls release
        { client := { clientState := clientState } })).lib.AllReleasedOnce ↔
      calls.Pairwise fun earlier later => earlier.GetsSession → ¬ later.AssignsSession := by
  have owns : Ctx.Owns { client := { clientState := clientState } } :=
    ⟨.inl ⟨rfl, rfl, rfl, rfl⟩, fun _ => rfl, nofun, nofun, nofun, nofun, nofun, nofun, rfl⟩
  rw [lifetime_allReleasedOnce_iff calls release owns completes]
  exact ⟨And.right, fun apart => ⟨nofun, apart⟩⟩

/-- Setting up once, running a command whose phases are ended by their own handlers,
and opening a channel for a tunnel. -/
theorem releasesOnce_commandAndTunnel :
    (finalState (lifetime
      [.connect ⟨.connected, true, 0, 0⟩,
        .command [108, 115]
          { create := [⟨1, {}⟩], execute := [⟨1, {}⟩], reads := [⟨2, {}⟩], close := [⟨3, {}⟩] },
        .tunnel true]
      {} { client := { clientState := {} } })).lib.AllReleasedOnce :=
  (releasesOnce_iff {} _ {} (by exact trivial)).mpr (by
    simp [ClientCall.GetsSession, ClientCall.AssignsSession])

/-- A second `connect`, after the handshake of the first one failed, overwrites the
pointer to an open session. -/
theorem not_releasesOnce_connectTwice :
    ∃ after, lifetime [.connect ⟨.connected, true, -13, 0⟩, .connect ⟨.connected, true, -13, 0⟩]
        {} {} = .ok () after ∧ ¬ after.lib.AllReleasedOnce :=
  ⟨_, rfl, fun all => absurd (all.sessions ⟨true, 0⟩ (by decide)) (by decide)⟩

end BookFilerSsh
