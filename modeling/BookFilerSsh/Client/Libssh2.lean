import BookFilerSsh.Lib.Tables
import Mathlib.Algebra.Group.Nat.Defs
import Mathlib.Algebra.Ring.Int.Defs
import Mathlib.Data.List.Basic

/-!
# What libssh2 keeps about the handles it returned

`ClientImpl` holds pointers to sessions, channels and listeners that libssh2
returned. The ledger of this module is the library's side of them: for every
session whether it is in blocking mode and how often it was freed, for every
channel and listener the session it belongs to and how often it was released,
and for every channel the bytes the library accepted and returned on it.

The calls follow the documented behaviour of the library. A null handle is
refused and changes nothing. `libssh2_session_free` releases the channels and
listeners of the session that are still there. A call that would block returns
`LIBSSH2_ERROR_EAGAIN` in non-blocking mode only, and then changes nothing. A
call that is handed a handle already released is counted in `misuses`.
-/

set_option autoImplicit false

namespace BookFilerSsh

/-- The error code of a call that would block. -/
def libssh2ErrorEagain : Int := -37

/-- The C++ `int` a result of type `ssize_t` is assigned to. -/
def toInt (result : Int) : Int := result.bmod (2 ^ 32)

theorem toInt_of_small {result : Int} (lower : -(2 ^ 31) ≤ result) (upper : result < 2 ^ 31) :
    toInt result = result := by
  unfold toInt
  rw [Int.bmod_def]
  split <;> omega

abbrev SessionId := Nat
abbrev ChannelId := Nat
abbrev ListenerId := Nat

/-- A `LIBSSH2_SESSION`. -/
structure Session where
  blocking : Bool
  freed : Nat
  deriving DecidableEq, Repr

/-- A `LIBSSH2_CHANNEL`. The two streams are the bytes accepted by
`libssh2_channel_write` and returned by `libssh2_channel_read`. -/
structure Channel (β : Type) where
  session : SessionId
  released : Nat := 0
  accepted : List β := []
  returned : List β := []
  deriving DecidableEq, Repr

/-- A `LIBSSH2_LISTENER`. -/
structure Listener where
  session : SessionId
  released : Nat := 0
  deriving DecidableEq, Repr

/-- The library's handles, named by their position, and the number of calls that
were handed a released one. -/
structure Libssh2 (β : Type) where
  sessions : List Session := []
  channels : List (Channel β) := []
  listeners : List Listener := []
  misuses : Nat := 0
  deriving DecidableEq, Repr

namespace Libssh2

variable {β : Type}

/-! ## Handles in use -/

/-- The session was returned and not freed. -/
def sessionOpen (lib : Libssh2 β) (s : SessionId) : Bool :=
  lib.sessions[s]?.any fun session => session.freed == 0

/-- The channel was returned and not released. -/
def channelOpen (lib : Libssh2 β) (c : ChannelId) : Bool :=
  lib.channels[c]?.any fun channel => channel.released == 0

/-- The listener was returned and not released. -/
def listenerOpen (lib : Libssh2 β) (l : ListenerId) : Bool :=
  lib.listeners[l]?.any fun listener => listener.released == 0

/-- Count a call whose handle is `live` or not. -/
def note (lib : Libssh2 β) (live : Bool) : Libssh2 β :=
  if live then lib else { lib with misuses := lib.misuses + 1 }

/-- A call on a session. -/
def useSession (lib : Libssh2 β) : Option SessionId → Libssh2 β
  | none => lib
  | some s => lib.note (lib.sessionOpen s)

/-- A call on a channel. -/
def useChannel (lib : Libssh2 β) : Option ChannelId → Libssh2 β
  | none => lib
  | some c => lib.note (lib.channelOpen c)

/-- A call on a listener. -/
def useListener (lib : Libssh2 β) : Option ListenerId → Libssh2 β
  | none => lib
  | some l => lib.note (lib.listenerOpen l)

/-- The blocking mode of a session. -/
def isBlocking (lib : Libssh2 β) (s : SessionId) : Bool :=
  lib.sessions[s]?.all fun session => session.blocking

/-! ## Calls that return handles -/

/-- `libssh2_session_init`. -/
def sessionInit (lib : Libssh2 β) : Libssh2 β :=
  { lib with sessions := lib.sessions ++ [{ blocking := true, freed := 0 }] }

/-- A call that opens a channel on a session: `libssh2_channel_open_session`,
`libssh2_channel_direct_tcpip_ex`. -/
def openChannel (lib : Libssh2 β) (s : SessionId) : Libssh2 β :=
  { lib with channels := lib.channels ++ [{ session := s }] }

/-- `libssh2_channel_forward_listen_ex`. -/
def forwardListen (lib : Libssh2 β) (s : SessionId) : Libssh2 β :=
  { lib with listeners := lib.listeners ++ [{ session := s }] }

/-! ## Calls that release handles -/

/-- `libssh2_session_set_blocking`. -/
def setBlocking (lib : Libssh2 β) (session : Option SessionId) (blocking : Bool) : Libssh2 β :=
  match session with
  | none => lib
  | some s =>
      { lib.useSession (some s) with
        sessions := lib.sessions.modify s fun record => { record with blocking := blocking } }

/-- A call on a handle of session `s` that would block gives up: only in
non-blocking mode. -/
def givesUp (lib : Libssh2 β) (s : SessionId) (eagain : Bool) : Bool :=
  eagain && !lib.isBlocking s

/-- `libssh2_channel_free`; `eagain` says that the call would block. -/
def channelFree (lib : Libssh2 β) (channel : Option ChannelId) (eagain : Bool) : Libssh2 β :=
  match channel with
  | none => lib
  | some c =>
      match lib.channels[c]? with
      | none => lib.useChannel (some c)
      | some record =>
          if lib.givesUp record.session eagain then lib.useChannel (some c)
          else
            { lib.useChannel (some c) with
              channels := lib.channels.modify c fun record =>
                { record with released := record.released + 1 } }

/-- `libssh2_channel_forward_cancel`. -/
def forwardCancel (lib : Libssh2 β) (listener : Option ListenerId) (eagain : Bool) : Libssh2 β :=
  match listener with
  | none => lib
  | some l =>
      match lib.listeners[l]? with
      | none => lib.useListener (some l)
      | some record =>
          if lib.givesUp record.session eagain then lib.useListener (some l)
          else
            { lib.useListener (some l) with
              listeners := lib.listeners.modify l fun record =>
                { record with released := record.released + 1 } }

/-- A channel goes with its session, unless it was released before. -/
def channelGoesWith (s : SessionId) (channel : Channel β) : Channel β :=
  if channel.session = s ∧ channel.released = 0 then { channel with released := 1 } else channel

/-- A listener goes with its session, unless it was released before. -/
def listenerGoesWith (s : SessionId) (listener : Listener) : Listener :=
  if listener.session = s ∧ listener.released = 0 then { listener with released := 1 }
  else listener

/-- `libssh2_session_free`. -/
def sessionFree (lib : Libssh2 β) (session : Option SessionId) (eagain : Bool) : Libssh2 β :=
  match session with
  | none => lib
  | some s =>
      if lib.givesUp s eagain then lib.useSession (some s)
      else
        { lib.useSession (some s) with
          sessions := lib.sessions.modify s fun record => { record with freed := record.freed + 1 }
          channels := lib.channels.map (channelGoesWith s)
          listeners := lib.listeners.map (listenerGoesWith s) }

/-- Every handle that was returned has been released exactly once, and no call
was handed a released handle. -/
structure AllReleasedOnce (lib : Libssh2 β) : Prop where
  sessions : ∀ session ∈ lib.sessions, session.freed = 1
  channels : ∀ channel ∈ lib.channels, channel.released = 1
  listeners : ∀ listener ∈ lib.listeners, listener.released = 1
  misuses : lib.misuses = 0

/-! ## What the calls leave alone -/

open Lib.Tables

/-- The bytes accepted and returned on every channel. -/
def traffic (lib : Libssh2 β) : List (List β × List β) :=
  lib.channels.map fun channel => (channel.accepted, channel.returned)

@[simp] theorem note_channels (lib : Libssh2 β) (live : Bool) :
    (lib.note live).channels = lib.channels := by
  unfold note
  split <;> rfl

@[simp] theorem note_sessions (lib : Libssh2 β) (live : Bool) :
    (lib.note live).sessions = lib.sessions := by
  unfold note
  split <;> rfl

@[simp] theorem useSession_channels (lib : Libssh2 β) (session : Option SessionId) :
    (lib.useSession session).channels = lib.channels := by
  cases session <;> simp [useSession]

@[simp] theorem useSession_sessions (lib : Libssh2 β) (session : Option SessionId) :
    (lib.useSession session).sessions = lib.sessions := by
  cases session <;> simp [useSession]

@[simp] theorem useChannel_channels (lib : Libssh2 β) (channel : Option ChannelId) :
    (lib.useChannel channel).channels = lib.channels := by
  cases channel <;> simp [useChannel]

@[simp] theorem useChannel_sessions (lib : Libssh2 β) (channel : Option ChannelId) :
    (lib.useChannel channel).sessions = lib.sessions := by
  cases channel <;> simp [useChannel]

@[simp] theorem useListener_channels (lib : Libssh2 β) (listener : Option ListenerId) :
    (lib.useListener listener).channels = lib.channels := by
  cases listener <;> simp [useListener]

@[simp] theorem useListener_sessions (lib : Libssh2 β) (listener : Option ListenerId) :
    (lib.useListener listener).sessions = lib.sessions := by
  cases listener <;> simp [useListener]

/-- A call that changes neither the traffic nor the number of sessions. -/
structure Quiet (before after : Libssh2 β) : Prop where
  traffic : after.traffic = before.traffic
  sessions : after.sessions.length = before.sessions.length

theorem quiet_useSession (lib : Libssh2 β) (session : Option SessionId) :
    Quiet lib (lib.useSession session) := by
  constructor <;> simp [Libssh2.traffic]

theorem quiet_setBlocking (lib : Libssh2 β) (session : Option SessionId) (blocking : Bool) :
    Quiet lib (lib.setBlocking session blocking) := by
  cases session <;> constructor <;> simp [Libssh2.traffic, setBlocking]

theorem quiet_channelFree (lib : Libssh2 β) (channel : Option ChannelId) (eagain : Bool) :
    Quiet lib (lib.channelFree channel eagain) := by
  unfold channelFree
  split
  · exact ⟨rfl, rfl⟩
  · split
    · constructor <;> simp [Libssh2.traffic]
    · split
      · constructor <;> simp [Libssh2.traffic]
      · constructor <;> simp [Libssh2.traffic, map_modify_of_eq]

theorem quiet_forwardCancel (lib : Libssh2 β) (listener : Option ListenerId) (eagain : Bool) :
    Quiet lib (lib.forwardCancel listener eagain) := by
  unfold forwardCancel
  split
  · exact ⟨rfl, rfl⟩
  · split
    · constructor <;> simp [Libssh2.traffic]
    · split <;> constructor <;> simp [Libssh2.traffic]

theorem quiet_sessionFree (lib : Libssh2 β) (session : Option SessionId) (eagain : Bool) :
    Quiet lib (lib.sessionFree session eagain) := by
  unfold sessionFree
  split
  · exact ⟨rfl, rfl⟩
  · split
    · constructor <;> simp [Libssh2.traffic]
    · refine ⟨?_, by simp⟩
      simp only [Libssh2.traffic, List.map_map]
      refine List.map_congr_left fun channel _ => ?_
      simp only [Function.comp_apply, channelGoesWith]
      split <;> rfl

/-- A call on a session leaves the channels of all other sessions alone. -/
def Spares (before after : Libssh2 β) (session : Option SessionId) : Prop :=
  ∀ (c : ChannelId) (record : Channel β), before.channels[c]? = some record →
    session ≠ some record.session → after.channels[c]? = some record

theorem Spares.of_eq {before after : Libssh2 β} (same : after.channels = before.channels)
    (session : Option SessionId) : Spares before after session :=
  fun c _ found _ => (congrArg (fun channels => channels[c]?) same).trans found

@[simp] theorem setBlocking_channels (lib : Libssh2 β) (session : Option SessionId)
    (blocking : Bool) : (lib.setBlocking session blocking).channels = lib.channels := by
  cases session <;> simp [setBlocking]

/-- The calls on a session leave the others alone. -/
theorem setBlocking_sessions_of_ne (lib : Libssh2 β) {session : Option SessionId} {s : SessionId}
    (other : session ≠ some s) (blocking : Bool) :
    (lib.setBlocking session blocking).sessions[s]? = lib.sessions[s]? := by
  cases session with
  | none => rfl
  | some held =>
      have elsewhere : held ≠ s := fun same => other (by rw [same])
      simp [setBlocking, elsewhere]

theorem sessionFree_sessions_of_ne (lib : Libssh2 β) {session : Option SessionId} {s : SessionId}
    (other : session ≠ some s) (eagain : Bool) :
    (lib.sessionFree session eagain).sessions[s]? = lib.sessions[s]? := by
  cases session with
  | none => rfl
  | some held =>
      have elsewhere : held ≠ s := fun same => other (by rw [same])
      simp only [sessionFree]
      split <;> simp [elsewhere]

@[simp] theorem channelFree_sessions (lib : Libssh2 β) (channel : Option ChannelId)
    (eagain : Bool) : (lib.channelFree channel eagain).sessions = lib.sessions := by
  unfold channelFree
  split
  · rfl
  · split
    · simp
    · split <;> simp

@[simp] theorem forwardCancel_sessions (lib : Libssh2 β) (listener : Option ListenerId)
    (eagain : Bool) : (lib.forwardCancel listener eagain).sessions = lib.sessions := by
  unfold forwardCancel
  split
  · rfl
  · split
    · simp
    · split <;> simp

@[simp] theorem forwardCancel_channels (lib : Libssh2 β) (listener : Option ListenerId)
    (eagain : Bool) : (lib.forwardCancel listener eagain).channels = lib.channels := by
  unfold forwardCancel
  split
  · rfl
  · split
    · simp
    · split <;> simp

/-- `libssh2_session_free` releases the channels of its own session only. -/
theorem spares_sessionFree (lib : Libssh2 β) (session : Option SessionId) (eagain : Bool) :
    Spares lib (lib.sessionFree session eagain) session := by
  intro c record found other
  unfold sessionFree
  split
  · exact found
  · rename_i s
    have elsewhere : record.session ≠ s := fun same => other (by rw [same])
    split
    · simpa using found
    · simp [found, channelGoesWith, elsewhere]

end Libssh2

end BookFilerSsh
