import BookFilerSsh.Tunnel.Refusals
import Mathlib.Logic.Relation

/-!
# What an iteration of the accept loop publishes

The accept loop publishes a connection before it sets its client up, and the set-up may
fail. An iteration begins when `async_accept` has returned a socket and ends at the next
`async_accept`, and pumps of other connections run in between (`Server.Iteration`).

Whatever the outcome, the list has one connection more at the end, with its id, and the
loop touches no other connection (`Server.Iteration.published`). After a set-up that did
not fail the connection has its client and both pumps, and it had its id and its client
before a pump was spawned (`Server.Iteration.publishedWhole`). One that failed leaves its
connection in the list, so a set-up is all or nothing exactly when libssh2 does not refuse
it (`Server.setUp_allOrNothing_iff`).
-/

set_option autoImplicit false

namespace BookFilerSsh

open Lib.Tables Lib.Effects

/-! ## What pumps do to their connections -/

/-- A step of a pump, seen on its connection. -/
def PumpStep (conn next : ConnectionImpl TaggedByte) : Prop :=
  ∃ (link after : Link TaggedByte) (action : LinkAction TaggedByte),
    link.act action = some after ∧ link.conn = conn ∧ after.conn = next

/-- A connection after any steps of its own pumps. -/
abbrev Pumped : ConnectionImpl TaggedByte → ConnectionImpl TaggedByte → Prop :=
  Relation.ReflTransGen PumpStep

/-- Each of the connections is still there, and only its own pumps have worked on it. -/
def Untouched (before after : List (ConnectionImpl TaggedByte)) : Prop :=
  ∀ (i : ℕ) conn, before[i]? = some conn → ∃ later, after[i]? = some later ∧ Pumped conn later

namespace Untouched

theorem refl (conns : List (ConnectionImpl TaggedByte)) : Untouched conns conns :=
  fun _ conn found => ⟨conn, found, .refl⟩

variable {before after : List (ConnectionImpl TaggedByte)}

/-- A step of a pump. -/
theorem set (untouched : Untouched before after) {i : ℕ}
    {conn next : ConnectionImpl TaggedByte} (found : after[i]? = some conn)
    (pumped : PumpStep conn next) : Untouched before (after.set i next) := by
  intro j old foundOld
  obtain ⟨later, foundLater, steps⟩ := untouched j old foundOld
  by_cases here : i = j
  · subst here
    rw [found, Option.some.injEq] at foundLater
    subst foundLater
    have inside := (List.getElem?_eq_some_iff.mp found).1
    exact ⟨next, List.getElem?_set_self inside, steps.tail pumped⟩
  · exact ⟨later, by rw [List.getElem?_set_ne here, foundLater], steps⟩

/-- An assignment to a connection behind them. -/
theorem modify (untouched : Untouched before after) {i : ℕ} (behind : before.length ≤ i)
    (f : ConnectionImpl TaggedByte → ConnectionImpl TaggedByte) :
    Untouched before (after.modify i f) := by
  intro j old foundOld
  obtain ⟨later, foundLater, steps⟩ := untouched j old foundOld
  have inside := (List.getElem?_eq_some_iff.mp foundOld).1
  have elsewhere : i ≠ j := by omega
  exact ⟨later, by rw [List.getElem?_modify_ne _ _ elsewhere, foundLater], steps⟩

/-- A connection is published behind them. -/
theorem concat (untouched : Untouched before after) (conn : ConnectionImpl TaggedByte) :
    Untouched before (after ++ [conn]) := by
  intro j old foundOld
  obtain ⟨later, foundLater, steps⟩ := untouched j old foundOld
  have inside := (List.getElem?_eq_some_iff.mp foundLater).1
  exact ⟨later, by rw [List.getElem?_append_left inside, foundLater], steps⟩

end Untouched

theorem Link.connId_act {β : Type} {link next : Link β} {action : LinkAction β}
    (acted : link.act action = some next) : next.conn.connId = link.conn.connId := by
  cases action with
  | pullStep =>
      obtain ⟨⟨after, effect⟩, stepped, rfl⟩ := Option.map_eq_some_iff.mp acted
      unfold pullStep at stepped
      split at stepped <;> try split at stepped
      all_goals cases stepped
      all_goals rfl
  | pushStep =>
      obtain ⟨⟨after, effect⟩, stepped, rfl⟩ := Option.map_eq_some_iff.mp acted
      unfold pushStep at stepped
      split at stepped <;> try split at stepped
      all_goals cases stepped
      all_goals rfl
  | _ =>
      simp only [act, pullReturn, pullWake, pullResume, pushReturn, pushWake, pushResume] at acted
      split at acted <;> try split at acted
      all_goals cases acted
      all_goals rfl

/-! ## Iterations -/

variable {T : ℕ}

/-- The connection of the iteration, once it has its id. -/
def ListenerPc.identifiedAs : ListenerPc → Option ℕ
  | .identified i | .connecting i _ | .creating i _ | .handshaking i _ | .authenticating i _
  | .opening i _ | .dropping i _ | .tunnelled i _ | .clientSet i | .pullSpawned i => some i
  | _ => none

theorem ListenerPc.identifiedAs_of_inSetUp {pc : ListenerPc} {i c : ℕ}
    (here : pc.inSetUp = some (i, c)) : pc.identifiedAs = some i := by
  cases pc <;> simp_all [inSetUp, identifiedAs]

namespace Server

/-- A run of one iteration of the accept loop: it begins when `async_accept` has returned
a socket, and ends when the loop is at its head again. -/
structure Iteration (mode : SpawnMode) (clientState : ClientState) (s : Server T)
    (actions : List (ServerAction T)) (t : Server T) : Prop where
  accepted : s.listener = .resumed false
  run : (serverMachine T mode clientState).exec s actions = some t
  ended : t.listener = .loopTop
  within : ∀ before after u, actions = before ++ after → after ≠ [] →
    (serverMachine T mode clientState).exec s before = some u → u.listener ≠ .loopTop

/-- `connect` or `tunnel` returns a negative code in the run: the client is dropped. -/
def SetUpFails (mode : SpawnMode) (clientState : ClientState) (s : Server T)
    (actions : List (ServerAction T)) : Prop :=
  ∃ before after u i c, actions = before ++ after ∧
    (serverMachine T mode clientState).exec s before = some u ∧ u.listener = .dropping i c

/-- The list is as it was: no connection for the socket is in it, open or with a pump. -/
structure AsBefore (s t : Server T) : Prop where
  others : Untouched s.connectionList t.connectionList
  gone : t.connectionList.length = s.connectionList.length
  closed : ∀ conn, t.connectionList[s.connectionList.length]? = some conn →
    conn.srcSocket.isOpen = false
  noPump : ∀ conn, t.connectionList[s.connectionList.length]? = some conn →
    conn.pull.isSpawned = false ∧ conn.push.isSpawned = false

/-- The connection has the next id and the client of the iteration. -/
def Complete (s : Server T) (conn : ConnectionImpl TaggedByte) : Prop :=
  conn.connId = some (s.connectionIdIncrement + 1) ∧ conn.sshClient = some s.clients.length

/-- One connection was added, whole: complete before a pump of it was spawned, and with
both pumps at the end. -/
structure PublishedWhole (mode : SpawnMode) (clientState : ClientState) (s : Server T)
    (actions : List (ServerAction T)) (t : Server T) : Prop where
  others : Untouched s.connectionList t.connectionList
  once : t.connectionList.length = s.connectionList.length + 1
  complete : ∃ conn, t.connectionList[s.connectionList.length]? = some conn ∧
    s.Complete conn ∧ conn.pull.isSpawned = true ∧ conn.push.isSpawned = true
  inTime : ∀ before after u conn, actions = before ++ after →
    (serverMachine T mode clientState).exec s before = some u →
      u.connectionList[s.connectionList.length]? = some conn →
        conn.pull.isSpawned = true ∨ conn.push.isSpawned = true → s.Complete conn

/-- **A set-up is all or nothing**: a failed one leaves the list as it was, and one that
does not fail publishes a whole connection. -/
structure AllOrNothing (mode : SpawnMode) (clientState : ClientState) (s : Server T)
    (actions : List (ServerAction T)) (t : Server T) : Prop where
  failed : SetUpFails mode clientState s actions → AsBefore s t
  succeeded : ¬ SetUpFails mode clientState s actions →
    PublishedWhole mode clientState s actions t

/-! ## The invariant of an iteration -/

/-- The ids of the connections. -/
def connIds (s : Server T) : List (Option UInt32) := s.connectionList.map ConnectionImpl.connId

/-- The connection of an iteration that began in `s` is in the list with its id, behind the
others. -/
structure Listed (s u : Server T) : Prop where
  others : Untouched s.connectionList u.connectionList
  once : u.connectionList.length = s.connectionList.length + 1
  connId : u.connIds[s.connectionList.length]? = some (some (s.connectionIdIncrement + 1))

/-- Where the list stands at each position of an iteration that began in `s`. -/
def Within (s u : Server T) : Prop :=
  match u.listener with
  | .resumed false =>
      Untouched s.connectionList u.connectionList ∧
        u.connectionList.length = s.connectionList.length ∧
          u.connectionIdIncrement = s.connectionIdIncrement
  | .published i =>
      Untouched s.connectionList u.connectionList ∧ i = s.connectionList.length ∧
        u.connectionList.length = s.connectionList.length + 1 ∧
          u.connectionIdIncrement = s.connectionIdIncrement + 1
  | pc => pc.identifiedAs = some s.connectionList.length ∧ Listed s u

theorem within_of_identified {s u : Server T}
    (here : u.listener.identifiedAs = some s.connectionList.length) :
    Within s u ↔ Listed s u := by
  unfold Within
  split
  next pc =>
    rw [pc] at here
    cases here
  next i pc =>
    rw [pc] at here
    cases here
  next => exact ⟨And.right, fun listed => ⟨here, listed⟩⟩

/-- An assignment to the connection that keeps its id. -/
theorem Listed.modify {s u next : Server T} (listed : Listed s u)
    {f : ConnectionImpl TaggedByte → ConnectionImpl TaggedByte}
    (assigned : next.connectionList = u.connectionList.modify s.connectionList.length f)
    (sameId : ∀ conn, (f conn).connId = conn.connId) :
    Listed s next := by
  refine ⟨?_, ?_, ?_⟩
  · rw [assigned]
    exact listed.others.modify (Nat.le_refl _) f
  · rw [assigned, List.length_modify]
    exact listed.once
  · rw [connIds, assigned, Lib.Tables.map_modify_of_eq sameId]
    exact listed.connId

/-- Pumps may work on every connection meanwhile. -/
theorem Listed.pump {s u next : Server T} (listed : Listed s u) {i : ℕ}
    {link after : Link TaggedByte} {action : LinkAction TaggedByte}
    (linked : u.link i = some link) (acted : link.act action = some after)
    (assigned : next.connectionList = u.connectionList.set i after.conn) : Listed s next := by
  have found := (link_eq_some linked).1
  refine ⟨?_, ?_, ?_⟩
  · rw [assigned]
    exact listed.others.set found ⟨link, after, action, acted, rfl, rfl⟩
  · rw [assigned, List.length_set]
    exact listed.once
  · rw [connIds, assigned, Lib.Tables.map_set_of_eq found (Link.connId_act acted)]
    exact listed.connId

/-- The position of the accept loop, the list and the counter are all that counts. -/
theorem Within.congr {s u next : Server T} (within : Within s u)
    (listener : next.listener = u.listener) (list : next.connectionList = u.connectionList)
    (increment : next.connectionIdIncrement = u.connectionIdIncrement) : Within s next := by
  unfold Within at within ⊢
  rw [listener, list, increment]
  split at within
  next => exact within
  next => exact within
  next =>
    obtain ⟨named, others, once, connId⟩ := within
    exact ⟨named, list ▸ others, by rw [list, once], by rw [connIds, list]; exact connId⟩

theorem Within.pump {s u : Server T} (within : Within s u) {i : ℕ} {link after : Link TaggedByte}
    {action : LinkAction TaggedByte} (linked : u.link i = some link)
    (acted : link.act action = some after) : Within s (u.setLink i after) := by
  have found := (link_eq_some linked).1
  have pumped : PumpStep link.conn after.conn := ⟨link, after, action, acted, rfl, rfl⟩
  have length : (u.connectionList.set i after.conn).length = u.connectionList.length :=
    List.length_set
  have listener : (u.setLink i after).listener = u.listener := rfl
  unfold Within at within ⊢
  rw [listener]
  split at within
  next => exact ⟨within.1.set found pumped, length.trans within.2.1, within.2.2⟩
  next => exact ⟨within.1.set found pumped, within.2.1, length.trans within.2.2.1, within.2.2.2⟩
  next => exact ⟨within.1, within.2.pump linked acted rfl⟩

/-- The step ends the iteration: the client is dropped, or the second pump is spawned. -/
structure Ends (mode : SpawnMode) (s u next : Server T) : Prop where
  ended : next.listener = .loopTop
  listed : Listed s next
  how : (∃ i c, u.listener = .dropping i c) ∨
    u.listener = .pullSpawned s.connectionList.length ∧
      next.shapes =
        u.shapes.modify s.connectionList.length fun shape => { shape with push := true }

/-- A statement of the accept loop. -/
theorem Within.listenerStep {s u next : Server T} {mode : SpawnMode} {effect : Effect}
    (within : Within s u) (stepped : u.listenerStep mode = some (next, effect)) :
    Within s next ∨ Ends mode s u next := by
  unfold Server.listenerStep at stepped
  cases pc : u.listener with
  | resumed ec =>
      simp only [pc] at stepped
      cases ec with
      | true =>
          simp only [Within, pc, ListenerPc.identifiedAs, reduceCtorEq, false_and] at within
      | false =>
          simp only [Within, pc] at within
          obtain ⟨others, length, increment⟩ := within
          cases stepped
          refine .inl ⟨others.concat {}, length, ?_, ?_⟩
          · exact List.length_append.trans (by rw [length]; rfl)
          · show u.connectionIdIncrement + 1 = s.connectionIdIncrement + 1
            rw [increment]
  | published i =>
      simp only [Within, pc] at within
      obtain ⟨others, rfl, length, increment⟩ := within
      simp only [pc, Option.some.injEq, Prod.mk.injEq] at stepped
      obtain ⟨rfl, -⟩ := stepped
      refine .inl ⟨rfl, others.modify (Nat.le_refl _) _, (List.length_modify ..).trans length, ?_⟩
      have inside : s.connectionList.length < u.connectionList.length := by omega
      simp [connIds, onState, setListener, ListenerState.setId, ListenerState.setConn, increment,
        inside]
  | identified i =>
      simp only [Within, pc, ListenerPc.identifiedAs, Option.some.injEq] at within
      obtain ⟨rfl, listed⟩ := within
      simp only [pc, Option.some.injEq, Prod.mk.injEq] at stepped
      obtain ⟨rfl, -⟩ := stepped
      exact .inl ⟨rfl, listed.others, listed.once, listed.connId⟩
  | tunnelled i c =>
      simp only [Within, pc, ListenerPc.identifiedAs, Option.some.injEq] at within
      obtain ⟨rfl, listed⟩ := within
      simp only [pc, Option.some.injEq, Prod.mk.injEq] at stepped
      obtain ⟨rfl, -⟩ := stepped
      exact .inl ⟨rfl, listed.modify rfl fun _ => rfl⟩
  | clientSet i =>
      simp only [Within, pc, ListenerPc.identifiedAs, Option.some.injEq] at within
      obtain ⟨rfl, listed⟩ := within
      simp only [pc, Option.some.injEq, Prod.mk.injEq] at stepped
      obtain ⟨rfl, -⟩ := stepped
      exact .inl ⟨rfl, listed.modify rfl fun _ => rfl⟩
  | pullSpawned i =>
      simp only [Within, pc, ListenerPc.identifiedAs, Option.some.injEq] at within
      obtain ⟨rfl, listed⟩ := within
      simp only [pc, Option.some.injEq, Prod.mk.injEq] at stepped
      obtain ⟨rfl, -⟩ := stepped
      exact .inr ⟨rfl, listed.modify rfl fun _ => rfl, .inr ⟨pc, spawnPush_shapes u mode _⟩⟩
  | unbound => simp only [Within, pc, ListenerPc.identifiedAs, reduceCtorEq, false_and] at within
  | loopTop => simp only [Within, pc, ListenerPc.identifiedAs, reduceCtorEq, false_and] at within
  | _ => simp [pc] at stepped

/-- A connection that has its id is listed with it. -/
theorem Within.listed {s u : Server T} (within : Within s u) {i : ℕ}
    (named : u.listener.identifiedAs = some i) : i = s.connectionList.length ∧ Listed s u := by
  unfold Within at within
  split at within
  next pc =>
    rw [pc] at named
    cases named
  next i pc =>
    rw [pc] at named
    cases named
  next =>
    obtain ⟨same, listed⟩ := within
    exact ⟨Option.some.inj (named.symm.trans same), listed⟩

/-- The end of a call of the set-up. -/
theorem Within.setUp {s u next : Server T} {mode : SpawnMode} (within : Within s u)
    (moved : SetUpMoves u next) : Within s next ∨ Ends mode s u next := by
  cases moved with
  | binds here goes =>
      simp only [Within, here, ListenerPc.identifiedAs, reduceCtorEq, false_and] at within
  | faults here found quiet =>
      exact .inl (within.congr rfl rfl rfl)
  | goesOn here there found quiet =>
      obtain ⟨rfl, listed⟩ := within.listed (ListenerPc.identifiedAs_of_inSetUp here)
      have named := ListenerPc.identifiedAs_of_inSetUp there
      exact .inl ((within_of_identified named).mpr ⟨listed.others, listed.once, listed.connId⟩)
  | opens here found session =>
      obtain ⟨rfl, listed⟩ := within.listed (by rw [here]; rfl)
      exact .inl ⟨rfl, listed.others, listed.once, listed.connId⟩
  | drops here found quiet =>
      obtain ⟨rfl, listed⟩ := within.listed (by rw [here]; rfl)
      exact .inr ⟨rfl, ⟨listed.others, listed.once, listed.connId⟩, .inl ⟨_, _, here⟩⟩

/-- **A step goes on with the iteration or ends it**, with the connection in the list. -/
theorem Within.step {s u next : Server T} {mode : SpawnMode} {action : ServerAction T}
    (within : Within s u) (stepped : u.step mode action = some next) :
    Within s next ∨ Ends mode s u next := by
  cases (step_moves stepped).2.turns with
  | pump threads linked acted => exact .inl ((within.pump linked acted).congr rfl rfl rfl)
  | listener threads ran =>
      rcases within.listenerStep ran with goesOn | ⟨ended, listed, how⟩
      · exact .inl (goesOn.congr rfl rfl rfl)
      · exact .inr ⟨ended, ⟨listed.others, listed.once, listed.connId⟩, how⟩
  | setUp ended => exact within.setUp (listenerReturn_moves ended)
  | clientArrives => exact .inl (within.congr rfl rfl rfl)
  | outside backlog threads away there =>
      rcases away with pc | pc | ⟨ec, pc⟩ <;>
        simp only [Within, pc, ListenerPc.identifiedAs, reduceCtorEq, false_and] at within

/-! ## Runs of an iteration -/

variable {mode : SpawnMode} {clientState : ClientState} {s t : Server T}
  {actions : List (ServerAction T)}

/-- Every state of an iteration but the last is within it. -/
theorem Iteration.all_within (iteration : Iteration mode clientState s actions t)
    (before : List (ServerAction T)) :
    ∀ after u, actions = before ++ after → after ≠ [] →
      (serverMachine T mode clientState).exec s before = some u → Within s u := by
  induction before using List.reverseRecOn with
  | nil =>
      intro after u _ _ run
      rw [Lib.Machine.exec_nil, Option.some.injEq] at run
      subst run
      unfold Within
      rw [iteration.accepted]
      exact ⟨.refl _, rfl, rfl⟩
  | append_singleton before action ih =>
      intro after u split rest run
      obtain ⟨middle, toMiddle, stepped⟩ := (Lib.Machine.exec_concat_eq_some _).mp run
      have splitBefore : actions = before ++ action :: after := by rw [split]; simp
      have within := ih (action :: after) middle splitBefore (List.cons_ne_nil _ _) toMiddle
      rcases within.step stepped with goesOn | ends
      · exact goesOn
      · exact absurd ends.ended (iteration.within _ _ u split rest run)

/-- The last step of an iteration. -/
theorem Iteration.ends (iteration : Iteration mode clientState s actions t) :
    ∃ before action u, actions = before ++ [action] ∧
      (serverMachine T mode clientState).exec s before = some u ∧ Within s u ∧
        Ends mode s u t := by
  rcases List.eq_nil_or_concat actions with none | ⟨before, action, split⟩
  · have run := iteration.run
    rw [none, Lib.Machine.exec_nil, Option.some.injEq] at run
    have accepted := iteration.accepted
    rw [run, iteration.ended] at accepted
    cases accepted
  · rw [List.concat_eq_append] at split
    have run := iteration.run
    rw [split] at run
    obtain ⟨u, toU, stepped⟩ := (Lib.Machine.exec_concat_eq_some _).mp run
    have within := iteration.all_within before [action] u split (List.cons_ne_nil _ _) toU
    refine ⟨before, action, u, split, toU, within, ?_⟩
    rcases within.step stepped with goesOn | ends
    · simp only [Within, iteration.ended, ListenerPc.identifiedAs, reduceCtorEq, false_and]
        at goesOn
    · exact ends

/-- **Whatever the outcome, the list has one connection more**, with its id, and the others
are touched by their own pumps only. -/
theorem Iteration.published (iteration : Iteration mode clientState s actions t) : Listed s t := by
  obtain ⟨_, _, _, _, _, _, last⟩ := iteration.ends
  exact last.listed

/-! ## When a set-up fails -/

/-- **A set-up fails exactly when libssh2 refuses it.** -/
theorem Iteration.setUpFails_iff (iteration : Iteration mode clientState s actions t)
    (reached : (serverMachine T mode clientState).Reachable s) :
    SetUpFails mode clientState s actions ↔ ∃ action ∈ actions, action.Refuses := by
  constructor
  · rintro ⟨before, after, u, i, c, rfl, run, drops⟩
    have accepted := iteration.accepted
    clear iteration
    induction before using List.reverseRecOn generalizing u after with
    | nil =>
        rw [Lib.Machine.exec_nil, Option.some.injEq] at run
        subst run
        cases accepted.symm.trans drops
    | append_singleton before action ih =>
        obtain ⟨middle, toMiddle, stepped⟩ := (Lib.Machine.exec_concat_eq_some _).mp run
        by_cases already : middle.listener = .dropping i c
        · obtain ⟨refusal, inBefore, refused⟩ := ih [] middle toMiddle already
          exact ⟨refusal, by simp_all, refused⟩
        · have holds := holdsSession (reached.exec toMiddle)
          exact ⟨action, by simp, refuses_of_step holds stepped drops already⟩
  · rintro ⟨action, inActions, refused⟩
    obtain ⟨before, after, rfl⟩ := List.append_of_mem inActions
    have run := iteration.run
    rw [List.append_cons, Lib.Machine.exec_append_eq_some] at run
    obtain ⟨u, toU, -⟩ := run
    obtain ⟨middle, -, stepped⟩ := (Lib.Machine.exec_concat_eq_some _).mp toU
    obtain ⟨i, c, drops⟩ := step_of_refuses refused stepped
    exact ⟨before ++ [action], after, u, i, c, by simp, toU, drops⟩

/-! ## Published whole -/

/-- A connection with a pump has its client. -/
theorem complete_of_spawned {u : Server T} (laidBefore : s.LaidOut)
    (accepted : s.listener = .resumed false) (laid : u.LaidOut) (listed : Listed s u)
    {conn : ConnectionImpl TaggedByte}
    (found : u.connectionList[s.connectionList.length]? = some conn)
    (spawned : conn.pull.isSpawned = true ∨ conn.push.isSpawned = true) : s.Complete conn := by
  have clients : s.clients.length = s.connectionList.length := by
    have fits := laidBefore.fits
    rw [accepted] at fits
    exact fits.trans (List.length_map _)
  constructor
  · have connId := listed.connId
    rw [connIds, List.getElem?_map, found] at connId
    exact Option.some.inj connId
  · have shape : u.shapes[s.connectionList.length]? = some conn.shape := by simp [shapes, found]
    rw [clients]
    rcases laid.own _ conn.shape shape with empty | own
    · have noPull := congrArg Shape.pull empty
      have noPush := congrArg Shape.push empty
      simp only [ConnectionImpl.shape] at noPull noPush
      rw [noPull, noPush] at spawned
      exact absurd spawned (by decide)
    · exact own

/-- While the connection has no client, it has no pump. -/
theorem Within.complete {u : Server T} (within : Within s u) (laidBefore : s.LaidOut)
    (accepted : s.listener = .resumed false) (laid : u.LaidOut)
    {conn : ConnectionImpl TaggedByte}
    (found : u.connectionList[s.connectionList.length]? = some conn)
    (spawned : conn.pull.isSpawned = true ∨ conn.push.isSpawned = true) : s.Complete conn := by
  unfold Within at within
  split at within
  next pc =>
    have inside := (List.getElem?_eq_some_iff.mp found).1
    omega
  next i pc =>
    obtain ⟨-, rfl, -, -⟩ := within
    have fits := laid.fits
    rw [pc] at fits
    obtain ⟨-, before, last, length⟩ := fits
    have shape : u.shapes[s.connectionList.length]? = some conn.shape := by simp [shapes, found]
    rw [last, ← length, List.getElem?_concat_length, Option.some.injEq] at shape
    have noPull := congrArg Shape.pull shape
    have noPush := congrArg Shape.push shape
    simp only [ConnectionImpl.shape] at noPull noPush
    rw [← noPull, ← noPush] at spawned
    exact absurd spawned (by decide)
  next => exact complete_of_spawned laidBefore accepted laid within.2 found spawned

/-- **A set-up that does not fail publishes a whole connection.** -/
theorem Iteration.publishedWhole (iteration : Iteration mode clientState s actions t)
    (reached : (serverMachine T mode clientState).Reachable s)
    (succeeds : ¬ SetUpFails mode clientState s actions) :
    PublishedWhole mode clientState s actions t := by
  have laidBefore := Server.layout reached
  have listed := iteration.published
  have inTime : ∀ before after u conn, actions = before ++ after →
      (serverMachine T mode clientState).exec s before = some u →
        u.connectionList[s.connectionList.length]? = some conn →
          conn.pull.isSpawned = true ∨ conn.push.isSpawned = true → s.Complete conn := by
    intro before after u conn split toU found spawned
    have laid := Server.layout (reached.exec toU)
    by_cases rest : after = []
    · obtain rfl : t = u := by
        rw [split, rest, List.append_nil] at iteration
        exact Option.some.inj (iteration.run.symm.trans toU)
      exact complete_of_spawned laidBefore iteration.accepted laid listed found spawned
    · have within := iteration.all_within before after u split rest toU
      exact within.complete laidBefore iteration.accepted laid found spawned
  obtain ⟨before, action, u, split, toU, within, last⟩ := iteration.ends
  rcases last.how with ⟨i, c, drops⟩ | ⟨pc, shapes⟩
  · exact absurd ⟨before, [action], u, i, c, split, toU, drops⟩ succeeds
  have fits := (Server.layout (reached.exec toU)).fits
  rw [pc] at fits
  obtain ⟨-, others, shapesBefore, length⟩ := fits
  rw [shapesBefore, modify_concat _ _ _ length] at shapes
  obtain ⟨conn, found⟩ : ∃ conn, t.connectionList[s.connectionList.length]? = some conn := by
    refine ⟨_, List.getElem?_eq_getElem ?_⟩
    rw [listed.once]
    exact Nat.lt_succ_self _
  have shape : t.shapes[s.connectionList.length]? = some conn.shape := by
    simp [Server.shapes, found]
  rw [shapes, ← length, List.getElem?_concat_length, Option.some.injEq] at shape
  have pull : conn.pull.isSpawned = true := (congrArg Shape.pull shape).symm
  have push : conn.push.isSpawned = true := (congrArg Shape.push shape).symm
  have complete := inTime actions [] t conn (by simp) iteration.run found (.inl pull)
  exact ⟨listed.others, listed.once, ⟨conn, found, complete, pull, push⟩, inTime⟩

/-- **No iteration leaves the list as it was.** -/
theorem Iteration.not_asBefore (iteration : Iteration mode clientState s actions t) :
    ¬ AsBefore s t := by
  intro asBefore
  have gone := asBefore.gone
  rw [iteration.published.once] at gone
  exact absurd gone (Nat.succ_ne_self _)

/-! ## Two iterations -/

/-- It is enough to look at the positions of the accept loop. -/
theorem Iteration.of_positions (accepted : s.listener = .resumed false)
    (run : (serverMachine T mode clientState).exec s actions = some t)
    (ended : t.listener = .loopTop)
    (within : ∀ k < actions.length,
      ((serverMachine T mode clientState).exec s (actions.take k)).map (·.listener) ≠
        some .loopTop) :
    Iteration mode clientState s actions t := by
  refine ⟨accepted, run, ended, ?_⟩
  rintro before after u rfl rest toU there
  refine within before.length ?_ ?_
  · rw [List.length_append]
    exact Nat.lt_add_of_pos_right (List.length_pos_iff.mpr rest)
  · rw [List.take_left', toU, Option.map_some, there]
    rfl

/-- One thread accepts a client. -/
def acceptsClient : List (ServerAction 1) :=
  [.resume onlyThread .listener, .setupDone onlyThread (.bound true), .run onlyThread,
    .clientArrives, .acceptDone false, .resume onlyThread .listener]

/-- It sets the client up and spawns its pumps. -/
def setsUp : List (ServerAction 1) :=
  [.run onlyThread, .run onlyThread, .run onlyThread, .setupDone onlyThread (.socket .connected),
    .setupDone onlyThread (.session true), .setupDone onlyThread (.handshake 0),
    .setupDone onlyThread (.auth 0), .setupDone onlyThread (.channel true),
    .run onlyThread, .run onlyThread, .run onlyThread]

/-- The handshake fails. -/
def failsToSetUp : List (ServerAction 1) :=
  [.run onlyThread, .run onlyThread, .run onlyThread, .setupDone onlyThread (.socket .connected),
    .setupDone onlyThread (.session true), .setupDone onlyThread (.handshake (-1)),
    .setupDone onlyThread (.dropped {})]

theorem iteration_setsUp :
    ∃ s t, (serverMachine 1 .posted {}).Reachable s ∧ Iteration .posted {} s setsUp t := by
  refine ⟨_, _, ⟨acceptsClient, rfl⟩, .of_positions rfl rfl rfl ?_⟩
  decide

theorem iteration_failsToSetUp :
    ∃ s t, (serverMachine 1 .posted {}).Reachable s ∧ Iteration .posted {} s failsToSetUp t := by
  refine ⟨_, _, ⟨acceptsClient, rfl⟩, .of_positions rfl rfl rfl ?_⟩
  decide

/-! ## All or nothing -/

/-- **A set-up is all or nothing exactly when libssh2 does not refuse it.** No other
connection is touched either way. -/
theorem setUp_allOrNothing_iff (reached : (serverMachine T mode clientState).Reachable s)
    (iteration : Iteration mode clientState s actions t) :
    Untouched s.connectionList t.connectionList ∧
      (AllOrNothing mode clientState s actions t ↔ ∀ action ∈ actions, ¬ action.Refuses) := by
  refine ⟨iteration.published.others, ?_⟩
  have fails := iteration.setUpFails_iff reached
  constructor
  · intro atomic action inActions refused
    exact iteration.not_asBefore (atomic.failed (fails.mpr ⟨action, inActions, refused⟩))
  · intro accepts
    have succeeds : ¬ SetUpFails mode clientState s actions := fun failed =>
      let ⟨action, inActions, refused⟩ := fails.mp failed
      accepts action inActions refused
    exact ⟨fun failed => absurd failed succeeds,
      fun _ => iteration.publishedWhole reached succeeds⟩

theorem setUp_allOrNothing_setsUp :
    ∃ s t : Server 1, AllOrNothing .posted {} s setsUp t := by
  obtain ⟨s, t, reached, iteration⟩ := iteration_setsUp
  refine ⟨s, t, (setUp_allOrNothing_iff reached iteration).2.mpr ?_⟩
  simp [setsUp, ServerAction.Refuses, SetupAnswer.Refuses]

/-- **A failed handshake leaves its connection in the list.** -/
theorem not_setUp_allOrNothing :
    ¬ ∀ (s t : Server 1) (actions : List (ServerAction 1)),
      (serverMachine 1 .posted {}).Reachable s → Iteration .posted {} s actions t →
        AllOrNothing .posted {} s actions t := by
  intro always
  obtain ⟨s, t, reached, iteration⟩ := iteration_failsToSetUp
  have refused : ∃ action ∈ failsToSetUp, action.Refuses :=
    ⟨.setupDone onlyThread (.handshake (-1)), by simp [failsToSetUp], by
      simp [ServerAction.Refuses, SetupAnswer.Refuses]⟩
  have failed := (iteration.setUpFails_iff reached).mpr refused
  exact iteration.not_asBefore ((always s t failsToSetUp reached iteration).failed failed)

end Server

end BookFilerSsh
