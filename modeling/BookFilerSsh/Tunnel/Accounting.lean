import BookFilerSsh.Tunnel.Publication
import BookFilerSsh.Tunnel.Wiring
import Mathlib.Algebra.Group.Nat.Defs

/-!
# Every client of the tunnel server is accepted once

A client that reaches the acceptor waits in its backlog until `async_accept` hands its
socket to the accept loop, which publishes one connection for it, whatever becomes of the
set-up of the SSH client behind it. So in every run the clients that arrived are those in
the backlog, the one that is accepted and not published, and the connections in the list:
none is lost and none is published twice.

The connections are numbered in the order of the list by a counter of 32 bits, so two of
them have one id exactly when their positions are a multiple of `2 ^ 32` apart
(`clients_accounted`).
-/

set_option autoImplicit false

namespace BookFilerSsh

open Lib Lib.Tables

variable {T : ℕ}

/-- A client reaches the acceptor. -/
def ServerAction.isArrival : ServerAction T → Bool
  | .clientArrives => true
  | _ => false

/-- The client that is accepted and has no connection yet. -/
def ListenerPc.taken : ListenerPc → ℕ
  | .accepted false | .resumed false => 1
  | _ => 0

theorem ListenerPc.taken_of_inSetUp {pc : ListenerPc} {i c : ℕ}
    (here : pc.inSetUp = some (i, c)) : pc.taken = 0 := by
  cases pc with
  | accepted ec | resumed ec => cases here
  | _ => rfl

namespace Server

/-- The clients that arrived are all somewhere, and the connections are numbered. -/
structure Accounts (s : Server T) (arrived : ℕ) : Prop where
  clients : arrived = s.backlog + s.listener.taken + s.connIds.length
  counted : s.connectionIdIncrement = UInt32.ofNat s.connIds.length
  numbered : ∀ i id, s.connIds[i]? = some id →
    id = some (UInt32.ofNat (i + 1)) ∨ id = none ∧ s.listener = .published i

variable {s s' : Server T} {arrived : ℕ}

/-- A step that leaves the ids alone, and after which a connection without an id is still
about to get it. -/
theorem Accounts.congr (accounts : s.Accounts arrived) (ids : s'.connIds = s.connIds)
    (counter : s'.connectionIdIncrement = s.connectionIdIncrement)
    (clients : s'.backlog + s'.listener.taken = s.backlog + s.listener.taken)
    (named : s'.listener = s.listener ∨ ∀ i, s.listener ≠ .published i) :
    s'.Accounts arrived := by
  refine ⟨?_, ?_, ?_⟩
  · rw [ids, clients]
    exact accounts.clients
  · rw [counter, ids]
    exact accounts.counted
  · intro i id found
    rw [ids] at found
    rcases accounts.numbered i id found with has | ⟨hasNot, here⟩
    · exact .inl has
    · rcases named with same | never
      · exact .inr ⟨hasNot, same.trans here⟩
      · exact absurd here (never i)

/-- The socket of an accepted client is moved into a connection. -/
theorem Accounts.publish (accounts : s.Accounts arrived) (pc : s.listener = .resumed false) :
    ((s.onState .publish).setListener (.published s.connectionList.length)).Accounts arrived := by
  have size : s.connIds.length = s.connectionList.length := List.length_map _
  have ids : ((s.onState .publish).setListener
      (.published s.connectionList.length)).connIds = s.connIds ++ [none] := by
    simp [connIds, onState, setListener, ListenerState.publish]
  have clients := accounts.clients
  simp only [pc, ListenerPc.taken] at clients
  refine ⟨?_, ?_, ?_⟩
  · rw [ids, List.length_append, List.length_singleton, clients]
    show _ = s.backlog + 0 + (s.connIds.length + 1)
    omega
  · rw [ids, List.length_append, List.length_singleton]
    show s.connectionIdIncrement + 1 = _
    rw [accounts.counted]
    exact (UInt32.ofNat_add _ _).symm
  · rw [ids]
    refine forall_concat (fun i id found => ?_) (.inr ⟨rfl, by rw [size]; rfl⟩)
    rcases accounts.numbered i id found with has | ⟨-, here⟩
    · exact .inl has
    · rw [pc] at here
      cases here

/-- The connection gets the number of its place. -/
theorem Accounts.setId (accounts : s.Accounts arrived) (laid : s.LaidOut) {j : ℕ}
    (pc : s.listener = .published j) :
    ((s.onState (.setId · j)).setListener (.identified j)).Accounts arrived := by
  have fits := laid.fits
  rw [pc] at fits
  obtain ⟨-, before, shapes, last⟩ := fits
  have size : s.connIds.length = j + 1 := by
    have length := congrArg List.length shapes
    simpa [Server.shapes, connIds, last] using length
  have ids : ((s.onState (.setId · j)).setListener (.identified j)).connIds =
      s.connIds.modify j fun _ => some s.connectionIdIncrement :=
    map_modify_of (g := ConnectionImpl.connId) (h := fun _ => some s.connectionIdIncrement)
      (f := fun conn => { conn with connId := some s.connectionIdIncrement }) (fun _ => rfl) _ _
  have clients := accounts.clients
  simp only [pc, ListenerPc.taken] at clients
  refine ⟨?_, ?_, ?_⟩
  · rw [ids, List.length_modify]
    exact clients
  · rw [ids, List.length_modify]
    exact accounts.counted
  · intro i id found
    rw [ids, List.getElem?_modify, Option.map_eq_map, Option.map_eq_some_iff] at found
    obtain ⟨old, foundOld, rfl⟩ := found
    refine .inl ?_
    split
    next same =>
      subst same
      rw [accounts.counted, size]
    next other =>
      rcases accounts.numbered i old foundOld with has | ⟨-, here⟩
      · exact has
      · rw [pc] at here
        cases here
        exact absurd rfl other

/-- A statement of the accept loop. -/
theorem Accounts.listenerStep {mode : SpawnMode} {next : Server T} {effect : Effect}
    (accounts : s.Accounts arrived) (laid : s.LaidOut)
    (stepped : s.listenerStep mode = some (next, effect)) : next.Accounts arrived := by
  have assigned : ∀ (j : ℕ) (f : ConnectionImpl TaggedByte → ConnectionImpl TaggedByte) pc,
      (∀ conn, (f conn).connId = conn.connId) → (∀ i, s.listener ≠ .published i) →
        s.listener.taken = 0 → pc.taken = 0 →
          ((s.onState (.setConn · j f)).setListener pc).Accounts arrived := by
    intro j f pc keeps never noneBefore noneAfter
    have ids : ((s.onState (.setConn · j f)).setListener pc).connIds = s.connIds :=
      map_modify_of_eq keeps _ _
    refine accounts.congr ids rfl ?_ (.inr never)
    show s.backlog + pc.taken = _
    rw [noneBefore, noneAfter]
  cases listenerStep_moves stepped with
  | publishes here => exact accounts.publish here
  | numbers here => exact accounts.setId laid here
  | hands here | spawnsPull here | spawnsPush here =>
      exact assigned _ _ _ (fun _ => rfl) (by simp [here]) (by rw [here]; rfl) rfl
  | returns here | accepts here | retries here | creates here =>
      exact accounts.congr rfl rfl (by rw [here]; rfl) (.inr (by simp [here]))

/-- A call of the set-up. -/
theorem Accounts.setUp (accounts : s.Accounts arrived) (moved : SetUpMoves s s') :
    s'.Accounts arrived := by
  have busy : ∀ {i c : ℕ}, s.listener.inSetUp = some (i, c) →
      s.listener.taken = 0 ∧ ∀ j, s.listener ≠ .published j := by
    intro i c here
    refine ⟨ListenerPc.taken_of_inSetUp here, ?_⟩
    intro j published
    rw [published] at here
    cases here
  cases moved with
  | binds here goes =>
      refine accounts.congr rfl rfl ?_ (.inr (by simp [here]))
      rcases goes with rfl | rfl <;> rw [here] <;> rfl
  | faults here found quiet => exact accounts.congr rfl rfl rfl (.inl rfl)
  | goesOn here there found quiet =>
      refine accounts.congr rfl rfl ?_ (.inr (busy here).2)
      rw [(busy here).1, setListener_listener, ListenerPc.taken_of_inSetUp there]
      rfl
  | opens here found session =>
      exact accounts.congr rfl rfl (by rw [here]; rfl) (.inr (by simp [here]))
  | drops here found quiet =>
      exact accounts.congr rfl rfl (by rw [here]; rfl) (.inr (by simp [here]))

/-- **Every step accounts for the clients**: an arrival adds one. -/
theorem Accounts.step {mode : SpawnMode} {action : ServerAction T}
    (accounts : s.Accounts arrived) (laid : s.LaidOut) (moved : Moves mode s action s') :
    s'.Accounts (arrived + if action.isArrival = true then 1 else 0) := by
  have pump : ∀ {i : ℕ} {link next : Link TaggedByte} {action : LinkAction TaggedByte}
      (_ : s.link i = some link) (_ : link.act action = some next),
      (s.setLink i next).connIds = s.connIds := fun linked acted =>
    map_set_of_eq (link_eq_some linked).1 (Link.connId_act acted)
  cases moved with
  | @listenerRuns t next effect top stepped =>
      obtain ⟨threads, same⟩ := next.applyEffect_eq mode t effect
      rw [same]
      exact (accounts.listenerStep laid stepped).congr rfl rfl rfl (.inl rfl)
  | @pullRuns t i link next effect top linked stepped =>
      have acted : link.act .pullStep = some next := by rw [Link.act, stepped]; rfl
      obtain ⟨threads, same⟩ := (s.setLink i next).applyEffect_eq mode t effect
      rw [same]
      exact accounts.congr (pump linked acted) rfl rfl (.inl rfl)
  | @pushRuns t i link next effect top linked stepped =>
      have acted : link.act .pushStep = some next := by rw [Link.act, stepped]; rfl
      obtain ⟨threads, same⟩ := (s.setLink i next).applyEffect_eq mode t effect
      rw [same]
      exact accounts.congr (pump linked acted) rfl rfl (.inl rfl)
  | @pullResumes t i link next idle linked resumed =>
      have acted : link.act .pullResume = some next := resumed
      exact accounts.congr (pump linked acted) rfl rfl (.inl rfl)
  | @pushResumes t i link next idle linked resumed =>
      have acted : link.act .pushResume = some next := resumed
      exact accounts.congr (pump linked acted) rfl rfl (.inl rfl)
  | @readReturns t i link next channel result top linked named ended =>
      have acted : link.act (.pullReturn _) = some next := ended
      exact accounts.congr (pump linked acted) rfl rfl (.inl rfl)
  | @writeReturns t i link next result top linked ended =>
      have acted : link.act (.pushReturn result) = some next := ended
      exact accounts.congr (pump linked acted) rfl rfl (.inl rfl)
  | @readsLocal i link next completion linked woken =>
      have acted : link.act (.pushWake _) = some next := woken
      exact accounts.congr (pump linked acted) rfl rfl (.inl rfl)
  | @writesLocal i link next ec linked woken =>
      have acted : link.act (.pullWake ec) = some next := woken
      exact accounts.congr (pump linked acted) rfl rfl (.inl rfl)
  | setUpReturns top ended => exact accounts.setUp (listenerReturn_moves ended)
  | clientArrives =>
      refine ⟨?_, accounts.counted, accounts.numbered⟩
      show arrived + 1 = s.backlog + 1 + s.listener.taken + s.connIds.length
      rw [accounts.clients]
      omega
  | listenerStarts idle pc =>
      exact accounts.congr rfl rfl (by rw [pc]; rfl) (.inr (by simp [pc]))
  | @listenerResumes t ec idle pc =>
      refine accounts.congr rfl rfl ?_ (.inr (by simp [pc]))
      cases ec <;> rw [pc] <;> rfl
  | acceptFails pc =>
      exact accounts.congr rfl rfl (by rw [pc]; rfl) (.inr (by simp [pc]))
  | accepts pc waiting =>
      refine accounts.congr rfl rfl ?_ (.inr (by simp [pc]))
      show s.backlog - 1 + 1 = s.backlog + s.listener.taken
      rw [pc]
      show s.backlog - 1 + 1 = s.backlog
      omega

theorem accounts_exec {mode : SpawnMode} {clientState : ClientState}
    {actions : List (ServerAction T)}
    (run : (serverMachine T mode clientState).exec (serverMachine T mode clientState).init actions =
      some s) : s.Accounts (actions.countP ServerAction.isArrival) := by
  induction actions using List.reverseRecOn generalizing s with
  | nil =>
      rw [Machine.exec_nil, Option.some.injEq] at run
      subst run
      exact ⟨rfl, rfl, fun i id found => by cases found⟩
  | append_singleton before action ih =>
      obtain ⟨middle, toMiddle, stepped⟩ := (Machine.exec_concat_eq_some _).mp run
      rw [List.countP_append, List.countP_singleton]
      exact (ih toMiddle).step (layout ⟨before, toMiddle⟩) (step_moves stepped).2

/-- The clients of the server, after so many have arrived. -/
structure ServedOnce (s : Server T) (arrived : ℕ) : Prop where
  clients : arrived = s.backlog + s.listener.taken + s.connectionList.length
  ids : ∀ (i : ℕ) conn, s.connectionList[i]? = some conn →
    conn.connId = some (UInt32.ofNat (i + 1)) ∨ conn.connId = none ∧ s.listener = .published i
  sameId : ∀ (i j : ℕ) first second id, s.connectionList[i]? = some first →
    s.connectionList[j]? = some second → first.connId = some id →
      (second.connId = some id ↔ second.connId ≠ none ∧ i % 2 ^ 32 = j % 2 ^ 32)

end Server

/-- **No client is lost or published twice**, in any run of the server, and two connections
have one id exactly when the counter of ids has wrapped between them. -/
theorem clients_accounted (mode : SpawnMode) (clientState : ClientState)
    (actions : List (ServerAction T)) (s : Server T)
    (run : (serverMachine T mode clientState).exec (serverMachine T mode clientState).init actions =
      some s) : s.ServedOnce (actions.countP ServerAction.isArrival) := by
  have accounts := Server.accounts_exec run
  have size : s.connIds.length = s.connectionList.length := List.length_map _
  have ids : ∀ (i : ℕ) conn, s.connectionList[i]? = some conn →
      conn.connId = some (UInt32.ofNat (i + 1)) ∨
        conn.connId = none ∧ s.listener = .published i := by
    intro i conn found
    apply accounts.numbered
    rw [Server.connIds, List.getElem?_map, found]
    rfl
  have numbered : ∀ (i : ℕ) conn id, s.connectionList[i]? = some conn → conn.connId = some id →
      id = UInt32.ofNat (i + 1) := by
    intro i conn id found has
    rcases ids i conn found with number | ⟨hasNot, -⟩
    · exact Option.some.inj (has.symm.trans number)
    · cases has.symm.trans hasNot
  have wraps : ∀ i j : ℕ, UInt32.ofNat (i + 1) = UInt32.ofNat (j + 1) ↔
      i % 2 ^ 32 = j % 2 ^ 32 := by
    intro i j
    rw [← UInt32.toNat_inj, UInt32.toNat_ofNat', UInt32.toNat_ofNat']
    omega
  refine ⟨by rw [← size]; exact accounts.clients, ids, ?_⟩
  intro i j first second id foundFirst foundSecond has
  obtain rfl := numbered i first id foundFirst has
  constructor
  · intro same
    have number := numbered j second _ foundSecond same
    exact ⟨by rw [same]; exact Option.some_ne_none _, (wraps i j).mp number⟩
  · rintro ⟨some, congruent⟩
    obtain ⟨other, has⟩ := Option.ne_none_iff_exists'.mp some
    rw [has, numbered j second other foundSecond has, (wraps i j).mpr congruent]

theorem clients_accounted_pullThrough :
    ∃ s, (serverMachine 1 .posted {}).exec (serverMachine 1 .posted {}).init pullThrough = some s ∧
      pullThrough.countP ServerAction.isArrival = 1 ∧ s.ServedOnce 1 :=
  ⟨_, rfl, rfl, clients_accounted .posted {} pullThrough _ rfl⟩

end BookFilerSsh
