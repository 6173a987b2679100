import BookFilerSsh.Lib.Tables
import BookFilerSsh.Port.Server
import Mathlib.Algebra.Group.Nat.Defs

/-!
# Which sockets a forwarded connection gets

In one iteration the accept loop connects a destination and accepts a client, and either
may fail, so the numbers of destinations connected, of clients accepted and of connections
drift apart. Each descriptor is recorded with the iteration that obtained it.

Whatever fails and in whatever order, the `k`-th connection owns the `k`-th client and the
destination connected in the iteration that accepted it, and the destination of a failed
iteration is owned by none (`sockets_paired`). The invariant says for each position of the
loop what it holds for the connection of its iteration (`Server.Stage`). The pumps keep
the sockets and the id of their connection (`ConnectionImpl.identity_act`), so their steps
do not show.
-/

set_option autoImplicit false

namespace BookFilerSsh.Port

open Lib

variable {β : Type} {zero : β}

/-! ## Increasing records -/

theorem increasing_concat {records : List ℕ} {n : ℕ} (increasing : records.Pairwise (· < ·))
    (below : ∀ m ∈ records, m < n) : (records ++ [n]).Pairwise (· < ·) := by
  refine List.pairwise_append.mpr ⟨increasing, List.pairwise_singleton _ _, ?_⟩
  intro m member _ last
  rw [List.mem_singleton.mp last]
  exact below m member

/-- In an increasing record an iteration has one position. -/
theorem position_unique {records : List ℕ} (increasing : records.Pairwise (· < ·)) {i j n : ℕ}
    (first : records[i]? = some n) (second : records[j]? = some n) : i = j := by
  obtain ⟨insideI, atI⟩ := List.getElem?_eq_some_iff.mp first
  obtain ⟨insideJ, atJ⟩ := List.getElem?_eq_some_iff.mp second
  have ordered := List.pairwise_iff_getElem.mp increasing
  rcases Nat.lt_trichotomy i j with before | same | after
  · have less := ordered i j insideI insideJ before
    omega
  · exact same
  · have less := ordered j i insideJ insideI after
    omega

/-! ## What identifies a connection -/

/-- The descriptors of the sockets of a connection, and its id. -/
structure Identity where
  src : ℕ
  dest : ℕ
  connId : Option UInt32

def ConnectionImpl.identity (conn : ConnectionImpl β) : Identity where
  src := (conn.socket .src).descriptor
  dest := (conn.socket .dest).descriptor
  connId := conn.connId

namespace ConnectionImpl

theorem descriptor_arrive (conn : ConnectionImpl β) (socket side : Side) (bytes : List β) :
    ((conn.arrive socket bytes).socket side).descriptor = (conn.socket side).descriptor := by
  by_cases here : side = socket
  · subst here
    simp [arrive, setSocket]
  · simp [arrive, setSocket, here]

theorem descriptor_fill (conn : ConnectionImpl β) (socket side : Side) (bytes : List β) :
    ((conn.fill socket bytes).socket side).descriptor = (conn.socket side).descriptor := by
  by_cases here : side = socket
  · subst here
    simp [fill, setSocket]
  · simp [fill, setSocket, here]

theorem connId_writeHandler (conn : ConnectionImpl β) (side : Side) (ec : Bool) :
    (conn.writeHandler side ec).connId = conn.connId := by
  unfold writeHandler
  cases conn.writeQueue side <;> cases ec <;> rfl

/-- **The pumps keep the sockets and the id of their connection.** -/
theorem identity_act {conn next : ConnectionImpl β} {action : PumpAction β}
    (acted : conn.act zero action = some next) : next.identity = conn.identity := by
  have kept : (∀ side, (next.socket side).descriptor = (conn.socket side).descriptor) ∧
      next.connId = conn.connId := by
    cases act_moves acted with
    | handles pc => exact ⟨fun side => by simp [setPump], connId_writeHandler conn _ _⟩
    | reads pc => exact ⟨fun another => descriptor_fill conn _ another _, rfl⟩
    | greets pc progress | writes pc progress =>
        exact ⟨fun another => descriptor_arrive conn _ another _, rfl⟩
    | _ => exact ⟨fun _ => rfl, rfl⟩
  simp only [identity, kept.1, kept.2]

end ConnectionImpl

namespace Server

/-- The identities of the connections, in the order of `connectionList`. -/
def identities (s : Server β) : List Identity := s.connectionList.map ConnectionImpl.identity

/-! ## The invariant of the accept loop -/

/-- Ids are handed out in the order of the list. -/
def Numbered (identities : List Identity) : Prop :=
  ∀ k (one : Identity), identities[k]? = some one → one.connId = some (UInt32.ofNat (k + 1))

/-- Every connection owns the client of its position, and the destination connected in
the iteration that accepted this client. -/
def Owned (srcSockets destSockets : List ℕ) (identities : List Identity) : Prop :=
  ∀ k (one : Identity), identities[k]? = some one → one.src = k ∧
    ∃ iteration, srcSockets[k]? = some iteration ∧ destSockets[one.dest]? = some iteration

/-- What the accept loop holds for the connection of its iteration. -/
def Stage (s : Server β) : Prop :=
  match s.listener with
  | .connected (some dest) | .accepting dest | .accepted dest none =>
      s.destSockets[dest]? = some s.iteration ∧ (∀ n ∈ s.srcSockets, n < s.iteration) ∧
        s.identities.length = s.srcSockets.length ∧ Numbered s.identities
  | .accepted dest (some src) =>
      s.destSockets[dest]? = some s.iteration ∧ s.srcSockets[src]? = some s.iteration ∧
        src = s.identities.length ∧ s.srcSockets.length = s.identities.length + 1 ∧
          Numbered s.identities
  | .published i =>
      s.identities.length = i + 1 ∧ s.srcSockets.length = i + 1 ∧ Numbered (s.identities.take i)
  | .identified _ | .runSpawned _ =>
      s.identities.length = s.srcSockets.length ∧ Numbered s.identities
  | _ =>
      (∀ n ∈ s.destSockets, n < s.iteration) ∧ (∀ n ∈ s.srcSockets, n < s.iteration) ∧
        s.identities.length = s.srcSockets.length ∧ Numbered s.identities

/-- The invariant of the accept loop. -/
structure Pairs (s : Server β) : Prop where
  dests : s.destSockets.Pairwise (· < ·)
  srcs : s.srcSockets.Pairwise (· < ·)
  destsSoFar : ∀ n ∈ s.destSockets, n ≤ s.iteration
  srcsSoFar : ∀ n ∈ s.srcSockets, n ≤ s.iteration
  counted : s.connectionIdIncrement = UInt32.ofNat s.identities.length
  owned : Owned s.srcSockets s.destSockets s.identities
  stage : s.Stage

/-! ## The statements of the accept loop -/

theorem identities_publish (s : Server β) (src dest : ℕ) :
    (s.publish src dest).identities = s.identities ++ [⟨src, dest, none⟩] := by
  simp only [identities, publish, List.map_append]
  rfl

theorem identities_setId (s : Server β) (i : ℕ) :
    (s.setId i).identities =
      s.identities.modify i fun one => { one with connId := some s.connectionIdIncrement } :=
  Tables.map_modify_of (g := ConnectionImpl.identity)
    (f := fun conn => { conn with connId := some s.connectionIdIncrement })
    (h := fun one => { one with connId := some s.connectionIdIncrement }) (fun _ => rfl) _ _

theorem identities_spawnPump (s : Server β) (i : ℕ) (side : Side) :
    (s.spawnPump i side).identities = s.identities :=
  Tables.map_modify_of_eq (g := ConnectionImpl.identity)
    (f := fun conn => conn.setPump side .spawned) (fun _ => rfl) _ _

variable {s next : Server β}

theorem Owned.concat {srcSockets destSockets : List ℕ} {identities : List Identity} {one : Identity}
    {iteration : ℕ} (owned : Owned srcSockets destSockets identities)
    (src : one.src = identities.length) (client : srcSockets[one.src]? = some iteration)
    (dest : destSockets[one.dest]? = some iteration) :
    Owned srcSockets destSockets (identities ++ [one]) :=
  Tables.forall_concat owned ⟨src, iteration, src ▸ client, dest⟩

/-- New records leave the earlier ones where they are. -/
theorem Owned.records {srcSockets destSockets : List ℕ} {identities : List Identity}
    (owned : Owned srcSockets destSockets identities) (moreSrc moreDest : List ℕ) :
    Owned (srcSockets ++ moreSrc) (destSockets ++ moreDest) identities := by
  intro k one found
  obtain ⟨src, iteration, client, dest⟩ := owned k one found
  refine ⟨src, iteration, ?_, ?_⟩
  · rw [List.getElem?_append_left (List.getElem?_eq_some_iff.mp client).1]
    exact client
  · rw [List.getElem?_append_left (List.getElem?_eq_some_iff.mp dest).1]
    exact dest

theorem Owned.named {srcSockets destSockets : List ℕ} {identities : List Identity}
    (owned : Owned srcSockets destSockets identities) (i : ℕ) (connId : Option UInt32) :
    Owned srcSockets destSockets
      (identities.modify i fun one => { one with connId := connId }) :=
  Tables.forall_modify owned fun one found => owned i one found

/-- The last connection gets the next id. -/
theorem Numbered.named {identities : List Identity} {i : ℕ} {connId : UInt32}
    (numbered : Numbered (identities.take i)) (length : identities.length = i + 1)
    (next : connId = UInt32.ofNat (i + 1)) :
    Numbered (identities.modify i fun one => { one with connId := some connId }) := by
  intro k one found
  rw [List.getElem?_modify, Option.map_eq_map, Option.map_eq_some_iff] at found
  obtain ⟨before, foundBefore, rfl⟩ := found
  by_cases last : i = k
  · subst last
    simp [next]
  · have inside : k < identities.length := (List.getElem?_eq_some_iff.mp foundBefore).1
    have earlier : (identities.take i)[k]? = some before := by
      rw [List.getElem?_take_of_lt (by omega)]
      exact foundBefore
    simpa [last] using numbered k before earlier

/-- A step that obtains no socket and leaves the identities. -/
theorem Pairs.of_same (pairs : s.Pairs) (dests : next.destSockets = s.destSockets)
    (srcs : next.srcSockets = s.srcSockets) (identities : next.identities = s.identities)
    (counter : next.connectionIdIncrement = s.connectionIdIncrement)
    (iteration : s.iteration ≤ next.iteration) (stage : next.Stage) : next.Pairs := by
  refine ⟨?_, ?_, ?_, ?_, ?_, ?_, stage⟩
  · rw [dests]
    exact pairs.dests
  · rw [srcs]
    exact pairs.srcs
  · rw [dests]
    exact fun n member => Nat.le_trans (pairs.destsSoFar n member) iteration
  · rw [srcs]
    exact fun n member => Nat.le_trans (pairs.srcsSoFar n member) iteration
  · rw [counter, identities]
    exact pairs.counted
  · rw [srcs, dests, identities]
    exact pairs.owned

/-- The next iteration begins, with a connection for each client. -/
theorem Pairs.restarts (pairs : s.Pairs) (even : s.identities.length = s.srcSockets.length)
    (numbered : Numbered s.identities) (dests : next.destSockets = s.destSockets)
    (srcs : next.srcSockets = s.srcSockets) (identities : next.identities = s.identities)
    (counter : next.connectionIdIncrement = s.connectionIdIncrement)
    (iteration : next.iteration = s.iteration + 1) (top : next.listener = .loopTop) :
    next.Pairs := by
  refine pairs.of_same dests srcs identities counter (by rw [iteration]; exact Nat.le_succ _) ?_
  unfold Stage
  rw [top, dests, srcs, identities, iteration]
  exact ⟨fun n member => Nat.lt_succ_of_le (pairs.destsSoFar n member),
    fun n member => Nat.lt_succ_of_le (pairs.srcsSoFar n member), even, numbered⟩

/-- The connection of the iteration is published, with the sockets obtained in it. -/
theorem Pairs.publish (pairs : s.Pairs) {dest src : ℕ}
    (pc : s.listener = .accepted dest (some src)) :
    ((s.publish src dest).setListener (.published s.connectionList.length)).Pairs := by
  obtain ⟨dests, srcs, destsSoFar, srcsSoFar, counted, owned, stage⟩ := pairs
  simp only [Stage, pc] at stage
  obtain ⟨destHeld, client, position, length, numbered⟩ := stage
  have published := identities_publish s src dest
  refine ⟨dests, srcs, destsSoFar, srcsSoFar, ?_, ?_, ?_⟩
  · show s.connectionIdIncrement + 1 = UInt32.ofNat (s.publish src dest).identities.length
    rw [published, counted, List.length_append]
    exact (UInt32.ofNat_add _ _).symm
  · show Owned s.srcSockets s.destSockets (s.publish src dest).identities
    rw [published]
    exact owned.concat position client destHeld
  · show (s.publish src dest).identities.length = s.connectionList.length + 1 ∧
      s.srcSockets.length = s.connectionList.length + 1 ∧
        Numbered ((s.publish src dest).identities.take s.connectionList.length)
    have size : s.identities.length = s.connectionList.length := List.length_map _
    rw [published, ← size]
    refine ⟨by simp, length, ?_⟩
    rw [List.take_left']
    · exact numbered
    · rfl

/-- It gets the next id. -/
theorem Pairs.setId (pairs : s.Pairs) {i : ℕ} (pc : s.listener = .published i) :
    ((s.setId i).setListener (.identified i)).Pairs := by
  obtain ⟨dests, srcs, destsSoFar, srcsSoFar, counted, owned, stage⟩ := pairs
  simp only [Stage, pc] at stage
  obtain ⟨length, clients, numbered⟩ := stage
  have identified := identities_setId s i
  refine ⟨dests, srcs, destsSoFar, srcsSoFar, ?_, ?_, ?_⟩
  · show s.connectionIdIncrement = UInt32.ofNat (s.setId i).identities.length
    rw [identified, List.length_modify]
    exact counted
  · show Owned s.srcSockets s.destSockets (s.setId i).identities
    rw [identified]
    exact owned.named i _
  · show (s.setId i).identities.length = s.srcSockets.length ∧ Numbered (s.setId i).identities
    rw [identified, List.length_modify]
    refine ⟨length.trans clients.symm, numbered.named length ?_⟩
    rw [counted, length]

/-- **Every statement of the accept loop keeps the pairing.** -/
theorem Pairs.listenerStep (pairs : s.Pairs) (stepped : s.listenerStep = some next) :
    next.Pairs := by
  have stage := pairs.stage
  cases pc : s.listener with
  | spawned | unbound | loopTop =>
      simp only [Server.listenerStep, pc, Option.some.injEq] at stepped
      simp only [Stage, pc] at stage
      subst stepped
      exact pairs.of_same rfl rfl rfl rfl (Nat.le_refl _) stage
  | connected dest =>
      cases dest with
      | none =>
          simp only [Server.listenerStep, pc, Option.some.injEq] at stepped
          simp only [Stage, pc] at stage
          subst stepped
          exact pairs.restarts stage.2.2.1 stage.2.2.2 rfl rfl rfl rfl rfl rfl
      | some dest =>
          simp only [Server.listenerStep, pc, Option.some.injEq] at stepped
          simp only [Stage, pc] at stage
          subst stepped
          exact pairs.of_same rfl rfl rfl rfl (Nat.le_refl _) stage
  | accepted dest src =>
      cases src with
      | none =>
          simp only [Server.listenerStep, pc, Option.some.injEq] at stepped
          simp only [Stage, pc] at stage
          subst stepped
          exact pairs.restarts stage.2.2.1 stage.2.2.2 rfl rfl rfl rfl rfl rfl
      | some src =>
          simp only [Server.listenerStep, pc, Option.some.injEq] at stepped
          subst stepped
          exact pairs.publish pc
  | published i =>
      simp only [Server.listenerStep, pc, Option.some.injEq] at stepped
      subst stepped
      exact pairs.setId pc
  | identified i =>
      simp only [Server.listenerStep, pc, Option.some.injEq] at stepped
      simp only [Stage, pc] at stage
      subst stepped
      have same := identities_spawnPump s i .src
      refine pairs.of_same rfl rfl same rfl (Nat.le_refl _) ?_
      show (s.spawnPump i .src).identities.length = s.srcSockets.length ∧
        Numbered (s.spawnPump i .src).identities
      rw [same]
      exact stage
  | runSpawned i =>
      simp only [Server.listenerStep, pc, Option.some.injEq] at stepped
      simp only [Stage, pc] at stage
      subst stepped
      have same := identities_spawnPump s i .dest
      exact pairs.restarts stage.1 stage.2 rfl rfl same rfl rfl rfl
  | _ => simp [Server.listenerStep, pc] at stepped

/-- A destination is connected in the iteration, or not. -/
theorem Pairs.connectDone {ec : Bool} (pairs : s.Pairs) (done : s.connectDone ec = some next) :
    next.Pairs := by
  obtain ⟨dests, srcs, destsSoFar, srcsSoFar, counted, owned, stage⟩ := pairs
  cases pc : s.listener with
  | connecting =>
      simp only [Stage, pc] at stage
      obtain ⟨destsBefore, srcsBefore, length, numbered⟩ := stage
      cases ec with
      | true =>
          simp only [Server.connectDone, pc, if_true, Option.some.injEq] at done
          subst done
          exact ⟨dests, srcs, destsSoFar, srcsSoFar, counted, owned, destsBefore, srcsBefore,
            length, numbered⟩
      | false =>
          simp only [Server.connectDone, pc, Bool.false_eq_true, if_false,
            Option.some.injEq] at done
          subst done
          refine ⟨increasing_concat dests destsBefore, srcs, ?_, srcsSoFar, counted, ?_, ?_⟩
          · exact List.forall_mem_append.mpr ⟨destsSoFar, by simp [setListener]⟩
          · have records := owned.records [] [s.iteration]
            rw [List.append_nil] at records
            exact records
          · exact ⟨List.getElem?_concat_length .., srcsBefore, length, numbered⟩
  | _ => simp [Server.connectDone, pc] at done

/-- A client is accepted in the iteration, or not. -/
theorem Pairs.acceptDone {ec : Bool} (pairs : s.Pairs) (done : s.acceptDone ec = some next) :
    next.Pairs := by
  obtain ⟨dests, srcs, destsSoFar, srcsSoFar, counted, owned, stage⟩ := pairs
  cases pc : s.listener with
  | accepting dest =>
      simp only [Stage, pc] at stage
      obtain ⟨destHeld, srcsBefore, length, numbered⟩ := stage
      cases ec with
      | true =>
          simp only [Server.acceptDone, pc, if_true, Option.some.injEq] at done
          subst done
          exact ⟨dests, srcs, destsSoFar, srcsSoFar, counted, owned, destHeld, srcsBefore,
            length, numbered⟩
      | false =>
          simp only [Server.acceptDone, pc, Bool.false_eq_true, if_false,
            Option.some.injEq] at done
          subst done
          refine ⟨dests, increasing_concat srcs srcsBefore, destsSoFar, ?_, counted, ?_, ?_⟩
          · exact List.forall_mem_append.mpr ⟨srcsSoFar, by simp [setListener]⟩
          · have records := owned.records [s.iteration] []
            rw [List.append_nil] at records
            exact records
          · refine ⟨destHeld, List.getElem?_concat_length .., length.symm, ?_, numbered⟩
            show (s.srcSockets ++ [s.iteration]).length = s.identities.length + 1
            rw [List.length_append, length]
            rfl
  | _ => simp [Server.acceptDone, pc] at done

/-- **Every step keeps the pairing.** -/
theorem Pairs.step {action : ServerAction β} (pairs : s.Pairs)
    (stepped : s.step zero action = some next) : next.Pairs := by
  cases action with
  | run => exact pairs.listenerStep stepped
  | connectDone ec => exact pairs.connectDone stepped
  | acceptDone ec => exact pairs.acceptDone stepped
  | bound ok =>
      have stage := pairs.stage
      cases pc : s.listener with
      | binding =>
          simp only [Server.step, pc, Option.some.injEq] at stepped
          simp only [Stage, pc] at stage
          subst stepped
          cases ok <;> exact pairs.of_same rfl rfl rfl rfl (Nat.le_refl _) stage
      | _ => simp [Server.step, pc] at stepped
  | pump i action =>
      obtain ⟨conn, found, rest⟩ := Option.bind_eq_some_iff.mp stepped
      obtain ⟨after, acted, moved⟩ := Option.bind_eq_some_iff.mp rest
      cases moved
      have same : ({ s with connectionList := s.connectionList.set i after } :
          Server β).identities = s.identities :=
        Tables.map_set_of_eq found (ConnectionImpl.identity_act acted)
      refine pairs.of_same rfl rfl same rfl (Nat.le_refl _) ?_
      rw [Stage, same]
      exact pairs.stage

end Server

/-! ## One destination for each client -/

/-- The sockets are paired one to one. -/
structure PairedUp (s : Server β) : Prop where
  /-- there is one connection for each client -/
  clients : s.connectionList.length = s.srcSockets.length
  /-- the `k`-th connection owns the `k`-th client, and the destination that was
  connected in the iteration that accepted it -/
  sameIteration : ∀ (k : ℕ) conn, s.connectionList[k]? = some conn →
    (conn.socket .src).descriptor = k ∧
      ∃ iteration, s.srcSockets[k]? = some iteration ∧
        s.destSockets[(conn.socket .dest).descriptor]? = some iteration
  oneOwner : ∀ (j k : ℕ) first second, s.connectionList[j]? = some first →
    s.connectionList[k]? = some second →
      (first.socket .dest).descriptor = (second.socket .dest).descriptor → j = k
  /-- an iteration that accepted no client gives its destination to no connection -/
  notReused : ∀ (dest : ℕ) iteration, s.destSockets[dest]? = some iteration →
    iteration ∉ s.srcSockets → ∀ conn ∈ s.connectionList, (conn.socket .dest).descriptor ≠ dest
  /-- every client has a destination -/
  served : ∀ (k : ℕ) iteration, s.srcSockets[k]? = some iteration →
    ∃ conn, s.connectionList[k]? = some conn ∧
      s.destSockets[(conn.socket .dest).descriptor]? = some iteration
  /-- ids increase until the counter wraps -/
  ids : s.srcSockets.length < 2 ^ 32 → ∀ (j k : ℕ) first second, j < k →
    s.connectionList[j]? = some first → s.connectionList[k]? = some second →
      ∃ firstId secondId, first.connId = some firstId ∧ second.connId = some secondId ∧
        firstId < secondId

/-- The identity of a connection, in the list of identities. -/
theorem identity_of_getElem? {s : Server β} {k : ℕ} {conn : ConnectionImpl β}
    (found : s.connectionList[k]? = some conn) : s.identities[k]? = some conn.identity := by
  rw [Server.identities, List.getElem?_map, found]
  rfl

/-- At the start of an iteration everything is paired. -/
theorem Server.Pairs.pairedUp {s : Server β} (pairs : s.Pairs) (atTop : s.listener = .loopTop) :
    PairedUp s := by
  have stage := pairs.stage
  simp only [Server.Stage, atTop] at stage
  obtain ⟨-, -, length, numbered⟩ := stage
  have clients : s.connectionList.length = s.srcSockets.length := by
    rw [← length, Server.identities, List.length_map]
  have sameIteration : ∀ (k : ℕ) conn, s.connectionList[k]? = some conn →
      (conn.socket .src).descriptor = k ∧
        ∃ iteration, s.srcSockets[k]? = some iteration ∧
          s.destSockets[(conn.socket .dest).descriptor]? = some iteration :=
    fun k conn found => pairs.owned k conn.identity (identity_of_getElem? found)
  refine ⟨clients, sameIteration, ?_, ?_, ?_, ?_⟩
  · intro j k first second foundFirst foundSecond same
    obtain ⟨-, iteration, client, dest⟩ := sameIteration j first foundFirst
    obtain ⟨-, another, anotherClient, anotherDest⟩ := sameIteration k second foundSecond
    have oneIteration : some iteration = some another := by rw [← dest, same, anotherDest]
    obtain rfl := Option.some.inj oneIteration
    exact position_unique pairs.srcs client anotherClient
  · intro dest iteration connected unserved conn member owns
    obtain ⟨k, found⟩ := List.getElem?_of_mem member
    obtain ⟨-, another, client, anotherDest⟩ := sameIteration k conn found
    rw [owns, connected, Option.some.injEq] at anotherDest
    exact unserved (anotherDest ▸ List.mem_of_getElem? client)
  · intro k iteration client
    have inside : k < s.connectionList.length := by
      rw [clients]
      exact (List.getElem?_eq_some_iff.mp client).1
    have found := List.getElem?_eq_getElem inside
    obtain ⟨-, another, sameClient, dest⟩ := sameIteration k _ found
    rw [client, Option.some.injEq] at sameClient
    exact ⟨_, found, sameClient ▸ dest⟩
  · intro few j k first second before foundFirst foundSecond
    have firstId := numbered j _ (identity_of_getElem? foundFirst)
    have secondId := numbered k _ (identity_of_getElem? foundSecond)
    have inside : k < s.connectionList.length := (List.getElem?_eq_some_iff.mp foundSecond).1
    refine ⟨_, _, firstId, secondId, ?_⟩
    rw [UInt32.lt_iff_toNat_lt, UInt32.toNat_ofNat', UInt32.toNat_ofNat',
      Nat.mod_eq_of_lt (by omega), Nat.mod_eq_of_lt (by omega)]
    omega

theorem pairs_init : (serverMachine zero).init.Pairs where
  dests := List.Pairwise.nil
  srcs := List.Pairwise.nil
  destsSoFar _ member := by cases member
  srcsSoFar _ member := by cases member
  counted := rfl
  owned _ _ found := by cases found
  stage := ⟨fun _ member => (by cases member), fun _ member => (by cases member), rfl,
    fun _ _ found => (by cases found)⟩

/-- **The accept loop pairs sockets one to one**, whatever fails and in whatever order. -/
theorem sockets_paired (zero : β) {s : Server β} (reached : (serverMachine zero).Reachable s)
    (atTop : s.listener = .loopTop) : PairedUp s := by
  have pairs : s.Pairs :=
    (serverMachine zero).invariant pairs_init (fun _ _ _ pairs stepped => pairs.step stepped)
      reached
  exact pairs.pairedUp atTop

/-- A failed accept, a failed connect, and a client that is served. -/
def acceptAfterFailures : List (ServerAction UInt8) :=
  [.run, .bound true, .run, .connectDone false, .run, .acceptDone true, .run, .run,
    .connectDone true, .run, .run, .connectDone false, .run, .acceptDone false, .run, .run, .run,
    .run]

theorem sockets_paired_afterFailures :
    ∃ s, (serverMachine (0 : UInt8)).exec (serverMachine 0).init acceptAfterFailures = some s ∧
      PairedUp s :=
  ⟨_, rfl, sockets_paired 0 ⟨acceptAfterFailures, rfl⟩ rfl⟩

end BookFilerSsh.Port
