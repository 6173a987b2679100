import BookFilerSsh.Lib.Tables
import BookFilerSsh.Port.Server

/-!
# What is left of a forwarded connection whose pumps have returned

A pump that gets an error returns. It closes no socket, so the peer on the other
side never learns of it, and nothing removes the connection from
`serverState->connectionList`, so its destructor never runs. The two write handlers
close both sockets when they are handed an error, but they are only ever called
without one.

So the sockets of every published connection are open in every reachable state
(`Server.socketsOpen`), and connections are torn down as a whole exactly as long as
no pump has gone on after an error (`Server.tornDown_throughout_iff`).
-/

set_option autoImplicit false

namespace BookFilerSsh.Port

open Lib Lib.Tables

variable {β : Type} {zero : β}

namespace ConnectionImpl

/-- Both sockets are open. -/
def SocketsOpen (conn : ConnectionImpl β) : Prop :=
  ∀ side, (conn.socket side).isOpen = true

/-- No pump has returned. -/
def Pumping (conn : ConnectionImpl β) : Prop :=
  ∀ side, conn.pump side ≠ .returned

/-- The action lets a pump go on whose last socket operation failed. -/
def GivesUp (conn : ConnectionImpl β) : PumpAction β → Prop
  | .step side => (conn.pump side).Failed
  | _ => False

/-- No step of a pump closes a socket: the write handlers are called without an
error. -/
theorem SocketsOpen.act {conn next : ConnectionImpl β} {action : PumpAction β}
    (socketsOpen : conn.SocketsOpen) (acted : conn.act zero action = some next) :
    next.SocketsOpen := by
  have assigned : ∀ (side : Side) (socket : Socket β), socket.isOpen = true →
      (conn.setSocket side socket).SocketsOpen := by
    intro side socket isOpen another
    by_cases here : another = side
    · subst here
      simpa [setSocket] using isOpen
    · simpa [setSocket, here] using socketsOpen another
  cases act_moves acted with
  | @reads side _ _ _ pc => exact assigned side _ (socketsOpen side)
  | @greets side _ _ pc progress => exact assigned side _ (socketsOpen side)
  | @writes side _ _ _ _ pc progress => exact assigned side.other _ (socketsOpen side.other)
  | handles pc => simpa [SocketsOpen, setPump] using socketsOpen
  | _ => exact socketsOpen

theorem Pumping.setPump {conn : ConnectionImpl β} (pumping : conn.Pumping) (side : Side)
    {pc : PumpPc β} (goesOn : pc ≠ .returned) : (conn.setPump side pc).Pumping := by
  intro another
  by_cases here : another = side
  · subst here
    simpa [ConnectionImpl.setPump] using goesOn
  · simpa [ConnectionImpl.setPump, here] using pumping another

/-- A pump that goes on after an error returns. -/
theorem GivesUp.act {conn next : ConnectionImpl β} {action : PumpAction β}
    (givesUp : conn.GivesUp action) (acted : conn.act zero action = some next) :
    ¬ next.Pumping := by
  cases act_moves acted with
  | @returns side failed => exact fun pumping => pumping side (by simp [setPump])
  | _ => simp_all [GivesUp, PumpPc.Failed]

/-- No other step lets a pump return. -/
theorem Pumping.act {conn next : ConnectionImpl β} {action : PumpAction β}
    (pumping : conn.Pumping) (goesOn : ¬ conn.GivesUp action)
    (acted : conn.act zero action = some next) : next.Pumping := by
  cases act_moves acted with
  | returns failed => exact absurd failed goesOn
  | greets pc progress =>
      refine Pumping.setPump ?_ _ (by split <;> simp)
      exact pumping
  | writes pc progress =>
      refine Pumping.setPump ?_ _ (by split <;> simp)
      exact pumping
  | handles pc =>
      refine Pumping.setPump ?_ _ (by simp)
      simpa [Pumping] using pumping
  | allocates pc | copies pc | pushes pc | reads pc =>
      refine Pumping.setPump ?_ _ (by simp)
      exact pumping
  | _ => exact pumping.setPump _ (by simp)

end ConnectionImpl

namespace Server

/-- Connections are torn down as a whole: when a pump has returned, the socket it
writes to is closed, and a connection both of whose pumps have returned is gone. -/
structure TornDown (s : Server β) : Prop where
  closed : ∀ (i : ℕ) (conn : ConnectionImpl β), s.connectionList[i]? = some conn →
    ∀ side, conn.pump side = .returned → (conn.socket side.other).isOpen = false
  removed : ∀ (i : ℕ) (conn : ConnectionImpl β), s.connectionList[i]? = some conn →
    ¬ ∀ side, conn.pump side = .returned

/-- The action lets a pump go on whose last socket operation failed. -/
def GivesUp (s : Server β) : ServerAction β → Prop
  | .pump i action => ∃ conn, s.connectionList[i]? = some conn ∧ conn.GivesUp action
  | _ => False

/-- What a step of the accept loop keeps of every connection. -/
theorem forall_conn_listenerStep {P : ConnectionImpl β → Prop}
    (published : ∀ socket, (∀ side, (socket side).isOpen = true) → P { socket := socket })
    (identified : ∀ conn connId, P conn → P { conn with connId := connId })
    (spawned : ∀ conn side, P conn → P (conn.setPump side .spawned)) {s next : Server β}
    (holds : ∀ (i : ℕ) (conn : ConnectionImpl β), s.connectionList[i]? = some conn → P conn)
    (stepped : s.listenerStep = some next) :
    ∀ (i : ℕ) (conn : ConnectionImpl β), next.connectionList[i]? = some conn → P conn := by
  unfold listenerStep at stepped
  split at stepped <;> cases stepped
  case h_7 =>
    exact forall_concat holds (published _ fun side => by cases side <;> rfl)
  case h_8 => exact forall_modify holds fun conn found => identified conn _ (holds _ conn found)
  case h_9 => exact forall_modify holds fun conn found => spawned conn _ (holds _ conn found)
  case h_10 => exact forall_modify holds fun conn found => spawned conn _ (holds _ conn found)
  all_goals exact holds

/-- A step is one of a pump, or keeps what the accept loop keeps. -/
theorem forall_conn_step {P : ConnectionImpl β → Prop}
    (published : ∀ socket, (∀ side, (socket side).isOpen = true) → P { socket := socket })
    (identified : ∀ conn connId, P conn → P { conn with connId := connId })
    (spawned : ∀ conn side, P conn → P (conn.setPump side .spawned)) {s next : Server β}
    {action : ServerAction β}
    (pumps : ∀ i pumpAction, action = .pump i pumpAction → ∀ conn after,
      s.connectionList[i]? = some conn → conn.act zero pumpAction = some after → P after)
    (holds : ∀ (i : ℕ) (conn : ConnectionImpl β), s.connectionList[i]? = some conn → P conn)
    (stepped : s.step zero action = some next) :
    ∀ (i : ℕ) (conn : ConnectionImpl β), next.connectionList[i]? = some conn → P conn := by
  cases action with
  | run => exact forall_conn_listenerStep published identified spawned holds stepped
  | pump i action =>
      simp only [step, Option.bind_eq_bind, Option.bind_eq_some_iff, Option.pure_def,
        Option.some.injEq] at stepped
      obtain ⟨conn, found, after, acted, rfl⟩ := stepped
      exact forall_set holds (pumps i action rfl conn after found acted)
  | bound _ | connectDone _ | acceptDone _ =>
      simp only [step, connectDone, acceptDone] at stepped
      split at stepped <;> try split at stepped
      all_goals cases stepped
      all_goals exact holds

/-- **The sockets of every published connection are open.** -/
theorem socketsOpen {s : Server β} (reached : (serverMachine zero).Reachable s) :
    ∀ (i : ℕ) (conn : ConnectionImpl β), s.connectionList[i]? = some conn →
      conn.SocketsOpen := by
  refine (serverMachine zero).invariant
    (I := fun s => ∀ (i : ℕ) (conn : ConnectionImpl β), s.connectionList[i]? = some conn →
      conn.SocketsOpen) ?_ ?_ reached
  · intro i conn found
    simp [serverMachine] at found
  · intro s action next holds stepped
    refine forall_conn_step (fun _ isOpen => isOpen) (fun _ _ isOpen => isOpen)
      (fun _ _ isOpen => isOpen) ?_ holds stepped
    exact fun i _ _ conn after found acted => (holds i conn found).act acted

/-- No pump of a connection has returned. -/
def Pumping (s : Server β) : Prop :=
  ∀ (i : ℕ) (conn : ConnectionImpl β), s.connectionList[i]? = some conn → conn.Pumping

/-- While the sockets are open, a connection is torn down only as long as it need not
be. -/
theorem tornDown_iff {s : Server β} (reached : (serverMachine zero).Reachable s) :
    s.TornDown ↔ s.Pumping := by
  constructor
  · intro tornDown i conn found side returned
    have closed := tornDown.closed i conn found side returned
    rw [socketsOpen reached i conn found side.other] at closed
    cases closed
  · intro pumping
    refine ⟨fun i conn found side returned => ?_, fun i conn found returned => ?_⟩
    · exact absurd returned (pumping i conn found side)
    · exact pumping i conn found .src (returned .src)

theorem Pumping.step {s next : Server β} {action : ServerAction β} (pumping : s.Pumping)
    (goesOn : ¬ s.GivesUp action) (stepped : s.step zero action = some next) : next.Pumping := by
  refine forall_conn_step (fun _ _ _ returned => by cases returned) (fun _ _ kept => kept)
    (fun _ side kept => kept.setPump side (by simp)) ?_ pumping stepped
  rintro i pumpAction rfl conn after found acted
  exact (pumping i conn found).act (fun givesUp => goesOn ⟨conn, found, givesUp⟩) acted

theorem GivesUp.step {s next : Server β} {action : ServerAction β} (givesUp : s.GivesUp action)
    (stepped : s.step zero action = some next) : ¬ next.Pumping := by
  cases action with
  | pump i action =>
      obtain ⟨conn, found, givesUp⟩ := givesUp
      simp only [Server.step, Option.bind_eq_bind, found, Option.bind_some,
        Option.bind_eq_some_iff, Option.pure_def, Option.some.injEq] at stepped
      obtain ⟨after, acted, rfl⟩ := stepped
      have inside := (List.getElem?_eq_some_iff.mp found).1
      exact fun pumping => givesUp.act acted (pumping i after (List.getElem?_set_self inside))
  | _ => cases givesUp

/-- **Exactly when forwarded connections are torn down as a whole**: as long as no
pump has gone on after an error. -/
theorem tornDown_throughout_iff (zero : β) (actions : List (ServerAction β)) :
    (serverMachine zero).Throughout TornDown (serverMachine zero).init actions ↔
      (serverMachine zero).Guarded (fun s action => ¬ s.GivesUp action)
        (serverMachine zero).init actions := by
  refine Machine.throughout_iff_guarded ?_ ?_ ?_ actions
  · exact (tornDown_iff (serverMachine zero).reachable_init).mpr fun i conn found => by
      simp [serverMachine] at found
  · intro s action next reached tornDown guarded stepped
    have pumping := (tornDown_iff reached).mp tornDown
    exact (tornDown_iff (reached.step stepped)).mpr (pumping.step guarded stepped)
  · intro s action next reached against stepped tornDown
    have pumping := (tornDown_iff (reached.step stepped)).mp tornDown
    exact (not_not.mp against).step stepped pumping

end Server

end BookFilerSsh.Port
