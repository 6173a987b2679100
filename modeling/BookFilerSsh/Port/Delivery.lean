import BookFilerSsh.Port.Pipes

/-!
# Nothing stays in a pump

A pump that has read a chunk does a bounded number of things before it reads again, and it
can always do the next one: it never waits for the other pump, for another client or for
the accept loop. So a chunk stays in a pump only while the peer does not take it
(`server_delivers`).

The bound is a rank of the positions of a pump. Every action of the pump but the completion
of a read lowers it, and no action of anyone else touches it.
-/

set_option autoImplicit false

namespace BookFilerSsh.Port

open Lib

variable {β : Type} {zero : β}

namespace PumpPc

/-- How much a pump has to do before it reads again. -/
def rank : PumpPc β → ℕ
  | .unspawned | .spawned => 517
  | .starting => 516
  | .greeting rest => rest.length + 3
  | .greeted _ => 2
  | .loopTop => 1
  | .reading => 0
  | .readDone _ true => 1
  | .readDone bytesTransferred false => bytesTransferred + 8
  | .received bytesTransferred => bytesTransferred + 7
  | .allocated _ bytesTransferred => bytesTransferred + 6
  | .copied _ bytesTransferred => bytesTransferred + 5
  | .pushed _ bytesTransferred => bytesTransferred + 4
  | .writing _ bytesTransferred done => bytesTransferred - done + 3
  | .written _ => 2
  | .returned => 0

/-- An outstanding write has bytes left to write, and a chunk is not empty and fits the
read buffer. -/
def Sound : PumpPc β → Prop
  | .greeting rest => rest ≠ [] ∧ rest.length ≤ 512
  | .readDone bytesTransferred false | .received bytesTransferred
  | .allocated _ bytesTransferred | .copied _ bytesTransferred | .pushed _ bytesTransferred =>
      0 < bytesTransferred ∧ bytesTransferred ≤ readBufferLength
  | .writing _ bytesTransferred done =>
      done < bytesTransferred ∧ bytesTransferred ≤ readBufferLength
  | _ => True

theorem rank_le {pc : PumpPc β} (sound : pc.Sound) : pc.rank ≤ readBufferLength + 8 := by
  cases pc with
  | readDone n ec => cases ec <;> simp only [Sound, rank, readBufferLength] at sound ⊢ <;> omega
  | _ =>
      simp only [Sound, rank, readBufferLength] at sound ⊢
      omega

/-- The pump has not been spawned, waits for its peer, or has returned. -/
def Rests (pc : PumpPc β) : Prop := pc = .unspawned ∨ pc = .reading ∨ pc = .returned

end PumpPc

/-- A read completes, with bytes or an error. -/
def PumpAction.IsRead : PumpAction β → Prop
  | .reads _ _ => True
  | _ => False

/-- A write fails. -/
def PumpAction.IsFailure : PumpAction β → Prop
  | .fails _ => True
  | _ => False

theorem length_startUpBuffer (zero : β) : (startUpBuffer zero).length = 512 :=
  List.length_replicate

namespace ConnectionImpl

variable {conn next : ConnectionImpl β} {action : PumpAction β} {side : Side}

theorem pump_setPump (conn : ConnectionImpl β) (side : Side) (pc : PumpPc β) :
    (conn.setPump side pc).pump side = pc := Function.update_self ..

/-- **Whatever a pump does but read brings it nearer to its next read.** -/
theorem rank_act (acted : conn.act zero action = some next) (quiet : ¬ action.IsRead) :
    1 + (next.pump action.side).rank ≤ (conn.pump action.side).rank := by
  cases act_moves acted with
  | resumes pc | enters pc | awaits pc | receives pc | allocates pc | copies pc | pushes pc
  | sends pc | handles pc | greetingFails pc | writingFails pc =>
      rw [PumpAction.side, pump_setPump, pc]
      simp only [PumpPc.rank]
      omega
  | starts pc =>
      rw [PumpAction.side, pump_setPump, pc]
      simp only [PumpPc.rank, length_startUpBuffer]
      omega
  | returns failed =>
      rw [PumpAction.side, pump_setPump]
      revert failed
      cases conn.pump _ with
      | greeted ec | readDone n ec | written ec =>
          rintro rfl
          simp [PumpPc.rank]
      | _ => exact False.elim
  | reads pc | readFails pc => exact absurd trivial quiet
  | greets pc progress =>
      rw [PumpAction.side, pump_setPump, pc]
      split <;> simp only [PumpPc.rank, List.length_drop] <;> omega
  | writes pc progress =>
      rw [PumpAction.side, pump_setPump, pc]
      split <;> simp only [PumpPc.rank] <;> omega

/-- A step leaves both pumps with something to write where they write. -/
theorem sound_act (sound : ∀ side, (conn.pump side).Sound)
    (acted : conn.act zero action = some next) (side : Side) : (next.pump side).Sound := by
  have own := sound action.side
  refine Side.both (P := fun side => (next.pump side).Sound) action.side ?_ ?_ side
  · cases act_moves acted with
    | resumes pc | enters pc | awaits pc | handles pc | returns _ | readFails pc
    | greetingFails pc | writingFails pc =>
        rw [PumpAction.side, pump_setPump]
        trivial
    | starts pc =>
        rw [PumpAction.side, pump_setPump]
        have length := length_startUpBuffer zero
        exact ⟨List.ne_nil_of_length_pos (by omega), by omega⟩
    | receives pc | allocates pc | copies pc | pushes pc | sends pc =>
        rw [PumpAction.side, pump_setPump]
        rw [PumpAction.side, pc] at own
        exact own
    | @reads side bytes nonempty fits pc =>
        rw [PumpAction.side, pump_setPump]
        exact ⟨List.length_pos_iff.mpr nonempty, fits⟩
    | greets pc progress =>
        rw [PumpAction.side, pump_setPump]
        rw [PumpAction.side, pc] at own
        simp only [PumpPc.Sound] at own
        split
        · trivial
        · simp only [PumpPc.Sound, ne_eq, List.drop_eq_nil_iff, List.length_drop]
          omega
    | writes pc progress =>
        rw [PumpAction.side, pump_setPump]
        rw [PumpAction.side, pc] at own
        simp only [PumpPc.Sound] at own
        split
        · trivial
        · simp only [PumpPc.Sound]
          omega
  · rw [pump_act_other acted]
    exact sound action.side.other

/-- **A pump is never stuck**: what it does next depends on nobody else. -/
theorem exists_act (zero : β) (sound : (conn.pump side).Sound)
    (busy : ¬ (conn.pump side).Rests) :
    ∃ action, action.side = side ∧ ¬ action.IsRead ∧ ¬ action.IsFailure ∧
      (conn.act zero action).isSome := by
  cases pc : conn.pump side with
  | unspawned | reading | returned => exact absurd (by simp [PumpPc.Rests, pc]) busy
  | spawned => exact ⟨.resume side, rfl, id, id, by simp [act, pumpResume, pc]⟩
  | greeting rest =>
      rw [pc] at sound
      have left : 0 < 1 ∧ 1 ≤ rest.length := ⟨Nat.one_pos, List.length_pos_iff.mpr sound.1⟩
      exact ⟨.writes side 1, rfl, id, id, by simp [act, pumpWrites, pc, left]⟩
  | writing block n done =>
      rw [pc] at sound
      have left : 0 < 1 ∧ done + 1 ≤ n := ⟨Nat.one_pos, sound.1⟩
      exact ⟨.writes side 1, rfl, id, id, by simp [act, pumpWrites, pc, left]⟩
  | written ec => cases ec <;> exact ⟨.step side, rfl, id, id, by simp [act_step, pumpStep, pc]⟩
  | _ => exact ⟨.step side, rfl, id, id, by simp [act_step, pumpStep, pc]⟩

end ConnectionImpl

/-! ## The pumps of the server -/

namespace Server

variable {s next : Server β} {action : ServerAction β} {i : ℕ} {conn : ConnectionImpl β}

/-- What a step of the accept loop does to a connection: it may spawn one of its pumps. -/
def Spawns (s : Server β) (i : ℕ) (conn after : ConnectionImpl β) : Prop :=
  ∀ side, after.pump side = conn.pump side ∨ s.Awaits i side ∧ after.pump side = .spawned

theorem getElem?_setConn (here : s.connectionList[i]? = some conn) (j : ℕ)
    (f : ConnectionImpl β → ConnectionImpl β) :
    (s.setConn j f).connectionList[i]? = some (if j = i then f conn else conn) := by
  rw [setConn, List.getElem?_modify, here]
  rfl

/-- An assignment to a connection that spawns what the accept loop has still to spawn. -/
theorem spawns_setConn (here : s.connectionList[i]? = some conn) {j : ℕ}
    {f : ConnectionImpl β → ConnectionImpl β} (spawns : s.Spawns j conn (f conn)) :
    ∃ after, (s.setConn j f).connectionList[i]? = some after ∧ s.Spawns i conn after := by
  refine ⟨_, getElem?_setConn here j f, ?_⟩
  split
  next same => exact same ▸ spawns
  next => exact fun _ => .inl rfl

/-- A statement of the accept loop. -/
theorem spawns_listenerStep (stepped : s.listenerStep = some next)
    (here : s.connectionList[i]? = some conn) :
    ∃ after, next.connectionList[i]? = some after ∧ s.Spawns i conn after := by
  have idle : s.Spawns i conn conn := fun _ => .inl rfl
  unfold Server.listenerStep at stepped
  split at stepped
  next => cases stepped; exact ⟨conn, here, idle⟩
  next => cases stepped; exact ⟨conn, here, idle⟩
  next => cases stepped; exact ⟨conn, here, idle⟩
  next => cases stepped; exact ⟨conn, here, idle⟩
  next => cases stepped; exact ⟨conn, here, idle⟩
  next => cases stepped; exact ⟨conn, here, idle⟩
  next =>
    cases stepped
    obtain ⟨inside, -⟩ := List.getElem?_eq_some_iff.mp here
    exact ⟨conn, (List.getElem?_append_left inside).trans here, idle⟩
  next j pc =>
    cases stepped
    exact spawns_setConn here fun _ => .inl rfl
  next j pc =>
    cases stepped
    apply spawns_setConn here
    refine Side.both .src (.inr ⟨?_, rfl⟩) (.inl rfl)
    simp [Awaits, pc]
  next j pc =>
    cases stepped
    apply spawns_setConn here
    refine Side.both .dest (.inr ⟨?_, rfl⟩) (.inl rfl)
    simp [Awaits, pc]
  next => cases stepped

/-- **What a step of the server does to a connection**: an action of one of its pumps, or
it spawns one of them. -/
theorem conn_step (stepped : s.step zero action = some next)
    (here : s.connectionList[i]? = some conn) :
    ∃ after, next.connectionList[i]? = some after ∧
      ((∃ inner, action = .pump i inner ∧ conn.act zero inner = some after) ∨
        (∀ inner, action ≠ .pump i inner) ∧ s.Spawns i conn after) := by
  have idle : s.Spawns i conn conn := fun _ => .inl rfl
  cases action with
  | run =>
      obtain ⟨after, there, spawns⟩ := spawns_listenerStep stepped here
      exact ⟨after, there, .inr ⟨by simp, spawns⟩⟩
  | bound ok =>
      simp only [Server.step] at stepped
      split at stepped <;> cases stepped
      exact ⟨conn, here, .inr ⟨by simp, idle⟩⟩
  | connectDone ec =>
      simp only [Server.step, Server.connectDone] at stepped
      split at stepped
      · split at stepped <;> cases stepped <;> exact ⟨conn, here, .inr ⟨by simp, idle⟩⟩
      · cases stepped
  | acceptDone ec =>
      simp only [Server.step, Server.acceptDone] at stepped
      split at stepped
      · split at stepped <;> cases stepped <;> exact ⟨conn, here, .inr ⟨by simp, idle⟩⟩
      · cases stepped
  | pump j inner =>
      obtain ⟨other, there, rest⟩ := Option.bind_eq_some_iff.mp stepped
      obtain ⟨after, acted, same⟩ := Option.bind_eq_some_iff.mp rest
      cases same
      by_cases own : j = i
      · subst own
        cases here.symm.trans there
        obtain ⟨inside, -⟩ := List.getElem?_eq_some_iff.mp here
        exact ⟨after, List.getElem?_set_self inside, .inl ⟨inner, rfl, acted⟩⟩
      · refine ⟨conn, (List.getElem?_set_ne own).trans here, .inr ⟨?_, idle⟩⟩
        intro another same
        cases same
        exact own rfl

/-- A step adds no connection, or publishes one. -/
theorem length_step (stepped : s.step zero action = some next) :
    next.connectionList.length = s.connectionList.length ∨
      ∃ src dest, next.connectionList = (s.publish src dest).connectionList := by
  cases action with
  | run =>
      simp only [Server.step, Server.listenerStep] at stepped
      split at stepped <;> cases stepped
      all_goals first
        | exact .inr ⟨_, _, rfl⟩
        | simp [setListener, nextIteration, setId, spawnPump, setConn]
  | bound ok =>
      simp only [Server.step] at stepped
      split at stepped <;> cases stepped
      exact .inl rfl
  | connectDone ec =>
      simp only [Server.step, Server.connectDone] at stepped
      split at stepped
      · split at stepped <;> cases stepped <;> exact .inl rfl
      · cases stepped
  | acceptDone ec =>
      simp only [Server.step, Server.acceptDone] at stepped
      split at stepped
      · split at stepped <;> cases stepped <;> exact .inl rfl
      · cases stepped
  | pump j inner =>
      obtain ⟨other, there, rest⟩ := Option.bind_eq_some_iff.mp stepped
      obtain ⟨after, acted, same⟩ := Option.bind_eq_some_iff.mp rest
      cases same
      exact .inl (List.length_set ..)

/-- All pumps of the server are sound. -/
def Sound (s : Server β) : Prop :=
  ∀ (i : ℕ) conn, s.connectionList[i]? = some conn → ∀ side, (conn.pump side).Sound

theorem Sound.step (sound : s.Sound) (stepped : s.step zero action = some next) : next.Sound := by
  intro i conn found side
  cases before : s.connectionList[i]? with
  | some old =>
      obtain ⟨after, there, moved⟩ := conn_step stepped before
      cases found.symm.trans there
      rcases moved with ⟨inner, -, acted⟩ | ⟨-, spawns⟩
      · exact ConnectionImpl.sound_act (sound i old before) acted side
      · rcases spawns side with same | ⟨-, spawned⟩
        · exact same ▸ sound i old before side
        · rw [spawned]
          trivial
  | none =>
      have outside := List.getElem?_eq_none_iff.mp before
      obtain ⟨inside, -⟩ := List.getElem?_eq_some_iff.mp found
      rcases length_step stepped with same | ⟨src, dest, published⟩
      · omega
      · rw [published, publish, List.getElem?_append_right outside] at found
        obtain ⟨last, rfl⟩ := List.getElem?_eq_some_iff.mp found
        simp only [List.getElem_singleton]
        trivial

/-- How much a pump of the server has to do before it reads again. -/
def rank (s : Server β) (i : ℕ) (side : Side) : ℕ :=
  s.connectionList[i]?.elim 0 fun conn => (conn.pump side).rank

end Server

/-- The action is one of the pump of a connection. -/
def ServerAction.owned (i : ℕ) (side : Side) : ServerAction β → Bool
  | .pump j action => j = i ∧ action.side = side
  | _ => false

/-- The pump of a connection reads no further chunk. -/
def ServerAction.Quiet (i : ℕ) (side : Side) (action : ServerAction β) : Prop :=
  ∀ completion, action ≠ .pump i (.reads side completion)

namespace Server

/-- Every action of a pump brings it nearer to its next read, and no other action does
anything to it. -/
theorem rank_step {s next : Server β} {action : ServerAction β} {i : ℕ} {side : Side}
    {duplexes : List (Duplex β)} (implements : s.Implements zero duplexes)
    (published : i < s.connectionList.length) (quiet : action.Quiet i side)
    (stepped : s.step zero action = some next) :
    (if action.owned i side = true then 1 else 0) + next.rank i side ≤ s.rank i side := by
  have here := List.getElem?_eq_getElem published
  obtain ⟨after, there, moved⟩ := conn_step stepped here
  rw [rank, rank, here, there, Option.elim_some, Option.elim_some]
  rcases moved with ⟨inner, rfl, acted⟩ | ⟨other, spawns⟩
  · by_cases own : inner.side = side
    · subst own
      have quietInner : ¬ inner.IsRead := by
        intro reads
        cases inner with
        | reads side completion => exact quiet completion rfl
        | _ => exact reads
      have sinks := ConnectionImpl.rank_act acted quietInner
      rwa [if_pos (by simp [ServerAction.owned])]
    · have same := ConnectionImpl.pump_act_other acted
      rw [← Side.eq_other (Ne.symm own)] at same
      rw [if_neg (by simp [ServerAction.owned, own]), Nat.zero_add]
      exact Nat.le_of_eq (congrArg PumpPc.rank same)
  · have idle : ¬ action.owned i side = true := by
      cases action with
      | pump j inner =>
          intro owns
          simp only [ServerAction.owned, decide_eq_true_eq] at owns
          exact other inner (by rw [owns.1])
      | _ => simp [ServerAction.owned]
    rw [if_neg idle, Nat.zero_add]
    rcases spawns side with same | ⟨awaits, spawned⟩
    · exact Nat.le_of_eq (congrArg PumpPc.rank same)
    · rw [spawned, implements.fresh i _ here side awaits]
      exact Nat.le_refl _

end Server

/-! ## Runs -/

theorem sound_of_reachable {s : Server β} (reached : (serverMachine zero).Reachable s) :
    s.Sound := by
  apply Machine.invariant (M := serverMachine zero) (I := Server.Sound) _ _ reached
  · intro i conn found
    cases found
  · intro s action next sound stepped
    exact sound.step stepped

/-- The server follows some family of pipes, and has published the connection. -/
def Server.Serves (zero : β) (i : ℕ) (s : Server β) : Prop :=
  (∃ duplexes, s.Implements zero duplexes) ∧ i < s.connectionList.length

theorem serves_step {i : ℕ} {s next : Server β} {action : ServerAction β}
    (serves : s.Serves zero i) (stepped : s.step zero action = some next) :
    next.Serves zero i := by
  obtain ⟨⟨duplexes, implements⟩, published⟩ := serves
  constructor
  · cases seen : s.observe action with
    | none => exact ⟨duplexes, implements.hidden stepped seen⟩
    | some event =>
        obtain ⟨after, -, follows⟩ := implements.shown stepped seen
        exact ⟨after, follows⟩
  · obtain ⟨after, there, -⟩ := Server.conn_step stepped (List.getElem?_eq_getElem published)
    exact (List.getElem?_eq_some_iff.mp there).1

/-- **Nothing stays in a pump.** Between two of its reads a pump does at most 1508 things,
whatever else happens meanwhile, and as long as it is not back at a read and has not
returned it can do the next one without anybody else. -/
theorem server_delivers (zero : β) {s t : Server β} {later : List (ServerAction β)} {i : ℕ}
    {side : Side} (reached : (serverMachine zero).Reachable s)
    (published : i < s.connectionList.length)
    (run : (serverMachine zero).exec s later = some t)
    (quiet : ∀ action ∈ later, action.Quiet i side) :
    later.countP (ServerAction.owned i side) ≤ readBufferLength + 8 ∧
      ∃ conn, t.connectionList[i]? = some conn ∧
        ((conn.pump side).Rests ∨ ∃ action, action.side = side ∧ ¬ action.IsRead ∧
          ¬ action.IsFailure ∧ (t.step zero (.pump i action)).isSome) := by
  obtain ⟨before, toS⟩ := reached
  obtain ⟨duplexes, -, implements⟩ := (refines_family zero).exec toS
  have here := List.getElem?_eq_getElem published
  have serves : t.Serves zero i :=
    Machine.exec_invariant (M := serverMachine zero) (fun _ _ _ => serves_step)
      ⟨⟨duplexes, implements⟩, published⟩ run
  have kept := serves.2
  have there := List.getElem?_eq_getElem kept
  have soundS := sound_of_reachable ⟨before, toS⟩
  have soundT := sound_of_reachable (Machine.Reachable.exec ⟨before, toS⟩ run)
  have bounded : s.rank i side ≤ readBufferLength + 8 := by
    rw [Server.rank, here, Option.elim_some]
    exact PumpPc.rank_le (soundS i _ here side)
  have ranked : later.countP (ServerAction.owned i side) + t.rank i side ≤ s.rank i side := by
    refine Machine.exec_rank (M := serverMachine zero) (I := Server.Serves zero i)
      (ServerAction.owned i side) (fun s => s.rank i side) (fun _ _ _ => serves_step) ?_
      ⟨⟨duplexes, implements⟩, published⟩ quiet run
    rintro s action next ⟨⟨duplexes, implements⟩, published⟩ quiet stepped
    exact Server.rank_step implements published quiet stepped
  refine ⟨by omega, _, there, ?_⟩
  by_cases rests : (t.connectionList[i].pump side).Rests
  · exact .inl rests
  · obtain ⟨action, own, noRead, noFailure, enabled⟩ :=
      ConnectionImpl.exists_act zero (soundT i _ there side) rests
    refine .inr ⟨action, own, noRead, noFailure, ?_⟩
    obtain ⟨next, acted⟩ := Option.isSome_iff_exists.mp enabled
    simp [Server.step, there, acted]

/-- The client is served, and nothing is read from it yet. -/
def greetClient : List (ServerAction UInt8) :=
  ([.resume .src, .step .src, .writes .src 512, .step .src] : List (PumpAction UInt8)).map (.pump 0)

section Greeted

-- the start-up buffer has 512 elements
set_option maxRecDepth 8000

theorem server_delivers_greeted :
    ∃ s t, (serverMachine (0 : UInt8)).exec (serverMachine 0).init serveClient = some s ∧
      (serverMachine 0).exec s greetClient = some t ∧
      greetClient.countP (ServerAction.owned 0 .src) ≤ readBufferLength + 8 ∧
      ∃ conn, t.connectionList[0]? = some conn ∧
        ((conn.pump .src).Rests ∨ ∃ action, action.side = .src ∧ ¬ action.IsRead ∧
          ¬ action.IsFailure ∧ (t.step 0 (.pump 0 action)).isSome) :=
  ⟨_, _, rfl, rfl, server_delivers 0 ⟨serveClient, rfl⟩ Nat.one_pos rfl (by
    intro action inside completion same
    subst same
    simp [greetClient] at inside)⟩

end Greeted

end BookFilerSsh.Port
