import BookFilerSsh.Tunnel.Scheduling

/-!
# Calls on one session from two threads

`runPull` and `runPush` of one connection are spawned on strands of their own and
use one client, and nothing orders the libssh2 calls of the two. So a thread may
begin a call on a session while another thread is inside one
(`not_atMostOneCall_readAndWrite`).

That is the only way it happens. The client of a connection belongs to this
connection alone, and the accept loop calls on a client before the pumps are
spawned. So in a reachable state two calls on one session are in progress exactly
when `runPull` and `runPush` of one connection are both inside theirs
(`Server.atMostOneCall_iff`), and a run keeps the calls apart exactly when none of
its steps begins the call of a pump while the other pump is inside its call
(`atMostOneCall_throughout_iff`).
-/

set_option autoImplicit false

namespace BookFilerSsh

open Lib.Tables

/-- The client on whose session the accept loop is in a libssh2 call. -/
def ListenerPc.calls : ListenerPc → Option ℕ
  | .creating _ c | .handshaking _ c | .authenticating _ c | .opening _ c | .dropping _ c => some c
  | _ => none

namespace Server

variable {T : ℕ}

/-- The thread is between the begin and the end of a libssh2 call on the session
of the `c`-th client. -/
def InCall (s : Server T) (t : Fin T) (c : ℕ) : Prop :=
  match (s.threads t).head? with
  | some .listener => s.listener.calls = some c
  | some (.pull i) => ∃ conn, s.connectionList[i]? = some conn ∧ conn.pull = .inRead ∧
      conn.sshClient = some c
  | some (.push i) => ∃ conn, s.connectionList[i]? = some conn ∧ conn.push = .inWrite ∧
      conn.sshClient = some c
  | none => False

/-- No two threads are in a call on the same session. -/
def AtMostOneCall (s : Server T) : Prop :=
  ∀ c t t', s.InCall t c → s.InCall t' c → t = t'

/-- Both pumps of a connection are inside their calls. -/
def BothInCall (conn : ConnectionImpl TaggedByte) : Prop :=
  conn.pull = .inRead ∧ conn.push = .inWrite

/-- The step begins no call of a pump while the other pump of the connection is
inside its call. -/
def BeginsAlone (s : Server T) (action : ServerAction T) : Prop :=
  ∀ (t : Fin T) (i : ℕ) (conn : ConnectionImpl TaggedByte), action = .run t →
    s.connectionList[i]? = some conn →
      ((s.threads t).head? = some (.pull i) → conn.pull = .entered → conn.push ≠ .inWrite) ∧
      ((s.threads t).head? = some (.push i) → conn.push = .writeLoopTop → conn.pull ≠ .inRead)

/-! ## Which calls meet -/

/-- The client the accept loop calls on is used by no connection. -/
theorem unused_of_calls {s : Server T} (laid : s.LaidOut) {c i : ℕ}
    {conn : ConnectionImpl TaggedByte} (calls : s.listener.calls = some c)
    (found : s.connectionList[i]? = some conn) : conn.sshClient ≠ some c := by
  intro uses
  obtain rfl := own_client laid found uses
  have fits := laid.fits
  have shape : s.shapes[c]? = some conn.shape := by simp [shapes, found]
  cases pc : s.listener <;> rw [pc] at calls fits <;> simp only [ListenerPc.calls] at calls <;>
    cases calls
  all_goals
    obtain ⟨rfl, -, before, shapes, last⟩ := fits
    rw [shapes, ← last, List.getElem?_concat_length, Option.some.injEq] at shape
    have null := congrArg Shape.client shape
    simp [ConnectionImpl.shape, uses] at null

/-- Who can be in a call on the session of the `c`-th client. -/
theorem inCall_cases {s : Server T} (laid : s.LaidOut) {t : Fin T} {c : ℕ} (inCall : s.InCall t c) :
    ((s.threads t).head? = some .listener ∧ s.listener.calls = some c) ∨
      ∃ conn, s.connectionList[c]? = some conn ∧ conn.sshClient = some c ∧
        (((s.threads t).head? = some (.pull c) ∧ conn.pull = .inRead) ∨
          ((s.threads t).head? = some (.push c) ∧ conn.push = .inWrite)) := by
  unfold InCall at inCall
  split at inCall
  · rename_i top
    exact Or.inl ⟨top, inCall⟩
  · rename_i i top
    obtain ⟨conn, found, pc, uses⟩ := inCall
    obtain rfl := own_client laid found uses
    exact Or.inr ⟨conn, found, uses, Or.inl ⟨top, pc⟩⟩
  · rename_i i top
    obtain ⟨conn, found, pc, uses⟩ := inCall
    obtain rfl := own_client laid found uses
    exact Or.inr ⟨conn, found, uses, Or.inr ⟨top, pc⟩⟩
  · exact inCall.elim

/-- A connection whose `runPull` is spawned has its client. -/
theorem client_of_pull {s : Server T} (laid : s.LaidOut) {i : ℕ} {conn : ConnectionImpl TaggedByte}
    (found : s.connectionList[i]? = some conn) (spawned : conn.pull.isSpawned = true) :
    conn.sshClient = some i := by
  have shape : s.shapes[i]? = some conn.shape := by simp [shapes, found]
  rcases laid.own i conn.shape shape with empty | own
  · have absent := congrArg Shape.pull empty
    simp [ConnectionImpl.shape, spawned] at absent
  · exact own

/-- **Calls meet exactly when both pumps of a connection are in theirs.** -/
theorem atMostOneCall_iff {mode : SpawnMode} {clientState : ClientState} {s : Server T}
    (reached : (serverMachine T mode clientState).Reachable s) :
    s.AtMostOneCall ↔ ∀ (i : ℕ) (conn : ConnectionImpl TaggedByte),
      s.connectionList[i]? = some conn → ¬ BothInCall conn := by
  have laid := layout reached
  constructor
  · rintro apart i conn found ⟨pull, push⟩
    have uses := client_of_pull laid found (by rw [pull]; rfl)
    obtain ⟨t, top⟩ := on_top reached (.pull i)
      (by simp [status, found, pull, PullPc.status]) (by simp)
    obtain ⟨t', top'⟩ := on_top reached (.push i)
      (by simp [status, found, push, PushPc.status]) (by simp)
    have reading : s.InCall t i := by
      rw [InCall, top]
      exact ⟨conn, found, pull, uses⟩
    have writing : s.InCall t' i := by
      rw [InCall, top']
      exact ⟨conn, found, push, uses⟩
    rw [apart i t t' reading writing, top'] at top
    cases top
  · intro never c t t' inCall inCall'
    rcases inCall_cases laid inCall with ⟨top, calls⟩ | ⟨conn, found, uses, pump⟩ <;>
      rcases inCall_cases laid inCall' with ⟨top', calls'⟩ | ⟨conn', found', uses', pump'⟩
    · exact top_unique reached top top'
    · exact absurd uses' (unused_of_calls laid calls found')
    · exact absurd uses (unused_of_calls laid calls' found)
    · rw [found, Option.some.injEq] at found'
      subst found'
      rcases pump with ⟨top, pc⟩ | ⟨top, pc⟩ <;> rcases pump' with ⟨top', pc'⟩ | ⟨top', pc'⟩
      · exact top_unique reached top top'
      · exact absurd ⟨pc, pc'⟩ (never c conn found)
      · exact absurd ⟨pc', pc⟩ (never c conn found)
      · exact top_unique reached top top'

end Server

/-! ## Which steps begin a call -/

namespace Link

variable {β : Type}

/-- `runPull` gets into its call by its step before it only. -/
theorem pullStep_inRead {link next : Link β} {effect : Effect}
    (stepped : link.pullStep = some (next, effect)) (inRead : next.conn.pull = .inRead) :
    link.conn.pull = .entered := by
  unfold pullStep at stepped
  split at stepped <;> try split at stepped
  all_goals cases stepped
  all_goals simp_all [setPull, setClient, handOver, outerRc]

/-- `runPush` gets into its call by its step before it only. -/
theorem pushStep_inWrite {link next : Link β} {effect : Effect}
    (stepped : link.pushStep = some (next, effect)) (inWrite : next.conn.push = .inWrite) :
    link.conn.push = .writeLoopTop := by
  unfold pushStep at stepped
  split at stepped <;> try split at stepped
  all_goals cases stepped
  all_goals simp_all [setPush, setClient]

/-- No other action gets a pump into its call. -/
theorem act_inCall {link next : Link β} {action : LinkAction β}
    (acted : link.act action = some next) (notPull : action ≠ .pullStep)
    (notPush : action ≠ .pushStep) :
    (next.conn.pull = .inRead → link.conn.pull = .inRead) ∧
      (next.conn.push = .inWrite → link.conn.push = .inWrite) := by
  cases action with
  | pullStep => exact absurd rfl notPull
  | pushStep => exact absurd rfl notPush
  | _ =>
      simp only [act, pullReturn, pullWake, pullResume, pushReturn, pushWake, pushResume] at acted
      split at acted <;> try split at acted
      all_goals cases acted
      all_goals constructor <;> simp_all [setPull, setPush, fillBuffer]

end Link

namespace Server

variable {T : ℕ}

/-- In no connection both pumps are in their calls. -/
def NoneBoth (s : Server T) : Prop :=
  ∀ (i : ℕ) (conn : ConnectionImpl TaggedByte), s.connectionList[i]? = some conn → ¬ BothInCall conn

theorem noneBoth_act {s : Server T} (noneBoth : s.NoneBoth) {i : ℕ}
    {link next : Link TaggedByte} (linked : s.link i = some link)
    (action : LinkAction TaggedByte) (acted : link.act action = some next)
    (notPull : action ≠ .pullStep) (notPush : action ≠ .pushStep) :
    (s.setLink i next).NoneBoth := by
  obtain ⟨pull, push⟩ := Link.act_inCall acted notPull notPush
  exact forall_set noneBoth fun both =>
    noneBoth i link.conn (link_eq_some linked).1 ⟨pull both.1, push both.2⟩

theorem noneBoth_listenerStep {mode : SpawnMode} {s next : Server T} {effect : Effect}
    (noneBoth : s.NoneBoth) (stepped : s.listenerStep mode = some (next, effect)) :
    next.NoneBoth := by
  unfold listenerStep at stepped
  split at stepped <;> try split at stepped
  all_goals cases stepped
  all_goals try exact noneBoth
  · exact forall_concat noneBoth fun both => by cases both.1
  · exact forall_modify noneBoth fun conn found => noneBoth _ conn found
  · exact forall_modify noneBoth fun conn found => noneBoth _ conn found
  · exact forall_modify noneBoth fun conn found both => by cases mode <;> cases both.1
  · exact forall_modify noneBoth fun conn found both => by cases mode <;> cases both.2

/-- A step that begins no call during the other call keeps the calls apart. -/
theorem noneBoth_step {mode : SpawnMode} {s s' : Server T} {action : ServerAction T}
    (noneBoth : s.NoneBoth) (alone : s.BeginsAlone action)
    (stepped : s.step mode action = some s') : s'.NoneBoth := by
  obtain ⟨-, moved⟩ := step_moves stepped
  have applied : ∀ {next : Server T} {t : Fin T} {effect : Effect}, next.NoneBoth →
      (next.applyEffect mode t effect).NoneBoth := fun holds => by
    rw [NoneBoth, applyEffect_toListenerState]
    exact holds
  cases moved with
  | listenerRuns top ran => exact applied (noneBoth_listenerStep noneBoth ran)
  | @pullRuns t i link next effect top linked ran =>
      obtain ⟨found, -⟩ := link_eq_some linked
      obtain ⟨-, -, -, samePush⟩ := Link.pullStep_status ran
      refine applied (forall_set noneBoth fun both => ?_)
      have entered := Link.pullStep_inRead ran both.1
      exact (alone t i link.conn rfl found).1 top entered (samePush.symm.trans both.2)
  | @pushRuns t i link next effect top linked ran =>
      obtain ⟨found, -⟩ := link_eq_some linked
      obtain ⟨-, -, -, samePull⟩ := Link.pushStep_status ran
      refine applied (forall_set noneBoth fun both => ?_)
      have before := Link.pushStep_inWrite ran both.2
      exact (alone t i link.conn rfl found).2 top before (samePull.symm.trans both.1)
  | pullResumes idle linked resumed =>
      exact noneBoth_act noneBoth linked .pullResume resumed (by simp) (by simp)
  | pushResumes idle linked resumed =>
      exact noneBoth_act noneBoth linked .pushResume resumed (by simp) (by simp)
  | setUpReturns top ended =>
      have moved := listenerReturn_moves ended
      cases moved <;> exact noneBoth
  | readReturns top linked named ended =>
      exact noneBoth_act noneBoth linked (.pullReturn _) ended (by simp) (by simp)
  | writeReturns top linked ended =>
      exact noneBoth_act noneBoth linked (.pushReturn _) ended (by simp) (by simp)
  | readsLocal linked woken =>
      exact noneBoth_act noneBoth linked (.pushWake _) woken (by simp) (by simp)
  | writesLocal linked woken =>
      exact noneBoth_act noneBoth linked (.pullWake _) woken (by simp) (by simp)
  | _ => exact noneBoth

/-- A step that begins a call during the other call brings the calls together. -/
theorem not_noneBoth_step {mode : SpawnMode} {s s' : Server T} {action : ServerAction T}
    (together : ¬ s.BeginsAlone action) (stepped : s.step mode action = some s') :
    ¬ s'.NoneBoth := by
  obtain ⟨-, moved⟩ := step_moves stepped
  simp only [BeginsAlone, not_forall] at together
  obtain ⟨t, i, conn, rfl, found, fails⟩ := together
  have inside : i < s.connectionList.length := (List.getElem?_eq_some_iff.mp found).1
  have meets : ∀ {next : Link TaggedByte} {effect : Effect}, BothInCall next.conn →
      ¬ ((s.setLink i next).applyEffect mode t effect).NoneBoth :=
    fun {next effect} both noneBoth =>
      noneBoth i next.conn (by simp [setLink, onState, inside]) both
  rcases not_and_or.mp fails with reading | writing
  · simp only [ne_eq, not_forall, not_not] at reading
    obtain ⟨top, entered, inWrite⟩ := reading
    cases moved with
    | listenerRuns top' => simp [top] at top'
    | pushRuns top' => simp [top] at top'
    | @pullRuns _ j link next effect top' linked ran =>
        rw [top, Option.some.injEq, Coro.pull.injEq] at top'
        subst top'
        obtain ⟨foundLink, -⟩ := link_eq_some linked
        rw [found, Option.some.injEq] at foundLink
        subst foundLink
        simp only [Link.pullStep, entered, Option.some.injEq, Prod.mk.injEq] at ran
        obtain ⟨rfl, -⟩ := ran
        exact meets ⟨rfl, inWrite⟩
  · simp only [ne_eq, not_forall, not_not] at writing
    obtain ⟨top, before, inRead⟩ := writing
    cases moved with
    | listenerRuns top' => simp [top] at top'
    | pullRuns top' => simp [top] at top'
    | @pushRuns _ j link next effect top' linked ran =>
        rw [top, Option.some.injEq, Coro.push.injEq] at top'
        subst top'
        obtain ⟨foundLink, -⟩ := link_eq_some linked
        rw [found, Option.some.injEq] at foundLink
        subst foundLink
        simp only [Link.pushStep, before, Option.some.injEq, Prod.mk.injEq] at ran
        obtain ⟨rfl, -⟩ := ran
        exact meets ⟨inRead, rfl⟩

end Server

/-- **A run keeps the calls on every session apart exactly when no pump begins its
call while the other pump of its connection is inside its own.** -/
theorem atMostOneCall_throughout_iff {T : ℕ} (mode : SpawnMode) (clientState : ClientState)
    (actions : List (ServerAction T)) :
    (serverMachine T mode clientState).Throughout Server.AtMostOneCall
        (serverMachine T mode clientState).init actions ↔
      (serverMachine T mode clientState).Guarded Server.BeginsAlone
        (serverMachine T mode clientState).init actions := by
  refine Lib.Machine.throughout_iff_guarded ?_ ?_ ?_ actions
  · intro c t t' inCall
    simp [Server.InCall, serverMachine] at inCall
  · intro s action s' reached apart alone stepped
    rw [Server.atMostOneCall_iff reached] at apart
    rw [Server.atMostOneCall_iff (reached.step stepped)]
    exact Server.noneBoth_step apart alone stepped
  · intro s action s' reached together stepped
    rw [Server.atMostOneCall_iff (reached.step stepped)]
    exact Server.not_noneBoth_step together stepped

/-- A connection is set up, `runPull` waits in its read on one thread and `runPush`
begins a write on the other. -/
def readAndWrite : List (ServerAction 2) :=
  acceptsOne 0 ++
    [.resume 0 (.pull 0), .run 0, .run 0, .run 0, .resume 1 (.push 0), .run 1,
      .localRead 0 (.data { bytes := [7], nonempty := by decide, fits := by decide }),
      .resume 1 (.push 0), .run 1, .run 1, .run 1, .run 1, .run 1, .run 1]

/-- **Two threads are inside calls on one session.** -/
theorem not_atMostOneCall_readAndWrite :
    ¬ ∀ s, (serverMachine 2 .posted {}).Reachable s → s.AtMostOneCall := by
  intro always
  have apart := always _ ⟨readAndWrite, rfl⟩
  exact absurd (apart 0 0 1 ⟨_, rfl, rfl, rfl⟩ ⟨_, rfl, rfl, rfl⟩) (by decide)

end BookFilerSsh
