import BookFilerSsh.Tunnel.PullStream

/-!
# What runPull does when the channel has ended

The end of a channel and a permanent failure reach `runPull` in one shape: a read of
length zero. `ClientImpl::read` drops the state that `readCommandChannel` returns, and
`runPull` answers an empty read with `continue`. Only a failed `async_write` lets it
return.

So `runPull` is never done (`not_pullReturns`): whatever the reads return and however
its steps are interleaved with those of `runPush`, as long as its writes succeed it has
a next step (`PullPc.Going.exists_action`) and has not returned
(`PullPc.Going.act`). After the end of the channel it reads on for ever.
-/

set_option autoImplicit false

namespace BookFilerSsh

variable {β : Type}

/-! ## The end of a channel -/

/-- What the reads of a channel return: some results, then for ever the end of the
channel or one permanent failure. -/
structure ReadScript (β : Type) where
  history : List (ReadResult β)
  rc : Int
  ended : rc ≤ 0
  permanent : rc ≠ libssh2ErrorEagain

namespace ReadScript

/-- The result of the `call`-th read. -/
def result (script : ReadScript β) (call : ℕ) : ReadResult β :=
  script.history[call]?.getD (.code script.rc script.ended)

/-- The bytes of all chunks. -/
def bytes (script : ReadScript β) : List β := script.history.flatMap ReadResult.bytes

end ReadScript

/-- The reads of the actions return the results from the `call`-th on, and their
`async_write`s succeed. -/
def Follows (results : ℕ → ReadResult β) : ℕ → List (LinkAction β) → Prop
  | _, [] => True
  | call, .pullReturn result :: rest => result = results call ∧ Follows results (call + 1) rest
  | call, .pullWake ec :: rest => ec = false ∧ Follows results call rest
  | call, _ :: rest => Follows results call rest

theorem Follows.tail {results : ℕ → ReadResult β} {call : ℕ} {action : LinkAction β}
    {rest : List (LinkAction β)} (follows : Follows results call (action :: rest)) :
    ∃ later, Follows results later rest := by
  cases action with
  | pullReturn result => exact ⟨call + 1, follows.2⟩
  | pullWake ec => exact ⟨call, follows.2⟩
  | _ => exact ⟨call, follows⟩

/-- An action of `runPull`, or of its surroundings. -/
def LinkAction.isPull : LinkAction β → Bool
  | .pullStep | .pullReturn _ | .pullWake _ | .pullResume => true
  | _ => false

/-- **`runPull` ends**: after some number of its steps, whatever `runPush` does between
them, it has returned and written every chunk it read. -/
def PullReturns (client : ClientImpl β) (session : SessionId) (script : ReadScript β) : Prop :=
  ∃ steps, ∀ actions link, Follows script.result 0 actions →
    (linkMachine client session).exec (Link.fresh client session) actions = some link →
      steps ≤ actions.countP LinkAction.isPull →
        link.conn.pull = .returned ∧ link.conn.srcSocket.written = script.bytes

/-! ## runPull goes on -/

theorem Link.pullReturn_isSome (link : Link β) (result : ReadResult β)
    (reading : link.conn.pull = .inRead) : (link.pullReturn result).isSome := by
  simp only [Link.pullReturn, reading, Option.isSome_some]

/-- The pump is spawned, has not returned and has no failed write behind it. -/
def PullPc.Going : PullPc β → Prop
  | .unspawned | .returned => False
  | .written ec | .resumed ec => ec = false
  | _ => True

namespace PullPc.Going

variable {link next : Link β}

theorem pullStep {effect : Effect} (going : link.conn.pull.Going)
    (stepped : link.pullStep = some (next, effect)) : next.conn.pull.Going := by
  unfold Link.pullStep at stepped
  split at stepped
  next pc =>
    cases stepped
    trivial
  next pc =>
    cases stepped
    trivial
  next pc =>
    cases stepped
    trivial
  next result pc => split at stepped <;> cases stepped <;> trivial
  next rc pc =>
    cases stepped
    simp [Link.setPull, outerRc, Going]
  next pc =>
    cases stepped
    trivial
  next bufferStr pc =>
    cases stepped
    trivial
  next bufferStr len pc => split at stepped <;> cases stepped <;> trivial
  next ec pc =>
    rw [pc] at going
    have succeeded : ec = false := going
    simp only [succeeded, Bool.false_eq_true, if_false] at stepped
    cases stepped
    trivial
  next => cases stepped

/-- **No action lets `runPull` return**, except a failed write. -/
theorem act {action : LinkAction β} (going : link.conn.pull.Going)
    (succeeds : action ≠ .pullWake true) (acted : link.act action = some next) :
    next.conn.pull.Going := by
  cases action with
  | pullStep =>
      obtain ⟨⟨after, effect⟩, stepped, rfl⟩ := Option.map_eq_some_iff.mp acted
      exact going.pullStep stepped
  | pullReturn result =>
      simp only [Link.act, Link.pullReturn] at acted
      split at acted <;> cases acted
      trivial
  | pullWake ec =>
      simp only [Link.act, Link.pullWake] at acted
      split at acted <;> cases acted
      cases ec with
      | false => rfl
      | true => exact absurd rfl succeeds
  | pullResume =>
      simp only [Link.act, Link.pullResume] at acted
      split at acted <;> cases acted
      · trivial
      · rename_i ec pc
        rw [pc] at going
        exact going
  | pushStep =>
      obtain ⟨⟨after, effect⟩, stepped, rfl⟩ := Option.map_eq_some_iff.mp acted
      have same := congrArg Link.PullView.pull (Link.pushStep_pullView stepped)
      exact (show after.conn.pull = link.conn.pull from same) ▸ going
  | pushReturn result =>
      have same := congrArg Link.PullView.pull (Link.pushReturn_pullView acted)
      exact (show next.conn.pull = link.conn.pull from same) ▸ going
  | pushWake completion =>
      have same := congrArg Link.PullView.pull (Link.pushWake_pullView acted)
      exact (show next.conn.pull = link.conn.pull from same) ▸ going
  | pushResume =>
      have same := congrArg Link.PullView.pull (Link.pushResume_pullView acted)
      exact (show next.conn.pull = link.conn.pull from same) ▸ going

/-- **`runPull` has a next step**: it makes a statement, a thread takes it up, or the
completion it waits for arrives. -/
theorem exists_action (results : ℕ → ReadResult β) (call : ℕ) (going : link.conn.pull.Going) :
    ∃ action next later, action.isPull = true ∧ link.act action = some next ∧
      ∀ rest, Follows results later rest → Follows results call (action :: rest) := by
  have statement : ∀ pair, link.pullStep = some pair →
      ∃ action next later, action.isPull = true ∧ link.act action = some next ∧
        ∀ rest, Follows results later rest → Follows results call (action :: rest) := by
    intro pair stepped
    refine ⟨.pullStep, pair.1, call, rfl, ?_, fun _ follows => follows⟩
    simp only [Link.act, stepped, Option.map_some]
  cases pc : link.conn.pull with
  | unspawned => exact (pc ▸ going : PullPc.Going .unspawned).elim
  | returned => exact (pc ▸ going : PullPc.Going .returned).elim
  | spawned =>
      refine ⟨.pullResume, link.setPull .loopTop, call, rfl, ?_, fun _ follows => follows⟩
      simp only [Link.act, Link.pullResume, pc]
  | inRead =>
      have ended := Option.isSome_iff_exists.mp (link.pullReturn_isSome (results call) pc)
      obtain ⟨after, returned⟩ := ended
      exact ⟨.pullReturn (results call), after, call + 1, rfl, returned,
        fun _ follows => ⟨rfl, follows⟩⟩
  | writing bufferStr len =>
      refine ⟨.pullWake false, link.setPull (.written false), call, rfl, ?_,
        fun _ follows => ⟨rfl, follows⟩⟩
      simp only [Link.act, Link.pullWake, pc]
  | written ec =>
      refine ⟨.pullResume, link.setPull (.resumed ec), call, rfl, ?_, fun _ follows => follows⟩
      simp only [Link.act, Link.pullResume, pc]
  | readDone result =>
      by_cases negative : result.rc < 0
      all_goals exact statement _ (by
        simp only [Link.pullStep, pc, negative, if_true, if_false]
        rfl)
  | lenCopied bufferStr len =>
      by_cases empty : len = 0
      all_goals exact statement _ (by simp only [Link.pullStep, pc, empty, if_true, if_false]; rfl)
  | resumed ec =>
      have succeeded : ec = false := (pc ▸ going : PullPc.Going (.resumed ec))
      exact statement _ (by
        simp only [Link.pullStep, pc, succeeded, Bool.false_eq_true, if_false]; rfl)
  | _ => exact statement _ (by simp only [Link.pullStep, pc]; rfl)

/-- In a run whose writes succeed `runPull` goes on. -/
theorem exec {client : ClientImpl β} {session : SessionId} {results : ℕ → ReadResult β}
    {call : ℕ} {actions : List (LinkAction β)} (going : link.conn.pull.Going)
    (follows : Follows results call actions)
    (run : (linkMachine client session).exec link actions = some next) :
    next.conn.pull.Going := by
  induction actions generalizing link call with
  | nil =>
      rw [Lib.Machine.exec_nil, Option.some.injEq] at run
      exact run ▸ going
  | cons action rest ih =>
      rw [Lib.Machine.exec_cons, Option.bind_eq_some_iff] at run
      obtain ⟨middle, acted, restRun⟩ := run
      have succeeds : action ≠ .pullWake true := by
        rintro rfl
        exact absurd follows.1 (by decide)
      obtain ⟨later, restFollows⟩ := follows.tail
      exact ih (going.act succeeds acted) restFollows restRun

/-- Some run makes any number of steps of `runPull`. -/
theorem exists_run (client : ClientImpl β) (session : SessionId) (results : ℕ → ReadResult β)
    (call steps : ℕ) (going : link.conn.pull.Going) :
    ∃ actions last, Follows results call actions ∧
      (linkMachine client session).exec link actions = some last ∧
        actions.countP LinkAction.isPull = steps := by
  induction steps generalizing link call with
  | zero => exact ⟨[], link, trivial, rfl, rfl⟩
  | succ steps ih =>
      obtain ⟨action, middle, later, isPull, acted, extends_⟩ := going.exists_action results call
      have succeeds : action ≠ .pullWake true := by
        rintro rfl
        exact absurd (extends_ [] trivial).1 (by decide)
      obtain ⟨rest, last, follows, run, count⟩ := ih later (going.act succeeds acted)
      refine ⟨action :: rest, last, extends_ rest follows, ?_, ?_⟩
      · rw [Lib.Machine.exec_cons]
        exact Option.bind_eq_some_iff.mpr ⟨middle, acted, run⟩
      · rw [List.countP_cons_of_pos isPull, count]

end PullPc.Going

/-- In no run whose writes succeed has `runPull` returned. -/
theorem pull_ne_returned {client : ClientImpl β} {session : SessionId}
    {results : ℕ → ReadResult β} {actions : List (LinkAction β)} {link : Link β}
    (follows : Follows results 0 actions)
    (run : (linkMachine client session).exec (Link.fresh client session) actions = some link) :
    link.conn.pull ≠ .returned := by
  intro returned
  have spawned : (Link.fresh client session).conn.pull.Going := trivial
  have going := spawned.exec follows run
  rw [returned] at going
  exact going

/-- `runPull` is never done. -/
theorem not_pullReturns (client : ClientImpl β) (session : SessionId) (script : ReadScript β) :
    ¬ PullReturns client session script := by
  rintro ⟨steps, returns⟩
  have spawned : (Link.fresh client session).conn.pull.Going := trivial
  obtain ⟨actions, last, follows, run, count⟩ :=
    spawned.exists_run client session script.result 0 steps
  exact pull_ne_returned follows run (returns actions last follows run (Nat.le_of_eq count.symm)).1

/-- **The end of a channel does not end `runPull`**, nor does a permanent failure of it,
whatever came before: it has not returned after any number of steps, and there is
always a run with more of them. -/
theorem runPull_never_returns (client : ClientImpl β) (session : SessionId)
    (script : ReadScript β) :
    (∀ actions link, Follows script.result 0 actions →
      (linkMachine client session).exec (Link.fresh client session) actions = some link →
        link.conn.pull ≠ .returned) ∧
      ¬ PullReturns client session script :=
  ⟨fun _ _ follows run => pull_ne_returned follows run, not_pullReturns client session script⟩

/-- One chunk, and then the end of the channel. -/
def oneChunkThenEnd : ReadScript UInt8 where
  history := [.byte 7]
  rc := 0
  ended := ReadResult.zero_notPositive
  permanent := by decide

/-- After one chunk and the end of the channel `runPull` reads on. -/
theorem not_runPull_returns :
    ¬ ∀ (client : ClientImpl UInt8) (session : SessionId) (script : ReadScript UInt8),
      PullReturns client session script := by
  intro returns
  exact not_pullReturns {} 0 oneChunkThenEnd (returns {} 0 oneChunkThenEnd)

end BookFilerSsh
