import BookFilerSsh.Tunnel.PullStream

/-!
# The statements of a push pump and the function they compute

`runPush` is given twice: as a function of the chunks that are read and of the results of
the channel writes (`runPush`), and statement by statement, interleaved with `runPull` on
the same client (`Link.pushStep`). The two agree: whenever the statements are between two
chunks, the socket has been read and the channel has accepted what the function says for
some rounds of chunks and results (`pushes_as_runPush`).

Within a chunk the statements are somewhere in the loop of `writeCommandChannel`. The
invariant says that the loop, for any results that begin with those returned so far, comes
to the client as it is now and has had accepted what the channel has accepted
(`Reaches`).
-/

set_option autoImplicit false

namespace BookFilerSsh

variable {β : Type}

/-! ## Within the write loop -/

/-- The results begin with these. -/
def Begins (done : List Int) (results : ℕ → Int) : Prop :=
  ∀ call result, done[call]? = some result → results call = result

theorem Begins.of_concat {done : List Int} {result : Int} {results : ℕ → Int}
    (begins : Begins (done ++ [result]) results) :
    Begins done results ∧ results done.length = result := by
  constructor
  · intro call early found
    obtain ⟨inside, -⟩ := List.getElem?_eq_some_iff.mp found
    exact begins call early ((List.getElem?_append_left inside).trans found)
  · exact begins done.length result List.getElem?_concat_length

/-- The client that `send` hands to `writeCommandChannel`, as far as its loop looks at it. -/
def loadedClient (chunk : List β) : ClientImpl β :=
  { commandStr := chunk, commandStrLen := chunk.length, writtenBytes := 0 }

/-- The loop over the chunk comes to the client after these results, and the channel has
accepted these bytes of it. -/
structure Reaches (chunk : List β) (done : List Int) (now : ClientImpl β) (soFar : List β) :
    Prop where
  str : now.commandStr = chunk
  len : now.commandStrLen = chunk.length
  loop : ∀ results, Begins done results →
    (ClientImpl.writeLoop results (loadedClient chunk) 0).accepted =
      soFar ++ (ClientImpl.writeLoop results now done.length).accepted

namespace Reaches

variable {chunk soFar : List β} {done : List Int} {now : ClientImpl β} {result : Int}

theorem start (chunk : List β) : Reaches chunk [] (loadedClient chunk) [] :=
  ⟨rfl, rfl, fun _ _ => rfl⟩

/-- A write after which the loop goes on. -/
theorem again (reaches : Reaches chunk done now soFar)
    (goesOn : (now.countWritten (toInt result)).WritesAgain (toInt result)) :
    Reaches chunk (done ++ [result]) (now.countWritten (toInt result))
      (soFar ++ now.acceptedBy result) := by
  refine ⟨reaches.str, reaches.len, ?_⟩
  intro results begins
  obtain ⟨before, last⟩ := begins.of_concat
  rw [reaches.loop results before, ClientImpl.writeLoop_accepted, last, if_pos goesOn,
    List.append_assoc, List.length_append, List.length_singleton]

/-- A write after which it stops. -/
theorem stops (reaches : Reaches chunk done now soFar)
    (ends : ¬ (now.countWritten (toInt result)).WritesAgain (toInt result))
    {results : ℕ → Int} (begins : Begins (done ++ [result]) results) :
    (ClientImpl.writeLoop results (loadedClient chunk) 0).accepted =
      soFar ++ now.acceptedBy result := by
  obtain ⟨before, last⟩ := begins.of_concat
  rw [reaches.loop results before, ClientImpl.writeLoop_accepted, last, if_neg ends,
    List.append_nil]

end Reaches

/-- The round of a chunk whose writes returned these results. -/
def PushRound.ofResults (read : SrcRead β) (done : List Int) : PushRound β where
  read := read
  results := fun call => done.getD call (-1)

theorem PushRound.begins_ofResults (read : SrcRead β) (done : List Int) :
    Begins done (PushRound.ofResults read done).results := by
  intro call result found
  show done.getD call (-1) = result
  rw [List.getD_eq_getElem?_getD, found, Option.getD_some]

/-- No write accepts more than the chunk. -/
def PushRound.Fits (round : PushRound β) : Prop :=
  ∀ call, round.results call ≤ round.read.bytes.length

theorem PushRound.fits_ofResults {read : SrcRead β} {done : List Int}
    (fits : ∀ result ∈ done, result ≤ read.bytes.length) :
    (PushRound.ofResults read done).Fits := by
  intro call
  show done.getD call (-1) ≤ read.bytes.length
  rw [List.getD_eq_getElem?_getD]
  cases found : done[call]? with
  | none => exact Int.le_trans (by decide) (Int.natCast_nonneg _)
  | some result => exact fits result (List.mem_of_getElem? found)

/-- What a round accepts is what its write loop accepts. -/
theorem PushRound.accepted_loaded (round : PushRound β) (client : ClientImpl β) :
    round.accepted client =
      (ClientImpl.writeLoop round.results (loadedClient round.read.bytes) 0).accepted := by
  simp only [accepted, ClientImpl.send, ClientImpl.writeCommandChannel]
  apply ClientImpl.writeLoop_accepted_congr round.results <;> rfl

/-! ## What the pumps work on -/

namespace Link

/-- What `runPush` works on. Of the client it is what `writeCommandChannel` looks at. -/
structure PushView (β : Type) where
  push : PushPc β
  read : List β
  accepted : List β
  buffer : List β
  client : ClientImpl β

def pushView (link : Link β) : PushView β where
  push := link.conn.push
  read := link.conn.srcSocket.read
  accepted := link.channel.accepted
  buffer := link.conn.srcReadBuffer
  client :=
    { commandStr := link.client.commandStr
      commandStrLen := link.client.commandStrLen
      writtenBytes := link.client.writtenBytes }

theorem pullStep_pushView {link next : Link β} {effect : Effect}
    (stepped : link.pullStep = some (next, effect)) : next.pushView = link.pushView := by
  unfold pullStep at stepped
  split at stepped <;> try split at stepped
  all_goals cases stepped
  all_goals rfl

theorem pullReturn_pushView {link next : Link β} {result : ReadResult β}
    (returned : link.pullReturn result = some next) : next.pushView = link.pushView := by
  unfold pullReturn at returned
  split at returned <;> cases returned
  rfl

theorem pullWake_pushView {link next : Link β} {ec : Bool}
    (woken : link.pullWake ec = some next) : next.pushView = link.pushView := by
  unfold pullWake at woken
  split at woken <;> cases woken
  rfl

theorem pullResume_pushView {link next : Link β}
    (resumed : link.pullResume = some next) : next.pushView = link.pushView := by
  unfold pullResume at resumed
  split at resumed <;> cases resumed
  all_goals rfl

/-! ## The invariant of runPush -/

namespace PushView

/-- After these rounds a chunk was read, and the channel has accepted these bytes since. -/
structure Sends (rounds : List (PushRound β)) (view : PushView β) (chunk soFar : List β) :
    Prop where
  read : view.read = (rounds.flatMap fun round => round.read.bytes) ++ chunk
  accepted : view.accepted = (rounds.flatMap fun round => round.accepted {}) ++ soFar

/-- A chunk whose writes returned these results, none of which accepted more than it. -/
structure Writes (rounds : List (PushRound β)) (view : PushView β) (chunk : SrcRead β)
    (done : List Int) (soFar : List β) : Prop where
  sends : view.Sends rounds chunk.bytes soFar
  fits : ∀ result ∈ done, result ≤ chunk.bytes.length

/-- Where `runPush` is after these rounds. -/
def After (rounds : List (PushRound β)) (view : PushView β) : Prop :=
  match view.push with
  | .readDone bytesTransferred false | .resumed bytesTransferred false =>
      ∃ chunk : SrcRead β, view.Sends rounds chunk.bytes [] ∧
        bytesTransferred = chunk.bytes.length ∧ view.buffer.take bytesTransferred = chunk.bytes
  | .sending bufferStr len =>
      ∃ chunk : SrcRead β, view.Sends rounds chunk.bytes [] ∧
        bufferStr = chunk.bytes ∧ len = chunk.bytes.length
  | .strSet len =>
      ∃ chunk : SrcRead β, view.Sends rounds chunk.bytes [] ∧
        view.client.commandStr = chunk.bytes ∧ len = chunk.bytes.length
  | .lenSet | .writeEntered =>
      ∃ chunk : SrcRead β, view.Sends rounds chunk.bytes [] ∧
        view.client.commandStr = chunk.bytes ∧ view.client.commandStrLen = chunk.bytes.length
  | .writeLoopTop | .inWrite =>
      ∃ (chunk : SrcRead β) (done : List Int) (soFar : List β),
        view.Writes rounds chunk done soFar ∧ Reaches chunk.bytes done view.client soFar
  | .writeDone result =>
      ∃ (chunk : SrcRead β) (done : List Int) (soFar : List β),
        view.Writes rounds chunk (done ++ [result]) (soFar ++ view.client.acceptedBy result) ∧
          Reaches chunk.bytes done view.client soFar
  | .counted rc =>
      ∃ (chunk : SrcRead β) (done : List Int) (result : Int) (soFar : List β)
        (before : ClientImpl β),
        view.Writes rounds chunk (done ++ [result]) (soFar ++ before.acceptedBy result) ∧
          Reaches chunk.bytes done before soFar ∧ rc = toInt result ∧
            view.client = before.countWritten rc
  | _ => view.Sends rounds [] []

/-- The statements are those of some rounds, each of which fits its chunk. -/
def Inv (view : PushView β) : Prop :=
  ∃ rounds : List (PushRound β), (∀ round ∈ rounds, round.Fits) ∧ view.After rounds

/-- A chunk that was sent is a round. -/
theorem Sends.round {rounds : List (PushRound β)} {view : PushView β} {chunk : SrcRead β}
    {done : List Int} {soFar : List β} (writes : view.Writes rounds chunk done soFar)
    (all : (ClientImpl.writeLoop (PushRound.ofResults chunk done).results
      (loadedClient chunk.bytes) 0).accepted = soFar) :
    view.Sends (rounds ++ [PushRound.ofResults chunk done]) [] [] := by
  obtain ⟨⟨read, accepted⟩, -⟩ := writes
  constructor
  · rw [read, List.flatMap_append, List.flatMap_singleton, List.append_nil]
    rfl
  · rw [accepted, List.flatMap_append, List.flatMap_singleton, List.append_nil,
      PushRound.accepted_loaded, ← all]
    rfl

/-- What the rounds sent does not depend on where the pump is. -/
theorem Sends.moved {rounds : List (PushRound β)} {view next : PushView β}
    {chunk soFar : List β} (sends : view.Sends rounds chunk soFar) (read : next.read = view.read)
    (accepted : next.accepted = view.accepted) : next.Sends rounds chunk soFar :=
  ⟨read.trans sends.read, accepted.trans sends.accepted⟩

theorem Writes.moved {rounds : List (PushRound β)} {view next : PushView β} {chunk : SrcRead β}
    {done : List Int} {soFar : List β} (writes : view.Writes rounds chunk done soFar)
    (read : next.read = view.read) (accepted : next.accepted = view.accepted) :
    next.Writes rounds chunk done soFar :=
  ⟨writes.sends.moved read accepted, writes.fits⟩

/-- The last write of a chunk makes it a round. -/
theorem Writes.finish {rounds : List (PushRound β)} {view next : PushView β} {chunk : SrcRead β}
    {done : List Int} {result : Int} {soFar : List β} {before : ClientImpl β}
    (writes : view.Writes rounds chunk (done ++ [result]) (soFar ++ before.acceptedBy result))
    (reaches : Reaches chunk.bytes done before soFar)
    (ends : ¬ (before.countWritten (toInt result)).WritesAgain (toInt result))
    (read : next.read = view.read) (accepted : next.accepted = view.accepted)
    (fit : ∀ round ∈ rounds, round.Fits) :
    ∃ rounds : List (PushRound β), (∀ round ∈ rounds, round.Fits) ∧ next.Sends rounds [] [] := by
  refine ⟨rounds ++ [PushRound.ofResults chunk (done ++ [result])], ?_, ?_⟩
  · intro round member
    rcases List.mem_append.mp member with earlier | last
    · exact fit round earlier
    · rw [List.mem_singleton.mp last]
      exact PushRound.fits_ofResults writes.fits
  · have all := reaches.stops ends (PushRound.begins_ofResults chunk (done ++ [result]))
    exact (Sends.round writes all).moved read accepted

end PushView

variable {link next : Link β}

/-- **A statement of `runPush`.** -/
theorem inv_pushStep {effect : Effect} (inv : link.pushView.Inv)
    (stepped : link.pushStep = some (next, effect)) : next.pushView.Inv := by
  obtain ⟨rounds, fit, after⟩ := inv
  have here : link.pushView.push = link.conn.push := rfl
  cases pc : link.conn.push with
  | loopTop =>
      simp only [PushView.After, here, pc] at after
      simp only [pushStep, pc, Option.some.injEq, Prod.mk.injEq] at stepped
      obtain ⟨rfl, -⟩ := stepped
      exact ⟨rounds, fit, after.moved rfl rfl⟩
  | resumed n ec =>
      cases ec with
      | true =>
          simp only [PushView.After, here, pc] at after
          simp only [pushStep, pc, if_true, Option.some.injEq, Prod.mk.injEq] at stepped
          obtain ⟨rfl, -⟩ := stepped
          exact ⟨rounds, fit, after.moved rfl rfl⟩
      | false =>
          simp only [PushView.After, here, pc] at after
          simp only [pushStep, pc, Bool.false_eq_true, if_false, Option.some.injEq,
            Prod.mk.injEq] at stepped
          obtain ⟨rfl, -⟩ := stepped
          obtain ⟨chunk, sends, size, held⟩ := after
          exact ⟨rounds, fit, chunk, sends.moved rfl rfl, held, size⟩
  | sending bufferStr len =>
      simp only [PushView.After, here, pc] at after
      simp only [pushStep, pc, Option.some.injEq, Prod.mk.injEq] at stepped
      obtain ⟨rfl, -⟩ := stepped
      obtain ⟨chunk, sends, str, size⟩ := after
      exact ⟨rounds, fit, chunk, sends.moved rfl rfl, str, size⟩
  | strSet len =>
      simp only [PushView.After, here, pc] at after
      simp only [pushStep, pc, Option.some.injEq, Prod.mk.injEq] at stepped
      obtain ⟨rfl, -⟩ := stepped
      obtain ⟨chunk, sends, str, size⟩ := after
      exact ⟨rounds, fit, chunk, sends.moved rfl rfl, str, size⟩
  | lenSet =>
      simp only [PushView.After, here, pc] at after
      simp only [pushStep, pc, Option.some.injEq, Prod.mk.injEq] at stepped
      obtain ⟨rfl, -⟩ := stepped
      obtain ⟨chunk, sends, str, size⟩ := after
      exact ⟨rounds, fit, chunk, sends.moved rfl rfl, str, size⟩
  | writeEntered =>
      simp only [PushView.After, here, pc] at after
      simp only [pushStep, pc, Option.some.injEq, Prod.mk.injEq] at stepped
      obtain ⟨rfl, -⟩ := stepped
      obtain ⟨chunk, sends, str, size⟩ := after
      refine ⟨rounds, fit, chunk, [], [], ⟨sends.moved rfl rfl, by simp⟩, ?_⟩
      have loaded : ((link.setClient { link.client with writtenBytes := 0 }).setPush
          .writeLoopTop).pushView.client = loadedClient chunk.bytes := by
        simp only [pushView] at str size
        simp only [pushView, setPush, setClient, loadedClient, str, size]
      rw [loaded]
      exact Reaches.start chunk.bytes
  | writeLoopTop =>
      simp only [PushView.After, here, pc] at after
      simp only [pushStep, pc, Option.some.injEq, Prod.mk.injEq] at stepped
      obtain ⟨rfl, -⟩ := stepped
      obtain ⟨chunk, done, soFar, writes, reaches⟩ := after
      exact ⟨rounds, fit, chunk, done, soFar, writes.moved rfl rfl, reaches⟩
  | writeDone result =>
      simp only [PushView.After, here, pc] at after
      simp only [pushStep, pc] at stepped
      obtain ⟨chunk, done, soFar, writes, reaches⟩ := after
      split at stepped
      next failed =>
        simp only [Option.some.injEq, Prod.mk.injEq] at stepped
        obtain ⟨rfl, -⟩ := stepped
        have ends : ¬ (link.pushView.client.countWritten (toInt result)).WritesAgain
            (toInt result) := by
          intro again
          exact absurd again.1 (Int.not_lt.mpr (Int.le_of_lt failed))
        exact writes.finish reaches ends rfl rfl fit
      next =>
        simp only [Option.some.injEq, Prod.mk.injEq] at stepped
        obtain ⟨rfl, -⟩ := stepped
        exact ⟨rounds, fit, chunk, done, result, soFar, link.pushView.client,
          writes.moved rfl rfl, reaches, rfl, rfl⟩
  | counted rc =>
      simp only [PushView.After, here, pc] at after
      simp only [pushStep, pc, Option.some.injEq, Prod.mk.injEq] at stepped
      obtain ⟨rfl, -⟩ := stepped
      obtain ⟨chunk, done, result, soFar, before, writes, reaches, rfl, counted⟩ := after
      have test : link.client.WritesAgain (toInt result) ↔
          (before.countWritten (toInt result)).WritesAgain (toInt result) := by
        rw [← counted]
        exact Iff.rfl
      split
      next again =>
        refine ⟨rounds, fit, chunk, done ++ [result], soFar ++ before.acceptedBy result,
          writes.moved rfl rfl, ?_⟩
        show Reaches _ _ link.pushView.client _
        rw [counted]
        exact reaches.again (test.mp again)
      next ends => exact writes.finish reaches (mt test.mpr ends) rfl rfl fit
  | sent rc =>
      simp only [PushView.After, here, pc] at after
      simp only [pushStep, pc] at stepped
      split at stepped <;> cases stepped <;> exact ⟨rounds, fit, after.moved rfl rfl⟩
  | _ => simp [pushStep, pc] at stepped

/-- The end of a channel write. -/
theorem inv_pushReturn {result : Int} (inv : link.pushView.Inv)
    (ended : link.pushReturn result = some next) : next.pushView.Inv := by
  obtain ⟨rounds, fit, after⟩ := inv
  have here : link.pushView.push = link.conn.push := rfl
  cases pc : link.conn.push with
  | inWrite =>
      simp only [PushView.After, here, pc] at after
      simp only [pushReturn, pc] at ended
      obtain ⟨within, same⟩ := Option.ite_none_right_eq_some.mp ended
      cases same
      obtain ⟨chunk, done, soFar, ⟨⟨read, accepted⟩, fits⟩, reaches⟩ := after
      refine ⟨rounds, fit, chunk, done, soFar, ⟨⟨read, ?_⟩, ?_⟩, reaches⟩
      · rw [← List.append_assoc, ← accepted]
        rfl
      · intro other member
        rcases List.mem_append.mp member with earlier | last
        · exact fits other earlier
        · rw [List.mem_singleton.mp last]
          have length : link.client.commandStrLen = chunk.bytes.length := reaches.len
          omega
  | _ => simp [pushReturn, pc] at ended

/-- The completion of a read of the socket. -/
theorem inv_pushWake {completion : SrcReadEnd β} (inv : link.pushView.Inv)
    (woken : link.pushWake completion = some next) : next.pushView.Inv := by
  obtain ⟨rounds, fit, after⟩ := inv
  have here : link.pushView.push = link.conn.push := rfl
  cases pc : link.conn.push with
  | reading =>
      simp only [PushView.After, here, pc] at after
      simp only [pushWake, pc] at woken
      cases completion with
      | data read =>
          cases woken
          refine ⟨rounds, fit, read, ⟨?_, after.accepted⟩, rfl, ?_⟩
          · have before := after.read
            rw [List.append_nil] at before
            rw [← before]
            rfl
          · exact List.take_left' rfl
      | failed =>
          cases woken
          exact ⟨rounds, fit, after.moved rfl rfl⟩
  | _ => simp [pushWake, pc] at woken

/-- A thread takes `runPush` up. -/
theorem inv_pushResume (inv : link.pushView.Inv) (resumed : link.pushResume = some next) :
    next.pushView.Inv := by
  obtain ⟨rounds, fit, after⟩ := inv
  have here : link.pushView.push = link.conn.push := rfl
  cases pc : link.conn.push with
  | spawned =>
      simp only [PushView.After, here, pc] at after
      simp only [pushResume, pc, Option.some.injEq] at resumed
      subst resumed
      exact ⟨rounds, fit, after.moved rfl rfl⟩
  | readDone n ec =>
      simp only [pushResume, pc, Option.some.injEq] at resumed
      subst resumed
      cases ec with
      | true =>
          simp only [PushView.After, here, pc] at after
          exact ⟨rounds, fit, after.moved rfl rfl⟩
      | false =>
          simp only [PushView.After, here, pc] at after
          obtain ⟨chunk, sends, size, held⟩ := after
          exact ⟨rounds, fit, chunk, sends.moved rfl rfl, size, held⟩
  | _ => simp [pushResume, pc] at resumed

/-- Every action keeps the invariant of `runPush`. -/
theorem pushInv_act {action : LinkAction β} (inv : link.pushView.Inv)
    (acted : link.act action = some next) : next.pushView.Inv := by
  cases action with
  | pullStep =>
      obtain ⟨⟨after, effect⟩, stepped, rfl⟩ := Option.map_eq_some_iff.mp acted
      exact pullStep_pushView stepped ▸ inv
  | pullReturn result => exact pullReturn_pushView acted ▸ inv
  | pullWake ec => exact pullWake_pushView acted ▸ inv
  | pullResume => exact pullResume_pushView acted ▸ inv
  | pushStep =>
      obtain ⟨⟨after, effect⟩, stepped, rfl⟩ := Option.map_eq_some_iff.mp acted
      exact inv_pushStep inv stepped
  | pushReturn result => exact inv_pushReturn inv acted
  | pushWake completion => exact inv_pushWake inv acted
  | pushResume => exact inv_pushResume inv acted

theorem pushInv_fresh (client : ClientImpl β) (session : SessionId) :
    (fresh client session).pushView.Inv :=
  ⟨[], fun _ member => absurd member List.not_mem_nil, rfl, rfl⟩

end Link

/-- `runPush` has sent every chunk it has read. -/
def PushPc.Between : PushPc β → Prop
  | .unspawned | .spawned | .loopTop | .reading | .readDone _ true | .resumed _ true | .sent _
  | .returned => True
  | _ => False

/-- Between two chunks the invariant is about whole rounds. -/
theorem Link.PushView.Inv.rounds {view : Link.PushView β} (inv : view.Inv)
    (between : view.push.Between) : ∃ rounds : List (PushRound β),
      (∀ round ∈ rounds, round.Fits) ∧ view.Sends rounds [] [] := by
  obtain ⟨rounds, fit, after⟩ := inv
  refine ⟨rounds, fit, ?_⟩
  revert after between
  unfold Link.PushView.After
  cases view.push with
  | readDone n ec | resumed n ec => cases ec <;> simp [PushPc.Between]
  | _ => simp [PushPc.Between]

/-- **The statements of `runPush` do what the function does.** In every interleaving with
`runPull`, when no chunk is on its way, the chunks read and the bytes accepted are those of
a run of `runPush`. -/
theorem pushes_as_runPush (client : ClientImpl β) (session : SessionId) {link : Link β}
    (reached : (linkMachine client session).Reachable link)
    (between : link.conn.push.Between) :
    ∃ rounds : List (PushRound β), (∀ round ∈ rounds, round.Fits) ∧
      link.conn.srcSocket.read = (rounds.flatMap fun round => round.read.bytes) ∧
        link.channel.accepted = (runPush client rounds).accepted := by
  have inv : link.pushView.Inv :=
    (linkMachine client session).invariant (I := fun link => link.pushView.Inv)
      (Link.pushInv_fresh client session) (fun _ _ _ inv acted => Link.pushInv_act inv acted)
      reached
  obtain ⟨rounds, fit, read, accepted⟩ := inv.rounds between
  rw [List.append_nil] at read accepted
  exact ⟨rounds, fit, read, accepted.trans (runPush_accepted client {} rounds).symm⟩

/-- The chunk `1 2` is sent in two writes that accept a byte each, and `runPull` reads in
between. -/
def sendInTwo : List (LinkAction UInt8) :=
  [.pushResume, .pushStep, .pushWake (.data (chunkOneTwo fun _ => 1).read), .pushResume,
    .pushStep, .pullResume, .pullStep, .pushStep, .pushStep, .pushStep, .pushStep, .pushStep,
    .pushReturn 1, .pushStep, .pullStep, .pushStep, .pushStep, .pushReturn 1, .pushStep,
    .pushStep]

theorem pushes_as_runPush_inTwo :
    ∃ link, (linkMachine ({} : ClientImpl UInt8) 0).exec (Link.fresh {} 0) sendInTwo = some link ∧
      ∃ rounds : List (PushRound UInt8), (∀ round ∈ rounds, round.Fits) ∧
        link.conn.srcSocket.read = (rounds.flatMap fun round => round.read.bytes) ∧
          link.channel.accepted = (runPush {} rounds).accepted :=
  ⟨_, rfl, pushes_as_runPush {} 0 ⟨sendInTwo, rfl⟩ trivial⟩

end BookFilerSsh
