import VeritasSync.P2p.FloodExchange

/-
  Two peers that flood each other on connecting: what each
  of them has announced once its flood has ended.

  Main declarations:
    * `FloodExchange.Covers`
    * `FloodExchange.Undisturbed`
    * `FloodExchange.covers_of_run`
-/

namespace VeritasSync

------------------------------------------------------------
-- What Handling A Message Keeps
------------------------------------------------------------

namespace PeerSession

/- Who the peers are, and the session, stay as they were. -/
structure Keeps (p q : PeerSession) : Prop where
  role : q.role = p.role
  mode : q.mode = p.mode
  offerSide : q.offerSide = p.offerSide
  sessionId : q.sessionId = p.sessionId

theorem Keeps.refl (p : PeerSession) : Keeps p p :=
  ⟨rfl, rfl, rfl, rfl⟩

theorem Keeps.trans
    {p q r : PeerSession}
    (hFirst : Keeps p q)
    (hSecond : Keeps q r) :
    Keeps p r :=
  ⟨hSecond.role.trans hFirst.role,
    hSecond.mode.trans hFirst.mode,
    hSecond.offerSide.trans hFirst.offerSide,
    hSecond.sessionId.trans hFirst.sessionId⟩

theorem keeps_post
    (task : SyncHandler.Task)
    (p : PeerSession) :
    Keeps p (p.post task) :=
  ⟨rfl, rfl, rfl, rfl⟩

end PeerSession

open PeerSession

namespace SyncHandler

theorem keeps_checkAndRunCompletion
    (p : PeerSession) :
    Keeps p (checkAndRunCompletion p) := by
  unfold checkAndRunCompletion
  split
  · exact Keeps.refl p
  · split
    · exact Keeps.refl p
    · split
      · exact Keeps.refl p
      · split
        · exact Keeps.refl p
        · exact ⟨rfl, rfl, rfl, rfl⟩

theorem keeps_checkInSession
    (p : PeerSession) :
    Keeps p (checkInSession p) := by
  unfold checkInSession
  split
  · exact keeps_checkAndRunCompletion p
  · exact Keeps.refl p

theorem keeps_accumulate
    (update : FloodSyncAccumulator → FloodSyncAccumulator)
    (p : PeerSession) :
    Keeps p (accumulate update p) := by
  unfold accumulate
  split
  · exact Keeps.refl p
  · split
    · exact ⟨rfl, rfl, rfl, rfl⟩
    · exact Keeps.refl p

theorem keeps_beginFloodSyncAccumulation
    (id fileCount dirCount : ℕ)
    (p : PeerSession) :
    Keeps p
      (beginFloodSyncAccumulation id fileCount dirCount p)
        := by
  unfold beginFloodSyncAccumulation
  dsimp only
  split
  · apply Keeps.trans ?_ (keeps_checkAndRunCompletion _)
    exact ⟨rfl, rfl, rfl, rfl⟩
  · exact ⟨rfl, rfl, rfl, rfl⟩

end SyncHandler

namespace MessageRouter

open SyncHandler SyncSession

/- Only an accepted `sync_begin` changes the session. -/
theorem keeps_dispatch
    (p : PeerSession)
    (message : Message)
    (hKept : ∀ id fileCount dirCount,
      message = .syncBegin id fileCount dirCount →
        p.sessionId ≠ 0 ∧ p.offerSide = true) :
    Keeps p (dispatch p message) := by
  unfold dispatch
  split
  next hReceives =>
    cases message with
    | syncBegin id fileCount dirCount =>
        dsimp only
        unfold handleSyncBegin
        rw [if_pos (hKept id fileCount dirCount rfl)]
        exact Keeps.refl p
    | shareState files dirs => exact keeps_post _ p
    | dirCreate path => exact keeps_post _ p
    | dirDelete path => exact keeps_post _ p
    | fileUpdateBatch files =>
        apply Keeps.trans (keeps_accumulate _ p)
        apply Keeps.trans (keeps_post _ _)
        exact keeps_checkInSession _
    | fileDeleteBatch paths => exact keeps_post _ p
    | dirBatch creates deletes =>
        apply Keeps.trans (keeps_accumulate _ p)
        apply Keeps.trans (keeps_post _ _)
        exact keeps_checkInSession _
  next hDeaf =>
    exact Keeps.refl p

/- Whatever the message, the peers stay who they are. -/
theorem dispatch_peers
    (p : PeerSession)
    (message : Message) :
    (dispatch p message).role = p.role ∧
      (dispatch p message).mode = p.mode ∧
      (dispatch p message).offerSide = p.offerSide := by
  by_cases hBegin : ∃ id fileCount dirCount,
      message = .syncBegin id fileCount dirCount
  · rcases hBegin with ⟨id, fileCount, dirCount, rfl⟩
    unfold dispatch
    split
    · dsimp only
      unfold handleSyncBegin
      split
      · exact ⟨rfl, rfl, rfl⟩
      · have hKeeps := keeps_beginFloodSyncAccumulation
          id fileCount dirCount { p with sessionId := id }
        exact ⟨hKeeps.role, hKeeps.mode, hKeeps.offerSide⟩
    · exact ⟨rfl, rfl, rfl⟩
  · have hKeeps := keeps_dispatch p message
      (fun id fileCount dirCount hEq =>
        (hBegin ⟨id, fileCount, dirCount, hEq⟩).elim)
    exact ⟨hKeeps.role, hKeeps.mode, hKeeps.offerSide⟩

end MessageRouter

namespace SyncSession

open PeerController MessageRouter

/- Receiving neither posts nor drops a part of a flood. -/
theorem receive_flood
    (side : Side)
    (message : Message) :
    (receive side message).tasks = side.tasks ∧
      (receive side message).connected =
        side.connected := by
  unfold receive
  split
  · exact ⟨rfl, rfl⟩
  cases message with
  | syncBegin id fileCount dirCount =>
      dsimp only
      split <;> exact ⟨rfl, rfl⟩
  | shareState files dirs => exact ⟨rfl, rfl⟩
  | dirCreate path => exact ⟨rfl, rfl⟩
  | dirDelete path => exact ⟨rfl, rfl⟩
  | fileUpdateBatch files => exact ⟨rfl, rfl⟩
  | fileDeleteBatch paths => exact ⟨rfl, rfl⟩
  | dirBatch creates deletes => exact ⟨rfl, rfl⟩

/- The session of a side that received a message. -/
theorem receive_session
    (side : Side)
    (message : Message) :
    (receive side message).session = side.session ∨
      (receive side message).session =
        dispatch side.session message := by
  unfold receive
  split
  · exact Or.inl rfl
  cases message with
  | syncBegin id fileCount dirCount =>
      dsimp only
      split
      · exact Or.inl rfl
      · exact Or.inr rfl
  | shareState files dirs => exact Or.inr rfl
  | dirCreate path => exact Or.inr rfl
  | dirDelete path => exact Or.inr rfl
  | fileUpdateBatch files => exact Or.inr rfl
  | fileDeleteBatch paths => exact Or.inr rfl
  | dirBatch creates deletes => exact Or.inr rfl

theorem receive_peers
    (side : Side)
    (message : Message) :
    (receive side message).session.mode =
        side.session.mode ∧
      (receive side message).session.offerSide =
        side.session.offerSide := by
  rcases receive_session side message with hSame | hNew
  · rw [hSame]
    exact ⟨rfl, rfl⟩
  · rw [hNew]
    exact (dispatch_peers side.session message).2

theorem receive_syncSessionId
    (side : Side)
    (message : Message)
    (hKept : ∀ id fileCount dirCount,
      message = .syncBegin id fileCount dirCount →
        side.syncSessionId ≠ 0 ∧
          side.session.offerSide = true) :
    (receive side message).syncSessionId =
      side.syncSessionId := by
  unfold Side.syncSessionId
  rcases receive_session side message with hSame | hNew
  · rw [hSame]
  · rw [hNew]
    exact (keeps_dispatch side.session message
      hKept).sessionId

end SyncSession

------------------------------------------------------------
-- The Property
------------------------------------------------------------

namespace PeerController

namespace FloodTask

def sessionId : FloodTask → ℕ
| .scan id => id
| .announce id _ _ => id
| .send id _ _ => id

/- Only directories go out whatever the session is. -/
def NeedsSession : FloodTask → Prop
| .scan _ => True
| .announce _ files _ => files ≠ []
| .send _ _ _ => True

end FloodTask

end PeerController

namespace FloodExchange

open PeerController BroadcastManager SyncSession

/- Every file and directory was sent in some batch. -/
structure Covers
    (sent : List Message)
    (snapshot : Snapshot) : Prop where
  files : ∀ file ∈ snapshot.files,
    ∃ batch, Message.fileUpdateBatch batch ∈ sent ∧
      file ∈ batch
  dirs : ∀ dir ∈ snapshot.dirs,
    ∃ creates deletes,
      Message.dirBatch creates deletes ∈ sent ∧
        dir ∈ creates

/- A scan of a side finds its snapshot. -/
def FindsSnapshot
    (snapshot : Bool → Snapshot) : Event → Prop
| .run b _ found => found = snapshot b
| _ => True

/-
  The flood of side `b` is left alone: the clock gives it
  session ids, the answering side gets no `sync_begin` before
  its flood has ended, and no timeout ends a session that the
  flood still needs.
-/
def Undisturbed
    (b : Bool)
    (x : Exchange) : Event → Prop
| .connect c id => c = b → id ≠ 0
| .reconcile c id => c = b → id ≠ 0
| .deliver c newId => c = b →
    newId ≠ 0 ∧
      (b = false → ∀ id fileCount dirCount rest,
        x.channel b = .message
            (.syncBegin id fileCount dirCount) :: rest →
          ∀ task ∈ (x.side b).tasks, ¬task.NeedsSession)
| .timeout c => c = b →
    (x.side b).fired.head? =
        some (x.side b).syncSessionId →
      ∀ task ∈ (x.side b).tasks, ¬task.NeedsSession
| _ => True

------------------------------------------------------------
-- A Flood Under Way
------------------------------------------------------------

/- What a flood has sent before its next part. -/
def Prepared
    (snapshot : Snapshot)
    (sent : List Message) : FloodTask → Prop
| .scan _ => True
| .announce _ files dirs =>
    files = snapshot.files ∧ dirs = snapshot.dirs
| .send _ files index =>
    files = snapshot.files ∧
      (∀ dir ∈ snapshot.dirs,
        ∃ creates deletes,
          Message.dirBatch creates deletes ∈ sent ∧
            dir ∈ creates) ∧
      ∀ j < index,
        Message.fileUpdateBatch (fileBatch files j) ∈ sent

/- A part of a flood that will go on. -/
structure UnderWay
    (snapshot : Snapshot)
    (sent : List Message)
    (session : ℕ)
    (task : FloodTask) : Prop where
  prepared : Prepared snapshot sent task
  current : task.NeedsSession →
    task.sessionId = session ∧ session ≠ 0

/- Everything was announced, or something is under way. -/
def Flooding
    (snapshot : Snapshot)
    (sent : List Message)
    (side : Side) : Prop :=
  Covers sent snapshot ∨
    ∃ task ∈ side.tasks,
      UnderWay snapshot sent side.syncSessionId task

section Floods

variable
  {snapshot : Snapshot}
  {sent sent' : List Message}
  {side side' : Side}

theorem Covers.mono
    (hCovers : Covers sent snapshot)
    (hMore : ∀ message ∈ sent, message ∈ sent') :
    Covers sent' snapshot where
  files file hFile := by
    rcases hCovers.files file hFile with
      ⟨batch, hBatch, hMem⟩
    exact ⟨batch, hMore _ hBatch, hMem⟩
  dirs dir hDir := by
    rcases hCovers.dirs dir hDir with
      ⟨creates, deletes, hBatch, hMem⟩
    exact ⟨creates, deletes, hMore _ hBatch, hMem⟩

theorem Prepared.mono
    {task : FloodTask}
    (hPrepared : Prepared snapshot sent task)
    (hMore : ∀ message ∈ sent, message ∈ sent') :
    Prepared snapshot sent' task := by
  cases task with
  | scan id => trivial
  | announce id files dirs => exact hPrepared
  | send id files index =>
      rcases hPrepared with ⟨hFiles, hDirs, hEarlier⟩
      refine ⟨hFiles, ?_, fun j hj => hMore _ (hEarlier j hj)⟩
      intro dir hDir
      rcases hDirs dir hDir with
        ⟨creates, deletes, hBatch, hMem⟩
      exact ⟨creates, deletes, hMore _ hBatch, hMem⟩

theorem Flooding.mono
    (hFlooding : Flooding snapshot sent side)
    (hMore : ∀ message ∈ sent, message ∈ sent')
    (hTasks : ∀ task ∈ side.tasks, task ∈ side'.tasks)
    (hSession : side'.syncSessionId = side.syncSessionId ∨
      side.syncSessionId = 0 ∨
      ∀ task ∈ side.tasks, ¬task.NeedsSession) :
    Flooding snapshot sent' side' := by
  rcases hFlooding with hCovers | ⟨task, hTask, hUnderWay⟩
  · exact Or.inl (hCovers.mono hMore)
  · refine Or.inr ⟨task, hTasks task hTask,
      hUnderWay.prepared.mono hMore, ?_⟩
    intro hNeeds
    rcases hSession with hSame | hZero | hNone
    · rw [hSame]
      exact hUnderWay.current hNeeds
    · exact ((hUnderWay.current hNeeds).2 hZero).elim
    · exact (hNone task hTask hNeeds).elim

/- All batches together hold all files. -/
theorem covers_of_batches
    (hDirs : ∀ dir ∈ snapshot.dirs,
      ∃ creates deletes,
        Message.dirBatch creates deletes ∈ sent ∧
          dir ∈ creates)
    (hBatches : ∀ j < totalBatches snapshot.files,
      Message.fileUpdateBatch
        (fileBatch snapshot.files j) ∈ sent) :
    Covers sent snapshot where
  files file hFile := by
    rw [← flatten_batches fileUpdateBatchSize_pos
      snapshot.files, List.mem_flatten] at hFile
    rcases hFile with ⟨batch, hBatch, hMem⟩
    rcases List.mem_map.mp hBatch with ⟨j, hRange, rfl⟩
    exact ⟨_, hBatches j (List.mem_range.mp hRange), hMem⟩
  dirs := hDirs

/- The next batch is posted, or there is none left. -/
theorem flooding_pace
    {id index : ℕ}
    (hSession : side.syncSessionId = id)
    (hNonzero : id ≠ 0)
    (hPrepared : Prepared snapshot sent
      (.send id snapshot.files index)) :
    Covers sent snapshot ∨
      ∃ task ∈ paceAndSendFileBatches side id
          snapshot.files index,
        UnderWay snapshot sent side.syncSessionId task := by
  unfold paceAndSendFileBatches
  split
  next hLast =>
    refine Or.inl (covers_of_batches hPrepared.2.1 ?_)
    intro j hj
    exact hPrepared.2.2 j (by omega)
  next hMore =>
    rw [if_neg (not_not_intro hSession)]
    refine Or.inr ⟨_, List.mem_singleton.mpr rfl,
      hPrepared, ?_⟩
    intro _
    rw [hSession]
    exact ⟨rfl, hNonzero⟩

/- The directories go out with the announcement. -/
theorem announced_dirs
    (messages : List Message)
    (dirs : List String)
    (begin : Message) :
    ∀ dir ∈ dirs,
      ∃ creates deletes,
        Message.dirBatch creates deletes ∈ messages ++
            begin :: (broadcastDirChangesBatch dirs []).map
              Batch.message ∧
          dir ∈ creates := by
  intro dir hDir
  refine ⟨dirs, [], ?_, hDir⟩
  apply List.mem_append_right
  apply List.mem_cons_of_mem
  have hSome : ¬((dirs.isEmpty && List.isEmpty
      ([] : List String)) = true) := by
    simp only [List.isEmpty_nil, Bool.and_true,
      List.isEmpty_iff]
    exact List.ne_nil_of_mem hDir
  unfold broadcastDirChangesBatch
  rw [if_neg hSome]
  exact List.mem_singleton.mpr rfl

/- Running the part that is under way leaves another one. -/
theorem flooding_run
    {task : FloodTask}
    (hUnderWay : UnderWay snapshot sent
      side.syncSessionId task) :
    let result := runFloodTask snapshot side task
    Covers (sent ++ result.1) snapshot ∨
      ∃ next ∈ result.2,
        UnderWay snapshot (sent ++ result.1)
          side.syncSessionId next := by
  intro result
  cases task with
  | scan id =>
      rcases hUnderWay.current trivial with
        ⟨hSession, hNonzero⟩
      change id = side.syncSessionId at hSession
      have hResult : result =
          if snapshot.files.isEmpty &&
              snapshot.dirs.isEmpty then
            ([], [])
          else
            ([], [.announce id snapshot.files
              snapshot.dirs]) := by
        change (if side.syncSessionId ≠ id then _ else _) = _
        rw [if_neg (not_not_intro hSession.symm)]
      rw [hResult]
      split
      next hEmpty =>
        simp only [Bool.and_eq_true, List.isEmpty_iff]
          at hEmpty
        refine Or.inl ⟨?_, ?_⟩
        · intro file hFile
          rw [hEmpty.1] at hFile
          cases hFile
        · intro dir hDir
          rw [hEmpty.2] at hDir
          cases hDir
      next hSome =>
        exact Or.inr ⟨_, List.mem_singleton.mpr rfl,
          ⟨rfl, rfl⟩, fun _ => ⟨hSession, hNonzero⟩⟩
  | announce id files dirs =>
      rcases hUnderWay.prepared with ⟨rfl, rfl⟩
      have hDirs := announced_dirs sent snapshot.dirs
        (.syncBegin id snapshot.files.length
          snapshot.dirs.length)
      by_cases hFiles : snapshot.files = []
      · refine Or.inl (covers_of_batches hDirs ?_)
        intro j hj
        rw [hFiles] at hj
        exact (Nat.not_lt_zero j hj).elim
      · rcases hUnderWay.current hFiles with
          ⟨hSession, hNonzero⟩
        apply flooding_pace hSession.symm
        · rw [hSession]
          exact hNonzero
        · refine ⟨rfl, hDirs, ?_⟩
          intro j hj
          exact (Nat.not_lt_zero j hj).elim
  | send id files index =>
      rcases hUnderWay.prepared with
        ⟨rfl, hDirs, hEarlier⟩
      rcases hUnderWay.current trivial with
        ⟨hSession, hNonzero⟩
      change id = side.syncSessionId at hSession
      have hResult : result =
          ([.fileUpdateBatch
              (fileBatch snapshot.files index)],
            paceAndSendFileBatches side id snapshot.files
              (index + 1)) := by
        change (if side.syncSessionId ≠ id then _ else _) = _
        rw [if_neg (not_not_intro hSession.symm)]
      rw [hResult]
      apply flooding_pace hSession.symm
      · rw [hSession]
        exact hNonzero
      · refine ⟨rfl, ?_, ?_⟩
        · intro dir hDir
          rcases hDirs dir hDir with
            ⟨creates, deletes, hBatch, hMem⟩
          exact ⟨creates, deletes,
            List.mem_append_left _ hBatch, hMem⟩
        · intro j hj
          rcases Nat.lt_succ_iff_lt_or_eq.mp hj with
            hLess | rfl
          · exact List.mem_append_left _ (hEarlier j hLess)
          · exact List.mem_append_right _
              (List.mem_singleton.mpr rfl)

/- Running any part of a flood on the side. -/
theorem Flooding.run
    (hFlooding : Flooding snapshot sent side)
    {k : ℕ}
    {task : FloodTask}
    (hTask : side.tasks[k]? = some task) :
    let result := runFloodTask snapshot side task
    Flooding snapshot (sent ++ result.1)
      { side with
        tasks := side.tasks.eraseIdx k ++ result.2 } := by
  intro result
  have hMore : ∀ message ∈ sent,
      message ∈ sent ++ result.1 :=
    fun _ hSent => List.mem_append_left _ hSent
  rcases hFlooding with hCovers | ⟨other, hOther, hUnderWay⟩
  · exact Or.inl (hCovers.mono hMore)
  · by_cases hSame : task = other
    · subst hSame
      rcases flooding_run hUnderWay with
        hCovers | ⟨next, hNext, hNextUnderWay⟩
      · exact Or.inl hCovers
      · exact Or.inr ⟨next, List.mem_append_right _ hNext,
          hNextUnderWay⟩
    · refine Or.inr ⟨other, List.mem_append_left _ ?_,
        hUnderWay.prepared.mono hMore, hUnderWay.current⟩
      rcases List.mem_iff_getElem?.mp hOther with ⟨i, hi⟩
      refine List.mem_eraseIdx_iff_getElem?.mpr
        ⟨i, ?_, hi⟩
      rintro rfl
      rw [hTask] at hi
      exact hSame (Option.some.inj hi)

/- A new session begins with a scan. -/
theorem flooding_beginFlood
    {id : ℕ}
    (hMode : side.session.mode = .biDirectional)
    (hNonzero : id ≠ 0) :
    Flooding snapshot sent (beginFlood id side) := by
  have hBroadcasts : canBroadcast side.session.role
      side.session.mode = true := by
    unfold canBroadcast
    rw [hMode]
    exact Bool.or_true _
  unfold beginFlood
  rw [if_pos hBroadcasts]
  exact Or.inr ⟨.scan id,
    List.mem_append_right _ (List.mem_singleton.mpr rfl),
    trivial, fun _ => ⟨rfl, hNonzero⟩⟩

end Floods

------------------------------------------------------------
-- Every Step
------------------------------------------------------------

/- The flood of side `b`, from its connecting on. -/
structure Floods
    (snapshot : Bool → Snapshot)
    (b : Bool)
    (x : Exchange) : Prop where
  mode : (x.side b).session.mode = .biDirectional
  offerSide : (x.side b).session.offerSide = b
  flooding : (x.side b).connected = true →
    Flooding (snapshot b) (x.sent (!b)) (x.side b)

section Steps

variable
  {snapshot : Bool → Snapshot}
  {b c : Bool}
  {x x' : Exchange}

theorem side_setSide_of_ne
    (hOther : c ≠ b)
    (side : Side) :
    (setSide c side x).side b = x.side b := by
  change Function.update x.side c side b = x.side b
  exact Function.update_of_ne (Ne.symm hOther) side x.side

theorem side_setSide_self
    (side : Side) :
    (setSide b side x).side b = side := by
  change Function.update x.side b side b = side
  exact Function.update_self b side x.side

theorem sent_transmit_of_ne
    (hOther : c ≠ b)
    (messages : List Message) :
    (transmit c messages x).sent (!b) = x.sent (!b) := by
  apply Function.update_of_ne
  intro hSame
  exact hOther (Bool.not_inj hSame).symm

/- A step that leaves the side alone. -/
theorem Floods.frame
    (hFloods : Floods snapshot b x)
    (hSide : x'.side b = x.side b)
    (hSent : x'.sent (!b) = x.sent (!b)) :
    Floods snapshot b x' := by
  refine ⟨?_, ?_, ?_⟩
  · rw [hSide]
    exact hFloods.mode
  · rw [hSide]
    exact hFloods.offerSide
  · rw [hSide, hSent]
    exact hFloods.flooding

theorem beginFlood_peers
    (id : ℕ)
    (side : Side) :
    (beginFlood id side).session.mode =
        side.session.mode ∧
      (beginFlood id side).session.offerSide =
        side.session.offerSide := by
  unfold beginFlood
  split
  · exact ⟨rfl, rfl⟩
  · exact ⟨rfl, rfl⟩

/- The side gets a new flood. -/
theorem Floods.setFlood
    (hFloods : Floods snapshot b x)
    {id : ℕ}
    (hNonzero : id ≠ 0)
    (connected : Bool) :
    Floods snapshot b (setSide b
      { beginFlood id (x.side b) with
        connected := connected } x) := by
  have hPeers := beginFlood_peers id (x.side b)
  refine ⟨?_, ?_, ?_⟩
  · rw [side_setSide_self]
    exact hPeers.1.trans hFloods.mode
  · rw [side_setSide_self]
    exact hPeers.2.trans hFloods.offerSide
  · intro _
    rw [side_setSide_self]
    exact flooding_beginFlood hFloods.mode hNonzero

theorem floods_run
    (hFloods : Floods snapshot b x)
    {k : ℕ}
    {found : Snapshot}
    (hFound : found = snapshot c)
    (hStep : runStep c k found x = some x') :
    Floods snapshot b x' := by
  unfold runStep at hStep
  cases hTask : (x.side c).tasks[k]? with
  | none =>
      rw [hTask] at hStep
      cases hStep
  | some task =>
      rw [hTask] at hStep
      cases hStep
      by_cases hOther : c = b
      · subst hOther
        subst hFound
        refine ⟨?_, ?_, ?_⟩
        · change ((setSide c _ x).side c).session.mode = _
          rw [side_setSide_self]
          exact hFloods.mode
        · change
            ((setSide c _ x).side c).session.offerSide = c
          rw [side_setSide_self]
          exact hFloods.offerSide
        · change ((setSide c _ x).side c).connected = true →
            Flooding (snapshot c)
              (Function.update x.sent (!c) _ (!c))
              ((setSide c _ x).side c)
          rw [side_setSide_self, Function.update_self]
          intro hConnected
          exact (hFloods.flooding hConnected).run hTask
      · apply hFloods.frame
        · exact side_setSide_of_ne hOther _
        · exact sent_transmit_of_ne (x := setSide c _ x)
            hOther _

/- The side changes, but its peers and its flood do not. -/
theorem Floods.setSide
    (hFloods : Floods snapshot b x)
    {side : Side}
    (hSide : x'.side b = side)
    (hSent : x'.sent (!b) = x.sent (!b))
    (hMode : side.session.mode = (x.side b).session.mode)
    (hOffer : side.session.offerSide =
      (x.side b).session.offerSide)
    (hFlooding : side.connected = true →
      Flooding (snapshot b) (x.sent (!b)) side) :
    Floods snapshot b x' := by
  refine ⟨?_, ?_, ?_⟩
  · rw [hSide, hMode]
    exact hFloods.mode
  · rw [hSide, hOffer]
    exact hFloods.offerSide
  · rw [hSide, hSent]
    exact hFlooding

/-
  A message changes no session that the flood needs: the
  offering side ignores every other flood, and the answering
  side is left alone.
-/
theorem receive_keeps_flood
    (hFloods : Floods snapshot b x)
    {message : Message}
    (hAlone : b = false → ∀ id fileCount dirCount,
      message = .syncBegin id fileCount dirCount →
        ∀ task ∈ (x.side b).tasks, ¬task.NeedsSession) :
    (receive (x.side b) message).syncSessionId =
        (x.side b).syncSessionId ∨
      (x.side b).syncSessionId = 0 ∨
      ∀ task ∈ (x.side b).tasks, ¬task.NeedsSession := by
  by_cases hZero : (x.side b).syncSessionId = 0
  · exact Or.inr (Or.inl hZero)
  by_cases hBegin : ∃ id fileCount dirCount,
      message = .syncBegin id fileCount dirCount
  · rcases hBegin with ⟨id, fileCount, dirCount, hBegin⟩
    cases b with
    | true =>
        exact Or.inl (receive_syncSessionId _ _
          (fun _ _ _ _ => ⟨hZero, hFloods.offerSide⟩))
    | false =>
        exact Or.inr (Or.inr
          (hAlone rfl id fileCount dirCount hBegin))
  · exact Or.inl (receive_syncSessionId _ _
      (fun id fileCount dirCount hEq =>
        (hBegin ⟨id, fileCount, dirCount, hEq⟩).elim))

/- A message or an acknowledgement for the side. -/
theorem floods_deliver
    (hFloods : Floods snapshot b x)
    {newId : ℕ}
    (hUndisturbed : Undisturbed b x (.deliver c newId))
    (hStep : deliverStep c newId x = some x') :
    Floods snapshot b x' := by
  unfold deliverStep at hStep
  cases hChannel : x.channel c with
  | nil =>
      rw [hChannel] at hStep
      cases hStep
  | cons wire rest =>
      rw [hChannel] at hStep
      by_cases hOther : c = b
      · subst hOther
        rcases hUndisturbed rfl with ⟨hNonzero, hAlone⟩
        cases wire with
        | message message =>
            cases hStep
            have hFlood := receive_flood (x.side c) message
            have hPeers := receive_peers (x.side c) message
            have hLeftAlone : c = false →
                ∀ id fileCount dirCount,
                  message = .syncBegin id fileCount dirCount →
                    ∀ task ∈ (x.side c).tasks,
                      ¬task.NeedsSession := by
              intro hAnswers id files dirs hBegin
              apply hAlone hAnswers id files dirs rest
              rw [hChannel, hBegin]
            have hSession := receive_keeps_flood hFloods
              hLeftAlone
            refine hFloods.setSide (side_setSide_self _)
              rfl hPeers.1 hPeers.2 ?_
            · intro hConnected
              rw [hFlood.2] at hConnected
              apply (hFloods.flooding hConnected).mono
              · exact fun _ hSent => hSent
              · intro task hTask
                rw [hFlood.1]
                exact hTask
              · exact hSession
        | ack ack =>
            cases hStep
            by_cases hStale :
                ack.sessionId ≠ (x.side c).syncSessionId
            · have hSame : handleSyncAck ack newId (x.side c) =
                  (false, x.side c) := if_pos hStale
              rw [hSame]
              exact hFloods.setSide (side_setSide_self _)
                rfl rfl rfl hFloods.flooding
            · have hFresh : handleSyncAck ack newId (x.side c) =
                  (true, ((x.side c).setSyncSessionId
                    newId).post (.scan newId)) :=
                if_neg hStale
              rw [hFresh]
              refine hFloods.setSide (side_setSide_self _)
                rfl rfl rfl ?_
              intro _
              exact Or.inr ⟨.scan newId,
                List.mem_append_right _
                  (List.mem_singleton.mpr rfl),
                trivial, fun _ => ⟨rfl, hNonzero⟩⟩
      · cases wire with
        | message message =>
            cases hStep
            apply hFloods.frame
            · exact side_setSide_of_ne hOther _
            · rfl
        | ack ack =>
            cases hStep
            apply hFloods.frame
            · exact side_setSide_of_ne hOther _
            · rfl

theorem floods_timeout
    (hFloods : Floods snapshot b x)
    (hUndisturbed : Undisturbed b x (.timeout c))
    (hStep : timeoutStep c x = some x') :
    Floods snapshot b x' := by
  unfold timeoutStep at hStep
  cases hFired : (x.side c).fired with
  | nil =>
      rw [hFired] at hStep
      cases hStep
  | cons id rest =>
      rw [hFired] at hStep
      cases hStep
      by_cases hOther : c = b
      · subst hOther
        by_cases hStale : (x.side c).syncSessionId ≠ id
        · have hSame : fireTimeout id
              { x.side c with fired := rest } =
                (none, { x.side c with fired := rest }) :=
            if_pos hStale
          rw [hSame]
          exact hFloods.setSide (side_setSide_self _)
            rfl rfl rfl hFloods.flooding
        · have hEnds : fireTimeout id
              { x.side c with fired := rest } =
                (some ⟨id, (x.side c).receivedFiles,
                    (x.side c).receivedDirs⟩,
                  Side.setSyncSessionId 0
                    { x.side c with fired := rest }) :=
            if_neg hStale
          rw [hEnds]
          refine hFloods.setSide (side_setSide_self _)
            rfl rfl rfl ?_
          intro hConnected
          apply (hFloods.flooding hConnected).mono
          · exact fun _ hSent => hSent
          · exact fun _ hTask => hTask
          · apply Or.inr
            apply Or.inr
            apply hUndisturbed rfl
            rw [hFired, not_not.mp hStale]
            rfl
      · apply hFloods.frame
        · exact side_setSide_of_ne hOther _
        · rfl

/- Changing only when a timeout runs changes no flood. -/
theorem Floods.setTimers
    (hFloods : Floods snapshot b x)
    {timer : Option ℕ}
    {fired refreshes : List ℕ} :
    Floods snapshot b (FloodExchange.setSide c
      { x.side c with
        timer := timer
        fired := fired
        refreshes := refreshes } x) := by
  by_cases hOther : c = b
  · subst hOther
    exact hFloods.setSide (side_setSide_self _)
      rfl rfl rfl hFloods.flooding
  · apply hFloods.frame
    · exact side_setSide_of_ne hOther _
    · rfl

theorem floods_step
    (hFloods : Floods snapshot b x)
    {event : Event}
    (hFinds : FindsSnapshot snapshot event)
    (hUndisturbed : Undisturbed b x event)
    (hStep : step x event = some x') :
    Floods snapshot b x' := by
  cases event with
  | connect c id =>
      simp only [step] at hStep
      split at hStep
      · cases hStep
      · cases hStep
        by_cases hOther : c = b
        · subst hOther
          exact hFloods.setFlood (hUndisturbed rfl) true
        · exact hFloods.frame
            (side_setSide_of_ne hOther _) rfl
  | reconcile c id =>
      simp only [step] at hStep
      split at hStep
      · cases hStep
        by_cases hOther : c = b
        · subst hOther
          exact hFloods.setFlood (hUndisturbed rfl) _
        · exact hFloods.frame
            (side_setSide_of_ne hOther _) rfl
      · cases hStep
  | run c k found => exact floods_run hFloods hFinds hStep
  | broadcast c batch =>
      cases hStep
      refine ⟨hFloods.mode, hFloods.offerSide, ?_⟩
      intro hConnected
      apply (hFloods.flooding hConnected).mono
      · intro message hSent
        change message ∈ Function.update x.sent (!c) _ (!b)
        by_cases hOther : c = b
        · subst hOther
          rw [Function.update_self]
          exact List.mem_append_left _ hSent
        · rw [Function.update_of_ne
            (fun hSame => hOther (Bool.not_inj hSame).symm)]
          exact hSent
      · exact fun _ hTask => hTask
      · exact Or.inl rfl
  | deliver c newId =>
      exact floods_deliver hFloods hUndisturbed hStep
  | refresh c =>
      change refreshStep c x = some x' at hStep
      unfold refreshStep at hStep
      split at hStep
      · cases hStep
      · cases hStep
        unfold runRefresh
        split
        · exact hFloods.setTimers
        · exact hFloods.setTimers
  | expire c =>
      change expireStep c x = some x' at hStep
      unfold expireStep at hStep
      split at hStep
      · cases hStep
      · cases hStep
        exact hFloods.setTimers
  | timeout c =>
      exact floods_timeout hFloods hUndisturbed hStep

end Steps

/-
  In a run that leaves the flood of a connected side alone,
  the side has announced its whole snapshot once the flood
  has ended.
-/
theorem covers_of_run
    {role : Bool → SyncRole}
    {snapshot : Bool → Snapshot}
    {events : List Event}
    {x : Exchange}
    (hRun : Transition.run step (start role .biDirectional)
      events = some x)
    (hFinds : ∀ event ∈ events,
      FindsSnapshot snapshot event)
    {b : Bool}
    (hMeets : Transition.Meets step (Undisturbed b)
      (start role .biDirectional) events)
    (hConnected : (x.side b).connected = true)
    (hEnded : (x.side b).tasks = []) :
    Covers (x.sent (!b)) (snapshot b) := by
  have hStart : Floods snapshot b
      (start role .biDirectional) := by
    refine ⟨rfl, rfl, ?_⟩
    intro hConnected
    cases hConnected
  have hStep : ∀ x event x', Floods snapshot b x →
      FindsSnapshot snapshot event ∧ Undisturbed b x event →
      step x event = some x' → Floods snapshot b x' :=
    fun _ _ _ hFloods hEvent hStep =>
      floods_step hFloods hEvent.1 hEvent.2 hStep
  have hFloods := Transition.invariant_of_run hStep hStart
    (Transition.meets_and hFinds hMeets) hRun
  rcases hFloods.flooding hConnected with
    hCovers | ⟨task, hTask, hUnderWay⟩
  · exact hCovers
  · rw [hEnded] at hTask
    cases hTask

section Example

/- Each side holds one file that the other one lacks. -/
def offlineFiles : Bool → Snapshot
| true => ⟨[⟨"offer.txt", "h", 0, 1⟩], []⟩
| false => ⟨[⟨"answer.txt", "h", 0, 1⟩], []⟩

def bothBiDirectional : Exchange :=
  start (fun _ => .source) .biDirectional

/- The answering side floods before it hears of the other. -/
def floodedInTurn : List Event :=
  [.connect true 1, .connect false 2,
    .run false 0 (offlineFiles false),
    .run false 0 (offlineFiles false),
    .run false 0 (offlineFiles false),
    .run true 0 (offlineFiles true),
    .run true 0 (offlineFiles true),
    .deliver false 3,
    .run true 0 (offlineFiles true)]

/- The answering side hears of the other flood first. -/
def yieldedFlood : List Event :=
  [.connect true 1, .run true 0 (offlineFiles true),
    .run true 0 (offlineFiles true), .connect false 2,
    .deliver false 3, .run false 0 (offlineFiles false),
    .run true 0 (offlineFiles true)]

theorem covers_of_floodedInTurn :
    ∃ x, Transition.run step bothBiDirectional
        floodedInTurn = some x ∧
      ∀ b, Covers (x.sent (!b)) (offlineFiles b) := by
  have hRun : Transition.run step
      (start (fun _ => .source) .biDirectional)
      floodedInTurn = some _ := rfl
  refine ⟨_, hRun, fun b => ?_⟩
  apply covers_of_run hRun
  · intro event hEvent
    simp only [floodedInTurn, List.mem_cons,
      List.not_mem_nil, or_false] at hEvent
    rcases hEvent with rfl | rfl | rfl | rfl | rfl | rfl |
      rfl | rfl | rfl <;> trivial
  · refine .cons (fun _ => Nat.one_ne_zero) rfl ?_
    refine .cons (fun _ => Nat.succ_ne_zero 1) rfl ?_
    refine .cons trivial rfl ?_
    refine .cons trivial rfl ?_
    refine .cons trivial rfl ?_
    refine .cons trivial rfl ?_
    refine .cons trivial rfl ?_
    refine .cons (fun hSide => ⟨Nat.succ_ne_zero 2, ?_⟩)
      rfl (.cons trivial rfl trivial)
    rintro rfl id files dirs rest hChannel task hTask
    cases hTask
  · cases b <;> rfl
  · cases b <;> rfl

/-
  The offering side's `sync_begin` reaches the answering side
  before its scan: both floods end, and the file that only
  the answering side has was never announced.
-/
theorem not_covers_of_yieldedFlood :
    ¬∀ (role : Bool → SyncRole) (snapshot : Bool → Snapshot)
        (events : List Event) (x : Exchange),
      Transition.run step (start role .biDirectional)
          events = some x →
        (∀ event ∈ events, FindsSnapshot snapshot event) →
        (∀ b, (x.side b).connected = true ∧
          (x.side b).tasks = []) →
        ∀ b, Covers (x.sent (!b)) (snapshot b) := by
  intro hAlways
  have hCovers := hAlways (fun _ => .source) offlineFiles
    yieldedFlood _ rfl
    (by
      intro event hEvent
      simp only [yieldedFlood, List.mem_cons,
        List.not_mem_nil, or_false] at hEvent
      rcases hEvent with rfl | rfl | rfl | rfl | rfl | rfl |
        rfl <;> trivial)
    (by
      intro b
      cases b <;> exact ⟨rfl, rfl⟩)
    false
  rcases hCovers.files _ (List.mem_singleton.mpr rfl) with
    ⟨batch, hBatch, hMem⟩
  cases hBatch

end Example

end FloodExchange

end VeritasSync
