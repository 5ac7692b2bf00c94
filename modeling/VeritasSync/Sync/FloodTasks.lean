import VeritasSync.P2p.BroadcastManager

/-
  The tasks that one whole flood puts on the receiver's
  worker pool.

  Main declarations:
    * `SyncHandler.floodTasks`, `SyncHandler.runTasks`
    * `SyncHandler.postedTasks_of_nonempty`
-/

namespace VeritasSync

namespace SyncHandler

open BroadcastManager SyncSession

------------------------------------------------------------
-- Handling A Flood
------------------------------------------------------------

/-
  What a receiver posts while it handles the messages of one
  flood in the order in which they were sent.
-/
def postedTasks
    (sessionId : ℕ)
    (files : List FileInfo)
    (dirs : List String)
    (start : PeerSession) : List Task :=
  ((floodMessages sessionId files dirs).foldl
    MessageRouter.dispatch { start with posted := [] }).posted

def dirTasks (dirs : List String) : List Task :=
  if dirs = [] then [] else [.dirBatch dirs []]

def updateTasks (batches : List (List FileInfo)) :
    List Task :=
  batches.map .updateBatch

/- The collected directories, without repetitions. -/
def collectedDirs (dirs : List String) : List String :=
  dirs.foldl (fun dirs dir => dirs.insert dir) []

/- One task for each batch, and the completion. -/
def floodTasks
    (files : List FileInfo)
    (dirs : List String) : List Task :=
  dirTasks dirs ++
    updateTasks (batches fileUpdateBatchSize files) ++
      [.floodComplete files (collectedDirs dirs)]

/- The worker pool runs tasks in some order. -/
def runTasks
    (H : Host)
    (peerId : String)
    (tasks : List Task)
    (s : LocalState) : LocalState :=
  tasks.foldl (fun s task => runTask H peerId task s) s

------------------------------------------------------------
-- Gathering
------------------------------------------------------------

/- The session of a flood that is still being gathered. -/
structure Gathering
    (p : PeerSession)
    (acc : FloodSyncAccumulator) : Prop where
  receives : canReceive p.role p.mode = true
  nonzero : p.sessionId ≠ 0
  accumulator : p.accumulator = some acc
  session : acc.sessionId = p.sessionId
  running : acc.completed = false

/- Every entry of the flood is there. -/
def Full (acc : FloodSyncAccumulator) : Prop :=
  acc.expectedFiles ≤ acc.receivedFiles ∧
    acc.expectedDirs ≤ acc.receivedDirs

section Dispatch

variable
  {p : PeerSession}
  {acc : FloodSyncAccumulator}

/- A gathered batch that fills the accumulator. -/
theorem checkInSession_of_full
    (hGathering : Gathering p acc)
    (hFull : Full acc) :
    checkInSession p =
      ({ p with accumulator := none }.post
        (.floodComplete acc.remoteFiles acc.remoteDirs)) := by
  unfold checkInSession checkAndRunCompletion
  rw [if_pos hGathering.nonzero, hGathering.accumulator]
  dsimp only
  rw [hGathering.running, if_neg Bool.false_ne_true,
    if_neg (Nat.not_lt.mpr hFull.1),
    if_neg (Nat.not_lt.mpr hFull.2)]

theorem checkInSession_of_not_full
    (hGathering : Gathering p acc)
    (hFull : ¬Full acc) :
    checkInSession p = p := by
  unfold checkInSession checkAndRunCompletion
  rw [if_pos hGathering.nonzero, hGathering.accumulator]
  dsimp only
  rw [hGathering.running, if_neg Bool.false_ne_true]
  split
  · rfl
  next hFiles =>
    split
    · rfl
    next hDirs =>
      exact (hFull ⟨Nat.not_lt.mp hFiles,
        Nat.not_lt.mp hDirs⟩).elim

theorem accumulate_of_gathering
    (hGathering : Gathering p acc)
    (update : FloodSyncAccumulator → FloodSyncAccumulator) :
    accumulate update p =
      { p with accumulator := some (update acc) } := by
  unfold accumulate
  rw [hGathering.accumulator]
  dsimp only
  rw [if_pos ⟨hGathering.nonzero, hGathering.session⟩]

/- The session after one more batch was gathered. -/
theorem Gathering.next
    (hGathering : Gathering p acc)
    (acc' : FloodSyncAccumulator)
    (hSession : acc'.sessionId = acc.sessionId)
    (hRunning : acc'.completed = acc.completed)
    (task : Task) :
    Gathering
      ({ p with accumulator := some acc' }.post task)
      acc' where
  receives := hGathering.receives
  nonzero := hGathering.nonzero
  accumulator := rfl
  session := hSession.trans hGathering.session
  running := hRunning.trans hGathering.running

theorem dispatch_fileUpdates
    (hGathering : Gathering p acc)
    {files : List FileInfo}
    (hNamed : namedFiles files = files) :
    MessageRouter.dispatch p (.fileUpdateBatch files) =
      checkInSession
        ({ p with
            accumulator := some (addFiles files acc) }.post
          (.updateBatch files)) := by
  unfold MessageRouter.dispatch
  rw [if_pos hGathering.receives]
  dsimp only
  unfold handleFileUpdateBatch
  rw [hNamed]
  dsimp only
  rw [accumulate_of_gathering hGathering]

theorem dispatch_dirs
    (hGathering : Gathering p acc)
    (creates deletes : List String) :
    MessageRouter.dispatch p (.dirBatch creates deletes) =
      checkInSession
        ({ p with
            accumulator :=
              some (addDirs creates deletes acc) }.post
          (.dirBatch creates deletes)) := by
  unfold MessageRouter.dispatch
  rw [if_pos hGathering.receives]
  dsimp only
  unfold handleDirBatch
  rw [accumulate_of_gathering hGathering]

end Dispatch

/- The message of one file batch. -/
def updateMessages (batches : List (List FileInfo)) :
    List Message :=
  batches.map .fileUpdateBatch

/-
  Only the last file batch fills the accumulator: until then
  its own entries are missing.
-/
theorem posted_updateMessages
    {batches : List (List FileInfo)}
    {p : PeerSession}
    {acc : FloodSyncAccumulator}
    (hGathering : Gathering p acc)
    (hSome : batches ≠ [])
    (hBatches : ∀ batch ∈ batches,
      batch ≠ [] ∧ namedFiles batch = batch)
    (hFiles : acc.receivedFiles + batches.flatten.length =
      acc.expectedFiles)
    (hDirs : acc.expectedDirs ≤ acc.receivedDirs) :
    ((updateMessages batches).foldl MessageRouter.dispatch
        p).posted =
      p.posted ++ updateTasks batches ++
        [.floodComplete
          (acc.remoteFiles ++ batches.flatten)
          acc.remoteDirs] := by
  induction batches generalizing p acc with
  | nil => exact (hSome rfl).elim
  | cons batch rest ih =>
      rcases hBatches batch List.mem_cons_self with
        ⟨_, hNamed⟩
      have hNext : Gathering
          ({ p with
              accumulator :=
                some (addFiles batch acc) }.post
            (.updateBatch batch))
          (addFiles batch acc) :=
        hGathering.next (addFiles batch acc) rfl rfl _
      have hLength : acc.receivedFiles + batch.length +
          rest.flatten.length = acc.expectedFiles := by
        rw [List.flatten_cons, List.length_append,
          ← Nat.add_assoc] at hFiles
        exact hFiles
      change ((updateMessages rest).foldl
        MessageRouter.dispatch
          (MessageRouter.dispatch p
            (.fileUpdateBatch batch))).posted = _
      rw [dispatch_fileUpdates hGathering hNamed]
      by_cases hLast : rest = []
      · subst hLast
        have hFull : Full (addFiles batch acc) := by
          refine ⟨?_, hDirs⟩
          change acc.expectedFiles ≤
            acc.receivedFiles + batch.length
          rw [← hLength]
          simp
        rw [checkInSession_of_full hNext hFull]
        simp [updateMessages, updateTasks, PeerSession.post,
          addFiles]
      · rcases List.exists_cons_of_ne_nil hLast with
          ⟨second, others, hRest⟩
        have hMore : 0 < rest.flatten.length := by
          have hSecond := (hBatches second (by
            rw [hRest]
            exact List.mem_cons_of_mem _
              List.mem_cons_self)).1
          rw [hRest, List.flatten_cons, List.length_append]
          have := List.length_pos_iff.mpr hSecond
          omega
        have hOpen : ¬Full (addFiles batch acc) := by
          intro hFull
          have hReached : acc.expectedFiles ≤
            acc.receivedFiles + batch.length := hFull.1
          omega
        rw [checkInSession_of_not_full hNext hOpen,
          ih hNext hLast
            (fun other hMem =>
              hBatches other (List.mem_cons_of_mem _ hMem))
            hLength hDirs]
        simp [updateTasks, PeerSession.post, addFiles]

------------------------------------------------------------
-- The Whole Flood
------------------------------------------------------------

theorem ne_nil_of_mem_batches
    {α : Type}
    {size : ℕ}
    (hSize : 0 < size)
    {items batch : List α}
    (hBatch : batch ∈ batches size items) :
    batch ≠ [] := by
  rcases List.mem_map.mp hBatch with ⟨i, hRange, rfl⟩
  have hCount := List.mem_range.mp hRange
  have hBefore : i * size < items.length := by
    rw [Nat.lt_div_iff_mul_lt hSize] at hCount
    omega
  rw [← List.length_pos_iff, List.length_take,
    List.length_drop]
  omega

theorem batches_ne_nil
    {files : List FileInfo}
    (hFiles : files ≠ []) :
    batches fileUpdateBatchSize files ≠ [] := by
  intro hNone
  have hAll := flatten_batches fileUpdateBatchSize_pos files
  rw [hNone] at hAll
  exact hFiles hAll.symm

theorem namedFiles_of_named
    {files : List FileInfo}
    (hNamed : ∀ info ∈ files, info.path ≠ "") :
    namedFiles files = files := by
  unfold namedFiles
  rw [List.filter_eq_self]
  intro info hInfo
  simpa using hNamed info hInfo

theorem batches_named
    {files : List FileInfo}
    (hNamed : ∀ info ∈ files, info.path ≠ "") :
    ∀ batch ∈ batches fileUpdateBatchSize files,
      batch ≠ [] ∧ namedFiles batch = batch := by
  intro batch hBatch
  refine ⟨ne_nil_of_mem_batches fileUpdateBatchSize_pos
    hBatch, namedFiles_of_named ?_⟩
  intro info hInfo
  apply hNamed
  rw [← flatten_batches fileUpdateBatchSize_pos files]
  exact List.mem_flatten.mpr ⟨batch, hBatch, hInfo⟩

/- An empty snapshot reaches the receiver in no way. -/
theorem postedTasks_nil
    (sessionId : ℕ)
    (start : PeerSession) :
    postedTasks sessionId [] [] start = [] :=
  rfl

/- The accumulator that an announcement opens. -/
def openedAccumulator
    (sessionId expectedFiles expectedDirs : ℕ) :
    FloodSyncAccumulator where
  sessionId := sessionId
  remoteFiles := []
  remoteDirs := []
  expectedFiles := expectedFiles
  expectedDirs := expectedDirs
  receivedFiles := 0
  receivedDirs := 0
  completed := false

/- The session once the flood has been announced. -/
def opened
    (sessionId expectedFiles expectedDirs : ℕ)
    (start : PeerSession) : PeerSession :=
  { start with
    sessionId := sessionId
    accumulator := some (openedAccumulator sessionId
      expectedFiles expectedDirs)
    posted := [] }

theorem dispatch_syncBegin
    {sessionId expectedFiles expectedDirs : ℕ}
    {start : PeerSession}
    (hSome : ¬(expectedFiles = 0 ∧ expectedDirs = 0))
    (hReceives : canReceive start.role start.mode = true)
    (hAccepted : start.sessionId = 0 ∨
      start.offerSide = false) :
    MessageRouter.dispatch { start with posted := [] }
        (.syncBegin sessionId expectedFiles expectedDirs) =
      opened sessionId expectedFiles expectedDirs start := by
  have hTaken : ¬(start.sessionId ≠ 0 ∧
      start.offerSide = true) := by
    rintro ⟨hOwn, hOffer⟩
    rcases hAccepted with hZero | hAnswers
    · exact hOwn hZero
    · rw [hAnswers] at hOffer
      cases hOffer
  unfold MessageRouter.dispatch
  dsimp only
  rw [if_pos hReceives]
  unfold handleSyncBegin beginFloodSyncAccumulation
  dsimp only
  rw [if_neg hTaken, if_neg hSome]
  rfl

theorem gathering_opened
    {sessionId expectedFiles expectedDirs : ℕ}
    {start : PeerSession}
    (hNonzero : sessionId ≠ 0)
    (hReceives : canReceive start.role start.mode = true) :
    Gathering
      (opened sessionId expectedFiles expectedDirs start)
      (openedAccumulator sessionId expectedFiles
        expectedDirs) :=
  ⟨hReceives, hNonzero, rfl, rfl, rfl⟩

/-
  A flood of a non-empty snapshot posts its batches and, as
  the last task, the completion with the whole snapshot.
-/
theorem postedTasks_of_nonempty
    {sessionId : ℕ}
    {files : List FileInfo}
    {dirs : List String}
    {start : PeerSession}
    (hSome : files ≠ [] ∨ dirs ≠ [])
    (hNamed : ∀ info ∈ files, info.path ≠ "")
    (hNonzero : sessionId ≠ 0)
    (hReceives : canReceive start.role start.mode = true)
    (hAccepted : start.sessionId = 0 ∨
      start.offerSide = false) :
    postedTasks sessionId files dirs start =
      floodTasks files dirs := by
  have hAnnounced :
      ¬(files.isEmpty && dirs.isEmpty) = true := by
    simp only [Bool.and_eq_true, List.isEmpty_iff, not_and]
    intro hNoFiles
    rcases hSome with hFiles | hDirs
    · exact (hFiles hNoFiles).elim
    · exact hDirs
  have hCounts : ¬(files.length = 0 ∧ dirs.length = 0) := by
    simpa using hAnnounced
  have hOpened : Gathering
      (opened sessionId files.length dirs.length start) _ :=
    gathering_opened hNonzero hReceives
  have hBatches := batches_named hNamed
  have hFlatten := flatten_batches fileUpdateBatchSize_pos
    files
  have hUpdates : (broadcastFileUpdatesBatch files).map
      Batch.message =
        updateMessages (batches fileUpdateBatchSize files) := by
    unfold broadcastFileUpdatesBatch updateMessages
    rw [List.map_map]
    rfl
  unfold postedTasks floodMessages floodBatches
  rw [if_neg hAnnounced, List.foldl_cons,
    dispatch_syncBegin hCounts hReceives hAccepted,
    List.map_append, hUpdates]
  unfold floodTasks dirTasks broadcastDirChangesBatch
  by_cases hDirs : dirs = []
  · subst hDirs
    have hFiles : files ≠ [] := by
      rcases hSome with hFiles | hNone
      · exact hFiles
      · exact (hNone rfl).elim
    change PeerSession.posted
      (List.foldl _ _ (updateMessages _)) = _
    rw [posted_updateMessages hOpened (batches_ne_nil hFiles)
      hBatches (by rw [hFlatten]; exact Nat.zero_add _)
      (Nat.le_refl 0), hFlatten]
    rfl
  · have hNotEmpty : ¬(dirs.isEmpty && List.isEmpty
        ([] : List String)) = true := by
      simpa using hDirs
    rw [if_neg hNotEmpty, if_neg hDirs]
    change PeerSession.posted (List.foldl _
      (MessageRouter.dispatch _ (.dirBatch dirs []))
      (updateMessages _)) = _
    rw [dispatch_dirs hOpened]
    have hNext := hOpened.next
      (addDirs dirs [] (openedAccumulator sessionId
        files.length dirs.length)) rfl rfl
      (.dirBatch dirs [])
    by_cases hFiles : files = []
    · subst hFiles
      have hFull : Full (addDirs dirs []
          (openedAccumulator sessionId 0 dirs.length)) := by
        refine ⟨Nat.le_refl 0, ?_⟩
        change dirs.length ≤ 0 + (dirs.length + 0)
        omega
      rw [checkInSession_of_full hNext hFull]
      rfl
    · have hOpen : ¬Full (addDirs dirs []
          (openedAccumulator sessionId files.length
            dirs.length)) := by
        intro hFull
        exact hFiles (List.length_eq_zero_iff.mp
          (Nat.le_zero.mp hFull.1))
      rw [checkInSession_of_not_full hNext hOpen,
        posted_updateMessages hNext (batches_ne_nil hFiles)
          hBatches (by rw [hFlatten]; exact Nat.zero_add _)
          (by
            change dirs.length ≤ 0 + (dirs.length + 0)
            omega), hFlatten]
      rfl

end SyncHandler

end VeritasSync
