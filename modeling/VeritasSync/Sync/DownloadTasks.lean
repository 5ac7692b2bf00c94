import VeritasSync.Sync.Assembly

/-
  The table of unfinished downloads that survives a restart:
  how it is written, how it is read back, and when the
  program reads it.

  Main declarations:
    * `TransferManager.Downloads`
    * `TransferManager.persistDownloadState`
    * `TransferManager.loadDownloadState`
    * `TransferManager.cleanupStaleBuffers`
    * `TransferManager.startUp`
    * `TransferManager.restartRestores_iff`
-/

namespace VeritasSync

namespace TransferManager

------------------------------------------------------------
-- Rows
------------------------------------------------------------

/-
  One row of the table `download_tasks`.  Its path is the
  key of the table.
-/
structure DownloadTaskRecord where
  peerId : String
  totalChunks : ℕ
  bitmapData : List (BitVec 8)
  expectedHash : String
  expectedSize : ℕ
  tempPath : String
  lastActive : ℕ
deriving DecidableEq, Repr

abbrev TaskTable := AList (fun _ : String => DownloadTaskRecord)

def serializeBitmap
    (bitmap : List Bool) : List (BitVec 8) :=
  if bitmap.isEmpty then [] else Bitmap.pack bitmap

def deserializeBitmap
    (data : List (BitVec 8))
    (count : ℕ) : List Bool :=
  Bitmap.unpack data count

theorem deserializeBitmap_serializeBitmap
    (bitmap : List Bool) :
    deserializeBitmap (serializeBitmap bitmap)
      bitmap.length = bitmap := by
  unfold serializeBitmap deserializeBitmap
  split
  next hEmpty =>
    rw [List.isEmpty_iff] at hEmpty
    subst hEmpty
    rfl
  next => exact Bitmap.unpack_pack bitmap

/- The row of an entry. -/
def taskOf
    (now : ℕ)
    (recv : ReceivingFile) : DownloadTaskRecord where
  peerId := recv.peerId
  totalChunks := recv.totalChunks
  bitmapData := serializeBitmap recv.receivedBitmap
  expectedHash := recv.expectedHash
  expectedSize := recv.expectedSize
  tempPath := recv.tempPath
  lastActive := now

/- The entry that a row is read back into. -/
def rebuild (task : DownloadTaskRecord) : ReceivingFile :=
  let bitmap :=
    deserializeBitmap task.bitmapData task.totalChunks
  { tempPath := task.tempPath
    totalChunks := task.totalChunks
    receivedChunks := bitmap.count true
    receivedBitmap := bitmap
    peerId := task.peerId
    expectedHash := task.expectedHash
    expectedSize := task.expectedSize
    busy := false
    streamOpen := false }

/- A row keeps all of an entry that a restart can keep. -/
theorem rebuild_taskOf
    {recv : ReceivingFile}
    (hCounted : Counted recv)
    (now : ℕ) :
    rebuild (taskOf now recv) =
      { recv with busy := false, streamOpen := false } := by
  have hBits : deserializeBitmap
      (serializeBitmap recv.receivedBitmap)
      recv.totalChunks = recv.receivedBitmap := by
    rw [← hCounted.size]
    exact deserializeBitmap_serializeBitmap _
  simp only [rebuild, taskOf, hBits, ← hCounted.count]

/- A rebuilt entry counts its bits. -/
theorem counted_rebuild (task : DownloadTaskRecord) :
    Counted (rebuild task) where
  size := by
    simp [rebuild, deserializeBitmap, Bitmap.unpack]
  count := rfl

------------------------------------------------------------
-- The Table
------------------------------------------------------------

/-
  The node, its table of downloads, and whether the transfer
  manager has a state manager with a database.
-/
structure Downloads where
  node : LocalState
  tasks : TaskTable
  attached : Bool

/- No file is found under the empty name. -/
def tempFound
    (H : Host)
    (disk : Disk)
    (tempPath : String) : Bool :=
  tempPath != "" &&
    Filesystem.exists? disk (H.locate tempPath)

def persistDownloadState
    (H : Host)
    (m : Downloads) : Downloads :=
  if !m.attached then
    m
  else
    { m with
      tasks := m.node.receiving.entries.foldl
        (fun tasks recv =>
          tasks.insert recv.1 (taskOf H.now recv.2))
        m.tasks }

/- Read one row; a row without its file goes. -/
def loadTask
    (H : Host)
    (disk : Disk)
    (m : Downloads)
    (path : String)
    (task : DownloadTaskRecord) : Downloads :=
  if !tempFound H disk task.tempPath then
    { m with tasks := m.tasks.erase path }
  else
    { m with node := setReceiving path (rebuild task) m.node }

def loadDownloadState
    (H : Host)
    (m : Downloads) : Downloads :=
  if !m.attached then
    m
  else
    m.tasks.entries.foldl
      (fun m' task =>
        loadTask H m.node.disk m' task.1 task.2) m

section Table

variable
  {H : Host}
  {m : Downloads}

theorem lookup_tasks_persist
    (hAttached : m.attached = true)
    (path : String) :
    (persistDownloadState H m).tasks.lookup path =
      match m.node.receiving.lookup path with
      | some recv => some (taskOf H.now recv)
      | none => m.tasks.lookup path := by
  simp only [persistDownloadState, hAttached, Bool.not_true,
    Bool.false_eq_true, if_false]
  rw [AList.view_foldl
    (fun (tasks : TaskTable) path recv =>
      tasks.insert path (taskOf H.now recv))
    (fun tasks path => tasks.lookup path)
    (fun _ recv _ => some (taskOf H.now recv))
    (fun tasks _ _ => AList.lookup_insert tasks)
    (fun _ _ _ _ hOther => AList.lookup_insert_ne hOther)
    m.node.receiving m.tasks path]
  cases m.node.receiving.lookup path with
  | none => rfl
  | some recv => rfl

/- A row whose file exists becomes an entry again. -/
theorem lookup_receiving_load
    (hAttached : m.attached = true)
    (path : String) :
    (loadDownloadState H m).node.receiving.lookup path =
      match m.tasks.lookup path with
      | some task =>
          if tempFound H m.node.disk task.tempPath then
            some (rebuild task)
          else
            m.node.receiving.lookup path
      | none => m.node.receiving.lookup path := by
  simp only [loadDownloadState, hAttached, Bool.not_true,
    Bool.false_eq_true, if_false]
  rw [AList.view_foldl (loadTask H m.node.disk)
    (fun m' path => m'.node.receiving.lookup path)
    (fun _ task old =>
      if tempFound H m.node.disk task.tempPath then
        some (rebuild task)
      else
        old) ?_ ?_ m.tasks m path]
  · cases m.tasks.lookup path with
    | none => rfl
    | some task => rfl
  · intro m' key task
    unfold loadTask
    cases hFound : tempFound H m.node.disk task.tempPath with
    | true => exact AList.lookup_insert _
    | false => rfl
  · intro m' key task other hOther
    unfold loadTask
    cases hFound : tempFound H m.node.disk task.tempPath with
    | true => exact AList.lookup_insert_ne hOther
    | false => rfl

/- Reading the table back only removes rows. -/
theorem lookup_tasks_load
    (hAttached : m.attached = true)
    (path : String) :
    (loadDownloadState H m).tasks.lookup path =
      match m.tasks.lookup path with
      | some task =>
          if tempFound H m.node.disk task.tempPath then
            some task
          else
            none
      | none => none := by
  simp only [loadDownloadState, hAttached, Bool.not_true,
    Bool.false_eq_true, if_false]
  rw [AList.view_foldl (loadTask H m.node.disk)
    (fun m' path => m'.tasks.lookup path)
    (fun _ task old =>
      if tempFound H m.node.disk task.tempPath then
        old
      else
        none) ?_ ?_ m.tasks m path]
  · cases m.tasks.lookup path with
    | none => rfl
    | some task => rfl
  · intro m' key task
    unfold loadTask
    cases hFound : tempFound H m.node.disk task.tempPath with
    | true => rfl
    | false => exact AList.lookup_erase _ _
  · intro m' key task other hOther
    unfold loadTask
    cases hFound : tempFound H m.node.disk task.tempPath with
    | true => rfl
    | false => exact AList.lookup_erase_ne hOther

/- What no row changes, reading the table back keeps. -/
theorem load_keeps
    {α : Type}
    (view : Downloads → α)
    (hView : ∀ disk m path task,
      view (loadTask H disk m path task) = view m) :
    view (loadDownloadState H m) = view m := by
  unfold loadDownloadState
  split
  · rfl
  · have hRows : ∀ (rows : List (Σ _, DownloadTaskRecord))
        (m' : Downloads),
          view (rows.foldl (fun m' task =>
            loadTask H m.node.disk m' task.1 task.2) m') =
          view m' := by
      intro rows
      induction rows with
      | nil =>
          intro m'
          rfl
      | cons row rest ih =>
          intro m'
          rw [List.foldl_cons, ih, hView]
    exact hRows _ m

theorem disk_load :
    (loadDownloadState H m).node.disk = m.node.disk := by
  apply load_keeps (fun m => m.node.disk)
  intro disk m path task
  unfold loadTask
  split <;> rfl

theorem attached_load :
    (loadDownloadState H m).attached = m.attached := by
  apply load_keeps Downloads.attached
  intro disk m path task
  unfold loadTask
  split <;> rfl

end Table

------------------------------------------------------------
-- Upkeep
------------------------------------------------------------

/-
  What the periodic cleanup makes of an entry.  An entry in
  use stays; one that timed out goes when no chunk ever
  came, and else only closes its stream.
-/
def cleanedEntry
    (expired : Bool)
    (recv : ReceivingFile) : Option ReceivingFile :=
  if recv.busy then
    some recv
  else if recv.totalChunks = 0 ∧ expired = true then
    none
  else if expired then
    some { recv with streamOpen := false }
  else
    some recv

/- A disconnected peer's entries have no owner. -/
def cancelledEntry
    (peerId : String)
    (recv : ReceivingFile) : Option ReceivingFile :=
  if recv.peerId = peerId ∧ recv.busy = false then
    some { recv with streamOpen := false, peerId := "" }
  else
    some recv

def storeEntry
    (path : String)
    (recv : Option ReceivingFile)
    (receiving : AList (fun _ : String => ReceivingFile)) :
    AList (fun _ : String => ReceivingFile) :=
  match recv with
  | some recv => receiving.insert path recv
  | none => receiving.erase path

/- One loop over the entries. -/
def updateEntries
    (update : String → ReceivingFile → Option ReceivingFile)
    (m : Downloads) : Downloads :=
  { m with
    node := { m.node with
      receiving := m.node.receiving.entries.foldl
        (fun receiving recv =>
          storeEntry recv.1 (update recv.1 recv.2) receiving)
        m.node.receiving } }

/- `expired` tells which entries timed out. -/
def cleanupStaleBuffers
    (H : Host)
    (expired : String → Bool)
    (m : Downloads) : Downloads :=
  persistDownloadState H
    (updateEntries
      (fun path => cleanedEntry (expired path)) m)

def cancelReceivesForPeer
    (peerId : String)
    (m : Downloads) : Downloads :=
  updateEntries (fun _ => cancelledEntry peerId) m

theorem lookup_updateEntries
    (update : String → ReceivingFile → Option ReceivingFile)
    (m : Downloads)
    (path : String) :
    (updateEntries update m).node.receiving.lookup path =
      (m.node.receiving.lookup path).bind (update path) := by
  unfold updateEntries
  dsimp only
  rw [AList.view_foldl
    (fun receiving path recv =>
      storeEntry path (update path recv) receiving)
    (fun receiving path => receiving.lookup path)
    (fun path recv _ => update path recv) ?_ ?_
    m.node.receiving m.node.receiving path]
  · cases m.node.receiving.lookup path with
    | none => rfl
    | some recv => rfl
  · intro receiving key recv
    cases update key recv with
    | none => exact AList.lookup_erase _ _
    | some recv' => exact AList.lookup_insert _
  · intro receiving key recv other hOther
    cases update key recv with
    | none => exact AList.lookup_erase_ne hOther
    | some recv' => exact AList.lookup_insert_ne hOther

/- A finished download leaves the table as well. -/
def handleChunkTask
    (H : Host)
    (chunkDataSize : ℕ)
    (hdr : ChunkHeader)
    (peerId : String)
    (m : Downloads) : Downloads :=
  { m with
    node := handleChunk H chunkDataSize hdr peerId m.node
    tasks :=
      match finalizeCall H chunkDataSize hdr peerId m.node
        with
      | some _ => m.tasks.erase hdr.filePath
      | none => m.tasks }

------------------------------------------------------------
-- Starting Up
------------------------------------------------------------

/- A new transfer manager, which has no state manager yet. -/
def createTransferManager
    (H : Host)
    (node : LocalState)
    (tasks : TaskTable) : Downloads :=
  loadDownloadState H
    { node := { node with receiving := ∅ }
      tasks := tasks
      attached := false }

def setStateManager (m : Downloads) : Downloads :=
  { m with attached := true }

/- The order in which a node builds its parts. -/
def startUp
    (H : Host)
    (m : Downloads) : Downloads :=
  setStateManager (createTransferManager H m.node m.tasks)

/- The same chunks of the same file are still missing. -/
structure SameProgress
    (recv restored : ReceivingFile) : Prop where
  total : restored.totalChunks = recv.totalChunks
  bitmap : restored.receivedBitmap = recv.receivedBitmap
  count : restored.receivedChunks = recv.receivedChunks
  hash : restored.expectedHash = recv.expectedHash

/-
  The download of a path goes on where it stopped, unless
  the announced file is another one.
-/
def Restored
    (H : Host)
    (path : String)
    (recv : ReceivingFile)
    (m : Downloads) : Prop :=
  ∃ restored,
    m.node.receiving.lookup path = some restored ∧
      SameProgress recv restored ∧
      (hasProgress recv = true →
        ∀ hash size,
          hashChanged recv hash = false →
          sizeChanged recv size = false →
          ∃ info,
            (checkResumeEligibility H path hash size
              m.node).1 = some info ∧
            info.receivedChunks =
              contiguous recv.receivedBitmap)

/- Every persisted download comes back with its file. -/
def RestartRestores
    (H : Host)
    (m : Downloads) : Prop :=
  ∀ path recv,
    m.node.receiving.lookup path = some recv →
    tempFound H m.node.disk recv.tempPath = true →
    Restored H path recv
      (startUp H (persistDownloadState H m))

section Restart

variable
  (H : Host)
  (m : Downloads)

/- Nothing is loaded before the state manager is there. -/
theorem receiving_startUp :
    (startUp H m).node.receiving = ∅ := rfl

/-
  A restart brings back no download, so it restores what was
  persisted only when no partial file is left.
-/
theorem restartRestores_iff :
    RestartRestores H m ↔
      ∀ path recv,
        m.node.receiving.lookup path = some recv →
        tempFound H m.node.disk recv.tempPath = false := by
  constructor
  · intro hRestores path recv hEntry
    by_contra hFound
    rcases hRestores path recv hEntry (by simpa using hFound)
      with ⟨restored, hRestored, -⟩
    rw [receiving_startUp, AList.lookup_empty] at hRestored
    cases hRestored
  · intro hGone path recv hEntry hFound
    rw [hGone path recv hEntry] at hFound
    cases hFound

end Restart

/-
  Loading the rows once the state manager is there would
  bring every download back.
-/
theorem restored_of_load
    {H : Host}
    {m : Downloads}
    (hAttached : m.attached = true)
    {path : String}
    {recv : ReceivingFile}
    (hEntry : m.node.receiving.lookup path = some recv)
    (hCounted : Counted recv)
    (hFound : tempFound H m.node.disk recv.tempPath = true) :
    Restored H path recv
      (loadDownloadState H
        { persistDownloadState H m with
          node := { m.node with receiving := ∅ } }) := by
  have hRow := lookup_tasks_persist (H := H) hAttached path
  rw [hEntry] at hRow
  have hStill : (persistDownloadState H m).attached =
      true := by
    unfold persistDownloadState
    split
    · exact hAttached
    · exact hAttached
  have hLoaded := lookup_receiving_load (H := H)
    (m := { persistDownloadState H m with
      node := { m.node with receiving := ∅ } })
    hStill path
  simp only [hRow] at hLoaded
  have hTemp : (taskOf H.now recv).tempPath =
      recv.tempPath := rfl
  rw [hTemp, if_pos hFound, rebuild_taskOf hCounted]
    at hLoaded
  refine ⟨_, hLoaded, ⟨rfl, rfl, rfl, rfl⟩, ?_⟩
  intro hProgress hash size hHash hSize
  have hExists : Filesystem.exists? m.node.disk
      (H.locate recv.tempPath) = true := by
    simp only [tempFound, Bool.and_eq_true] at hFound
    exact hFound.2
  have hProgress' : hasProgress
      { recv with busy := false, streamOpen := false } =
        true := hProgress
  have hChanged : (hashChanged
      { recv with busy := false, streamOpen := false } hash ||
      sizeChanged
        { recv with busy := false, streamOpen := false }
        size) = false := by
    rw [Bool.or_eq_false_iff]
    exact ⟨hHash, hSize⟩
  unfold checkResumeEligibility
  rw [hLoaded, disk_load]
  simp [hProgress', hExists, hChanged]

/- A half received file that is lost by a restart. -/
theorem not_restartRestores_of_half_file :
    ¬ RestartRestores Host.plain
      { node :=
          setReceiving "a.txt"
            { announced "peer" "h" 2 with
              tempPath := tempPathOf "a.txt"
              totalChunks := 2
              receivedChunks := 1
              receivedBitmap := [true, false] }
            ((LocalState.empty Host.plain .destination
              .oneWay).userWrites Host.plain
                "a.txt.veritas_tmp" [97])
        tasks := ∅
        attached := true } := by
  intro hRestores
  rcases hRestores "a.txt" _ (AList.lookup_insert _)
    (by decide) with ⟨restored, hRestored, -⟩
  rw [receiving_startUp, AList.lookup_empty] at hRestored
  cases hRestored

end TransferManager

end VeritasSync
