import VeritasSync.Sync.SyncSession

/-
  The messages a node broadcasts: batches of changes as they
  are committed, and the flood that announces its snapshot.

  Main declarations:
    * `Batch`, `BroadcastManager.batches`
    * `BroadcastManager.broadcastFileUpdatesBatch`
    * `BroadcastManager.performFloodSync`
-/

namespace VeritasSync

/- The batches that floods and broadcasts are made of. -/
inductive Batch where
| fileUpdates : List FileInfo → Batch
| fileDeletes : List String → Batch
| dirs : List String → List String → Batch
deriving DecidableEq, Repr

namespace Batch

def message : Batch → Message
| .fileUpdates files => .fileUpdateBatch files
| .fileDeletes paths => .fileDeleteBatch paths
| .dirs creates deletes => .dirBatch creates deletes

end Batch

namespace BroadcastManager

def canBroadcast
    (role : SyncRole)
    (mode : SyncMode) : Bool :=
  role == .source || mode == .biDirectional

def fileUpdateBatchSize : ℕ := 50

def fileDeleteBatchSize : ℕ := 100

/- Cut a list into consecutive batches. -/
def batches
    {α : Type}
    (size : ℕ)
    (items : List α) : List (List α) :=
  (List.range ((items.length + size - 1) / size)).map
    (fun i => (items.drop (i * size)).take size)

def broadcastFileUpdatesBatch
    (files : List FileInfo) : List Batch :=
  (batches fileUpdateBatchSize files).map .fileUpdates

def broadcastFileDeletesBatch
    (paths : List String) : List Batch :=
  (batches fileDeleteBatchSize paths).map .fileDeletes

def broadcastDirChangesBatch
    (creates deletes : List String) : List Batch :=
  if creates.isEmpty && deletes.isEmpty then
    []
  else
    [.dirs creates deletes]

/- The batches of a flood, without its announcement. -/
def floodBatches
    (files : List FileInfo)
    (dirs : List String) : List Batch :=
  broadcastDirChangesBatch dirs [] ++
    broadcastFileUpdatesBatch files

/- An empty snapshot is not announced at all. -/
def floodMessages
    (sessionId : ℕ)
    (files : List FileInfo)
    (dirs : List String) : List Message :=
  if files.isEmpty && dirs.isEmpty then
    []
  else
    .syncBegin sessionId files.length dirs.length ::
      (floodBatches files dirs).map Batch.message

/- Scan, then announce what the scan found. -/
def performFloodSync
    (H : Host)
    (sessionId : ℕ)
    (s : LocalState) : List Message × LocalState :=
  let scanned := StateManager.scanDirectory H s
  (floodMessages sessionId (StateManager.getAllFiles scanned)
    (StateManager.getLocalDirectories scanned), scanned)

/- The first batches together are a prefix of the list. -/
theorem flatten_range_take
    {α : Type}
    (size count : ℕ)
    (items : List α) :
    ((List.range count).map (fun i =>
      (items.drop (i * size)).take size)).flatten =
        items.take (count * size) := by
  induction count with
  | zero => simp
  | succ count ih =>
      rw [List.range_succ, List.map_append,
        List.flatten_append, ih, Nat.succ_mul,
        List.take_add]
      simp

theorem fileUpdateBatchSize_pos :
    0 < fileUpdateBatchSize := by
  decide

theorem fileDeleteBatchSize_pos :
    0 < fileDeleteBatchSize := by
  decide

/- Batching loses and repeats nothing. -/
theorem flatten_batches
    {α : Type}
    {size : ℕ}
    (hSize : 0 < size)
    (items : List α) :
    (batches size items).flatten = items := by
  unfold batches
  rw [flatten_range_take]
  apply List.take_of_length_le
  have hCeil := Nat.div_add_mod
    (items.length + size - 1) size
  have hMod := Nat.mod_lt (items.length + size - 1) hSize
  rw [Nat.mul_comm] at hCeil
  omega

end BroadcastManager

end VeritasSync
