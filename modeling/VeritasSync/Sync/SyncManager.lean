import VeritasSync.Common.PathUtils
import VeritasSync.Sync.Protocol

/-
  The comparison of two snapshots: which files to request,
  to delete and to set aside, and which directories to
  create and to delete.

  Paths are looked up by their case-insensitive key, and the
  action lists carry the original spelling.

  Main declarations:
    * `SyncManager.detectConflict`
    * `SyncManager.compareStatesAndGetRequests`
    * `SyncManager.compareDirStates`
-/

namespace VeritasSync

/- What to do about files. -/
structure SyncActions where
  filesToRequest : List String
  filesToDelete : List String
  filesToConflictRename : List String
deriving DecidableEq, Repr

/- What to do about directories. -/
structure DirSyncActions where
  dirsToCreate : List String
  dirsToDelete : List String
deriving DecidableEq, Repr

namespace SyncManager

open PathUtils

------------------------------------------------------------
-- Files
------------------------------------------------------------

/-
  The conflict rule, once the local and the remote digest
  are known to differ.
-/
def detectConflict
    (localHash : String)
    (history : Option SyncHistory) : Bool :=
  match history with
  | none => true
  | some row => localHash != row.hash

/- The digest kept for a path; the last entry wins. -/
def localFileHash
    (localFiles : List FileInfo)
    (path : String) : Option String :=
  (localFiles.reverse.find?
    (fun info => key info.path == key path)).map
      FileInfo.hash

/- A path of the list has the key of `path`. -/
def hasKey
    (paths : List String)
    (path : String) : Bool :=
  paths.any (fun other => key other == key path)

/- The local side lacks the file or has another digest. -/
def needsRequest
    (localFiles : List FileInfo)
    (remote : FileInfo) : Bool :=
  localFileHash localFiles remote.path != some remote.hash

/- The local side has another digest and a conflict. -/
def needsConflictRename
    (localFiles : List FileInfo)
    (getHistory : String → Option SyncHistory)
    (mode : SyncMode)
    (remote : FileInfo) : Bool :=
  match localFileHash localFiles remote.path with
  | none => false
  | some localHash =>
      localHash != remote.hash &&
        mode == .biDirectional &&
        detectConflict localHash (getHistory remote.path)

/-
  The remote side lacks the file.  In the bidirectional mode
  only a file unchanged since the last agreement goes.
-/
def needsDelete
    (remoteFiles : List FileInfo)
    (getHistory : String → Option SyncHistory)
    (mode : SyncMode)
    (localFile : FileInfo) : Bool :=
  !hasKey (remoteFiles.map FileInfo.path) localFile.path &&
    match mode with
    | .oneWay => true
    | .biDirectional =>
        match getHistory localFile.path with
        | none => false
        | some row => row.hash == localFile.hash

def compareStatesAndGetRequests
    (localFiles remoteFiles : List FileInfo)
    (getHistory : String → Option SyncHistory)
    (mode : SyncMode) : SyncActions where
  filesToRequest :=
    (remoteFiles.filter (needsRequest localFiles)).map
      FileInfo.path
  filesToDelete :=
    (localFiles.filter
      (needsDelete remoteFiles getHistory mode)).map
        FileInfo.path
  filesToConflictRename :=
    (remoteFiles.filter
      (needsConflictRename localFiles getHistory mode)).map
        FileInfo.path

theorem mem_filesToRequest_iff
    {localFiles remoteFiles : List FileInfo}
    {getHistory : String → Option SyncHistory}
    {mode : SyncMode}
    {path : String} :
    path ∈ (compareStatesAndGetRequests localFiles
        remoteFiles getHistory mode).filesToRequest ↔
      ∃ remote ∈ remoteFiles,
        localFileHash localFiles remote.path ≠
          some remote.hash ∧
        remote.path = path := by
  simp [compareStatesAndGetRequests, needsRequest,
    and_assoc]

theorem mem_filesToDelete_iff
    {localFiles remoteFiles : List FileInfo}
    {getHistory : String → Option SyncHistory}
    {mode : SyncMode}
    {path : String} :
    path ∈ (compareStatesAndGetRequests localFiles
        remoteFiles getHistory mode).filesToDelete ↔
      ∃ info ∈ localFiles,
        needsDelete remoteFiles getHistory mode info = true ∧
        info.path = path := by
  simp [compareStatesAndGetRequests, and_assoc]

/- In the bidirectional mode a delete needs its history. -/
theorem needsDelete_biDirectional_iff
    {remoteFiles : List FileInfo}
    {getHistory : String → Option SyncHistory}
    {localFile : FileInfo} :
    needsDelete remoteFiles getHistory .biDirectional
        localFile = true ↔
      hasKey (remoteFiles.map FileInfo.path)
          localFile.path = false ∧
        ∃ row, getHistory localFile.path = some row ∧
          row.hash = localFile.hash := by
  unfold needsDelete
  cases hRow : getHistory localFile.path with
  | none => simp
  | some row => simp

theorem needsDelete_oneWay_iff
    {remoteFiles : List FileInfo}
    {getHistory : String → Option SyncHistory}
    {localFile : FileInfo} :
    needsDelete remoteFiles getHistory .oneWay
        localFile = true ↔
      hasKey (remoteFiles.map FileInfo.path)
        localFile.path = false := by
  simp [needsDelete]

/- In either mode only what the remote side lacks goes. -/
theorem hasKey_of_needsDelete
    {remoteFiles : List FileInfo}
    {getHistory : String → Option SyncHistory}
    {mode : SyncMode}
    {localFile : FileInfo}
    (hDelete : needsDelete remoteFiles getHistory mode
      localFile = true) :
    hasKey (remoteFiles.map FileInfo.path)
      localFile.path = false := by
  cases mode with
  | oneWay => exact needsDelete_oneWay_iff.mp hDelete
  | biDirectional =>
      exact (needsDelete_biDirectional_iff.mp hDelete).1

/- A longer list has more keys. -/
theorem hasKey_mono
    {paths paths' : List String}
    (hSubset : ∀ path ∈ paths, path ∈ paths')
    {path : String}
    (hAbsent : hasKey paths' path = false) :
    hasKey paths path = false := by
  unfold hasKey at hAbsent ⊢
  rw [List.any_eq_false] at hAbsent ⊢
  intro other hOther
  exact hAbsent other (hSubset other hOther)

/- A listed path has its own key. -/
theorem hasKey_of_mem
    {paths : List String}
    {path : String}
    (hMem : path ∈ paths) :
    hasKey paths path = true := by
  unfold hasKey
  rw [List.any_eq_true]
  exact ⟨path, hMem, by simp⟩

------------------------------------------------------------
-- Directories
------------------------------------------------------------

def compareDirStates
    (localDirs remoteDirs : List String) :
    DirSyncActions where
  dirsToCreate :=
    remoteDirs.filter (fun dir => !hasKey localDirs dir)
  dirsToDelete :=
    localDirs.filter (fun dir => !hasKey remoteDirs dir)

theorem mem_dirsToDelete_iff
    {localDirs remoteDirs : List String}
    {dir : String} :
    dir ∈ (compareDirStates localDirs
        remoteDirs).dirsToDelete ↔
      dir ∈ localDirs ∧ hasKey remoteDirs dir = false := by
  simp [compareDirStates]

theorem mem_dirsToCreate_iff
    {localDirs remoteDirs : List String}
    {dir : String} :
    dir ∈ (compareDirStates localDirs
        remoteDirs).dirsToCreate ↔
      dir ∈ remoteDirs ∧ hasKey localDirs dir = false := by
  simp [compareDirStates]

end SyncManager

end VeritasSync
