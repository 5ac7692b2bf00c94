import Mathlib.Data.List.Sort
import VeritasSync.Storage.ScanDirectory
import VeritasSync.Sync.SyncManager
import VeritasSync.Sync.TransferManager

/-
  What the handlers do to the local side once their task
  runs on the worker pool.

  Main declarations:
    * `SyncHandler.resolveConflict`
    * `SyncHandler.processSingleFile`
    * `SyncHandler.syncDirectoryActions`
    * `SyncHandler.reconcileWithRemoteState`
    * `SyncHandler.Task`, `SyncHandler.runTask`
-/

namespace VeritasSync

namespace SyncHandler

open PathUtils StateManager SyncManager TransferManager

------------------------------------------------------------
-- Requests
------------------------------------------------------------

/- Build one file request, and send it. -/
def buildFileRequest
    (H : Host)
    (filePath peerId remoteHash : String)
    (remoteSize : ℕ)
    (s : LocalState) : FileRequest × LocalState :=
  let checked := checkResumeEligibility H filePath
    remoteHash remoteSize s
  match checked.1 with
  | some info =>
      (⟨filePath, some (info.receivedChunks,
        info.expectedHash, info.expectedSize)⟩, checked.2)
  | none =>
      (⟨filePath, none⟩,
        registerExpectedMetadata filePath peerId remoteHash
          remoteSize checked.2)

def requestFile
    (H : Host)
    (peerId : String)
    (s : LocalState)
    (remoteInfo : FileInfo) : LocalState :=
  let built := buildFileRequest H remoteInfo.path peerId
    remoteInfo.hash remoteInfo.size s
  built.2.act (.requested built.1)

/- Send the requests in order. -/
def paceAndSendFiles
    (H : Host)
    (peerId : String)
    (filesToRequest : List FileInfo)
    (s : LocalState) : LocalState :=
  filesToRequest.foldl (requestFile H peerId) s

/- The announcement of a requested path; the last wins. -/
def requestInfo
    (remoteFiles : List FileInfo)
    (filePath : String) : FileInfo :=
  match remoteFiles.reverse.find?
      (fun info => info.path == filePath) with
  | some info => info
  | none => ⟨filePath, "", 0, 0⟩

def sendFileRequests
    (H : Host)
    (peerId : String)
    (filesToRequest : List String)
    (remoteFiles : List FileInfo)
    (s : LocalState) : LocalState :=
  paceAndSendFiles H peerId
    (filesToRequest.map (requestInfo remoteFiles)) s

------------------------------------------------------------
-- Incremental Updates
------------------------------------------------------------

inductive ConflictResult where
| requestRemote
| skip
| noAction
deriving DecidableEq, Repr

/- The name under which a conflicting file is kept. -/
def conflictPath
    (H : Host)
    (path : String) : String :=
  let name := Filesystem.filename path
  Filesystem.parentText path ++ Filesystem.stem name ++
    ".conflict." ++ toString H.now ++
      Filesystem.extension name

/- Move a conflicting file out of the way. -/
def renameConflict
    (H : Host)
    (path : String)
    (s : LocalState) : ConflictResult × LocalState :=
  let target := conflictPath H path
  match Filesystem.rename H s.disk (H.locate path)
      (H.locate target) with
  | some disk =>
      (.requestRemote,
        LocalState.act { s with disk := disk }
          (.renamed path target))
  | none => (.skip, s)

def resolveConflict
    (H : Host)
    (peerId : String)
    (remoteInfo : FileInfo)
    (s : LocalState) : ConflictResult × LocalState :=
  let path := remoteInfo.path
  let remoteHash := remoteInfo.hash
  let fullPath := H.locate path
  if !Filesystem.exists? s.disk fullPath then
    (.requestRemote, s)
  else
    let cachedHash := getFileHash s path
    if cachedHash ≠ "" ∧ cachedHash = remoteHash then
      (.skip, recordSyncSuccess H peerId path cachedHash s)
    else
      let localHash := calculateSHA256 H s.disk fullPath
      let baseHash := getBaseHash s peerId path
      if localHash = remoteHash then
        (.skip, recordSyncSuccess H peerId path localHash s)
      else
        let localChanged :=
          baseHash != "" && localHash != baseHash
        let remoteChanged :=
          baseHash != "" && remoteHash != baseHash
        if baseHash == "" ||
            (!localChanged && remoteChanged) then
          (.requestRemote, s)
        else if localChanged && !remoteChanged then
          (.noAction,
            recordSyncSuccess H peerId path localHash s)
        else if !localChanged && !remoteChanged then
          (.noAction, s)
        else
          renameConflict H path s

/- Whether one announced file is to be requested. -/
def processSingleFile
    (H : Host)
    (peerId : String)
    (remoteInfo : FileInfo)
    (s : LocalState) : Option FileInfo × LocalState :=
  let checked := checkResumeEligibility H remoteInfo.path
    remoteInfo.hash remoteInfo.size s
  match checked.1 with
  | some _ => (some remoteInfo, checked.2)
  | none =>
      let s := checked.2
      if shouldIgnoreEcho s peerId remoteInfo.path
          remoteInfo.hash then
        (none, s)
      else
        match resolveConflict H peerId remoteInfo s with
        | (.requestRemote, s) => (some remoteInfo, s)
        | (_, s) => (none, s)

/- The state in which an announced file is decided on. -/
def checkedState
    (H : Host)
    (info : FileInfo)
    (s : LocalState) : LocalState :=
  (checkResumeEligibility H info.path info.hash info.size
    s).2

theorem renameConflict_of_some
    {H : Host}
    {path : String}
    {s : LocalState}
    {disk : Disk}
    (hRename : Filesystem.rename H s.disk (H.locate path)
      (H.locate (conflictPath H path)) = some disk) :
    renameConflict H path s =
      (.requestRemote, LocalState.act { s with disk := disk }
        (.renamed path (conflictPath H path))) := by
  simp [renameConflict, hRename]

theorem renameConflict_of_none
    {H : Host}
    {path : String}
    {s : LocalState}
    (hRename : Filesystem.rename H s.disk (H.locate path)
      (H.locate (conflictPath H path)) = none) :
    renameConflict H path s = (.skip, s) := by
  simp [renameConflict, hRename]

/- The local file is known to be the announced one. -/
def knownEqual
    (H : Host)
    (remoteInfo : FileInfo)
    (s : LocalState) : Bool :=
  (getFileHash s remoteInfo.path != "" &&
      getFileHash s remoteInfo.path == remoteInfo.hash) ||
    calculateSHA256 H s.disk (H.locate remoteInfo.path) ==
      remoteInfo.hash

theorem knownEqual_congr
    {H : Host}
    {remoteInfo : FileInfo}
    {s s' : LocalState}
    (hMap : s'.fileMap = s.fileMap)
    (hDisk : s'.disk.lookup (H.locate remoteInfo.path) =
      s.disk.lookup (H.locate remoteInfo.path)) :
    knownEqual H remoteInfo s' =
      knownEqual H remoteInfo s := by
  unfold knownEqual getFileHash
  rw [hMap, calculateSHA256_congr H hDisk]

/-
  Everything the decision can be.  The branch for two
  unchanged sides is missing: it would need equal digests.
-/
theorem resolveConflict_cases
    (H : Host)
    (peerId : String)
    (remoteInfo : FileInfo)
    (s : LocalState) :
    let result := resolveConflict H peerId remoteInfo s
    let loc := H.locate remoteInfo.path
    let localHash := calculateSHA256 H s.disk loc
    let baseHash := getBaseHash s peerId remoteInfo.path
    (s.disk.lookup loc = none ∧
        result = (.requestRemote, s)) ∨
      (s.disk.lookup loc ≠ none ∧
        knownEqual H remoteInfo s = true ∧
        result = (.skip, recordSyncSuccess H peerId
          remoteInfo.path remoteInfo.hash s)) ∨
      (s.disk.lookup loc ≠ none ∧
        knownEqual H remoteInfo s = false ∧
        (baseHash = "" ∨
          localHash = baseHash ∧ remoteInfo.hash ≠ baseHash) ∧
        result = (.requestRemote, s)) ∨
      (s.disk.lookup loc ≠ none ∧
        knownEqual H remoteInfo s = false ∧
        baseHash ≠ "" ∧ localHash ≠ baseHash ∧
        remoteInfo.hash = baseHash ∧
        result = (.noAction, recordSyncSuccess H peerId
          remoteInfo.path localHash s)) ∨
      (s.disk.lookup loc ≠ none ∧
        knownEqual H remoteInfo s = false ∧
        baseHash ≠ "" ∧ localHash ≠ baseHash ∧
        remoteInfo.hash ≠ baseHash ∧
        result = renameConflict H remoteInfo.path s) := by
  unfold resolveConflict knownEqual
  dsimp only
  cases hNode : s.disk.lookup (H.locate remoteInfo.path) with
  | none =>
      left
      simp [Filesystem.exists?, hNode]
  | some node =>
      right
      generalize hLocal : calculateSHA256 H s.disk
        (H.locate remoteInfo.path) = localHash
      generalize hBase :
        getBaseHash s peerId remoteInfo.path = baseHash
      generalize hCached :
        getFileHash s remoteInfo.path = cachedHash
      simp only [Filesystem.exists?, hNode,
        Option.isSome_some, Bool.not_true,
        Bool.false_eq_true, if_false, ne_eq, reduceCtorEq,
        not_false_eq_true, true_and]
      by_cases hKnown :
          cachedHash ≠ "" ∧ cachedHash = remoteInfo.hash
      · left
        rw [if_pos hKnown]
        have hNonempty : remoteInfo.hash ≠ "" :=
          hKnown.2 ▸ hKnown.1
        simp [hKnown.2, hNonempty]
      rw [if_neg hKnown]
      by_cases hSame : localHash = remoteInfo.hash
      · left
        simp [hSame]
      rw [if_neg hSame]
      have hDiffer :
          (cachedHash != "" &&
              cachedHash == remoteInfo.hash ||
            localHash == remoteInfo.hash) = false := by
        simp only [Bool.or_eq_false_iff]
        refine ⟨?_, by simpa using hSame⟩
        by_contra hTrue
        exact hKnown (by simpa using hTrue)
      right
      simp only [hDiffer, true_and]
      by_cases hEmpty : baseHash = ""
      · simp [hEmpty]
      by_cases hLocalBase : localHash = baseHash
      · by_cases hRemoteBase : remoteInfo.hash = baseHash
        · exact absurd (hLocalBase.trans hRemoteBase.symm)
            hSame
        · simp [hLocalBase, hRemoteBase, hEmpty]
      · by_cases hRemoteBase : remoteInfo.hash = baseHash
        · simp [hLocalBase, hRemoteBase, hEmpty]
        · simp [hLocalBase, hRemoteBase, hEmpty]

/-
  Everything the processing of one file can be: a resumed
  download, a suppressed echo, or a decision taken after
  the check.
-/
theorem processSingleFile_cases
    (H : Host)
    (peerId : String)
    (remoteInfo : FileInfo)
    (s : LocalState) :
    let result := processSingleFile H peerId remoteInfo s
    let resume := resumable H remoteInfo.path
      remoteInfo.hash remoteInfo.size s
    let echo := shouldIgnoreEcho s peerId remoteInfo.path
      remoteInfo.hash
    (resume = true ∧ result = (some remoteInfo, s)) ∨
      (resume = false ∧ ∃ s',
        Checked H remoteInfo.path remoteInfo.hash
          remoteInfo.size s s' ∧
        ((echo = true ∧ result = (none, s')) ∨
          (echo = false ∧
            let decided := resolveConflict H peerId
              remoteInfo s'
            result =
              (if decided.1 = .requestRemote then
                some remoteInfo
              else
                none, decided.2)))) := by
  unfold processSingleFile
  dsimp only
  rcases checkResumeEligibility_cases H remoteInfo.path
    remoteInfo.hash remoteInfo.size s with
    ⟨hResume, -, info, hEq⟩ | ⟨hResume, s', hChecked, hEq⟩
  · left
    exact ⟨hResume, by rw [hEq]⟩
  · right
    refine ⟨hResume, s', hChecked, ?_⟩
    have hEcho : shouldIgnoreEcho s' peerId
        remoteInfo.path remoteInfo.hash =
          shouldIgnoreEcho s peerId remoteInfo.path
            remoteInfo.hash := by
      unfold shouldIgnoreEcho getBaseHash
      rw [hChecked.history]
    rw [hEq]
    dsimp only
    rw [hEcho]
    cases shouldIgnoreEcho s peerId remoteInfo.path
        remoteInfo.hash with
    | true => exact Or.inl ⟨rfl, rfl⟩
    | false =>
        refine Or.inr ⟨rfl, ?_⟩
        simp only [Bool.false_eq_true, if_false]
        generalize resolveConflict H peerId remoteInfo _ =
          decided
        rcases decided with ⟨_ | _ | _, s'⟩ <;> rfl

/- Process a batch; the first component is requested. -/
def processFiles
    (H : Host)
    (peerId : String) :
    List FileInfo → LocalState →
      List FileInfo × LocalState
| [], s => ([], s)
| info :: rest, s =>
    let first := processSingleFile H peerId info s
    let others := processFiles H peerId rest first.2
    (first.1.toList ++ others.1, others.2)

def updateBatch
    (H : Host)
    (peerId : String)
    (files : List FileInfo)
    (s : LocalState) : LocalState :=
  let processed := processFiles H peerId files s
  paceAndSendFiles H peerId processed.1 processed.2

------------------------------------------------------------
-- Incremental Deletions And Directories
------------------------------------------------------------

/- Remove one file and forget it. -/
def deleteFile
    (H : Host)
    (s : LocalState)
    (path : String) : LocalState :=
  match Filesystem.remove H s.disk (H.locate path) with
  | some disk =>
      (removePathFromMap path { s with disk := disk }).act
        (.removed path)
  | none => s

def deleteSafeFile
    (H : Host)
    (s : LocalState)
    (path : String) : LocalState :=
  if isPathSafeWithCanonicalRoot H path then
    deleteFile H s path
  else
    s

/- Remove one directory with everything below it. -/
def deleteTree
    (H : Host)
    (s : LocalState)
    (path : String) : LocalState :=
  let top := H.locate path
  let swept := { s with
    disk := Filesystem.removeAll H s.disk top }
  let s' :=
    if Filesystem.removeAllFails H s.disk top then
      swept
    else
      removeDirFromMap path swept
  s'.act (.removedTree path)

def deleteSafeTree
    (H : Host)
    (s : LocalState)
    (path : String) : LocalState :=
  if isPathSafeWithCanonicalRoot H path then
    deleteTree H s path
  else
    s

def deleteBatch
    (H : Host)
    (paths : List String)
    (s : LocalState) : LocalState :=
  if H.canonicalFails "" then
    s
  else
    paths.foldl (deleteSafeFile H) s

/- Only a directory that was missing enters the map. -/
def createDir
    (H : Host)
    (path : String)
    (s : LocalState) : LocalState :=
  let loc := H.locate path
  if !isPathSafe H path then
    s
  else
    match Filesystem.createDirectories H s.disk loc with
    | none => s
    | some disk =>
        if Filesystem.exists? s.disk loc then
          s
        else
          (addDirToMap path { s with disk := disk }).act
            (.createdDirs path)

def deleteDir
    (H : Host)
    (path : String)
    (s : LocalState) : LocalState :=
  if !isPathSafe H path then
    s
  else
    deleteTree H s path

/- A path that exists afterwards enters the map. -/
def createBatchDir
    (H : Host)
    (s : LocalState)
    (path : String) : LocalState :=
  let loc := H.locate path
  if isPathSafeWithCanonicalRoot H path then
    match Filesystem.createDirectories H s.disk loc with
    | some disk =>
        (addDirToMap path { s with disk := disk }).act
          (.createdDirs path)
    | none =>
        if Filesystem.exists? s.disk loc then
          addDirToMap path s
        else
          s
  else
    s

/- Longest paths first. -/
def sortByLength (dirs : List String) : List String :=
  dirs.insertionSort
    (fun a b => b.utf8ByteSize ≤ a.utf8ByteSize)

def dirBatch
    (H : Host)
    (creates deletes : List String)
    (s : LocalState) : LocalState :=
  if H.canonicalFails "" then
    s
  else
    (sortByLength deletes).foldl (deleteSafeTree H)
      (creates.foldl (createBatchDir H) s)

------------------------------------------------------------
-- Reconciliation
------------------------------------------------------------

/-
  Delete one directory the remote side lacks: recursively in
  the one-way mode, only when empty in the other.
-/
def syncDeleteDir
    (H : Host)
    (mode : SyncMode)
    (s : LocalState)
    (path : String) : LocalState :=
  match mode with
  | .oneWay => deleteTree H s path
  | .biDirectional =>
      let loc := H.locate path
      match Filesystem.remove H s.disk loc with
      | some disk =>
          (removeDirFromMap path { s with disk := disk }).act
            (.removed path)
      | none =>
          if Filesystem.exists? s.disk loc then
            s
          else
            removeDirFromMap path s

/- Create one directory the local side lacks. -/
def syncCreateDir
    (H : Host)
    (s : LocalState)
    (path : String) : LocalState :=
  match Filesystem.createDirectories H s.disk
      (H.locate path) with
  | some disk =>
      (addDirToMap path { s with disk := disk }).act
        (.createdDirs path)
  | none => s

def syncDirectoryActions
    (H : Host)
    (actions : DirSyncActions)
    (mode : SyncMode)
    (s : LocalState) : LocalState :=
  actions.dirsToCreate.foldl (syncCreateDir H)
    ((sortByLength actions.dirsToDelete).foldl
      (syncDeleteDir H mode) s)

/- The comparison that a reconciliation acts on. -/
def fileActions
    (peerId : String)
    (remoteFiles : List FileInfo)
    (s : LocalState) : SyncActions :=
  compareStatesAndGetRequests (getAllFiles s) remoteFiles
    (getFullHistory s peerId) s.mode

def dirActions
    (remoteDirs : List String)
    (s : LocalState) : DirSyncActions :=
  compareDirStates (getLocalDirectories s) remoteDirs

def reconcileWithRemoteState
    (H : Host)
    (peerId : String)
    (remoteFiles : List FileInfo)
    (remoteDirs : List String)
    (sendFileReqs : Bool)
    (s : LocalState) : LocalState :=
  let scanned := scanDirectory H s
  let files := fileActions peerId remoteFiles scanned
  let dirs := dirActions remoteDirs scanned
  let pruned := files.filesToDelete.foldl (deleteFile H)
    scanned
  let synced := syncDirectoryActions H dirs s.mode pruned
  if sendFileReqs then
    sendFileRequests H peerId files.filesToRequest
      remoteFiles synced
  else
    synced

------------------------------------------------------------
-- Tasks
------------------------------------------------------------

/- The work that handlers post to the worker pool. -/
inductive Task where
| shareState : List FileInfo → List String → Task
| updateBatch : List FileInfo → Task
| deleteBatch : List String → Task
| createDir : String → Task
| deleteDir : String → Task
| dirBatch : List String → List String → Task
| floodComplete : List FileInfo → List String → Task
deriving DecidableEq, Repr

def runTask
    (H : Host)
    (peerId : String) :
    Task → LocalState → LocalState
| .shareState files dirs =>
    reconcileWithRemoteState H peerId files dirs true
| .updateBatch files => updateBatch H peerId files
| .deleteBatch paths => deleteBatch H paths
| .createDir path => createDir H path
| .deleteDir path => deleteDir H path
| .dirBatch creates deletes => dirBatch H creates deletes
| .floodComplete files dirs =>
    reconcileWithRemoteState H peerId files dirs false

end SyncHandler

end VeritasSync
