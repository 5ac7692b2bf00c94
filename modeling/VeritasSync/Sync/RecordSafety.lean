import VeritasSync.Library.Transition
import VeritasSync.Sync.DownloadTasks

/-
  What finalize writes into the sync state: which digests it
  records, and whether the peer that it records them for had
  announced them.

  Main declarations:
    * `RecordSafety.System`, `RecordSafety.step`
    * `RecordSafety.HashesAnnounced`
    * `RecordSafety.recordsVerified_of_run`
-/

namespace VeritasSync

namespace TransferManager

open StateManager

------------------------------------------------------------
-- What Finalize Records
------------------------------------------------------------

/- The digest that finalize records, if it records one. -/
def recordedHash
    (H : Host)
    (path peerId : String)
    (entry : ReceivingFile)
    (disk : Disk) : Option String :=
  let final := H.locate path
  let temp := H.locate entry.tempPath
  let moved := moveIntoPlace H disk temp final
  let newHash :=
    calculateSHA256 H (removeFrom H moved.1 temp) final
  if moved.2 ∧ peerId ≠ "" ∧
      (entry.expectedHash = "" ∨
        newHash = entry.expectedHash) then
    some newHash
  else
    none

section Recorded

variable
  {H : Host}
  {path peerId : String}
  {entry : ReceivingFile}
  {s : LocalState}

/- Nothing else of finalize reaches the sync state. -/
theorem history_finalizeReceivedFile :
    (finalizeReceivedFile H path peerId entry s).history =
        (match recordedHash H path peerId entry s.disk with
        | some hash =>
            (recordSyncSuccess H peerId path hash s).history
        | none => s.history) ∧
      (finalizeReceivedFile H path peerId entry
          s).receivedFiles =
        (match recordedHash H path peerId entry s.disk with
        | some hash =>
            (markFileReceived path hash s).receivedFiles
        | none => s.receivedFiles) := by
  by_cases hRecords :
      (moveIntoPlace H s.disk (H.locate entry.tempPath)
          (H.locate path)).2 = true ∧
        peerId ≠ "" ∧
        (entry.expectedHash = "" ∨
          calculateSHA256 H
              (removeFrom H
                (moveIntoPlace H s.disk
                  (H.locate entry.tempPath)
                  (H.locate path)).1
                (H.locate entry.tempPath))
              (H.locate path) =
            entry.expectedHash)
  · have hSome : recordedHash H path peerId entry s.disk =
        some _ := if_pos hRecords
    rcases hRecords with ⟨hMoved, hPeer, hHash⟩
    rw [hSome, finalizeReceivedFile]
    dsimp only
    rw [if_pos hMoved, if_neg hPeer, verifyReceivedFile,
      if_pos (by exact hHash)]
    exact ⟨rfl, rfl⟩
  · have hNone : recordedHash H path peerId entry s.disk =
        none := if_neg hRecords
    rw [hNone, finalizeReceivedFile]
    dsimp only
    by_cases hMoved : (moveIntoPlace H s.disk
        (H.locate entry.tempPath) (H.locate path)).2 = true
    · rw [if_pos hMoved]
      by_cases hPeer : peerId = ""
      · rw [if_pos hPeer]
        exact ⟨rfl, rfl⟩
      · rw [if_neg hPeer, verifyReceivedFile,
          if_neg ?_]
        · exact ⟨rfl, rfl⟩
        · intro hHash
          exact hRecords ⟨hMoved, hPeer, hHash⟩
    · rw [if_neg hMoved]
      exact ⟨rfl, rfl⟩

/- A removal brings no node about. -/
theorem lookup_of_lookup_removeFrom
    {disk : Disk}
    {loc key : Loc}
    {file : File}
    (hLookup : (removeFrom H disk loc).lookup key =
      some (.file file)) :
    disk.lookup key = some (.file file) := by
  unfold removeFrom at hLookup
  cases hRemove : Filesystem.remove H disk loc with
  | none => rwa [hRemove] at hLookup
  | some disk' =>
      rw [hRemove, Option.getD_some,
        Filesystem.lookup_remove hRemove] at hLookup
      split at hLookup
      · cases hLookup
      · exact hLookup

/- The file in place has the bytes that were assembled. -/
theorem assembled_of_moved
    {disk : Disk}
    {file : File}
    (hMoved : (moveIntoPlace H disk
      (H.locate entry.tempPath) (H.locate path)).2 = true)
    (hFile : (moveIntoPlace H disk
      (H.locate entry.tempPath)
        (H.locate path)).1.lookup (H.locate path) =
      some (.file file)) :
    assembled H (entry, disk) = some file.content := by
  unfold assembled
  unfold moveIntoPlace at hMoved hFile
  cases hRename : Filesystem.rename H disk
      (H.locate entry.tempPath) (H.locate path) with
  | some disk' =>
      rw [hRename] at hFile
      rw [Filesystem.lookup_rename_target hRename] at hFile
      rw [(FileTree.payload?_eq_some_iff _ _ _).mpr hFile]
      rfl
  | none =>
      rw [hRename] at hMoved hFile
      dsimp only at hMoved hFile
      rcases Filesystem.exists_of_copyFile hMoved with
        ⟨source, hSource, hCopy⟩
      have hTemp := lookup_of_lookup_removeFrom
        (H := H)
        ((FileTree.payload?_eq_some_iff _ _ _).mp hSource)
      rw [hCopy, Filesystem.lookup_writeFile, if_pos rfl]
        at hFile
      cases hFile
      rw [(FileTree.payload?_eq_some_iff _ _ _).mpr hTemp]
      rfl

/- A digest that was expected is that of the content. -/
theorem content_of_recordedHash
    {disk : Disk}
    {hash : String}
    (hRecorded : recordedHash H path peerId entry disk =
      some hash)
    (hExpected : entry.expectedHash ≠ "") :
    hash = entry.expectedHash ∧
      ∃ content, assembled H (entry, disk) = some content ∧
        H.digest.hash content = hash := by
  unfold recordedHash at hRecorded
  dsimp only at hRecorded
  split at hRecorded
  next hAll =>
    rcases hAll with ⟨hMoved, -, hHash⟩
    have hSame := hHash.resolve_left hExpected
    rw [hSame, Option.some.injEq] at hRecorded
    refine ⟨hRecorded.symm, ?_⟩
    rcases exists_file_of_calculateSHA256_ne_empty
      (hSame ▸ hExpected) with ⟨file, hFile, hDigest⟩
    refine ⟨file.content, assembled_of_moved hMoved
      (lookup_of_lookup_removeFrom hFile), ?_⟩
    rw [← hDigest, hSame, hRecorded]
  next => cases hRecorded

end Recorded

------------------------------------------------------------
-- Where Expected Digests Come From
------------------------------------------------------------

/- The digest a path is expected to have, if any. -/
def expectedHashOf
    (s : LocalState)
    (path : String) : String :=
  match s.receiving.lookup path with
  | some recv => recv.expectedHash
  | none => ""

/- The entry that a chunk leaves behind, if it leaves one. -/
def outcomeEntry : ChunkOutcome → ReceivingFile
| .failed entry _ => entry
| .kept entry _ => entry
| .complete entry _ => entry

/- Every entry of `s'` expects nothing, or what it did. -/
def KeepsHashes (s s' : LocalState) : Prop :=
  ∀ path recv,
    s'.receiving.lookup path = some recv →
    recv.expectedHash = "" ∨
      ∃ old, s.receiving.lookup path = some old ∧
        recv.expectedHash = old.expectedHash

section Expected

variable
  {H : Host}
  {chunkDataSize : ℕ}
  {hdr : ChunkHeader}
  {path peerId : String}
  {s s' : LocalState}

theorem KeepsHashes.of_receiving
    (hSame : s'.receiving = s.receiving) :
    KeepsHashes s s' := by
  intro path recv hEntry
  exact Or.inr ⟨recv, hSame ▸ hEntry, rfl⟩

theorem KeepsHashes.eraseReceiving
    (hKeeps : KeepsHashes s s')
    (path : String) :
    KeepsHashes s (eraseReceiving path s') := by
  intro other recv hEntry
  by_cases hOther : other = path
  · subst hOther
    simp [TransferManager.eraseReceiving] at hEntry
  · apply hKeeps other recv
    rw [← hEntry]
    exact (AList.lookup_erase_ne hOther).symm

theorem KeepsHashes.setReceiving
    (hKeeps : KeepsHashes s s')
    {entry : ReceivingFile}
    (hEntry : entry.expectedHash = expectedHashOf s path) :
    KeepsHashes s (setReceiving path entry s') := by
  intro other recv hRecv
  by_cases hOther : other = path
  · subst hOther
    simp only [TransferManager.setReceiving,
      AList.lookup_insert, Option.some.injEq] at hRecv
    subst hRecv
    unfold expectedHashOf at hEntry
    cases hOld : s.receiving.lookup other with
    | none => exact Or.inl (by rw [hEntry, hOld])
    | some old =>
        rw [hOld] at hEntry
        exact Or.inr ⟨old, rfl, hEntry⟩
  · apply hKeeps other recv
    rw [← hRecv]
    exact (AList.lookup_insert_ne hOther).symm

/- Storing a chunk changes no expectation. -/
theorem expectedHash_writePhase
    (H : Host)
    (chunkDataSize : ℕ)
    (hdr : ChunkHeader)
    (found : ChunkLookupResult)
    (disk : Disk) :
    (outcomeEntry (writePhase H chunkDataSize hdr found
        disk)).expectedHash =
      found.entry.expectedHash := by
  unfold writePhase
  dsimp only
  split
  · rfl
  · split
    · rfl
    · unfold storeChunk
      dsimp only [markChunk]
      split
      · rfl
      · split
        · rfl
        · split <;> rfl

theorem expectedHash_adoptTempPath
    (found : ChunkLookupResult) :
    (adoptTempPath path found).entry.expectedHash =
      found.entry.expectedHash := by
  unfold adoptTempPath
  split <;> rfl

theorem expectedHash_adoptTotal
    (total : ℕ)
    (entry : ReceivingFile) :
    (adoptTotal H path total entry s).1.entry.expectedHash =
      entry.expectedHash := by
  unfold adoptTotal
  split
  · rfl
  · split <;> rfl

/- The entry a chunk works on expects what it did. -/
theorem expectedHash_lookup
    {total : ℕ}
    {found : ChunkLookupResult}
    (hLookup : lookupOrCreateReceiving H path total peerId
      s = (some found, s')) :
    found.entry.expectedHash = expectedHashOf s path ∧
      KeepsHashes s s' := by
  unfold lookupOrCreateReceiving at hLookup
  split at hLookup
  · cases hLookup
  · unfold expectedHashOf
    cases hEntry : s.receiving.lookup path with
    | none =>
        rw [hEntry] at hLookup
        cases hLookup
        refine ⟨rfl, KeepsHashes.setReceiving
          (.of_receiving rfl) ?_⟩
        rw [expectedHashOf, hEntry]
        rfl
    | some recv =>
        rw [hEntry] at hLookup
        dsimp only at hLookup ⊢
        have hHash : (adoptTempPath path
            (adoptTotal H path total
              { recv with peerId := peerId } s).1
          ).entry.expectedHash = recv.expectedHash := by
          rw [expectedHash_adoptTempPath,
            expectedHash_adoptTotal]
        cases hLookup
        refine ⟨hHash, KeepsHashes.setReceiving
          (.of_receiving receiving_adoptTotal) ?_⟩
        rw [expectedHashOf, hEntry]
        exact hHash

/- Handling a chunk brings no new expectation about. -/
theorem keepsHashes_handleChunk :
    KeepsHashes s
      (handleChunk H chunkDataSize hdr peerId s) := by
  rw [handleChunk_eq]
  split
  · exact .of_receiving rfl
  · cases hLookup : lookupOrCreateReceiving H hdr.filePath
        hdr.totalChunks peerId s with
    | mk found s' =>
        cases found with
        | none =>
            rw [lookupOrCreateReceiving_eq_none hLookup]
            exact .of_receiving rfl
        | some found =>
            rcases expectedHash_lookup hLookup with
              ⟨hHash, hKeeps⟩
            have hOutcome := expectedHash_writePhase H
              chunkDataSize hdr found s'.disk
            dsimp only
            cases hPhase : writePhase H chunkDataSize hdr
                found s'.disk with
            | failed entry disk =>
                exact KeepsHashes.eraseReceiving hKeeps _
            | kept entry disk =>
                rw [hPhase] at hOutcome
                exact KeepsHashes.setReceiving hKeeps
                  (hOutcome.trans hHash)
            | complete entry disk =>
                intro other recv hRecv
                rw [settle, receiving_finalizeReceivedFile]
                  at hRecv
                exact KeepsHashes.eraseReceiving hKeeps
                  hdr.filePath other recv hRecv

/- Finalize expects what the chunk's entry expected. -/
theorem expectedHash_finalizeCall
    {entry : ReceivingFile}
    {disk : Disk}
    (hCall : finalizeCall H chunkDataSize hdr peerId s =
      some (entry, disk)) :
    entry.expectedHash = expectedHashOf s hdr.filePath := by
  unfold finalizeCall at hCall
  split at hCall
  · cases hCall
  · cases hLookup : lookupOrCreateReceiving H hdr.filePath
        hdr.totalChunks peerId s with
    | mk found s' =>
        rw [hLookup] at hCall
        cases found with
        | none => cases hCall
        | some found =>
            dsimp only at hCall
            have hOutcome := expectedHash_writePhase H
              chunkDataSize hdr found s'.disk
            split at hCall
            next entry' disk' hPhase =>
              cases hCall
              rw [hPhase] at hOutcome
              exact hOutcome.trans
                (expectedHash_lookup hLookup).1
            next => cases hCall

theorem keepsHashes_checkResumeEligibility
    (remoteHash : String)
    (remoteSize : ℕ) :
    KeepsHashes s
      (checkResumeEligibility H path remoteHash remoteSize
        s).2 := by
  unfold checkResumeEligibility
  split
  · exact .of_receiving rfl
  · dsimp only
    split
    · exact .of_receiving rfl
    · split
      · exact (KeepsHashes.of_receiving rfl).eraseReceiving
          path
      · split
        · exact (KeepsHashes.of_receiving
            rfl).eraseReceiving path
        · exact .of_receiving rfl

theorem keepsHashes_updateEntries
    {m : Downloads}
    {update : String → ReceivingFile → Option ReceivingFile}
    (hUpdate : ∀ path recv recv',
      update path recv = some recv' →
      recv'.expectedHash = recv.expectedHash) :
    KeepsHashes m.node (updateEntries update m).node := by
  intro path recv hRecv
  rw [lookup_updateEntries, Option.bind_eq_some_iff] at hRecv
  rcases hRecv with ⟨old, hOld, hNew⟩
  exact Or.inr ⟨old, hOld, hUpdate path old recv hNew⟩

theorem expectedHash_cleanedEntry
    {expired : Bool}
    {recv recv' : ReceivingFile}
    (hCleaned : cleanedEntry expired recv = some recv') :
    recv'.expectedHash = recv.expectedHash := by
  unfold cleanedEntry at hCleaned
  split at hCleaned
  · cases hCleaned
    rfl
  · split at hCleaned
    · cases hCleaned
    · split at hCleaned <;> cases hCleaned <;> rfl

theorem expectedHash_cancelledEntry
    {recv recv' : ReceivingFile}
    (hCancelled : cancelledEntry peerId recv = some recv') :
    recv'.expectedHash = recv.expectedHash := by
  unfold cancelledEntry at hCancelled
  split at hCancelled <;> cases hCancelled <;> rfl

end Expected

end TransferManager

namespace RecordSafety

open TransferManager

------------------------------------------------------------
-- The System
------------------------------------------------------------

/- A digest that a peer announced for a path. -/
structure Announcement where
  peerId : String
  path : String
  hash : String
deriving DecidableEq, Repr

/-
  A digest that finalize recorded for a peer and a path, and
  the digest of the bytes that had been assembled.
-/
structure Mark where
  peerId : String
  path : String
  hash : String
  contentHash : Option String
deriving DecidableEq, Repr

structure System where
  downloads : Downloads
  announced : List Announcement
  records : List Mark

/-
  A peer announces a file when its resumption is checked or
  its metadata is registered.  A restart reads the table.
-/
inductive Event where
| checkResume :
    Host → String → String → String → ℕ → Event
| register : String → String → String → ℕ → Event
| chunk : Host → ℕ → ChunkHeader → String → Event
| cleanup : Host → (String → Bool) → Event
| cancel : String → Event
| restart : Host → Event

def start (node : LocalState) : System where
  downloads :=
    { node := { node with receiving := ∅ }
      tasks := ∅
      attached := true }
  announced := []
  records := []

/- The entry that finalize makes in the sync state. -/
def markOf
    (H : Host)
    (path peerId : String)
    (call : ReceivingFile × Disk) : Option Mark :=
  (recordedHash H path peerId call.1 call.2).map (fun hash =>
    { peerId := peerId
      path := path
      hash := hash
      contentHash := (assembled H call).map H.digest.hash })

def checkStep
    (H : Host)
    (peerId path hash : String)
    (size : ℕ)
    (sys : System) : System :=
  { sys with
    downloads := { sys.downloads with
      node := (checkResumeEligibility H path hash size
        sys.downloads.node).2 }
    announced := ⟨peerId, path, hash⟩ :: sys.announced }

def registerStep
    (peerId path hash : String)
    (size : ℕ)
    (sys : System) : System :=
  { sys with
    downloads := { sys.downloads with
      node := registerExpectedMetadata path peerId hash size
        sys.downloads.node }
    announced := ⟨peerId, path, hash⟩ :: sys.announced }

def chunkStep
    (H : Host)
    (chunkDataSize : ℕ)
    (hdr : ChunkHeader)
    (peerId : String)
    (sys : System) : System :=
  { sys with
    downloads := handleChunkTask H chunkDataSize hdr peerId
      sys.downloads
    records :=
      ((finalizeCall H chunkDataSize hdr peerId
        sys.downloads.node).bind
          (markOf H hdr.filePath peerId)).toList ++
        sys.records }

def restartStep
    (H : Host)
    (sys : System) : System :=
  { sys with
    downloads := loadDownloadState H
      { node := { sys.downloads.node with receiving := ∅ }
        tasks := sys.downloads.tasks
        attached := true } }

def step
    (sys : System) : Event → Option System
| .checkResume H peerId path hash size =>
    some (checkStep H peerId path hash size sys)
| .register peerId path hash size =>
    some (registerStep peerId path hash size sys)
| .chunk H chunkDataSize hdr peerId =>
    some (chunkStep H chunkDataSize hdr peerId sys)
| .cleanup H expired =>
    some { sys with
      downloads :=
        cleanupStaleBuffers H expired sys.downloads }
| .cancel peerId =>
    some { sys with
      downloads :=
        cancelReceivesForPeer peerId sys.downloads }
| .restart H => some (restartStep H sys)

------------------------------------------------------------
-- The Invariant
------------------------------------------------------------

/- Some peer announced the digest for the path. -/
def Sourced
    (announced : List Announcement)
    (path hash : String) : Prop :=
  hash ≠ "" →
    ∃ peerId, Announcement.mk peerId path hash ∈ announced

/-
  Whatever an entry or a row of the table expects was
  announced for its path.
-/
structure HashesAnnounced (sys : System) : Prop where
  entries : ∀ path recv,
    sys.downloads.node.receiving.lookup path = some recv →
    Sourced sys.announced path recv.expectedHash
  rows : ∀ path task,
    sys.downloads.tasks.lookup path = some task →
    Sourced sys.announced path task.expectedHash

/- What is recorded is announced and verified. -/
def Verified
    (announced : List Announcement)
    (mark : Mark) : Prop :=
  Announcement.mk mark.peerId mark.path mark.hash ∈
      announced ∧
    mark.contentHash = some mark.hash

/-
  A chunk that completes its file finds an expected digest,
  and not one that only other peers announced.
-/
def Vouched (sys : System) : Event → Prop
| .chunk H chunkDataSize hdr peerId =>
    let node := sys.downloads.node
    let expected := expectedHashOf node hdr.filePath
    (finalizeCall H chunkDataSize hdr peerId
        node).isSome = true →
      expected ≠ "" ∧
        ∀ other,
          Announcement.mk other hdr.filePath expected ∈
            sys.announced →
          Announcement.mk peerId hdr.filePath expected ∈
            sys.announced
| _ => True

section Invariant

variable
  {sys sys' : System}

theorem Sourced.mono
    {announced announced' : List Announcement}
    {path hash : String}
    (hSourced : Sourced announced path hash)
    (hMore : ∀ a ∈ announced, a ∈ announced') :
    Sourced announced' path hash := by
  intro hNonempty
  rcases hSourced hNonempty with ⟨peerId, hAnnounced⟩
  exact ⟨peerId, hMore _ hAnnounced⟩

theorem Verified.mono
    {announced announced' : List Announcement}
    {mark : Mark}
    (hVerified : Verified announced mark)
    (hMore : ∀ a ∈ announced, a ∈ announced') :
    Verified announced' mark :=
  ⟨hMore _ hVerified.1, hVerified.2⟩

theorem HashesAnnounced.entries_of_keepsHashes
    (hHashes : HashesAnnounced sys)
    {node : LocalState}
    (hKeeps : KeepsHashes sys.downloads.node node)
    {path : String}
    {recv : ReceivingFile}
    (hEntry : node.receiving.lookup path = some recv) :
    Sourced sys.announced path recv.expectedHash := by
  intro hNonempty
  rcases hKeeps path recv hEntry with
    hEmpty | ⟨old, hOld, hSame⟩
  · exact absurd hEmpty hNonempty
  · rw [hSame] at hNonempty ⊢
    exact hHashes.entries path old hOld hNonempty

/- An announced digest has a source from then on. -/
theorem hashesAnnounced_register
    (hHashes : HashesAnnounced sys)
    (peerId path hash : String)
    (size : ℕ) :
    HashesAnnounced
      (registerStep peerId path hash size sys) := by
  constructor
  · intro other recv hEntry
    have hOld : ∀ old,
        sys.downloads.node.receiving.lookup other =
          some old →
        Sourced (⟨peerId, path, hash⟩ :: sys.announced)
          other old.expectedHash :=
      fun old hOld => (hHashes.entries other old hOld).mono
        (fun _ => List.mem_cons_of_mem _)
    have hNew : Sourced
        (⟨peerId, path, hash⟩ :: sys.announced) path hash :=
      fun _ => ⟨peerId, List.mem_cons_self⟩
    change (registerExpectedMetadata path peerId hash size
      sys.downloads.node).receiving.lookup other =
        some recv at hEntry
    unfold registerExpectedMetadata at hEntry
    by_cases hOther : other = path
    · subst hOther
      split at hEntry
      · simp only [setReceiving, AList.lookup_insert,
          Option.some.injEq] at hEntry
        rw [← hEntry]
        exact hNew
      · split at hEntry
        · exact hOld recv hEntry
        · simp only [setReceiving, AList.lookup_insert,
            Option.some.injEq] at hEntry
          rw [← hEntry]
          exact hNew
    · apply hOld recv
      rw [← hEntry]
      split
      · exact (AList.lookup_insert_ne hOther).symm
      · split
        · rfl
        · exact (AList.lookup_insert_ne hOther).symm
  · intro other task hRow
    exact (hHashes.rows other task hRow).mono
      (fun _ => List.mem_cons_of_mem _)

/- The rows are the old ones or made from the entries. -/
theorem HashesAnnounced.persist
    (hHashes : HashesAnnounced sys)
    (H : Host)
    {m : Downloads}
    (hTasks : m.tasks = sys.downloads.tasks)
    (hKeeps : KeepsHashes sys.downloads.node m.node) :
    HashesAnnounced { sys with
      downloads := persistDownloadState H m } := by
  by_cases hAttached : m.attached = true
  · constructor
    · intro path recv hEntry
      apply hHashes.entries_of_keepsHashes hKeeps
      rw [← hEntry]
      simp [persistDownloadState, hAttached]
    · intro path task hRow
      change (persistDownloadState H m).tasks.lookup path =
        some task at hRow
      rw [lookup_tasks_persist hAttached] at hRow
      cases hEntry : m.node.receiving.lookup path with
      | none =>
          rw [hEntry, hTasks] at hRow
          exact hHashes.rows path task hRow
      | some recv =>
          rw [hEntry] at hRow
          cases hRow
          exact hHashes.entries_of_keepsHashes hKeeps hEntry
  · have hSame : persistDownloadState H m = m := by
      simp [persistDownloadState, hAttached]
    rw [hSame]
    constructor
    · intro path recv hEntry
      exact hHashes.entries_of_keepsHashes hKeeps hEntry
    · intro path task hRow
      apply hHashes.rows path task
      rw [← hRow, ← hTasks]

/- A restart takes every expectation from a row. -/
theorem hashesAnnounced_restart
    (hHashes : HashesAnnounced sys)
    (H : Host) :
    HashesAnnounced (restartStep H sys) := by
  constructor
  · intro path recv hEntry
    change (loadDownloadState H _).node.receiving.lookup
      path = some recv at hEntry
    rw [lookup_receiving_load rfl] at hEntry
    dsimp only at hEntry
    cases hRow : sys.downloads.tasks.lookup path with
    | none =>
        rw [hRow] at hEntry
        cases hEntry
    | some task =>
        rw [hRow] at hEntry
        dsimp only at hEntry
        split at hEntry
        · cases hEntry
          exact hHashes.rows path task hRow
        · cases hEntry
  · intro path task hTask
    change (loadDownloadState H _).tasks.lookup path =
      some task at hTask
    rw [lookup_tasks_load rfl] at hTask
    dsimp only at hTask
    cases hRow : sys.downloads.tasks.lookup path with
    | none =>
        rw [hRow] at hTask
        cases hTask
    | some row =>
        rw [hRow] at hTask
        dsimp only at hTask
        split at hTask
        · cases hTask
          exact hHashes.rows path task hRow
        · cases hTask

/- No step makes up a digest that nobody announced. -/
theorem hashesAnnounced_step
    (hHashes : HashesAnnounced sys)
    {event : Event}
    (hStep : step sys event = some sys') :
    HashesAnnounced sys' := by
  cases event with
  | checkResume H peerId path hash size =>
      cases hStep
      constructor
      · intro other recv hEntry
        exact (hHashes.entries_of_keepsHashes
          (keepsHashes_checkResumeEligibility hash size)
          hEntry).mono (fun _ => List.mem_cons_of_mem _)
      · intro other task hRow
        exact (hHashes.rows other task hRow).mono
          (fun _ => List.mem_cons_of_mem _)
  | register peerId path hash size =>
      cases hStep
      exact hashesAnnounced_register hHashes _ _ _ _
  | chunk H chunkDataSize hdr peerId =>
      cases hStep
      constructor
      · intro other recv hEntry
        exact hHashes.entries_of_keepsHashes
          keepsHashes_handleChunk hEntry
      · intro other task hRow
        apply hHashes.rows other task
        simp only [chunkStep, handleChunkTask] at hRow
        split at hRow
        · by_cases hOther : other = hdr.filePath
          · subst hOther
            rw [AList.lookup_erase] at hRow
            cases hRow
          · rwa [AList.lookup_erase_ne hOther] at hRow
        · exact hRow
  | cleanup H expired =>
      cases hStep
      exact hHashes.persist H rfl (keepsHashes_updateEntries
        (fun _ _ _ => expectedHash_cleanedEntry))
  | cancel peerId =>
      cases hStep
      constructor
      · intro path recv hEntry
        exact hHashes.entries_of_keepsHashes
          (keepsHashes_updateEntries
            (fun _ _ _ => expectedHash_cancelledEntry))
          hEntry
      · exact hHashes.rows
  | restart H =>
      cases hStep
      exact hashesAnnounced_restart hHashes H

/- What a vouched chunk makes finalize record is verified. -/
theorem verified_of_markOf
    (hHashes : HashesAnnounced sys)
    {H : Host}
    {chunkDataSize : ℕ}
    {hdr : ChunkHeader}
    {peerId : String}
    (hVouched : Vouched sys
      (.chunk H chunkDataSize hdr peerId))
    {call : ReceivingFile × Disk}
    (hCall : finalizeCall H chunkDataSize hdr peerId
      sys.downloads.node = some call)
    {mark : Mark}
    (hMark : markOf H hdr.filePath peerId call =
      some mark) :
    Verified sys.announced mark := by
  have hExpected := expectedHash_finalizeCall hCall
  rcases hVouched (by rw [hCall]; rfl) with
    ⟨hNonempty, hSender⟩
  rw [← hExpected] at hNonempty hSender
  rcases Option.map_eq_some_iff.mp hMark with
    ⟨hash, hRecorded, hMade⟩
  rcases content_of_recordedHash hRecorded hNonempty with
    ⟨hHash, content, hContent, hDigest⟩
  have hSource : ∃ other,
      Announcement.mk other hdr.filePath
        call.1.expectedHash ∈ sys.announced := by
    cases hEntry : sys.downloads.node.receiving.lookup
        hdr.filePath with
    | none =>
        exfalso
        apply hNonempty
        rw [hExpected, expectedHashOf, hEntry]
    | some recv =>
        have hSame : call.1.expectedHash =
            recv.expectedHash := by
          rw [hExpected, expectedHashOf, hEntry]
        rw [hSame] at hNonempty ⊢
        exact hHashes.entries _ recv hEntry hNonempty
  rcases hSource with ⟨other, hOther⟩
  subst hMade
  constructor
  · rw [hHash]
    exact hSender other hOther
  · change (assembled H call).map H.digest.hash = some hash
    rw [hContent, Option.map_some, hDigest]

/- Everything recorded so far is announced and verified. -/
def RecordsVerified (sys : System) : Prop :=
  ∀ mark ∈ sys.records, Verified sys.announced mark

theorem recordsVerified_step
    (hHashes : HashesAnnounced sys)
    (hRecords : RecordsVerified sys)
    {event : Event}
    (hVouched : Vouched sys event)
    (hStep : step sys event = some sys') :
    RecordsVerified sys' := by
  have hGrows : ∀ announcement,
      RecordsVerified { sys with
        announced := announcement :: sys.announced } :=
    fun _ mark hMark => (hRecords mark hMark).mono
      (fun _ => List.mem_cons_of_mem _)
  cases event with
  | checkResume H peerId path hash size =>
      cases hStep
      exact hGrows ⟨peerId, path, hash⟩
  | register peerId path hash size =>
      cases hStep
      exact hGrows ⟨peerId, path, hash⟩
  | chunk H chunkDataSize hdr peerId =>
      cases hStep
      intro mark hMark
      rcases List.mem_append.mp hMark with hNew | hOld
      · rw [Option.mem_toList,
          Option.bind_eq_some_iff] at hNew
        rcases hNew with ⟨call, hCall, hMade⟩
        exact verified_of_markOf hHashes hVouched hCall hMade
      · exact hRecords mark hOld
  | cleanup H expired =>
      cases hStep
      exact hRecords
  | cancel peerId =>
      cases hStep
      exact hRecords
  | restart H =>
      cases hStep
      exact hRecords

end Invariant

/-
  In a run in which every chunk that completes a file is
  vouched for, what finalize records for a peer and a path
  was announced by that peer for that path, and is the
  digest of what was assembled.
-/
theorem recordsVerified_of_run
    {node : LocalState}
    {events : List Event}
    {sys : System}
    (hRun : Transition.run step (start node) events =
      some sys)
    (hMeets : Transition.Meets step Vouched (start node)
      events) :
    RecordsVerified sys := by
  have hStep : ∀ sys event sys',
      HashesAnnounced sys ∧ RecordsVerified sys →
      Vouched sys event →
      step sys event = some sys' →
      HashesAnnounced sys' ∧ RecordsVerified sys' :=
    fun _ _ _ hInv hVouched hStep =>
      ⟨hashesAnnounced_step hInv.1 hStep,
        recordsVerified_step hInv.1 hInv.2 hVouched hStep⟩
  have hStart : HashesAnnounced (start node) ∧
      RecordsVerified (start node) := by
    refine ⟨⟨?_, ?_⟩, ?_⟩
    · intro path recv hEntry
      cases hEntry
    · intro path task hRow
      cases hRow
    · intro mark hMark
      cases hMark
  exact (Transition.invariant_of_run hStep hStart hMeets
    hRun).2

/- One announced file, received in one chunk. -/
def announcedRun : List Event :=
  [.register "peer" "a.txt" (Digest.sampleHash [97]) 1,
    .chunk Host.plain 1024
      (blockChunk "a.txt" 1 (fun _ => [97]) 0) "peer"]

/- Its finished state, with the one mark. -/
theorem recordsVerified_of_announcedRun :
    let node :=
      LocalState.empty Host.plain .destination .oneWay
    ∃ sys, Transition.run step (start node) announcedRun =
        some sys ∧
      sys.records =
        [⟨"peer", "a.txt", Digest.sampleHash [97],
          some (Digest.sampleHash [97])⟩] ∧
      RecordsVerified sys := by
  intro node
  have hRun : Transition.run step (start node) announcedRun =
      some _ := rfl
  refine ⟨_, hRun, by decide,
    recordsVerified_of_run hRun ?_⟩
  refine ⟨trivial, ?_⟩
  intro sys hRegistered
  cases hRegistered
  exact ⟨fun _ => ⟨by decide, fun _ _ => by decide⟩,
    fun _ _ => trivial⟩

/-
  A second chunk after the file was finished: its content is
  recorded, though nobody announced it.
-/
theorem not_recordsVerified_of_late_chunk :
    let node :=
      LocalState.empty Host.plain .destination .oneWay
    ∃ sys, Transition.run step (start node)
        (announcedRun ++
          [.chunk Host.plain 1024
            (blockChunk "a.txt" 1 (fun _ => [98]) 0)
            "peer"]) =
        some sys ∧
      ¬ RecordsVerified sys := by
  refine ⟨_, rfl, ?_⟩
  intro hRecords
  have hMark := hRecords
    ⟨"peer", "a.txt", Digest.sampleHash [98],
      some (Digest.sampleHash [98])⟩ (by decide)
  exact absurd hMark.1 (by decide)

end RecordSafety

end VeritasSync
