import VeritasSync.Common.Filesystem
import VeritasSync.Common.PathUtils
import VeritasSync.Library.Reassembly
import VeritasSync.Storage.StateManager

/-
  The receiving side of the transfer manager: unfinished
  downloads, resuming them, and putting a finished one in
  its place.

  Main declarations:
    * `TransferManager.checkResumeEligibility`
    * `TransferManager.registerExpectedMetadata`
    * `TransferManager.handleChunk`
    * `TransferManager.finalizeReceivedFile`
-/

namespace VeritasSync

namespace TransferManager

open PathUtils

------------------------------------------------------------
-- Receiving Entries
------------------------------------------------------------

def setReceiving
    (path : String)
    (entry : ReceivingFile)
    (s : LocalState) : LocalState :=
  { s with receiving := s.receiving.insert path entry }

def eraseReceiving
    (path : String)
    (s : LocalState) : LocalState :=
  { s with receiving := s.receiving.erase path }

/- Remove one node, ignoring a failure. -/
def removeQuietly
    (H : Host)
    (loc : Loc)
    (s : LocalState) : LocalState :=
  { s with
    disk := (Filesystem.remove H s.disk loc).getD s.disk }

/- Where the chunks of a path are collected. -/
def tempPathOf (path : String) : String :=
  path ++ ".veritas_tmp"

/- An entry that was announced and has received nothing. -/
def announced
    (peerId hash : String)
    (size : ℕ) : ReceivingFile where
  tempPath := ""
  totalChunks := 0
  receivedChunks := 0
  receivedBitmap := []
  peerId := peerId
  expectedHash := hash
  expectedSize := size
  busy := false
  streamOpen := false

------------------------------------------------------------
-- Resuming
------------------------------------------------------------

structure ResumeInfo where
  path : String
  receivedChunks : ℕ
  totalChunks : ℕ
  expectedHash : String
  expectedSize : ℕ
  tempPath : String
deriving DecidableEq, Repr

/- The chunks received without a gap from the start. -/
def contiguous (bitmap : List Bool) : ℕ :=
  (bitmap.takeWhile id).length

/- The announced digest is not the one being received. -/
def hashChanged
    (entry : ReceivingFile)
    (remoteHash : String) : Bool :=
  entry.expectedHash != "" && remoteHash != "" &&
    entry.expectedHash != remoteHash

def sizeChanged
    (entry : ReceivingFile)
    (remoteSize : ℕ) : Bool :=
  entry.expectedSize > 0 && remoteSize > 0 &&
    entry.expectedSize != remoteSize

/- The entry has progress that is not complete. -/
def hasProgress (entry : ReceivingFile) : Bool :=
  !(entry.totalChunks > 0 &&
      entry.receivedChunks ≥ entry.totalChunks) &&
    entry.receivedChunks != 0

/-
  Decide whether a download can go on where it stopped.  A
  stale entry is dropped, with its partial content when the
  announced file is another one.
-/
def checkResumeEligibility
    (H : Host)
    (path remoteHash : String)
    (remoteSize : ℕ)
    (s : LocalState) : Option ResumeInfo × LocalState :=
  match s.receiving.lookup path with
  | none => (none, s)
  | some entry =>
      let temp := H.locate entry.tempPath
      if !hasProgress entry then
        (none, s)
      else if !Filesystem.exists? s.disk temp then
        (none, eraseReceiving path s)
      else if hashChanged entry remoteHash ||
          sizeChanged entry remoteSize then
        (none, eraseReceiving path (removeQuietly H temp s))
      else
        (some
          { path := path
            receivedChunks := contiguous entry.receivedBitmap
            totalChunks := entry.totalChunks
            expectedHash := entry.expectedHash
            expectedSize := entry.expectedSize
            tempPath := entry.tempPath },
          s)

/- The download of `path` can be resumed as announced. -/
def resumable
    (H : Host)
    (path remoteHash : String)
    (remoteSize : ℕ)
    (s : LocalState) : Bool :=
  match s.receiving.lookup path with
  | none => false
  | some entry =>
      hasProgress entry &&
        Filesystem.exists? s.disk
          (H.locate entry.tempPath) &&
        !hashChanged entry remoteHash &&
        !sizeChanged entry remoteSize

/-
  Note what the peer announced for a path.  An entry with
  progress keeps what it has.
-/
def registerExpectedMetadata
    (path peerId hash : String)
    (size : ℕ)
    (s : LocalState) : LocalState :=
  match s.receiving.lookup path with
  | none => setReceiving path (announced peerId hash size) s
  | some entry =>
      if entry.receivedChunks > 0 then
        s
      else
        setReceiving path
          { entry with
            peerId := peerId
            expectedHash := hash
            expectedSize := size } s

/- The partial content that the check throws away. -/
def discardedTemp
    (H : Host)
    (path remoteHash : String)
    (remoteSize : ℕ)
    (s : LocalState) : Option Loc :=
  match s.receiving.lookup path with
  | none => none
  | some entry =>
      let temp := H.locate entry.tempPath
      if hasProgress entry && Filesystem.exists? s.disk temp &&
          (hashChanged entry remoteHash ||
            sizeChanged entry remoteSize) then
        some temp
      else
        none

/- The disk once a discarded partial content is gone. -/
def dropTemp
    (H : Host)
    (disk : Disk)
    (temp : Option Loc) : Disk :=
  match temp with
  | none => disk
  | some temp => (Filesystem.remove H disk temp).getD disk

/-
  Between `s` and `s'` only the receiving entries changed,
  and a stale partial content went.
-/
structure Checked
    (H : Host)
    (path remoteHash : String)
    (remoteSize : ℕ)
    (s s' : LocalState) : Prop where
  role : s'.role = s.role
  mode : s'.mode = s.mode
  disk : s'.disk = dropTemp H s.disk
    (discardedTemp H path remoteHash remoteSize s)
  fileMap : s'.fileMap = s.fileMap
  dirMap : s'.dirMap = s.dirMap
  history : s'.history = s.history
  actions : s'.actions = s.actions

/-
  Everything the check can do: resume and change nothing,
  or refuse and drop at most the entry and its stale partial
  content.
-/
theorem checkResumeEligibility_cases
    (H : Host)
    (path remoteHash : String)
    (remoteSize : ℕ)
    (s : LocalState) :
    let result := checkResumeEligibility H path remoteHash
      remoteSize s
    (resumable H path remoteHash remoteSize s = true ∧
        discardedTemp H path remoteHash remoteSize s = none ∧
        ∃ info, result = (some info, s)) ∨
      (resumable H path remoteHash remoteSize s = false ∧
        ∃ s', Checked H path remoteHash remoteSize s s' ∧
          result = (none, s')) := by
  unfold checkResumeEligibility resumable
  have hNone :
      discardedTemp H path remoteHash remoteSize s = none →
        Checked H path remoteHash remoteSize s s := by
    intro hTemp
    exact ⟨rfl, rfl, by rw [hTemp]; rfl,
      rfl, rfl, rfl, rfl⟩
  have hErase :
      discardedTemp H path remoteHash remoteSize s = none →
        Checked H path remoteHash remoteSize s
          (eraseReceiving path s) := by
    intro hTemp
    exact ⟨rfl, rfl, by rw [hTemp]; rfl,
      rfl, rfl, rfl, rfl⟩
  cases hEntry : s.receiving.lookup path with
  | none =>
      refine Or.inr ⟨rfl, s, hNone ?_, rfl⟩
      simp [discardedTemp, hEntry]
  | some entry =>
      dsimp only
      cases hProgress : hasProgress entry with
      | false =>
          refine Or.inr ⟨rfl, s, hNone ?_, rfl⟩
          simp [discardedTemp, hEntry, hProgress]
      | true =>
          cases hExists : Filesystem.exists? s.disk
              (H.locate entry.tempPath) with
          | false =>
              refine Or.inr ⟨rfl, _, hErase ?_, rfl⟩
              simp [discardedTemp, hEntry, hExists]
          | true =>
              cases hChanged : (hashChanged entry remoteHash ||
                  sizeChanged entry remoteSize) with
              | true =>
                  have hTemp :
                      discardedTemp H path remoteHash
                        remoteSize s =
                          some (H.locate entry.tempPath) := by
                    simp [discardedTemp, hEntry, hProgress,
                      hExists, hChanged]
                  refine Or.inr ⟨?_, eraseReceiving path
                    (removeQuietly H (H.locate entry.tempPath)
                      s), ⟨rfl, rfl, ?_, rfl, rfl, rfl, rfl⟩,
                    rfl⟩
                  · simp only [Bool.or_eq_true] at hChanged
                    rcases hChanged with hHash | hSize
                    · simp [hHash]
                    · simp [hSize]
                  · rw [hTemp]
                    rfl
              | false =>
                  have hKeep := hChanged
                  simp only [Bool.or_eq_false_iff] at hChanged
                  refine Or.inl ⟨by simp [hChanged], ?_, ?_⟩
                  · simp [discardedTemp, hEntry, hKeep]
                  · simp

section CheckFrame

variable
  (H : Host)
  (path remoteHash : String)
  (remoteSize : ℕ)
  (s : LocalState)

/- The check answers yes exactly on a resumable download. -/
theorem checkResumeEligibility_isSome :
    (checkResumeEligibility H path remoteHash remoteSize
        s).1.isSome =
      resumable H path remoteHash remoteSize s := by
  rcases checkResumeEligibility_cases H path remoteHash
    remoteSize s with
    ⟨hResume, -, info, hEq⟩ | ⟨hResume, s', -, hEq⟩
  · rw [hEq, hResume]
    rfl
  · rw [hEq, hResume]
    rfl

/- Only receiving entries and partial contents change. -/
theorem checkResumeEligibility_checked :
    Checked H path remoteHash remoteSize s
      (checkResumeEligibility H path remoteHash remoteSize
        s).2 := by
  rcases checkResumeEligibility_cases H path remoteHash
    remoteSize s with
    ⟨-, hTemp, info, hEq⟩ | ⟨-, s', hChecked, hEq⟩
  · rw [hEq]
    exact ⟨rfl, rfl, by rw [hTemp]; rfl,
      rfl, rfl, rfl, rfl⟩
  · rw [hEq]
    exact hChecked

end CheckFrame

theorem lookup_dropTemp
    (H : Host)
    (disk : Disk)
    (temp : Option Loc)
    (key : Loc)
    (hKey : temp ≠ some key) :
    (dropTemp H disk temp).lookup key = disk.lookup key := by
  unfold dropTemp
  cases temp with
  | none => rfl
  | some temp =>
      cases hRemove : Filesystem.remove H disk temp with
      | none => simp [hRemove]
      | some disk' =>
          simp only [hRemove, Option.getD_some]
          rw [Filesystem.lookup_remove hRemove, if_neg]
          exact fun hEq => hKey (by rw [hEq])

/- No download is under way. -/
def Idle (s : LocalState) : Prop :=
  ∀ path entry, s.receiving.lookup path = some entry →
    hasProgress entry = false

theorem checkResumeEligibility_of_idle
    {H : Host}
    {path remoteHash : String}
    {remoteSize : ℕ}
    {s : LocalState}
    (hIdle : Idle s) :
    checkResumeEligibility H path remoteHash remoteSize s =
      (none, s) := by
  unfold checkResumeEligibility
  cases hEntry : s.receiving.lookup path with
  | none => rfl
  | some entry => simp [hIdle path entry hEntry]

section RegisterFrame

variable
  (path peerId hash : String)
  (size : ℕ)
  (s : LocalState)

@[simp] theorem registerExpectedMetadata_actions :
    (registerExpectedMetadata path peerId hash size
      s).actions = s.actions := by
  unfold registerExpectedMetadata
  split
  · rfl
  · split <;> rfl

@[simp] theorem registerExpectedMetadata_disk :
    (registerExpectedMetadata path peerId hash size
      s).disk = s.disk := by
  unfold registerExpectedMetadata
  split
  · rfl
  · split <;> rfl

@[simp] theorem registerExpectedMetadata_fileMap :
    (registerExpectedMetadata path peerId hash size
      s).fileMap = s.fileMap := by
  unfold registerExpectedMetadata
  split
  · rfl
  · split <;> rfl

@[simp] theorem registerExpectedMetadata_history :
    (registerExpectedMetadata path peerId hash size
      s).history = s.history := by
  unfold registerExpectedMetadata
  split
  · rfl
  · split <;> rfl

end RegisterFrame

/- Announcing a file starts no download. -/
theorem idle_registerExpectedMetadata
    (path peerId hash : String)
    (size : ℕ)
    {s : LocalState}
    (hIdle : Idle s) :
    Idle (registerExpectedMetadata path peerId hash
      size s) := by
  intro other entry hLookup
  unfold registerExpectedMetadata at hLookup
  have hElse : other ≠ path →
      ∀ new, (setReceiving path new s).receiving.lookup
        other = some entry → hasProgress entry = false := by
    intro hOther new hNew
    apply hIdle other entry
    rw [← hNew]
    exact (AList.lookup_insert_ne hOther).symm
  cases hEntry : s.receiving.lookup path with
  | none =>
      rw [hEntry] at hLookup
      by_cases hOther : other = path
      · subst hOther
        simp only [setReceiving, AList.lookup_insert,
          Option.some.injEq] at hLookup
        simp [← hLookup, announced, hasProgress]
      · exact hElse hOther _ hLookup
  | some old =>
      simp only [hEntry] at hLookup
      split at hLookup
      · exact hIdle other entry hLookup
      next hNone =>
        by_cases hOther : other = path
        · subst hOther
          simp only [setReceiving, AList.lookup_insert,
            Option.some.injEq] at hLookup
          have hZero : old.receivedChunks = 0 := by omega
          simp [← hLookup, hasProgress, hZero]
        · exact hElse hOther _ hLookup

------------------------------------------------------------
-- Finishing A Download
------------------------------------------------------------

/-
  Put the assembled content in its place: by a rename, or
  else by removing the target and copying.  The second
  component tells whether the final file was created.
-/
def moveIntoPlace
    (H : Host)
    (disk : Disk)
    (temp final : Loc) : Disk × Bool :=
  match Filesystem.rename H disk temp final with
  | some disk' => (disk', true)
  | none =>
      let cleared :=
        (Filesystem.remove H disk final).getD disk
      Filesystem.copyFile H cleared temp final

/- Record a verified file, or remove a damaged one. -/
def verifyReceivedFile
    (H : Host)
    (path peerId expectedHash : String)
    (s : LocalState) : LocalState :=
  let final := H.locate path
  let newHash := calculateSHA256 H s.disk final
  if expectedHash = "" ∨ newHash = expectedHash then
    StateManager.markFileReceived path newHash
      (StateManager.recordSyncSuccess H peerId path
        newHash s)
  else
    removeQuietly H final s

/-
  The last step of a download.  Whatever happens to the
  files, the receiving entry is gone afterwards.
-/
def finalizeReceivedFile
    (H : Host)
    (path peerId : String)
    (entry : ReceivingFile)
    (s : LocalState) : LocalState :=
  let final := H.locate path
  let temp := H.locate entry.tempPath
  let moved := moveIntoPlace H s.disk temp final
  let s := { s with disk := moved.1 }
  eraseReceiving path
    (if moved.2 then
      let s := removeQuietly H temp s
      if peerId = "" then
        s
      else
        verifyReceivedFile H path peerId entry.expectedHash s
    else
      s)

------------------------------------------------------------
-- Receiving Chunks
------------------------------------------------------------

/- A parsed chunk; `valid` when parsing went through. -/
structure ChunkHeader where
  filePath : String
  chunkIndex : ℕ
  totalChunks : ℕ
  uncompressedData : Content
  valid : Bool
deriving DecidableEq, Repr

def maxAllowedTotalChunks : ℕ := 8 * 1024 * 1024

def maxAllowedRelativePathLen : ℕ := 4096

def validateChunkHeader (hdr : ChunkHeader) : Bool :=
  hdr.valid &&
    !hdr.filePath.isEmpty &&
    hdr.filePath.utf8ByteSize ≤ maxAllowedRelativePathLen &&
    hdr.totalChunks != 0 &&
    hdr.totalChunks ≤ maxAllowedTotalChunks &&
    hdr.chunkIndex < hdr.totalChunks

/- What a chunk's task knows about its entry. -/
structure ChunkLookupResult where
  entry : ReceivingFile
  needOpenStream : Bool
  needCreateDirs : Bool
deriving DecidableEq, Repr

def resizeBitmap
    (bitmap : List Bool)
    (size : ℕ) : List Bool :=
  bitmap.take size ++
    List.replicate (size - bitmap.length) false

/- The entry of a path nobody announced. -/
def newReceiving
    (path peerId : String)
    (totalChunks : ℕ) : ReceivingFile where
  tempPath := tempPathOf path
  totalChunks := totalChunks
  receivedChunks := 0
  receivedBitmap := List.replicate totalChunks false
  peerId := peerId
  expectedHash := ""
  expectedSize := 0
  busy := true
  streamOpen := false

/-
  Bring an existing entry in line with a chunk's total.  A
  different total starts the download over.
-/
def adoptTotal
    (H : Host)
    (path : String)
    (totalChunks : ℕ)
    (entry : ReceivingFile)
    (s : LocalState) : ChunkLookupResult × LocalState :=
  if entry.totalChunks = 0 then
    ({ entry :=
        { entry with
          totalChunks := totalChunks
          receivedBitmap :=
            resizeBitmap entry.receivedBitmap totalChunks }
       needOpenStream := false
       needCreateDirs := false }, s)
  else if entry.totalChunks ≠ totalChunks then
    ({ entry :=
        { entry with
          tempPath := tempPathOf path
          totalChunks := totalChunks
          receivedChunks := 0
          receivedBitmap :=
            List.replicate totalChunks false
          streamOpen := false }
       needOpenStream := true
       needCreateDirs := true },
      if entry.tempPath = "" then
        s
      else
        removeQuietly H (H.locate entry.tempPath) s)
  else
    ({ entry := entry
       needOpenStream := false
       needCreateDirs := false }, s)

/- An announced entry learns where its chunks go. -/
def adoptTempPath
    (path : String)
    (found : ChunkLookupResult) : ChunkLookupResult :=
  if found.entry.tempPath = "" then
    { entry :=
        { found.entry with tempPath := tempPathOf path }
      needOpenStream := true
      needCreateDirs := true }
  else
    found

def lookupOrCreateReceiving
    (H : Host)
    (path : String)
    (totalChunks : ℕ)
    (peerId : String)
    (s : LocalState) :
    Option ChunkLookupResult × LocalState :=
  if !isPathSafe H path then
    (none, s)
  else
    match s.receiving.lookup path with
    | none =>
        let entry := newReceiving path peerId totalChunks
        (some ⟨entry, true, true⟩, setReceiving path entry s)
    | some entry =>
        let adopted := adoptTotal H path totalChunks
          { entry with peerId := peerId } s
        let found := adoptTempPath path adopted.1
        let entry := { found.entry with busy := true }
        (some { found with entry := entry },
          setReceiving path entry adopted.2)

/- Open the temporary file; it is created when allowed. -/
def openStream
    (H : Host)
    (disk : Disk)
    (found : ChunkLookupResult) : Option Disk :=
  let temp := H.locate found.entry.tempPath
  if found.entry.streamOpen then
    some disk
  else if H.openFails temp then
    none
  else if found.needOpenStream &&
      !Filesystem.exists? disk temp then
    if Filesystem.writable disk temp then
      some (Filesystem.writeFile H disk temp [])
    else
      none
  else
    (disk.payload? temp).map (fun _ => disk)

/-
  Overwrite the bytes from an offset on.  Seeking past the
  end leaves a gap of zeros once something is written there.
-/
def writeAt
    (content : Content)
    (offset : ℕ)
    (bytes : Content) : Content :=
  Reassembly.writeAt 0 content offset bytes

/- Write into the temporary file behind an open stream. -/
def writeStream
    (H : Host)
    (disk : Disk)
    (temp : Loc)
    (offset : ℕ)
    (bytes : Content) : Disk :=
  match disk.payload? temp with
  | none => disk
  | some file =>
      Filesystem.writeFile H disk temp
        (writeAt file.content offset bytes)

/- The write phase of a chunk, on an open stream. -/
def writeChunk
    (H : Host)
    (chunkDataSize : ℕ)
    (hdr : ChunkHeader)
    (peerId : String)
    (entry : ReceivingFile)
    (s : LocalState) : LocalState :=
  let path := hdr.filePath
  let temp := H.locate entry.tempPath
  let bitmap :=
    if entry.receivedBitmap.length ≤ hdr.chunkIndex then
      resizeBitmap entry.receivedBitmap hdr.totalChunks
    else
      entry.receivedBitmap
  if bitmap.getD hdr.chunkIndex false then
    setReceiving path
      { entry with receivedBitmap := bitmap, busy := false } s
  else if H.writeFails temp then
    eraseReceiving path (removeQuietly H temp s)
  else
    let s := { s with
      disk := writeStream H s.disk temp
        (hdr.chunkIndex * chunkDataSize)
        hdr.uncompressedData }
    let entry := { entry with
      receivedBitmap := bitmap.set hdr.chunkIndex true
      receivedChunks := entry.receivedChunks + 1 }
    if entry.receivedChunks ≥ entry.totalChunks then
      finalizeReceivedFile H path peerId entry s
    else
      setReceiving path { entry with busy := false } s

/- Handle one binary chunk. -/
def handleChunk
    (H : Host)
    (chunkDataSize : ℕ)
    (hdr : ChunkHeader)
    (peerId : String)
    (s : LocalState) : LocalState :=
  if !validateChunkHeader hdr then
    s
  else
    let path := hdr.filePath
    match lookupOrCreateReceiving H path hdr.totalChunks
        peerId s with
    | (none, s) => s
    | (some found, s) =>
        let parent := H.locate (Filesystem.parentText path)
        match
          (if found.needCreateDirs then
            Filesystem.createDirectories H s.disk parent
          else
            some s.disk) with
        | none => eraseReceiving path s
        | some disk =>
            let s := { s with disk := disk }
            match openStream H s.disk found with
            | none =>
                eraseReceiving path
                  (removeQuietly H
                    (H.locate found.entry.tempPath) s)
            | some disk =>
                writeChunk H chunkDataSize hdr peerId
                  { found.entry with streamOpen := true }
                  { s with disk := disk }

end TransferManager

end VeritasSync
