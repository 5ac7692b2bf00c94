import VeritasSync.Library.Bitmap
import VeritasSync.Sync.Upload

/-
  What one chunk does to the download it belongs to: the
  work on the entry and its temporary file, apart from the
  map the entry was found in.

  Main declarations:
    * `TransferManager.writePhase`
    * `TransferManager.handleChunk_eq`
    * `TransferManager.Counted`
    * `TransferManager.storeChunk_cases`
    * `TransferManager.prepareStream`,
      `TransferManager.KeepsFiles`
-/

namespace VeritasSync

namespace TransferManager

open PathUtils

------------------------------------------------------------
-- The Write Phase
------------------------------------------------------------

/-
  How the work on one chunk ends: its entry is given up, it
  waits for more, or it is handed to finalize.
-/
inductive ChunkOutcome where
| failed (entry : ReceivingFile) (disk : Disk)
| kept (entry : ReceivingFile) (disk : Disk)
| complete (entry : ReceivingFile) (disk : Disk)

def removeFrom
    (H : Host)
    (disk : Disk)
    (loc : Loc) : Disk :=
  (Filesystem.remove H disk loc).getD disk

/- The bitmap is made large enough for the chunk. -/
def fitBitmap
    (hdr : ChunkHeader)
    (bitmap : List Bool) : List Bool :=
  if bitmap.length ≤ hdr.chunkIndex then
    resizeBitmap bitmap hdr.totalChunks
  else
    bitmap

/- One more chunk of the entry has been written. -/
def markChunk
    (index : ℕ)
    (entry : ReceivingFile) : ReceivingFile :=
  { entry with
    receivedBitmap := entry.receivedBitmap.set index true
    receivedChunks := entry.receivedChunks + 1 }

/- Store a chunk through the entry's open stream. -/
def storeChunk
    (H : Host)
    (chunkDataSize : ℕ)
    (hdr : ChunkHeader)
    (entry : ReceivingFile)
    (disk : Disk) : ChunkOutcome :=
  let temp := H.locate entry.tempPath
  let entry := { entry with
    receivedBitmap := fitBitmap hdr entry.receivedBitmap }
  if entry.receivedBitmap.getD hdr.chunkIndex false then
    .kept { entry with busy := false } disk
  else if H.writeFails temp then
    .failed { entry with streamOpen := false }
      (removeFrom H disk temp)
  else
    let disk := writeStream H disk temp
      (hdr.chunkIndex * chunkDataSize) hdr.uncompressedData
    let entry := markChunk hdr.chunkIndex entry
    if entry.receivedChunks ≥ entry.totalChunks then
      .complete entry disk
    else
      .kept { entry with busy := false } disk

/- The work under the entry's own lock. -/
def writePhase
    (H : Host)
    (chunkDataSize : ℕ)
    (hdr : ChunkHeader)
    (found : ChunkLookupResult)
    (disk : Disk) : ChunkOutcome :=
  let parent :=
    H.locate (Filesystem.parentText hdr.filePath)
  match
    (if found.needCreateDirs then
      Filesystem.createDirectories H disk parent
    else
      some disk) with
  | none => .failed found.entry disk
  | some disk =>
      match openStream H disk found with
      | none =>
          .failed found.entry
            (removeFrom H disk
              (H.locate found.entry.tempPath))
      | some disk =>
          storeChunk H chunkDataSize hdr
            { found.entry with streamOpen := true } disk

/- What the outcome means for the map of entries. -/
def settle
    (H : Host)
    (path peerId : String)
    (outcome : ChunkOutcome)
    (s : LocalState) : LocalState :=
  match outcome with
  | .failed _ disk =>
      eraseReceiving path { s with disk := disk }
  | .kept entry disk =>
      setReceiving path entry { s with disk := disk }
  | .complete entry disk =>
      finalizeReceivedFile H path peerId entry
        { s with disk := disk }

theorem writeChunk_eq
    (H : Host)
    (chunkDataSize : ℕ)
    (hdr : ChunkHeader)
    (peerId : String)
    (entry : ReceivingFile)
    (s : LocalState) :
    writeChunk H chunkDataSize hdr peerId entry s =
      settle H hdr.filePath peerId
        (storeChunk H chunkDataSize hdr entry s.disk) s := by
  have hFit : (if entry.receivedBitmap.length ≤
      hdr.chunkIndex then
        resizeBitmap entry.receivedBitmap hdr.totalChunks
      else
        entry.receivedBitmap) =
      fitBitmap hdr entry.receivedBitmap := rfl
  unfold writeChunk storeChunk
  dsimp only [markChunk]
  rw [hFit]
  by_cases hBit : (fitBitmap hdr
      entry.receivedBitmap).getD hdr.chunkIndex false = true
  · rw [if_pos hBit, if_pos hBit]
    rfl
  · rw [if_neg hBit, if_neg hBit]
    by_cases hWrite : H.writeFails
        (H.locate entry.tempPath) = true
    · rw [if_pos hWrite, if_pos hWrite]
      rfl
    · rw [if_neg hWrite, if_neg hWrite]
      by_cases hLast :
          entry.receivedChunks + 1 ≥ entry.totalChunks
      · rw [if_pos hLast, if_pos hLast]
        rfl
      · rw [if_neg hLast, if_neg hLast]
        rfl

/- Look the entry up, work on it, and settle the outcome. -/
theorem handleChunk_eq
    (H : Host)
    (chunkDataSize : ℕ)
    (hdr : ChunkHeader)
    (peerId : String)
    (s : LocalState) :
    handleChunk H chunkDataSize hdr peerId s =
      if !validateChunkHeader hdr then
        s
      else
        match lookupOrCreateReceiving H hdr.filePath
            hdr.totalChunks peerId s with
        | (none, s) => s
        | (some found, s) =>
            settle H hdr.filePath peerId
              (writePhase H chunkDataSize hdr found s.disk)
              s := by
  unfold handleChunk writePhase
  dsimp only
  split
  · rfl
  · cases hLookup : lookupOrCreateReceiving H hdr.filePath
        hdr.totalChunks peerId s with
    | mk found s' =>
        cases found with
        | none => rfl
        | some found =>
            dsimp only
            cases (if found.needCreateDirs = true then
                Filesystem.createDirectories H s'.disk
                  (H.locate
                    (Filesystem.parentText hdr.filePath))
              else
                some s'.disk) with
            | none => rfl
            | some disk =>
                dsimp only
                cases openStream H disk found with
                | none => rfl
                | some disk' =>
                    dsimp only
                    rw [writeChunk_eq]
                    rfl

/- A finished download has no entry. -/
theorem receiving_finalizeReceivedFile
    {H : Host}
    {path peerId : String}
    {s : LocalState}
    (entry : ReceivingFile) :
    (finalizeReceivedFile H path peerId entry s).receiving =
      s.receiving.erase path := by
  unfold finalizeReceivedFile
  dsimp only
  split
  · split
    · rfl
    · unfold verifyReceivedFile
      dsimp only
      split <;> rfl
  · rfl

theorem receiving_adoptTotal
    {H : Host}
    {path : String}
    {total : ℕ}
    {entry : ReceivingFile}
    {s : LocalState} :
    (adoptTotal H path total entry s).2.receiving =
      s.receiving := by
  unfold adoptTotal
  split
  · rfl
  · split
    · dsimp only
      split <;> rfl
    · rfl

/- The entry that is handed out is the map's. -/
theorem receiving_lookupOrCreateReceiving
    {H : Host}
    {path peerId : String}
    {total : ℕ}
    {found : ChunkLookupResult}
    {s s' : LocalState}
    (hLookup : lookupOrCreateReceiving H path total peerId
      s = (some found, s')) :
    s'.receiving = s.receiving.insert path found.entry := by
  unfold lookupOrCreateReceiving at hLookup
  split at hLookup
  · cases hLookup
  · split at hLookup
    · cases hLookup
      rfl
    · cases hLookup
      rw [setReceiving, receiving_adoptTotal]

/- A chunk without an entry changes nothing. -/
theorem lookupOrCreateReceiving_eq_none
    {H : Host}
    {path peerId : String}
    {total : ℕ}
    {s s' : LocalState}
    (hLookup : lookupOrCreateReceiving H path total peerId
      s = (none, s')) :
    s' = s := by
  unfold lookupOrCreateReceiving at hLookup
  split at hLookup
  · cases hLookup
    rfl
  · split at hLookup <;> cases hLookup

------------------------------------------------------------
-- Consistent Entries
------------------------------------------------------------

/- The bits and the counter of the entry fit its total. -/
structure Counted (entry : ReceivingFile) : Prop where
  size : entry.receivedBitmap.length = entry.totalChunks
  count :
    entry.receivedChunks = entry.receivedBitmap.count true

theorem fitBitmap_of_lt
    {hdr : ChunkHeader}
    {bitmap : List Bool}
    (hInside : hdr.chunkIndex < bitmap.length) :
    fitBitmap hdr bitmap = bitmap := by
  rw [fitBitmap, if_neg (Nat.not_le.mpr hInside)]

section Store

variable
  {hdr : ChunkHeader}
  {entry : ReceivingFile}

theorem Counted.markChunk
    (hCounted : Counted entry)
    {index : ℕ}
    (hInside : index < entry.totalChunks)
    (hFresh : index ∉ Bitmap.marked entry.receivedBitmap) :
    Counted (markChunk index entry) where
  size := by
    simpa [TransferManager.markChunk] using hCounted.size
  count := by
    have hBit := Bitmap.count_set
      (hCounted.size ▸ hInside) hFresh
    simp only [TransferManager.markChunk, hCounted.count,
      hBit]

/- The counter reaches the total when every bit is set. -/
theorem Counted.total_le_iff (hCounted : Counted entry) :
    entry.totalChunks ≤ entry.receivedChunks ↔
      ∀ i < entry.totalChunks,
        i ∈ Bitmap.marked entry.receivedBitmap := by
  rw [hCounted.count, ← hCounted.size,
    Bitmap.forall_marked_iff]

/-
  A chunk of a counted entry is a duplicate, fails, or is
  written and marked.
-/
theorem storeChunk_cases
    (H : Host)
    (chunkDataSize : ℕ)
    (disk : Disk)
    (hCounted : Counted entry)
    (hInside : hdr.chunkIndex < entry.totalChunks) :
    let temp := H.locate entry.tempPath
    let marked := Bitmap.marked entry.receivedBitmap
    let written := writeStream H disk temp
      (hdr.chunkIndex * chunkDataSize) hdr.uncompressedData
    let entry' := markChunk hdr.chunkIndex entry
    (hdr.chunkIndex ∈ marked ∧
        storeChunk H chunkDataSize hdr entry disk =
          .kept { entry with busy := false } disk) ∨
      (hdr.chunkIndex ∉ marked ∧ H.writeFails temp = true ∧
        storeChunk H chunkDataSize hdr entry disk =
          .failed { entry with streamOpen := false }
            (removeFrom H disk temp)) ∨
      (hdr.chunkIndex ∉ marked ∧
        H.writeFails temp = false ∧
        (∀ i < entry.totalChunks,
          i ∈ insert hdr.chunkIndex marked) ∧
        storeChunk H chunkDataSize hdr entry disk =
          .complete entry' written) ∨
      (hdr.chunkIndex ∉ marked ∧
        H.writeFails temp = false ∧
        (¬ ∀ i < entry.totalChunks,
          i ∈ insert hdr.chunkIndex marked) ∧
        storeChunk H chunkDataSize hdr entry disk =
          .kept { entry' with busy := false } written) := by
  intro temp marked written entry'
  have hBelow : hdr.chunkIndex <
      entry.receivedBitmap.length := by
    rw [hCounted.size]
    exact hInside
  unfold storeChunk
  dsimp only
  rw [fitBitmap_of_lt hBelow]
  by_cases hMarked : hdr.chunkIndex ∈ marked
  · refine Or.inl ⟨hMarked, ?_⟩
    exact if_pos hMarked
  · have hBit : ¬ entry.receivedBitmap.getD
        hdr.chunkIndex false = true := hMarked
    rw [if_neg hBit]
    by_cases hWrite : H.writeFails temp = true
    · refine Or.inr (Or.inl ⟨hMarked, hWrite, ?_⟩)
      exact if_pos hWrite
    · have hWritten : H.writeFails temp = false :=
        Bool.eq_false_of_not_eq_true hWrite
      have hNext := hCounted.markChunk hInside hMarked
      have hAll := hNext.total_le_iff
      rw [TransferManager.markChunk,
        Bitmap.marked_set hBelow] at hAll
      rw [if_neg hWrite]
      by_cases hLast :
          entry.totalChunks ≤ entry.receivedChunks + 1
      · refine Or.inr (Or.inr (Or.inl
          ⟨hMarked, hWritten, hAll.mp hLast, ?_⟩))
        exact if_pos hLast
      · refine Or.inr (Or.inr (Or.inr
          ⟨hMarked, hWritten, fun hEvery =>
            hLast (hAll.mpr hEvery), ?_⟩))
        exact if_neg hLast

end Store

------------------------------------------------------------
-- Preparing The Stream
------------------------------------------------------------

/-
  Make the directories and open the stream of a chunk.  The
  second component tells whether the stream is open.
-/
def prepareStream
    (H : Host)
    (path : String)
    (found : ChunkLookupResult)
    (disk : Disk) : Disk × Bool :=
  let parent := H.locate (Filesystem.parentText path)
  match
    (if found.needCreateDirs then
      Filesystem.createDirectories H disk parent
    else
      some disk) with
  | none => (disk, false)
  | some disk =>
      match openStream H disk found with
      | none =>
          (removeFrom H disk
            (H.locate found.entry.tempPath), false)
      | some disk => (disk, true)

theorem writePhase_eq
    (H : Host)
    (chunkDataSize : ℕ)
    (hdr : ChunkHeader)
    (found : ChunkLookupResult)
    (disk : Disk) :
    writePhase H chunkDataSize hdr found disk =
      match prepareStream H hdr.filePath found disk with
      | (disk, true) =>
          storeChunk H chunkDataSize hdr
            { found.entry with streamOpen := true } disk
      | (disk, false) => .failed found.entry disk := by
  unfold writePhase prepareStream
  dsimp only
  cases (if found.needCreateDirs = true then
      Filesystem.createDirectories H disk
        (H.locate (Filesystem.parentText hdr.filePath))
    else
      some disk) with
  | none => rfl
  | some made =>
      dsimp only
      cases openStream H made found with
      | none => rfl
      | some opened => rfl

/- Every file of `disk` is the same in `disk'`. -/
def KeepsFiles (disk disk' : Disk) : Prop :=
  ∀ loc file, disk.payload? loc = some file →
    disk'.payload? loc = some file

theorem KeepsFiles.refl (disk : Disk) :
    KeepsFiles disk disk :=
  fun _ _ hFile => hFile

theorem KeepsFiles.trans
    {disk disk' disk'' : Disk}
    (hFirst : KeepsFiles disk disk')
    (hSecond : KeepsFiles disk' disk'') :
    KeepsFiles disk disk'' :=
  fun loc file hFile =>
    hSecond loc file (hFirst loc file hFile)

section Prepare

variable
  {H : Host}
  {path : String}
  {disk disk' : Disk}
  {found : ChunkLookupResult}

theorem keepsFiles_createDirectories
    {loc : Loc}
    (hCreate : Filesystem.createDirectories H disk loc =
      some disk') :
    KeepsFiles disk disk' := by
  intro key file hFile
  rw [FileTree.payload?_eq_some_iff] at hFile ⊢
  rw [Filesystem.lookup_createDirectories hCreate, if_neg]
  · exact hFile
  · intro hMissing
    rw [hFile] at hMissing
    cases hMissing.2

theorem keepsFiles_openStream
    (hOpen : openStream H disk found = some disk') :
    KeepsFiles disk disk' := by
  unfold openStream at hOpen
  dsimp only at hOpen
  split at hOpen
  · cases hOpen
    exact KeepsFiles.refl disk
  · split at hOpen
    · cases hOpen
    · split at hOpen
      next hNew =>
        split at hOpen
        · cases hOpen
          intro key file hFile
          rw [FileTree.payload?_eq_some_iff] at hFile ⊢
          rw [Filesystem.lookup_writeFile, if_neg]
          · exact hFile
          · rintro rfl
            simp [Filesystem.exists?, hFile] at hNew
        · cases hOpen
      next =>
        rw [Option.map_eq_some_iff] at hOpen
        rcases hOpen with ⟨file, -, hSame⟩
        rw [← hSame]
        exact KeepsFiles.refl disk

/- Behind a stream that was just opened there is a file. -/
theorem exists_file_of_openStream
    (hOpen : openStream H disk found = some disk')
    (hClosed : found.entry.streamOpen = false) :
    ∃ file, disk'.payload?
      (H.locate found.entry.tempPath) = some file := by
  unfold openStream at hOpen
  dsimp only at hOpen
  rw [hClosed, if_neg Bool.false_ne_true] at hOpen
  split at hOpen
  · cases hOpen
  · split at hOpen
    · split at hOpen
      · cases hOpen
        refine ⟨⟨[], H.now⟩, ?_⟩
        rw [FileTree.payload?_eq_some_iff,
          Filesystem.lookup_writeFile, if_pos rfl]
      · cases hOpen
    · rw [Option.map_eq_some_iff] at hOpen
      rcases hOpen with ⟨file, hFile, hSame⟩
      rw [← hSame]
      exact ⟨file, hFile⟩

/-
  Preparing keeps every file, and puts one behind a stream
  that was closed.
-/
theorem prepareStream_opened
    (hPrepare : prepareStream H path found disk =
      (disk', true)) :
    KeepsFiles disk disk' ∧
      (found.entry.streamOpen = false →
        ∃ file, disk'.payload?
          (H.locate found.entry.tempPath) = some file) := by
  unfold prepareStream at hPrepare
  dsimp only at hPrepare
  cases hMade : (if found.needCreateDirs = true then
      Filesystem.createDirectories H disk
        (H.locate (Filesystem.parentText path))
    else
      some disk) with
  | none =>
      rw [hMade] at hPrepare
      cases hPrepare
  | some made =>
      rw [hMade] at hPrepare
      dsimp only at hPrepare
      have hKeeps : KeepsFiles disk made := by
        split at hMade
        · exact keepsFiles_createDirectories hMade
        · cases hMade
          exact KeepsFiles.refl disk
      cases hOpen : openStream H made found with
      | none =>
          rw [hOpen] at hPrepare
          cases hPrepare
      | some opened =>
          rw [hOpen] at hPrepare
          cases hPrepare
          exact ⟨hKeeps.trans (keepsFiles_openStream hOpen),
            exists_file_of_openStream hOpen⟩

end Prepare

end TransferManager

end VeritasSync
