import VeritasSync.Sync.ChunkFrames
import VeritasSync.Sync.FinalizeSafety
import VeritasSync.Sync.RecordSafety
import VeritasSync.Sync.Assembly
import VeritasSync.Sync.UploadOrder

/-
  One file on its way from a node to another: the chunks of
  a complete upload, the packets they travel in, and what
  each of them does to the download.

  While the chunks come in, nothing but the temporary file
  changes on the disk, and the announced digest is kept.
  The last one has the file moved into place.

  Main declarations:
    * `TransferManager.Receiving`,
      `TransferManager.receiving_step`
    * `TransferManager.Placeable`,
      `TransferManager.finalize_of_assembled`
    * `TransferManager.accepted_of_complete`
-/

namespace VeritasSync

namespace TransferManager

open PathUtils

------------------------------------------------------------
-- What a Chunk Leaves Alone
------------------------------------------------------------

/- The disk is the base, except for the temporary file. -/
def Onto
    (H : Host)
    (path : String)
    (base disk : Disk) : Prop :=
  ∀ loc, loc ≠ H.locate (tempPathOf path) →
    disk.lookup loc = base.lookup loc

section Frame

variable
  {H : Host}
  {chunkDataSize : ℕ}
  {path : String}
  {s : LocalState}

theorem expectedHashOf_setReceiving
    (path : String)
    (entry : ReceivingFile)
    (s : LocalState) :
    expectedHashOf (setReceiving path entry s) path =
      entry.expectedHash := by
  unfold expectedHashOf setReceiving
  rw [AList.lookup_insert]

theorem Onto.writeStream
    {base disk : Disk}
    {entry : ReceivingFile}
    (hOnto : Onto H path base disk)
    (hTemp : entry.tempPath = tempPathOf path)
    (offset : ℕ)
    (bytes : Content) :
    Onto H path base
      (writeStream H disk (H.locate entry.tempPath) offset
        bytes) := by
  intro loc hLoc
  unfold TransferManager.writeStream
  split
  · exact hOnto loc hLoc
  · rw [Filesystem.lookup_writeFile, hTemp, if_neg hLoc]
    exact hOnto loc hLoc

/- A missing temporary file is created among directories. -/
theorem exists_onto_of_new
    (chunkDataSize : ℕ)
    {hdr : ChunkHeader}
    {entry : ReceivingFile}
    {disk made : Disk}
    (hPath : hdr.filePath = path)
    (hTemp : entry.tempPath = tempPathOf path)
    (hStream : entry.streamOpen = false)
    (hMissing : Filesystem.exists? disk
      (H.locate (tempPathOf path)) = false)
    (hOpens : H.openFails (H.locate (tempPathOf path)) = false)
    (hMade : Filesystem.createDirectories H disk
      (H.locate (Filesystem.parentText path)) = some made)
    (hWritable : Filesystem.writable made
      (H.locate (tempPathOf path)) = true) :
    ∃ disk',
      writePhase H chunkDataSize hdr ⟨entry, true, true⟩
          disk =
        storeChunk H chunkDataSize hdr
          { entry with streamOpen := true } disk' ∧
      disk'.payload? (H.locate (tempPathOf path)) =
        some ⟨[], H.now⟩ ∧
      Onto H path made disk' := by
  have hStill : Filesystem.exists? made
      (H.locate (tempPathOf path)) = false := by
    have hLookup := Filesystem.lookup_createDirectories hMade
      (H.locate (tempPathOf path))
    split at hLookup
    · simp [Filesystem.writable, hLookup] at hWritable
    · unfold Filesystem.exists?
      rw [hLookup]
      exact hMissing
  refine ⟨Filesystem.writeFile H made
    (H.locate (tempPathOf path)) [], ?_, ?_, ?_⟩
  · simp [writePhase, hPath, hMade, openStream, hTemp,
      hStream, hOpens, hStill, hWritable]
  · rw [FileTree.payload?_eq_some_iff,
      Filesystem.lookup_writeFile, if_pos rfl]
  · intro loc hLoc
    rw [Filesystem.lookup_writeFile, if_neg hLoc]

end Frame

------------------------------------------------------------
-- A Download and What Surrounds It
------------------------------------------------------------

section Download

variable
  (H : Host)
  (path : String)
  (total : ℕ)
  (P : Set ℕ → Content → Prop)

/-
  A download that has received the chunks in `arrived`, on a
  disk that is `base` otherwise.
-/
structure Receiving
    (base : Disk)
    (expected : String)
    (arrived : Set ℕ)
    (s : LocalState) : Prop where
  expected : expectedHashOf s path = expected
  opens : H.openFails (H.locate (tempPathOf path)) = false
  writable : Filesystem.writable base
    (H.locate (tempPathOf path)) = true
  state : (arrived = ∅ ∧ Unstarted H path s ∧
      Filesystem.createDirectories H s.disk
        (H.locate (Filesystem.parentText path)) =
          some base) ∨
    ∃ entry, s.receiving.lookup path = some entry ∧
      Working H path total P arrived entry s.disk ∧
        Onto H path base s.disk

variable
  {H path total P}
  {chunkDataSize : ℕ}
  {blocks : ℕ → Content}
  {base : Disk}
  {expected : String}
  {arrived : Set ℕ}
  {s : LocalState}

/- A chunk finds its entry, its file, and all else as it was. -/
theorem exists_working_of_receiving
    (chunkDataSize : ℕ)
    (blocks : ℕ → Content)
    (hSafe : isPathSafe H path = true)
    (hTotal : 0 < total)
    (hEmpty : arrived = ∅ → P ∅ [])
    (hReceiving : Receiving H path total P base expected
      arrived s)
    (i : ℕ)
    (peerId : String) :
    ∃ found s' entry disk,
      lookupOrCreateReceiving H path total peerId s =
        (some found, s') ∧
      writePhase H chunkDataSize
          (blockChunk path total blocks i) found s'.disk =
        storeChunk H chunkDataSize
          (blockChunk path total blocks i) entry disk ∧
      Working H path total P arrived entry disk ∧
      Onto H path base disk ∧
      entry.expectedHash = expected := by
  rcases hReceiving with ⟨hExpected, hOpens, hWritable,
    ⟨rfl, hUnstarted, hMade⟩ | ⟨entry, hEntry, hWorking, hOnto⟩⟩
  · rcases lookupOrCreateReceiving_of_unstarted hSafe
      hUnstarted.entry total peerId with
      ⟨entry, hLookup, hTemp, hCount, hZero, hBits,
        hStream⟩
    have hHere : (blockChunk path total blocks i).filePath =
      path := rfl
    rcases exists_onto_of_new chunkDataSize hHere hTemp
      hStream hUnstarted.temp hOpens hMade hWritable with
      ⟨disk, hPhase, hFile, hOnto⟩
    have hHash := (expectedHash_lookup hLookup).1
    refine ⟨_, _, _, disk, hLookup, hPhase, ?_, hOnto,
      hHash.trans hExpected⟩
    refine ⟨hTemp, hCount, ⟨?_, ?_⟩, rfl, ?_,
      _, hFile, hEmpty rfl⟩
    · simp [hBits, hCount]
    · simp [hBits, hZero, List.count_replicate]
    · rw [hBits, Bitmap.marked_replicate]
  · have hCount := hWorking.total
    subst hCount
    have hNonempty : entry.tempPath ≠ "" := by
      rw [hWorking.temp]
      exact tempPathOf_ne_empty path
    have hLookup := lookupOrCreateReceiving_of_entry hSafe
      hEntry hTotal hNonempty peerId
    have hHash := (expectedHash_lookup hLookup).1
    refine ⟨_, _, _, s.disk, hLookup,
      writePhase_of_open hWorking.stream, ?_, hOnto,
      hHash.trans hExpected⟩
    exact ⟨hWorking.temp, hWorking.total,
      ⟨hWorking.counted.size, hWorking.counted.count⟩,
      hWorking.stream, hWorking.marks, hWorking.file⟩

theorem Receivable.path_ne_empty
    (hReceivable : Receivable H path) :
    path ≠ "" := by
  rintro rfl
  have hSafe := hReceivable.safe
  simp [isPathSafe, isPathSafeWithCanonicalRoot] at hSafe

/-
  One more chunk: either it is the last one and finalize
  gets the assembled file, or the download goes on.
-/
theorem receiving_step
    (hReceivable : Receivable H path)
    (hLimit : total ≤ maxAllowedTotalChunks)
    (hSteps : Steps chunkDataSize total blocks P)
    (hEmpty : arrived = ∅ → P ∅ [])
    (hReceiving : Receiving H path total P base expected
      arrived s)
    (hMissing : ¬ ∀ k < total, k ∈ arrived)
    {i : ℕ}
    (hInside : i < total)
    (peerId : String) :
    let hdr := blockChunk path total blocks i
    ((∀ k < total, k ∈ insert i arrived) ∧
        ∃ (entry : ReceivingFile) (disk : Disk)
          (s' : LocalState),
          handleChunk H chunkDataSize hdr peerId s =
            finalizeReceivedFile H path peerId entry
              { s' with disk := disk } ∧
          Working H path total P (insert i arrived)
            entry disk ∧
          Onto H path base disk ∧
          entry.expectedHash = expected) ∨
      ((¬ ∀ k < total, k ∈ insert i arrived) ∧
        Receiving H path total P base expected
          (insert i arrived)
          (handleChunk H chunkDataSize hdr peerId s)) := by
  intro hdr
  have hValid : validateChunkHeader hdr = true := by
    have hNonempty := hReceivable.path_ne_empty
    simp only [validateChunkHeader, hdr, blockChunk,
      Bool.true_and, Bool.and_eq_true, Bool.not_eq_true',
      decide_eq_true_eq, bne_iff_ne]
    refine ⟨⟨⟨⟨?_, hReceivable.length⟩, by omega⟩,
      hLimit⟩, hInside⟩
    simpa using hNonempty
  rcases exists_working_of_receiving chunkDataSize blocks
    hReceivable.safe (Nat.zero_lt_of_lt hInside) hEmpty
    hReceiving i peerId with
    ⟨found, s', entry, disk, hLookup, hPhase, hWorking,
      hOnto, hHash⟩
  have hHandle : handleChunk H chunkDataSize hdr peerId s =
      settle H path peerId
        (storeChunk H chunkDataSize hdr entry disk) s' := by
    have hHere : lookupOrCreateReceiving H hdr.filePath
        hdr.totalChunks peerId s = (some found, s') :=
      hLookup
    rw [handleChunk_eq, hValid, ← hPhase, hHere]
    rfl
  rw [hHandle]
  have hBelow : hdr.chunkIndex < entry.totalChunks := by
    rw [hWorking.total]
    exact hInside
  have hGoesOn : ∀ (entry' : ReceivingFile) (disk' : Disk)
      (arrived' : Set ℕ),
      Working H path total P arrived' entry' disk' →
      Onto H path base disk' →
      entry'.expectedHash = expected →
      Receiving H path total P base expected arrived'
        (settle H path peerId
          (.kept { entry' with busy := false } disk') s') := by
    intro entry' disk' arrived' hWorking' hOnto' hHash'
    refine ⟨?_, hReceiving.opens, hReceiving.writable,
      Or.inr ⟨_, AList.lookup_insert _, ?_, hOnto'⟩⟩
    · exact (expectedHashOf_setReceiving _ _ _).trans hHash'
    · exact ⟨hWorking'.temp, hWorking'.total,
        ⟨hWorking'.counted.size, hWorking'.counted.count⟩,
        hWorking'.stream, hWorking'.marks, hWorking'.file⟩
  rcases storeChunk_cases H chunkDataSize disk
    hWorking.counted hBelow with
    ⟨hDuplicate, hStore⟩ | ⟨-, hFails, -⟩ |
    ⟨hFresh, -, hAll, hStore⟩ | ⟨hFresh, -, hRest, hStore⟩
  · rw [hWorking.marks] at hDuplicate
    have hSame : insert i arrived = arrived :=
      Set.insert_eq_of_mem hDuplicate
    rw [hStore, hSame]
    exact Or.inr ⟨hMissing, hGoesOn _ _ _ hWorking hOnto hHash⟩
  · rw [hWorking.temp, hReceivable.writes] at hFails
    cases hFails
  · rw [hWorking.marks] at hFresh hAll
    rw [hWorking.total] at hAll
    rw [hStore]
    exact Or.inl ⟨hAll, _, _, s', rfl,
      hWorking.markChunk hSteps hInside hFresh,
      hOnto.writeStream hWorking.temp _ _, hHash⟩
  · rw [hWorking.marks] at hFresh hRest
    rw [hWorking.total] at hRest
    rw [hStore]
    exact Or.inr ⟨hRest, hGoesOn _ _ _
      (hWorking.markChunk hSteps hInside hFresh)
      (hOnto.writeStream hWorking.temp _ _) hHash⟩

end Download

------------------------------------------------------------
-- Into Place
------------------------------------------------------------

/-
  The file can be moved to where it belongs, next to its
  temporary file, and read there.
-/
structure Placeable
    (H : Host)
    (path : String)
    (disk : Disk) : Prop where
  parent : (H.locate path).dropLast =
    (H.locate (tempPathOf path)).dropLast
  apart : H.locate (tempPathOf path) ≠ H.locate path
  below : ¬ H.locate path <+:
    H.locate (Filesystem.parentText path)
  file : disk.lookup (H.locate path) ≠ some .dir
  moves : H.renameFails (H.locate (tempPathOf path))
    (H.locate path) = false
  reads : H.openFails (H.locate path) = false

section Place

variable
  {H : Host}
  {path : String}
  {base disk : Disk}
  {file : File}

/- Neither of two places with one parent is above the other. -/
theorem eq_of_prefix_of_dropLast
    {left right : Loc}
    (hParent : left.dropLast = right.dropLast)
    (hSome : left ≠ [])
    (hPrefix : left <+: right) :
    left = right := by
  have hLength := congrArg List.length hParent
  rw [List.length_dropLast, List.length_dropLast] at hLength
  have hLess := hPrefix.length_le
  have hPos := List.length_pos_iff.mpr hSome
  exact hPrefix.eq_of_length (by omega)

theorem exists_rename
    (hPlaceable : Placeable H path base)
    (hWritable : Filesystem.writable base
      (H.locate (tempPathOf path)) = true)
    (hOnto : Onto H path base disk)
    (hFile : disk.lookup (H.locate (tempPathOf path)) =
      some (.file file)) :
    ∃ moved, Filesystem.rename H disk
        (H.locate (tempPathOf path)) (H.locate path) =
          some moved ∧
      moved.lookup (H.locate path) = some (.file file) ∧
      moved.lookup (H.locate (tempPathOf path)) = none := by
  unfold Filesystem.writable at hWritable
  rw [Bool.and_eq_true, beq_iff_eq, bne_iff_ne] at hWritable
  have hAbove : (H.locate (tempPathOf path)).dropLast ≠
      H.locate (tempPathOf path) := by
    intro hSame
    rw [hSame] at hWritable
    exact hWritable.2 hWritable.1
  have hSome : H.locate (tempPathOf path) ≠ [] := by
    intro hNil
    rw [hNil] at hAbove
    exact hAbove rfl
  have hPossible : Filesystem.renamePossible disk
      (H.locate (tempPathOf path)) (H.locate path) = true := by
    have hDir : disk.lookup (H.locate path).dropLast =
        some .dir := by
      rw [hPlaceable.parent, hOnto _ hAbove]
      exact hWritable.1
    have hTarget : disk.lookup (H.locate path) ≠
        some .dir := by
      rw [hOnto _ hPlaceable.apart.symm]
      exact hPlaceable.file
    have hNot : (decide (H.locate (tempPathOf path) <+:
        H.locate path) && H.locate (tempPathOf path) !=
          H.locate path) = false := by
      rw [Bool.and_eq_false_iff]
      refine Or.inl (decide_eq_false fun hPrefix => ?_)
      exact hPlaceable.apart (eq_of_prefix_of_dropLast
        hPlaceable.parent.symm hSome hPrefix)
    unfold Filesystem.renamePossible
    rw [hDir, hNot, hFile]
    cases hOld : disk.lookup (H.locate path) with
    | none => rfl
    | some node =>
        cases node with
        | file old => rfl
        | dir => exact absurd hOld hTarget
  have hRename : Filesystem.rename H disk
      (H.locate (tempPathOf path)) (H.locate path) =
        some (FileTree.rename (H.locate (tempPathOf path))
          (H.locate path) disk) := by
    unfold Filesystem.rename
    rw [if_neg (by simp [hPlaceable.moves]), if_pos hPossible]
  refine ⟨_, hRename, ?_, ?_⟩
  · rw [Filesystem.lookup_rename_target hRename, hFile]
  · rw [Filesystem.lookup_rename hRename, if_neg, if_pos]
    · exact List.prefix_refl _
    · intro hPrefix
      have hFinal : H.locate path ≠ [] := by
        intro hNil
        have hBoth := hPlaceable.parent
        rw [hNil, List.dropLast_nil] at hBoth
        have hRoot := hOnto _ hPlaceable.apart.symm
        rw [hNil] at hRoot
        rw [← hBoth] at hWritable
        have hNotDir := hPlaceable.file
        rw [hNil] at hNotDir
        exact hNotDir hWritable.1
      exact hPlaceable.apart (eq_of_prefix_of_dropLast
        hPlaceable.parent hFinal hPrefix).symm

/- A verified file is where it belongs, and nowhere else. -/
theorem finalize_of_assembled
    {entry : ReceivingFile}
    {s : LocalState}
    (peerId : String)
    (hPlaceable : Placeable H path base)
    (hWritable : Filesystem.writable base
      (H.locate (tempPathOf path)) = true)
    (hOnto : Onto H path base disk)
    (hTemp : entry.tempPath = tempPathOf path)
    (hFile : disk.lookup (H.locate (tempPathOf path)) =
      some (.file file))
    (hExpected : entry.expectedHash = "" ∨
      entry.expectedHash = H.digest.hash file.content) :
    let s' := finalizeReceivedFile H path peerId entry
      { s with disk := disk }
    s'.disk.lookup (H.locate path) = some (.file file) ∧
      s'.disk.lookup (H.locate (tempPathOf path)) = none ∧
      s'.receiving.lookup path = none := by
  intro s'
  rcases exists_rename hPlaceable hWritable hOnto hFile with
    ⟨moved, hRename, hFinal, hGone⟩
  have hMoved : moveIntoPlace H disk
      (H.locate (tempPathOf path)) (H.locate path) =
        (moved, true) := by
    unfold moveIntoPlace
    rw [hRename]
  have hQuiet : ∀ s₀ : LocalState, s₀.disk = moved →
      removeQuietly H (H.locate (tempPathOf path)) s₀ =
        s₀ := by
    intro s₀ hDisk
    have hNone : Filesystem.remove H s₀.disk
        (H.locate (tempPathOf path)) = none := by
      cases hRemove : Filesystem.remove H s₀.disk
          (H.locate (tempPathOf path)) with
      | none => rfl
      | some disk' =>
          rw [hDisk] at hRemove
          exact absurd hGone
            (Filesystem.lookup_ne_none_of_remove hRemove)
    unfold removeQuietly
    rw [hNone]
    rfl
  have hDigest : ∀ s₀ : LocalState, s₀.disk = moved →
      (verifyReceivedFile H path peerId entry.expectedHash
        s₀).disk = moved := by
    intro s₀ hDisk
    have hHash : calculateSHA256 H s₀.disk (H.locate path) =
        H.digest.hash file.content := by
      rw [hDisk]
      exact calculateSHA256_of_file hFinal hPlaceable.reads
    unfold verifyReceivedFile
    dsimp only
    rw [if_pos]
    · exact hDisk
    · rw [hHash]
      exact hExpected.imp_right Eq.symm
  have hDisk : s'.disk = moved := by
    simp only [s', finalizeReceivedFile, hTemp, hMoved]
    rw [if_pos trivial]
    split
    · rw [hQuiet _ rfl]
      rfl
    · rw [hQuiet _ rfl]
      exact hDigest _ rfl
  refine ⟨?_, ?_, ?_⟩
  · rw [hDisk]
    exact hFinal
  · rw [hDisk]
    exact hGone
  · rw [receiving_finalizeReceivedFile]
    exact AList.lookup_erase _ _

/- Making directories above the file leaves it placeable. -/
theorem Placeable.createDirectories
    (hPlaceable : Placeable H path disk)
    (hMade : Filesystem.createDirectories H disk
      (H.locate (Filesystem.parentText path)) = some base) :
    Placeable H path base := by
  refine ⟨hPlaceable.parent, hPlaceable.apart,
    hPlaceable.below, ?_, hPlaceable.moves,
    hPlaceable.reads⟩
  rw [Filesystem.lookup_createDirectories hMade, if_neg]
  · exact hPlaceable.file
  · exact fun hAbove => hPlaceable.below hAbove.1

end Place

------------------------------------------------------------
-- From One Disk to Another
------------------------------------------------------------

/- A header with the bytes of its path. -/
def toWire (hdr : ChunkHeader) : WireHeader where
  filePath := hdr.filePath.toUTF8.data.toList
  chunkIndex := hdr.chunkIndex
  totalChunks := hdr.totalChunks
  uncompressedData := hdr.uncompressedData
  valid := hdr.valid

theorem toWire_injective :
    Function.Injective toWire := by
  rintro ⟨path, index, total, data, valid⟩
    ⟨path', index', total', data', valid'⟩ hSame
  simp only [toWire, WireHeader.mk.injEq] at hSame
  rcases hSame with ⟨hPath, rfl, rfl, rfl, rfl⟩
  have hBytes : path.toByteArray = path'.toByteArray :=
    ByteArray.ext (Array.toList_inj.mp hPath)
  rw [String.toByteArray_inj.mp hBytes]

/- The receiver reads the chunk that was handed over. -/
theorem parseChunkPayload_binaryPacket
    (S : Snappy)
    {hdr : ChunkHeader}
    (hPath : hdr.filePath ≠ "")
    (hLong : hdr.filePath.utf8ByteSize ≤ 65535)
    (hIndex : hdr.chunkIndex < 2 ^ 32)
    (hTotal : hdr.totalChunks < 2 ^ 32)
    (hValid : hdr.valid = true) :
    (parseChunkPayload S
      (Outgoing.binaryPacket S.compress hdr).tail).1 =
        toWire hdr := by
  have hBytes : (toWire hdr).filePath.length =
      hdr.filePath.utf8ByteSize := rfl
  have hSome : 0 < hdr.filePath.utf8ByteSize := by
    rw [Nat.pos_iff_ne_zero]
    exact fun hZero =>
      hPath (String.utf8ByteSize_eq_zero_iff.mp hZero)
  have hParsed := parseChunkPayload_chunkPayload S
    (show 1 ≤ (toWire hdr).filePath.length ∧
      (toWire hdr).filePath.length ≤ 65535 by omega)
    hIndex hTotal
  rw [binaryPacket_eq_chunkPacket]
  refine hParsed.trans ?_
  unfold toWire
  rw [hValid]

/- A complete upload has sent every chunk of its file. -/
theorem accepted_of_complete
    {H : Host}
    {config : TransferConfig}
    {peerId : String}
    {payload : Json}
    {s : LocalState}
    {events : List Upload.Event}
    {u₀ u : Upload}
    {content : Content}
    (hQueued : queueUpload H peerId payload s = some u₀)
    (hWhole : u₀.currentChunk = 0)
    (hSame : ∀ e ∈ events, Upload.Unchanged content e)
    (hRun : Transition.run (Upload.step config) u₀ events =
      some u)
    (hComplete : u.phase = .ended .complete)
    (hFits : Reassembly.pieceCount config.chunkDataSize
      content.length < 2 ^ 32) :
    let count := Reassembly.pieceCount
      config.chunkDataSize content.length
    u.accepted =
      (List.range count).map (blockChunk u₀.path count
        (Reassembly.piece config.chunkDataSize
          content)) := by
  intro count
  have hOrder := Upload.inOrder_of_run hQueued hSame hRun
  rcases hOrder.sound.complete hComplete with
    ⟨hOpened, hDone⟩
  rcases Option.ne_none_iff_exists'.mp hOpened with ⟨n, hN⟩
  have hWithin := hOrder.sound.within
  have hTotal : u.totalChunks = count := by
    rw [hOrder.sound.total n hN, hOrder.size n hN]
    exact chunkCount_eq_pieceCount hFits
  have hCurrent : u.currentChunk = count := by omega
  have hChunk : Upload.chunkOf config u₀.path content =
      blockChunk u₀.path count
        (Reassembly.piece config.chunkDataSize
          content) := by
    funext i
    simp only [Upload.chunkOf, blockChunk,
      chunkCount_eq_pieceCount hFits, count]
  rw [hOrder.accepted_eq, hWhole, hCurrent, Nat.sub_zero,
    List.range_eq_range', hChunk]

end TransferManager

end VeritasSync
