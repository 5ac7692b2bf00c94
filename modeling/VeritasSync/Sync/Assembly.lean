import VeritasSync.Sync.ChunkReceipt

/-
  Putting a file together from its chunks, whatever the
  order in which they arrive and however often.

  Main declarations:
    * `TransferManager.finalizeCalls`
    * `TransferManager.Working`, `TransferManager.Ready`
    * `TransferManager.finalizeCalls_of_missing`
    * `TransferManager.finalizeCalls_of_last`
    * `TransferManager.finalize_exactly_when_complete`
-/

namespace VeritasSync

namespace TransferManager

open PathUtils

------------------------------------------------------------
-- The Chunks Of A File
------------------------------------------------------------

/- One chunk of a file that is sent as these blocks. -/
def blockChunk
    (path : String)
    (total : ℕ)
    (blocks : ℕ → Content)
    (i : ℕ) : ChunkHeader where
  filePath := path
  chunkIndex := i
  totalChunks := total
  uncompressedData := blocks i
  valid := true

/- One chunk of a file's content. -/
def chunkOf
    (chunkDataSize : ℕ)
    (path : String)
    (content : Content)
    (i : ℕ) : ChunkHeader :=
  blockChunk path (chunkCount chunkDataSize content.length)
    (Reassembly.piece chunkDataSize content) i

/- An upload sends the chunks of the file on its disk. -/
theorem nextChunk_eq
    {H : Host}
    {chunkDataSize : ℕ}
    {ctx : UploadContext}
    {s : LocalState}
    {file : File}
    (hFile : s.disk.payload? (H.locate ctx.path) = some file)
    (hTotal : ctx.totalChunks =
      chunkCount chunkDataSize file.content.length) :
    nextChunk H chunkDataSize ctx s =
      chunkOf chunkDataSize ctx.path file.content
        ctx.currentChunk := by
  simp only [nextChunk, hFile, hTotal]
  rfl

theorem chunkCount_eq_pieceCount
    {chunkDataSize size : ℕ}
    (hFits : Reassembly.pieceCount chunkDataSize size <
      2 ^ 32) :
    chunkCount chunkDataSize size =
      Reassembly.pieceCount chunkDataSize size := by
  unfold chunkCount
  unfold Reassembly.pieceCount at hFits ⊢
  split at hFits
  · next hSize =>
    rw [if_pos hSize, if_pos hSize, Nat.mod_eq_of_lt hFits]
  · next hSize => rw [if_neg hSize, if_neg hSize]

------------------------------------------------------------
-- Calls Of Finalize
------------------------------------------------------------

/- What handling the chunk hands to finalize, if it does. -/
def finalizeCall
    (H : Host)
    (chunkDataSize : ℕ)
    (hdr : ChunkHeader)
    (peerId : String)
    (s : LocalState) : Option (ReceivingFile × Disk) :=
  if !validateChunkHeader hdr then
    none
  else
    match lookupOrCreateReceiving H hdr.filePath
        hdr.totalChunks peerId s with
    | (none, _) => none
    | (some found, s) =>
        match writePhase H chunkDataSize hdr found s.disk with
        | .complete entry disk => some (entry, disk)
        | _ => none

/- One entry for each chunk, in the order they arrive. -/
def finalizeCalls
    (H : Host)
    (chunkDataSize : ℕ) :
    List (ChunkHeader × String) →
      LocalState → List (Option (ReceivingFile × Disk))
| [], _ => []
| (hdr, peerId) :: rest, s =>
    finalizeCall H chunkDataSize hdr peerId s ::
      finalizeCalls H chunkDataSize rest
        (handleChunk H chunkDataSize hdr peerId s)

/- The bytes in the temporary file at a call of finalize. -/
def assembled
    (H : Host)
    (call : ReceivingFile × Disk) : Option Content :=
  (call.2.payload? (H.locate call.1.tempPath)).map
    File.content

/- A call of finalize is all that is left of the chunk. -/
theorem handleChunk_of_finalizeCall
    {H : Host}
    {chunkDataSize : ℕ}
    {hdr : ChunkHeader}
    {peerId : String}
    {s : LocalState}
    {entry : ReceivingFile}
    {disk : Disk}
    (hCall : finalizeCall H chunkDataSize hdr peerId s =
      some (entry, disk)) :
    ∃ s' : LocalState, handleChunk H chunkDataSize hdr peerId s =
      finalizeReceivedFile H hdr.filePath peerId entry
        { s' with disk := disk } := by
  rw [handleChunk_eq]
  unfold finalizeCall at hCall
  split at hCall
  · cases hCall
  · next hValid =>
    rw [if_neg hValid]
    cases hLookup : lookupOrCreateReceiving H hdr.filePath
        hdr.totalChunks peerId s with
    | mk found s' =>
        rw [hLookup] at hCall
        cases found with
        | none => cases hCall
        | some found =>
            dsimp only at hCall ⊢
            split at hCall
            next entry' disk' hPhase =>
              cases hCall
              rw [hPhase]
              exact ⟨s', rfl⟩
            next => cases hCall

------------------------------------------------------------
-- A Download Under Way
------------------------------------------------------------

/- Chunks for the path are accepted and can be written. -/
structure Receivable
    (H : Host)
    (path : String) : Prop where
  safe : isPathSafe H path = true
  length : path.utf8ByteSize ≤ maxAllowedRelativePathLen
  writes : H.writeFails (H.locate (tempPathOf path)) = false

/- The temporary file can be made and opened. -/
structure Storable
    (H : Host)
    (path : String)
    (disk : Disk) : Prop where
  opens : H.openFails (H.locate (tempPathOf path)) = false
  parent : ∃ disk',
    Filesystem.createDirectories H disk
        (H.locate (Filesystem.parentText path)) =
      some disk' ∧
    Filesystem.writable disk' (H.locate (tempPathOf path)) =
      true

/- Nothing of the file has been received yet. -/
structure Unstarted
    (H : Host)
    (path : String)
    (s : LocalState) : Prop where
  entry : s.receiving.lookup path = none ∨
    ∃ peerId hash size, s.receiving.lookup path =
      some (announced peerId hash size)
  temp : Filesystem.exists? s.disk
    (H.locate (tempPathOf path)) = false

section Assembly

variable
  (H : Host)
  (chunkDataSize : ℕ)
  (path : String)
  (total : ℕ)
  (blocks : ℕ → Content)
  (P : Set ℕ → Content → Prop)

/-
  The entry and its temporary file, after the chunks in
  `arrived`.
-/
structure Working
    (arrived : Set ℕ)
    (entry : ReceivingFile)
    (disk : Disk) : Prop where
  temp : entry.tempPath = tempPathOf path
  total : entry.totalChunks = total
  counted : Counted entry
  stream : entry.streamOpen = true
  marks : Bitmap.marked entry.receivedBitmap = arrived
  file : ∃ file,
    disk.payload? (H.locate (tempPathOf path)) = some file ∧
      P arrived file.content

/- The next chunk can be stored without a failure. -/
def Ready
    (arrived : Set ℕ)
    (s : LocalState) : Prop :=
  (arrived = ∅ ∧ Unstarted H path s ∧
      Storable H path s.disk) ∨
    ∃ entry, s.receiving.lookup path = some entry ∧
      Working H path total P arrived entry s.disk

variable
  {H chunkDataSize path total blocks P}
  {arrived : Set ℕ}
  {entry : ReceivingFile}
  {disk : Disk}
  {s : LocalState}

theorem tempPathOf_ne_empty (path : String) :
    tempPathOf path ≠ "" := by
  intro hEmpty
  have hLength := congrArg String.length hEmpty
  simp [tempPathOf] at hLength

/- An entry that has everything the chunk needs. -/
theorem lookupOrCreateReceiving_of_entry
    (hSafe : isPathSafe H path = true)
    (hEntry : s.receiving.lookup path = some entry)
    (hPos : 0 < entry.totalChunks)
    (hTemp : entry.tempPath ≠ "")
    (peerId : String) :
    lookupOrCreateReceiving H path entry.totalChunks
        peerId s =
      (some
        { entry :=
            { entry with peerId := peerId, busy := true }
          needOpenStream := false
          needCreateDirs := false },
        setReceiving path
          { entry with peerId := peerId, busy := true }
          s) := by
  have hZero : entry.totalChunks ≠ 0 := by omega
  simp [lookupOrCreateReceiving, hSafe, hEntry, adoptTotal,
    hZero, adoptTempPath, hTemp]

/- An entry that has received nothing learns its place. -/
theorem lookupOrCreateReceiving_of_unstarted
    (hSafe : isPathSafe H path = true)
    (hEntry : s.receiving.lookup path = none ∨
      ∃ peerId hash size, s.receiving.lookup path =
        some (announced peerId hash size))
    (total : ℕ)
    (peerId : String) :
    ∃ entry,
      lookupOrCreateReceiving H path total peerId s =
        (some ⟨entry, true, true⟩,
          setReceiving path entry s) ∧
      entry.tempPath = tempPathOf path ∧
      entry.totalChunks = total ∧
      entry.receivedChunks = 0 ∧
      entry.receivedBitmap = List.replicate total false ∧
      entry.streamOpen = false := by
  rcases hEntry with hNone | ⟨peer, hash, size, hEntry⟩
  · refine ⟨newReceiving path peerId total, ?_,
      rfl, rfl, rfl, rfl, rfl⟩
    simp [lookupOrCreateReceiving, hSafe, hNone]
  · refine ⟨{ announced peerId hash size with
        tempPath := tempPathOf path
        totalChunks := total
        receivedBitmap := List.replicate total false
        busy := true }, ?_, rfl, rfl, rfl, rfl, rfl⟩
    simp [lookupOrCreateReceiving, hSafe, hEntry,
      adoptTotal, adoptTempPath, announced, resizeBitmap]

/- A missing temporary file is created empty. -/
theorem writePhase_of_new
    (chunkDataSize : ℕ)
    {hdr : ChunkHeader}
    (hPath : hdr.filePath = path)
    (hTemp : entry.tempPath = tempPathOf path)
    (hStream : entry.streamOpen = false)
    (hMissing : Filesystem.exists? disk
      (H.locate (tempPathOf path)) = false)
    (hStorable : Storable H path disk) :
    ∃ disk',
      writePhase H chunkDataSize hdr ⟨entry, true, true⟩
          disk =
        storeChunk H chunkDataSize hdr
          { entry with streamOpen := true } disk' ∧
      disk'.payload? (H.locate (tempPathOf path)) =
        some ⟨[], H.now⟩ := by
  rcases hStorable.parent with ⟨made, hMade, hWritable⟩
  have hStill : Filesystem.exists? made
      (H.locate (tempPathOf path)) = false := by
    have hLookup := Filesystem.lookup_createDirectories hMade
      (H.locate (tempPathOf path))
    split at hLookup
    · simp [Filesystem.writable, hLookup] at hWritable
    · unfold Filesystem.exists?
      rw [hLookup]
      exact hMissing
  refine ⟨Filesystem.writeFile H made
    (H.locate (tempPathOf path)) [], ?_, ?_⟩
  · simp [writePhase, hPath, hMade, openStream, hTemp,
      hStream, hStorable.opens, hStill, hWritable]
  · rw [FileTree.payload?_eq_some_iff,
      Filesystem.lookup_writeFile, if_pos rfl]

/- An open stream is used as it is. -/
theorem writePhase_of_open
    {hdr : ChunkHeader}
    (hStream : entry.streamOpen = true) :
    writePhase H chunkDataSize hdr ⟨entry, false, false⟩
        disk =
      storeChunk H chunkDataSize hdr entry disk := by
  have hSame : { entry with streamOpen := true } = entry := by
    cases entry
    exact congrArg _ hStream.symm
  simp [writePhase, openStream, hStream, hSame]

/-
  A chunk finds its entry and its temporary file, made for
  it if it is the first one.
-/
theorem exists_working_of_ready
    (chunkDataSize : ℕ)
    (blocks : ℕ → Content)
    (hSafe : isPathSafe H path = true)
    (hTotal : 0 < total)
    (hEmpty : arrived = ∅ → P ∅ [])
    (hReady : Ready H path total P arrived s)
    (i : ℕ)
    (peerId : String) :
    ∃ found s' entry disk,
      lookupOrCreateReceiving H path total peerId s =
        (some found, s') ∧
      writePhase H chunkDataSize
          (blockChunk path total blocks i) found s'.disk =
        storeChunk H chunkDataSize
          (blockChunk path total blocks i) entry disk ∧
      Working H path total P arrived entry disk := by
  rcases hReady with ⟨rfl, hUnstarted, hStorable⟩ |
    ⟨entry, hEntry, hWorking⟩
  · rcases lookupOrCreateReceiving_of_unstarted hSafe
      hUnstarted.entry total peerId with
      ⟨entry, hLookup, hTemp, hCount, hZero, hBits,
        hStream⟩
    have hHere : (blockChunk path total blocks i).filePath =
      path := rfl
    rcases writePhase_of_new chunkDataSize hHere hTemp
      hStream hUnstarted.temp hStorable with
      ⟨disk, hPhase, hFile⟩
    refine ⟨_, _, _, disk, hLookup, hPhase, ?_⟩
    refine ⟨hTemp, hCount, ⟨?_, ?_⟩, rfl, ?_,
      _, hFile, hEmpty rfl⟩
    · simp [hBits, hCount]
    · simp [hBits, hZero, List.count_replicate]
    · rw [hBits, Bitmap.marked_replicate]
  · have hCount := hWorking.total
    subst hCount
    have hNonempty : entry.tempPath ≠ "" := by
      rw [hWorking.temp]
      exact tempPathOf_ne_empty path
    have hLookup := lookupOrCreateReceiving_of_entry hSafe
      hEntry hTotal hNonempty peerId
    refine ⟨_, _, _, s.disk, hLookup,
      writePhase_of_open hWorking.stream, ?_⟩
    exact ⟨hWorking.temp, hWorking.total,
      ⟨hWorking.counted.size, hWorking.counted.count⟩,
      hWorking.stream, hWorking.marks, hWorking.file⟩

/- Writing a new chunk takes the download one step on. -/
def Steps
    (chunkDataSize : ℕ)
    (total : ℕ)
    (blocks : ℕ → Content)
    (P : Set ℕ → Content → Prop) : Prop :=
  ∀ arrived content i,
    i < total →
    i ∉ arrived →
    P arrived content →
    P (insert i arrived)
      (writeAt content (i * chunkDataSize) (blocks i))

theorem Working.markChunk
    (hSteps : Steps chunkDataSize total blocks P)
    (hWorking : Working H path total P arrived entry disk)
    {i : ℕ}
    (hInside : i < total)
    (hFresh : i ∉ arrived) :
    Working H path total P (insert i arrived)
      (markChunk i entry)
      (writeStream H disk (H.locate entry.tempPath)
        (i * chunkDataSize) (blocks i)) := by
  have hBelow : i < entry.totalChunks := by
    rw [hWorking.total]
    exact hInside
  have hNew : i ∉ Bitmap.marked entry.receivedBitmap := by
    rw [hWorking.marks]
    exact hFresh
  rcases hWorking.file with ⟨file, hFile, hHolds⟩
  refine ⟨hWorking.temp, hWorking.total,
    hWorking.counted.markChunk hBelow hNew,
    hWorking.stream, ?_,
    ⟨writeAt file.content (i * chunkDataSize) (blocks i),
      H.now⟩, ?_,
    hSteps arrived file.content i hInside hFresh hHolds⟩
  · rw [TransferManager.markChunk, Bitmap.marked_set
      (hWorking.counted.size ▸ hBelow), hWorking.marks]
  · rw [hWorking.temp, writeStream, hFile,
      FileTree.payload?_eq_some_iff,
      Filesystem.lookup_writeFile, if_pos rfl]

/-
  A chunk that finds its entry and its temporary file either
  brings the last piece and runs finalize on the assembled
  file, or leaves the download ready for the next chunk.
-/
theorem finalizeCall_cases_of_working
    (hReceivable : Receivable H path)
    (hLimit : total ≤ maxAllowedTotalChunks)
    (hSteps : Steps chunkDataSize total blocks P)
    (hMissing : ¬ ∀ k < total, k ∈ arrived)
    {i : ℕ}
    (hInside : i < total)
    (peerId : String)
    (hFound : ∃ found s' entry disk,
      lookupOrCreateReceiving H path total peerId s =
        (some found, s') ∧
      writePhase H chunkDataSize
          (blockChunk path total blocks i) found s'.disk =
        storeChunk H chunkDataSize
          (blockChunk path total blocks i) entry disk ∧
      Working H path total P arrived entry disk) :
    let hdr := blockChunk path total blocks i
    ((∀ k < total, k ∈ insert i arrived) ∧
        ∃ entry disk,
          finalizeCall H chunkDataSize hdr peerId s =
            some (entry, disk) ∧
          Working H path total P (insert i arrived)
            entry disk) ∨
      ((¬ ∀ k < total, k ∈ insert i arrived) ∧
        finalizeCall H chunkDataSize hdr peerId s = none ∧
        Ready H path total P (insert i arrived)
          (handleChunk H chunkDataSize hdr peerId s)) := by
  intro hdr
  have hValid : validateChunkHeader hdr = true := by
    have hNonempty : path ≠ "" := by
      rintro rfl
      have hSafe := hReceivable.safe
      simp [isPathSafe, isPathSafeWithCanonicalRoot] at hSafe
    simp only [validateChunkHeader, hdr, blockChunk,
      Bool.true_and, Bool.and_eq_true, Bool.not_eq_true',
      decide_eq_true_eq, bne_iff_ne]
    refine ⟨⟨⟨⟨?_, hReceivable.length⟩, by omega⟩,
      hLimit⟩, hInside⟩
    simpa using hNonempty
  rcases hFound with
    ⟨found, s', entry, disk, hLookup, hPhase, hWorking⟩
  have hCall : finalizeCall H chunkDataSize hdr peerId s =
      match storeChunk H chunkDataSize hdr entry disk with
      | .complete entry disk => some (entry, disk)
      | _ => none := by
    unfold finalizeCall
    rw [hValid, ← hPhase]
    change (match lookupOrCreateReceiving H path total
      peerId s with
      | (none, _) => none
      | (some found, s) => _) = _
    rw [hLookup]
  have hHandle : handleChunk H chunkDataSize hdr peerId s =
      settle H path peerId
        (storeChunk H chunkDataSize hdr entry disk) s' := by
    rw [handleChunk_eq, hValid, ← hPhase]
    change (match lookupOrCreateReceiving H path total
      peerId s with
      | (none, s) => s
      | (some found, s) => _) = _
    rw [hLookup]
    rfl
  rw [hCall, hHandle]
  have hBelow : hdr.chunkIndex < entry.totalChunks := by
    rw [hWorking.total]
    exact hInside
  rcases storeChunk_cases H chunkDataSize disk
    hWorking.counted hBelow with
    ⟨hDuplicate, hStore⟩ | ⟨-, hFails, -⟩ |
    ⟨hFresh, -, hAll, hStore⟩ | ⟨hFresh, -, hRest, hStore⟩
  · rw [hWorking.marks] at hDuplicate
    have hSame : insert i arrived = arrived :=
      Set.insert_eq_of_mem hDuplicate
    rw [hStore, hSame]
    refine Or.inr ⟨hMissing, rfl, Or.inr ⟨_,
      AList.lookup_insert _, ?_⟩⟩
    exact ⟨hWorking.temp, hWorking.total,
      ⟨hWorking.counted.size, hWorking.counted.count⟩,
      hWorking.stream, hWorking.marks, hWorking.file⟩
  · rw [hWorking.temp, hReceivable.writes] at hFails
    cases hFails
  · rw [hWorking.marks] at hFresh hAll
    rw [hWorking.total] at hAll
    rw [hStore]
    exact Or.inl ⟨hAll, _, _, rfl,
      hWorking.markChunk hSteps hInside hFresh⟩
  · rw [hWorking.marks] at hFresh hRest
    rw [hWorking.total] at hRest
    rw [hStore]
    have hNext := hWorking.markChunk hSteps hInside hFresh
    refine Or.inr ⟨hRest, rfl, Or.inr ⟨_,
      AList.lookup_insert _, ?_⟩⟩
    exact ⟨hNext.temp, hNext.total,
      ⟨hNext.counted.size, hNext.counted.count⟩,
      hNext.stream, hNext.marks, hNext.file⟩

/- The same for a download that is ready. -/
theorem finalizeCall_cases
    (hReceivable : Receivable H path)
    (hLimit : total ≤ maxAllowedTotalChunks)
    (hEmpty : arrived = ∅ → P ∅ [])
    (hSteps : Steps chunkDataSize total blocks P)
    (hReady : Ready H path total P arrived s)
    (hMissing : ¬ ∀ k < total, k ∈ arrived)
    {i : ℕ}
    (hInside : i < total)
    (peerId : String) :
    let hdr := blockChunk path total blocks i
    ((∀ k < total, k ∈ insert i arrived) ∧
        ∃ entry disk,
          finalizeCall H chunkDataSize hdr peerId s =
            some (entry, disk) ∧
          Working H path total P (insert i arrived)
            entry disk) ∨
      ((¬ ∀ k < total, k ∈ insert i arrived) ∧
        finalizeCall H chunkDataSize hdr peerId s = none ∧
        Ready H path total P (insert i arrived)
          (handleChunk H chunkDataSize hdr peerId s)) :=
  finalizeCall_cases_of_working hReceivable hLimit hSteps
    hMissing hInside peerId
    (exists_working_of_ready chunkDataSize blocks
      hReceivable.safe (Nat.zero_lt_of_lt hInside) hEmpty
      hReady i peerId)

------------------------------------------------------------
-- Whole Runs
------------------------------------------------------------

/- The indices that arrived. -/
def indices (arrivals : List (ℕ × String)) : Set ℕ :=
  {i | ∃ peerId, (i, peerId) ∈ arrivals}

/- The chunks that arrive, each with its sender. -/
def deliveries
    (path : String)
    (total : ℕ)
    (blocks : ℕ → Content)
    (arrivals : List (ℕ × String)) :
    List (ChunkHeader × String) :=
  arrivals.map (fun arrival =>
    (blockChunk path total blocks arrival.1, arrival.2))

theorem union_indices_cons
    (arrived : Set ℕ)
    (i : ℕ)
    (peerId : String)
    (rest : List (ℕ × String)) :
    arrived ∪ indices ((i, peerId) :: rest) =
      insert i arrived ∪ indices rest := by
  ext k
  simp only [indices, Set.mem_union, Set.mem_insert_iff,
    List.mem_cons, Prod.mk.injEq]
  constructor
  · rintro (hOld | ⟨peer, ⟨hSame, -⟩ | hLater⟩)
    · exact Or.inl (Or.inr hOld)
    · exact Or.inl (Or.inl hSame)
    · exact Or.inr ⟨peer, hLater⟩
  · rintro ((hSame | hOld) | ⟨peer, hLater⟩)
    · exact Or.inr ⟨peerId, Or.inl ⟨hSame, rfl⟩⟩
    · exact Or.inl hOld
    · exact Or.inr ⟨peer, Or.inr hLater⟩

/- While an index is missing, finalize is not called. -/
theorem finalizeCalls_of_missing
    (hReceivable : Receivable H path)
    (hLimit : total ≤ maxAllowedTotalChunks)
    (hSteps : Steps chunkDataSize total blocks P)
    (arrivals : List (ℕ × String))
    (hInside : ∀ arrival ∈ arrivals, arrival.1 < total)
    {arrived : Set ℕ}
    {s : LocalState}
    (hEmpty : arrived = ∅ → P ∅ [])
    (hReady : Ready H path total P arrived s)
    (hMissing : ¬ ∀ k < total,
      k ∈ arrived ∪ indices arrivals) :
    finalizeCalls H chunkDataSize
        (deliveries path total blocks arrivals) s =
      List.replicate arrivals.length none := by
  induction arrivals generalizing arrived s with
  | nil => rfl
  | cons arrival rest ih =>
      rcases arrival with ⟨i, peerId⟩
      rw [union_indices_cons] at hMissing
      have hBefore : ¬ ∀ k < total, k ∈ arrived := by
        intro hAll
        exact hMissing (fun k hK =>
          Or.inl (Set.mem_insert_of_mem _ (hAll k hK)))
      rcases finalizeCall_cases hReceivable hLimit hEmpty
        hSteps hReady hBefore (hInside _ List.mem_cons_self)
        peerId with
        ⟨hAll, -⟩ | ⟨-, hCall, hNext⟩
      · exact absurd (fun k hK => Or.inl (hAll k hK))
          hMissing
      · have hRest := ih (fun arrival hArrival =>
          hInside arrival (List.mem_cons_of_mem _ hArrival))
          (fun hNone => absurd hNone
            (Set.insert_nonempty _ _).ne_empty)
          hNext hMissing
        simp only [deliveries, List.map_cons, finalizeCalls,
          hCall, List.length_cons, List.replicate_succ]
        exact congrArg _ hRest

/-
  The chunk that brings the last missing index calls
  finalize, once, on the assembled file.
-/
theorem finalizeCalls_of_last
    (hReceivable : Receivable H path)
    (hLimit : total ≤ maxAllowedTotalChunks)
    (hSteps : Steps chunkDataSize total blocks P)
    (arrivals : List (ℕ × String))
    (last : ℕ × String)
    (hInside : ∀ arrival ∈ arrivals, arrival.1 < total)
    (hLast : last.1 < total)
    {arrived : Set ℕ}
    {s : LocalState}
    (hEmpty : arrived = ∅ → P ∅ [])
    (hReady : Ready H path total P arrived s)
    (hMissing : ¬ ∀ k < total,
      k ∈ arrived ∪ indices arrivals)
    (hAll : ∀ k < total,
      k ∈ insert last.1 (arrived ∪ indices arrivals)) :
    ∃ entry disk,
      finalizeCalls H chunkDataSize
          (deliveries path total blocks
            (arrivals ++ [last])) s =
        List.replicate arrivals.length none ++
          [some (entry, disk)] ∧
      Working H path total P
        (insert last.1 (arrived ∪ indices arrivals))
        entry disk := by
  induction arrivals generalizing arrived s with
  | nil =>
      have hNone : arrived ∪ indices [] = arrived := by
        ext k
        simp [indices]
      rw [hNone] at hMissing hAll ⊢
      rcases finalizeCall_cases hReceivable hLimit hEmpty
        hSteps hReady hMissing hLast last.2 with
        ⟨-, entry, disk, hCall, hWorking⟩ | ⟨hRest, -⟩
      · refine ⟨entry, disk, ?_, hWorking⟩
        simp [deliveries, finalizeCalls, hCall]
      · exact absurd hAll hRest
  | cons arrival rest ih =>
      rcases arrival with ⟨i, peerId⟩
      rw [union_indices_cons] at hMissing hAll ⊢
      have hBefore : ¬ ∀ k < total, k ∈ arrived := by
        intro hEvery
        exact hMissing (fun k hK =>
          Or.inl (Set.mem_insert_of_mem _ (hEvery k hK)))
      rcases finalizeCall_cases hReceivable hLimit hEmpty
        hSteps hReady hBefore (hInside _ List.mem_cons_self)
        peerId with
        ⟨hEvery, -⟩ | ⟨-, hCall, hNext⟩
      · exact absurd (fun k hK => Or.inl (hEvery k hK))
          hMissing
      · rcases ih (fun arrival hArrival =>
          hInside arrival (List.mem_cons_of_mem _ hArrival))
          (fun hNone => absurd hNone
            (Set.insert_nonempty _ _).ne_empty)
          hNext hMissing hAll with
          ⟨entry, disk, hRest, hWorking⟩
        refine ⟨entry, disk, ?_, hWorking⟩
        simp only [deliveries, List.cons_append,
          List.map_cons, finalizeCalls, hCall,
          List.length_cons, List.replicate_succ]
        exact congrArg _ hRest

end Assembly

------------------------------------------------------------
-- Reassembling A File
------------------------------------------------------------

/-
  What the temporary file holds of a content, written in
  pieces of one size.
-/
def Assembling
    (chunkDataSize : ℕ)
    (content : Content)
    (arrived : Set ℕ)
    (stored : Content) : Prop :=
  stored.length ≤ content.length ∧
    Reassembly.Holds chunkDataSize
      (Reassembly.piece chunkDataSize content) arrived stored

section Reassemble

variable
  {H : Host}
  {chunkDataSize : ℕ}
  {path : String}
  {content : Content}
  {s : LocalState}

theorem assembling_empty :
    Assembling chunkDataSize content ∅ [] :=
  ⟨Nat.zero_le _, Reassembly.holds_empty _ _ _⟩

/- The receiver writes every piece where it was read. -/
theorem steps_assembling
    (stride : ℕ)
    {total : ℕ}
    (hStride : ∀ i < total,
      i * stride = i * chunkDataSize) :
    Steps stride total
      (Reassembly.piece chunkDataSize content)
      (Assembling chunkDataSize content) := by
  have hShort : ∀ i,
      (Reassembly.piece chunkDataSize content i).length ≤
        chunkDataSize := by
    intro i
    rw [Reassembly.length_piece]
    exact Nat.min_le_left _ _
  intro arrived stored i hInside hFresh hAssembling
  rw [hStride i hInside]
  exact ⟨Reassembly.length_writeAt_piece_le
      hAssembling.1 0 i,
    Reassembly.Holds.writeAt (fun k _ => hShort k)
      hAssembling.2 0 (hShort i)⟩

theorem assembled_of_working
    {total : ℕ}
    {P : Set ℕ → Content → Prop}
    {arrived : Set ℕ}
    {entry : ReceivingFile}
    {disk : Disk}
    (hWorking : Working H path total P arrived entry disk) :
    ∃ stored, assembled H (entry, disk) = some stored ∧
      P arrived stored := by
  rcases hWorking.file with ⟨file, hFile, hHolds⟩
  refine ⟨file.content, ?_, hHolds⟩
  simp [assembled, hWorking.temp, hFile]

/-
  However the chunks of a content arrive, finalize is called
  exactly when the last missing index arrives, and then the
  temporary file is that content.
-/
theorem finalize_exactly_when_complete
    (hSize : 0 < chunkDataSize)
    (hReceivable : Receivable H path)
    (hLimit :
      Reassembly.pieceCount chunkDataSize content.length ≤
        maxAllowedTotalChunks)
    (hUnstarted : Unstarted H path s)
    (hStorable : Storable H path s.disk)
    (arrivals : List (ℕ × String))
    (hInside : ∀ arrival ∈ arrivals, arrival.1 <
      Reassembly.pieceCount chunkDataSize content.length)
    (hMissing : ∃ k <
      Reassembly.pieceCount chunkDataSize content.length,
        k ∉ indices arrivals) :
    let count :=
      Reassembly.pieceCount chunkDataSize content.length
    let chunk := chunkOf chunkDataSize path content
    let chunks := arrivals.map
      (fun arrival => (chunk arrival.1, arrival.2))
    finalizeCalls H chunkDataSize chunks s =
        List.replicate arrivals.length none ∧
      ∀ last peerId,
        last < count →
        (∀ k < count, k ∈ insert last (indices arrivals)) →
        ∃ call,
          finalizeCalls H chunkDataSize
              (chunks ++ [(chunk last, peerId)]) s =
            List.replicate arrivals.length none ++
              [some call] ∧
          assembled H call = some content := by
  intro count chunk chunks
  have hFits : count < 2 ^ 32 :=
    Nat.lt_of_le_of_lt hLimit (by decide)
  have hChunk : ∀ i, chunk i = blockChunk path count
      (Reassembly.piece chunkDataSize content) i := by
    intro i
    simp only [chunk, chunkOf,
      chunkCount_eq_pieceCount hFits, count]
  have hChunks : chunks = deliveries path count
      (Reassembly.piece chunkDataSize content) arrivals := by
    simp only [chunks, deliveries, hChunk]
  have hReady : Ready H path count
      (Assembling chunkDataSize content) ∅ s :=
    Or.inl ⟨rfl, hUnstarted, hStorable⟩
  have hSteps : Steps chunkDataSize count
      (Reassembly.piece chunkDataSize content)
      (Assembling chunkDataSize content) :=
    steps_assembling chunkDataSize (fun _ _ => rfl)
  have hRest : ¬ ∀ k < count, k ∈ ∅ ∪ indices arrivals := by
    rcases hMissing with ⟨k, hK, hAbsent⟩
    intro hAll
    exact hAbsent (by simpa using hAll k hK)
  constructor
  · rw [hChunks]
    exact finalizeCalls_of_missing hReceivable hLimit hSteps
      arrivals hInside (fun _ => assembling_empty) hReady
      hRest
  · intro last peerId hLast hAll
    rcases finalizeCalls_of_last hReceivable hLimit hSteps
      arrivals (last, peerId) hInside hLast
      (fun _ => assembling_empty) hReady hRest
      (by simpa using hAll) with
      ⟨entry, disk, hCalls, hWorking⟩
    rcases assembled_of_working hWorking with
      ⟨stored, hStored, hAssembling⟩
    refine ⟨(entry, disk), ?_, ?_⟩
    · rw [← hCalls, hChunks, hChunk, deliveries,
        deliveries, List.map_append]
      rfl
    · rw [hStored, Reassembly.eq_of_holds hSize
        hAssembling.1 hAssembling.2 (by simpa using hAll)]

end Reassemble

/- Two pieces, the second one first and twice. -/
theorem finalize_when_second_piece_came_first :
    let chunk := chunkOf 2 "a.txt" [97, 98, 97]
    ∃ call,
      finalizeCalls Host.plain 2
          [(chunk 1, "peer"), (chunk 1, "peer"),
            (chunk 0, "peer")]
          (registerExpectedMetadata "a.txt" "peer" "h" 3
            (LocalState.empty Host.plain .destination
              .biDirectional)) =
        [none, none, some call] ∧
      assembled Host.plain call = some [97, 98, 97] := by
  refine (finalize_exactly_when_complete (by decide)
    ⟨by decide, by decide, by decide⟩ (by decide)
    ⟨Or.inr ⟨"peer", "h", 3, by decide⟩, by decide⟩
    ⟨by decide, ⟨_, rfl, by decide⟩⟩
    [(1, "peer"), (1, "peer")] (by decide)
    ⟨0, by decide, ?_⟩).2 0 "peer" (by decide) ?_
  · rintro ⟨peerId, hArrival⟩
    simp at hArrival
  · intro k hK
    have hIndex : k = 0 ∨ k = 1 := by
      have hTwo : k < 2 := hK
      omega
    rcases hIndex with rfl | rfl
    · exact Set.mem_insert _ _
    · exact Set.mem_insert_of_mem _
        ⟨"peer", List.mem_cons_self⟩

------------------------------------------------------------
-- Two Chunk Sizes
------------------------------------------------------------

/- The bounds on a configured chunk size. -/
def chunkSizeAccepted (chunkSize : ℕ) : Bool :=
  !(chunkSize < 1024 || chunkSize > 1048576)

/- What an upload sends while its file stays as it is. -/
def sentChunks
    (H : Host)
    (chunkDataSize : ℕ)
    (ctx : UploadContext)
    (s : LocalState) : List ChunkHeader :=
  (List.range' ctx.currentChunk
    (ctx.totalChunks - ctx.currentChunk)).map (fun i =>
      nextChunk H chunkDataSize
        { ctx with currentChunk := i } s)

/- The contents that finalize is called on. -/
def finalizedContents
    (H : Host)
    (chunkDataSize : ℕ)
    (chunks : List (ChunkHeader × String))
    (s : LocalState) : List Content :=
  (finalizeCalls H chunkDataSize chunks s).filterMap
    (fun call => call.bind (assembled H))

section ChunkSizes

variable
  {H : Host}
  {stride size : ℕ}
  {path : String}
  {total : ℕ}
  {blocks : ℕ → Content}
  {P : Set ℕ → Content → Prop}
  {content : Content}
  {s : LocalState}

/- Every chunk once: one content is assembled. -/
theorem finalizedContents_of_perm
    (hReceivable : Receivable H path)
    (hLimit : total ≤ maxAllowedTotalChunks)
    (hTotal : 0 < total)
    (hEmpty : P ∅ [])
    (hSteps : Steps stride total blocks P)
    (hUnstarted : Unstarted H path s)
    (hStorable : Storable H path s.disk)
    {arrivals : List (ℕ × String)}
    (hPerm : (arrivals.map Prod.fst).Perm
      (List.range total)) :
    ∃ arrived stored,
      finalizedContents H stride
          (deliveries path total blocks arrivals) s =
        [stored] ∧
      P arrived stored ∧ ∀ k, k ∈ arrived ↔ k < total := by
  have hMember : ∀ k, k ∈ indices arrivals ↔ k < total := by
    intro k
    have hSame := hPerm.mem_iff (a := k)
    simpa [indices] using hSame
  rcases List.eq_nil_or_concat arrivals with
    rfl | ⟨front, last, rfl⟩
  · have hLength := hPerm.length_eq
    simp at hLength
    omega
  · rw [List.concat_eq_append] at hPerm hMember ⊢
    have hNodup := hPerm.nodup_iff.mpr List.nodup_range
    rw [List.map_append, List.nodup_append] at hNodup
    have hInside : ∀ arrival ∈ front ++ [last],
        arrival.1 < total :=
      fun arrival hArrival =>
        (hMember arrival.1).mp ⟨arrival.2, hArrival⟩
    have hLast := hInside last (by simp)
    have hMissing : ¬ ∀ k < total,
        k ∈ ∅ ∪ indices front := by
      intro hAll
      rcases hAll last.1 hLast with hNone | ⟨peerId, hFront⟩
      · exact absurd hNone (Set.notMem_empty _)
      · exact hNodup.2.2 last.1
          (List.mem_map.mpr ⟨_, hFront, rfl⟩) last.1
          (by simp) rfl
    have hArrived : ∀ k,
        k ∈ insert last.1 (∅ ∪ indices front) ↔
          k < total := by
      intro k
      rw [← hMember k]
      simp only [indices, Set.mem_insert_iff,
        Set.empty_union, List.mem_append, List.mem_singleton]
      constructor
      · rintro (rfl | ⟨peerId, hFront⟩)
        · exact ⟨last.2, Or.inr rfl⟩
        · exact ⟨peerId, Or.inl hFront⟩
      · rintro ⟨peerId, hFront | rfl⟩
        · exact Or.inr ⟨peerId, hFront⟩
        · exact Or.inl rfl
    rcases finalizeCalls_of_last hReceivable hLimit hSteps
      front last
      (fun arrival hFront => hInside arrival
        (List.mem_append_left _ hFront)) hLast
      (fun _ => hEmpty)
      (Or.inl ⟨rfl, hUnstarted, hStorable⟩) hMissing
      (fun k hK => (hArrived k).mpr hK) with
      ⟨entry, disk, hCalls, hWorking⟩
    rcases assembled_of_working hWorking with
      ⟨stored, hStored, hHolds⟩
    refine ⟨_, stored, ?_, hHolds, hArrived⟩
    rw [finalizedContents, hCalls, List.filterMap_append]
    simp [hStored]

/- No chunk of a file with too many chunks is accepted. -/
theorem finalizedContents_of_too_many
    (hLimit : maxAllowedTotalChunks < total)
    (arrivals : List (ℕ × String))
    (s : LocalState) :
    finalizedContents H stride
      (deliveries path total blocks arrivals) s = [] := by
  have hInvalid : ∀ i, validateChunkHeader
      (blockChunk path total blocks i) = false := by
    intro i
    have hMany : ¬ total ≤ maxAllowedTotalChunks := by omega
    simp [validateChunkHeader, blockChunk, hMany]
  unfold finalizedContents
  induction arrivals generalizing s with
  | nil => rfl
  | cons arrival rest ih =>
      have hCall : ∀ peerId s, finalizeCall H stride
          (blockChunk path total blocks arrival.1)
          peerId s = none := by
        intro peerId s
        rw [finalizeCall, hInvalid]
        rfl
      simp only [deliveries, List.map_cons, finalizeCalls,
        hCall]
      exact ih _

/- The reach of pieces written with any stride. -/
theorem steps_spans :
    Steps stride total (Reassembly.piece size content)
      (Reassembly.Spans stride size content) :=
  fun _ _ i _ _ hSpans => hSpans.writeAt 0 i

/-
  Once every piece arrived, the receiver has the content
  exactly when both sides place the pieces alike.
-/
theorem finalizedContents_eq_iff
    (hSize : 0 < size)
    (hReceivable : Receivable H path)
    (hLimit : Reassembly.pieceCount size content.length ≤
      maxAllowedTotalChunks)
    (hUnstarted : Unstarted H path s)
    (hStorable : Storable H path s.disk)
    {arrivals : List (ℕ × String)}
    (hPerm : (arrivals.map Prod.fst).Perm (List.range
      (Reassembly.pieceCount size content.length))) :
    finalizedContents H stride
        (deliveries path
          (Reassembly.pieceCount size content.length)
          (Reassembly.piece size content) arrivals) s =
      [content] ↔
      stride = size ∨ content.length ≤ size := by
  have hPos := Reassembly.pieceCount_pos hSize
    content.length
  constructor
  · intro hWhole
    by_contra hDiffer
    push Not at hDiffer
    rcases finalizedContents_of_perm hReceivable hLimit hPos
      Reassembly.spans_empty steps_spans hUnstarted
      hStorable hPerm with
      ⟨arrived, stored, hStored, hSpans, hArrived⟩
    rw [hStored] at hWhole
    have hEq := List.head_eq_of_cons_eq hWhole
    apply Reassembly.length_ne_of_spans hSize hDiffer.1
      hDiffer.2 hSpans (fun i hI => (hArrived i).mpr hI)
      (fun i hI => (hArrived i).mp hI)
    rw [hEq]
  · intro hAlike
    have hPlaces : ∀ i <
        Reassembly.pieceCount size content.length,
          i * stride = i * size := by
      intro i hI
      rcases hAlike with rfl | hShort
      · rfl
      · rw [Reassembly.pieceCount_eq_one hSize hShort] at hI
        have hZero : i = 0 := by omega
        rw [hZero, Nat.zero_mul, Nat.zero_mul]
    rcases finalizedContents_of_perm hReceivable hLimit hPos
      assembling_empty (steps_assembling stride hPlaces)
      hUnstarted hStorable hPerm with
      ⟨arrived, stored, hStored, hAssembling, hArrived⟩
    rw [hStored, Reassembly.eq_of_holds hSize hAssembling.1
      hAssembling.2 (fun i hI => (hArrived i).mpr hI)]

/- A whole upload sends every piece of the file once. -/
theorem sentChunks_eq
    {request : FileRequest}
    {ctx : UploadContext}
    {file : File}
    (hStart : startUpload H size request s = some ctx)
    (hWhole : request.resume = none)
    (hFile : s.disk.payload? (H.locate request.path) =
      some file) :
    sentChunks H size ctx s =
      (List.range
        (chunkCount size file.content.length)).map
          (chunkOf size request.path file.content) := by
  have hCtx : ctx =
      { path := request.path
        fileHash := StateManager.getFileHash s request.path
        currentChunk := 0
        totalChunks :=
          chunkCount size file.content.length } := by
    unfold startUpload at hStart
    simp only [hFile] at hStart
    split at hStart
    · cases hStart
    · split at hStart
      · cases hStart
      · simp only [startChunk, hWhole,
          Option.some.injEq] at hStart
        exact hStart.symm
  subst hCtx
  rw [sentChunks, List.range_eq_range', Nat.sub_zero]
  apply List.map_congr_left
  intro i _
  exact nextChunk_eq hFile rfl

/- Deliveries of the pieces, each once, in any order. -/
theorem exists_deliveries_of_perm
    {chunks : List (ChunkHeader × String)}
    (hPerm : (chunks.map Prod.fst).Perm
      ((List.range total).map
        (blockChunk path total blocks))) :
    ∃ arrivals,
      chunks = deliveries path total blocks arrivals ∧
        (arrivals.map Prod.fst).Perm (List.range total) := by
  refine ⟨chunks.map (fun chunk =>
    (chunk.1.chunkIndex, chunk.2)), ?_, ?_⟩
  · rw [deliveries, List.map_map]
    conv_lhs => rw [← List.map_id chunks]
    apply List.map_congr_left
    intro chunk hChunk
    have hSent : chunk.1 ∈ (List.range total).map
        (blockChunk path total blocks) :=
      hPerm.mem_iff.mp (List.mem_map_of_mem hChunk)
    rcases List.mem_map.mp hSent with ⟨i, -, hEq⟩
    apply Prod.ext
    · change chunk.1 = blockChunk path total blocks
        chunk.1.chunkIndex
      rw [← hEq]
      rfl
    · rfl
  · have hIndices := hPerm.map ChunkHeader.chunkIndex
    rw [List.map_map, List.map_map] at hIndices
    rw [List.map_map]
    have hRange : (List.range total).map
        (ChunkHeader.chunkIndex ∘
          blockChunk path total blocks) =
        List.range total := List.map_id _
    rw [hRange] at hIndices
    exact hIndices

/-
  The chunks of one upload make the sender's file out of an
  empty download when the file is one chunk, or both sides
  cut files alike; for files whose chunks can be counted in
  32 bits, only then.
-/
theorem assembled_iff_same_chunk_size
    {G : Host}
    {t : LocalState}
    {request : FileRequest}
    {ctx : UploadContext}
    {file : File}
    {chunks : List (ChunkHeader × String)}
    (hAccepted : chunkSizeAccepted size = true)
    (hStart : startUpload G size request t = some ctx)
    (hWhole : request.resume = none)
    (hFile : t.disk.payload? (G.locate request.path) =
      some file)
    (hReceivable : Receivable H request.path)
    (hUnstarted : Unstarted H request.path s)
    (hStorable : Storable H request.path s.disk)
    (hPerm : (chunks.map Prod.fst).Perm
      (sentChunks G size ctx t)) :
    let count :=
      Reassembly.pieceCount size file.content.length
    let alike := count ≤ maxAllowedTotalChunks ∧
      (stride = size ∨ file.content.length ≤ size)
    (alike →
        finalizedContents H stride chunks s =
          [file.content]) ∧
      (count < 2 ^ 32 →
        finalizedContents H stride chunks s =
          [file.content] →
        alike) := by
  intro count alike
  have hSize : 0 < size := by
    simp [chunkSizeAccepted] at hAccepted
    omega
  rw [sentChunks_eq hStart hWhole hFile] at hPerm
  have hSame : count < 2 ^ 32 →
      ((chunks.map Prod.fst).Perm
        ((List.range count).map
          (blockChunk request.path count
            (Reassembly.piece size file.content)))) := by
    intro hFits
    have hChunk : chunkOf size request.path file.content =
        blockChunk request.path count
          (Reassembly.piece size file.content) := by
      funext i
      rw [chunkOf, chunkCount_eq_pieceCount hFits]
    rwa [chunkCount_eq_pieceCount hFits, hChunk] at hPerm
  constructor
  · rintro ⟨hLimit, hAlike⟩
    have hFits : count < 2 ^ 32 :=
      Nat.lt_of_le_of_lt hLimit (by decide)
    rcases exists_deliveries_of_perm (hSame hFits) with
      ⟨arrivals, rfl, hArrivals⟩
    exact (finalizedContents_eq_iff hSize hReceivable hLimit
      hUnstarted hStorable hArrivals).mpr hAlike
  · intro hFits hContents
    rcases exists_deliveries_of_perm (hSame hFits) with
      ⟨arrivals, rfl, hArrivals⟩
    have hLimit : count ≤ maxAllowedTotalChunks := by
      by_contra hMany
      rw [finalizedContents_of_too_many (by omega)]
        at hContents
      cases hContents
    exact ⟨hLimit, (finalizedContents_eq_iff hSize
      hReceivable hLimit hUnstarted hStorable
      hArrivals).mp hContents⟩

end ChunkSizes

/- One byte, with two settings. -/
theorem one_byte_assembled_with_other_chunk_size :
    let t := (LocalState.empty Host.plain .source
      .oneWay).userWrites Host.plain "a.txt" [97]
    let ctx := UploadContext.mk "a.txt" "" 0 1
    finalizedContents Host.plain 2048
        ((sentChunks Host.plain 1024 ctx t).map
          (fun hdr => (hdr, "peer")))
        (LocalState.empty Host.plain .destination .oneWay) =
      [[97]] := by
  intro t ctx
  have hStart : startUpload Host.plain 1024
      ⟨"a.txt", none⟩ t = some ctx := by decide
  have hFile : t.disk.payload? (Host.plain.locate "a.txt") =
      some ⟨[97], 0⟩ := by decide
  exact (assembled_iff_same_chunk_size (by decide) hStart
    rfl hFile ⟨by decide, by decide, by decide⟩
    ⟨Or.inl (by decide), by decide⟩
    ⟨by decide, ⟨_, rfl, by decide⟩⟩
    (by rw [List.map_map]; exact .of_eq (List.map_id _))).1
      ⟨by decide, Or.inr (by decide)⟩

/-
  A file of one byte more than the sender's chunk size, for
  a receiver whose chunk size is larger by one.
-/
theorem file_not_assembled_with_other_chunk_size :
    let content := List.replicate 1025 (0 : UInt8)
    let t := (LocalState.empty Host.plain .source
      .oneWay).userWrites Host.plain "a.txt" content
    let ctx := UploadContext.mk "a.txt" "" 0 2
    chunkSizeAccepted 1024 = true ∧
      chunkSizeAccepted 1025 = true ∧
      startUpload Host.plain 1024 ⟨"a.txt", none⟩ t =
        some ctx ∧
      finalizedContents Host.plain 1025
          ((sentChunks Host.plain 1024 ctx t).map
            (fun hdr => (hdr, "peer")))
          (LocalState.empty Host.plain .destination
            .oneWay) ≠
        [content] := by
  intro content t ctx
  have hFile : t.disk.payload? (Host.plain.locate "a.txt") =
      some ⟨content, 0⟩ := rfl
  have hLength : content.length = 1025 :=
    List.length_replicate
  have hStart : startUpload Host.plain 1024
      ⟨"a.txt", none⟩ t = some ctx := by
    have hValid : parseAndValidateUploadRequest Host.plain
        ⟨"a.txt", none⟩ = true := by decide
    simp only [startUpload, hValid, hFile, hLength]
    rfl
  refine ⟨by decide, by decide, hStart, ?_⟩
  intro hContents
  have hCount : Reassembly.pieceCount 1024 content.length =
      2 := by
    rw [hLength]
    rfl
  have hSent : (sentChunks Host.plain 1024 ctx t).map
        (fun hdr => (hdr, "peer")) =
      deliveries "a.txt"
        (Reassembly.pieceCount 1024 content.length)
        (Reassembly.piece 1024 content)
        [(0, "peer"), (1, "peer")] := by
    have hFits := chunkCount_eq_pieceCount
      (show Reassembly.pieceCount 1024 content.length <
        2 ^ 32 by rw [hCount]; decide)
    have hChunk : chunkOf 1024 "a.txt" content =
        blockChunk "a.txt"
          (Reassembly.pieceCount 1024 content.length)
          (Reassembly.piece 1024 content) := by
      funext i
      rw [chunkOf, hFits]
    have hUpload := sentChunks_eq hStart rfl hFile
    rw [hUpload, hFits, hChunk, hCount]
    rfl
  rw [hSent, finalizedContents_eq_iff (by decide)
    ⟨by decide, by decide, by decide⟩
    (by rw [hCount]; decide) ⟨Or.inl (by decide), by decide⟩
    ⟨by decide, ⟨_, rfl, by decide⟩⟩
    (by rw [hCount]; exact .refl _), hLength] at hContents
  omega

end TransferManager

end VeritasSync
