import VeritasSync.Sync.BackedEntries

/-
  The places on the disk that the download of one path can
  touch: all others are left alone.

  Main declarations:
    * `TransferManager.Clear`
    * `TransferManager.lookup_handleChunk_of_clear`
-/

namespace VeritasSync

namespace TransferManager

/-
  A location that neither the final file nor the temporary
  file of the path is at or above, and that is not above the
  path itself.
-/
structure Clear
    (H : Host)
    (path : String)
    (key : Loc) : Prop where
  final : ¬ H.locate path <+: key
  temp : ¬ H.locate (tempPathOf path) <+: key
  parent :
    ¬ key <+: H.locate (Filesystem.parentText path)

instance
    (H : Host)
    (path : String)
    (key : Loc) :
    Decidable (Clear H path key) :=
  decidable_of_iff
    (¬ H.locate path <+: key ∧
      ¬ H.locate (tempPathOf path) <+: key ∧
        ¬ key <+: H.locate (Filesystem.parentText path))
    ⟨fun hAll => ⟨hAll.1, hAll.2.1, hAll.2.2⟩,
      fun hClear =>
        ⟨hClear.final, hClear.temp, hClear.parent⟩⟩

section Frame

variable
  {H : Host}
  {path peerId : String}
  {key : Loc}
  {disk disk' : Disk}

theorem Clear.ne_temp (hClear : Clear H path key) :
    key ≠ H.locate (tempPathOf path) := by
  rintro rfl
  exact hClear.temp (List.prefix_refl _)

theorem Clear.ne_final (hClear : Clear H path key) :
    key ≠ H.locate path := by
  rintro rfl
  exact hClear.final (List.prefix_refl _)

theorem lookup_removeFrom_of_ne
    {loc : Loc}
    (hKey : key ≠ loc) :
    (removeFrom H disk loc).lookup key =
      disk.lookup key := by
  unfold removeFrom
  cases hRemove : Filesystem.remove H disk loc with
  | none => rfl
  | some disk' =>
      rw [Option.getD_some, Filesystem.lookup_remove hRemove,
        if_neg hKey]

theorem lookup_writeStream_of_ne
    {temp : Loc}
    {offset : ℕ}
    {bytes : Content}
    (hKey : key ≠ temp) :
    (writeStream H disk temp offset bytes).lookup key =
      disk.lookup key := by
  unfold writeStream
  split
  · rfl
  · rw [Filesystem.lookup_writeFile, if_neg hKey]

theorem lookup_openStream_of_ne
    {found : ChunkLookupResult}
    (hOpen : openStream H disk found = some disk')
    (hKey : key ≠ H.locate found.entry.tempPath) :
    disk'.lookup key = disk.lookup key := by
  unfold openStream at hOpen
  dsimp only at hOpen
  split at hOpen
  · cases hOpen
    rfl
  · split at hOpen
    · cases hOpen
    · split at hOpen
      · split at hOpen
        · cases hOpen
          rw [Filesystem.lookup_writeFile, if_neg hKey]
        · cases hOpen
      · rw [Option.map_eq_some_iff] at hOpen
        rcases hOpen with ⟨file, -, hSame⟩
        rw [hSame]

/- Preparing touches the directories and the file. -/
theorem lookup_prepareStream_of_clear
    (hClear : Clear H path key)
    {found : ChunkLookupResult}
    (hTemp : found.entry.tempPath = tempPathOf path)
    (disk : Disk) :
    (prepareStream H path found disk).1.lookup key =
      disk.lookup key := by
  have hNe : key ≠ H.locate found.entry.tempPath := by
    rw [hTemp]
    exact hClear.ne_temp
  unfold prepareStream
  dsimp only
  cases hMade : (if found.needCreateDirs = true then
      Filesystem.createDirectories H disk
        (H.locate (Filesystem.parentText path))
    else
      some disk) with
  | none => rfl
  | some made =>
      have hDirs : made.lookup key = disk.lookup key := by
        split at hMade
        · rw [Filesystem.lookup_createDirectories hMade,
            if_neg]
          exact fun hAbove => hClear.parent hAbove.1
        · cases hMade
          rfl
      dsimp only
      cases hOpen : openStream H made found with
      | none =>
          dsimp only
          rw [lookup_removeFrom_of_ne hNe, hDirs]
      | some opened =>
          dsimp only
          rw [lookup_openStream_of_ne hOpen hNe, hDirs]

theorem lookup_moveIntoPlace_of_clear
    (hClear : Clear H path key)
    (disk : Disk) :
    (moveIntoPlace H disk (H.locate (tempPathOf path))
        (H.locate path)).1.lookup key =
      disk.lookup key := by
  unfold moveIntoPlace
  cases hRename : Filesystem.rename H disk
      (H.locate (tempPathOf path)) (H.locate path) with
  | some moved =>
      rw [Filesystem.lookup_rename hRename,
        if_neg hClear.final, if_neg hClear.temp]
  | none =>
      have hCleared : ((Filesystem.remove H disk
          (H.locate path)).getD disk).lookup key =
            disk.lookup key :=
        lookup_removeFrom_of_ne hClear.ne_final
      have hWrite : ∀ content (disk : Disk),
          (Filesystem.writeFile H disk (H.locate path)
            content).lookup key = disk.lookup key := by
        intro content disk
        rw [Filesystem.lookup_writeFile,
          if_neg hClear.ne_final]
      dsimp only
      unfold Filesystem.copyFile
      split
      · exact hCleared
      · split
        · exact hCleared
        · split
          · split
            · exact hCleared
            · rw [hWrite, hCleared]
          · rw [hWrite, hCleared]

theorem lookup_finalizeReceivedFile_of_clear
    (hClear : Clear H path key)
    {entry : ReceivingFile}
    (hTemp : entry.tempPath = tempPathOf path)
    (s : LocalState) :
    (finalizeReceivedFile H path peerId entry
        s).disk.lookup key =
      s.disk.lookup key := by
  have hMoved := lookup_moveIntoPlace_of_clear hClear s.disk
  have hRemoved : ∀ loc, key ≠ loc → ∀ s : LocalState,
      (removeQuietly H loc s).disk.lookup key =
        s.disk.lookup key :=
    fun loc hLoc s => lookup_removeFrom_of_ne hLoc
  unfold finalizeReceivedFile
  dsimp only [eraseReceiving]
  rw [hTemp]
  split
  · split
    · rw [hRemoved _ hClear.ne_temp, hMoved]
    · unfold verifyReceivedFile
      dsimp only
      split
      · change (removeQuietly H
          (H.locate (tempPathOf path)) _).disk.lookup key = _
        rw [hRemoved _ hClear.ne_temp, hMoved]
      · rw [hRemoved _ hClear.ne_final,
          hRemoved _ hClear.ne_temp, hMoved]
  · exact hMoved

/- A lookup touches the temporary file at most. -/
theorem lookup_lookupOrCreate_of_clear
    (hClear : Clear H path key)
    {total : ℕ}
    {found : Option ChunkLookupResult}
    {s s' : LocalState}
    (hWell : ∀ recv, s.receiving.lookup path = some recv →
      WellFormed path recv)
    (hLookup : lookupOrCreateReceiving H path total peerId
      s = (found, s')) :
    s'.disk.lookup key = s.disk.lookup key := by
  unfold lookupOrCreateReceiving at hLookup
  split at hLookup
  · cases hLookup
    rfl
  · cases hEntry : s.receiving.lookup path with
    | none =>
        rw [hEntry] at hLookup
        cases hLookup
        rfl
    | some recv =>
        rw [hEntry] at hLookup
        cases hLookup
        unfold adoptTotal
        split
        · rfl
        · split
          · dsimp only [setReceiving]
            split
            · rfl
            next hTemp =>
              have hOwn := (hWell recv hEntry).temp.resolve_right
                (fun hNew => hTemp hNew.1)
              change (removeFrom H s.disk
                (H.locate recv.tempPath)).lookup key = _
              rw [hOwn, lookup_removeFrom_of_ne
                hClear.ne_temp]
          · rfl

/- Storing a chunk touches the temporary file only. -/
theorem lookup_settle_storeChunk_of_clear
    (hClear : Clear H path key)
    {chunkDataSize : ℕ}
    {hdr : ChunkHeader}
    {entry : ReceivingFile}
    (hTemp : entry.tempPath = tempPathOf path)
    (s : LocalState) :
    (settle H path peerId
        (storeChunk H chunkDataSize hdr entry disk)
        s).disk.lookup key =
      disk.lookup key := by
  have hNe : key ≠ H.locate entry.tempPath := by
    rw [hTemp]
    exact hClear.ne_temp
  unfold storeChunk
  dsimp only
  split
  · rfl
  · split
    · exact lookup_removeFrom_of_ne hNe
    · split
      · refine (lookup_finalizeReceivedFile_of_clear hClear
          ?_ _).trans ?_
        · exact hTemp
        · exact lookup_writeStream_of_ne hNe
      · exact lookup_writeStream_of_ne hNe

/- Other places are as they were before the chunk. -/
theorem lookup_handleChunk_of_clear
    {hdr : ChunkHeader}
    (hClear : Clear H hdr.filePath key)
    {s : LocalState}
    (hWell : ∀ recv,
      s.receiving.lookup hdr.filePath = some recv →
      WellFormed hdr.filePath recv)
    (chunkDataSize : ℕ)
    (peerId : String) :
    (handleChunk H chunkDataSize hdr peerId s).disk.lookup
        key =
      s.disk.lookup key := by
  rw [handleChunk_eq]
  by_cases hValid : validateChunkHeader hdr = true
  case neg => simp [hValid]
  rw [hValid, Bool.not_true, if_neg Bool.false_ne_true]
  cases hLookup : lookupOrCreateReceiving H hdr.filePath
      hdr.totalChunks peerId s with
  | mk found s' =>
      have hDisk := lookup_lookupOrCreate_of_clear hClear
        hWell hLookup
      cases found with
      | none => exact hDisk
      | some found =>
          have hTotal : 0 < hdr.totalChunks := by
            simp only [validateChunkHeader,
              Bool.and_eq_true, bne_iff_ne] at hValid
            omega
          have hHanded := handed_of_lookup hWell hTotal
            hLookup
          have hTemp := hHanded.well.temp_eq
            (hHanded.count ▸ hTotal)
          have hPrepared := lookup_prepareStream_of_clear
            hClear hTemp s'.disk
          dsimp only
          rw [writePhase_eq]
          cases hPrepare : prepareStream H hdr.filePath
              found s'.disk with
          | mk disk opened =>
              rw [hPrepare] at hPrepared
              cases opened with
              | false =>
                  exact hPrepared.trans hDisk
              | true =>
                  refine (lookup_settle_storeChunk_of_clear
                    hClear ?_ _).trans ?_
                  · exact hTemp
                  · exact hPrepared.trans hDisk

/- Other downloads are as they were before the chunk. -/
theorem receiving_handleChunk_of_ne
    {hdr : ChunkHeader}
    {other : String}
    (hOther : other ≠ hdr.filePath)
    (chunkDataSize : ℕ)
    (peerId : String)
    (s : LocalState) :
    (handleChunk H chunkDataSize hdr peerId
        s).receiving.lookup other =
      s.receiving.lookup other := by
  have hErase : ∀ s : LocalState,
      (s.receiving.erase hdr.filePath).lookup other =
        s.receiving.lookup other :=
    fun _ => AList.lookup_erase_ne hOther
  rw [handleChunk_eq]
  split
  · rfl
  · cases hLookup : lookupOrCreateReceiving H hdr.filePath
        hdr.totalChunks peerId s with
    | mk found s' =>
        cases found with
        | none =>
            rw [lookupOrCreateReceiving_eq_none hLookup]
        | some found =>
            have hSame : s'.receiving.lookup other =
                s.receiving.lookup other := by
              rw [receiving_lookupOrCreateReceiving hLookup]
              exact AList.lookup_insert_ne hOther
            dsimp only
            cases writePhase H chunkDataSize hdr found
                s'.disk with
            | failed entry disk =>
                exact (hErase _).trans hSame
            | kept entry disk =>
                exact (AList.lookup_insert_ne
                  hOther).trans hSame
            | complete entry disk =>
                dsimp only [settle]
                rw [receiving_finalizeReceivedFile, hErase]
                exact hSame

end Frame

end TransferManager

end VeritasSync
