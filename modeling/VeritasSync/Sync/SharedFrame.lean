import VeritasSync.Sync.DownloadFrame

/-
  The places that the download of one path may share with
  others: the directories above it.  All it can do to them
  is to create them.

  Main declarations:
    * `Filesystem.Lasts`
    * `TransferManager.Beside`
    * `TransferManager.lasts_handleChunk`
-/

namespace VeritasSync

namespace Filesystem

/- The place is as it was, or a new directory. -/
def Lasts
    (key : Loc)
    (disk disk' : Disk) : Prop :=
  disk'.lookup key = disk.lookup key ∨
    disk.lookup key = none ∧ disk'.lookup key = some .dir

section Lasts

variable
  {H : Host}
  {key loc : Loc}
  {disk disk' disk'' : Disk}

theorem Lasts.trans
    (hFirst : Lasts key disk disk')
    (hSecond : Lasts key disk' disk'') :
    Lasts key disk disk'' := by
  rcases hFirst with hSame | ⟨hNone, hDir⟩
  · unfold Lasts at hSecond ⊢
    rwa [hSame] at hSecond
  · rcases hSecond with hSame | ⟨hGone, -⟩
    · exact Or.inr ⟨hNone, hSame.trans hDir⟩
    · rw [hDir] at hGone
      cases hGone

theorem Lasts.dir
    (hLasts : Lasts key disk disk')
    (hDir : disk.lookup key = some .dir) :
    disk'.lookup key = some .dir := by
  rcases hLasts with hSame | ⟨-, hNew⟩
  · rw [hSame, hDir]
  · exact hNew

theorem Lasts.isFile_iff
    (hLasts : Lasts key disk disk') :
    (disk'.lookup key).any Node.isFile =
      (disk.lookup key).any Node.isFile := by
  rcases hLasts with hSame | ⟨hNone, hDir⟩
  · rw [hSame]
  · rw [hNone, hDir]
    rfl

theorem lasts_createDirectories
    (hMade : createDirectories H disk loc = some disk')
    (key : Loc) :
    Lasts key disk disk' := by
  unfold Lasts
  rw [lookup_createDirectories hMade]
  split
  · next hNew => exact Or.inr ⟨hNew.2, rfl⟩
  · exact Or.inl rfl

/- Directories can still be made where they could be. -/
theorem exists_createDirectories
    (hAbove : ∀ key, key <+: loc → Lasts key disk disk')
    {made : Disk}
    (hMade : createDirectories H disk loc = some made) :
    ∃ made', createDirectories H disk' loc = some made' ∧
      ∀ key, Lasts key disk disk' →
        Lasts key made made' := by
  have hBlocked : FileTree.blocked disk' loc =
      FileTree.blocked disk loc := by
    unfold FileTree.blocked
    rw [Bool.eq_iff_iff, List.any_eq_true,
      List.any_eq_true]
    apply exists_congr
    intro key
    rw [and_congr_right_iff, List.mem_inits]
    intro hKey
    rw [(hAbove key hKey).isFile_iff]
  cases hMade' : createDirectories H disk' loc with
  | none =>
      unfold createDirectories FileTree.createDirectories
        at hMade hMade'
      rw [hBlocked] at hMade'
      split at hMade
      · cases hMade
      · next hFails =>
        rw [if_neg hFails] at hMade'
        split at hMade
        · cases hMade
        · next hFree =>
          rw [if_neg hFree] at hMade'
          cases hMade'
  | some made' =>
      refine ⟨made', rfl, fun key hLasts => ?_⟩
      unfold Lasts
      rw [lookup_createDirectories hMade,
        lookup_createDirectories hMade']
      rcases hLasts with hSame | ⟨hNone, hDir⟩
      · rw [hSame]
        exact Or.inl rfl
      · simp only [hNone, hDir, reduceCtorEq, and_false,
          if_false, and_true]
        split
        · exact Or.inl rfl
        · exact Or.inr rfl

end Lasts

end Filesystem

namespace TransferManager

open Filesystem

/-
  A location that neither the final file nor the temporary
  file of the path is at or above.
-/
structure Beside
    (H : Host)
    (path : String)
    (key : Loc) : Prop where
  final : ¬ H.locate path <+: key
  temp : ¬ H.locate (tempPathOf path) <+: key

section Frame

variable
  {H : Host}
  {path peerId : String}
  {key : Loc}

theorem Clear.beside (hClear : Clear H path key) :
    Beside H path key :=
  ⟨hClear.final, hClear.temp⟩

theorem Beside.ne_temp (hBeside : Beside H path key) :
    key ≠ H.locate (tempPathOf path) := by
  rintro rfl
  exact hBeside.temp (List.prefix_refl _)

theorem Beside.ne_final (hBeside : Beside H path key) :
    key ≠ H.locate path := by
  rintro rfl
  exact hBeside.final (List.prefix_refl _)

/- What is above such a place is one, too. -/
theorem Beside.above
    (hBeside : Beside H path key)
    {above : Loc}
    (hAbove : above <+: key) :
    Beside H path above :=
  ⟨fun hFinal => hBeside.final (hFinal.trans hAbove),
    fun hTemp => hBeside.temp (hTemp.trans hAbove)⟩

theorem lasts_prepareStream
    (hBeside : Beside H path key)
    {found : ChunkLookupResult}
    (hTemp : found.entry.tempPath = tempPathOf path)
    (disk : Disk) :
    Lasts key disk (prepareStream H path found disk).1 := by
  have hNe : key ≠ H.locate found.entry.tempPath := by
    rw [hTemp]
    exact hBeside.ne_temp
  unfold prepareStream
  dsimp only
  cases hMade : (if found.needCreateDirs = true then
      createDirectories H disk
        (H.locate (Filesystem.parentText path))
    else
      some disk) with
  | none => exact Or.inl rfl
  | some made =>
      have hDirs : Lasts key disk made := by
        split at hMade
        · exact lasts_createDirectories hMade key
        · cases hMade
          exact Or.inl rfl
      dsimp only
      cases hOpen : openStream H made found with
      | none =>
          exact hDirs.trans
            (Or.inl (lookup_removeFrom_of_ne hNe))
      | some opened =>
          exact hDirs.trans
            (Or.inl (lookup_openStream_of_ne hOpen hNe))

theorem lookup_moveIntoPlace_of_beside
    (hBeside : Beside H path key)
    (disk : Disk) :
    (moveIntoPlace H disk (H.locate (tempPathOf path))
        (H.locate path)).1.lookup key =
      disk.lookup key := by
  unfold moveIntoPlace
  cases hRename : Filesystem.rename H disk
      (H.locate (tempPathOf path)) (H.locate path) with
  | some moved =>
      rw [Filesystem.lookup_rename hRename,
        if_neg hBeside.final, if_neg hBeside.temp]
  | none =>
      have hCleared : (removeFrom H disk
          (H.locate path)).lookup key = disk.lookup key :=
        lookup_removeFrom_of_ne hBeside.ne_final
      change (copyFile H (removeFrom H disk (H.locate path))
        _ _).1.lookup key = _
      generalize removeFrom H disk (H.locate path) = cleared
        at hCleared
      unfold copyFile
      split
      · exact hCleared
      · split
        · exact hCleared
        · split
          · split
            · exact hCleared
            · rw [lookup_writeFile,
                if_neg hBeside.ne_final, hCleared]
          · rw [lookup_writeFile,
              if_neg hBeside.ne_final, hCleared]

theorem lookup_finalizeReceivedFile_of_beside
    (hBeside : Beside H path key)
    {entry : ReceivingFile}
    (hTemp : entry.tempPath = tempPathOf path)
    (s : LocalState) :
    (finalizeReceivedFile H path peerId entry
        s).disk.lookup key =
      s.disk.lookup key := by
  have hMoved := lookup_moveIntoPlace_of_beside hBeside
    s.disk
  have hRemoved : ∀ loc, key ≠ loc → ∀ s : LocalState,
      (removeQuietly H loc s).disk.lookup key =
        s.disk.lookup key :=
    fun loc hLoc s => lookup_removeFrom_of_ne hLoc
  unfold finalizeReceivedFile
  dsimp only [eraseReceiving]
  rw [hTemp]
  split
  · split
    · rw [hRemoved _ hBeside.ne_temp, hMoved]
    · unfold verifyReceivedFile
      dsimp only
      split
      · change (removeQuietly H
          (H.locate (tempPathOf path)) _).disk.lookup key = _
        rw [hRemoved _ hBeside.ne_temp, hMoved]
      · rw [hRemoved _ hBeside.ne_final,
          hRemoved _ hBeside.ne_temp, hMoved]
  · exact hMoved

/- Adopting a new total touches the temporary file only. -/
theorem lookup_lookupOrCreate_of_beside
    (hBeside : Beside H path key)
    {total : ℕ}
    {found : Option ChunkLookupResult}
    {s s' : LocalState}
    (hWell : ∀ recv, s.receiving.lookup path = some recv →
      WellFormed path recv)
    (hLookup : lookupOrCreateReceiving H path total peerId
      s = (found, s')) :
    s'.disk.lookup key = s.disk.lookup key := by
  unfold lookupOrCreateReceiving at hLookup
  split at hLookup
  · cases hLookup
    rfl
  · cases hEntry : s.receiving.lookup path with
    | none =>
        rw [hEntry] at hLookup
        cases hLookup
        rfl
    | some recv =>
        rw [hEntry] at hLookup
        cases hLookup
        unfold adoptTotal
        split
        · rfl
        · split
          · dsimp only [setReceiving]
            split
            · rfl
            next hTemp =>
              have hOwn := (hWell recv
                hEntry).temp.resolve_right
                  (fun hNew => hTemp hNew.1)
              change (removeFrom H s.disk
                (H.locate recv.tempPath)).lookup key = _
              rw [hOwn, lookup_removeFrom_of_ne
                hBeside.ne_temp]
          · rfl

theorem lookup_settle_storeChunk_of_beside
    (hBeside : Beside H path key)
    {chunkDataSize : ℕ}
    {hdr : ChunkHeader}
    {entry : ReceivingFile}
    {disk : Disk}
    (hTemp : entry.tempPath = tempPathOf path)
    (s : LocalState) :
    (settle H path peerId
        (storeChunk H chunkDataSize hdr entry disk)
        s).disk.lookup key =
      disk.lookup key := by
  have hNe : key ≠ H.locate entry.tempPath := by
    rw [hTemp]
    exact hBeside.ne_temp
  unfold storeChunk
  dsimp only
  split
  · rfl
  · split
    · exact lookup_removeFrom_of_ne hNe
    · split
      · refine (lookup_finalizeReceivedFile_of_beside
          hBeside ?_ _).trans ?_
        · exact hTemp
        · exact lookup_writeStream_of_ne hNe
      · exact lookup_writeStream_of_ne hNe

/- A directory above the path stays or comes into being. -/
theorem lasts_handleChunk
    {hdr : ChunkHeader}
    (hBeside : Beside H hdr.filePath key)
    {s : LocalState}
    (hWell : ∀ recv,
      s.receiving.lookup hdr.filePath = some recv →
      WellFormed hdr.filePath recv)
    (chunkDataSize : ℕ)
    (peerId : String) :
    Lasts key s.disk
      (handleChunk H chunkDataSize hdr peerId s).disk := by
  rw [handleChunk_eq]
  by_cases hValid : validateChunkHeader hdr = true
  case neg =>
    rw [if_pos (by simpa using hValid)]
    exact Or.inl rfl
  rw [hValid, Bool.not_true, if_neg Bool.false_ne_true]
  cases hLookup : lookupOrCreateReceiving H hdr.filePath
      hdr.totalChunks peerId s with
  | mk found s' =>
      have hDisk : Lasts key s.disk s'.disk :=
        Or.inl (lookup_lookupOrCreate_of_beside hBeside
          hWell hLookup)
      cases found with
      | none => exact hDisk
      | some found =>
          have hTotal : 0 < hdr.totalChunks := by
            simp only [validateChunkHeader,
              Bool.and_eq_true, bne_iff_ne] at hValid
            omega
          have hHanded := handed_of_lookup hWell hTotal
            hLookup
          have hTemp := hHanded.well.temp_eq
            (hHanded.count ▸ hTotal)
          have hPrepared := lasts_prepareStream hBeside
            hTemp s'.disk
          dsimp only
          rw [writePhase_eq]
          cases hPrepare : prepareStream H hdr.filePath
              found s'.disk with
          | mk disk opened =>
              rw [hPrepare] at hPrepared
              have hReady := hDisk.trans hPrepared
              cases opened with
              | false => exact hReady
              | true =>
                  refine hReady.trans (Or.inl ?_)
                  apply lookup_settle_storeChunk_of_beside
                    hBeside
                  exact hTemp

end Frame

end TransferManager

end VeritasSync
