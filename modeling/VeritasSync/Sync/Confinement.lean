import VeritasSync.Library.Transition
import VeritasSync.Sync.FileRemoval
import VeritasSync.Sync.StateSafety

/-
  Steps that leave everything outside the sync root alone.

  Main declarations:
    * `Confined`, `Confined.foldl_of_meets`,
      `meets_of_emits`
    * `Standing`, `DownloadsInside`
    * `SyncHandler.confined_dirBatch`
    * `TransferManager.confined_handleChunk`
-/

namespace VeritasSync

open LocalState PathUtils StateManager

------------------------------------------------------------
-- Confined Steps
------------------------------------------------------------

/- The places that an effect reports lie inside the root. -/
def PlacesInside (H : Host) : Action → Prop
| .createdDirs path => H.Inside (H.locate path)
| .removed path => H.Inside (H.locate path)
| .removedTree path => H.Inside (H.locate path)
| .renamed path target =>
    H.Inside (H.locate path) ∧ H.Inside (H.locate target)
| .requested _ => True

/-
  From `s` to `s'` nothing outside the root changed, and
  nothing outside was created, removed or renamed on the
  way.
-/
structure Confined
    (H : Host)
    (s s' : LocalState) : Prop where
  disk : ∀ loc, ¬H.Inside loc →
    s'.disk.lookup loc = s.disk.lookup loc
  actions : Emits (PlacesInside H) s s'

/- The directories above the root exist. -/
def Standing
    (H : Host)
    (s : LocalState) : Prop :=
  ∀ loc, loc <+: H.root → ¬H.Inside loc →
    s.disk.lookup loc ≠ none

/- Unfinished downloads are collected inside the root. -/
def DownloadsInside
    (H : Host)
    (s : LocalState) : Prop :=
  ∀ path entry, s.receiving.lookup path = some entry →
    H.Inside (H.locate entry.tempPath)

section Rules

variable
  {H : Host}
  {s s' s'' : LocalState}

namespace Confined

/- Nothing but the memory of the node changed. -/
theorem of_eq
    (hDisk : s'.disk = s.disk)
    (hActions : s'.actions = s.actions) :
    Confined H s s' where
  disk loc _ := by rw [hDisk]
  actions := Emits.of_actions_eq hActions

theorem refl (s : LocalState) : Confined H s s :=
  of_eq rfl rfl

/- A reported place lies inside. -/
theorem act
    {action : Action}
    (hPlaces : PlacesInside H action) :
    Confined H s (s.act action) where
  disk _ _ := rfl
  actions := Emits.of_append rfl hPlaces

theorem trans
    (hFirst : Confined H s s')
    (hSecond : Confined H s' s'') :
    Confined H s s'' where
  disk loc hLoc :=
    (hSecond.disk loc hLoc).trans (hFirst.disk loc hLoc)
  actions := hFirst.actions.trans hSecond.actions

theorem standing
    (hStep : Confined H s s')
    (hStanding : Standing H s) :
    Standing H s' := by
  intro loc hAbove hLoc
  rw [hStep.disk loc hLoc]
  exact hStanding loc hAbove hLoc

/- A loop of confined steps that keep an invariant. -/
theorem foldl_of_inv
    {α : Type}
    {step : LocalState → α → LocalState}
    {items : List α}
    (inv : LocalState → Prop)
    (hStep : ∀ s, inv s → ∀ item ∈ items,
      Confined H s (step s item) ∧ inv (step s item))
    (hInv : inv s) :
    Confined H s (items.foldl step s) ∧
      inv (items.foldl step s) := by
  induction items generalizing s with
  | nil => exact ⟨refl s, hInv⟩
  | cons item items ih =>
      rcases hStep s hInv item List.mem_cons_self with
        ⟨hNow, hInv'⟩
      rcases ih (fun s hInv other hOther =>
          hStep s hInv other (List.mem_cons_of_mem _ hOther))
        hInv' with ⟨hThen, hInv''⟩
      exact ⟨hNow.trans hThen, hInv''⟩

/- A loop of confined steps is confined. -/
theorem foldl
    {α : Type}
    {step : LocalState → α → LocalState}
    {items : List α}
    (hStep : ∀ s, ∀ item ∈ items,
      Confined H s (step s item)) :
    Confined H s (items.foldl step s) :=
  (foldl_of_inv (fun _ => True)
    (fun s _ item hItem => ⟨hStep s item hItem, trivial⟩)
    trivial).1

end Confined

section Loops

variable
  {α : Type}
  {step : LocalState → α → LocalState}
  {ok : LocalState → α → Prop}
  {items : List α}

/- A loop as a run, none of whose steps fails. -/
def each
    (step : LocalState → α → LocalState)
    (s : LocalState)
    (item : α) : Option LocalState :=
  some (step s item)

/- A loop whose steps are each confined where they start. -/
theorem Confined.foldl_of_meets
    (hStep : ∀ s item, ok s item →
      Confined H s (step s item))
    (hMeets : Transition.Meets (each step) ok s items) :
    Confined H s (items.foldl step s) := by
  induction items generalizing s with
  | nil => exact Confined.refl s
  | cons item items ih =>
      exact (hStep s item hMeets.1).trans
        (ih (hMeets.2 _ rfl))

/- The effects of a loop show what each of its steps met. -/
theorem meets_of_emits
    (hAppends : ∀ s item,
      Emits (fun _ => True) s (step s item))
    (hOk : ∀ s item,
      Emits (PlacesInside H) s (step s item) → ok s item)
    (hPlaces : Emits (PlacesInside H) s
      (items.foldl step s)) :
    Transition.Meets (each step) ok s items := by
  induction items generalizing s with
  | nil => trivial
  | cons item items ih =>
      have hRest : Emits (fun _ => True) (step s item)
          (items.foldl step (step s item)) :=
        Emits.foldl _ (fun s item _ => hAppends s item)
      rcases (Emits.trans_iff (hAppends s item) hRest).mp
        hPlaces with ⟨hNow, hThen⟩
      refine .cons (hOk s item hNow) rfl (ih hThen)

end Loops

end Rules

------------------------------------------------------------
-- File System Calls
------------------------------------------------------------

section Calls

variable
  {H : Host}
  {disk disk' : Disk}
  {loc : Loc}

theorem ne_of_inside
    (hLoc : ¬H.Inside loc)
    {target : Loc}
    (hTarget : H.Inside target) :
    loc ≠ target := by
  rintro rfl
  exact hLoc hTarget

theorem lookup_remove_outside
    {target : Loc}
    (hTarget : H.Inside target)
    (hRemove : Filesystem.remove H disk target = some disk')
    (hLoc : ¬H.Inside loc) :
    disk'.lookup loc = disk.lookup loc := by
  rw [Filesystem.lookup_remove hRemove,
    if_neg (ne_of_inside hLoc hTarget)]

theorem lookup_getD_remove_outside
    {target : Loc}
    (hTarget : H.Inside target)
    (hLoc : ¬H.Inside loc) :
    ((Filesystem.remove H disk target).getD disk).lookup loc =
      disk.lookup loc := by
  cases hRemove : Filesystem.remove H disk target with
  | none => rfl
  | some disk' =>
      exact lookup_remove_outside hTarget hRemove hLoc

theorem lookup_removeAll_outside
    {top : Loc}
    (hTop : H.Inside top)
    (hLoc : ¬H.Inside loc) :
    (Filesystem.removeAll H disk top).lookup loc =
      disk.lookup loc := by
  rw [Filesystem.lookup_removeAll, if_neg]
  rintro ⟨hBelow, -⟩
  exact hLoc (hTop.trans hBelow)

theorem lookup_rename_outside
    {source target : Loc}
    (hSource : H.Inside source)
    (hTarget : H.Inside target)
    (hRename : Filesystem.rename H disk source target =
      some disk')
    (hLoc : ¬H.Inside loc) :
    disk'.lookup loc = disk.lookup loc := by
  rw [Filesystem.lookup_rename hRename, if_neg, if_neg]
  · exact fun hBelow => hLoc (hSource.trans hBelow)
  · exact fun hBelow => hLoc (hTarget.trans hBelow)

theorem lookup_writeFile_outside
    {target : Loc}
    {content : Content}
    (hTarget : H.Inside target)
    (hLoc : ¬H.Inside loc) :
    (Filesystem.writeFile H disk target content).lookup loc =
      disk.lookup loc := by
  rw [Filesystem.lookup_writeFile,
    if_neg (ne_of_inside hLoc hTarget)]

theorem lookup_copyFile_outside
    {source target : Loc}
    (hTarget : H.Inside target)
    (hLoc : ¬H.Inside loc) :
    (Filesystem.copyFile H disk source target).1.lookup loc =
      disk.lookup loc := by
  unfold Filesystem.copyFile
  split
  · rfl
  · split
    · rfl
    · split
      · split
        · rfl
        · exact lookup_writeFile_outside hTarget hLoc
      · exact lookup_writeFile_outside hTarget hLoc

/- Only what is above the root could be created outside. -/
theorem lookup_createDirectories_outside
    {target : Loc}
    (hTarget : H.Inside target)
    (hStanding : ∀ loc, loc <+: H.root → ¬H.Inside loc →
      disk.lookup loc ≠ none)
    (hCreate : Filesystem.createDirectories H disk target =
      some disk')
    (hLoc : ¬H.Inside loc) :
    disk'.lookup loc = disk.lookup loc := by
  rw [Filesystem.lookup_createDirectories hCreate, if_neg]
  rintro ⟨hAbove, hNone⟩
  rcases List.prefix_or_prefix_of_prefix hAbove hTarget
    with hRoot | hInside
  · exact hStanding loc hRoot hLoc hNone
  · exact hLoc hInside

/- What is above a place outside lies outside. -/
theorem not_inside_of_above
    (hLoc : ¬H.Inside loc)
    {above : Loc}
    (hAbove : above <+: loc) :
    ¬H.Inside above :=
  fun hInside => hLoc (hInside.trans hAbove)

end Calls

------------------------------------------------------------
-- Unfinished Downloads
------------------------------------------------------------

section Downloads

variable
  {H : Host}
  {s : LocalState}

theorem inside_locate_empty : H.Inside (H.locate "") := by
  simp [Host.locate, components, isAbsolute, Host.Inside]

theorem DownloadsInside.setReceiving
    (hDownloads : DownloadsInside H s)
    (path : String)
    {entry : ReceivingFile}
    (hEntry : H.Inside (H.locate entry.tempPath)) :
    DownloadsInside H
      (TransferManager.setReceiving path entry s) := by
  intro other found hFound
  unfold TransferManager.setReceiving at hFound
  by_cases hOther : other = path
  · subst hOther
    rw [AList.lookup_insert] at hFound
    rw [← Option.some.inj hFound]
    exact hEntry
  · rw [AList.lookup_insert_ne hOther] at hFound
    exact hDownloads other found hFound

theorem DownloadsInside.eraseReceiving
    (hDownloads : DownloadsInside H s)
    (path : String) :
    DownloadsInside H
      (TransferManager.eraseReceiving path s) := by
  intro other found hFound
  unfold TransferManager.eraseReceiving at hFound
  by_cases hOther : other = path
  · subst hOther
    rw [AList.lookup_erase] at hFound
    cases hFound
  · rw [AList.lookup_erase_ne hOther] at hFound
    exact hDownloads other found hFound

theorem Confined.eraseReceiving
    {s' : LocalState}
    (hStep : Confined H s s')
    (path : String) :
    Confined H s (TransferManager.eraseReceiving path s') :=
  ⟨hStep.disk, hStep.actions⟩

theorem Confined.setReceiving
    {s' : LocalState}
    (hStep : Confined H s s')
    (path : String)
    (entry : ReceivingFile) :
    Confined H s
      (TransferManager.setReceiving path entry s') :=
  ⟨hStep.disk, hStep.actions⟩

theorem Confined.removeQuietly
    {loc : Loc}
    (hLoc : H.Inside loc) :
    Confined H s (TransferManager.removeQuietly H loc s) where
  disk _ hOutside :=
    lookup_getD_remove_outside hLoc hOutside
  actions := Emits.of_actions_eq rfl

/- Checking for a resumed download stays inside. -/
theorem confined_checkResumeEligibility
    (hDownloads : DownloadsInside H s)
    (path remoteHash : String)
    (remoteSize : ℕ) :
    let checked := (TransferManager.checkResumeEligibility H
      path remoteHash remoteSize s).2
    Confined H s checked ∧ DownloadsInside H checked := by
  unfold TransferManager.checkResumeEligibility
  dsimp only
  cases hEntry : s.receiving.lookup path with
  | none => exact ⟨Confined.refl s, hDownloads⟩
  | some entry =>
      dsimp only
      split
      · exact ⟨Confined.refl s, hDownloads⟩
      · split
        · exact ⟨Confined.of_eq rfl rfl,
            hDownloads.eraseReceiving path⟩
        · split
          · refine ⟨?_, hDownloads.eraseReceiving path⟩
            exact (Confined.removeQuietly (hDownloads path
              entry hEntry)).eraseReceiving path
          · exact ⟨Confined.refl s, hDownloads⟩

/- Noting what was announced stays inside. -/
theorem confined_registerExpectedMetadata
    (hDownloads : DownloadsInside H s)
    (path peerId hash : String)
    (size : ℕ) :
    let noted := TransferManager.registerExpectedMetadata path
      peerId hash size s
    Confined H s noted ∧ DownloadsInside H noted := by
  unfold TransferManager.registerExpectedMetadata
  dsimp only
  cases hEntry : s.receiving.lookup path with
  | none =>
      exact ⟨Confined.of_eq rfl rfl,
        hDownloads.setReceiving path inside_locate_empty⟩
  | some entry =>
      dsimp only
      split
      · exact ⟨Confined.refl s, hDownloads⟩
      · exact ⟨Confined.of_eq rfl rfl,
          hDownloads.setReceiving path
            (hDownloads path entry hEntry)⟩

namespace SyncHandler

theorem confined_requestFile
    (hDownloads : DownloadsInside H s)
    (peerId : String)
    (info : FileInfo) :
    Confined H s (requestFile H peerId s info) ∧
      DownloadsInside H (requestFile H peerId s info) := by
  have hCheck := confined_checkResumeEligibility hDownloads
    info.path info.hash info.size
  unfold requestFile buildFileRequest
  dsimp only at hCheck ⊢
  split
  · exact ⟨hCheck.1.trans (Confined.act trivial), hCheck.2⟩
  · have hNoted := confined_registerExpectedMetadata
      hCheck.2 info.path peerId info.hash info.size
    exact ⟨hCheck.1.trans (hNoted.1.trans
      (Confined.act trivial)), hNoted.2⟩

/- Sending requests stays inside. -/
theorem confined_paceAndSendFiles
    (hDownloads : DownloadsInside H s)
    (peerId : String)
    (files : List FileInfo) :
    Confined H s (paceAndSendFiles H peerId files s) :=
  (Confined.foldl_of_inv (DownloadsInside H)
    (fun _ hInv info _ =>
      confined_requestFile hInv peerId info)
    hDownloads).1

end SyncHandler

end Downloads

------------------------------------------------------------
-- Deleting And Creating
------------------------------------------------------------

namespace SyncHandler

section Paths

variable
  {H : Host}
  {s : LocalState}
  {path : String}

theorem confined_deleteFile
    (hPath : H.Inside (H.locate path)) :
    Confined H s (deleteFile H s path) := by
  unfold deleteFile
  cases hRemove : Filesystem.remove H s.disk
      (H.locate path) with
  | none => exact Confined.refl s
  | some disk =>
      exact ⟨fun _ hLoc =>
          lookup_remove_outside hPath hRemove hLoc,
        Emits.of_append rfl hPath⟩

theorem confined_deleteTree
    (hPath : H.Inside (H.locate path)) :
    Confined H s (deleteTree H s path) where
  disk loc hLoc := by
    rw [deleteTree_disk]
    exact lookup_removeAll_outside hPath hLoc
  actions := by
    refine (deleteTree_emits H s path).mono ?_
    intro action hAction
    subst hAction
    exact hPath

theorem confined_syncDeleteDir
    (hPath : H.Inside (H.locate path))
    (mode : SyncMode) :
    Confined H s (syncDeleteDir H mode s path) where
  disk loc hLoc := by
    cases mode with
    | oneWay => exact (confined_deleteTree hPath).disk loc hLoc
    | biDirectional =>
        rw [syncDeleteDir_biDirectional_disk]
        exact (confined_deleteFile hPath).disk loc hLoc
  actions := by
    refine (syncDeleteDir_emits H mode s path).mono ?_
    rintro action (hAction | ⟨-, hAction⟩)
    · subst hAction
      exact hPath
    · subst hAction
      exact hPath

/- Creating a directory inside the root. -/
theorem confined_createdDirs
    (hStanding : Standing H s)
    (hPath : H.Inside (H.locate path))
    {disk : Disk}
    (hCreate : Filesystem.createDirectories H s.disk
      (H.locate path) = some disk) :
    Confined H s
      ((addDirToMap path { s with disk := disk }).act
        (.createdDirs path)) where
  disk _ hLoc :=
    lookup_createDirectories_outside hPath hStanding hCreate
      hLoc
  actions := Emits.of_append rfl hPath

theorem confined_createDir
    (hNames : OrdinaryNames H)
    (hStanding : Standing H s) :
    Confined H s (createDir H path s) := by
  unfold createDir
  dsimp only
  split
  · exact Confined.refl s
  next hSafe =>
    have hPath := inside_of_isPathSafe hNames
      (isPathSafeWithCanonicalRoot_of_isPathSafe
        (by simpa using hSafe))
    split
    · exact Confined.refl s
    next disk hCreate =>
      split
      · exact Confined.refl s
      · exact confined_createdDirs hStanding hPath hCreate

theorem confined_createBatchDir
    (hNames : OrdinaryNames H)
    (hStanding : Standing H s) :
    Confined H s (createBatchDir H s path) := by
  unfold createBatchDir
  dsimp only
  split
  next hSafe =>
    have hPath := inside_of_isPathSafe hNames hSafe
    split
    next disk hCreate =>
      exact confined_createdDirs hStanding hPath hCreate
    · split
      · exact Confined.of_eq rfl rfl
      · exact Confined.refl s
  · exact Confined.refl s

theorem confined_deleteSafeFile
    (hNames : OrdinaryNames H) :
    Confined H s (deleteSafeFile H s path) := by
  unfold deleteSafeFile
  split
  next hSafe =>
    exact confined_deleteFile
      (inside_of_isPathSafe hNames hSafe)
  · exact Confined.refl s

theorem confined_deleteSafeTree
    (hNames : OrdinaryNames H) :
    Confined H s (deleteSafeTree H s path) := by
  unfold deleteSafeTree
  split
  next hSafe =>
    exact confined_deleteTree
      (inside_of_isPathSafe hNames hSafe)
  · exact Confined.refl s

theorem confined_deleteDir
    (hNames : OrdinaryNames H) :
    Confined H s (deleteDir H path s) := by
  unfold deleteDir
  split
  · exact Confined.refl s
  next hSafe =>
    exact confined_deleteTree (inside_of_isPathSafe hNames
      (isPathSafeWithCanonicalRoot_of_isPathSafe
        (by simpa using hSafe)))

end Paths

section Batches

variable
  {H : Host}
  {s : LocalState}

theorem confined_deleteBatch
    (hNames : OrdinaryNames H)
    (paths : List String) :
    Confined H s (deleteBatch H paths s) := by
  unfold deleteBatch
  split
  · exact Confined.refl s
  · exact Confined.foldl
      (fun _ _ _ => confined_deleteSafeFile hNames)

theorem confined_dirBatch
    (hNames : OrdinaryNames H)
    (hStanding : Standing H s)
    (creates deletes : List String) :
    Confined H s (dirBatch H creates deletes s) := by
  unfold dirBatch
  split
  · exact Confined.refl s
  · have hCreates :
        Confined H s (creates.foldl (createBatchDir H) s) ∧
          Standing H (creates.foldl (createBatchDir H) s) :=
      Confined.foldl_of_inv (Standing H)
        (fun s hStanding path _ =>
          have hStep :=
            confined_createBatchDir hNames hStanding
          ⟨hStep, hStep.standing hStanding⟩)
        hStanding
    exact hCreates.1.trans (Confined.foldl
      (fun _ _ _ => confined_deleteSafeTree hNames))

end Batches

end SyncHandler

------------------------------------------------------------
-- Chunks
------------------------------------------------------------

namespace TransferManager

/-
  The names that the program derives from a checked path
  lie inside the root as well.
-/
structure DerivedInside
    (H : Host)
    (path : String) : Prop where
  temp : H.Inside (H.locate (tempPathOf path))
  parent : H.Inside (H.locate (Filesystem.parentText path))

section Chunks

variable
  {H : Host}
  {s : LocalState}
  {path : String}

theorem confined_moveIntoPlace
    {disk : Disk}
    {temp final loc : Loc}
    (hTemp : H.Inside temp)
    (hFinal : H.Inside final)
    (hLoc : ¬H.Inside loc) :
    (moveIntoPlace H disk temp final).1.lookup loc =
      disk.lookup loc := by
  unfold moveIntoPlace
  cases hRename : Filesystem.rename H disk temp final with
  | some disk' =>
      exact lookup_rename_outside hTemp hFinal hRename hLoc
  | none =>
      dsimp only
      rw [lookup_copyFile_outside hFinal hLoc,
        lookup_getD_remove_outside hFinal hLoc]

theorem confined_verifyReceivedFile
    (hPath : H.Inside (H.locate path))
    (peerId expectedHash : String) :
    Confined H s
      (verifyReceivedFile H path peerId expectedHash s) := by
  unfold verifyReceivedFile
  dsimp only
  split
  · exact Confined.of_eq rfl rfl
  · exact Confined.removeQuietly hPath

theorem confined_finalizeReceivedFile
    {entry : ReceivingFile}
    (hPath : H.Inside (H.locate path))
    (hTemp : H.Inside (H.locate entry.tempPath))
    (peerId : String) :
    Confined H s
      (finalizeReceivedFile H path peerId entry s) := by
  have hMoved : Confined H s
      { s with
        disk := (moveIntoPlace H s.disk
          (H.locate entry.tempPath) (H.locate path)).1 } :=
    ⟨fun _ hLoc => confined_moveIntoPlace hTemp hPath hLoc,
      Emits.of_actions_eq rfl⟩
  unfold finalizeReceivedFile
  dsimp only
  apply Confined.eraseReceiving
  split
  · have hCleared := hMoved.trans
      (Confined.removeQuietly hTemp)
    split
    · exact hCleared
    · exact hCleared.trans
        (confined_verifyReceivedFile hPath peerId _)
  · exact hMoved

theorem confined_writeChunk
    {entry : ReceivingFile}
    {hdr : ChunkHeader}
    (hPath : H.Inside (H.locate hdr.filePath))
    (hTemp : H.Inside (H.locate entry.tempPath))
    (chunkDataSize : ℕ)
    (peerId : String) :
    Confined H s
      (writeChunk H chunkDataSize hdr peerId entry s) := by
  unfold writeChunk
  dsimp only
  generalize (if entry.receivedBitmap.length ≤ hdr.chunkIndex
    then _ else entry.receivedBitmap) = bitmap
  split
  · exact (Confined.refl s).setReceiving hdr.filePath _
  · split
    · exact (Confined.removeQuietly hTemp).eraseReceiving
        hdr.filePath
    · have hWritten : Confined H s
          { s with
            disk := writeStream H s.disk
              (H.locate entry.tempPath)
              (hdr.chunkIndex * chunkDataSize)
              hdr.uncompressedData } := by
        refine ⟨fun loc hLoc => ?_, Emits.of_actions_eq rfl⟩
        unfold writeStream
        dsimp only
        split
        · rfl
        · exact lookup_writeFile_outside hTemp hLoc
      split
      · exact hWritten.trans
          (confined_finalizeReceivedFile hPath hTemp peerId)
      · exact hWritten.setReceiving hdr.filePath _

/- Fitting an entry to a chunk keeps it inside. -/
theorem confined_adoptTotal
    {entry : ReceivingFile}
    (hEntry : H.Inside (H.locate entry.tempPath))
    (hTemp : H.Inside (H.locate (tempPathOf path)))
    (totalChunks : ℕ) :
    let result := adoptTotal H path totalChunks entry s
    Confined H s result.2 ∧
      H.Inside (H.locate result.1.entry.tempPath) := by
  unfold adoptTotal
  dsimp only
  split
  · exact ⟨Confined.refl s, hEntry⟩
  · split
    · refine ⟨?_, hTemp⟩
      dsimp only
      split
      · exact Confined.refl s
      · exact Confined.removeQuietly hEntry
    · exact ⟨Confined.refl s, hEntry⟩

theorem inside_adoptTempPath
    {found : ChunkLookupResult}
    (hFound : H.Inside (H.locate found.entry.tempPath))
    (hTemp : H.Inside (H.locate (tempPathOf path))) :
    H.Inside
      (H.locate (adoptTempPath path found).entry.tempPath) := by
  unfold adoptTempPath
  split
  · exact hTemp
  · exact hFound

/- The entry that a chunk goes to is collected inside. -/
theorem confined_lookupOrCreateReceiving
    (hDownloads : DownloadsInside H s)
    (hDerived : isPathSafe H path = true →
      DerivedInside H path)
    (totalChunks : ℕ)
    (peerId : String) :
    let result := lookupOrCreateReceiving H path totalChunks
      peerId s
    Confined H s result.2 ∧
      ∀ found, result.1 = some found →
        isPathSafe H path = true ∧
          H.Inside (H.locate found.entry.tempPath) := by
  unfold lookupOrCreateReceiving
  dsimp only
  split
  · refine ⟨Confined.refl s, fun found hFound => ?_⟩
    cases hFound
  next hSafe =>
    simp only [Bool.not_eq_true', Bool.not_eq_false] at hSafe
    have hTemp := (hDerived hSafe).temp
    cases hEntry : s.receiving.lookup path with
    | none =>
        refine ⟨Confined.of_eq rfl rfl, ?_⟩
        intro found hFound
        cases hFound
        exact ⟨hSafe, hTemp⟩
    | some entry =>
        have hKeep : H.Inside (H.locate
            ({ entry with peerId := peerId } :
              ReceivingFile).tempPath) :=
          hDownloads path entry hEntry
        have hAdopted := confined_adoptTotal (s := s) hKeep
          hTemp totalChunks
        refine ⟨hAdopted.1.setReceiving path _, ?_⟩
        intro found hFound
        cases hFound
        exact ⟨hSafe, inside_adoptTempPath hAdopted.2 hTemp⟩

theorem confined_openStream
    {disk disk' : Disk}
    {found : ChunkLookupResult}
    {loc : Loc}
    (hTemp : H.Inside (H.locate found.entry.tempPath))
    (hOpen : openStream H disk found = some disk')
    (hLoc : ¬H.Inside loc) :
    disk'.lookup loc = disk.lookup loc := by
  unfold openStream at hOpen
  dsimp only at hOpen
  split at hOpen
  · rw [Option.some.inj hOpen]
  · split at hOpen
    · cases hOpen
    · split at hOpen
      · split at hOpen
        · rw [← Option.some.inj hOpen]
          exact lookup_writeFile_outside hTemp hLoc
        · cases hOpen
      · rcases Option.map_eq_some_iff.mp hOpen with
          ⟨file, -, hDisk⟩
        rw [hDisk]

/-
  A chunk is handled inside the root when the names derived
  from its path, if that passes the check, lie inside.
-/
theorem confined_handleChunk
    (hNames : OrdinaryNames H)
    (hStanding : Standing H s)
    (hDownloads : DownloadsInside H s)
    {hdr : ChunkHeader}
    (hDerived : isPathSafe H hdr.filePath = true →
      DerivedInside H hdr.filePath)
    (chunkDataSize : ℕ)
    (peerId : String) :
    Confined H s
      (handleChunk H chunkDataSize hdr peerId s) := by
  unfold handleChunk
  split
  · exact Confined.refl s
  · dsimp only
    have hLookup := confined_lookupOrCreateReceiving
      hDownloads hDerived hdr.totalChunks peerId
    generalize lookupOrCreateReceiving H hdr.filePath
      hdr.totalChunks peerId s = result at hLookup ⊢
    rcases result with ⟨_ | found, s'⟩
    · exact hLookup.1
    · rcases hLookup with ⟨hStep, hFound⟩
      rcases hFound found rfl with ⟨hSafe, hTemp⟩
      have hPath := inside_of_isPathSafe hNames
        (isPathSafeWithCanonicalRoot_of_isPathSafe hSafe)
      have hStanding' := hStep.standing hStanding
      dsimp only
      split
      · exact hStep.eraseReceiving hdr.filePath
      next disk hParent =>
        have hDirs : Confined H s { s' with disk := disk } := by
          refine hStep.trans ⟨fun loc hLoc => ?_,
            Emits.of_actions_eq rfl⟩
          split at hParent
          · exact lookup_createDirectories_outside
              (hDerived hSafe).parent hStanding' hParent hLoc
          · rw [← Option.some.inj hParent]
        split
        · exact (hDirs.trans (Confined.removeQuietly
            hTemp)).eraseReceiving hdr.filePath
        next disk' hOpen =>
          have hOpened : Confined H s
              { s' with disk := disk' } :=
            hDirs.trans ⟨fun _ hLoc =>
                confined_openStream hTemp hOpen hLoc,
              Emits.of_actions_eq rfl⟩
          apply hOpened.trans
          apply confined_writeChunk hPath
          exact hTemp

end Chunks

end TransferManager

end VeritasSync
