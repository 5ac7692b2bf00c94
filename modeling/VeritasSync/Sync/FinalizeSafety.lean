import VeritasSync.Sync.TransferManager

/-
  What finishing a download does to the file at its
  destination, when the assembled content is not the
  announced one or a disk step fails for good.

  Main declarations:
    * `TransferManager.FinalizeAtomic`
    * `TransferManager.DestinationKept`
    * `TransferManager.finalizeAtomic_iff`
-/

namespace VeritasSync

namespace TransferManager

open PathUtils StateManager

------------------------------------------------------------
-- Moving The Content Into Place
------------------------------------------------------------

/- The disk on which the copy is tried. -/
def clearedDisk
    (H : Host)
    (disk : Disk)
    (final : Loc) : Disk :=
  (Filesystem.remove H disk final).getD disk

/- The destination can take a regular file. -/
def takesCopy
    (H : Host)
    (disk : Disk)
    (final : Loc) : Bool :=
  Filesystem.writable (clearedDisk H disk final) final

/-
  The file that the move puts at the destination: by the
  rename, or else by the copy.
-/
def placedFile
    (H : Host)
    (disk : Disk)
    (temp final : Loc)
    (file : File) : Option File :=
  if (Filesystem.rename H disk temp final).isSome then
    some file
  else if takesCopy H disk final &&
      !H.copyFails temp final then
    some ⟨file.content, H.now⟩
  else
    none

/- What a failed copy leaves at the destination. -/
def leftover
    (H : Host)
    (disk : Disk)
    (temp final : Loc) : Option File :=
  if takesCopy H disk final then
    (H.partialCopy temp final).map (fun c => ⟨c, H.now⟩)
  else
    none

section Move

variable
  {H : Host}
  {disk : Disk}
  {temp final : Loc}
  {file : File}

/- Clearing the destination keeps the temporary file. -/
theorem payload_clearedDisk
    (hTemp : disk.lookup temp = some (.file file))
    (hApart : temp ≠ final) :
    (clearedDisk H disk final).payload? temp =
      some file := by
  rw [FileTree.payload?_eq_some_iff]
  unfold clearedDisk
  cases hRemove : Filesystem.remove H disk final with
  | none => exact hTemp
  | some disk' =>
      have hLookup :=
        Filesystem.lookup_remove hRemove temp
      rw [if_neg hApart, hTemp] at hLookup
      exact hLookup

theorem lookup_clearedDisk :
    (clearedDisk H disk final).lookup final =
      if (Filesystem.remove H disk final).isSome then
        none
      else
        disk.lookup final := by
  unfold clearedDisk
  cases hRemove : Filesystem.remove H disk final with
  | none => rfl
  | some disk' =>
      have hLookup :=
        Filesystem.lookup_remove hRemove final
      rw [if_pos rfl] at hLookup
      exact hLookup

/- A move that worked left the placed file. -/
theorem moveIntoPlace_of_placed
    {placed : File}
    (hTemp : disk.lookup temp = some (.file file))
    (hApart : temp ≠ final)
    (hPlaced : placedFile H disk temp final file =
      some placed) :
    (moveIntoPlace H disk temp final).2 = true ∧
      (moveIntoPlace H disk temp final).1.lookup final =
        some (.file placed) := by
  unfold placedFile at hPlaced
  unfold moveIntoPlace
  cases hRename : Filesystem.rename H disk temp final with
  | some disk' =>
      rw [hRename, Option.isSome_some, if_pos rfl]
        at hPlaced
      refine ⟨rfl, ?_⟩
      have hMoved := Filesystem.lookup_rename_target hRename
      rw [hTemp, Option.some.inj hPlaced] at hMoved
      exact hMoved
  | none =>
      rw [hRename] at hPlaced
      have hPayload :=
        payload_clearedDisk (H := H) hTemp hApart
      cases hTakes : takesCopy H disk final with
      | false => simp [hTakes] at hPlaced
      | true =>
          cases hFails : H.copyFails temp final with
          | true => simp [hFails] at hPlaced
          | false =>
              simp only [Option.isSome_none,
                Bool.false_eq_true, if_false, hTakes,
                hFails, Bool.not_false, Bool.and_self,
                if_true, Option.some.injEq] at hPlaced
              unfold takesCopy clearedDisk at hTakes
              unfold clearedDisk at hPayload
              simp [Filesystem.copyFile, hPayload, hTakes,
                hFails, hPlaced]

/- A move that failed left what the copy had written. -/
theorem moveIntoPlace_of_not_placed
    (hTemp : disk.lookup temp = some (.file file))
    (hApart : temp ≠ final)
    (hPlaced : placedFile H disk temp final file = none) :
    (moveIntoPlace H disk temp final).2 = false ∧
      (moveIntoPlace H disk temp final).1.lookup final =
        match leftover H disk temp final with
        | some part => some (.file part)
        | none => (clearedDisk H disk final).lookup final := by
  unfold placedFile at hPlaced
  unfold moveIntoPlace
  cases hRename : Filesystem.rename H disk temp final with
  | some disk' => simp [hRename] at hPlaced
  | none =>
      rw [hRename] at hPlaced
      have hPayload :=
        payload_clearedDisk (H := H) hTemp hApart
      unfold leftover
      cases hTakes : takesCopy H disk final with
      | false =>
          unfold takesCopy clearedDisk at hTakes
          unfold clearedDisk at hPayload ⊢
          simp [Filesystem.copyFile, hPayload, hTakes]
      | true =>
          have hFails : H.copyFails temp final = true := by
            simpa [hTakes] using hPlaced
          unfold takesCopy clearedDisk at hTakes
          unfold clearedDisk at hPayload ⊢
          cases hPart : H.partialCopy temp final <;>
            simp [Filesystem.copyFile, hPayload, hTakes,
              hFails, hPart]

end Move

------------------------------------------------------------
-- The Property
------------------------------------------------------------

/-
  Finalizing fails: the assembled content is not the
  announced one, it can neither be renamed nor copied into
  place, or its digest cannot be read back.
-/
def FinalizeFails
    (H : Host)
    (path peerId : String)
    (entry : ReceivingFile)
    (file : File)
    (s : LocalState) : Prop :=
  H.digest.hash file.content ≠ entry.expectedHash ∨
    placedFile H s.disk (H.locate entry.tempPath)
        (H.locate path) file = none ∨
    (peerId ≠ "" ∧ H.openFails (H.locate path) = true)

/-
  A failed finalization leaves the destination as it was and
  records neither a digest nor a received mark.
-/
def FinalizeAtomic
    (H : Host)
    (path peerId : String)
    (entry : ReceivingFile)
    (file : File)
    (s : LocalState) : Prop :=
  let s' := finalizeReceivedFile H path peerId entry s
  FinalizeFails H path peerId entry file s →
    s'.disk.lookup (H.locate path) =
        s.disk.lookup (H.locate path) ∧
      s'.history = s.history ∧
      s'.receivedFiles = s.receivedFiles

/-
  When the destination survives a failure.  Content that was
  put in place is removed again if it is verified and the
  host allows it, so that nothing may have been there;
  otherwise the very same file must have been there.
  Content that was not put in place cost the old file unless
  the destination could not be cleared.
-/
def DestinationKept
    (H : Host)
    (path peerId : String)
    (entry : ReceivingFile)
    (file : File)
    (s : LocalState) : Prop :=
  let final := H.locate path
  let temp := H.locate entry.tempPath
  match placedFile H s.disk temp final file with
  | some placed =>
      if peerId ≠ "" ∧ H.removeFails final = false then
        s.disk.lookup final = none
      else
        s.disk.lookup final = some (.file placed)
  | none =>
      match leftover H s.disk temp final with
      | some part => s.disk.lookup final = some (.file part)
      | none => Filesystem.remove H s.disk final = none

------------------------------------------------------------
-- When Finalizing Is Atomic
------------------------------------------------------------

/- The removal of one file, where it is looked for. -/
theorem lookup_removeQuietly_of_file
    {H : Host}
    {s : LocalState}
    {loc : Loc}
    {file : File}
    (hFile : s.disk.lookup loc = some (.file file)) :
    (removeQuietly H loc s).disk.lookup loc =
      if H.removeFails loc = false then
        none
      else
        some (.file file) := by
  unfold removeQuietly
  dsimp only
  cases hFails : H.removeFails loc with
  | true => simp [Filesystem.remove, hFails, hFile]
  | false =>
      simp [Filesystem.remove, hFails,
        FileTree.remove_of_file hFile]

theorem lookup_removeQuietly_ne
    (H : Host)
    (s : LocalState)
    {loc key : Loc}
    (hKey : key ≠ loc) :
    (removeQuietly H loc s).disk.lookup key =
      s.disk.lookup key := by
  unfold removeQuietly
  dsimp only
  cases hRemove : Filesystem.remove H s.disk loc with
  | none => rfl
  | some disk =>
      have hLookup := Filesystem.lookup_remove hRemove key
      rw [if_neg hKey] at hLookup
      exact hLookup

section Finalize

variable
  {H : Host}
  {path peerId : String}
  {entry : ReceivingFile}
  {file : File}
  {s : LocalState}

/- The placed file has the assembled content. -/
theorem content_of_placedFile
    {disk : Disk}
    {temp final : Loc}
    {placed : File}
    (hPlaced : placedFile H disk temp final file =
      some placed) :
    placed.content = file.content := by
  unfold placedFile at hPlaced
  split at hPlaced
  · rw [Option.some.inj hPlaced]
  · split at hPlaced
    · rw [← Option.some.inj hPlaced]
    · cases hPlaced

/- A placed file that is damaged or unreadable goes. -/
theorem verifyReceivedFile_of_fails
    {placed : File}
    {expectedHash : String}
    (hExpected : expectedHash ≠ "")
    (hFile : s.disk.lookup (H.locate path) =
      some (.file placed))
    (hFails : H.digest.hash placed.content ≠ expectedHash ∨
      H.openFails (H.locate path) = true) :
    verifyReceivedFile H path peerId expectedHash s =
      removeQuietly H (H.locate path) s := by
  have hHash : calculateSHA256 H s.disk (H.locate path) ≠
      expectedHash := by
    cases hOpen : H.openFails (H.locate path) with
    | true =>
        have hEmpty : calculateSHA256 H s.disk
            (H.locate path) = "" := by
          unfold calculateSHA256
          rw [(FileTree.payload?_eq_some_iff _ _ _).mpr
            hFile]
          simp [hOpen]
        rw [hEmpty]
        exact Ne.symm hExpected
    | false =>
        rw [calculateSHA256_of_file hFile hOpen]
        rcases hFails with hDamaged | hUnreadable
        · exact hDamaged
        · rw [hOpen] at hUnreadable
          cases hUnreadable
  unfold verifyReceivedFile
  exact if_neg (fun hOr => hOr.elim hExpected hHash)

/-
  A failure after the content was put in place: nothing is
  recorded, and the content is removed if that is tried and
  allowed.
-/
theorem finalize_of_placed
    {placed : File}
    (hExpected : entry.expectedHash ≠ "")
    (hTemp : s.disk.lookup (H.locate entry.tempPath) =
      some (.file file))
    (hApart : H.locate entry.tempPath ≠ H.locate path)
    (hPlaced : placedFile H s.disk
      (H.locate entry.tempPath) (H.locate path) file =
        some placed)
    (hFails : FinalizeFails H path peerId entry file s) :
    let s' := finalizeReceivedFile H path peerId entry s
    s'.disk.lookup (H.locate path) =
        (if peerId ≠ "" ∧
            H.removeFails (H.locate path) = false then
          none
        else
          some (.file placed)) ∧
      s'.history = s.history ∧
      s'.receivedFiles = s.receivedFiles := by
  rcases moveIntoPlace_of_placed hTemp hApart hPlaced with
    ⟨hMoved, hLookup⟩
  have hContent := content_of_placedFile hPlaced
  unfold finalizeReceivedFile
  dsimp only
  rw [hMoved, if_pos rfl]
  -- the state in which the placed file is verified
  generalize hVerified : removeQuietly H
    (H.locate entry.tempPath) { s with
      disk := (moveIntoPlace H s.disk
        (H.locate entry.tempPath) (H.locate path)).1 } =
          verified
  have hFile : verified.disk.lookup (H.locate path) =
      some (.file placed) := by
    rw [← hVerified, lookup_removeQuietly_ne H _
      (Ne.symm hApart)]
    exact hLookup
  have hHistory : verified.history = s.history := by
    rw [← hVerified]
    rfl
  have hReceived :
      verified.receivedFiles = s.receivedFiles := by
    rw [← hVerified]
    rfl
  by_cases hPeer : peerId = ""
  · rw [if_pos hPeer, if_neg (fun hBoth => hBoth.1 hPeer)]
    exact ⟨hFile, hHistory, hReceived⟩
  · have hBad :
        H.digest.hash placed.content ≠ entry.expectedHash ∨
          H.openFails (H.locate path) = true := by
      rw [hContent]
      rcases hFails with hDamaged | hNone | hUnreadable
      · exact Or.inl hDamaged
      · rw [hPlaced] at hNone
        cases hNone
      · exact Or.inr hUnreadable.2
    rw [if_neg hPeer,
      verifyReceivedFile_of_fails hExpected hFile hBad]
    refine ⟨?_, hHistory, hReceived⟩
    have hRemoved := lookup_removeQuietly_of_file
      (H := H) hFile
    have hIff :
        (peerId ≠ "" ∧
            H.removeFails (H.locate path) = false) ↔
          H.removeFails (H.locate path) = false :=
      and_iff_right hPeer
    rw [if_congr hIff rfl rfl]
    exact hRemoved

/- A failure before anything was put in place. -/
theorem finalize_of_not_placed
    (peerId : String)
    (hTemp : s.disk.lookup (H.locate entry.tempPath) =
      some (.file file))
    (hApart : H.locate entry.tempPath ≠ H.locate path)
    (hPlaced : placedFile H s.disk
      (H.locate entry.tempPath) (H.locate path) file =
        none) :
    let s' := finalizeReceivedFile H path peerId entry s
    s'.disk.lookup (H.locate path) =
        (match leftover H s.disk (H.locate entry.tempPath)
            (H.locate path) with
        | some part => some (.file part)
        | none =>
            (clearedDisk H s.disk
              (H.locate path)).lookup (H.locate path)) ∧
      s'.history = s.history ∧
      s'.receivedFiles = s.receivedFiles := by
  rcases moveIntoPlace_of_not_placed hTemp hApart hPlaced
    with ⟨hMoved, hLookup⟩
  unfold finalizeReceivedFile
  dsimp only
  rw [hMoved]
  exact ⟨hLookup, rfl, rfl⟩

/-
  Finalizing is atomic exactly when a failure finds the
  destination in a state that it gives back.
-/
theorem finalizeAtomic_iff
    (hExpected : entry.expectedHash ≠ "")
    (hTemp : s.disk.lookup (H.locate entry.tempPath) =
      some (.file file))
    (hApart : H.locate entry.tempPath ≠ H.locate path) :
    FinalizeAtomic H path peerId entry file s ↔
      (FinalizeFails H path peerId entry file s →
        DestinationKept H path peerId entry file s) := by
  unfold FinalizeAtomic DestinationKept
  dsimp only
  refine imp_congr_right (fun hFails => ?_)
  cases hPlaced : placedFile H s.disk
      (H.locate entry.tempPath) (H.locate path) file with
  | some placed =>
      rcases finalize_of_placed hExpected hTemp hApart
        hPlaced hFails with ⟨hDisk, hHistory, hReceived⟩
      simp only [hDisk, hHistory, hReceived, and_true]
      split
      · exact eq_comm
      · exact eq_comm
  | none =>
      rcases finalize_of_not_placed peerId
        hTemp hApart hPlaced with
        ⟨hDisk, hHistory, hReceived⟩
      rw [hDisk, hHistory, hReceived]
      simp only [and_true]
      cases hPart : leftover H s.disk
          (H.locate entry.tempPath) (H.locate path) with
      | some part => exact eq_comm
      | none =>
          rw [lookup_clearedDisk]
          cases hRemove : Filesystem.remove H s.disk
              (H.locate path) with
          | none => simp
          | some disk =>
              have hThere := Filesystem.lookup_ne_none_of_remove
                hRemove
              simp [Ne.symm hThere]

/-
  A verified download of a path where nothing was keeps the
  destination, if the host allows its removal.
-/
theorem destinationKept_of_new
    (placed : File)
    (hPlaced : placedFile H s.disk
      (H.locate entry.tempPath) (H.locate path) file =
        some placed)
    (hPeer : peerId ≠ "")
    (hAllowed : H.removeFails (H.locate path) = false)
    (hNew : s.disk.lookup (H.locate path) = none) :
    DestinationKept H path peerId entry file s := by
  unfold DestinationKept
  dsimp only
  rw [hPlaced]
  exact (if_pos ⟨hPeer, hAllowed⟩).mpr hNew

end Finalize

/-
  Damaged content for a path where nothing was: the placed
  file is removed again.
-/
theorem finalizeAtomic_of_new_path :
    FinalizeAtomic Host.plain "a.txt" "peer"
      { announced "peer" (Digest.sampleHash [98]) 1 with
        tempPath := tempPathOf "a.txt"
        totalChunks := 1
        receivedChunks := 1
        receivedBitmap := [true] }
      ⟨[97], 0⟩
      ((LocalState.empty Host.plain .destination
        .biDirectional).userWrites Host.plain
          "a.txt.veritas_tmp" [97]) := by
  refine (finalizeAtomic_iff (by decide) (by decide)
    (by decide)).mpr ?_
  intro hFails
  apply destinationKept_of_new ⟨[97], 0⟩
  · decide
  · decide
  · decide
  · decide

/-
  Damaged content for a file that was there: the file is
  gone afterwards.
-/
theorem not_finalizeAtomic_of_damaged_update :
    ¬FinalizeAtomic Host.plain "a.txt" "peer"
      { announced "peer" (Digest.sampleHash [98]) 1 with
        tempPath := tempPathOf "a.txt"
        totalChunks := 1
        receivedChunks := 1
        receivedBitmap := [true] }
      ⟨[97], 0⟩
      (((LocalState.empty Host.plain .destination
        .biDirectional).userWrites Host.plain "a.txt"
          []).userWrites Host.plain "a.txt.veritas_tmp"
            [97]) := by
  intro hAtomic
  have hKept := (hAtomic (Or.inl (by decide))).1
  exact absurd hKept (by decide)

end TransferManager

end VeritasSync
