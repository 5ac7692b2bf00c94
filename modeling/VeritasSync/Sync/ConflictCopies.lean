import VeritasSync.Library.Transition
import VeritasSync.Sync.CrashConsistency
import VeritasSync.Sync.DownloadFrame
import VeritasSync.Sync.UpdateDecision

/-
  The copies that conflicts leave beside a file, over a run
  in which announced files are decided on, downloads come
  in, and local programs work on the same directory.

  Main declarations:
    * `ConflictCopies.Keeping`, `ConflictCopies.Event`
    * `ConflictCopies.Spares`
    * `ConflictCopies.Inv`
    * `ConflictCopies.conflict_copies_kept`
-/

namespace VeritasSync

namespace ConflictCopies

open LocalState PathUtils StateManager SyncHandler
open TransferManager Transition
open DownloadCrash (changed_of_erased
  checkResumeEligibility_drops WellFormed.temp_of_marked
  marked_nonempty_of_hasProgress)

------------------------------------------------------------
-- Runs
------------------------------------------------------------

/- A node, and the files that were moved aside so far. -/
structure Keeping where
  node : LocalState
  copies : List (Loc × File)

def start (node : LocalState) : Keeping := ⟨node, []⟩

/-
  What happens on the machine.  Each call reads the clock
  and meets refusals of its own.
-/
inductive Event where
| entry (refusals : Refusals) (peerId : String)
    (info : FileInfo)
| request (refusals : Refusals) (peerId : String)
    (info : FileInfo)
| chunk (refusals : Refusals) (hdr : ChunkHeader)
    (peerId : String)
| edit (disk : Disk)
| track (fileMap : AList (fun _ : String => FileInfo))
    (history : String → String → Option SyncHistory)

/- The files at or below a place, where a move puts them. -/
def filesMoved
    (disk : Disk)
    (source target : Loc) : List (Loc × File) :=
  disk.entries.filterMap (fun entry =>
    match entry.2 with
    | .file file =>
        if source <+: entry.1 then
          some (FileTree.rebase source target entry.1, file)
        else
          none
    | .dir => none)

/- The files that the step reports as renamed. -/
def movedAside
    (H : Host)
    (before after : LocalState) : List (Loc × File) :=
  (newActions before after).flatMap (fun action =>
    match action with
    | .renamed path copy =>
        filesMoved before.disk (H.locate path)
          (H.locate copy)
    | _ => [])

def step
    (H : Host)
    (chunkDataSize : ℕ)
    (p : Keeping) : Event → Option Keeping
| .entry refusals peerId info =>
    let H := H.during refusals
    let after := (processSingleFile H peerId info p.node).2
    some ⟨after, p.copies ++
      movedAside H (checkedState H info p.node) after⟩
| .request refusals peerId info =>
    some { p with
      node :=
        requestFile (H.during refusals) peerId p.node info }
| .chunk refusals hdr peerId =>
    some { p with
      node := handleChunk (H.during refusals) chunkDataSize
        hdr peerId p.node }
| .edit disk =>
    some { p with node := { p.node with disk := disk } }
| .track fileMap history =>
    some { p with node := { p.node with
      fileMap := fileMap, history := history } }

------------------------------------------------------------
-- What the Steps Must Spare
------------------------------------------------------------

/- The path has nothing to do with a copy. -/
def Avoids
    (H : Host)
    (path : String)
    (p : Keeping) : Prop :=
  ∀ copy ∈ p.copies, Clear H path copy.1

/- The name that a conflict would use is not taken. -/
def NameFree
    (H : Host)
    (path : String)
    (disk : Disk) : Prop :=
  ∀ loc, H.locate (conflictPath H path) <+: loc →
    disk.lookup loc = none

/- The local file is going to be moved aside. -/
def InConflict
    (H : Host)
    (peerId : String)
    (info : FileInfo)
    (s : LocalState) : Prop :=
  resumable H info.path info.hash info.size s = false ∧
    setsAside H peerId (checkedState H info s) info = true

/-
  No step is about a copy itself, and a file is only moved
  aside to a name that is not taken.
-/
def Spares
    (H : Host)
    (p : Keeping) : Event → Prop
| .entry refusals peerId info =>
    Avoids H info.path p ∧
      (InConflict (H.during refusals) peerId info p.node →
        NameFree (H.during refusals) info.path p.node.disk)
| .request _ _ info => Avoids H info.path p
| .chunk _ hdr _ => Avoids H hdr.filePath p
| .edit disk =>
    ∀ copy ∈ p.copies,
      disk.lookup copy.1 = some (.file copy.2)
| .track _ _ => True

/- Every copy is on the disk under its own name. -/
def Kept (p : Keeping) : Prop :=
  ∀ copy ∈ p.copies,
    p.node.disk.lookup copy.1 = some (.file copy.2)

/- Each unfinished download has a temporary file of its own. -/
def OwnTemps (s : LocalState) : Prop :=
  ∀ path recv, s.receiving.lookup path = some recv →
    WellFormed path recv

structure Inv (p : Keeping) : Prop where
  temps : OwnTemps p.node
  kept : Kept p

------------------------------------------------------------
-- The Check for a Download to Resume
------------------------------------------------------------

section Check

variable
  {H : Host}
  {path hash : String}
  {size : ℕ}
  {s : LocalState}

theorem OwnTemps.erase
    (hTemps : OwnTemps s) :
    OwnTemps (eraseReceiving path s) := by
  intro other recv hRecv
  exact (changed_of_erased hRecv).wellFormed
    (hTemps other)

theorem OwnTemps.check
    (hTemps : OwnTemps s) :
    OwnTemps (checkResumeEligibility H path hash size
      s).2 := by
  rcases checkResumeEligibility_drops H path hash size s
    with hSame | ⟨recv, -, -, hDrop | hDrop⟩
  · rw [hSame]
    exact hTemps
  · rw [hDrop]
    exact hTemps.erase
  · rw [hDrop]
    exact OwnTemps.erase (s := removeQuietly H _ s) hTemps

/- Only the temporary file of the path may go. -/
theorem lookup_check_of_ne
    (hTemps : OwnTemps s)
    {key : Loc}
    (hKey : key ≠ H.locate (tempPathOf path)) :
    (checkResumeEligibility H path hash size
        s).2.disk.lookup key =
      s.disk.lookup key := by
  rcases checkResumeEligibility_drops H path hash size s
    with hSame | ⟨recv, hRecv, hProgress, hDrop | hDrop⟩
  · rw [hSame]
  · rw [hDrop]
    rfl
  · have hWell := hTemps path recv hRecv
    have hTemp := WellFormed.temp_of_marked hWell
      (marked_nonempty_of_hasProgress hWell.counted
        hProgress)
    rw [hDrop, hTemp]
    exact lookup_removeFrom_of_ne hKey

theorem OwnTemps.register
    (hTemps : OwnTemps s)
    (peerId : String) :
    OwnTemps (registerExpectedMetadata path peerId hash size
      s) := by
  intro other recv hRecv
  exact (changed_registerExpectedMetadata hRecv).wellFormed
    (hTemps other)

end Check

------------------------------------------------------------
-- Chunks
------------------------------------------------------------

section Chunk

variable
  {H : Host}
  {chunkDataSize : ℕ}
  {hdr : ChunkHeader}
  {entry recv : ReceivingFile}
  {disk : Disk}
  {s : LocalState}

/- What a stored chunk leaves in the map is in order. -/
theorem wellFormed_of_settle
    (hWell : WellFormed hdr.filePath entry)
    (hInside : hdr.chunkIndex < entry.totalChunks)
    (peerId : String)
    (hRecv : (settle H hdr.filePath peerId
      (storeChunk H chunkDataSize hdr entry disk)
        s).receiving.lookup hdr.filePath = some recv) :
    WellFormed hdr.filePath recv := by
  rcases storeChunk_cases H chunkDataSize disk
    hWell.counted hInside with
    ⟨-, hStore⟩ | ⟨-, -, hStore⟩ | ⟨-, -, -, hStore⟩ |
    ⟨hFresh, -, -, hStore⟩
  · rw [hStore] at hRecv
    change (AList.insert _ _ _).lookup _ = _ at hRecv
    rw [AList.lookup_insert] at hRecv
    cases hRecv
    exact ⟨⟨hWell.counted.size, hWell.counted.count⟩,
      hWell.temp⟩
  · rw [hStore] at hRecv
    change (AList.erase _ _).lookup _ = _ at hRecv
    rw [AList.lookup_erase] at hRecv
    cases hRecv
  · rw [hStore] at hRecv
    dsimp only [settle] at hRecv
    rw [receiving_finalizeReceivedFile,
      AList.lookup_erase] at hRecv
    cases hRecv
  · rw [hStore] at hRecv
    change (AList.insert _ _ _).lookup _ = _ at hRecv
    rw [AList.lookup_insert] at hRecv
    cases hRecv
    have hMarked := hWell.counted.markChunk hInside hFresh
    exact ⟨⟨hMarked.size, hMarked.count⟩, hWell.temp⟩

theorem OwnTemps.chunk
    (hTemps : OwnTemps s)
    (peerId : String) :
    OwnTemps (handleChunk H chunkDataSize hdr peerId s) := by
  intro other recv hRecv
  by_cases hOther : other = hdr.filePath
  case neg =>
    rw [receiving_handleChunk_of_ne hOther] at hRecv
    exact hTemps other recv hRecv
  subst hOther
  have hWell := hTemps hdr.filePath
  rw [handleChunk_eq] at hRecv
  by_cases hValid : validateChunkHeader hdr = true
  case neg =>
    rw [if_pos (by simpa using hValid)] at hRecv
    exact hWell recv hRecv
  rw [hValid, Bool.not_true, if_neg Bool.false_ne_true]
    at hRecv
  have hBounds : 0 < hdr.totalChunks ∧
      hdr.chunkIndex < hdr.totalChunks := by
    simp only [validateChunkHeader, Bool.and_eq_true,
      bne_iff_ne, decide_eq_true_eq] at hValid
    omega
  cases hLookup : lookupOrCreateReceiving H hdr.filePath
      hdr.totalChunks peerId s with
  | mk found s' =>
      rw [hLookup] at hRecv
      cases found with
      | none =>
          rw [lookupOrCreateReceiving_eq_none hLookup]
            at hRecv
          exact hWell recv hRecv
      | some found =>
          have hHanded := handed_of_lookup hWell hBounds.1
            hLookup
          dsimp only at hRecv
          rw [writePhase_eq] at hRecv
          split at hRecv
          next disk hPrepare =>
            have hOpened : WellFormed hdr.filePath
                { found.entry with streamOpen := true } :=
              ⟨⟨hHanded.well.counted.size,
                hHanded.well.counted.count⟩,
                hHanded.well.temp⟩
            refine wellFormed_of_settle hOpened ?_ peerId hRecv
            change hdr.chunkIndex < found.entry.totalChunks
            rw [hHanded.count]
            exact hBounds.2
          next =>
            change (AList.erase _ _).lookup _ = _ at hRecv
            rw [AList.lookup_erase] at hRecv
            cases hRecv

end Chunk

------------------------------------------------------------
-- Announced Files
------------------------------------------------------------

section Entry

variable
  {H : Host}
  {peerId : String}
  {info : FileInfo}
  {s : LocalState}

/-
  Deciding on a file leaves the disk as the check left it,
  unless the local file is moved aside.
-/
theorem processSingleFile_moves
    (H : Host)
    (peerId : String)
    (info : FileInfo)
    (s : LocalState) :
    let before := checkedState H info s
    let after := (processSingleFile H peerId info s).2
    after.receiving = before.receiving ∧
      ((after.disk = before.disk ∧
          after.actions = before.actions) ∨
        (InConflict H peerId info s ∧
          Filesystem.rename H before.disk
              (H.locate info.path)
              (H.locate (conflictPath H info.path)) =
            some after.disk ∧
          after.actions = before.actions ++
            [.renamed info.path
              (conflictPath H info.path)])) := by
  have hSome := checkResumeEligibility_isSome H info.path
    info.hash info.size s
  unfold processSingleFile InConflict checkedState
  dsimp only
  cases hCheck : (checkResumeEligibility H info.path
      info.hash info.size s).1 with
  | some resume => exact ⟨rfl, Or.inl ⟨rfl, rfl⟩⟩
  | none =>
      rw [hCheck] at hSome
      generalize (checkResumeEligibility H info.path
        info.hash info.size s).2 = s' at hSome ⊢
      dsimp only
      cases hEcho : shouldIgnoreEcho s' peerId info.path
          info.hash with
      | true => exact ⟨rfl, Or.inl ⟨rfl, rfl⟩⟩
      | false =>
          simp only [Bool.false_eq_true, if_false]
          rcases resolveConflict_cases H peerId info s' with
            ⟨-, hDecided⟩ | ⟨-, -, hDecided⟩ |
            ⟨-, -, -, hDecided⟩ | ⟨-, -, -, -, -, hDecided⟩ |
            ⟨hThere, hUnequal, hBase, hLocal, -, hDecided⟩
          · rw [hDecided]
            exact ⟨rfl, Or.inl ⟨rfl, rfl⟩⟩
          · rw [hDecided]
            exact ⟨rfl, Or.inl ⟨rfl, rfl⟩⟩
          · rw [hDecided]
            exact ⟨rfl, Or.inl ⟨rfl, rfl⟩⟩
          · rw [hDecided]
            exact ⟨rfl, Or.inl ⟨rfl, rfl⟩⟩
          · cases hRename : Filesystem.rename H s'.disk
                (H.locate info.path)
                (H.locate (conflictPath H info.path)) with
            | none =>
                rw [hDecided,
                  renameConflict_of_none hRename]
                exact ⟨rfl, Or.inl ⟨rfl, rfl⟩⟩
            | some disk =>
                rw [hDecided,
                  renameConflict_of_some hRename]
                refine ⟨rfl, Or.inr ⟨⟨hSome.symm, ?_⟩,
                  rfl, rfl⟩⟩
                simp [setsAside, hEcho, hThere, hUnequal,
                  hBase, hLocal, renameWorks, hRename]

/- A request checks once more and announces the file. -/
theorem OwnTemps.request
    (hTemps : OwnTemps s)
    (peerId : String) :
    OwnTemps (requestFile H peerId s info) := by
  unfold requestFile buildFileRequest
  dsimp only
  split
  · exact OwnTemps.check hTemps
  · exact OwnTemps.register (OwnTemps.check hTemps) peerId

theorem lookup_requestFile_of_ne
    (hTemps : OwnTemps s)
    {key : Loc}
    (hKey : key ≠ H.locate (tempPathOf info.path)) :
    (requestFile H peerId s info).disk.lookup key =
      s.disk.lookup key := by
  unfold requestFile buildFileRequest
  dsimp only
  split
  · exact lookup_check_of_ne hTemps hKey
  · change (registerExpectedMetadata _ _ _ _
      _).disk.lookup key = _
    rw [registerExpectedMetadata_disk]
    exact lookup_check_of_ne hTemps hKey

/- Each file that was moved is where its copy says. -/
theorem mem_filesMoved_iff
    {disk : Disk}
    {source target : Loc}
    {copy : Loc × File} :
    copy ∈ filesMoved disk source target ↔
      ∃ loc, source <+: loc ∧
        disk.lookup loc = some (.file copy.2) ∧
        FileTree.rebase source target loc = copy.1 := by
  unfold filesMoved
  rw [List.mem_filterMap]
  constructor
  · rintro ⟨⟨loc, node⟩, hEntry, hCopy⟩
    have hNode : disk.lookup loc = some node :=
      AList.mem_lookup_iff.mpr hEntry
    cases node with
    | dir => cases hCopy
    | file file =>
        dsimp only at hCopy
        split at hCopy
        next hBelow =>
          cases hCopy
          exact ⟨loc, hBelow, hNode, rfl⟩
        next => cases hCopy
  · rintro ⟨loc, hBelow, hNode, hTo⟩
    refine ⟨⟨loc, .file copy.2⟩,
      AList.mem_lookup_iff.mp hNode, ?_⟩
    dsimp only
    rw [if_pos hBelow, hTo]

/- What a move takes along is at its new place afterwards. -/
theorem lookup_filesMoved
    {disk after : Disk}
    {source target : Loc}
    (hRename : Filesystem.rename H disk source target =
      some after)
    {copy : Loc × File}
    (hCopy : copy ∈ filesMoved disk source target) :
    after.lookup copy.1 = some (.file copy.2) := by
  rcases mem_filesMoved_iff.mp hCopy with
    ⟨loc, ⟨rest, rfl⟩, hFile, hTo⟩
  rw [FileTree.rebase_append] at hTo
  rw [Filesystem.lookup_rename hRename, ← hTo,
    if_pos (List.prefix_append _ _),
    FileTree.rebase_append, hFile]

theorem movedAside_of_same
    {before after : LocalState}
    (hActions : after.actions = before.actions) :
    movedAside H before after = [] := by
  simp [movedAside, newActions, hActions]

theorem movedAside_of_renamed
    {before after : LocalState}
    {path copy : String}
    (hActions : after.actions =
      before.actions ++ [.renamed path copy]) :
    movedAside H before after =
      filesMoved before.disk (H.locate path)
        (H.locate copy) := by
  simp [movedAside, newActions, hActions]

end Entry

------------------------------------------------------------
-- What a Step Keeps
------------------------------------------------------------

/-
  Every file is where it was or among the copies, apart from
  what a download of the path had left.
-/
def NothingReplaced
    (H : Host)
    (path : String)
    (p p' : Keeping) : Prop :=
  ∀ loc file, loc ≠ H.locate (tempPathOf path) →
    p.node.disk.lookup loc = some (.file file) →
      p'.node.disk.lookup loc = some (.file file) ∨
        ∃ copy ∈ p'.copies, copy.2 = file ∧
          p'.node.disk.lookup copy.1 = some (.file file)

section Steps

variable
  {H : Host}
  {chunkDataSize : ℕ}
  {p p' : Keeping}

/- Files keep their places while no file is moved. -/
theorem inv_of_same
    (hKept : Kept p)
    (hTemps : OwnTemps p'.node)
    (hCopies : p'.copies = p.copies)
    (hSame : ∀ copy ∈ p.copies,
      p'.node.disk.lookup copy.1 =
        p.node.disk.lookup copy.1) :
    Inv p' := by
  refine ⟨hTemps, fun copy hCopy => ?_⟩
  rw [hCopies] at hCopy
  rw [hSame copy hCopy]
  exact hKept copy hCopy

/- What an announced file does, copies and all. -/
theorem inv_entry
    {refusals : Refusals}
    {peerId : String}
    {info : FileInfo}
    (hInv : Inv p)
    (hSpares : Spares H p (.entry refusals peerId info))
    (hStep : step H chunkDataSize p
      (.entry refusals peerId info) = some p') :
    Inv p' ∧ NothingReplaced H info.path p p' := by
  obtain ⟨H', hH'⟩ : ∃ H', H' = H.during refusals := ⟨_, rfl⟩
  cases hStep
  rcases hSpares with ⟨hAvoids, hFree⟩
  rw [← hH'] at hFree ⊢
  have hLocate : ∀ path, H.locate path = H'.locate path := by
    rw [hH']
    exact fun _ => rfl
  have hChecked : ∀ {key},
      key ≠ H.locate (tempPathOf info.path) →
        (checkedState H' info p.node).disk.lookup key =
          p.node.disk.lookup key := by
    intro key hKey
    rw [hLocate] at hKey
    exact lookup_check_of_ne hInv.temps hKey
  rcases processSingleFile_moves H' peerId info p.node with
    ⟨hReceiving, hMoves⟩
  have hTemps : OwnTemps
      (processSingleFile H' peerId info p.node).2 := by
    intro path recv hRecv
    rw [hReceiving] at hRecv
    exact OwnTemps.check hInv.temps path recv hRecv
  rcases hMoves with ⟨hDisk, hActions⟩ |
    ⟨hConflict, hRename, hActions⟩
  · rw [movedAside_of_same hActions, List.append_nil]
    constructor
    · refine inv_of_same hInv.kept hTemps rfl ?_
      intro copy hCopy
      rw [hDisk]
      exact hChecked (hAvoids copy hCopy).ne_temp
    · intro loc file hTemp hFile
      left
      rw [hDisk, hChecked hTemp]
      exact hFile
  · rw [movedAside_of_renamed hActions]
    have hNone := hFree hConflict
    -- a file that is neither moved nor replaced
    have hOther : ∀ {loc file},
        loc ≠ H.locate (tempPathOf info.path) →
        p.node.disk.lookup loc = some (.file file) →
        ¬ H'.locate info.path <+: loc →
          (processSingleFile H' peerId info
            p.node).2.disk.lookup loc =
              some (.file file) := by
      intro loc file hTemp hFile hApart
      rw [Filesystem.lookup_rename hRename, if_neg,
        if_neg hApart, hChecked hTemp, hFile]
      intro hBelow
      rw [hNone loc hBelow] at hFile
      cases hFile
    refine ⟨⟨hTemps, ?_⟩, ?_⟩
    · intro copy hCopy
      rcases List.mem_append.mp hCopy with hOld | hNew
      · have hClear := hAvoids copy hOld
        refine hOther hClear.ne_temp (hInv.kept copy hOld) ?_
        rw [← hLocate]
        exact hClear.final
      · exact lookup_filesMoved hRename hNew
    · intro loc file hTemp hFile
      by_cases hApart : H'.locate info.path <+: loc
      · right
        have hCopy : (FileTree.rebase (H'.locate info.path)
            (H'.locate (conflictPath H' info.path)) loc,
              file) ∈ filesMoved
                (checkedState H' info p.node).disk
                (H'.locate info.path)
                (H'.locate (conflictPath H' info.path)) :=
          mem_filesMoved_iff.mpr ⟨loc, hApart,
            (hChecked hTemp).trans hFile, rfl⟩
        exact ⟨_, List.mem_append_right _ hCopy, rfl,
          lookup_filesMoved hRename hCopy⟩
      · exact Or.inl (hOther hTemp hFile hApart)

theorem inv_step
    {e : Event}
    (hInv : Inv p)
    (hSpares : Spares H p e)
    (hStep : step H chunkDataSize p e = some p') :
    Inv p' := by
  cases e with
  | entry refusals peerId info =>
      exact (inv_entry hInv hSpares hStep).1
  | request refusals peerId info =>
      cases hStep
      refine inv_of_same hInv.kept
        (hInv.temps.request peerId) rfl ?_
      intro copy hCopy
      exact lookup_requestFile_of_ne
        (H := H.during refusals) hInv.temps
        (hSpares copy hCopy).ne_temp
  | chunk refusals hdr peerId =>
      cases hStep
      refine inv_of_same hInv.kept
        (hInv.temps.chunk peerId) rfl ?_
      intro copy hCopy
      have hClear := hSpares copy hCopy
      exact lookup_handleChunk_of_clear
        (H := H.during refusals)
        ⟨hClear.final, hClear.temp, hClear.parent⟩
        (hInv.temps hdr.filePath) chunkDataSize peerId
  | edit disk =>
      cases hStep
      exact ⟨hInv.temps, hSpares⟩
  | track fileMap history =>
      cases hStep
      exact ⟨hInv.temps, hInv.kept⟩

end Steps

/-
  While every conflict finds its name free and no step is
  about a copy itself, all copies stay, and no conflict
  replaces a file.
-/
theorem conflict_copies_kept
    {H : Host}
    {chunkDataSize : ℕ}
    {node : LocalState}
    {events : List Event}
    {p : Keeping}
    (hTemps : OwnTemps node)
    (hMeets : Meets (step H chunkDataSize) (Spares H)
      (start node) events)
    (hRun : run (step H chunkDataSize) (start node) events =
      some p) :
    Kept p ∧
      ∀ refusals peerId info p',
        Spares H p (.entry refusals peerId info) →
        step H chunkDataSize p
            (.entry refusals peerId info) = some p' →
        NothingReplaced H info.path p p' := by
  have hStart : Inv (start node) :=
    ⟨hTemps, fun copy hCopy => by cases hCopy⟩
  have hInv : Inv p := invariant_of_run
    (fun _ _ _ hInv hSpares hStep =>
      inv_step hInv hSpares hStep) hStart hMeets hRun
  exact ⟨hInv.kept, fun _ _ _ _ hSpares hStep =>
    (inv_entry hInv hSpares hStep).2⟩

------------------------------------------------------------
-- Two Conflicts of One File
------------------------------------------------------------

/- The file was changed here since the last agreement. -/
def edited : LocalState :=
  recordSyncSuccess .plain "peer" "a.txt"
    (Digest.sampleHash [])
    ((LocalState.empty .plain .destination
      .biDirectional).userWrites .plain "a.txt" [97])

/- The peer announces another version at this time. -/
def conflictAt (now : ℕ) : Event :=
  .entry { Refusals.none with now := now } "peer"
    ⟨"a.txt", Digest.sampleHash [98], 0, 1⟩

/- The file is written again, beside the copy. -/
def writtenAgain : Disk :=
  [⟨["r"], .dir⟩,
    ⟨["r", "a.conflict.0.txt"], .file ⟨[97], 0⟩⟩,
    ⟨["r", "a.txt"], .file ⟨[99], 0⟩⟩].toAList

/- A name under which no node of the disk lies is free. -/
theorem nameFree_of_keys
    {H : Host}
    {path : String}
    {disk : Disk}
    (hKeys : ∀ key ∈ disk.keys,
      ¬ H.locate (conflictPath H path) <+: key) :
    NameFree H path disk := by
  intro loc hBelow
  by_contra hNode
  rw [← Ne, ← Option.isSome_iff_ne_none] at hNode
  exact hKeys loc (AList.lookup_isSome.mp hNode) hBelow

theorem conflict_copies_kept_in_two_seconds :
    ∃ p, run (step .plain 2) (start edited)
        [conflictAt 0, .edit writtenAgain, conflictAt 1] =
          some p ∧
      p.copies = [(["r", "a.conflict.0.txt"], ⟨[97], 0⟩),
        (["r", "a.conflict.1.txt"], ⟨[99], 0⟩)] ∧
      Kept p := by
  refine ⟨_, rfl, by decide +kernel, ?_⟩
  refine (@conflict_copies_kept .plain 2 edited
    [conflictAt 0, .edit writtenAgain, conflictAt 1] _ ?_ ?_
      rfl).1
  · intro path recv hRecv
    cases hRecv
  · refine Meets.cons ⟨?_, fun _ => nameFree_of_keys ?_⟩ rfl
      (Meets.cons ?_ rfl
        (Meets.cons ⟨?_, fun _ => nameFree_of_keys ?_⟩ rfl
          trivial))
    · intro copy hCopy
      cases hCopy
    · decide +kernel
    · change ∀ copy ∈ (_ : List (Loc × File)),
        writtenAgain.lookup copy.1 = some (.file copy.2)
      decide +kernel
    · change ∀ copy ∈ (_ : List (Loc × File)),
        Clear .plain "a.txt" copy.1
      decide +kernel
    · decide +kernel

/- Within one second the second copy takes the first one. -/
theorem conflict_copy_lost :
    ∃ p, run (step .plain 2) (start edited)
        [conflictAt 0, .edit writtenAgain, conflictAt 0] =
          some p ∧
      p.copies = [(["r", "a.conflict.0.txt"], ⟨[97], 0⟩),
        (["r", "a.conflict.0.txt"], ⟨[99], 0⟩)] ∧
      ¬ Kept p := by
  refine ⟨_, rfl, by decide +kernel, ?_⟩
  intro hKept
  have hFirst := hKept (["r", "a.conflict.0.txt"],
    ⟨[97], 0⟩) (by decide +kernel)
  revert hFirst
  decide +kernel

end ConflictCopies

end VeritasSync
