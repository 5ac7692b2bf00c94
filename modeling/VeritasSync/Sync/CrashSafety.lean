import VeritasSync.Sync.CrashConsistency

/-
  When a download that goes on after a crash has every byte
  that its bits promise: the step of a chunk, and the runs.

  Main declarations:
    * `DownloadCrash.Careful`
    * `DownloadCrash.consistent_chunk`
    * `DownloadCrash.resumesOnDisk_of_run`
-/

namespace VeritasSync

namespace DownloadCrash

open TransferManager

------------------------------------------------------------
-- The Condition
------------------------------------------------------------

/-
  The chunk goes on with the file that the row of its path
  has bits for.
-/
structure Continues
    (H : Host)
    (hdr : ChunkHeader)
    (sys : System)
    (task : DownloadTaskRecord) : Prop where
  temp : Filesystem.exists? sys.downloads.node.disk
    (H.locate (tempPathOf hdr.filePath)) = true
  total : ∀ recv,
    sys.downloads.node.receiving.lookup hdr.filePath =
      some recv →
    recv.totalChunks = 0 ∨
      recv.totalChunks = hdr.totalChunks
  bytes : hdr.chunkIndex ∈ savedBits task →
    (∀ recv,
      sys.downloads.node.receiving.lookup hdr.filePath =
        some recv →
      hdr.chunkIndex ∉ Bitmap.marked recv.receivedBitmap) →
    hdr.uncompressedData = sys.saved hdr.filePath
      hdr.chunkIndex

/-
  A chunk fits its place, keeps clear of other downloads and
  continues what the row of its path has.  The state is only
  persisted when no write is in a buffer.
-/
def Careful
    (H : Host)
    (chunkDataSize : ℕ)
    (sys : System) : Event → Prop
| .chunk _ hdr _ =>
    hdr.uncompressedData.length ≤ chunkDataSize ∧
      (∀ path, path ≠ hdr.filePath →
        InUse sys.downloads path →
        Clear H hdr.filePath
          (H.locate (tempPathOf path))) ∧
      ∀ task,
        sys.downloads.tasks.lookup hdr.filePath =
          some task →
        (savedBits task).Nonempty →
        Continues H hdr sys task
| .cleanup _ expired =>
    ∀ path,
      sys.unflushed path ≠ none →
      expired path = true ∧
        ∀ recv,
          sys.downloads.node.receiving.lookup path =
            some recv →
          recv.busy = false
| _ => True

------------------------------------------------------------
-- What A Chunk Does
------------------------------------------------------------

section Handling

variable
  {H : Host}
  {hdr : ChunkHeader}
  {peerId : String}
  {s s' : LocalState}
  {found : ChunkLookupResult}
  {disk : Disk}

/- A chunk that finds no entry does nothing. -/
theorem handled_of_no_entry
    (chunkDataSize : ℕ)
    (hNone : validateChunkHeader hdr = false ∨
      (lookupOrCreateReceiving H hdr.filePath
        hdr.totalChunks peerId s).1 = none) :
    handleChunk H chunkDataSize hdr peerId s = s ∧
      finalizeCall H chunkDataSize hdr peerId s = none ∧
      openedEntry H hdr peerId s = none := by
  rw [handleChunk_eq, finalizeCall, openedEntry]
  cases hValid : validateChunkHeader hdr with
  | false => exact ⟨rfl, rfl, rfl⟩
  | true =>
      rw [Bool.not_true, if_neg Bool.false_ne_true,
        if_neg Bool.false_ne_true, if_neg Bool.false_ne_true]
      cases hLookup : lookupOrCreateReceiving H hdr.filePath
          hdr.totalChunks peerId s with
      | mk found s' =>
          rw [hLookup, hValid] at hNone
          rcases hNone with hFalse | hNone
          · cases hFalse
          · dsimp only at hNone
            rw [hNone] at hLookup ⊢
            exact ⟨lookupOrCreateReceiving_eq_none hLookup,
              rfl, rfl⟩

/- Without a stream the entry is given up. -/
theorem handled_of_unopened
    (chunkDataSize : ℕ)
    (hValid : validateChunkHeader hdr = true)
    (hLookup : lookupOrCreateReceiving H hdr.filePath
      hdr.totalChunks peerId s = (some found, s'))
    (hPrepare : prepareStream H hdr.filePath found
      s'.disk = (disk, false)) :
    handleChunk H chunkDataSize hdr peerId s =
        eraseReceiving hdr.filePath
          { s' with disk := disk } ∧
      finalizeCall H chunkDataSize hdr peerId s = none ∧
      openedEntry H hdr peerId s = none := by
  rw [handleChunk_eq, finalizeCall, openedEntry, hValid,
    hLookup]
  dsimp only
  rw [writePhase_eq, hPrepare]
  exact ⟨rfl, rfl, rfl⟩

/- What is handed to finalize, if the chunk is the last. -/
def completed :
    ChunkOutcome → Option (ReceivingFile × Disk)
| .complete entry disk => some (entry, disk)
| _ => none

/- With a stream the chunk is stored. -/
theorem handled_of_opened
    {chunkDataSize : ℕ}
    (hValid : validateChunkHeader hdr = true)
    (hLookup : lookupOrCreateReceiving H hdr.filePath
      hdr.totalChunks peerId s = (some found, s'))
    (hPrepare : prepareStream H hdr.filePath found
      s'.disk = (disk, true))
    {outcome : ChunkOutcome}
    (hStore : storeChunk H chunkDataSize hdr
      { found.entry with streamOpen := true } disk =
        outcome) :
    handleChunk H chunkDataSize hdr peerId s =
        settle H hdr.filePath peerId outcome s' ∧
      finalizeCall H chunkDataSize hdr peerId s =
        completed outcome ∧
      openedEntry H hdr peerId s =
        some ({ found.entry with streamOpen := true },
          disk) := by
  rw [handleChunk_eq, finalizeCall, openedEntry, hValid,
    hLookup]
  dsimp only
  rw [writePhase_eq, hPrepare]
  dsimp only
  rw [hStore]
  refine ⟨rfl, ?_, rfl⟩
  cases outcome with
  | failed entry disk => rfl
  | kept entry disk => rfl
  | complete entry disk => rfl

/-
  A lookup leaves the disk alone, unless it starts the entry
  over for another total.
-/
theorem disk_lookupOrCreate
    (hLookup : lookupOrCreateReceiving H hdr.filePath
      hdr.totalChunks peerId s = (some found, s'))
    (hTotal : ∀ recv,
      s.receiving.lookup hdr.filePath = some recv →
      recv.totalChunks = 0 ∨
        recv.totalChunks = hdr.totalChunks) :
    s'.disk = s.disk := by
  unfold lookupOrCreateReceiving at hLookup
  split at hLookup
  · cases hLookup
  · cases hEntry : s.receiving.lookup hdr.filePath with
    | none =>
        rw [hEntry] at hLookup
        cases hLookup
        rfl
    | some recv =>
        rw [hEntry] at hLookup
        cases hLookup
        unfold adoptTotal
        split
        · rfl
        next hSome =>
          have hSame := (hTotal recv hEntry).resolve_left
            hSome
          dsimp only [setReceiving]
          rw [if_neg (not_not.mpr hSame)]

/- Without a stream the temporary file stays, or it goes. -/
theorem lookup_prepareStream_unopened
    (hPrepare : prepareStream H hdr.filePath found
      s.disk = (disk, false))
    (hExists : Filesystem.exists? s.disk
      (H.locate found.entry.tempPath) = true) :
    disk.lookup (H.locate found.entry.tempPath) =
        s.disk.lookup (H.locate found.entry.tempPath) ∨
      disk.lookup (H.locate found.entry.tempPath) =
        none := by
  unfold prepareStream at hPrepare
  dsimp only at hPrepare
  cases hMade : (if found.needCreateDirs = true then
      Filesystem.createDirectories H s.disk
        (H.locate (Filesystem.parentText hdr.filePath))
    else
      some s.disk) with
  | none =>
      rw [hMade] at hPrepare
      cases hPrepare
      exact Or.inl rfl
  | some made =>
      have hSame : made.lookup
            (H.locate found.entry.tempPath) =
          s.disk.lookup
            (H.locate found.entry.tempPath) := by
        split at hMade
        · rw [Filesystem.lookup_createDirectories hMade,
            if_neg]
          rintro ⟨-, hMissing⟩
          rw [Filesystem.exists?, hMissing] at hExists
          cases hExists
        · cases hMade
          rfl
      rw [hMade] at hPrepare
      dsimp only at hPrepare
      cases hOpen : openStream H made found with
      | none =>
          rw [hOpen] at hPrepare
          cases hPrepare
          rw [← hSame]
          exact lookup_removeFrom_cases H made _
      | some opened =>
          rw [hOpen] at hPrepare
          cases hPrepare

end Handling

------------------------------------------------------------
-- Rows Of The Chunk's Path
------------------------------------------------------------

section Rows

variable
  {H : Host}
  {path : String}
  {chunkDataSize : ℕ}
  {saved : ℕ → Content}
  {bits : Set ℕ}
  {unflushed : Option Unflushed}
  {disk disk' : Disk}

/- Keeping the files keeps the row's bytes. -/
theorem RowBacked.keep
    (hRow : RowBacked H path chunkDataSize saved bits
      unflushed disk)
    (hExists : bits.Nonempty →
      Filesystem.exists? disk
        (H.locate (tempPathOf path)) = true)
    (hKeeps : bits.Nonempty → KeepsFiles disk disk') :
    RowBacked H path chunkDataSize saved bits unflushed
      disk' where
  short := hRow.short
  bytes hSome _ := by
    rcases hRow.bytes hSome (hExists hSome) with
      ⟨file, hFile, hHolds⟩
    exact ⟨file, hKeeps hSome _ _ hFile, hHolds⟩

/- A chunk is written that the row may have a bit for. -/
theorem RowBacked.write
    (hRow : RowBacked H path chunkDataSize saved bits none
      disk)
    (hExists : bits.Nonempty →
      Filesystem.exists? disk
        (H.locate (tempPathOf path)) = true)
    {index : ℕ}
    {bytes : Content}
    (hShort : bytes.length ≤ chunkDataSize)
    (hSame : index ∈ bits → bytes = saved index)
    (H' : Host) :
    RowBacked H path chunkDataSize saved bits
      (some
        { index := index
          before :=
            contentAt disk (H.locate (tempPathOf path))
          bytes := bytes })
      (writeStream H' disk (H.locate (tempPathOf path))
        (index * chunkDataSize) bytes) where
  short := hRow.short
  bytes hSome _ := by
    rcases hRow.bytes hSome (hExists hSome) with
      ⟨file, hFile, hHolds⟩
    refine ⟨_, payload?_writeStream hFile, fun n => ?_⟩
    have hBefore : contentAt disk
        (H.locate (tempPathOf path)) = file.content := by
      rw [contentAt, hFile]
    rw [durableContent, Unflushed.reached, hBefore]
    apply (hHolds 0).overwrite hRow.short
    · rw [List.length_take]
      exact (Nat.min_le_right _ _).trans hShort
    · intro hBit
      rw [← hSame hBit]
      exact List.take_prefix n bytes

end Rows

------------------------------------------------------------
-- One Path And The Others
------------------------------------------------------------

section Others

variable
  {H : Host}
  {chunkDataSize : ℕ}
  {sys : System}
  {m : Downloads}
  {path : String}

/- Other paths keep what they have. -/
structure SameElsewhere
    (H : Host)
    (path : String)
    (m m' : Downloads) : Prop where
  entry : ∀ other, other ≠ path →
    m'.node.receiving.lookup other =
      m.node.receiving.lookup other
  row : ∀ other, other ≠ path →
    m'.tasks.lookup other = m.tasks.lookup other
  file : ∀ other, other ≠ path → InUse m other →
    m'.node.disk.lookup (H.locate (tempPathOf other)) =
      m.node.disk.lookup (H.locate (tempPathOf other))
  apart : ∀ other, other ≠ path → InUse m other →
    H.locate (tempPathOf other) ≠
      H.locate (tempPathOf path)

theorem SameElsewhere.inUse
    {m' : Downloads}
    (hSame : SameElsewhere H path m m')
    {other : String}
    (hOther : other ≠ path)
    (hUse : InUse m' other) :
    InUse m other := by
  unfold InUse at hUse ⊢
  rw [hSame.entry other hOther, hSame.row other hOther]
    at hUse
  exact hUse

theorem keepOpen_of_no_buffer
    {s : LocalState}
    {unflushed : String → Option Unflushed}
    (hNone : unflushed path = none) :
    keepOpen s unflushed path = none := by
  unfold keepOpen
  rw [hNone]
  split
  · rfl
  · split <;> rfl

/- A buffer belongs to an open stream. -/
theorem HeldAt.keepOpen_eq
    {stored saved : ℕ → Content}
    {unflushed : Option Unflushed}
    (hHeld : HeldAt H path chunkDataSize stored saved
      unflushed m)
    {s : LocalState}
    {unflushed' : String → Option Unflushed}
    (hEntry : s.receiving.lookup path =
      m.node.receiving.lookup path)
    (hSame : unflushed' path = unflushed) :
    keepOpen s unflushed' path = unflushed := by
  cases hU : unflushed with
  | none =>
      apply keepOpen_of_no_buffer
      rw [hSame, hU]
  | some u =>
      rcases (hHeld.buffered u hU).stream with
        ⟨recv, hRecv, hStream, -⟩
      rw [keepOpen, hEntry, hRecv]
      dsimp only
      rw [if_pos hStream, hSame, hU]

/- A path keeps what it has with its entry, row and file. -/
theorem HeldAt.congr
    {stored saved : ℕ → Content}
    {unflushed : Option Unflushed}
    {m' : Downloads}
    (hHeld : HeldAt H path chunkDataSize stored saved
      unflushed m)
    (hEntry : m'.node.receiving.lookup path =
      m.node.receiving.lookup path)
    (hRow : m'.tasks.lookup path = m.tasks.lookup path)
    (hFile : InUse m path →
      m'.node.disk.lookup (H.locate (tempPathOf path)) =
        m.node.disk.lookup (H.locate (tempPathOf path))) :
    HeldAt H path chunkDataSize stored saved unflushed
      m' where
  well recv hRecv := by
    rw [hEntry] at hRecv
    exact hHeld.well recv hRecv
  backed recv hRecv := by
    rw [hEntry] at hRecv
    by_cases hUse : InUse m path
    · apply (hHeld.backed recv hRecv).mono rfl id
      intro file hOld
      rw [FileTree.payload?_congr (hFile hUse)]
      exact hOld
    · rcases not_inUse_entry hUse hRecv with
        ⟨hMarks, hClosed⟩
      exact backed_of_unmarked hMarks hClosed
  buffered u hU := by
    have hOld := hHeld.buffered u hU
    rcases hOld.stream with ⟨recv, hRecv, hStream, hTemp⟩
    rcases hOld.file with ⟨file, hOldFile, hContent⟩
    have hUse : InUse m path :=
      Or.inl ⟨recv, hRecv, Or.inr hStream⟩
    refine ⟨⟨recv, hEntry.trans hRecv, hStream, hTemp⟩,
      file, ?_, hContent⟩
    rw [FileTree.payload?_congr (hFile hUse)]
    exact hOldFile
  rowWell task hTask := by
    rw [hRow] at hTask
    exact hHeld.rowWell task hTask
  row task hTask := by
    rw [hRow] at hTask
    apply rowBacked_of_marked
    intro hBits
    exact (hHeld.row task hTask).congr
      (hFile (Or.inr ⟨task, hTask, hBits⟩))

/-
  The path is brought from one consistent state to another,
  and the others stay.
-/
theorem Consistent.replace
    (hInv : Consistent H chunkDataSize sys)
    (hAttached : m.attached = sys.downloads.attached)
    (hElse : SameElsewhere H path sys.downloads m)
    {buffer kept : Option Unflushed}
    {stored : ℕ → Content}
    (hKept : keepOpen m.node
      (Function.update sys.unflushed path buffer) path =
        kept)
    (hHeld : HeldAt H path chunkDataSize stored
      (sys.saved path) kept m) :
    Consistent H chunkDataSize
      (DownloadCrash.refresh m
        { sys with
          unflushed :=
            Function.update sys.unflushed path buffer
          stored :=
            Function.update sys.stored path stored }) := by
  refine ⟨hAttached.trans hInv.attached, ?_, ?_⟩
  · intro other
    change HeldAt H other chunkDataSize
      (Function.update sys.stored path stored other)
      (sys.saved other)
      (keepOpen m.node
        (Function.update sys.unflushed path buffer) other) m
    by_cases hOther : other = path
    · subst hOther
      rw [Function.update_self, hKept]
      exact hHeld
    · have hEntry := hElse.entry other hOther
      rw [Function.update_of_ne hOther,
        (hInv.held other).keepOpen_eq hEntry
          (Function.update_of_ne hOther _ _)]
      exact (hInv.held other).congr hEntry
        (hElse.row other hOther) (hElse.file other hOther)
  · intro p q hNe hP hQ
    by_cases hPathP : p = path
    · subst hPathP
      have hOther : q ≠ p := hNe.symm
      exact (hElse.apart q hOther
        (hElse.inUse hOther hQ)).symm
    · by_cases hPathQ : q = path
      · subst hPathQ
        exact hElse.apart p hPathP (hElse.inUse hPathP hP)
      · exact hInv.apart p q hNe (hElse.inUse hPathP hP)
          (hElse.inUse hPathQ hQ)

/- A chunk touches nothing of other paths. -/
theorem sameElsewhere_handleChunkTask
    {hdr : ChunkHeader}
    (hInv : Consistent H chunkDataSize sys)
    (hClear : ∀ other, other ≠ hdr.filePath →
      InUse sys.downloads other →
      Clear H hdr.filePath (H.locate (tempPathOf other)))
    (refusals : Refusals)
    (peerId : String) :
    SameElsewhere H hdr.filePath sys.downloads
      (handleChunkTask (H.during refusals) chunkDataSize hdr
        peerId sys.downloads) where
  entry other hOther :=
    receiving_handleChunk_of_ne hOther chunkDataSize peerId
      sys.downloads.node
  row other hOther := by
    unfold handleChunkTask
    dsimp only
    split
    · exact AList.lookup_erase_ne hOther
    · rfl
  file other hOther hUse := by
    have hApart := hClear other hOther hUse
    apply lookup_handleChunk_of_clear
      (H := H.during refusals)
    · exact ⟨hApart.final, hApart.temp, hApart.parent⟩
    · exact (hInv.held hdr.filePath).well
  apart other hOther hUse :=
    (hClear other hOther hUse).ne_temp

end Others

------------------------------------------------------------
-- The Path Of The Chunk
------------------------------------------------------------

section Outcomes

variable
  {H : Host}
  {chunkDataSize : ℕ}
  {sys : System}
  {m : Downloads}
  {path : String}

/- The entry is given up, with its file or without. -/
theorem heldAt_of_given_up
    (hInv : Consistent H chunkDataSize sys)
    (hTasks : m.tasks = sys.downloads.tasks)
    (hErased : m.node.receiving.lookup path = none)
    (hDisk : ∀ task,
      sys.downloads.tasks.lookup path = some task →
      (savedBits task).Nonempty →
      m.node.disk.lookup (H.locate (tempPathOf path)) =
          sys.downloads.node.disk.lookup
            (H.locate (tempPathOf path)) ∨
        m.node.disk.lookup
          (H.locate (tempPathOf path)) = none)
    (stored : ℕ → Content) :
    HeldAt H path chunkDataSize stored (sys.saved path)
      none m where
  well recv hRecv := by
    rw [hErased] at hRecv
    cases hRecv
  backed recv hRecv := by
    rw [hErased] at hRecv
    cases hRecv
  buffered u hU := by cases hU
  rowWell task hTask := by
    rw [hTasks] at hTask
    exact (hInv.held path).rowWell task hTask
  row task hTask := by
    rw [hTasks] at hTask
    apply rowBacked_of_marked
    intro hBits
    have hRow := (hInv.held path).flush.row task hTask
    rcases hDisk task hTask hBits with hSame | hGone
    · exact hRow.congr hSame
    · exact hRow.of_missing hGone _

/- A finished download has neither entry nor row. -/
theorem heldAt_of_finished
    (hErased : m.node.receiving.lookup path = none)
    (hRow : m.tasks.lookup path = none)
    (stored saved : ℕ → Content) :
    HeldAt H path chunkDataSize stored saved none m where
  well recv hRecv := by
    rw [hErased] at hRecv
    cases hRecv
  backed recv hRecv := by
    rw [hErased] at hRecv
    cases hRecv
  buffered u hU := by cases hU
  rowWell task hTask := by
    rw [hRow] at hTask
    cases hTask
  row task hTask := by
    rw [hRow] at hTask
    cases hTask

/- The entry with its stream open has what its bits say. -/
theorem backed_of_opened
    (hInv : Consistent H chunkDataSize sys)
    {total : ℕ}
    {found : ChunkLookupResult}
    {disk disk' : Disk}
    (hTotal : 0 < total)
    (hHanded : Handed path total
      (sys.downloads.node.receiving.lookup path)
      sys.downloads.node.disk disk found.entry)
    (refusals : Refusals)
    (hPrepare : prepareStream (H.during refusals) path found
      disk = (disk', true)) :
    Backed H path chunkDataSize (sys.stored path)
      { found.entry with streamOpen := true } disk' := by
  rcases prepareStream_opened hPrepare with ⟨hKeeps, hFile⟩
  have hTemp := hHanded.well.temp_eq
    (hHanded.count ▸ hTotal)
  have hBacked : Backed H path chunkDataSize
      (sys.stored path) found.entry disk := by
    rcases hHanded.bits with ⟨hMarks, hClosed⟩ |
      ⟨recv, hRecv, hMarks, hStream, hDisk⟩
    · exact backed_of_unmarked hMarks hClosed
    · apply ((hInv.held path).backed recv hRecv).mono hMarks
      · rw [hStream]
        exact id
      · intro file hOld
        rw [hDisk]
        exact hOld
  apply hBacked.open hKeeps
  rw [← hTemp]
  exact hFile

/- A chunk that is there already changes no byte. -/
theorem heldAt_of_duplicate
    (hInv : Consistent H chunkDataSize sys)
    (hContinues : ∀ task,
      sys.downloads.tasks.lookup path = some task →
      (savedBits task).Nonempty →
      Filesystem.exists? sys.downloads.node.disk
        (H.locate (tempPathOf path)) = true)
    (hTasks : m.tasks = sys.downloads.tasks)
    {entry : ReceivingFile}
    (hEntry : m.node.receiving.lookup path = some entry)
    (hWell : WellFormed path entry)
    (hTemp : entry.tempPath = tempPathOf path)
    (hOpen : entry.streamOpen = true)
    (hBacked : Backed H path chunkDataSize
      (sys.stored path) entry m.node.disk)
    (hKeeps : KeepsFiles sys.downloads.node.disk
      m.node.disk) :
    HeldAt H path chunkDataSize (sys.stored path)
      (sys.saved path) (sys.unflushed path) m where
  well recv hRecv := by
    rw [hEntry] at hRecv
    cases hRecv
    exact hWell
  backed recv hRecv := by
    rw [hEntry] at hRecv
    cases hRecv
    exact hBacked
  buffered u hU := by
    rcases ((hInv.held path).buffered u hU).file with
      ⟨file, hFile, hContent⟩
    exact ⟨⟨entry, hEntry, hOpen, hTemp⟩, file,
      hKeeps _ _ hFile, hContent⟩
  rowWell task hTask := by
    rw [hTasks] at hTask
    exact (hInv.held path).rowWell task hTask
  row task hTask := by
    rw [hTasks] at hTask
    exact ((hInv.held path).row task hTask).keep
      (hContinues task hTask) (fun _ => hKeeps)

/- A new chunk is in the file, if not yet on the disk. -/
theorem heldAt_of_stored
    {hdr : ChunkHeader}
    (hInv : Consistent H chunkDataSize sys)
    (hShort : hdr.uncompressedData.length ≤ chunkDataSize)
    {entry : ReceivingFile}
    {disk : Disk}
    (hWell : WellFormed hdr.filePath entry)
    (hTemp : entry.tempPath = tempPathOf hdr.filePath)
    (hOpen : entry.streamOpen = true)
    (hInside : hdr.chunkIndex < entry.totalChunks)
    (hFresh : hdr.chunkIndex ∉
      Bitmap.marked entry.receivedBitmap)
    (hBacked : Backed H hdr.filePath chunkDataSize
      (sys.stored hdr.filePath) entry disk)
    (hRow : ∀ task,
      sys.downloads.tasks.lookup hdr.filePath =
        some task →
      (savedBits task).Nonempty →
      Filesystem.exists? sys.downloads.node.disk
          (H.locate (tempPathOf hdr.filePath)) = true ∧
        KeepsFiles sys.downloads.node.disk disk ∧
        (hdr.chunkIndex ∈ savedBits task →
          hdr.uncompressedData =
            sys.saved hdr.filePath hdr.chunkIndex))
    (H' : Host)
    (hTasks : m.tasks = sys.downloads.tasks)
    (hDisk : m.node.disk = writeStream H' disk
      (H.locate (tempPathOf hdr.filePath))
      (hdr.chunkIndex * chunkDataSize)
      hdr.uncompressedData)
    (hEntry : m.node.receiving.lookup hdr.filePath =
      some { markChunk hdr.chunkIndex entry with
        busy := false }) :
    HeldAt H hdr.filePath chunkDataSize
      (Function.update (sys.stored hdr.filePath)
        hdr.chunkIndex hdr.uncompressedData)
      (sys.saved hdr.filePath)
      (some
        { index := hdr.chunkIndex
          before := contentAt disk
            (H.locate (tempPathOf hdr.filePath))
          bytes := hdr.uncompressedData }) m where
  well recv hRecv := by
    rw [hEntry] at hRecv
    cases hRecv
    have hMarked := hWell.counted.markChunk hInside hFresh
    exact ⟨⟨hMarked.size, hMarked.count⟩, Or.inl hTemp⟩
  backed recv hRecv := by
    rw [hEntry] at hRecv
    cases hRecv
    rw [hDisk]
    have hMarked := hBacked.markChunk hOpen
      (hWell.counted.size ▸ hInside) hFresh hShort H'
    exact ⟨hMarked.short, hMarked.bytes⟩
  buffered u hU := by
    cases hU
    rcases hBacked.bytes (Or.inr hOpen) with ⟨file, hFile, -⟩
    have hWritten : m.node.disk.payload?
          (H.locate (tempPathOf hdr.filePath)) =
        some ⟨writeAt file.content
          (hdr.chunkIndex * chunkDataSize)
          hdr.uncompressedData, H'.now⟩ := by
      rw [hDisk]
      exact payload?_writeStream hFile
    refine ⟨⟨_, hEntry, hOpen, hTemp⟩, _, hWritten, ?_⟩
    dsimp only
    rw [contentAt, hFile]
  rowWell task hTask := by
    rw [hTasks] at hTask
    exact (hInv.held hdr.filePath).rowWell task hTask
  row task hTask := by
    rw [hTasks] at hTask
    rw [hDisk]
    apply rowBacked_of_marked
    intro hBits
    rcases hRow task hTask hBits with
      ⟨hExists, hKeeps, hSame⟩
    have hOld := (hInv.held hdr.filePath).flush.row task
      hTask
    have hKept := hOld.keep (fun _ => hExists)
      (fun _ => hKeeps)
    apply hKept.write _ hShort hSame H'
    intro _
    rcases hOld.bytes hBits hExists with
      ⟨file, hFile, -⟩
    have hStays := hKeeps _ _ hFile
    rw [FileTree.payload?_eq_some_iff] at hStays
    rw [Filesystem.exists?, hStays]
    rfl

end Outcomes

------------------------------------------------------------
-- The Step Of A Chunk
------------------------------------------------------------

section Chunk

variable
  {H : Host}
  {chunkDataSize : ℕ}
  {sys : System}
  {hdr : ChunkHeader}
  {peerId : String}
  {refusals : Refusals}
  {found : ChunkLookupResult}
  {s' : LocalState}
  {disk : Disk}

theorem consistent_chunk_of_no_entry
    (hInv : Consistent H chunkDataSize sys)
    (hNone : validateChunkHeader hdr = false ∨
      (lookupOrCreateReceiving (H.during refusals)
        hdr.filePath hdr.totalChunks peerId
        sys.downloads.node).1 = none) :
    Consistent H chunkDataSize
      (chunkStep (H.during refusals) chunkDataSize hdr
        peerId sys) := by
  rcases handled_of_no_entry chunkDataSize hNone with
    ⟨hHandle, hCall, hOpened⟩
  have hSame : chunkStep (H.during refusals) chunkDataSize
      hdr peerId sys = refresh sys.downloads sys := by
    unfold chunkStep handleChunkTask
    dsimp only
    rw [hOpened, hHandle, hCall, bufferAfter, storedAfter,
      Function.update_eq_self, Function.update_eq_self]
  rw [hSame]
  apply hInv.refresh
  · rfl
  · rfl
  · intro path recv' hRecv
    exact changed_of_eq hRecv
  · intro path _
    exact Or.inl rfl

/- Only a call of finalize takes the row away. -/
theorem tasks_of_no_call
    {H' : Host}
    {m : Downloads}
    (hCall : finalizeCall H' chunkDataSize hdr peerId
      m.node = none) :
    (handleChunkTask H' chunkDataSize hdr peerId
      m).tasks = m.tasks := by
  unfold handleChunkTask
  rw [hCall]

theorem tasks_of_call
    {H' : Host}
    {m : Downloads}
    {call : ReceivingFile × Disk}
    (hCall : finalizeCall H' chunkDataSize hdr peerId
      m.node = some call) :
    (handleChunkTask H' chunkDataSize hdr peerId
      m).tasks = m.tasks.erase hdr.filePath := by
  unfold handleChunkTask
  rw [hCall]

theorem keepOpen_of_missing
    {s : LocalState}
    {path : String}
    (hNone : s.receiving.lookup path = none)
    (unflushed : String → Option Unflushed) :
    keepOpen s unflushed path = none := by
  rw [keepOpen, hNone]

theorem keepOpen_of_open
    {s : LocalState}
    {path : String}
    {recv : ReceivingFile}
    (hEntry : s.receiving.lookup path = some recv)
    (hOpen : recv.streamOpen = true)
    (unflushed : String → Option Unflushed)
    (buffer : Option Unflushed) :
    keepOpen s (Function.update unflushed path buffer)
      path = buffer := by
  rw [keepOpen, hEntry]
  dsimp only
  rw [if_pos hOpen, Function.update_self]

/- The chunk's entry is given up. -/
theorem consistent_chunk_of_given_up
    (hInv : Consistent H chunkDataSize sys)
    (hCareful : Careful H chunkDataSize sys
      (.chunk refusals hdr peerId))
    (hHandle : handleChunk (H.during refusals) chunkDataSize
        hdr peerId sys.downloads.node =
      eraseReceiving hdr.filePath
        { s' with disk := disk })
    (hCall : finalizeCall (H.during refusals) chunkDataSize
      hdr peerId sys.downloads.node = none)
    (hDisk : ∀ task,
      sys.downloads.tasks.lookup hdr.filePath =
        some task →
      (savedBits task).Nonempty →
      disk.lookup (H.locate (tempPathOf hdr.filePath)) =
          sys.downloads.node.disk.lookup
            (H.locate (tempPathOf hdr.filePath)) ∨
        disk.lookup (H.locate (tempPathOf hdr.filePath)) =
          none) :
    Consistent H chunkDataSize
      (chunkStep (H.during refusals) chunkDataSize hdr
        peerId sys) := by
  have hNode : (handleChunkTask (H.during refusals)
      chunkDataSize hdr peerId sys.downloads).node =
        eraseReceiving hdr.filePath
          { s' with disk := disk } := hHandle
  have hErased : (handleChunkTask (H.during refusals)
      chunkDataSize hdr peerId
      sys.downloads).node.receiving.lookup hdr.filePath =
        none := by
    rw [hNode]
    exact AList.lookup_erase _ _
  unfold chunkStep
  dsimp only
  apply hInv.replace
  · rfl
  · exact sameElsewhere_handleChunkTask hInv hCareful.2.1
      refusals peerId
  · exact keepOpen_of_missing hErased _
  · apply heldAt_of_given_up hInv
    · exact tasks_of_no_call hCall
    · exact hErased
    · rw [hNode]
      exact hDisk

/- No stream was opened. -/
theorem consistent_chunk_of_unopened
    (hInv : Consistent H chunkDataSize sys)
    (hCareful : Careful H chunkDataSize sys
      (.chunk refusals hdr peerId))
    (hValid : validateChunkHeader hdr = true)
    (hLookup : lookupOrCreateReceiving (H.during refusals)
      hdr.filePath hdr.totalChunks peerId
      sys.downloads.node = (some found, s'))
    (hTemp : found.entry.tempPath =
      tempPathOf hdr.filePath)
    (hPrepare : prepareStream (H.during refusals)
      hdr.filePath found s'.disk = (disk, false)) :
    Consistent H chunkDataSize
      (chunkStep (H.during refusals) chunkDataSize hdr
        peerId sys) := by
  rcases handled_of_unopened chunkDataSize hValid hLookup
    hPrepare with ⟨hHandle, hCall, -⟩
  apply consistent_chunk_of_given_up hInv hCareful hHandle
    hCall
  intro task hTask hBits
  have hGoesOn := hCareful.2.2 task hTask hBits
  have hDisk := disk_lookupOrCreate hLookup hGoesOn.total
  have hCases := lookup_prepareStream_unopened hPrepare
    (by
      rw [hDisk, hTemp]
      exact hGoesOn.temp)
  rw [hDisk, hTemp] at hCases
  exact hCases

/- The chunk was written to no file. -/
theorem consistent_chunk_of_failed
    (hInv : Consistent H chunkDataSize sys)
    (hCareful : Careful H chunkDataSize sys
      (.chunk refusals hdr peerId))
    (hValid : validateChunkHeader hdr = true)
    (hLookup : lookupOrCreateReceiving (H.during refusals)
      hdr.filePath hdr.totalChunks peerId
      sys.downloads.node = (some found, s'))
    (hTemp : found.entry.tempPath =
      tempPathOf hdr.filePath)
    (hPrepare : prepareStream (H.during refusals)
      hdr.filePath found s'.disk = (disk, true))
    {entry : ReceivingFile}
    (hStore : storeChunk (H.during refusals) chunkDataSize
      hdr { found.entry with streamOpen := true } disk =
        .failed entry
          (removeFrom (H.during refusals) disk
            (H.locate found.entry.tempPath))) :
    Consistent H chunkDataSize
      (chunkStep (H.during refusals) chunkDataSize hdr
        peerId sys) := by
  rcases handled_of_opened hValid hLookup hPrepare hStore
    with ⟨hHandle, hCall, -⟩
  apply consistent_chunk_of_given_up hInv hCareful hHandle
    hCall
  intro task hTask hBits
  have hGoesOn := hCareful.2.2 task hTask hBits
  have hDisk := disk_lookupOrCreate hLookup hGoesOn.total
  have hKeeps := (prepareStream_opened hPrepare).1
  rcases ((hInv.held hdr.filePath).row task hTask).bytes hBits
    hGoesOn.temp with ⟨file, hFile, -⟩
  have hStays := hKeeps _ _ (hDisk ▸ hFile)
  rw [FileTree.payload?_eq_some_iff] at hFile hStays
  rw [hTemp, hFile, ← hStays]
  exact lookup_removeFrom_cases _ _ _

/- The last chunk was written. -/
theorem consistent_chunk_of_complete
    (hInv : Consistent H chunkDataSize sys)
    (hCareful : Careful H chunkDataSize sys
      (.chunk refusals hdr peerId))
    (hValid : validateChunkHeader hdr = true)
    (hLookup : lookupOrCreateReceiving (H.during refusals)
      hdr.filePath hdr.totalChunks peerId
      sys.downloads.node = (some found, s'))
    (hPrepare : prepareStream (H.during refusals)
      hdr.filePath found s'.disk = (disk, true))
    {entry : ReceivingFile}
    {disk' : Disk}
    (hStore : storeChunk (H.during refusals) chunkDataSize
      hdr { found.entry with streamOpen := true } disk =
        .complete entry disk') :
    Consistent H chunkDataSize
      (chunkStep (H.during refusals) chunkDataSize hdr
        peerId sys) := by
  rcases handled_of_opened hValid hLookup hPrepare hStore
    with ⟨hHandle, hCall, -⟩
  have hErased : (handleChunkTask (H.during refusals)
      chunkDataSize hdr peerId
      sys.downloads).node.receiving.lookup hdr.filePath =
        none := by
    change (handleChunk (H.during refusals) chunkDataSize
      hdr peerId sys.downloads.node).receiving.lookup
        hdr.filePath = none
    rw [hHandle, settle, receiving_finalizeReceivedFile]
    exact AList.lookup_erase _ _
  unfold chunkStep
  dsimp only
  apply hInv.replace
  · rfl
  · exact sameElsewhere_handleChunkTask hInv hCareful.2.1
      refusals peerId
  · exact keepOpen_of_missing hErased _
  · apply heldAt_of_finished hErased
    rw [tasks_of_call hCall]
    exact AList.lookup_erase _ _

/- The chunk was there already. -/
theorem consistent_chunk_of_duplicate
    (hInv : Consistent H chunkDataSize sys)
    (hCareful : Careful H chunkDataSize sys
      (.chunk refusals hdr peerId))
    (hValid : validateChunkHeader hdr = true)
    (hLookup : lookupOrCreateReceiving (H.during refusals)
      hdr.filePath hdr.totalChunks peerId
      sys.downloads.node = (some found, s'))
    (hHanded : Handed hdr.filePath hdr.totalChunks
      (sys.downloads.node.receiving.lookup hdr.filePath)
      sys.downloads.node.disk s'.disk found.entry)
    (hTotal : 0 < hdr.totalChunks)
    (hPrepare : prepareStream (H.during refusals)
      hdr.filePath found s'.disk = (disk, true))
    (hMarked : hdr.chunkIndex ∈
      Bitmap.marked found.entry.receivedBitmap)
    (hStore : storeChunk (H.during refusals) chunkDataSize
      hdr { found.entry with streamOpen := true } disk =
        .kept
          { found.entry with
            streamOpen := true
            busy := false } disk) :
    Consistent H chunkDataSize
      (chunkStep (H.during refusals) chunkDataSize hdr
        peerId sys) := by
  rcases handled_of_opened hValid hLookup hPrepare hStore
    with ⟨hHandle, hCall, hOpened⟩
  have hTemp := hHanded.well.temp_eq
    (hHanded.count ▸ hTotal)
  have hBacked := backed_of_opened hInv hTotal hHanded
    refusals hPrepare
  have hDisk : s'.disk = sys.downloads.node.disk := by
    rcases hHanded.bits with ⟨hNone, -⟩ | ⟨_, -, -, -, hSame⟩
    · rw [hNone] at hMarked
      exact absurd hMarked (Set.notMem_empty _)
    · exact hSame
  have hNode : (handleChunkTask (H.during refusals)
      chunkDataSize hdr peerId sys.downloads).node =
        setReceiving hdr.filePath
          { found.entry with
            streamOpen := true
            busy := false } { s' with disk := disk } :=
    hHandle
  have hEntry : (handleChunkTask (H.during refusals)
      chunkDataSize hdr peerId
      sys.downloads).node.receiving.lookup hdr.filePath =
        some
          { found.entry with
            streamOpen := true
            busy := false } := by
    rw [hNode]
    exact AList.lookup_insert _
  have hDuplicate : isDuplicate hdr
      { found.entry with streamOpen := true } = true :=
    isDuplicate_of_marked hMarked
  unfold chunkStep
  dsimp only
  rw [hOpened, bufferAfter, storedAfter, noteStored,
    if_pos hDuplicate, if_pos hDuplicate]
  apply hInv.replace
  · rfl
  · exact sameElsewhere_handleChunkTask hInv hCareful.2.1
      refusals peerId
  · exact keepOpen_of_open hEntry rfl _ _
  · have hKeeps := (prepareStream_opened hPrepare).1
    rw [hDisk] at hKeeps
    apply heldAt_of_duplicate hInv _ _ hEntry
    · exact ⟨⟨hHanded.well.counted.size,
        hHanded.well.counted.count⟩, Or.inl hTemp⟩
    · exact hTemp
    · rfl
    · rw [hNode]
      exact ⟨hBacked.short, hBacked.bytes⟩
    · rw [hNode]
      exact hKeeps
    · exact fun task hTask hBits =>
        (hCareful.2.2 task hTask hBits).temp
    · exact tasks_of_no_call hCall

/- The chunk was written, and others are missing. -/
theorem consistent_chunk_of_stored
    (hInv : Consistent H chunkDataSize sys)
    (hCareful : Careful H chunkDataSize sys
      (.chunk refusals hdr peerId))
    (hValid : validateChunkHeader hdr = true)
    (hLookup : lookupOrCreateReceiving (H.during refusals)
      hdr.filePath hdr.totalChunks peerId
      sys.downloads.node = (some found, s'))
    (hHanded : Handed hdr.filePath hdr.totalChunks
      (sys.downloads.node.receiving.lookup hdr.filePath)
      sys.downloads.node.disk s'.disk found.entry)
    (hIndex : hdr.chunkIndex < hdr.totalChunks)
    (hPrepare : prepareStream (H.during refusals)
      hdr.filePath found s'.disk = (disk, true))
    (hFresh : hdr.chunkIndex ∉
      Bitmap.marked found.entry.receivedBitmap)
    {entry : ReceivingFile}
    (hOpened : entry =
      { found.entry with streamOpen := true })
    (hStore : storeChunk (H.during refusals) chunkDataSize
        hdr { found.entry with streamOpen := true } disk =
      .kept
        { markChunk hdr.chunkIndex entry with
          busy := false }
        (writeStream (H.during refusals) disk
          (H.locate found.entry.tempPath)
          (hdr.chunkIndex * chunkDataSize)
          hdr.uncompressedData)) :
    Consistent H chunkDataSize
      (chunkStep (H.during refusals) chunkDataSize hdr
        peerId sys) := by
  have hTotal := Nat.zero_lt_of_lt hIndex
  have hTemp := hHanded.well.temp_eq
    (hHanded.count ▸ hTotal)
  have hInside : hdr.chunkIndex < found.entry.totalChunks :=
    hHanded.count ▸ hIndex
  have hBacked := backed_of_opened hInv hTotal hHanded
    refusals hPrepare
  rcases handled_of_opened hValid hLookup hPrepare hStore
    with ⟨hHandle, hCall, hOpen⟩
  rw [← hOpened] at hBacked hOpen
  have hNode : (handleChunkTask (H.during refusals)
      chunkDataSize hdr peerId sys.downloads).node =
        settle (H.during refusals) hdr.filePath peerId
          (.kept _ _) s' := hHandle
  have hEntry : (handleChunkTask (H.during refusals)
      chunkDataSize hdr peerId
      sys.downloads).node.receiving.lookup hdr.filePath =
        some
          { markChunk hdr.chunkIndex entry with
            busy := false } := by
    rw [hNode]
    exact AList.lookup_insert _
  have hBits : entry.receivedBitmap =
      found.entry.receivedBitmap := by
    rw [hOpened]
  have hPlace : entry.tempPath =
      tempPathOf hdr.filePath := by
    rw [hOpened]
    exact hTemp
  have hStream : entry.streamOpen = true := by
    rw [hOpened]
  have hWell : WellFormed hdr.filePath entry := by
    rw [hOpened]
    exact ⟨⟨hHanded.well.counted.size,
      hHanded.well.counted.count⟩, Or.inl hTemp⟩
  have hNew : isDuplicate hdr entry = false := by
    apply isDuplicate_of_fresh
    · rw [hBits, hHanded.well.counted.size]
      exact hInside
    · rw [hBits]
      exact hFresh
  unfold chunkStep
  dsimp only
  rw [hOpen, bufferAfter, storedAfter, noteStored, hNew,
    if_neg Bool.false_ne_true, if_neg Bool.false_ne_true,
    hPlace]
  apply hInv.replace
  · rfl
  · exact sameElsewhere_handleChunkTask hInv hCareful.2.1
      refusals peerId
  · exact keepOpen_of_open hEntry hStream _ _
  · apply heldAt_of_stored hInv hCareful.1 hWell hPlace
      hStream _ _ hBacked _ (H.during refusals) _ _ hEntry
    · rw [hOpened]
      exact hInside
    · rw [hBits]
      exact hFresh
    · intro task hTask hSome
      have hGoesOn := hCareful.2.2 task hTask hSome
      have hDisk := disk_lookupOrCreate hLookup
        hGoesOn.total
      refine ⟨hGoesOn.temp, ?_, ?_⟩
      · rw [← hDisk]
        exact (prepareStream_opened hPrepare).1
      · intro hBit
        apply hGoesOn.bytes hBit
        intro recv hRecv hOld
        rcases hGoesOn.total recv hRecv with hZero | hSame
        · have hLength :=
            Bitmap.lt_length_of_mem_marked hOld
          have hWell := (hInv.held _).well recv hRecv
          rw [hWell.counted.size, hZero] at hLength
          omega
        · apply hFresh
          rw [hHanded.same recv hRecv hSame hTotal]
          exact hOld
    · exact tasks_of_no_call hCall
    · rw [hNode, ← hTemp]
      rfl

/- A careful chunk keeps the system consistent. -/
theorem consistent_chunk
    (hInv : Consistent H chunkDataSize sys)
    (hCareful : Careful H chunkDataSize sys
      (.chunk refusals hdr peerId)) :
    Consistent H chunkDataSize
      (chunkStep (H.during refusals) chunkDataSize hdr
        peerId sys) := by
  cases hValid : validateChunkHeader hdr with
  | false =>
      exact consistent_chunk_of_no_entry hInv
        (Or.inl hValid)
  | true =>
  cases hLookup : lookupOrCreateReceiving
      (H.during refusals) hdr.filePath hdr.totalChunks
      peerId sys.downloads.node with
  | mk found s' =>
  cases found with
  | none =>
      apply consistent_chunk_of_no_entry hInv
      rw [hLookup]
      exact Or.inr rfl
  | some found =>
  have hIndex : hdr.chunkIndex < hdr.totalChunks := by
    simp only [validateChunkHeader, Bool.and_eq_true,
      decide_eq_true_eq] at hValid
    exact hValid.2
  have hTotal := Nat.zero_lt_of_lt hIndex
  have hHanded := handed_of_lookup
    ((hInv.held hdr.filePath).well) hTotal hLookup
  have hTemp := hHanded.well.temp_eq
    (hHanded.count ▸ hTotal)
  cases hPrepare : prepareStream (H.during refusals)
      hdr.filePath found s'.disk with
  | mk disk opened =>
  cases opened with
  | false =>
      exact consistent_chunk_of_unopened hInv hCareful
        hValid hLookup hTemp hPrepare
  | true =>
      have hCounted : Counted
          { found.entry with streamOpen := true } :=
        ⟨hHanded.well.counted.size,
          hHanded.well.counted.count⟩
      have hInside : hdr.chunkIndex <
          found.entry.totalChunks :=
        hHanded.count ▸ hIndex
      rcases storeChunk_cases (H.during refusals)
        chunkDataSize disk hCounted hInside with
        ⟨hMarked, hStore⟩ | ⟨-, -, hStore⟩ |
        ⟨-, -, -, hStore⟩ | ⟨hFresh, -, -, hStore⟩
      · exact consistent_chunk_of_duplicate hInv hCareful
          hValid hLookup hHanded hTotal hPrepare hMarked
          hStore
      · exact consistent_chunk_of_failed hInv hCareful
          hValid hLookup hTemp hPrepare hStore
      · exact consistent_chunk_of_complete hInv hCareful
          hValid hLookup hPrepare hStore
      · exact consistent_chunk_of_stored hInv hCareful
          hValid hLookup hHanded hIndex hPrepare hFresh rfl
          hStore

end Chunk

------------------------------------------------------------
-- Runs
------------------------------------------------------------

section Runs

variable
  {H : Host}
  {chunkDataSize : ℕ}
  {sys sys' : System}

/- Each careful step keeps the system consistent. -/
theorem consistent_of_step
    (event : Event)
    (hInv : Consistent H chunkDataSize sys)
    (hCareful : Careful H chunkDataSize sys event)
    (hStep : step H chunkDataSize sys event = some sys') :
    Consistent H chunkDataSize sys' := by
  cases event with
  | register path peerId hash size =>
      cases hStep
      exact consistent_register hInv path peerId hash size
  | checkResume refusals path hash size =>
      cases hStep
      exact consistent_checkResume hInv refusals path hash
        size
  | chunk refusals hdr peerId =>
      cases hStep
      exact consistent_chunk hInv hCareful
  | flush path =>
      cases hStep
      exact consistent_flush hInv path
  | cleanup refusals expired =>
      cases hStep
      exact consistent_cleanup hInv hCareful _
  | cancel peerId =>
      cases hStep
      exact consistent_cancel hInv peerId
  | crash reached =>
      cases hStep
      exact consistent_crash hInv reached

/-
  In every run of careful steps, with crashes anywhere, a
  crash after it loses no byte that a restored bit promises.
-/
theorem resumesOnDisk_of_run
    {node : LocalState}
    {events : List Event}
    (hMeets : Transition.Meets (step H chunkDataSize)
      (Careful H chunkDataSize) (start node) events)
    (hRun : Transition.run (step H chunkDataSize)
      (start node) events = some sys) :
    ResumesOnDisk H chunkDataSize sys := by
  apply resumesOnDisk_of_consistent
  refine Transition.invariant_of_run ?_
    (consistent_start H chunkDataSize node) hMeets hRun
  exact fun _ event _ => consistent_of_step event

end Runs

/- The first of two chunks. -/
def firstHalf : ChunkHeader :=
  blockChunk "a.txt" 2 (fun _ => [97, 98]) 0

/- The chunk is on the disk before its bit is persisted. -/
def flushedFirst : List Event :=
  [.chunk .none firstHalf "peer",
    .flush "a.txt",
    .cleanup .none (fun _ => false),
    .crash (fun _ => 0)]

theorem resumesOnDisk_of_flushedFirst :
    ∃ sys recv,
      Transition.run (step Host.plain 2)
          (start (LocalState.empty Host.plain .destination
            .oneWay)) flushedFirst = some sys ∧
      sys.downloads.node.receiving.lookup "a.txt" =
        some recv ∧
      recv.receivedBitmap = [true, false] ∧
      ResumesOnDisk Host.plain 2 sys := by
  have hRun : Transition.run (step Host.plain 2)
      (start (LocalState.empty Host.plain .destination
        .oneWay)) flushedFirst = some _ := rfl
  refine ⟨_, _, hRun, rfl, rfl,
    resumesOnDisk_of_run ?_ hRun⟩
  refine .cons ⟨by decide, ?_, ?_⟩ rfl ?_
  · rintro path - (⟨recv, hRecv, -⟩ | ⟨task, hTask, -⟩)
    · cases hRecv
    · cases hTask
  · intro task hTask
    cases hTask
  refine .cons trivial rfl ?_
  refine .cons ?_ rfl ?_
  · intro path hSome
    by_cases hPath : path = "a.txt"
    · subst hPath
      exact absurd rfl hSome
    · refine absurd ?_ hSome
      refine (Function.update_of_ne hPath _ _).trans ?_
      apply keepOpen_of_no_buffer
      exact Function.update_of_ne hPath _ _
  exact .cons trivial rfl trivial

/- The bit is persisted before the chunk is on the disk. -/
def persistedFirst : List Event :=
  [.chunk .none firstHalf "peer",
    .cleanup .none (fun _ => false)]

theorem not_resumesOnDisk_persistedFirst :
    ∃ sys,
      Transition.run (step Host.plain 2)
          (start (LocalState.empty Host.plain .destination
            .oneWay)) persistedFirst = some sys ∧
      ¬ ResumesOnDisk Host.plain 2 sys := by
  refine ⟨_, rfl, ?_⟩
  intro hResumes
  rcases hResumes (fun _ => 0) "a.txt" _ rfl ⟨0, rfl⟩ with
    ⟨file, hFile, hHolds⟩
  cases hFile
  have hByte := hHolds 0 rfl 0 (by decide)
  cases hByte

end DownloadCrash

end VeritasSync
