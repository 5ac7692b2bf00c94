import VeritasSync.Sync.DownloadCrash

/-
  What the entries, the rows, the buffers and the temporary
  files have to do with each other so that a crash loses no
  byte that a bit promises.

  Main declarations:
    * `DownloadCrash.Consistent`
    * `DownloadCrash.Consistent.refresh`
    * `DownloadCrash.consistent_crash`
    * `DownloadCrash.resumesOnDisk_of_consistent`
-/

namespace VeritasSync

namespace DownloadCrash

open TransferManager

------------------------------------------------------------
-- Paths In Use
------------------------------------------------------------

/- The row's bits. -/
def savedBits (task : DownloadTaskRecord) : Set ℕ :=
  Bitmap.marked (rebuild task).receivedBitmap

/- The path has bits, or an open stream. -/
def InUse
    (m : Downloads)
    (path : String) : Prop :=
  (∃ recv, m.node.receiving.lookup path = some recv ∧
    ((Bitmap.marked recv.receivedBitmap).Nonempty ∨
      recv.streamOpen = true)) ∨
    ∃ task, m.tasks.lookup path = some task ∧
      (savedBits task).Nonempty

------------------------------------------------------------
-- The Invariant
------------------------------------------------------------

/- The file once `n` bytes of its last write reached it. -/
def durableContent
    (chunkDataSize : ℕ)
    (unflushed : Option Unflushed)
    (n : ℕ)
    (content : Content) : Content :=
  match unflushed with
  | none => content
  | some u => u.reached chunkDataSize n

/-
  If the temporary file of a row with bits is there, it has
  their bytes, however much of the last write is lost.
-/
structure RowBacked
    (H : Host)
    (path : String)
    (chunkDataSize : ℕ)
    (saved : ℕ → Content)
    (bits : Set ℕ)
    (unflushed : Option Unflushed)
    (disk : Disk) : Prop where
  short : ∀ i ∈ bits, (saved i).length ≤ chunkDataSize
  bytes : bits.Nonempty →
    Filesystem.exists? disk
      (H.locate (tempPathOf path)) = true →
    ∃ file,
      disk.payload? (H.locate (tempPathOf path)) =
        some file ∧
      ∀ n, Reassembly.Holds chunkDataSize saved bits
        (durableContent chunkDataSize unflushed n
          file.content)

/- What a stream wrote last is in the file as it is seen. -/
structure Buffered
    (H : Host)
    (path : String)
    (chunkDataSize : ℕ)
    (u : Unflushed)
    (s : LocalState) : Prop where
  stream : ∃ recv, s.receiving.lookup path = some recv ∧
    recv.streamOpen = true ∧
    recv.tempPath = tempPathOf path
  file : ∃ file,
    s.disk.payload? (H.locate (tempPathOf path)) =
      some file ∧
    file.content = writeAt u.before
      (u.index * chunkDataSize) u.bytes

/- What belongs to one path fits together. -/
structure HeldAt
    (H : Host)
    (path : String)
    (chunkDataSize : ℕ)
    (stored saved : ℕ → Content)
    (unflushed : Option Unflushed)
    (m : Downloads) : Prop where
  well : ∀ recv,
    m.node.receiving.lookup path = some recv →
    WellFormed path recv
  backed : ∀ recv,
    m.node.receiving.lookup path = some recv →
    Backed H path chunkDataSize stored recv m.node.disk
  buffered : ∀ u, unflushed = some u →
    Buffered H path chunkDataSize u m.node
  rowWell : ∀ task,
    m.tasks.lookup path = some task →
    WellFormed path (rebuild task)
  row : ∀ task,
    m.tasks.lookup path = some task →
    RowBacked H path chunkDataSize saved (savedBits task)
      unflushed m.node.disk

structure Consistent
    (H : Host)
    (chunkDataSize : ℕ)
    (sys : System) : Prop where
  attached : sys.downloads.attached = true
  held : ∀ path,
    HeldAt H path chunkDataSize (sys.stored path)
      (sys.saved path) (sys.unflushed path) sys.downloads
  apart : ∀ p q, p ≠ q →
    InUse sys.downloads p →
    InUse sys.downloads q →
    H.locate (tempPathOf p) ≠ H.locate (tempPathOf q)

theorem consistent_start
    (H : Host)
    (chunkDataSize : ℕ)
    (node : LocalState) :
    Consistent H chunkDataSize (start node) where
  attached := rfl
  held path :=
    { well := fun _ hRecv => by cases hRecv
      backed := fun _ hRecv => by cases hRecv
      buffered := fun _ hU => by cases hU
      rowWell := fun _ hTask => by cases hTask
      row := fun _ hTask => by cases hTask }
  apart p q hNe hP := by
    rcases hP with ⟨recv, hRecv, -⟩ | ⟨task, hTask, -⟩
    · cases hRecv
    · cases hTask

section Rows

variable
  {H : Host}
  {path : String}
  {chunkDataSize : ℕ}
  {saved : ℕ → Content}
  {bits : Set ℕ}
  {unflushed : Option Unflushed}
  {disk disk' : Disk}

/- A row without bits promises nothing. -/
theorem rowBacked_of_marked
    (hRow : bits.Nonempty →
      RowBacked H path chunkDataSize saved bits unflushed
        disk) :
    RowBacked H path chunkDataSize saved bits unflushed
      disk where
  short i hI := (hRow ⟨i, hI⟩).short i hI
  bytes hSome := (hRow hSome).bytes hSome

/- Nothing matters but the temporary file. -/
theorem RowBacked.congr
    (hRow : RowBacked H path chunkDataSize saved bits
      unflushed disk)
    (hLookup : disk'.lookup (H.locate (tempPathOf path)) =
      disk.lookup (H.locate (tempPathOf path))) :
    RowBacked H path chunkDataSize saved bits unflushed
      disk' where
  short := hRow.short
  bytes hSome hExists := by
    unfold Filesystem.exists? at hExists
    rw [hLookup] at hExists
    rw [FileTree.payload?_congr hLookup]
    exact hRow.bytes hSome hExists

/- Without its file a row promises nothing. -/
theorem RowBacked.of_missing
    (hRow : RowBacked H path chunkDataSize saved bits
      unflushed disk)
    (hMissing : disk'.lookup
      (H.locate (tempPathOf path)) = none)
    (unflushed' : Option Unflushed) :
    RowBacked H path chunkDataSize saved bits unflushed'
      disk' where
  short := hRow.short
  bytes _ hExists := by
    rw [Filesystem.exists?, hMissing] at hExists
    cases hExists

/- Emptying the buffer loses nothing. -/
theorem RowBacked.flush
    (hRow : RowBacked H path chunkDataSize saved bits
      unflushed disk)
    (hBuffered : ∀ u, unflushed = some u →
      ∃ file,
        disk.payload? (H.locate (tempPathOf path)) =
          some file ∧
        file.content = writeAt u.before
          (u.index * chunkDataSize) u.bytes) :
    RowBacked H path chunkDataSize saved bits none
      disk where
  short := hRow.short
  bytes hSome hExists := by
    rcases hRow.bytes hSome hExists with
      ⟨file, hFile, hHolds⟩
    refine ⟨file, hFile, ?_⟩
    intro n
    cases hUnflushed : unflushed with
    | none =>
        rw [hUnflushed] at hHolds
        exact hHolds n
    | some u =>
        rcases hBuffered u hUnflushed with
          ⟨file', hFile', hContent⟩
        rw [hFile] at hFile'
        cases hFile'
        rw [hUnflushed] at hHolds
        have hAll := hHolds u.bytes.length
        rw [durableContent, Unflushed.reached,
          List.take_length, ← hContent] at hAll
        exact hAll

end Rows

------------------------------------------------------------
-- Changes Of The Map
------------------------------------------------------------

section Changes

variable
  {H : Host}
  {chunkDataSize : ℕ}
  {sys : System}
  {m : Downloads}
  {path : String}

theorem keepOpen_eq_some
    {s : LocalState}
    {unflushed : String → Option Unflushed}
    {u : Unflushed}
    (hOpen : keepOpen s unflushed path = some u) :
    unflushed path = some u ∧
      ∃ recv, s.receiving.lookup path = some recv ∧
        recv.streamOpen = true := by
  unfold keepOpen at hOpen
  cases hEntry : s.receiving.lookup path with
  | none =>
      rw [hEntry] at hOpen
      cases hOpen
  | some recv =>
      rw [hEntry] at hOpen
      dsimp only at hOpen
      split at hOpen
      next hStream => exact ⟨hOpen, recv, rfl, hStream⟩
      next => cases hOpen

theorem not_inUse_entry
    (hFree : ¬ InUse m path)
    {recv : ReceivingFile}
    (hEntry : m.node.receiving.lookup path = some recv) :
    Bitmap.marked recv.receivedBitmap = ∅ ∧
      recv.streamOpen = false := by
  constructor
  · rw [← Set.not_nonempty_iff_eq_empty]
    exact fun hSome =>
      hFree (Or.inl ⟨recv, hEntry, Or.inl hSome⟩)
  · apply Bool.eq_false_of_not_eq_true
    exact fun hStream =>
      hFree (Or.inl ⟨recv, hEntry, Or.inr hStream⟩)

/- The entries are changed, and what is in use was. -/
theorem InUse.of_changed
    {m' : Downloads}
    (hUse : InUse m' path)
    (hTasks : m'.tasks = m.tasks)
    (hEntries : ∀ recv',
      m'.node.receiving.lookup path = some recv' →
      Changed (m.node.receiving.lookup path) recv') :
    InUse m path := by
  rcases hUse with ⟨recv', hRecv, hBusy⟩ |
    ⟨task, hTask, hBits⟩
  · rcases hEntries recv' hRecv with
      ⟨recv, hOld, hSame⟩ | ⟨-, peerId, hash, size, hNew⟩
    · refine Or.inl ⟨recv, hOld, ?_⟩
      rw [hSame.bitmap] at hBusy
      exact hBusy.imp_right hSame.stream
    · rw [hNew] at hBusy
      rcases hBusy with hBits | hStream
      · change (Bitmap.marked
          (List.replicate 0 false)).Nonempty at hBits
        rw [Bitmap.marked_replicate] at hBits
        exact absurd hBits Set.not_nonempty_empty
      · cases hStream
  · rw [hTasks] at hTask
    exact Or.inr ⟨task, hTask, hBits⟩

/- Emptying its buffer, a path keeps what it has. -/
theorem HeldAt.flush
    {stored saved : ℕ → Content}
    {unflushed : Option Unflushed}
    (hHeld : HeldAt H path chunkDataSize stored saved
      unflushed m) :
    HeldAt H path chunkDataSize stored saved none m where
  well := hHeld.well
  backed := hHeld.backed
  buffered u hU := by cases hU
  rowWell := hHeld.rowWell
  row task hTask :=
    (hHeld.row task hTask).flush
      (fun u hU => (hHeld.buffered u hU).file)

/-
  Under the lock of the map an entry changes or goes.  A
  temporary file in use stays, or it goes with its entry.
-/
theorem HeldAt.refresh
    {stored saved : ℕ → Content}
    {unflushed : String → Option Unflushed}
    {m' : Downloads}
    (hHeld : HeldAt H path chunkDataSize stored saved
      (unflushed path) m)
    (hTasks : m'.tasks = m.tasks)
    (hEntries : ∀ recv',
      m'.node.receiving.lookup path = some recv' →
      Changed (m.node.receiving.lookup path) recv')
    (hDisk : InUse m path →
      m'.node.disk.lookup (H.locate (tempPathOf path)) =
          m.node.disk.lookup
            (H.locate (tempPathOf path)) ∨
        (m'.node.receiving.lookup path = none ∧
          m'.node.disk.lookup
            (H.locate (tempPathOf path)) = none)) :
    HeldAt H path chunkDataSize stored saved
      (keepOpen m'.node unflushed path) m' := by
  have hSameFile : ∀ recv',
      m'.node.receiving.lookup path = some recv' →
      InUse m path →
      m'.node.disk.payload? (H.locate (tempPathOf path)) =
        m.node.disk.payload?
          (H.locate (tempPathOf path)) := by
    intro recv' hRecv hUse
    apply FileTree.payload?_congr
    apply (hDisk hUse).resolve_right
    rintro ⟨hNone, -⟩
    rw [hRecv] at hNone
    cases hNone
  refine ⟨?_, ?_, ?_, ?_, ?_⟩
  · intro recv' hRecv
    exact (hEntries recv' hRecv).wellFormed hHeld.well
  · intro recv' hRecv
    rcases hEntries recv' hRecv with
      ⟨recv, hOld, hSame⟩ | ⟨-, peerId, hash, size, hNew⟩
    · have hBacked := hHeld.backed recv hOld
      by_cases hUse : InUse m path
      · apply hBacked.mono
        · rw [hSame.bitmap]
        · exact hSame.stream
        · intro file hFile
          rw [hSameFile recv' hRecv hUse]
          exact hFile
      · rcases not_inUse_entry hUse hOld with
          ⟨hMarks, hClosed⟩
        apply backed_of_unmarked
        · rw [hSame.bitmap]
          exact hMarks
        · apply Bool.eq_false_of_not_eq_true
          intro hStream
          rw [hSame.stream hStream] at hClosed
          cases hClosed
    · rw [hNew]
      exact backed_of_unmarked
        (Bitmap.marked_replicate 0) rfl
  · intro u hU
    rcases keepOpen_eq_some hU with
      ⟨hOld, recv', hRecv, hStream⟩
    have hBuffered := hHeld.buffered u hOld
    rcases hBuffered.stream with
      ⟨recv, hEntry, hOpen, hTemp⟩
    rcases hBuffered.file with ⟨file, hFile, hContent⟩
    have hTemp' : recv'.tempPath = tempPathOf path := by
      rcases hEntries recv' hRecv with
        ⟨old, hOld, hSame⟩ | ⟨hNone, -⟩
      · rw [hEntry] at hOld
        cases hOld
        rw [hSame.temp, hTemp]
      · rw [hEntry] at hNone
        cases hNone
    refine ⟨⟨recv', hRecv, hStream, hTemp'⟩, file, ?_,
      hContent⟩
    rw [hSameFile recv' hRecv
      (Or.inl ⟨recv, hEntry, Or.inr hOpen⟩)]
    exact hFile
  · rw [hTasks]
    exact hHeld.rowWell
  · intro task hTask
    rw [hTasks] at hTask
    apply rowBacked_of_marked
    intro hBits
    rcases hDisk (Or.inr ⟨task, hTask, hBits⟩) with
      hSame | ⟨-, hMissing⟩
    · apply RowBacked.congr _ hSame
      cases hOpen : keepOpen m'.node unflushed path with
      | none => exact hHeld.flush.row task hTask
      | some u =>
          rw [← (keepOpen_eq_some hOpen).1]
          exact hHeld.row task hTask
    · exact (hHeld.row task hTask).of_missing hMissing _

theorem Consistent.refresh
    (hInv : Consistent H chunkDataSize sys)
    (hAttached : m.attached = sys.downloads.attached)
    (hTasks : m.tasks = sys.downloads.tasks)
    (hEntries : ∀ path recv',
      m.node.receiving.lookup path = some recv' →
      Changed (sys.downloads.node.receiving.lookup path)
        recv')
    (hDisk : ∀ path, InUse sys.downloads path →
      m.node.disk.lookup (H.locate (tempPathOf path)) =
          sys.downloads.node.disk.lookup
            (H.locate (tempPathOf path)) ∨
        (m.node.receiving.lookup path = none ∧
          m.node.disk.lookup
            (H.locate (tempPathOf path)) = none)) :
    Consistent H chunkDataSize
      (DownloadCrash.refresh m sys) where
  attached := hAttached.trans hInv.attached
  held path :=
    (hInv.held path).refresh hTasks (hEntries path)
      (hDisk path)
  apart p q hNe hP hQ :=
    hInv.apart p q hNe
      (hP.of_changed hTasks (hEntries p))
      (hQ.of_changed hTasks (hEntries q))

theorem consistent_register
    (hInv : Consistent H chunkDataSize sys)
    (path peerId hash : String)
    (size : ℕ) :
    Consistent H chunkDataSize
      (withNode
        (registerExpectedMetadata path peerId hash size
          sys.downloads.node) sys) := by
  apply hInv.refresh
  · rfl
  · rfl
  · intro other recv' hRecv
    exact changed_registerExpectedMetadata hRecv
  · intro other _
    dsimp only
    rw [registerExpectedMetadata_disk]
    exact Or.inl rfl

/- A removal takes the node away or leaves it. -/
theorem lookup_removeFrom_cases
    (H : Host)
    (disk : Disk)
    (loc : Loc) :
    (removeFrom H disk loc).lookup loc = disk.lookup loc ∨
      (removeFrom H disk loc).lookup loc = none := by
  unfold removeFrom
  cases hRemove : Filesystem.remove H disk loc with
  | none => exact Or.inl rfl
  | some disk' =>
      right
      rw [Option.getD_some, Filesystem.lookup_remove hRemove,
        if_pos rfl]

/- The check drops an entry with progress, or nothing. -/
theorem checkResumeEligibility_drops
    (H : Host)
    (path hash : String)
    (size : ℕ)
    (s : LocalState) :
    (checkResumeEligibility H path hash size s).2 = s ∨
      ∃ recv, s.receiving.lookup path = some recv ∧
        hasProgress recv = true ∧
        ((checkResumeEligibility H path hash size s).2 =
            eraseReceiving path s ∨
          (checkResumeEligibility H path hash size s).2 =
            eraseReceiving path
              (removeQuietly H (H.locate recv.tempPath)
                s)) := by
  unfold checkResumeEligibility
  cases hEntry : s.receiving.lookup path with
  | none => exact Or.inl rfl
  | some recv =>
      dsimp only
      cases hProgress : hasProgress recv with
      | false => exact Or.inl rfl
      | true =>
          rw [Bool.not_true, if_neg Bool.false_ne_true]
          split
          · exact Or.inr ⟨recv, rfl, hProgress,
              Or.inl rfl⟩
          · split
            · exact Or.inr ⟨recv, rfl, hProgress,
                Or.inr rfl⟩
            · exact Or.inl rfl

theorem marked_nonempty_of_hasProgress
    {recv : ReceivingFile}
    (hCounted : Counted recv)
    (hProgress : hasProgress recv = true) :
    (Bitmap.marked recv.receivedBitmap).Nonempty := by
  have hSome : recv.receivedChunks ≠ 0 := by
    simp only [hasProgress, Bool.and_eq_true,
      bne_iff_ne] at hProgress
    exact hProgress.2
  rw [hCounted.count, Nat.ne_zero_iff_zero_lt,
    List.count_pos_iff] at hSome
  rcases List.getElem?_of_mem hSome with ⟨i, hI⟩
  exact ⟨i, Bitmap.mem_marked_iff.mpr hI⟩

theorem WellFormed.temp_of_marked
    {recv : ReceivingFile}
    (hWell : WellFormed path recv)
    (hBits :
      (Bitmap.marked recv.receivedBitmap).Nonempty) :
    recv.tempPath = tempPathOf path := by
  rcases hBits with ⟨i, hI⟩
  have hInside := Bitmap.lt_length_of_mem_marked hI
  rw [hWell.counted.size] at hInside
  exact hWell.temp_eq (Nat.zero_lt_of_lt hInside)

theorem changed_of_erased
    {s : LocalState}
    {other : String}
    {recv' : ReceivingFile}
    (hRecv : (s.receiving.erase path).lookup other =
      some recv') :
    Changed (s.receiving.lookup other) recv' := by
  by_cases hOther : other = path
  · subst hOther
    rw [AList.lookup_erase] at hRecv
    cases hRecv
  · rw [AList.lookup_erase_ne hOther] at hRecv
    exact changed_of_eq hRecv

theorem consistent_checkResume
    (hInv : Consistent H chunkDataSize sys)
    (refusals : Refusals)
    (path hash : String)
    (size : ℕ) :
    Consistent H chunkDataSize
      (withNode
        (checkResumeEligibility (H.during refusals) path
          hash size sys.downloads.node).2 sys) := by
  rcases checkResumeEligibility_drops (H.during refusals)
    path hash size sys.downloads.node with
    hSame | ⟨recv, hEntry, hProgress, hDrop⟩
  · rw [hSame]
    apply hInv.refresh
    · rfl
    · rfl
    · intro other recv' hRecv
      exact changed_of_eq hRecv
    · intro other _
      exact Or.inl rfl
  · have hWell := (hInv.held path).well recv hEntry
    have hBits := marked_nonempty_of_hasProgress
      hWell.counted hProgress
    have hUse : InUse sys.downloads path :=
      Or.inl ⟨recv, hEntry, Or.inl hBits⟩
    have hTemp := WellFormed.temp_of_marked hWell hBits
    rcases hDrop with hErase | hRemove
    · rw [hErase]
      apply hInv.refresh
      · rfl
      · rfl
      · intro other recv' hRecv
        exact changed_of_erased hRecv
      · intro other _
        exact Or.inl rfl
    · rw [hRemove]
      apply hInv.refresh
      · rfl
      · rfl
      · intro other recv' hRecv
        exact changed_of_erased hRecv
      · intro other hOther
        change (removeFrom (H.during refusals)
            sys.downloads.node.disk
            (H.locate recv.tempPath)).lookup _ = _ ∨
          ((sys.downloads.node.receiving.erase path).lookup
              other = none ∧
            (removeFrom (H.during refusals)
              sys.downloads.node.disk
              (H.locate recv.tempPath)).lookup _ = none)
        rw [hTemp]
        by_cases hSame : other = path
        · subst hSame
          rcases lookup_removeFrom_cases
            (H.during refusals) sys.downloads.node.disk
            (H.locate (tempPathOf other)) with
            hStays | hGone
          · exact Or.inl hStays
          · exact Or.inr ⟨AList.lookup_erase _ _, hGone⟩
        · left
          apply lookup_removeFrom_of_ne
          exact hInv.apart other path hSame hOther hUse

/- One loop over the entries keeps the system consistent. -/
theorem consistent_updateEntries
    (hInv : Consistent H chunkDataSize sys)
    {update : String → ReceivingFile → Option ReceivingFile}
    (hUpdate : ∀ path recv recv',
      update path recv = some recv' →
      SameChunks recv recv') :
    Consistent H chunkDataSize
      (refresh (updateEntries update sys.downloads)
        sys) := by
  apply hInv.refresh
  · rfl
  · rfl
  · intro path recv' hRecv
    rw [lookup_updateEntries, Option.bind_eq_some_iff]
      at hRecv
    rcases hRecv with ⟨recv, hOld, hNew⟩
    exact Or.inl ⟨recv, hOld, hUpdate path recv recv' hNew⟩
  · intro path _
    exact Or.inl rfl

theorem consistent_cancel
    (hInv : Consistent H chunkDataSize sys)
    (peerId : String) :
    Consistent H chunkDataSize
      (refresh (cancelReceivesForPeer peerId sys.downloads)
        sys) := by
  apply consistent_updateEntries hInv
  exact fun _ _ _ => sameChunks_cancelledEntry

/- Some buffer is emptied. -/
theorem consistent_flush
    (hInv : Consistent H chunkDataSize sys)
    (path : String) :
    Consistent H chunkDataSize
      { sys with
        unflushed :=
          Function.update sys.unflushed path none } := by
  refine ⟨hInv.attached, fun other => ?_, hInv.apart⟩
  change HeldAt H other chunkDataSize (sys.stored other)
    (sys.saved other)
    (Function.update sys.unflushed path none other)
    sys.downloads
  by_cases hOther : other = path
  · subst hOther
    rw [Function.update_self]
    exact (hInv.held other).flush
  · rw [Function.update_of_ne hOther]
    exact hInv.held other

end Changes

------------------------------------------------------------
-- Persisting
------------------------------------------------------------

section Persisting

variable
  {H : Host}
  {chunkDataSize : ℕ}
  {sys : System}
  {path : String}

theorem node_persist
    (H' : Host)
    (m : Downloads) :
    (persistDownloadState H' m).node = m.node := by
  unfold persistDownloadState
  split
  · rfl
  · rfl

theorem attached_persist
    (H' : Host)
    (m : Downloads) :
    (persistDownloadState H' m).attached = m.attached := by
  unfold persistDownloadState
  split
  · rfl
  · rfl

theorem savedBits_taskOf
    {recv : ReceivingFile}
    (hCounted : Counted recv)
    (now : ℕ) :
    savedBits (taskOf now recv) =
      Bitmap.marked recv.receivedBitmap := by
  rw [savedBits, rebuild_taskOf hCounted]

/- What the rows were made from. -/
def persistStep
    (H' : Host)
    (sys : System) : System :=
  { sys with
    downloads := persistDownloadState H' sys.downloads
    saved := fun path =>
      if (sys.downloads.node.receiving.lookup path).isSome
      then
        sys.stored path
      else
        sys.saved path }

/- A row is made from the entry, or it is the old one. -/
theorem row_of_persistStep
    {H' : Host}
    (hAttached : sys.downloads.attached = true)
    {task : DownloadTaskRecord}
    (hTask : (persistStep H' sys).downloads.tasks.lookup
      path = some task) :
    (∃ recv,
      sys.downloads.node.receiving.lookup path =
        some recv ∧
      task = taskOf H'.now recv) ∨
    (sys.downloads.node.receiving.lookup path = none ∧
      sys.downloads.tasks.lookup path = some task) := by
  rw [persistStep, lookup_tasks_persist hAttached] at hTask
  cases hEntry : sys.downloads.node.receiving.lookup
      path with
  | none =>
      rw [hEntry] at hTask
      exact Or.inr ⟨rfl, hTask⟩
  | some recv =>
      rw [hEntry] at hTask
      exact Or.inl ⟨recv, rfl,
        (Option.some.inj hTask).symm⟩

/- With every buffer empty the rows promise what is there. -/
theorem consistent_persist
    (hInv : Consistent H chunkDataSize sys)
    (hFlushed : ∀ path, sys.unflushed path = none)
    (H' : Host) :
    Consistent H chunkDataSize (persistStep H' sys) := by
  have hNode : (persistStep H' sys).downloads.node =
      sys.downloads.node := node_persist H' sys.downloads
  refine ⟨(attached_persist H' sys.downloads).trans
    hInv.attached, fun path => ⟨?_, ?_, ?_, ?_, ?_⟩, ?_⟩
  · rw [hNode]
    exact (hInv.held path).well
  · rw [hNode]
    exact (hInv.held path).backed
  · intro u hU
    have hNone := hFlushed path
    rw [show sys.unflushed path = some u from hU] at hNone
    cases hNone
  · intro task hTask
    rcases row_of_persistStep hInv.attached hTask with
      ⟨recv, hEntry, hRow⟩ | ⟨-, hOld⟩
    · have hWell := (hInv.held path).well recv hEntry
      rw [hRow, rebuild_taskOf hWell.counted]
      exact hWell.of_sameChunks ⟨rfl, rfl, rfl, rfl, nofun⟩
    · exact (hInv.held path).rowWell task hOld
  · intro task hTask
    rw [hNode]
    rcases row_of_persistStep hInv.attached hTask with
      ⟨recv, hEntry, hRow⟩ | ⟨hNone, hOld⟩
    · have hWell := (hInv.held path).well recv hEntry
      have hBacked := (hInv.held path).backed recv hEntry
      have hSaved : (persistStep H' sys).saved path =
          sys.stored path := by
        simp [persistStep, hEntry]
      rw [hSaved, hRow, savedBits_taskOf hWell.counted]
      refine ⟨hBacked.short, ?_⟩
      intro hSome _
      rcases hBacked.bytes (Or.inl hSome) with
        ⟨file, hFile, hHolds⟩
      refine ⟨file, hFile, fun n => ?_⟩
      change Reassembly.Holds chunkDataSize _ _
        (durableContent chunkDataSize (sys.unflushed path) n
          file.content)
      rw [hFlushed path]
      exact hHolds
    · have hSaved : (persistStep H' sys).saved path =
          sys.saved path := by
        simp [persistStep, hNone]
      rw [hSaved]
      exact (hInv.held path).row task hOld
  · have hUse : ∀ path,
        InUse (persistStep H' sys).downloads path →
        InUse sys.downloads path := by
      intro path hUse
      rcases hUse with ⟨recv, hRecv, hBusy⟩ |
        ⟨task, hTask, hBits⟩
      · rw [hNode] at hRecv
        exact Or.inl ⟨recv, hRecv, hBusy⟩
      · rcases row_of_persistStep hInv.attached hTask with
          ⟨recv, hEntry, hRow⟩ | ⟨-, hOld⟩
        · have hWell := (hInv.held path).well recv hEntry
          rw [hRow, savedBits_taskOf hWell.counted]
            at hBits
          exact Or.inl ⟨recv, hEntry, Or.inl hBits⟩
        · exact Or.inr ⟨task, hOld, hBits⟩
    intro p q hNe hP hQ
    exact hInv.apart p q hNe (hUse p hP) (hUse q hQ)

/- An entry that timed out leaves nothing in a buffer. -/
theorem keepOpen_cleaned
    {expired : String → Bool}
    (hExpired : ∀ path,
      sys.unflushed path ≠ none →
      expired path = true ∧
        ∀ recv,
          sys.downloads.node.receiving.lookup path =
            some recv →
          recv.busy = false)
    (path : String) :
    keepOpen
        (updateEntries
          (fun path => cleanedEntry (expired path))
          sys.downloads).node
        sys.unflushed path = none := by
  cases hOpen : keepOpen
      (updateEntries
        (fun path => cleanedEntry (expired path))
        sys.downloads).node
      sys.unflushed path with
  | none => rfl
  | some u =>
      rcases keepOpen_eq_some hOpen with
        ⟨hU, recv', hRecv, hStream⟩
      rw [lookup_updateEntries, Option.bind_eq_some_iff]
        at hRecv
      rcases hRecv with ⟨recv, hEntry, hNew⟩
      rcases hExpired path (by rw [hU]; nofun) with
        ⟨hLate, hIdle⟩
      unfold cleanedEntry at hNew
      rw [hIdle recv hEntry, hLate,
        if_neg Bool.false_ne_true] at hNew
      split at hNew
      · cases hNew
      · rw [if_pos rfl] at hNew
        cases hNew
        cases hStream

theorem consistent_cleanup
    (hInv : Consistent H chunkDataSize sys)
    {expired : String → Bool}
    (hExpired : ∀ path,
      sys.unflushed path ≠ none →
      expired path = true ∧
        ∀ recv,
          sys.downloads.node.receiving.lookup path =
            some recv →
          recv.busy = false)
    (H' : Host) :
    Consistent H chunkDataSize
      (cleanupStep H' expired sys) := by
  have hCleaned : Consistent H chunkDataSize
      (refresh
        (updateEntries
          (fun path => cleanedEntry (expired path))
          sys.downloads) sys) := by
    apply consistent_updateEntries hInv
    exact fun _ _ _ => sameChunks_cleanedEntry
  have hPersisted := consistent_persist hCleaned
    (keepOpen_cleaned hExpired) H'
  have hSame : cleanupStep H' expired sys =
      persistStep H' (refresh
        (updateEntries
          (fun path => cleanedEntry (expired path))
          sys.downloads) sys) := by
    unfold cleanupStep persistStep refresh
    dsimp only
    rw [cleanupStaleBuffers, node_persist]
  rw [hSame]
  exact hPersisted

end Persisting

------------------------------------------------------------
-- Crashes
------------------------------------------------------------

section Crashes

variable
  {H : Host}
  {chunkDataSize : ℕ}
  {sys : System}
  {reached : String → ℕ}
  {path : String}

theorem lookup_foldl_cutWrite_of_ne
    {unflushed : String → Option Unflushed}
    {loc : Loc}
    (recvs : List (Σ _ : String, ReceivingFile))
    (disk : Disk)
    (hOther : ∀ recv ∈ recvs,
      unflushed recv.1 = none ∨
        loc ≠ H.locate recv.2.tempPath) :
    (recvs.foldl
      (cutWrite H chunkDataSize reached unflushed)
        disk).lookup loc = disk.lookup loc := by
  induction recvs generalizing disk with
  | nil => rfl
  | cons recv rest ih =>
      rw [List.foldl_cons, ih]
      · unfold cutWrite
        rcases hOther recv List.mem_cons_self with
          hNone | hNe
        · rw [hNone]
        · split
          · rfl
          · rw [Filesystem.lookup_writeFile, if_neg hNe]
      · exact fun other hMem =>
          hOther other (List.mem_cons_of_mem recv hMem)

/- The write of one path, when no other path writes there. -/
theorem lookup_foldl_cutWrite_of_mem
    {unflushed : String → Option Unflushed}
    {loc : Loc}
    {u : Unflushed}
    (hU : unflushed path = some u)
    (recvs : List (Σ _ : String, ReceivingFile))
    (disk : Disk)
    (hMem : ∃ recv ∈ recvs, recv.1 = path)
    (hSelf : ∀ recv ∈ recvs, recv.1 = path →
      loc = H.locate recv.2.tempPath)
    (hOther : ∀ recv ∈ recvs, recv.1 ≠ path →
      unflushed recv.1 = none ∨
        loc ≠ H.locate recv.2.tempPath) :
    (recvs.foldl
      (cutWrite H chunkDataSize reached unflushed)
        disk).lookup loc =
      some (.file
        ⟨u.reached chunkDataSize (reached path),
          H.now⟩) := by
  induction recvs generalizing disk with
  | nil =>
      rcases hMem with ⟨recv, hRecv, -⟩
      cases hRecv
  | cons recv rest ih =>
      rw [List.foldl_cons]
      by_cases hLater : ∃ recv ∈ rest, recv.1 = path
      · apply ih _ hLater
        · exact fun other hMem =>
            hSelf other (List.mem_cons_of_mem recv hMem)
        · exact fun other hMem =>
            hOther other (List.mem_cons_of_mem recv hMem)
      · rw [lookup_foldl_cutWrite_of_ne]
        · rcases hMem with ⟨other, hFound, hPath⟩
          rcases List.mem_cons.mp hFound with hHead | hTail
          · subst hHead
            have hLoc := hSelf other List.mem_cons_self hPath
            unfold cutWrite
            rw [hPath, hU]
            dsimp only
            rw [hLoc, Filesystem.lookup_writeFile,
              if_pos rfl]
          · exact absurd ⟨other, hTail, hPath⟩ hLater
        · intro other hTail
          apply hOther other
            (List.mem_cons_of_mem recv hTail)
          exact fun hPath =>
            hLater ⟨other, hTail, hPath⟩

/- What a crash leaves of a temporary file in use. -/
theorem lookup_durableDisk
    (reached : String → ℕ)
    (hInv : Consistent H chunkDataSize sys)
    (hUse : InUse sys.downloads path) :
    (durableDisk H chunkDataSize reached sys).lookup
        (H.locate (tempPathOf path)) =
      match sys.unflushed path with
      | none => sys.downloads.node.disk.lookup
          (H.locate (tempPathOf path))
      | some u => some (.file
          ⟨u.reached chunkDataSize (reached path),
            H.now⟩) := by
  have hLookup : ∀ recv ∈
      sys.downloads.node.receiving.entries,
        sys.downloads.node.receiving.lookup recv.1 =
          some recv.2 :=
    fun recv hRecv => AList.mem_lookup_iff.mpr hRecv
  have hOther : ∀ recv ∈
      sys.downloads.node.receiving.entries,
        recv.1 ≠ path →
        sys.unflushed recv.1 = none ∨
          H.locate (tempPathOf path) ≠
            H.locate recv.2.tempPath := by
    intro recv hRecv hNe
    cases hU : sys.unflushed recv.1 with
    | none => exact Or.inl rfl
    | some u =>
        rcases ((hInv.held recv.1).buffered u hU).stream with
          ⟨entry, hEntry, hStream, hTemp⟩
        rw [hLookup recv hRecv] at hEntry
        cases hEntry
        right
        rw [hTemp]
        exact (hInv.apart recv.1 path hNe
          (Or.inl ⟨recv.2, hLookup recv hRecv,
            Or.inr hStream⟩) hUse).symm
  unfold durableDisk
  cases hU : sys.unflushed path with
  | none =>
      apply lookup_foldl_cutWrite_of_ne
      intro recv hRecv
      by_cases hSame : recv.1 = path
      · rw [hSame]
        exact Or.inl hU
      · exact hOther recv hRecv hSame
  | some u =>
      rcases ((hInv.held path).buffered u hU).stream with
        ⟨entry, hEntry, -, hTemp⟩
      apply lookup_foldl_cutWrite_of_mem hU
      · exact ⟨⟨path, entry⟩,
          AList.mem_lookup_iff.mp hEntry, rfl⟩
      · intro recv hRecv hSame
        have hHere := hLookup recv hRecv
        rw [hSame, hEntry] at hHere
        rw [← Option.some.inj hHere, hTemp]
      · exact hOther

/- A row of a path with bits tells where they are. -/
theorem restored_of_row
    (hInv : Consistent H chunkDataSize sys)
    {task : DownloadTaskRecord}
    (hTask : sys.downloads.tasks.lookup path = some task)
    (hBits : (savedBits task).Nonempty)
    (hFound : tempFound H
      (durableDisk H chunkDataSize reached sys)
      task.tempPath = true) :
    ∃ file,
      (durableDisk H chunkDataSize reached sys).payload?
          (H.locate (tempPathOf path)) = some file ∧
        Reassembly.Holds chunkDataSize (sys.saved path)
          (savedBits task) file.content := by
  have hUse : InUse sys.downloads path :=
    Or.inr ⟨task, hTask, hBits⟩
  have hDurable := lookup_durableDisk reached hInv hUse
  have hTemp : task.tempPath = tempPathOf path :=
    WellFormed.temp_of_marked
      ((hInv.held path).rowWell task hTask) hBits
  rw [hTemp, tempFound, Bool.and_eq_true] at hFound
  have hRow := (hInv.held path).row task hTask
  cases hU : sys.unflushed path with
  | none =>
      rw [hU] at hDurable hRow
      have hExists := hFound.2
      rw [Filesystem.exists?, hDurable] at hExists
      rcases hRow.bytes hBits hExists with
        ⟨file, hFile, hHolds⟩
      rw [FileTree.payload?_congr hDurable]
      exact ⟨file, hFile, hHolds 0⟩
  | some u =>
      rw [hU] at hDurable hRow
      rcases ((hInv.held path).buffered u hU).file with
        ⟨seen, hSeen, -⟩
      have hExists : Filesystem.exists?
          sys.downloads.node.disk
          (H.locate (tempPathOf path)) = true := by
        rw [FileTree.payload?_eq_some_iff] at hSeen
        rw [Filesystem.exists?, hSeen]
        rfl
      rcases hRow.bytes hBits hExists with
        ⟨file, -, hHolds⟩
      refine ⟨_, (FileTree.payload?_eq_some_iff _ _ _).mpr
        hDurable, ?_⟩
      exact hHolds (reached path)

theorem attached_crashStep
    (H : Host)
    (chunkDataSize : ℕ)
    (reached : String → ℕ)
    (sys : System) :
    (crashStep H chunkDataSize reached
      sys).downloads.attached = true :=
  attached_load

theorem disk_crashStep
    (H : Host)
    (chunkDataSize : ℕ)
    (reached : String → ℕ)
    (sys : System) :
    (crashStep H chunkDataSize reached
        sys).downloads.node.disk =
      durableDisk H chunkDataSize reached sys :=
  disk_load

/- After a crash every entry is made from a row. -/
theorem exists_row_of_restored
    {recv : ReceivingFile}
    (hRecv : (crashStep H chunkDataSize reached
        sys).downloads.node.receiving.lookup path =
      some recv) :
    ∃ task,
      sys.downloads.tasks.lookup path = some task ∧
      tempFound H
          (durableDisk H chunkDataSize reached sys)
          task.tempPath = true ∧
      recv = rebuild task := by
  rw [crashStep, lookup_receiving_load rfl] at hRecv
  dsimp only at hRecv
  cases hTask : sys.downloads.tasks.lookup path with
  | none =>
      rw [hTask] at hRecv
      cases hRecv
  | some task =>
      rw [hTask] at hRecv
      dsimp only at hRecv
      split at hRecv
      next hFound =>
        exact ⟨task, rfl, hFound,
          (Option.some.inj hRecv).symm⟩
      next => cases hRecv

theorem row_of_crashStep
    {task : DownloadTaskRecord}
    (hTask : (crashStep H chunkDataSize reached
        sys).downloads.tasks.lookup path = some task) :
    sys.downloads.tasks.lookup path = some task ∧
      tempFound H
        (durableDisk H chunkDataSize reached sys)
        task.tempPath = true := by
  rw [crashStep, lookup_tasks_load rfl] at hTask
  dsimp only at hTask
  cases hRow : sys.downloads.tasks.lookup path with
  | none =>
      rw [hRow] at hTask
      cases hTask
  | some task' =>
      rw [hRow] at hTask
      dsimp only at hTask
      split at hTask
      next hFound =>
        cases hTask
        exact ⟨rfl, hFound⟩
      next => cases hTask

/- What is read back after a crash is consistent again. -/
theorem consistent_crash
    (hInv : Consistent H chunkDataSize sys)
    (reached : String → ℕ) :
    Consistent H chunkDataSize
      (crashStep H chunkDataSize reached sys) := by
  have hDisk := disk_crashStep H chunkDataSize reached sys
  have hHeld : ∀ path task,
      sys.downloads.tasks.lookup path = some task →
      tempFound H (durableDisk H chunkDataSize reached sys)
        task.tempPath = true →
      Backed H path chunkDataSize (sys.saved path)
        (rebuild task)
        (durableDisk H chunkDataSize reached sys) := by
    intro path task hTask hFound
    by_cases hBits : (savedBits task).Nonempty
    · rcases restored_of_row hInv hTask hBits hFound with
        ⟨file, hFile, hHolds⟩
      refine ⟨((hInv.held path).row task hTask).short, ?_⟩
      exact fun _ => ⟨file, hFile, hHolds⟩
    · rw [Set.not_nonempty_iff_eq_empty] at hBits
      exact backed_of_unmarked hBits rfl
  refine ⟨attached_crashStep H chunkDataSize reached sys,
    fun path => ⟨?_, ?_, ?_, ?_, ?_⟩, ?_⟩
  · intro recv hRecv
    rcases exists_row_of_restored hRecv with
      ⟨task, hTask, -, hSame⟩
    rw [hSame]
    exact (hInv.held path).rowWell task hTask
  · intro recv hRecv
    rcases exists_row_of_restored hRecv with
      ⟨task, hTask, hFound, hSame⟩
    rw [hSame, hDisk]
    exact hHeld path task hTask hFound
  · intro u hU
    cases hU
  · intro task hTask
    exact (hInv.held path).rowWell task
      (row_of_crashStep hTask).1
  · intro task hTask
    rcases row_of_crashStep hTask with ⟨hOld, hFound⟩
    have hBacked := hHeld path task hOld hFound
    rw [hDisk]
    refine ⟨hBacked.short, fun hSome _ => ?_⟩
    rcases hBacked.bytes (Or.inl hSome) with
      ⟨file, hFile, hHolds⟩
    exact ⟨file, hFile, fun _ => hHolds⟩
  · have hUse : ∀ path,
        InUse (crashStep H chunkDataSize reached
          sys).downloads path →
        InUse sys.downloads path := by
      intro path hUse
      rcases hUse with ⟨recv, hRecv, hBusy⟩ |
        ⟨task, hTask, hBits⟩
      · rcases exists_row_of_restored hRecv with
          ⟨task, hTask, -, hSame⟩
        rw [hSame] at hBusy
        exact Or.inr ⟨task, hTask,
          hBusy.resolve_right Bool.false_ne_true⟩
      · exact Or.inr ⟨task, (row_of_crashStep hTask).1,
          hBits⟩
    intro p q hNe hP hQ
    exact hInv.apart p q hNe (hUse p hP) (hUse q hQ)

/- A consistent system survives a crash. -/
theorem resumesOnDisk_of_consistent
    (hInv : Consistent H chunkDataSize sys) :
    ResumesOnDisk H chunkDataSize sys := by
  intro reached path recv hRecv hBits
  have hCrash := consistent_crash hInv reached
  have hTemp := WellFormed.temp_of_marked
    ((hCrash.held path).well recv hRecv) hBits
  rw [hTemp]
  exact ((hCrash.held path).backed recv hRecv).bytes
    (Or.inl hBits)

end Crashes

end DownloadCrash

end VeritasSync
