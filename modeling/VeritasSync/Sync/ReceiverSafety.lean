import VeritasSync.Sync.ChunkPhases

/-
  What the tasks of one path can rely on, however their
  phases interleave: the bits of the entry, its counter, and
  the bytes in its temporary file.

  Main declarations:
    * `ChunkPhases.ReceiverInvariant`
    * `ChunkPhases.Undisturbed`
    * `ChunkPhases.receiverInvariant_of_run`
-/

namespace VeritasSync

namespace ChunkPhases

open TransferManager

------------------------------------------------------------
-- The Receiver Invariant
------------------------------------------------------------

/- Every chunk of the entry has arrived. -/
def AllSet (entry : ReceivingFile) : Prop :=
  entry.receivedBitmap =
    List.replicate entry.totalChunks true

/- No task is in its write phase. -/
def Quiet (p : Receiver) : Prop :=
  ∀ task ∈ p.tasks, task.stage.waits = true

/-
  The map's entry has one bit a chunk, counts the set bits,
  and has their bytes in its temporary file.
-/
structure EntryIntact
    (H : Host)
    (chunkDataSize : ℕ)
    (p : Receiver)
    (k : ℕ) : Prop where
  size : (p.entries k).receivedBitmap.length =
    (p.entries k).totalChunks
  count : (p.entries k).receivedChunks =
    (p.entries k).receivedBitmap.count true
  bytes : (Bitmap.marked
      (p.entries k).receivedBitmap).Nonempty →
    ∃ file,
      p.node.disk.payload?
          (H.locate (p.entries k).tempPath) = some file ∧
      Reassembly.Holds chunkDataSize (p.stored k)
        (Bitmap.marked (p.entries k).receivedBitmap)
        file.content

/-
  The entry is intact while no task writes, and finalize was
  only called when every bit was set.
-/
structure ReceiverInvariant
    (H : Host)
    (chunkDataSize : ℕ)
    (p : Receiver) : Prop where
  intact : Quiet p → ∀ k, p.current = some k →
    EntryIntact H chunkDataSize p k
  finalized : ∀ entry ∈ p.finalized, AllSet entry

/-
  A chunk is written into an entry that has a bit for it, in
  its own place, and that is the map's entry unless the
  map's entry has received nothing.  No lookup starts an
  entry over between its last chunk and finalize.
-/
def Undisturbed
    (chunkDataSize : ℕ)
    (p : Receiver) : Event → Prop
| .lookup _ hdr _ =>
    ∀ task ∈ p.tasks,
      task.stage = .completing →
      p.current = some task.entry →
      (p.entries task.entry).totalChunks = hdr.totalChunks
| .store _ n =>
    ∀ task, p.tasks[n]? = some task →
      task.hdr.chunkIndex <
          (p.entries task.entry).totalChunks ∧
        task.hdr.uncompressedData.length ≤ chunkDataSize ∧
        ∀ k, p.current = some k →
          k = task.entry ∨
            (p.entries k).receivedChunks = 0
| _ => True

------------------------------------------------------------
-- Entries In Order
------------------------------------------------------------

/- What holds of entries and tasks whatever the disk is. -/
structure Tidy
    (path : String)
    (p : Receiver) : Prop where
  well : ∀ k, WellFormed path (p.entries k)
  below : ∀ task ∈ p.tasks, task.entry < p.fresh
  totals : ∀ task ∈ p.tasks,
    0 < (p.entries task.entry).totalChunks
  current : ∀ k, p.current = some k → k < p.fresh
  completing : ∀ task ∈ p.tasks,
    task.stage = .completing →
    AllSet (p.entries task.entry)
  finalized : ∀ entry ∈ p.finalized, AllSet entry

/- No task is about to take the entry out of the map. -/
def Staying (p : Receiver) : Prop :=
  ∀ task ∈ p.tasks, task.stage ≠ .leaving

/- The map's entry is backed as long as it stays. -/
def Sound
    (H : Host)
    (path : String)
    (chunkDataSize : ℕ)
    (p : Receiver) : Prop :=
  Staying p → ∀ k, p.current = some k →
    Backed H path chunkDataSize (p.stored k) (p.entries k)
      p.node.disk

section Tidy

variable
  {path : String}
  {p : Receiver}
  {n k : ℕ}
  {task : Task}
  {entry : ReceivingFile}
  {disk : Disk}

theorem tidy_start
    (path : String)
    (node : LocalState) :
    Tidy path (start node) where
  well _ := wellFormed_announced path "" "" 0
  below task hTask := by cases hTask
  totals task hTask := by cases hTask
  current k hCurrent := by cases hCurrent
  completing task hTask := by cases hTask
  finalized entry hEntry := by cases hEntry

theorem Tidy.setEntry
    (hTidy : Tidy path p)
    (hWell : WellFormed path entry)
    (hTotal : 0 < (p.entries k).totalChunks →
      0 < entry.totalChunks)
    (hAll : AllSet (p.entries k) → AllSet entry) :
    Tidy path (setEntry k entry disk p) := by
  have hOther : ∀ j, j ≠ k →
      (ChunkPhases.setEntry k entry disk p).entries j =
        p.entries j :=
    fun j hJ => Function.update_of_ne hJ _ _
  have hSelf : (ChunkPhases.setEntry k entry disk p).entries
      k = entry := Function.update_self _ _ _
  constructor
  · intro j
    by_cases hJ : j = k
    · rw [hJ, hSelf]
      exact hWell
    · rw [hOther j hJ]
      exact hTidy.well j
  · exact hTidy.below
  · intro task hTask
    by_cases hJ : task.entry = k
    · rw [hJ, hSelf]
      apply hTotal
      rw [← hJ]
      exact hTidy.totals task hTask
    · rw [hOther _ hJ]
      exact hTidy.totals task hTask
  · exact hTidy.current
  · intro task hTask hStage
    by_cases hJ : task.entry = k
    · rw [hJ, hSelf]
      apply hAll
      rw [← hJ]
      exact hTidy.completing task hTask hStage
    · rw [hOther _ hJ]
      exact hTidy.completing task hTask hStage
  · exact hTidy.finalized

theorem Tidy.moveTask
    (hTidy : Tidy path p)
    (hTask : p.tasks[n]? = some task)
    {stage : Stage}
    (hAll : stage = .completing →
      AllSet (p.entries task.entry)) :
    Tidy path (moveTask n task stage p) := by
  have hMem := List.mem_of_getElem? hTask
  constructor
  · exact hTidy.well
  · intro other hOther
    rcases List.mem_or_eq_of_mem_set hOther with hOld | hNew
    · exact hTidy.below other hOld
    · rw [hNew]
      exact hTidy.below task hMem
  · intro other hOther
    rcases List.mem_or_eq_of_mem_set hOther with hOld | hNew
    · exact hTidy.totals other hOld
    · rw [hNew]
      exact hTidy.totals task hMem
  · exact hTidy.current
  · intro other hOther hStage
    rcases List.mem_or_eq_of_mem_set hOther with hOld | hNew
    · exact hTidy.completing other hOld hStage
    · rw [hNew] at hStage ⊢
      exact hAll hStage
  · exact hTidy.finalized

theorem Tidy.endTask
    (hTidy : Tidy path p)
    (n : ℕ) :
    Tidy path (endTask n p) where
  well := hTidy.well
  below task hTask :=
    hTidy.below task (List.mem_of_mem_eraseIdx hTask)
  totals task hTask :=
    hTidy.totals task (List.mem_of_mem_eraseIdx hTask)
  current := hTidy.current
  completing task hTask :=
    hTidy.completing task (List.mem_of_mem_eraseIdx hTask)
  finalized := hTidy.finalized

/- Tasks at the slot of the map work on the map's entry. -/
theorem Tidy.current_of_slot
    (hTidy : Tidy path p)
    (hTask : task ∈ p.tasks)
    (hSlot : task.entry = p.slot) :
    p.current = some task.entry := by
  rw [hSlot, Receiver.slot]
  cases hCurrent : p.current with
  | none =>
      have hBelow := hTidy.below task hTask
      rw [hSlot, Receiver.slot, hCurrent] at hBelow
      exact absurd hBelow (Nat.lt_irrefl _)
  | some j => rfl

/- The map takes an entry in, in place of the old one. -/
theorem Tidy.setCurrent
    (hTidy : Tidy path p)
    (hWell : WellFormed path entry)
    (hTotal : ∀ recv, p.currentEntry = some recv →
      0 < recv.totalChunks → 0 < entry.totalChunks)
    (hAll : ∀ task ∈ p.tasks,
      task.stage = .completing →
      p.current = some task.entry →
      AllSet (p.entries task.entry) → AllSet entry) :
    Tidy path (p.setCurrent (some entry)) := by
  have hOther : ∀ j, j ≠ p.slot →
      (p.setCurrent (some entry)).entries j = p.entries j :=
    fun j hJ => Function.update_of_ne hJ _ _
  have hSelf : (p.setCurrent (some entry)).entries p.slot =
      entry := Function.update_self _ _ _
  have hFresh : (p.setCurrent (some entry)).fresh =
      max p.fresh (p.slot + 1) := rfl
  constructor
  · intro j
    by_cases hJ : j = p.slot
    · rw [hJ, hSelf]
      exact hWell
    · rw [hOther j hJ]
      exact hTidy.well j
  · intro task hTask
    have hBelow := hTidy.below task hTask
    rw [hFresh]
    omega
  · intro task hTask
    by_cases hJ : task.entry = p.slot
    · rw [hJ, hSelf]
      apply hTotal (p.entries task.entry)
      · rw [Receiver.currentEntry,
          hTidy.current_of_slot hTask hJ]
        rfl
      · exact hTidy.totals task hTask
    · rw [hOther _ hJ]
      exact hTidy.totals task hTask
  · intro k hCurrent
    have hSlot : p.slot = k := Option.some.inj hCurrent
    rw [hFresh, hSlot]
    omega
  · intro task hTask hStage
    by_cases hJ : task.entry = p.slot
    · rw [hJ, hSelf]
      exact hAll task hTask hStage
        (hTidy.current_of_slot hTask hJ)
        (hTidy.completing task hTask hStage)
    · rw [hOther _ hJ]
      exact hTidy.completing task hTask hStage
  · exact hTidy.finalized

theorem Tidy.dropCurrent (hTidy : Tidy path p) :
    Tidy path (p.setCurrent none) where
  well := hTidy.well
  below := hTidy.below
  totals := hTidy.totals
  current _ hCurrent := by cases hCurrent
  completing := hTidy.completing
  finalized := hTidy.finalized

/- A new task of an entry that knows its total. -/
theorem Tidy.addTask
    (hTidy : Tidy path p)
    (hBelow : task.entry < p.fresh)
    (hTotal : 0 < (p.entries task.entry).totalChunks)
    (hWaits : task.stage.waits = true) :
    Tidy path { p with tasks := p.tasks ++ [task] } := by
  have hCases : ∀ other ∈ p.tasks ++ [task],
      other ∈ p.tasks ∨ other = task := by
    intro other hOther
    simpa using hOther
  constructor
  · exact hTidy.well
  · intro other hOther
    rcases hCases other hOther with hOld | hNew
    · exact hTidy.below other hOld
    · rw [hNew]
      exact hBelow
  · intro other hOther
    rcases hCases other hOther with hOld | hNew
    · exact hTidy.totals other hOld
    · rw [hNew]
      exact hTotal
  · exact hTidy.current
  · intro other hOther hStage
    rcases hCases other hOther with hOld | hNew
    · exact hTidy.completing other hOld hStage
    · rw [hNew] at hStage
      rw [hStage] at hWaits
      cases hWaits
  · exact hTidy.finalized

end Tidy

------------------------------------------------------------
-- Tasks That Stay
------------------------------------------------------------

section Staying

variable
  {H : Host}
  {path : String}
  {chunkDataSize : ℕ}
  {p : Receiver}
  {n : ℕ}
  {task : Task}

/- All tasks stay when this one does and the others do. -/
theorem staying_of_others
    (hTask : p.tasks[n]? = some task)
    (hStage : task.stage ≠ .leaving)
    (hOthers : ∀ m other, m ≠ n →
      p.tasks[m]? = some other → other.stage ≠ .leaving) :
    Staying p := by
  intro other hOther
  rcases List.getElem?_of_mem hOther with ⟨m, hM⟩
  by_cases hSame : m = n
  · rw [hSame, hTask] at hM
    rw [← Option.some.inj hM]
    exact hStage
  · exact hOthers m other hSame hM

theorem staying_of_set
    (hTask : p.tasks[n]? = some task)
    (hStage : task.stage ≠ .leaving)
    {task' : Task}
    (hStaying : ∀ other ∈ p.tasks.set n task',
      other.stage ≠ .leaving) :
    Staying p := by
  apply staying_of_others hTask hStage
  intro m other hOther hM
  apply hStaying other
  apply List.mem_of_getElem? (i := m)
  rw [List.getElem?_set_ne (Ne.symm hOther)]
  exact hM

theorem staying_of_eraseIdx
    (hTask : p.tasks[n]? = some task)
    (hStage : task.stage ≠ .leaving)
    (hStaying : ∀ other ∈ p.tasks.eraseIdx n,
      other.stage ≠ .leaving) :
    Staying p := by
  apply staying_of_others hTask hStage
  intro m other hOther hM
  apply hStaying other
  rw [List.mem_eraseIdx_iff_getElem?]
  exact ⟨m, hOther, hM⟩

/- Nothing is promised while a task leaves. -/
theorem sound_of_leaving
    (hTask : p.tasks[n]? = some task) :
    Sound H path chunkDataSize
      (moveTask n task .leaving p) := by
  intro hStaying
  have hMem : { task with stage := .leaving } ∈
      (moveTask n task .leaving p).tasks := by
    apply List.mem_of_getElem? (i := n)
    rw [moveTask, List.getElem?_set_self]
    exact (List.getElem?_eq_some_iff.mp hTask).choose
  exact absurd rfl (hStaying _ hMem)

/- Nothing is promised of a path without an entry. -/
theorem sound_of_none (hNone : p.current = none) :
    Sound H path chunkDataSize p := by
  intro _ k hCurrent
  rw [hNone] at hCurrent
  cases hCurrent

end Staying

------------------------------------------------------------
-- Steps Keep Order
------------------------------------------------------------

/- The receiver is in order, and so is its file. -/
structure Ordered
    (H : Host)
    (path : String)
    (chunkDataSize : ℕ)
    (p : Receiver) : Prop where
  tidy : Tidy path p
  sound : Sound H path chunkDataSize p

section Steps

variable
  {H : Host}
  {path : String}
  {chunkDataSize : ℕ}
  {refusals : Refusals}
  {p : Receiver}
  {n : ℕ}
  {task : Task}

theorem Tidy.reuse
    (hTidy : Tidy path p)
    (node : LocalState)
    (stored : ℕ → ℕ → Content) :
    Tidy path { p with node := node, stored := stored } where
  well := hTidy.well
  below := hTidy.below
  totals := hTidy.totals
  current := hTidy.current
  completing := hTidy.completing
  finalized := hTidy.finalized

/- The receiver with an entry that was handed out. -/
theorem Ordered.hand
    (hOrdered : Ordered H path chunkDataSize p)
    {total : ℕ}
    (hTotal : 0 < total)
    {s : LocalState}
    {entry : ReceivingFile}
    (hHanded : Handed path total p.currentEntry p.node.disk
      s.disk entry)
    (hCondition : ∀ task ∈ p.tasks,
      task.stage = .completing →
      p.current = some task.entry →
      (p.entries task.entry).totalChunks = total)
    (hSlot : task.entry = p.slot)
    (hWaits : task.stage.waits = true) :
    Ordered H path chunkDataSize
      { p.setCurrent (some entry) with
        node := s
        tasks := p.tasks ++ [task] } := by
  have hSelf : (p.setCurrent (some entry)).entries p.slot =
      entry := Function.update_self _ _ _
  constructor
  · apply Tidy.addTask (p := { p.setCurrent (some entry) with
      node := s })
    · refine Tidy.reuse ?_ s p.stored
      apply hOrdered.tidy.setCurrent hHanded.well
      · intro _ _ _
        rw [hHanded.count]
        exact hTotal
      · intro other hOther hStage hCurrent hAll
        have hSame := hCondition other hOther hStage hCurrent
        have hEntry : p.currentEntry =
            some (p.entries other.entry) := by
          rw [Receiver.currentEntry, hCurrent]
          rfl
        rw [AllSet, hHanded.count, ← hSame,
          hHanded.same _ hEntry hSame hTotal]
        exact hAll
    · change task.entry < max p.fresh (p.slot + 1)
      omega
    · change 0 < ((p.setCurrent (some entry)).entries
        task.entry).totalChunks
      rw [hSlot, hSelf, hHanded.count]
      exact hTotal
    · exact hWaits
  · intro hStaying k hCurrent
    have hK : p.slot = k := Option.some.inj hCurrent
    subst hK
    change Backed H path chunkDataSize (p.stored p.slot)
      ((p.setCurrent (some entry)).entries p.slot) s.disk
    rw [hSelf]
    rcases hHanded.bits with ⟨hMarks, hClosed⟩ |
      ⟨recv, hEntry, hMarks, hStream, hDisk⟩
    · exact backed_of_unmarked hMarks hClosed
    · rcases exists_current_of_currentEntry hEntry with
        ⟨hOld, hRecv⟩
      have hBefore : Staying p := fun other hOther =>
        hStaying other (List.mem_append_left _ hOther)
      have hBacked := hOrdered.sound hBefore p.slot hOld
      rw [hRecv] at hBacked
      rw [hDisk]
      apply hBacked.mono hMarks
      · rw [hStream]
        exact id
      · exact fun _ hFile => hFile

/- A lookup hands out an entry in order. -/
theorem Ordered.lookup
    (hOrdered : Ordered H path chunkDataSize p)
    {hdr : ChunkHeader}
    (hPath : hdr.filePath = path)
    (hCondition : ∀ task ∈ p.tasks,
      task.stage = .completing →
      p.current = some task.entry →
      (p.entries task.entry).totalChunks = hdr.totalChunks)
    (peerId : String) :
    Ordered H path chunkDataSize
      (lookupPhase (H.during refusals) hdr peerId p) := by
  subst hPath
  by_cases hValid : validateChunkHeader hdr = true
  case neg =>
    rw [Bool.not_eq_true] at hValid
    simp only [lookupPhase, hValid, Bool.not_false, if_true]
    exact hOrdered
  cases hLookup : lookupOrCreateReceiving
      (H.during refusals) hdr.filePath hdr.totalChunks peerId
      (p.view hdr.filePath) with
  | mk found s =>
      cases found with
      | none =>
          simp only [lookupPhase, hValid, hLookup,
            Bool.not_true, Bool.false_eq_true, if_false]
          exact hOrdered
      | some found =>
          rw [lookupPhase_of_found hValid hLookup]
          have hTotal : 0 < hdr.totalChunks := by
            simp only [validateChunkHeader,
              Bool.and_eq_true, bne_iff_ne] at hValid
            omega
          have hHanded := handed_of_lookup (by
            intro recv hRecv
            rw [lookup_view] at hRecv
            rw [← (exists_current_of_currentEntry hRecv).2]
            exact hOrdered.tidy.well _) hTotal hLookup
          rw [lookup_view] at hHanded
          exact hOrdered.hand hTotal hHanded hCondition
            rfl rfl

/- Taking the lock and opening the stream keeps order. -/
theorem Ordered.prepare
    (hOrdered : Ordered H path chunkDataSize p)
    (hTask : p.tasks[n]? = some task)
    {needOpenStream needCreateDirs : Bool}
    (hStage : task.stage =
      .found needOpenStream needCreateDirs) :
    Ordered H path chunkDataSize
      (preparePhase (H.during refusals) n task
        needOpenStream needCreateDirs p) := by
  have hWell := hOrdered.tidy.well task.entry
  have hTemp := hWell.temp_eq (hOrdered.tidy.totals task
    (List.mem_of_getElem? hTask))
  have hNotLeaving : task.stage ≠ .leaving := by
    rw [hStage]
    intro hEq
    cases hEq
  unfold preparePhase
  dsimp only
  cases hPrepare : prepareStream (H.during refusals)
      task.hdr.filePath
      ⟨p.entries task.entry, needOpenStream, needCreateDirs⟩
      p.node.disk with
  | mk disk opened =>
      cases opened with
      | false =>
          constructor
          · apply Tidy.moveTask
            · exact hOrdered.tidy.setEntry hWell id id
            · exact hTask
            · intro hEq
              cases hEq
          · exact sound_of_leaving hTask
      | true =>
          rcases prepareStream_opened hPrepare with
            ⟨hKeeps, hFile⟩
          constructor
          · apply Tidy.moveTask
            · apply hOrdered.tidy.setEntry
              · exact ⟨⟨hWell.counted.size,
                  hWell.counted.count⟩, hWell.temp⟩
              · exact fun hTotal => hTotal
              · exact fun hAll => hAll
            · exact hTask
            · intro hEq
              cases hEq
          · intro hStaying k hCurrent
            have hBefore := staying_of_set hTask hNotLeaving
              hStaying
            have hBacked := hOrdered.sound hBefore k hCurrent
            change Backed H path chunkDataSize (p.stored k)
              (Function.update p.entries task.entry
                { p.entries task.entry with
                  streamOpen := true } k) disk
            by_cases hK : k = task.entry
            · subst hK
              rw [Function.update_self]
              apply hBacked.open hKeeps
              intro hClosed
              rw [← hTemp]
              exact hFile hClosed
            · rw [Function.update_of_ne hK]
              exact hBacked.mono rfl id (hKeeps _)

/- An entry with every bit set takes no further chunk. -/
theorem mem_marked_of_allSet
    {entry : ReceivingFile}
    (hAll : AllSet entry)
    {i : ℕ}
    (hInside : i < entry.totalChunks) :
    i ∈ Bitmap.marked entry.receivedBitmap := by
  rw [Bitmap.mem_marked_iff, hAll,
    List.getElem?_replicate_of_lt hInside]

theorem allSet_of_forall
    {entry : ReceivingFile}
    (hCounted : Counted entry)
    (hEvery : ∀ i < entry.totalChunks,
      i ∈ Bitmap.marked entry.receivedBitmap) :
    AllSet entry := by
  rw [← hCounted.size, Bitmap.forall_marked_iff] at hEvery
  have hCount : entry.receivedBitmap.count true =
      entry.receivedBitmap.length :=
    Nat.le_antisymm List.count_le_length hEvery
  rw [AllSet, ← hCounted.size]
  apply List.eq_replicate_of_mem
  intro bit hBit
  rw [List.count_eq_length] at hCount
  exact (hCount bit hBit).symm

/- What is written backs the map's entry. -/
theorem Ordered.backed_written
    (hOrdered : Ordered H path chunkDataSize p)
    (hStaying : Staying p)
    (hTemp : (p.entries task.entry).tempPath =
      tempPathOf path)
    (hOpen : (p.entries task.entry).streamOpen = true)
    (hInside : task.hdr.chunkIndex <
      (p.entries task.entry).totalChunks)
    (hFresh : task.hdr.chunkIndex ∉ Bitmap.marked
      (p.entries task.entry).receivedBitmap)
    (hShort :
      task.hdr.uncompressedData.length ≤ chunkDataSize)
    (hAlone : ∀ k, p.current = some k →
      k = task.entry ∨ (p.entries k).receivedChunks = 0)
    (H' : Host)
    {entry : ReceivingFile}
    (hBits : entry.receivedBitmap =
      (markChunk task.hdr.chunkIndex
        (p.entries task.entry)).receivedBitmap)
    {k : ℕ}
    (hCurrent : p.current = some k) :
    Backed H path chunkDataSize
      (Function.update p.stored task.entry
        (Function.update (p.stored task.entry)
          task.hdr.chunkIndex task.hdr.uncompressedData) k)
      (Function.update p.entries task.entry entry k)
      (writeStream H' p.node.disk
        (H.locate (p.entries task.entry).tempPath)
        (task.hdr.chunkIndex * chunkDataSize)
        task.hdr.uncompressedData) := by
  have hBacked := hOrdered.sound hStaying k hCurrent
  have hCounted := (hOrdered.tidy.well task.entry).counted
  rw [hTemp]
  by_cases hK : k = task.entry
  · subst hK
    rw [Function.update_self, Function.update_self]
    have hBelow := hCounted.size ▸ hInside
    have hMarked := hBacked.markChunk hOpen hBelow hFresh
      hShort H'
    apply hMarked.mono
    · rw [hBits]
    · exact fun _ => hOpen
    · exact fun _ hFile => hFile
  · rw [Function.update_of_ne hK, Function.update_of_ne hK]
    apply hBacked.writeStream_of_unmarked
    have hNone := (hAlone k hCurrent).resolve_left hK
    rw [(hOrdered.tidy.well k).counted.count,
      List.count_eq_zero] at hNone
    rw [Set.eq_empty_iff_forall_notMem]
    intro i hMark
    rw [Bitmap.mem_marked_iff] at hMark
    exact hNone (List.mem_of_getElem? hMark)

theorem streamOpen_of_writes
    {H' : Host}
    {entry : ReceivingFile}
    {loc : Loc}
    (hWrites : (onStream H' entry).writeFails loc = false) :
    entry.streamOpen = true := by
  simp only [onStream, Bool.or_eq_false_iff,
    Bool.not_eq_false'] at hWrites
  exact hWrites.1

/- A duplicate ends its task and leaves the bytes alone. -/
theorem Ordered.keep
    (hOrdered : Ordered H path chunkDataSize p)
    (hTask : p.tasks[n]? = some task)
    (hNotLeaving : task.stage ≠ .leaving)
    {entry : ReceivingFile}
    (hSame : SameChunks (p.entries task.entry) entry) :
    Ordered H path chunkDataSize
      (endTask n
        (setEntry task.entry entry p.node.disk p)) := by
  constructor
  · apply Tidy.endTask
    apply hOrdered.tidy.setEntry
    · exact (hOrdered.tidy.well
        task.entry).of_sameChunks hSame
    · rw [hSame.total]
      exact id
    · unfold AllSet
      rw [hSame.bitmap, hSame.total]
      exact id
  · intro hStaying k hCurrent
    have hBefore := staying_of_eraseIdx hTask hNotLeaving
      hStaying
    have hBacked := hOrdered.sound hBefore k hCurrent
    change Backed H path chunkDataSize (p.stored k)
      (Function.update p.entries task.entry entry k)
      p.node.disk
    by_cases hK : k = task.entry
    · subst hK
      rw [Function.update_self]
      apply hBacked.mono
      · rw [hSame.bitmap]
      · exact hSame.stream
      · exact fun _ hFile => hFile
    · rw [Function.update_of_ne hK]
      exact hBacked

/- An entry with one more bit is in order. -/
theorem Ordered.tidy_marked
    (hOrdered : Ordered H path chunkDataSize p)
    (hInside : task.hdr.chunkIndex <
      (p.entries task.entry).totalChunks)
    (hFresh : task.hdr.chunkIndex ∉ Bitmap.marked
      (p.entries task.entry).receivedBitmap)
    {entry : ReceivingFile}
    (hSame : SameChunks
      (markChunk task.hdr.chunkIndex
        (p.entries task.entry)) entry)
    (disk : Disk)
    (stored : ℕ → ℕ → Content) :
    Tidy path (setEntry task.entry entry disk
      { p with stored := stored }) := by
  have hWell := hOrdered.tidy.well task.entry
  have hMarked : WellFormed path
      (markChunk task.hdr.chunkIndex
        (p.entries task.entry)) :=
    ⟨hWell.counted.markChunk hInside hFresh, hWell.temp⟩
  apply (hOrdered.tidy.reuse p.node stored).setEntry
  · exact hMarked.of_sameChunks hSame
  · rw [hSame.total]
    exact id
  · intro hAll
    exact absurd (mem_marked_of_allSet hAll hInside) hFresh

/- Storing a chunk under its condition keeps order. -/
theorem Ordered.store
    (hOrdered : Ordered H path chunkDataSize p)
    (hTask : p.tasks[n]? = some task)
    (hStage : task.stage = .opened)
    (hInside : task.hdr.chunkIndex <
      (p.entries task.entry).totalChunks)
    (hShort :
      task.hdr.uncompressedData.length ≤ chunkDataSize)
    (hAlone : ∀ k, p.current = some k →
      k = task.entry ∨ (p.entries k).receivedChunks = 0) :
    Ordered H path chunkDataSize
      (storePhase (H.during refusals) chunkDataSize n task
        p) := by
  have hWell := hOrdered.tidy.well task.entry
  have hTemp := hWell.temp_eq (hOrdered.tidy.totals task
    (List.mem_of_getElem? hTask))
  have hBelow := hWell.counted.size ▸ hInside
  have hNotLeaving : task.stage ≠ .leaving := by
    rw [hStage]
    intro hEq
    cases hEq
  have hCases := storeChunk_cases
    (onStream (H.during refusals) (p.entries task.entry))
    chunkDataSize p.node.disk hWell.counted hInside
  dsimp only at hCases
  unfold storePhase
  dsimp only
  rcases hCases with ⟨hMarked, hStore⟩ |
    ⟨hFresh, hFails, hStore⟩ |
    ⟨hFresh, hWrites, hEvery, hStore⟩ |
    ⟨hFresh, hWrites, hMissing, hStore⟩
  · -- a duplicate
    rw [hStore, noteStored_of_marked hMarked,
      Function.update_eq_self]
    exact hOrdered.keep hTask hNotLeaving
      ⟨rfl, rfl, rfl, rfl, id⟩
  · -- a failed write
    rw [hStore]
    constructor
    · apply Tidy.moveTask
      · apply (hOrdered.tidy.reuse p.node _).setEntry
        · exact hWell.of_sameChunks
            ⟨rfl, rfl, rfl, rfl, nofun⟩
        · exact fun hTotal => hTotal
        · exact fun hAll => hAll
      · exact hTask
      · intro hEq
        cases hEq
    · exact sound_of_leaving hTask
  · -- the last chunk
    rw [hStore, noteStored_of_fresh hBelow hFresh]
    dsimp only
    constructor
    · apply Tidy.moveTask
      · exact hOrdered.tidy_marked hInside hFresh
          (SameChunks.refl _) _ _
      · exact hTask
      · intro _
        change AllSet (Function.update p.entries task.entry
          (markChunk task.hdr.chunkIndex
            (p.entries task.entry)) task.entry)
        rw [Function.update_self]
        apply allSet_of_forall
        · exact hWell.counted.markChunk hInside hFresh
        · intro i hI
          rw [markChunk, Bitmap.marked_set hBelow]
          exact hEvery i hI
    · intro hStaying k hCurrent
      have hBefore := staying_of_set hTask hNotLeaving
        hStaying
      exact hOrdered.backed_written hBefore hTemp
        (streamOpen_of_writes hWrites) hInside hFresh hShort
        hAlone _ rfl hCurrent
  · -- a chunk before the last
    rw [hStore, noteStored_of_fresh hBelow hFresh]
    dsimp only
    constructor
    · apply Tidy.endTask
      apply hOrdered.tidy_marked hInside hFresh
      exact ⟨rfl, rfl, rfl, rfl, id⟩
    · intro hStaying k hCurrent
      have hBefore := staying_of_eraseIdx hTask hNotLeaving
        hStaying
      refine hOrdered.backed_written hBefore hTemp
        (streamOpen_of_writes hWrites) hInside hFresh hShort
        hAlone _ ?_ hCurrent
      rfl

/- Finalize takes a complete entry; then it leaves. -/
theorem Ordered.finalize
    (hOrdered : Ordered H path chunkDataSize p)
    (hTask : p.tasks[n]? = some task)
    (hStage : task.stage = .completing) :
    Ordered H path chunkDataSize
      (finalizePhase (H.during refusals) n task p) := by
  have hWell := hOrdered.tidy.well task.entry
  have hAll := hOrdered.tidy.completing task
    (List.mem_of_getElem? hTask) hStage
  have hClosed : Tidy path (setEntry task.entry
      { p.entries task.entry with streamOpen := false }
      p.node.disk p) := by
    apply hOrdered.tidy.setEntry
    · exact hWell.of_sameChunks ⟨rfl, rfl, rfl, rfl, nofun⟩
    · exact fun hTotal => hTotal
    · exact fun hSet => hSet
  constructor
  · apply Tidy.moveTask
    · refine ⟨hClosed.well, hClosed.below, hClosed.totals,
        hClosed.current, hClosed.completing, ?_⟩
      intro entry hEntry
      rcases List.mem_cons.mp hEntry with hNew | hOld
      · rw [hNew]
        exact hAll
      · exact hOrdered.tidy.finalized entry hOld
    · exact hTask
    · intro hEq
      cases hEq
  · exact sound_of_leaving hTask

/- Whatever leaves the map leaves nothing to promise. -/
theorem Ordered.erase
    (hOrdered : Ordered H path chunkDataSize p)
    (n : ℕ) :
    Ordered H path chunkDataSize (erasePhase n p) where
  tidy := hOrdered.tidy.dropCurrent.endTask n
  sound := sound_of_none rfl

/-
  An entry that is changed under the lock of the map, with
  its bits and no stream of its own.
-/
theorem Ordered.update
    (hOrdered : Ordered H path chunkDataSize p)
    (entry : Option ReceivingFile)
    (hChanged : ∀ recv', entry = some recv' →
      Changed p.currentEntry recv') :
    Ordered H path chunkDataSize (p.setCurrent entry) := by
  cases entry with
  | none =>
      exact ⟨hOrdered.tidy.dropCurrent, sound_of_none rfl⟩
  | some recv' =>
      have hSelf : (p.setCurrent (some recv')).entries
          p.slot = recv' := Function.update_self _ _ _
      have hRecord := hChanged recv' rfl
      have hWell : WellFormed path recv' := by
        apply hRecord.wellFormed
        intro recv hRecv
        rw [← (exists_current_of_currentEntry hRecv).2]
        exact hOrdered.tidy.well p.slot
      rcases hRecord with ⟨recv, hEntry, hKeeps⟩ |
        ⟨hNone, peerId, hash, size, hAnnounced⟩
      · rcases exists_current_of_currentEntry hEntry with
          ⟨hOld, hRecv⟩
        constructor
        · apply hOrdered.tidy.setCurrent hWell
          · intro other hOther hTotal
            rw [hEntry] at hOther
            cases hOther
            rw [hKeeps.total]
            exact hTotal
          · intro task hTask _ hCurrent hAll
            rw [hOld] at hCurrent
            rw [← Option.some.inj hCurrent, hRecv] at hAll
            rw [AllSet, hKeeps.bitmap, hKeeps.total]
            exact hAll
        · intro hStaying k hCurrent
          have hK : p.slot = k := Option.some.inj hCurrent
          have hBacked := hOrdered.sound hStaying p.slot hOld
          rw [hRecv] at hBacked
          rw [← hK, hSelf]
          apply hBacked.mono
          · rw [hKeeps.bitmap]
          · exact hKeeps.stream
          · exact fun _ hFile => hFile
      · constructor
        · apply hOrdered.tidy.setCurrent hWell
          · intro recv hRecv
            rw [hNone] at hRecv
            cases hRecv
          · intro task hTask _ hCurrent
            rw [Receiver.currentEntry, hCurrent] at hNone
            cases hNone
        · intro _ k hCurrent
          have hK : p.slot = k := Option.some.inj hCurrent
          rw [← hK, hSelf, hAnnounced]
          exact backed_of_unmarked
            (Bitmap.marked_replicate 0) rfl

theorem Ordered.register
    (hOrdered : Ordered H path chunkDataSize p)
    (peerId hash : String)
    (size : ℕ) :
    Ordered H path chunkDataSize
      (p.setCurrent ((registerExpectedMetadata path peerId
        hash size (p.view path)).receiving.lookup path)) := by
  apply hOrdered.update
  intro recv' hRecv
  have hChanged := changed_registerExpectedMetadata hRecv
  rw [lookup_view] at hChanged
  exact hChanged

/- One loop over the map changes no chunk. -/
theorem Ordered.bind
    (hOrdered : Ordered H path chunkDataSize p)
    {change : ReceivingFile → Option ReceivingFile}
    (hChange : ∀ recv recv', change recv = some recv' →
      SameChunks recv recv') :
    Ordered H path chunkDataSize
      (p.setCurrent (p.currentEntry.bind change)) := by
  apply hOrdered.update
  intro recv' hRecv
  rw [Option.bind_eq_some_iff] at hRecv
  rcases hRecv with ⟨recv, hEntry, hNew⟩
  exact Or.inl ⟨recv, hEntry, hChange recv recv' hNew⟩

end Steps

------------------------------------------------------------
-- Runs
------------------------------------------------------------

section Runs

variable
  {H : Host}
  {path : String}
  {chunkDataSize : ℕ}
  {p p' : Receiver}

theorem ordered_start
    (H : Host)
    (path : String)
    (chunkDataSize : ℕ)
    (node : LocalState) :
    Ordered H path chunkDataSize (start node) where
  tidy := tidy_start path node
  sound := sound_of_none rfl

/- Every step under its condition keeps order. -/
theorem ordered_of_step
    (event : Event)
    (hOrdered : Ordered H path chunkDataSize p)
    (hCondition : Undisturbed chunkDataSize p event)
    (hStep : step H path chunkDataSize p event =
      some p') :
    Ordered H path chunkDataSize p' := by
  cases event with
  | lookup refusals hdr peerId =>
      rcases step_lookup_eq_some_iff.mp hStep with
        ⟨hPath, rfl⟩
      exact hOrdered.lookup hPath hCondition peerId
  | prepare refusals n =>
      rcases step_prepare_eq_some_iff.mp hStep with
        ⟨task, _, _, hTask, hStage, -, rfl⟩
      exact hOrdered.prepare hTask hStage
  | store refusals n =>
      rcases step_store_eq_some_iff.mp hStep with
        ⟨task, hTask, hStage, rfl⟩
      rcases hCondition task hTask with
        ⟨hInside, hShort, hAlone⟩
      exact hOrdered.store hTask hStage hInside hShort
        hAlone
  | finalize refusals n =>
      rcases step_finalize_eq_some_iff.mp hStep with
        ⟨task, hTask, hStage, rfl⟩
      exact hOrdered.finalize hTask hStage
  | erase n =>
      rcases step_erase_eq_some_iff.mp hStep with
        ⟨task, hTask, -, rfl⟩
      exact hOrdered.erase n
  | register peerId hash size =>
      cases hStep
      exact hOrdered.register peerId hash size
  | cleanup expired =>
      cases hStep
      apply hOrdered.bind
      exact fun _ _ => sameChunks_cleanedEntry
  | cancel peerId =>
      cases hStep
      apply hOrdered.bind
      exact fun _ _ => sameChunks_cancelledEntry

/- A receiver in order has the receiver invariant. -/
theorem receiverInvariant_of_ordered
    (hOrdered : Ordered H path chunkDataSize p) :
    ReceiverInvariant H chunkDataSize p where
  intact hQuiet k hCurrent := by
    have hWell := hOrdered.tidy.well k
    have hStaying : Staying p := by
      intro task hTask hLeaving
      have hWaits := hQuiet task hTask
      rw [hLeaving] at hWaits
      cases hWaits
    have hBacked := hOrdered.sound hStaying k hCurrent
    refine ⟨hWell.counted.size, hWell.counted.count, ?_⟩
    intro hSome
    rcases hSome with ⟨i, hMark⟩
    have hInside := Bitmap.lt_length_of_mem_marked hMark
    rw [hWell.counted.size] at hInside
    rw [hWell.temp_eq (Nat.zero_lt_of_lt hInside)]
    exact hBacked.bytes (Or.inl ⟨i, hMark⟩)
  finalized := hOrdered.tidy.finalized

/-
  In every interleaving whose steps meet the condition, the
  receiver invariant holds in every state.
-/
theorem receiverInvariant_of_run
    {node : LocalState}
    {events : List Event}
    (hMeets : Transition.Meets (step H path chunkDataSize)
      (Undisturbed chunkDataSize) (start node) events)
    (hRun : Transition.run (step H path chunkDataSize)
      (start node) events = some p) :
    ReceiverInvariant H chunkDataSize p := by
  apply receiverInvariant_of_ordered
  refine Transition.invariant_of_run ?_
    (ordered_start H path chunkDataSize node) hMeets hRun
  exact fun _ event _ => ordered_of_step event

end Runs

/- The two chunks of a file, both looked up at first. -/
def twoChunks : List Event :=
  let blocks := fun i => if i = 0 then [97, 98] else [99]
  [.lookup .none (blockChunk "a.txt" 2 blocks 1) "peer",
    .lookup .none (blockChunk "a.txt" 2 blocks 0) "peer",
    .prepare .none 0,
    .store .none 0,
    .prepare .none 0,
    .store .none 0,
    .finalize .none 0,
    .erase 0]

theorem receiverInvariant_of_twoChunks :
    ∃ p,
      Transition.run (step Host.plain "a.txt" 2)
          (start (LocalState.empty Host.plain .destination
            .oneWay)) twoChunks = some p ∧
      p.finalized.length = 1 ∧
      ReceiverInvariant Host.plain 2 p := by
  have hRun : Transition.run (step Host.plain "a.txt" 2)
      (start (LocalState.empty Host.plain .destination
        .oneWay)) twoChunks = some _ := rfl
  refine ⟨_, hRun, rfl, receiverInvariant_of_run ?_ hRun⟩
  refine .cons nofun rfl ?_
  refine .cons ?_ rfl ?_
  · intro task hTask hStage
    rcases List.mem_singleton.mp hTask with rfl
    cases hStage
  refine .cons trivial rfl ?_
  refine .cons ?_ rfl ?_
  · intro task hTask
    cases hTask
    refine ⟨by decide, by decide, ?_⟩
    intro k hCurrent
    cases hCurrent
    exact Or.inl rfl
  refine .cons trivial rfl ?_
  refine .cons ?_ rfl ?_
  · intro task hTask
    cases hTask
    refine ⟨by decide, by decide, ?_⟩
    intro k hCurrent
    cases hCurrent
    exact Or.inl rfl
  refine .cons trivial rfl ?_
  exact .cons trivial rfl trivial

/-
  A chunk that was looked up when the path had five chunks
  is written after a chunk of three started the path over.
-/
def overtaken : List Event :=
  [.lookup .none
      (blockChunk "a.txt" 5 (fun _ => [97]) 4) "peer",
    .lookup .none
      (blockChunk "a.txt" 3 (fun _ => [98]) 0) "peer",
    .prepare .none 0,
    .store .none 0]

theorem not_receiverInvariant_overtaken :
    ∃ p,
      Transition.run (step Host.plain "a.txt" 1024)
          (start (LocalState.empty Host.plain .destination
            .oneWay)) overtaken = some p ∧
      Quiet p ∧
      ¬ ReceiverInvariant Host.plain 1024 p := by
  refine ⟨_, rfl, ?_, ?_⟩
  · unfold Quiet
    decide
  · intro hInvariant
    have hSize := (hInvariant.intact (by
      unfold Quiet
      decide) 0 rfl).size
    exact absurd hSize (by decide)

end ChunkPhases

end VeritasSync
