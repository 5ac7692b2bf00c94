import VeritasSync.Sync.ChunkPhases

/-
  The bitmaps of unfinished downloads in the table: what is
  read back from a row, and that no byte is read that the
  row does not have.

  Main declarations:
    * `TransferManager.HasRoom`
    * `BitmapRows.Saved`, `BitmapRows.step`
    * `BitmapRows.Roomy`, `BitmapRows.roomy_of_run`
    * `BitmapRows.bitmaps_survive`
-/

namespace VeritasSync

namespace TransferManager

------------------------------------------------------------
-- Entries With a Bit for Each Chunk
------------------------------------------------------------

/- There may be more bits than chunks. -/
def HasRoom (recv : ReceivingFile) : Prop :=
  recv.totalChunks ≤ recv.receivedBitmap.length

theorem length_resizeBitmap
    (bitmap : List Bool)
    (size : ℕ) :
    (resizeBitmap bitmap size).length = size := by
  rw [resizeBitmap, List.length_append, List.length_take,
    List.length_replicate]
  omega

section Entries

variable
  {H : Host}
  {path peerId : String}
  {total : ℕ}
  {hdr : ChunkHeader}
  {recv recv' : ReceivingFile}
  {s s' : LocalState}

theorem HasRoom.of_sameChunks
    (hRoom : HasRoom recv)
    (hSame : SameChunks recv recv') :
    HasRoom recv' := by
  rw [HasRoom, hSame.total, hSame.bitmap]
  exact hRoom

theorem hasRoom_of_changed
    {old : Option ReceivingFile}
    (hChanged : Changed old recv')
    (hRoom : ∀ recv, old = some recv → HasRoom recv) :
    HasRoom recv' := by
  rcases hChanged with ⟨recv, hOld, hSame⟩ |
    ⟨-, peerId, hash, size, rfl⟩
  · exact (hRoom recv hOld).of_sameChunks hSame
  · exact Nat.le_refl 0

theorem hasRoom_adoptTotal
    (H : Host)
    (path : String)
    (total : ℕ)
    (hRoom : HasRoom recv)
    (s : LocalState) :
    HasRoom (adoptTotal H path total recv s).1.entry := by
  unfold adoptTotal HasRoom
  split
  · simp only [length_resizeBitmap, Nat.le_refl]
  · split
    · simp only [List.length_replicate, Nat.le_refl]
    · exact hRoom

theorem hasRoom_lookup
    {found : ChunkLookupResult}
    (hRoom : ∀ recv, s.receiving.lookup path = some recv →
      HasRoom recv)
    (hLookup : lookupOrCreateReceiving H path total peerId
      s = (some found, s')) :
    HasRoom found.entry := by
  unfold lookupOrCreateReceiving at hLookup
  split at hLookup
  · cases hLookup
  · cases hEntry : s.receiving.lookup path with
    | none =>
        rw [hEntry] at hLookup
        cases hLookup
        simp [HasRoom, newReceiving]
    | some recv =>
        rw [hEntry] at hLookup
        cases hLookup
        have hKept : HasRoom { recv with peerId := peerId } :=
          hRoom recv hEntry
        have hAdopted :=
          hasRoom_adoptTotal H path total hKept s
        unfold adoptTempPath
        split
        · exact hAdopted
        · exact hAdopted

theorem le_length_fitBitmap
    (hInside : hdr.chunkIndex < hdr.totalChunks)
    (bitmap : List Bool) :
    bitmap.length ≤ (fitBitmap hdr bitmap).length := by
  unfold fitBitmap
  split
  · rw [length_resizeBitmap]
    omega
  · exact Nat.le_refl _

/- What is left of the entry that a chunk was stored in. -/
def ChunkOutcome.entry : ChunkOutcome → ReceivingFile
| .failed entry _ => entry
| .kept entry _ => entry
| .complete entry _ => entry

theorem hasRoom_storeChunk
    (H : Host)
    (chunkDataSize : ℕ)
    (disk : Disk)
    (hInside : hdr.chunkIndex < hdr.totalChunks)
    (hRoom : HasRoom recv) :
    HasRoom (storeChunk H chunkDataSize hdr recv
      disk).entry := by
  have hFits : recv.totalChunks ≤
      (fitBitmap hdr recv.receivedBitmap).length :=
    Nat.le_trans hRoom (le_length_fitBitmap hInside _)
  unfold storeChunk
  dsimp only
  split
  · exact hFits
  · split
    · exact hFits
    · split
      · simpa [ChunkOutcome.entry, HasRoom, markChunk]
          using hFits
      · simpa [ChunkOutcome.entry, HasRoom, markChunk]
          using hFits

/- The row of such an entry holds every bit that is read. -/
theorem unpack?_taskOf
    (hRoom : HasRoom recv)
    (now : ℕ) :
    Bitmap.unpack? (taskOf now recv).bitmapData
        (taskOf now recv).totalChunks =
      some (deserializeBitmap (taskOf now recv).bitmapData
        (taskOf now recv).totalChunks) := by
  simp only [taskOf, serializeBitmap, deserializeBitmap]
  split
  next hEmpty =>
    have hNone : recv.totalChunks = 0 := by
      rw [HasRoom, List.isEmpty_iff.mp hEmpty] at hRoom
      exact Nat.le_zero.mp hRoom
    rw [hNone]
    rfl
  next => exact Bitmap.unpack?_pack hRoom

end Entries

/- The bits and the count come back, whatever their number. -/
theorem rebuild_of_serializeBitmap
    {task : DownloadTaskRecord}
    {bitmap : List Bool}
    (hTotal : task.totalChunks = bitmap.length)
    (hData : task.bitmapData = serializeBitmap bitmap) :
    (rebuild task).receivedBitmap = bitmap ∧
      (rebuild task).receivedChunks = bitmap.count true := by
  have hBits : (rebuild task).receivedBitmap = bitmap := by
    simp only [rebuild, hTotal, hData,
      deserializeBitmap_serializeBitmap]
  have hCount : (rebuild task).receivedChunks =
      (rebuild task).receivedBitmap.count true := rfl
  rw [hCount, hBits]
  exact ⟨rfl, rfl⟩

end TransferManager

------------------------------------------------------------
-- The Table Over a Run
------------------------------------------------------------

namespace BitmapRows

open TransferManager ChunkPhases

/- The receiving side of one path, and the table of rows. -/
structure Saved where
  receiver : Receiver
  tasks : TaskTable

/-
  `persist` is the periodic cleanup's writing of the table;
  the row of a finished file goes by `forget`.  A restart
  begins with no entry, or, with the state manager in place
  when the rows are read, with those in the table.
-/
inductive Event where
| chunk : ChunkPhases.Event → Event
| persist : ℕ → Event
| forget : Event
| restart (loads : Bool) : Event

section Steps

variable
  (H : Host)
  (path : String)
  (chunkDataSize : ℕ)

def downloads
    (attached : Bool)
    (node : LocalState)
    (tasks : TaskTable) : Downloads where
  node := node
  tasks := tasks
  attached := attached

def restarted
    (loads : Bool)
    (s : Saved) : Downloads :=
  let node := { s.receiver.node with receiving := ∅ }
  if loads then
    loadDownloadState H (downloads true node s.tasks)
  else
    startUp H (downloads true node s.tasks)

/- The map holds what the node has for the path. -/
def ofNode (node : LocalState) : Receiver :=
  (ChunkPhases.start node).setCurrent
    (node.receiving.lookup path)

def step
    (s : Saved) : Event → Option Saved
| .chunk e =>
    (ChunkPhases.step H path chunkDataSize s.receiver e).map
      (fun receiver => { s with receiver := receiver })
| .persist now =>
    some { s with
      tasks := (persistDownloadState { H with now := now }
        (downloads true (s.receiver.view path)
          s.tasks)).tasks }
| .forget => some { s with tasks := s.tasks.erase path }
| .restart loads =>
    some
      { receiver := ofNode path (restarted H loads s).node
        tasks := (restarted H loads s).tasks }

/- Nothing is received yet, and the table is empty. -/
def start (node : LocalState) : Saved where
  receiver :=
    ChunkPhases.start { node with receiving := ∅ }
  tasks := ∅

end Steps

/-
  Every entry has room for its chunks, so has every chunk
  under way in the bitmap it may ask for, and every row can
  be read.
-/
structure RoomyReceiver (p : Receiver) : Prop where
  entries : ∀ k, HasRoom (p.entries k)
  headers : ∀ task ∈ p.tasks,
    task.hdr.chunkIndex < task.hdr.totalChunks
  others : ∀ path recv,
    p.node.receiving.lookup path = some recv → HasRoom recv

/- No byte is read that the row does not have. -/
def Readable (task : DownloadTaskRecord) : Prop :=
  Bitmap.unpack? task.bitmapData task.totalChunks =
    some (deserializeBitmap task.bitmapData
      task.totalChunks)

structure Roomy (s : Saved) : Prop where
  receiver : RoomyReceiver s.receiver
  rows : ∀ path task, s.tasks.lookup path = some task →
    Readable task

section Receivers

variable
  {H : Host}
  {path peerId : String}
  {chunkDataSize n : ℕ}
  {hdr : ChunkHeader}
  {p p' : Receiver}
  {task : Task}
  {entry : ReceivingFile}

theorem RoomyReceiver.setEntry
    (hRoomy : RoomyReceiver p)
    (hEntry : HasRoom entry)
    (k : ℕ)
    (disk : Disk) :
    RoomyReceiver (setEntry k entry disk p) where
  entries := by
    intro j
    by_cases hSame : j = k
    · subst hSame
      simpa [ChunkPhases.setEntry] using hEntry
    · simpa [ChunkPhases.setEntry,
        Function.update_of_ne hSame]
        using hRoomy.entries j
  headers := hRoomy.headers
  others := hRoomy.others

theorem RoomyReceiver.moveTask
    (hRoomy : RoomyReceiver p)
    (hTask : p.tasks[n]? = some task)
    (stage : Stage) :
    RoomyReceiver (moveTask n task stage p) where
  entries := hRoomy.entries
  headers := by
    intro other hOther
    rcases List.mem_or_eq_of_mem_set hOther with hOld | hNew
    · exact hRoomy.headers other hOld
    · rw [hNew]
      exact hRoomy.headers task (List.mem_of_getElem? hTask)
  others := hRoomy.others

theorem RoomyReceiver.endTask
    (hRoomy : RoomyReceiver p)
    (n : ℕ) :
    RoomyReceiver (endTask n p) where
  entries := hRoomy.entries
  headers task hTask :=
    hRoomy.headers task (List.mem_of_mem_eraseIdx hTask)
  others := hRoomy.others

theorem RoomyReceiver.currentEntry
    (hRoomy : RoomyReceiver p)
    {recv : ReceivingFile}
    (hRecv : p.currentEntry = some recv) :
    HasRoom recv := by
  rw [← (exists_current_of_currentEntry hRecv).2]
  exact hRoomy.entries _

theorem RoomyReceiver.setCurrent
    (hRoomy : RoomyReceiver p)
    {recv : Option ReceivingFile}
    (hRecv : ∀ recv', recv = some recv' → HasRoom recv') :
    RoomyReceiver (p.setCurrent recv) := by
  cases recv with
  | none =>
      exact ⟨hRoomy.entries, hRoomy.headers, hRoomy.others⟩
  | some entry =>
      refine ⟨?_, hRoomy.headers, hRoomy.others⟩
      intro j
      by_cases hSame : j = p.slot
      · subst hSame
        simpa [Receiver.setCurrent] using hRecv entry rfl
      · simpa [Receiver.setCurrent,
          Function.update_of_ne hSame]
          using hRoomy.entries j

/- All that a lookup may find has room. -/
theorem RoomyReceiver.view
    (hRoomy : RoomyReceiver p)
    (path : String) :
    ∀ other recv,
      (p.view path).receiving.lookup other = some recv →
      HasRoom recv := by
  intro other recv hRecv
  by_cases hSame : other = path
  · subst hSame
    rw [lookup_view] at hRecv
    exact hRoomy.currentEntry hRecv
  · apply hRoomy.others other recv
    rw [← hRecv, Receiver.view]
    cases p.currentEntry with
    | none => exact (AList.lookup_erase_ne hSame).symm
    | some entry => exact (AList.lookup_insert_ne hSame).symm

theorem RoomyReceiver.onNode
    (hRoomy : RoomyReceiver p)
    {s : LocalState}
    (hOthers : ∀ path recv,
      s.receiving.lookup path = some recv → HasRoom recv) :
    RoomyReceiver { p with node := s } :=
  ⟨hRoomy.entries, hRoomy.headers, hOthers⟩

theorem RoomyReceiver.lookupPhase
    (hRoomy : RoomyReceiver p) :
    RoomyReceiver (lookupPhase H hdr peerId p) := by
  cases hValid : validateChunkHeader hdr with
  | false =>
      rw [ChunkPhases.lookupPhase, hValid]
      exact hRoomy
  | true =>
      have hInside : hdr.chunkIndex < hdr.totalChunks := by
        simp only [validateChunkHeader, Bool.and_eq_true,
          decide_eq_true_eq] at hValid
        exact hValid.2
      cases hLookup : lookupOrCreateReceiving H hdr.filePath
          hdr.totalChunks peerId (p.view hdr.filePath) with
      | mk found s =>
          cases found with
          | none =>
              rw [ChunkPhases.lookupPhase, hValid, hLookup]
              exact hRoomy
          | some found =>
              have hView := hRoomy.view hdr.filePath
              have hFound : HasRoom found.entry :=
                hasRoom_lookup (hView hdr.filePath) hLookup
              rw [lookupPhase_of_found hValid hLookup]
              have hPut : RoomyReceiver
                  (p.setCurrent (some found.entry)) := by
                apply hRoomy.setCurrent
                intro recv hRecv
                rw [← Option.some.inj hRecv]
                exact hFound
              refine ⟨hPut.entries, ?_, ?_⟩
              · intro task hTask
                rcases List.mem_append.mp hTask with hOld | hNew
                · exact hRoomy.headers task hOld
                · rw [List.mem_singleton.mp hNew]
                  exact hInside
              · intro other recv hRecv
                rw [receiving_lookupOrCreateReceiving hLookup]
                  at hRecv
                by_cases hSame : other = hdr.filePath
                · rw [hSame, AList.lookup_insert] at hRecv
                  rw [← Option.some.inj hRecv]
                  exact hFound
                · rw [AList.lookup_insert_ne hSame] at hRecv
                  exact hView other recv hRecv

theorem RoomyReceiver.preparePhase
    (hRoomy : RoomyReceiver p)
    (hTask : p.tasks[n]? = some task)
    (needOpenStream needCreateDirs : Bool) :
    RoomyReceiver (preparePhase H n task needOpenStream
      needCreateDirs p) := by
  have hRoom := hRoomy.entries task.entry
  have hOpen : HasRoom { p.entries task.entry with
      streamOpen := true } := hRoom
  unfold ChunkPhases.preparePhase
  dsimp only
  split
  · exact (hRoomy.setEntry hOpen task.entry _).moveTask
      hTask _
  · exact (hRoomy.setEntry hRoom task.entry _).moveTask
      hTask _

theorem RoomyReceiver.storePhase
    (hRoomy : RoomyReceiver p)
    (hTask : p.tasks[n]? = some task) :
    RoomyReceiver (storePhase H chunkDataSize n task p) := by
  have hStored := hasRoom_storeChunk
    (onStream H (p.entries task.entry)) chunkDataSize
    p.node.disk
    (hRoomy.headers task (List.mem_of_getElem? hTask))
    (hRoomy.entries task.entry)
  have hNoted : RoomyReceiver { p with
      stored := Function.update p.stored task.entry
        (noteStored task.hdr (p.entries task.entry)
          (p.stored task.entry)) } :=
    ⟨hRoomy.entries, hRoomy.headers, hRoomy.others⟩
  unfold ChunkPhases.storePhase
  dsimp only
  split
  next entry disk hOutcome =>
    rw [hOutcome] at hStored
    exact (hNoted.setEntry hStored task.entry disk).moveTask
      hTask _
  next entry disk hOutcome =>
    rw [hOutcome] at hStored
    exact (hNoted.setEntry hStored task.entry disk).endTask n
  next entry disk hOutcome =>
    rw [hOutcome] at hStored
    exact (hNoted.setEntry hStored task.entry disk).moveTask
      hTask _

theorem RoomyReceiver.finalizePhase
    (hRoomy : RoomyReceiver p)
    (hTask : p.tasks[n]? = some task) :
    RoomyReceiver (finalizePhase H n task p) := by
  have hClosed : HasRoom { p.entries task.entry with
      streamOpen := false } := hRoomy.entries task.entry
  have hEntry := hRoomy.setEntry hClosed task.entry
    p.node.disk
  have hFinished : RoomyReceiver { p with
      node := finalizeReceivedFile H task.hdr.filePath
        task.peerId (p.entries task.entry) p.node
      entries := Function.update p.entries task.entry
        { p.entries task.entry with streamOpen := false }
      finalized := p.entries task.entry :: p.finalized } := by
    refine ⟨hEntry.entries, hRoomy.headers, ?_⟩
    intro other recv hRecv
    rw [receiving_finalizeReceivedFile] at hRecv
    by_cases hSame : other = task.hdr.filePath
    · rw [hSame, AList.lookup_erase] at hRecv
      cases hRecv
    · rw [AList.lookup_erase_ne hSame] at hRecv
      exact hRoomy.others other recv hRecv
  exact hFinished.moveTask hTask _

/- One loop over the map changes no bit. -/
theorem RoomyReceiver.bind
    (hRoomy : RoomyReceiver p)
    {change : ReceivingFile → Option ReceivingFile}
    (hChange : ∀ recv recv', change recv = some recv' →
      SameChunks recv recv') :
    RoomyReceiver
      (p.setCurrent (p.currentEntry.bind change)) := by
  apply hRoomy.setCurrent
  intro recv' hRecv
  rw [Option.bind_eq_some_iff] at hRecv
  rcases hRecv with ⟨recv, hEntry, hNew⟩
  exact (hRoomy.currentEntry hEntry).of_sameChunks
    (hChange recv recv' hNew)

theorem roomyReceiver_of_step
    (event : ChunkPhases.Event)
    (hRoomy : RoomyReceiver p)
    (hStep : ChunkPhases.step H path chunkDataSize p event =
      some p') :
    RoomyReceiver p' := by
  cases event with
  | lookup refusals hdr peerId =>
      rcases step_lookup_eq_some_iff.mp hStep with ⟨_, rfl⟩
      exact hRoomy.lookupPhase
  | prepare refusals n =>
      rcases step_prepare_eq_some_iff.mp hStep with
        ⟨task, _, _, hTask, -, -, rfl⟩
      exact hRoomy.preparePhase hTask _ _
  | store refusals n =>
      rcases step_store_eq_some_iff.mp hStep with
        ⟨task, hTask, -, rfl⟩
      exact hRoomy.storePhase hTask
  | finalize refusals n =>
      rcases step_finalize_eq_some_iff.mp hStep with
        ⟨task, hTask, -, rfl⟩
      exact hRoomy.finalizePhase hTask
  | erase n =>
      rcases step_erase_eq_some_iff.mp hStep with
        ⟨task, hTask, -, rfl⟩
      apply RoomyReceiver.endTask
      exact hRoomy.setCurrent nofun
  | register peerId hash size =>
      cases hStep
      apply hRoomy.setCurrent
      intro recv' hRecv
      exact hasRoom_of_changed
        (changed_registerExpectedMetadata hRecv)
        (hRoomy.view path path)
  | cleanup expired =>
      cases hStep
      apply hRoomy.bind
      exact fun _ _ => sameChunks_cleanedEntry
  | cancel peerId =>
      cases hStep
      apply hRoomy.bind
      exact fun _ _ => sameChunks_cancelledEntry

theorem roomyReceiver_start
    {node : LocalState}
    (hNode : ∀ path recv,
      node.receiving.lookup path = some recv →
      HasRoom recv) :
    RoomyReceiver (ChunkPhases.start node) where
  entries _ := Nat.le_refl 0
  headers task hTask := by cases hTask
  others := hNode

end Receivers

------------------------------------------------------------
-- Runs
------------------------------------------------------------

section Runs

variable
  {H : Host}
  {path : String}
  {chunkDataSize : ℕ}
  {s s' : Saved}

/- What is rebuilt from a row has a bit for each chunk. -/
theorem hasRoom_rebuild (task : DownloadTaskRecord) :
    HasRoom (rebuild task) :=
  Nat.le_of_eq (counted_rebuild task).size.symm

theorem readable_persist
    {m : Downloads}
    (hEntries : ∀ path recv,
      m.node.receiving.lookup path = some recv →
      HasRoom recv)
    (hRows : ∀ path task, m.tasks.lookup path = some task →
      Readable task)
    (hAttached : m.attached = true)
    {task : DownloadTaskRecord}
    (hTask : (persistDownloadState H m).tasks.lookup path =
      some task) :
    Readable task := by
  rw [lookup_tasks_persist hAttached] at hTask
  cases hEntry : m.node.receiving.lookup path with
  | none =>
      rw [hEntry] at hTask
      exact hRows path task hTask
  | some recv =>
      rw [hEntry] at hTask
      rw [← Option.some.inj hTask]
      exact unpack?_taskOf (hEntries path recv hEntry) H.now

theorem roomy_restarted
    (hRoomy : Roomy s)
    (loads : Bool) :
    (∀ path recv,
      (restarted H loads s).node.receiving.lookup path =
        some recv → HasRoom recv) ∧
    (∀ path task,
      (restarted H loads s).tasks.lookup path = some task →
        Readable task) := by
  cases loads with
  | false =>
      constructor
      · intro path recv hRecv
        have hNone : (restarted H false s).node.receiving =
            ∅ := rfl
        rw [hNone, AList.lookup_empty] at hRecv
        cases hRecv
      · intro path task hTask
        exact hRoomy.rows path task hTask
  | true =>
      constructor
      · intro path recv hRecv
        simp only [restarted, if_true] at hRecv
        rw [lookup_receiving_load rfl] at hRecv
        simp only [downloads, AList.lookup_empty] at hRecv
        split at hRecv
        next row hRow =>
          rcases Option.ite_none_right_eq_some.mp hRecv with
            ⟨_, hRebuilt⟩
          rw [← Option.some.inj hRebuilt]
          exact hasRoom_rebuild row
        next => cases hRecv
      · intro path task hTask
        simp only [restarted, if_true] at hTask
        rw [lookup_tasks_load rfl] at hTask
        simp only [downloads] at hTask
        split at hTask
        next row hRow =>
          rcases Option.ite_none_right_eq_some.mp hTask with
            ⟨_, hKept⟩
          rw [← Option.some.inj hKept]
          exact hRoomy.rows path row hRow
        next => cases hTask

theorem roomy_start
    (node : LocalState) : Roomy (start node) where
  receiver := by
    apply roomyReceiver_start
    intro path recv hRecv
    cases hRecv
  rows path task hTask := by cases hTask

theorem roomy_step
    (e : Event)
    (hRoomy : Roomy s)
    (hStep : step H path chunkDataSize s e = some s') :
    Roomy s' := by
  cases e with
  | chunk e =>
      rcases Option.map_eq_some_iff.mp hStep with
        ⟨receiver, hReceiver, rfl⟩
      exact ⟨roomyReceiver_of_step e hRoomy.receiver
        hReceiver, hRoomy.rows⟩
  | persist now =>
      cases hStep
      refine ⟨hRoomy.receiver, ?_⟩
      intro other task hTask
      exact readable_persist (hRoomy.receiver.view path)
        hRoomy.rows rfl hTask
  | forget =>
      cases hStep
      refine ⟨hRoomy.receiver, ?_⟩
      intro other task hTask
      by_cases hSame : other = path
      · rw [hSame, AList.lookup_erase] at hTask
        cases hTask
      · rw [AList.lookup_erase_ne hSame] at hTask
        exact hRoomy.rows other task hTask
  | restart loads =>
      cases hStep
      have hRestarted := roomy_restarted (H := H) hRoomy loads
      refine ⟨?_, hRestarted.2⟩
      exact (roomyReceiver_start hRestarted.1).setCurrent
        (hRestarted.1 path)

/- Every row of a run can be read. -/
theorem roomy_of_run
    {node : LocalState}
    {events : List Event}
    (hRun : Transition.run (step H path chunkDataSize)
      (start node) events = some s) :
    Roomy s := by
  apply Transition.invariant_of_run _ (roomy_start node)
    (Transition.meets_of_forall (fun _ _ => trivial)) hRun
  intro s e s' hRoomy _ hStep
  exact roomy_step e hRoomy hStep

end Runs

/-
  A bitmap of any length comes back from its bytes with its
  count, and no row of any run makes the reader go past what
  was stored.
-/
theorem bitmaps_survive :
    (∀ bitmap : List Bool,
      deserializeBitmap (serializeBitmap bitmap)
        bitmap.length = bitmap) ∧
    (∀ (task : DownloadTaskRecord) (bitmap : List Bool),
      task.totalChunks = bitmap.length →
      task.bitmapData = serializeBitmap bitmap →
      (rebuild task).receivedBitmap = bitmap ∧
        (rebuild task).receivedChunks =
          bitmap.count true) ∧
    ∀ (H : Host) (path : String) (chunkDataSize : ℕ)
      (node : LocalState) (events : List Event) (s : Saved),
      Transition.run (step H path chunkDataSize)
        (start node) events = some s →
      ∀ other task, s.tasks.lookup other = some task →
        Readable task := by
  refine ⟨deserializeBitmap_serializeBitmap, ?_, ?_⟩
  · intro task bitmap hTotal hData
    exact rebuild_of_serializeBitmap hTotal hData
  · intro H path chunkDataSize node events s hRun other task
      hTask
    exact (roomy_of_run hRun).rows other task hTask

def lastOfNine : ChunkHeader where
  filePath := "a.txt"
  chunkIndex := 8
  totalChunks := 9
  uncompressedData := [97]
  valid := true

/- The last of nine chunks has come and is in the table. -/
theorem bitmaps_survive_nine :
    ∃ s, Transition.run (step Host.plain "a.txt" 1)
        (start
          (LocalState.empty Host.plain .destination .oneWay))
        [.chunk (.lookup .none lastOfNine "peer"),
          .chunk (.prepare .none 0), .chunk (.store .none 0),
          .persist 1] = some s ∧
      ∃ task, s.tasks.lookup "a.txt" = some task ∧
        task.bitmapData = [0#8, 1#8] ∧ Readable task := by
  have hRow : (Transition.run (step Host.plain "a.txt" 1)
      (start
        (LocalState.empty Host.plain .destination .oneWay))
      [.chunk (.lookup .none lastOfNine "peer"),
        .chunk (.prepare .none 0), .chunk (.store .none 0),
        .persist 1]).bind (fun s =>
          (s.tasks.lookup "a.txt").map
            DownloadTaskRecord.bitmapData) =
        some [0#8, 1#8] := by
    decide +kernel
  rcases Option.bind_eq_some_iff.mp hRow with
    ⟨s, hRun, hTask⟩
  rcases Option.map_eq_some_iff.mp hTask with
    ⟨task, hLookup, hData⟩
  exact ⟨s, hRun, task, hLookup, hData,
    bitmaps_survive.2.2 _ _ _ _ _ _ hRun "a.txt" task
      hLookup⟩

end BitmapRows

end VeritasSync
