import VeritasSync.Library.Transition
import VeritasSync.Sync.BackedEntries

/-
  Several chunks of one path in the worker pool.  A task
  looks its entry up under the lock of the map, and works on
  it under the entry's own lock; between two of its phases
  other tasks and the periodic cleanup run.

  An entry is shared: a task keeps it when it has left the
  map.  So entries have numbers here, and the map and the
  tasks hold numbers.

  Main declarations:
    * `ChunkPhases.Receiver`, `ChunkPhases.step`
    * `ChunkPhases.phases_eq_handleChunk`
-/

namespace VeritasSync

namespace TransferManager

/- A write through a closed stream fails. -/
def onStream
    (H : Host)
    (entry : ReceivingFile) : Host :=
  { H with
    writeFails := fun loc =>
      !entry.streamOpen || H.writeFails loc }

end TransferManager

namespace ChunkPhases

open TransferManager

------------------------------------------------------------
-- Tasks And Entries
------------------------------------------------------------

/-
  Where a task stands between its phases.  Past `found` it
  holds the lock of its entry.
-/
inductive Stage where
| found (needOpenStream needCreateDirs : Bool)
| opened
| completing
| leaving
deriving DecidableEq, Repr

/- The task has not taken the lock of its entry yet. -/
def Stage.waits : Stage → Bool
| .found _ _ => true
| _ => false

/- The work on one chunk, with the number of its entry. -/
structure Task where
  hdr : ChunkHeader
  peerId : String
  entry : ℕ
  stage : Stage
deriving DecidableEq, Repr

/-
  The receiving side of one path.  `current` is what the map
  holds for the path; entries from `fresh` on are not in use.

  `stored` and `finalized` are kept for the statements only:
  the bytes of the chunk that set a bit, and the entries as
  they were handed to finalize.
-/
structure Receiver where
  node : LocalState
  entries : ℕ → ReceivingFile
  fresh : ℕ
  current : Option ℕ
  tasks : List Task
  stored : ℕ → ℕ → Content
  finalized : List ReceivingFile

namespace Receiver

def currentEntry (p : Receiver) : Option ReceivingFile :=
  p.current.map p.entries

/- The node with the map's entry of the path in it. -/
def view
    (path : String)
    (p : Receiver) : LocalState :=
  { p.node with
    receiving :=
      storeEntry path p.currentEntry p.node.receiving }

/- The number of the map's entry, or of the next new one. -/
def slot (p : Receiver) : ℕ :=
  p.current.getD p.fresh

/- Store the map's entry, or take it out of the map. -/
def setCurrent
    (entry : Option ReceivingFile)
    (p : Receiver) : Receiver :=
  match entry with
  | none => { p with current := none }
  | some entry =>
      { p with
        entries := Function.update p.entries p.slot entry
        fresh := max p.fresh (p.slot + 1)
        current := some p.slot }

end Receiver

/- A node that receives nothing at the path yet. -/
def start (node : LocalState) : Receiver where
  node := node
  entries := fun _ => announced "" "" 0
  fresh := 0
  current := none
  tasks := []
  stored := fun _ _ => []
  finalized := []

------------------------------------------------------------
-- The Phases
------------------------------------------------------------

/- Under the lock of the map. -/
def lookupPhase
    (H : Host)
    (hdr : ChunkHeader)
    (peerId : String)
    (p : Receiver) : Receiver :=
  if !validateChunkHeader hdr then
    p
  else
    match lookupOrCreateReceiving H hdr.filePath
        hdr.totalChunks peerId (p.view hdr.filePath) with
    | (none, _) => p
    | (some found, s) =>
        { p.setCurrent (some found.entry) with
          node := s
          tasks := p.tasks ++
            [{ hdr := hdr
               peerId := peerId
               entry := p.slot
               stage := .found found.needOpenStream
                 found.needCreateDirs }] }

/- No other task works on the entry. -/
def lockFree
    (entry : ℕ)
    (p : Receiver) : Bool :=
  p.tasks.all (fun task =>
    task.entry != entry || task.stage.waits)

def moveTask
    (n : ℕ)
    (task : Task)
    (stage : Stage)
    (p : Receiver) : Receiver :=
  { p with
    tasks := p.tasks.set n { task with stage := stage } }

def endTask
    (n : ℕ)
    (p : Receiver) : Receiver :=
  { p with tasks := p.tasks.eraseIdx n }

def setEntry
    (k : ℕ)
    (entry : ReceivingFile)
    (disk : Disk)
    (p : Receiver) : Receiver :=
  { p with
    node := { p.node with disk := disk }
    entries := Function.update p.entries k entry }

/- The task takes the lock and opens the entry's stream. -/
def preparePhase
    (H : Host)
    (n : ℕ)
    (task : Task)
    (needOpenStream needCreateDirs : Bool)
    (p : Receiver) : Receiver :=
  let entry := p.entries task.entry
  match prepareStream H task.hdr.filePath
      ⟨entry, needOpenStream, needCreateDirs⟩
        p.node.disk with
  | (disk, true) =>
      moveTask n task .opened
        (setEntry task.entry
          { entry with streamOpen := true } disk p)
  | (disk, false) =>
      moveTask n task .leaving
        (setEntry task.entry entry disk p)

def storePhase
    (H : Host)
    (chunkDataSize : ℕ)
    (n : ℕ)
    (task : Task)
    (p : Receiver) : Receiver :=
  let k := task.entry
  let entry := p.entries k
  let p := { p with
    stored := Function.update p.stored k
      (noteStored task.hdr entry (p.stored k)) }
  match storeChunk (onStream H entry) chunkDataSize task.hdr
      entry p.node.disk with
  | .failed entry disk =>
      moveTask n task .leaving (setEntry k entry disk p)
  | .kept entry disk =>
      endTask n (setEntry k entry disk p)
  | .complete entry disk =>
      moveTask n task .completing (setEntry k entry disk p)

def finalizePhase
    (H : Host)
    (n : ℕ)
    (task : Task)
    (p : Receiver) : Receiver :=
  let entry := p.entries task.entry
  moveTask n task .leaving
    { p with
      node := finalizeReceivedFile H task.hdr.filePath
        task.peerId entry p.node
      entries := Function.update p.entries task.entry
        { entry with streamOpen := false }
      finalized := entry :: p.finalized }

/-
  Whatever the map holds for the path by now is taken out of
  it.
-/
def erasePhase
    (n : ℕ)
    (p : Receiver) : Receiver :=
  endTask n (p.setCurrent none)

------------------------------------------------------------
-- Steps
------------------------------------------------------------

/-
  Events name a task by its place among the pending ones.
  `cleanup` tells whether the entry of the path timed out.
-/
inductive Event where
| lookup : Refusals → ChunkHeader → String → Event
| prepare : Refusals → ℕ → Event
| store : Refusals → ℕ → Event
| finalize : Refusals → ℕ → Event
| erase : ℕ → Event
| register : String → String → ℕ → Event
| cleanup : Bool → Event
| cancel : String → Event

section Steps

variable
  (H : Host)
  (path : String)
  (chunkDataSize : ℕ)

def step
    (p : Receiver) : Event → Option Receiver
| .lookup refusals hdr peerId =>
    if hdr.filePath = path then
      some (lookupPhase (H.during refusals) hdr peerId p)
    else
      none
| .prepare refusals n =>
    p.tasks[n]?.bind (fun task =>
      match task.stage with
      | .found needOpenStream needCreateDirs =>
          if lockFree task.entry p then
            some (preparePhase (H.during refusals) n task
              needOpenStream needCreateDirs p)
          else
            none
      | _ => none)
| .store refusals n =>
    p.tasks[n]?.bind (fun task =>
      if task.stage = .opened then
        some (storePhase (H.during refusals) chunkDataSize n
          task p)
      else
        none)
| .finalize refusals n =>
    p.tasks[n]?.bind (fun task =>
      if task.stage = .completing then
        some (finalizePhase (H.during refusals) n task p)
      else
        none)
| .erase n =>
    p.tasks[n]?.bind (fun task =>
      if task.stage = .leaving then
        some (erasePhase n p)
      else
        none)
| .register peerId hash size =>
    some (p.setCurrent
      ((registerExpectedMetadata path peerId hash size
        (p.view path)).receiving.lookup path))
| .cleanup expired =>
    some (p.setCurrent
      (p.currentEntry.bind (cleanedEntry expired)))
| .cancel peerId =>
    some (p.setCurrent
      (p.currentEntry.bind (cancelledEntry peerId)))

end Steps

section StepCases

variable
  {H : Host}
  {path peerId : String}
  {chunkDataSize n : ℕ}
  {refusals : Refusals}
  {hdr : ChunkHeader}
  {p p' : Receiver}

theorem step_lookup_eq_some_iff :
    step H path chunkDataSize p
        (.lookup refusals hdr peerId) = some p' ↔
      hdr.filePath = path ∧
        lookupPhase (H.during refusals) hdr peerId p =
          p' := by
  simp [step]

/- A task takes the lock of its entry when it is free. -/
theorem step_prepare_eq_some_iff :
    step H path chunkDataSize p (.prepare refusals n) =
        some p' ↔
      ∃ task needOpenStream needCreateDirs,
        p.tasks[n]? = some task ∧
        task.stage = .found needOpenStream needCreateDirs ∧
        lockFree task.entry p = true ∧
        preparePhase (H.during refusals) n task
          needOpenStream needCreateDirs p = p' := by
  simp only [step, Option.bind_eq_some_iff]
  constructor
  · rintro ⟨task, hTask, hStep⟩
    split at hStep
    next a b hStage =>
      rw [Option.ite_none_right_eq_some] at hStep
      exact ⟨task, a, b, hTask, hStage, hStep.1,
        Option.some.inj hStep.2⟩
    next => cases hStep
  · rintro ⟨task, a, b, hTask, hStage, hFree, rfl⟩
    refine ⟨task, hTask, ?_⟩
    rw [hStage]
    exact if_pos hFree

theorem step_store_eq_some_iff :
    step H path chunkDataSize p (.store refusals n) =
        some p' ↔
      ∃ task, p.tasks[n]? = some task ∧
        task.stage = .opened ∧
        storePhase (H.during refusals) chunkDataSize n task
          p = p' := by
  simp [step, Option.bind_eq_some_iff]

theorem step_finalize_eq_some_iff :
    step H path chunkDataSize p (.finalize refusals n) =
        some p' ↔
      ∃ task, p.tasks[n]? = some task ∧
        task.stage = .completing ∧
        finalizePhase (H.during refusals) n task p =
          p' := by
  simp [step, Option.bind_eq_some_iff]

theorem step_erase_eq_some_iff :
    step H path chunkDataSize p (.erase n) = some p' ↔
      ∃ task, p.tasks[n]? = some task ∧
        task.stage = .leaving ∧
        erasePhase n p = p' := by
  simp [step, Option.bind_eq_some_iff]

end StepCases

------------------------------------------------------------
-- One Task Alone
------------------------------------------------------------

/- All of a node but its map of entries. -/
def bare (s : LocalState) : LocalState :=
  { s with receiving := ∅ }

/- The receiver is where handling a chunk leaves the node. -/
structure Matches
    (path : String)
    (p : Receiver)
    (s : LocalState) : Prop where
  idle : p.tasks = []
  entry : p.currentEntry = s.receiving.lookup path
  node : bare p.node = bare s

section Alone

variable
  {H : Host}
  {path peerId : String}
  {chunkDataSize : ℕ}
  {refusals : Refusals}
  {hdr : ChunkHeader}
  {p : Receiver}

theorem lookup_storeEntry
    (path : String)
    (recv : Option ReceivingFile)
    (receiving : AList (fun _ : String => ReceivingFile)) :
    (storeEntry path recv receiving).lookup path = recv := by
  cases recv with
  | none => exact AList.lookup_erase _ _
  | some recv => exact AList.lookup_insert _

@[simp] theorem lookup_view :
    (p.view path).receiving.lookup path = p.currentEntry :=
  lookup_storeEntry path _ _

@[simp] theorem currentEntry_setCurrent
    (entry : Option ReceivingFile) :
    (p.setCurrent entry).currentEntry = entry := by
  cases entry with
  | none => rfl
  | some entry =>
      simp [Receiver.setCurrent, Receiver.currentEntry]

theorem exists_current_of_currentEntry
    {recv : ReceivingFile}
    (hEntry : p.currentEntry = some recv) :
    p.current = some p.slot ∧ p.entries p.slot = recv := by
  rw [Receiver.currentEntry, Option.map_eq_some_iff]
    at hEntry
  rcases hEntry with ⟨k, hCurrent, hRecv⟩
  have hSlot : p.slot = k := by
    rw [Receiver.slot, hCurrent]
    rfl
  rw [hSlot]
  exact ⟨hCurrent, hRecv⟩

/- The task of a chunk that was let in. -/
def lookedUp
    (hdr : ChunkHeader)
    (peerId : String)
    (p : Receiver)
    (found : ChunkLookupResult) : Task where
  hdr := hdr
  peerId := peerId
  entry := p.slot
  stage := .found found.needOpenStream found.needCreateDirs

theorem lookupPhase_of_found
    {found : ChunkLookupResult}
    {s : LocalState}
    (hValid : validateChunkHeader hdr = true)
    (hLookup : lookupOrCreateReceiving H hdr.filePath
      hdr.totalChunks peerId (p.view hdr.filePath) =
        (some found, s)) :
    lookupPhase H hdr peerId p =
      { p.setCurrent (some found.entry) with
        node := s
        tasks := p.tasks ++ [lookedUp hdr peerId p found] } := by
  unfold lookupPhase
  rw [hLookup, hValid]
  rfl

section Single

variable
  {q : Receiver}
  {task : Task}

theorem step_prepare_of_single
    {needOpenStream needCreateDirs : Bool}
    (hSingle : q.tasks = [task])
    (hStage : task.stage =
      .found needOpenStream needCreateDirs) :
    step H path chunkDataSize q (.prepare refusals 0) =
      some (preparePhase (H.during refusals) 0 task
        needOpenStream needCreateDirs q) := by
  apply step_prepare_eq_some_iff.mpr
  refine ⟨task, _, _, by rw [hSingle]; rfl, hStage, ?_, rfl⟩
  simp [lockFree, hSingle, hStage, Stage.waits]

theorem step_store_of_single
    (hSingle : q.tasks = [task])
    (hStage : task.stage = .opened) :
    step H path chunkDataSize q (.store refusals 0) =
      some (storePhase (H.during refusals) chunkDataSize 0
        task q) := by
  simp [step, hSingle, hStage]

theorem step_finalize_of_single
    (hSingle : q.tasks = [task])
    (hStage : task.stage = .completing) :
    step H path chunkDataSize q (.finalize refusals 0) =
      some (finalizePhase (H.during refusals) 0 task q) := by
  simp [step, hSingle, hStage]

theorem step_erase_of_single
    (hSingle : q.tasks = [task])
    (hStage : task.stage = .leaving) :
    step H path chunkDataSize q (.erase 0) =
      some (erasePhase 0 q) := by
  simp [step, hSingle, hStage]

/- A task that is about to leave ends with no entry. -/
theorem exists_run_of_leaving
    (task : Task)
    (hSingle : q.tasks = [task])
    (hStage : task.stage = .leaving)
    {s : LocalState}
    (hNode : bare q.node = bare s)
    (hEntry : s.receiving.lookup path = none) :
    ∃ p', Transition.run (step H path chunkDataSize) q
        [.erase 0] = some p' ∧
      Matches path p' s := by
  refine ⟨erasePhase 0 q, ?_, ?_, hEntry.symm, hNode⟩
  · rw [Transition.run, step_erase_of_single hSingle hStage]
    rfl
  · simp [erasePhase, endTask, Receiver.setCurrent, hSingle]

end Single

/- The last phases of a chunk that has the receiver alone. -/
theorem exists_run_of_opened
    (H : Host)
    (chunkDataSize : ℕ)
    (refusals : Refusals)
    (q : Receiver)
    (task : Task)
    (hSingle : q.tasks = [task])
    (hStage : task.stage = .opened)
    (hPath : task.hdr.filePath = path)
    (hCurrent : q.current = some task.entry)
    (hOpen : (q.entries task.entry).streamOpen = true) :
    ∃ events p',
      Transition.run (step H path chunkDataSize) q
          (.store refusals 0 :: events) = some p' ∧
      Matches path p'
        (settle (H.during refusals) path task.peerId
          (storeChunk (H.during refusals) chunkDataSize
            task.hdr (q.entries task.entry) q.node.disk)
          q.node) := by
  subst hPath
  have hStream : onStream (H.during refusals)
      (q.entries task.entry) = H.during refusals := by
    simp [onStream, hOpen]
  have hRun : ∀ events,
      Transition.run (step H task.hdr.filePath chunkDataSize)
          q (.store refusals 0 :: events) =
        Transition.run
          (step H task.hdr.filePath chunkDataSize)
          (storePhase (H.during refusals) chunkDataSize 0
            task q) events := by
    intro events
    rw [Transition.run,
      step_store_of_single hSingle hStage]
    rfl
  simp only [hRun]
  unfold storePhase
  dsimp only
  rw [hStream]
  cases hStore : storeChunk (H.during refusals)
      chunkDataSize task.hdr (q.entries task.entry)
      q.node.disk with
  | failed entry disk =>
      refine ⟨_, exists_run_of_leaving
        { task with stage := .leaving }
        ?_ rfl rfl (AList.lookup_erase _ _)⟩
      simp [moveTask, setEntry, hSingle]
  | kept entry disk =>
      refine ⟨[], _, rfl, ?_, ?_, rfl⟩
      · simp [endTask, setEntry, hSingle]
      · simp [endTask, setEntry, Receiver.currentEntry,
          hCurrent, settle, setReceiving]
  | complete entry disk =>
      refine ⟨[.finalize refusals 0, .erase 0], ?_⟩
      have hMoved : (moveTask 0 task .completing
          (setEntry task.entry entry disk { q with
            stored := Function.update q.stored task.entry
              (noteStored task.hdr (q.entries task.entry)
                (q.stored task.entry)) })).tasks =
          [{ task with stage := .completing }] := by
        simp [moveTask, setEntry, hSingle]
      rw [Transition.run, step_finalize_of_single hMoved rfl,
        Option.bind_some]
      apply exists_run_of_leaving
        { task with stage := .leaving }
      · simp [finalizePhase, moveTask, setEntry, hSingle]
      · rfl
      · simp [finalizePhase, moveTask, setEntry, settle,
          bare]
      · rw [settle, receiving_finalizeReceivedFile]
        exact AList.lookup_erase _ _

/- All phases after the lookup, on the entry it found. -/
theorem exists_run_of_found
    {q : Receiver}
    {task : Task}
    {found : ChunkLookupResult}
    (hSingle : q.tasks = [task])
    (hStage : task.stage =
      .found found.needOpenStream found.needCreateDirs)
    (hCurrent : q.current = some task.entry)
    (hEntry : q.entries task.entry = found.entry) :
    ∃ events p',
      Transition.run
          (step H task.hdr.filePath chunkDataSize) q
          events = some p' ∧
      Matches task.hdr.filePath p'
        (settle (H.during refusals) task.hdr.filePath
          task.peerId
          (writePhase (H.during refusals) chunkDataSize
            task.hdr found q.node.disk) q.node) := by
  have hRun : ∀ events,
      Transition.run (step H task.hdr.filePath chunkDataSize)
          q (.prepare refusals 0 :: events) =
        Transition.run
          (step H task.hdr.filePath chunkDataSize)
          (preparePhase (H.during refusals) 0 task
            found.needOpenStream found.needCreateDirs q)
          events := by
    intro events
    rw [Transition.run,
      step_prepare_of_single hSingle hStage]
    rfl
  rw [writePhase_eq]
  cases hPrepare : prepareStream (H.during refusals)
      task.hdr.filePath found q.node.disk with
  | mk disk opened =>
      have hFound : prepareStream (H.during refusals)
          task.hdr.filePath
          ⟨q.entries task.entry, found.needOpenStream,
            found.needCreateDirs⟩ q.node.disk =
          (disk, opened) := by
        rw [hEntry]
        exact hPrepare
      cases opened with
      | false =>
          refine ⟨[.prepare refusals 0, .erase 0], ?_⟩
          rw [hRun, preparePhase]
          dsimp only
          rw [hFound]
          apply exists_run_of_leaving
            { task with stage := .leaving }
          · simp [moveTask, setEntry, hSingle]
          · rfl
          · rfl
          · exact AList.lookup_erase _ _
      | true =>
          have hNext := exists_run_of_opened H chunkDataSize
            refusals
            (moveTask 0 task .opened
              (setEntry task.entry
                { q.entries task.entry with
                  streamOpen := true } disk q))
            { task with stage := .opened }
            (by simp [moveTask, setEntry, hSingle]) rfl rfl
            hCurrent
            (by simp [moveTask, setEntry])
          rcases hNext with ⟨events, p', hRest, hMatches⟩
          refine ⟨.prepare refusals 0 ::
            .store refusals 0 :: events, p', ?_, ?_⟩
          · rw [hRun, preparePhase, hFound]
            exact hRest
          · have hSame : (moveTask 0 task .opened
                (setEntry task.entry
                  { q.entries task.entry with
                    streamOpen := true } disk q)).entries
                  task.entry =
                { found.entry with streamOpen := true } := by
              rw [← hEntry]
              exact Function.update_self _ _ _
            rw [hSame] at hMatches
            exact hMatches

/-
  A chunk that nobody interferes with goes through its
  phases as handle_chunk does.
-/
theorem phases_eq_handleChunk
    (hAlone : p.tasks = [])
    (hPath : hdr.filePath = path)
    (peerId : String) :
    ∃ events p',
      Transition.run (step H path chunkDataSize) p
          (.lookup refusals hdr peerId :: events) =
        some p' ∧
      Matches path p'
        (handleChunk (H.during refusals) chunkDataSize hdr
          peerId (p.view path)) := by
  subst hPath
  have hRun : ∀ events,
      Transition.run (step H hdr.filePath chunkDataSize)
          p (.lookup refusals hdr peerId :: events) =
        Transition.run
          (step H hdr.filePath chunkDataSize)
          (lookupPhase (H.during refusals) hdr peerId p)
          events := by
    intro events
    rw [Transition.run, step, if_pos rfl]
    rfl
  simp only [hRun]
  rw [handleChunk_eq]
  by_cases hValid : validateChunkHeader hdr = true
  · rw [hValid]
    simp only [Bool.not_true, Bool.false_eq_true, if_false]
    cases hLookup : lookupOrCreateReceiving
        (H.during refusals) hdr.filePath hdr.totalChunks
        peerId (p.view hdr.filePath) with
    | mk found s =>
        cases found with
        | none =>
            have hSame := lookupOrCreateReceiving_eq_none
              hLookup
            refine ⟨[], p, ?_, hAlone, ?_, ?_⟩
            · simp [Transition.run, lookupPhase, hLookup]
            · rw [hSame, lookup_view]
            · rw [hSame]
              rfl
        | some found =>
            rw [lookupPhase_of_found hValid hLookup]
            have hSingle : p.tasks ++
                [lookedUp hdr peerId p found] =
                  [lookedUp hdr peerId p found] := by
              rw [hAlone, List.nil_append]
            have hEntry : (p.setCurrent
                (some found.entry)).entries p.slot =
                  found.entry := Function.update_self _ _ _
            exact exists_run_of_found
              (q := { p.setCurrent (some found.entry) with
                node := s
                tasks := p.tasks ++
                  [lookedUp hdr peerId p found] })
              hSingle rfl rfl hEntry
  · refine ⟨[], p, ?_, hAlone, ?_, ?_⟩
    · simp [Transition.run, lookupPhase, hValid]
    · simp [hValid]
    · simp only [hValid]
      rfl

end Alone

end ChunkPhases

end VeritasSync
