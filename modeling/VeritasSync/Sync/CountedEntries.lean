import VeritasSync.Sync.ChunkPhases

/-
  The entries of one path in the progress counters: which
  lookups count a file as to be transferred, and which steps
  of a task count one as done.

  Main declarations:
    * `ChunkPhases.countsTotal`, `ChunkPhases.countsDone`
    * `ChunkPhases.Ledger`
    * `ChunkPhases.ledger_of_step`
-/

namespace VeritasSync

namespace ChunkPhases

open TransferManager PathUtils

------------------------------------------------------------
-- What A Step Counts
------------------------------------------------------------

/-
  A lookup counts a file that the map did not have, and an
  announced one whose first chunk this is: one that is still
  without its temporary file.
-/
def startsReceiving
    (H : Host)
    (hdr : ChunkHeader)
    (p : Receiver) : Bool :=
  match p.currentEntry with
  | none => true
  | some recv =>
      (adoptTotal H hdr.filePath hdr.totalChunks recv
        (p.view hdr.filePath)).1.entry.tempPath == ""

/- The entry that the step counts in the total. -/
def countsTotal
    (H : Host)
    (p : Receiver) : Event → Option ℕ
| .lookup refusals hdr _ =>
    if validateChunkHeader hdr &&
        isPathSafe (H.during refusals) hdr.filePath &&
        startsReceiving (H.during refusals) hdr p then
      some p.slot
    else
      none
| _ => none

/-
  The entry that the step counts as done: its directories or
  its stream could not be had, a write failed, or finalize
  was called.
-/
def countsDone
    (H : Host)
    (chunkDataSize : ℕ)
    (p : Receiver) : Event → Option ℕ
| .prepare refusals n =>
    p.tasks[n]?.bind (fun task =>
      match task.stage with
      | .found needOpenStream needCreateDirs =>
          if lockFree task.entry p &&
              !(prepareStream (H.during refusals)
                task.hdr.filePath
                ⟨p.entries task.entry, needOpenStream,
                  needCreateDirs⟩ p.node.disk).2 then
            some task.entry
          else
            none
      | _ => none)
| .store refusals n =>
    p.tasks[n]?.bind (fun task =>
      if task.stage = .opened then
        match storeChunk
            (onStream (H.during refusals)
              (p.entries task.entry))
            chunkDataSize task.hdr (p.entries task.entry)
            p.node.disk with
        | .failed _ _ => some task.entry
        | _ => none
      else
        none)
| .finalize _ n =>
    p.tasks[n]?.bind (fun task =>
      if task.stage = .completing then
        some task.entry
      else
        none)
| _ => none

/- One more for the entry that was counted, if any was. -/
def countUp
    (counted : Option ℕ)
    (counts : ℕ → ℕ) : ℕ → ℕ :=
  fun k => counts k + if counted = some k then 1 else 0

@[simp] theorem countUp_none (counts : ℕ → ℕ) :
    countUp none counts = counts := by
  funext k
  simp [countUp]

@[simp] theorem countUp_self
    (k : ℕ)
    (counts : ℕ → ℕ) :
    countUp (some k) counts k = counts k + 1 := by
  simp [countUp]

theorem countUp_of_ne
    {k j : ℕ}
    (hOther : j ≠ k)
    (counts : ℕ → ℕ) :
    countUp (some k) counts j = counts j := by
  simp [countUp, Ne.symm hOther]

------------------------------------------------------------
-- Tasks Of One Entry
------------------------------------------------------------

/- Of two tasks of one entry at least one waits. -/
def Alone (tasks : List Task) : Prop :=
  ∀ (m n : ℕ) (a b : Task), m ≠ n →
    tasks[m]? = some a →
    tasks[n]? = some b →
    a.entry = b.entry →
    a.stage.waits = true ∨ b.stage.waits = true

/- All tasks of the entry but the n-th one wait. -/
def OthersWait
    (tasks : List Task)
    (n k : ℕ) : Prop :=
  ∀ (m : ℕ) (other : Task), m ≠ n →
    tasks[m]? = some other →
    other.entry = k →
    other.stage.waits = true

section Alone

variable
  {tasks : List Task}
  {n : ℕ}
  {task : Task}

theorem Alone.others
    (hAlone : Alone tasks)
    (hTask : tasks[n]? = some task)
    (hBusy : task.stage.waits = false) :
    OthersWait tasks n task.entry := by
  intro m other hOther hM hSame
  rcases hAlone m n other task hOther hM hTask hSame with
    hWaits | hWaits
  · exact hWaits
  · rw [hBusy] at hWaits
    cases hWaits

theorem othersWait_of_lockFree
    {p : Receiver}
    {k : ℕ}
    (hFree : lockFree k p = true)
    (n : ℕ) :
    OthersWait p.tasks n k := by
  intro m other _ hM hSame
  have hEvery := List.all_eq_true.mp hFree other
    (List.mem_of_getElem? hM)
  simpa [hSame] using hEvery

theorem Alone.set
    (hAlone : Alone tasks)
    (hOthers : OthersWait tasks n task.entry) :
    Alone (tasks.set n task) := by
  intro i j a b hNe hA hB hSame
  rw [List.getElem?_set] at hA hB
  split at hA
  next hI =>
    split at hB
    next hJ => exact absurd (hI.symm.trans hJ) hNe
    next hJ =>
      have hNew : task = a := by
        split at hA
        · exact Option.some.inj hA
        · cases hA
      refine Or.inr (hOthers j b (Ne.symm hJ) hB ?_)
      rw [← hSame, hNew]
  next hI =>
    split at hB
    next hJ =>
      have hNew : task = b := by
        split at hB
        · exact Option.some.inj hB
        · cases hB
      refine Or.inl (hOthers i a (Ne.symm hI) hA ?_)
      rw [hSame, hNew]
    next hJ => exact hAlone i j a b hNe hA hB hSame

theorem Alone.append
    (hAlone : Alone tasks)
    (hWaits : task.stage.waits = true) :
    Alone (tasks ++ [task]) := by
  have hCases : ∀ (i : ℕ) (a : Task),
      (tasks ++ [task])[i]? = some a →
      tasks[i]? = some a ∨ a.stage.waits = true := by
    intro i a hA
    rw [List.getElem?_append] at hA
    split at hA
    next => exact Or.inl hA
    next =>
      have hMem := List.mem_of_getElem? hA
      rw [List.mem_singleton.mp hMem]
      exact Or.inr hWaits
  intro i j a b hNe hA hB hSame
  rcases hCases i a hA with hOldA | hNew
  · rcases hCases j b hB with hOldB | hNew
    · exact hAlone i j a b hNe hOldA hOldB hSame
    · exact Or.inr hNew
  · exact Or.inl hNew

theorem Alone.eraseIdx
    (hAlone : Alone tasks)
    (n : ℕ) :
    Alone (tasks.eraseIdx n) := by
  intro i j a b hNe hA hB hSame
  rw [List.getElem?_eraseIdx] at hA hB
  split at hA <;> split at hB
  · exact hAlone i j a b hNe hA hB hSame
  · exact hAlone i (j + 1) a b (by omega) hA hB hSame
  · exact hAlone (i + 1) j a b (by omega) hA hB hSame
  · exact hAlone (i + 1) (j + 1) a b (by omega) hA hB hSame

/- A task at another stage is another task. -/
theorem exists_other_of_stage
    (hTask : tasks[n]? = some task)
    {other : Task}
    (hOther : other ∈ tasks)
    (hStage : other.stage ≠ task.stage) :
    ∃ m, m ≠ n ∧ tasks[m]? = some other := by
  rcases List.getElem?_of_mem hOther with ⟨m, hM⟩
  refine ⟨m, ?_, hM⟩
  intro hSame
  rw [hSame, hTask] at hM
  exact hStage (by rw [Option.some.inj hM])

end Alone

------------------------------------------------------------
-- The Ledger Of A Path
------------------------------------------------------------

/-
  An entry is counted in the total once, when it learns its
  temporary file; its tasks come later.  It is not counted
  as done while the map holds it, but by a task that is
  about to take it out; and tasks of an entry outside the
  map belong to a file that is done.
-/
structure Ledger
    (p : Receiver)
    (totals dones : ℕ → ℕ) : Prop where
  temps : ∀ k, (p.entries k).tempPath = "" →
    (p.entries k).totalChunks = 0
  unused : ∀ k, p.fresh ≤ k → totals k = 0
  below : ∀ k, p.current = some k → k < p.fresh
  counted : ∀ k, p.current = some k →
    totals k = if (p.entries k).tempPath = "" then 0 else 1
  started : ∀ task ∈ p.tasks,
    0 < (p.entries task.entry).totalChunks ∧
      totals task.entry = 1
  dones_le : ∀ k, dones k ≤ totals k
  pending : ∀ k, p.current = some k →
    (∀ task ∈ p.tasks, task.stage = .leaving →
      task.entry ≠ k) →
    dones k = 0
  past : ∀ task ∈ p.tasks, p.current ≠ some task.entry →
    dones task.entry = 1
  leaving : ∀ task ∈ p.tasks, task.stage = .leaving →
    p.current = some task.entry ∧ dones task.entry = 1
  alone : Alone p.tasks

section Ledger

variable
  {p : Receiver}
  {totals totals' dones : ℕ → ℕ}
  {n k : ℕ}
  {task : Task}
  {entry : ReceivingFile}
  {disk : Disk}

/- The ledger is about the entries and tasks alone. -/
theorem Ledger.onNode
    (hLedger : Ledger p totals dones)
    (s : LocalState) :
    Ledger { p with node := s } totals dones :=
  ⟨hLedger.temps, hLedger.unused, hLedger.below,
    hLedger.counted, hLedger.started, hLedger.dones_le,
    hLedger.pending, hLedger.past, hLedger.leaving,
    hLedger.alone⟩

theorem ledger_start (s : LocalState) :
    Ledger (start s) (fun _ => 0) (fun _ => 0) where
  temps _ _ := rfl
  unused _ _ := rfl
  below _ hCurrent := by cases hCurrent
  counted _ hCurrent := by cases hCurrent
  started _ hTask := by cases hTask
  dones_le _ := Nat.le_refl _
  pending _ _ _ := rfl
  past _ hTask := by cases hTask
  leaving _ hTask := by cases hTask
  alone _ _ _ _ _ hA := by cases hA

theorem slot_of_current
    (hCurrent : p.current = some k) :
    p.slot = k := by
  rw [Receiver.slot, hCurrent]
  rfl

/- A map without an entry takes the next new one. -/
theorem slot_of_no_entry
    (hNone : p.currentEntry = none) :
    p.current = none ∧ p.slot = p.fresh := by
  rw [Receiver.currentEntry, Option.map_eq_none_iff]
    at hNone
  refine ⟨hNone, ?_⟩
  rw [Receiver.slot, hNone]
  rfl

theorem currentEntry_of_current
    (hCurrent : p.current = some k) :
    p.currentEntry = some (p.entries k) := by
  rw [Receiver.currentEntry, hCurrent]
  rfl

theorem Ledger.current_of_slot
    (hLedger : Ledger p totals dones)
    (hTask : task ∈ p.tasks)
    (hSlot : task.entry = p.slot) :
    p.current = some p.slot := by
  cases hEntry : p.currentEntry with
  | none =>
      have hFresh := (slot_of_no_entry hEntry).2
      have hUnused := hLedger.unused task.entry
        (by rw [hSlot, hFresh])
      have hOne := (hLedger.started task hTask).2
      omega
  | some recv =>
      exact (exists_current_of_currentEntry hEntry).1

/- The next entry of the map is not counted as done yet. -/
theorem Ledger.dones_slot
    (hLedger : Ledger p totals dones)
    (hStaying : ∀ task ∈ p.tasks, task.stage = .leaving →
      task.entry ≠ p.slot) :
    dones p.slot = 0 := by
  cases hEntry : p.currentEntry with
  | none =>
      have hFresh := (slot_of_no_entry hEntry).2
      have hUnused := hLedger.unused p.slot (by rw [hFresh])
      have hLe := hLedger.dones_le p.slot
      omega
  | some recv =>
      apply hLedger.pending p.slot
      · exact (exists_current_of_currentEntry hEntry).1
      · exact hStaying

/- The map takes an entry in, in place of the old one. -/
theorem Ledger.put
    (hLedger : Ledger p totals dones)
    (hTemp : entry.tempPath = "" → entry.totalChunks = 0)
    (hTotal : ∀ recv, p.currentEntry = some recv →
      0 < recv.totalChunks → 0 < entry.totalChunks)
    (hSlot : totals' p.slot =
      if entry.tempPath = "" then 0 else 1)
    (hLe : totals p.slot ≤ totals' p.slot)
    (hRest : ∀ k, k ≠ p.slot → totals' k = totals k) :
    Ledger (p.setCurrent (some entry)) totals' dones := by
  have hOther : ∀ j, j ≠ p.slot →
      (p.setCurrent (some entry)).entries j = p.entries j :=
    fun j hJ => Function.update_of_ne hJ _ _
  have hSelf : (p.setCurrent (some entry)).entries p.slot =
      entry := Function.update_self _ _ _
  have hFresh : (p.setCurrent (some entry)).fresh =
      max p.fresh (p.slot + 1) := rfl
  have hSame : ∀ k, (p.setCurrent (some entry)).current =
      some k → p.slot = k :=
    fun k hCurrent => Option.some.inj hCurrent
  constructor
  case temps =>
    intro j
    by_cases hJ : j = p.slot
    · rw [hJ, hSelf]
      exact hTemp
    · rw [hOther j hJ]
      exact hLedger.temps j
  case unused =>
    intro j hJ
    rw [hFresh] at hJ
    rw [hRest j (by omega)]
    exact hLedger.unused j (by omega)
  case below =>
    intro j hCurrent
    rw [hFresh, hSame j hCurrent]
    omega
  case counted =>
    intro j hCurrent
    rw [← hSame j hCurrent, hSelf]
    exact hSlot
  case started =>
    intro task hTask
    rcases hLedger.started task hTask with ⟨hPos, hOne⟩
    by_cases hJ : task.entry = p.slot
    · rw [hJ] at hPos hOne ⊢
      rw [hSelf]
      constructor
      · apply hTotal (p.entries p.slot) ?_ hPos
        exact currentEntry_of_current
          (hLedger.current_of_slot hTask hJ)
      · split at hSlot <;> omega
    · rw [hOther _ hJ, hRest _ hJ]
      exact ⟨hPos, hOne⟩
  case dones_le =>
    intro j
    have hOld := hLedger.dones_le j
    by_cases hJ : j = p.slot
    · rw [hJ] at hOld ⊢
      omega
    · rw [hRest j hJ]
      exact hOld
  case pending =>
    intro j hCurrent hStaying
    rw [← hSame j hCurrent] at hStaying ⊢
    exact hLedger.dones_slot hStaying
  case past =>
    intro task hTask hGone
    apply hLedger.past task hTask
    intro hCurrent
    apply hGone
    rw [← slot_of_current hCurrent]
    rfl
  case leaving =>
    intro task hTask hStage
    rcases hLedger.leaving task hTask hStage with
      ⟨hCurrent, hDone⟩
    refine ⟨?_, hDone⟩
    rw [← slot_of_current hCurrent]
    rfl
  case alone => exact hLedger.alone

/- A map without an entry has no task that leaves it. -/
theorem Ledger.drop
    (hLedger : Ledger p totals dones)
    (hNone : ∀ task ∈ p.tasks,
      p.current ≠ some task.entry) :
    Ledger (p.setCurrent none) totals dones where
  temps := hLedger.temps
  unused := hLedger.unused
  below _ hCurrent := by cases hCurrent
  counted _ hCurrent := by cases hCurrent
  started := hLedger.started
  dones_le := hLedger.dones_le
  pending _ hCurrent := by cases hCurrent
  past task hTask _ := hLedger.past task hTask
    (hNone task hTask)
  leaving task hTask hStage :=
    absurd (hLedger.leaving task hTask hStage).1
      (hNone task hTask)
  alone := hLedger.alone

/-
  The tasks of a path change: a new one fits its entry, and
  none that is about to leave goes.
-/
theorem Ledger.withTasks
    (hLedger : Ledger p totals dones)
    {tasks : List Task}
    (hFits : ∀ task ∈ tasks, task ∈ p.tasks ∨
      0 < (p.entries task.entry).totalChunks ∧
        totals task.entry = 1 ∧
        (p.current ≠ some task.entry →
          dones task.entry = 1) ∧
        task.stage ≠ .leaving)
    (hLeaving : ∀ task ∈ p.tasks, task.stage = .leaving →
      task ∈ tasks)
    (hAlone : Alone tasks) :
    Ledger { p with tasks := tasks } totals dones := by
  constructor
  case temps => exact hLedger.temps
  case unused => exact hLedger.unused
  case below => exact hLedger.below
  case counted => exact hLedger.counted
  case started =>
    intro task hTask
    rcases hFits task hTask with hOld | ⟨hPos, hOne, -⟩
    · exact hLedger.started task hOld
    · exact ⟨hPos, hOne⟩
  case dones_le => exact hLedger.dones_le
  case pending =>
    intro k hCurrent hStaying
    apply hLedger.pending k hCurrent
    intro task hTask hStage
    exact hStaying task (hLeaving task hTask hStage) hStage
  case past =>
    intro task hTask hGone
    rcases hFits task hTask with hOld | ⟨-, -, hDone, -⟩
    · exact hLedger.past task hOld hGone
    · exact hDone hGone
  case leaving =>
    intro task hTask hStage
    rcases hFits task hTask with hOld | ⟨-, -, -, hStays⟩
    · exact hLedger.leaving task hOld hStage
    · exact absurd hStage hStays
  case alone => exact hAlone

/- A chunk's task on the entry of the map. -/
theorem Ledger.addTask
    (hLedger : Ledger p totals dones)
    (hCurrent : p.current = some task.entry)
    (hPos : 0 < (p.entries task.entry).totalChunks)
    (hOne : totals task.entry = 1)
    (hWaits : task.stage.waits = true) :
    Ledger { p with tasks := p.tasks ++ [task] } totals
      dones := by
  have hStays : task.stage ≠ .leaving := by
    intro hStage
    rw [hStage] at hWaits
    cases hWaits
  apply hLedger.withTasks
  · intro other hOther
    rcases List.mem_append.mp hOther with hOld | hNew
    · exact Or.inl hOld
    · rw [List.mem_singleton.mp hNew]
      exact Or.inr ⟨hPos, hOne,
        fun hGone => absurd hCurrent hGone, hStays⟩
  · exact fun other hOther _ =>
      List.mem_append_left _ hOther
  · exact hLedger.alone.append hWaits

/- Work on an entry that leaves its place and its total. -/
theorem Ledger.setEntry
    (hLedger : Ledger p totals dones)
    (hTemp : entry.tempPath = (p.entries k).tempPath)
    (hTotal : entry.totalChunks =
      (p.entries k).totalChunks) :
    Ledger (setEntry k entry disk p) totals dones := by
  have hSame : ∀ j,
      ((ChunkPhases.setEntry k entry disk p).entries
          j).tempPath = (p.entries j).tempPath ∧
        ((ChunkPhases.setEntry k entry disk p).entries
          j).totalChunks = (p.entries j).totalChunks := by
    intro j
    by_cases hJ : j = k
    · rw [hJ]
      simp only [ChunkPhases.setEntry, Function.update_self]
      exact ⟨hTemp, hTotal⟩
    · simp only [ChunkPhases.setEntry,
        Function.update_of_ne hJ]
      exact ⟨trivial, trivial⟩
  constructor
  case temps =>
    intro j
    rw [(hSame j).1, (hSame j).2]
    exact hLedger.temps j
  case unused => exact hLedger.unused
  case below => exact hLedger.below
  case counted =>
    intro j hCurrent
    rw [(hSame j).1]
    exact hLedger.counted j hCurrent
  case started =>
    intro task hTask
    rw [(hSame _).2]
    exact hLedger.started task hTask
  case dones_le => exact hLedger.dones_le
  case pending => exact hLedger.pending
  case past => exact hLedger.past
  case leaving => exact hLedger.leaving
  case alone => exact hLedger.alone

/- What a task's next stage leaves to be shown. -/
theorem mem_moveTask
    {stage : Stage}
    {other : Task}
    (hOther : other ∈ (moveTask n task stage p).tasks) :
    other ∈ p.tasks ∨
      other.entry = task.entry ∧ other.stage = stage := by
  rcases List.mem_or_eq_of_mem_set hOther with hOld | hNew
  · exact Or.inl hOld
  · rw [hNew]
    exact Or.inr ⟨rfl, rfl⟩

/- A task that goes on does not leave its entry. -/
theorem Ledger.move
    (hLedger : Ledger p totals dones)
    (hTask : p.tasks[n]? = some task)
    (hStays : task.stage ≠ .leaving)
    (hOthers : OthersWait p.tasks n task.entry)
    {stage : Stage}
    (hStage : stage ≠ .leaving) :
    Ledger (moveTask n task stage p) totals dones := by
  have hMem := List.mem_of_getElem? hTask
  apply hLedger.withTasks
  · intro other hOther
    rcases List.mem_or_eq_of_mem_set hOther with hOld | hNew
    · exact Or.inl hOld
    · rw [hNew]
      exact Or.inr ⟨(hLedger.started task hMem).1,
        (hLedger.started task hMem).2,
        hLedger.past task hMem, hStage⟩
  · intro other hOther hLeaving
    rcases exists_other_of_stage hTask hOther
      (hLeaving.trans_ne (Ne.symm hStays)) with ⟨m, hNe, hM⟩
    apply List.mem_of_getElem? (i := m)
    rw [List.getElem?_set_ne (Ne.symm hNe)]
    exact hM
  · exact hLedger.alone.set hOthers

/-
  A task of the map's entry counts it as done, and is about
  to take it out of the map.
-/
theorem Ledger.leave
    (hLedger : Ledger p totals dones)
    (hTask : p.tasks[n]? = some task)
    (hStays : task.stage ≠ .leaving)
    (hOthers : OthersWait p.tasks n task.entry)
    (hCurrent : p.current = some task.entry) :
    Ledger (moveTask n task .leaving p) totals
      (countUp (some task.entry) dones) := by
  have hMem := List.mem_of_getElem? hTask
  have hZero : dones task.entry = 0 := by
    apply hLedger.pending task.entry hCurrent
    intro other hOther hLeaving hSame
    rcases exists_other_of_stage hTask hOther
      (hLeaving.trans_ne (Ne.symm hStays)) with ⟨m, hNe, hM⟩
    have hWaits := hOthers m other hNe hM hSame
    rw [hLeaving] at hWaits
    cases hWaits
  have hOther : ∀ j, p.current ≠ some j →
      countUp (some task.entry) dones j = dones j := by
    intro j hJ
    apply countUp_of_ne
    intro hSame
    rw [hSame] at hJ
    exact hJ hCurrent
  constructor
  case temps => exact hLedger.temps
  case unused => exact hLedger.unused
  case below => exact hLedger.below
  case counted => exact hLedger.counted
  case started =>
    intro other hOther
    rcases mem_moveTask hOther with hOld | ⟨hEntry, -⟩
    · exact hLedger.started other hOld
    · rw [hEntry]
      exact hLedger.started task hMem
  case dones_le =>
    intro j
    by_cases hJ : j = task.entry
    · rw [hJ, countUp_self, hZero,
        (hLedger.started task hMem).2]
    · rw [countUp_of_ne hJ]
      exact hLedger.dones_le j
  case pending =>
    intro k hK hStaying
    have hOwn := Option.some.inj (hCurrent.symm.trans hK)
    refine absurd hOwn (hStaying { task with
      stage := .leaving } ?_ rfl)
    apply List.mem_of_getElem? (i := n)
    rw [moveTask, List.getElem?_set_self]
    exact (List.getElem?_eq_some_iff.mp hTask).choose
  case past =>
    intro other hOld hGone
    rw [hOther _ hGone]
    rcases mem_moveTask hOld with hOld | ⟨hEntry, -⟩
    · exact hLedger.past other hOld hGone
    · rw [hEntry] at hGone
      exact absurd hCurrent hGone
  case leaving =>
    intro other hOld hLeaving
    rcases mem_moveTask hOld with hOld | ⟨hEntry, -⟩
    · rcases hLedger.leaving other hOld hLeaving with
        ⟨hOwn, hDone⟩
      rw [hCurrent, Option.some.injEq] at hOwn
      rw [← hOwn] at hDone
      omega
    · rw [hEntry, countUp_self, hZero]
      exact ⟨hCurrent, rfl⟩
  case alone => exact hLedger.alone.set hOthers

/- A task ends, and its entry stays. -/
theorem Ledger.finish
    (hLedger : Ledger p totals dones)
    (hTask : p.tasks[n]? = some task)
    (hStays : task.stage ≠ .leaving) :
    Ledger (endTask n p) totals dones := by
  apply hLedger.withTasks
  · exact fun other hOther =>
      Or.inl (List.mem_of_mem_eraseIdx hOther)
  · intro other hOther hLeaving
    rcases exists_other_of_stage hTask hOther
      (hLeaving.trans_ne (Ne.symm hStays)) with ⟨m, hNe, hM⟩
    exact List.mem_eraseIdx_iff_getElem?.mpr ⟨m, hNe, hM⟩
  · exact hLedger.alone.eraseIdx n

/- The entry that was counted as done leaves the map. -/
theorem Ledger.erase
    (hLedger : Ledger p totals dones)
    (hTask : p.tasks[n]? = some task)
    (hStage : task.stage = .leaving) :
    Ledger (erasePhase n p) totals dones := by
  have hMem : ∀ other ∈ (erasePhase n p).tasks,
      other ∈ p.tasks :=
    fun other hOther => List.mem_of_mem_eraseIdx hOther
  rcases hLedger.leaving task (List.mem_of_getElem? hTask)
    hStage with ⟨hCurrent, hDone⟩
  constructor
  case temps => exact hLedger.temps
  case unused => exact hLedger.unused
  case below =>
    intro k hK
    cases hK
  case counted =>
    intro k hK
    cases hK
  case started =>
    exact fun other hOther =>
      hLedger.started other (hMem other hOther)
  case dones_le => exact hLedger.dones_le
  case pending =>
    intro k hK
    cases hK
  case past =>
    intro other hOther _
    by_cases hSame : task.entry = other.entry
    · rw [← hSame]
      exact hDone
    · apply hLedger.past other (hMem other hOther)
      rw [hCurrent]
      exact fun hEq => hSame (Option.some.inj hEq)
  case leaving =>
    intro other hOther hLeaving
    rcases hLedger.leaving other (hMem other hOther)
      hLeaving with ⟨hOwn, -⟩
    rw [hCurrent, Option.some.injEq] at hOwn
    -- two tasks cannot leave one entry
    have hIndex : ∃ m, m ≠ n ∧ p.tasks[m]? = some other :=
      List.mem_eraseIdx_iff_getElem?.mp hOther
    rcases hIndex with ⟨m, hNe, hM⟩
    rcases hLedger.alone m n other task hNe hM hTask
      hOwn.symm with hWaits | hWaits
    · rw [hLeaving] at hWaits
      cases hWaits
    · rw [hStage] at hWaits
      cases hWaits
  case alone => exact hLedger.alone.eraseIdx n

------------------------------------------------------------
-- Lookups
------------------------------------------------------------

/- What a lookup hands out is ready for its chunks. -/
theorem lookup_of_safe
    (H : Host)
    (path peerId : String)
    (total : ℕ)
    (s : LocalState)
    (hSafe : isPathSafe H path = true) :
    ∃ found s',
      lookupOrCreateReceiving H path total peerId s =
          (some found, s') ∧
        found.entry.tempPath ≠ "" ∧
        found.entry.totalChunks = total := by
  unfold lookupOrCreateReceiving
  rw [hSafe]
  cases s.receiving.lookup path with
  | none =>
      exact ⟨_, _, rfl, tempPathOf_ne_empty path, rfl⟩
  | some recv =>
      refine ⟨_, _, rfl, ?_, ?_⟩
      · dsimp only
        rw [entry_adoptTempPath]
        dsimp only
        split
        next => exact tempPathOf_ne_empty path
        next hTemp => exact hTemp
      · dsimp only
        rw [entry_adoptTempPath]
        unfold adoptTotal
        dsimp only
        split
        next => rfl
        next =>
          split
          next => rfl
          next hSame => exact not_not.mp hSame

/- A file starts when its entry is not counted yet. -/
theorem Ledger.totals_slot
    (hLedger : Ledger p totals dones)
    (H : Host)
    (hdr : ChunkHeader) :
    totals p.slot =
      if startsReceiving H hdr p = true then 0 else 1 := by
  unfold startsReceiving
  cases hEntry : p.currentEntry with
  | none =>
      rw [if_pos rfl]
      exact hLedger.unused p.slot
        (by rw [(slot_of_no_entry hEntry).2])
  | some recv =>
      rcases exists_current_of_currentEntry hEntry with
        ⟨hCurrent, hRecv⟩
      have hTemp := hLedger.temps p.slot
      rw [hLedger.counted p.slot hCurrent, hRecv]
      rw [hRecv] at hTemp
      unfold adoptTotal
      by_cases hZero : recv.totalChunks = 0
      · simp [hZero]
      · have hNonempty : recv.tempPath ≠ "" :=
          fun hEmpty => hZero (hTemp hEmpty)
        by_cases hSame : recv.totalChunks = hdr.totalChunks
        · have hTotal : hdr.totalChunks ≠ 0 := by
            rw [← hSame]
            exact hZero
          simp [hSame, hTotal, hNonempty]
        · simp [hZero, hSame, hNonempty,
            tempPathOf_ne_empty]

theorem Ledger.lookup
    (hLedger : Ledger p totals dones)
    (H : Host)
    (refusals : Refusals)
    (hdr : ChunkHeader)
    (peerId : String) :
    Ledger (lookupPhase (H.during refusals) hdr peerId p)
      (countUp
        (countsTotal H p (.lookup refusals hdr peerId))
        totals) dones := by
  rw [countsTotal]
  cases hValid : validateChunkHeader hdr with
  | false =>
      simp only [lookupPhase, hValid, Bool.not_false, if_true,
        Bool.false_and, Bool.false_eq_true, if_false,
        countUp_none]
      exact hLedger
  | true =>
      cases hSafe : isPathSafe (H.during refusals)
          hdr.filePath with
      | false =>
          have hRefused : lookupPhase (H.during refusals) hdr
              peerId p = p := by
            simp [lookupPhase, lookupOrCreateReceiving,
              hSafe, hValid]
          simp only [hRefused, Bool.true_and, Bool.false_and,
            Bool.false_eq_true, if_false, countUp_none]
          exact hLedger
      | true =>
          have hPos : 0 < hdr.totalChunks := by
            simp only [validateChunkHeader,
              Bool.and_eq_true, bne_iff_ne] at hValid
            omega
          rcases lookup_of_safe (H.during refusals)
            hdr.filePath peerId hdr.totalChunks
            (p.view hdr.filePath) hSafe with
            ⟨found, s, hLookup, hTemp, hTotal⟩
          have hSlot := hLedger.totals_slot
            (H.during refusals) hdr
          rw [lookupPhase_of_found hValid hLookup]
          simp only [Bool.true_and]
          have hOne : countUp
              (if startsReceiving (H.during refusals) hdr p
                then some p.slot else none)
              totals p.slot = 1 := by
            split at hSlot
            next hStarts =>
              rw [if_pos hStarts, countUp_self, hSlot]
            next hStarts =>
              rw [if_neg hStarts, countUp_none, hSlot]
          have hSelf : (p.setCurrent
              (some found.entry)).entries p.slot =
                found.entry := Function.update_self _ _ _
          have hPut : Ledger (p.setCurrent (some found.entry))
              (countUp
                (if startsReceiving (H.during refusals) hdr p
                  then some p.slot else none) totals)
              dones := by
            apply hLedger.put
            · exact fun hEmpty => absurd hEmpty hTemp
            · intro _ _ _
              rw [hTotal]
              exact hPos
            · rw [hOne, if_neg hTemp]
            · rw [hOne, hSlot]
              split <;> omega
            · intro k hK
              split
              next => exact countUp_of_ne hK totals
              next => rw [countUp_none]
          apply (hPut.onNode s).addTask
          · rfl
          · change 0 < ((p.setCurrent
              (some found.entry)).entries
                p.slot).totalChunks
            rw [hSelf, hTotal]
            exact hPos
          · exact hOne
          · rfl

------------------------------------------------------------
-- Other Steps
------------------------------------------------------------

/- Chunks come and go; place and total of an entry stay. -/
theorem storeChunk_keeps
    (H : Host)
    (chunkDataSize : ℕ)
    (hdr : ChunkHeader)
    (entry : ReceivingFile)
    (disk : Disk) :
    match storeChunk H chunkDataSize hdr entry disk with
    | .failed entry' _ =>
        entry'.tempPath = entry.tempPath ∧
          entry'.totalChunks = entry.totalChunks
    | .kept entry' _ =>
        entry'.tempPath = entry.tempPath ∧
          entry'.totalChunks = entry.totalChunks
    | .complete entry' _ =>
        entry'.tempPath = entry.tempPath ∧
          entry'.totalChunks = entry.totalChunks := by
  unfold storeChunk
  dsimp only
  split_ifs <;> exact ⟨rfl, rfl⟩

/- What the map makes of an entry between its chunks. -/
theorem Ledger.update
    (hLedger : Ledger p totals dones)
    {entry : ReceivingFile}
    (hChanged : Changed p.currentEntry entry) :
    Ledger (p.setCurrent (some entry)) totals dones := by
  rcases hChanged with ⟨recv, hEntry, hSame⟩ |
    ⟨hNone, peerId, hash, size, hAnnounced⟩
  · rcases exists_current_of_currentEntry hEntry with
      ⟨hCurrent, hRecv⟩
    have hTemps := hLedger.temps p.slot
    have hCounted := hLedger.counted p.slot hCurrent
    rw [hRecv] at hTemps hCounted
    apply hLedger.put
    · rw [hSame.temp, hSame.total]
      exact hTemps
    · intro other hOther hPos
      rw [hEntry] at hOther
      cases hOther
      rw [hSame.total]
      exact hPos
    · rw [hSame.temp]
      exact hCounted
    · exact Nat.le_refl _
    · exact fun _ _ => rfl
  · rw [hAnnounced]
    apply hLedger.put
    · exact fun _ => rfl
    · intro recv hRecv
      rw [hNone] at hRecv
      cases hRecv
    · exact hLedger.unused p.slot
        (by rw [(slot_of_no_entry hNone).2])
    · exact Nat.le_refl _
    · exact fun _ _ => rfl

/- An entry with a task knows its total, and stays. -/
theorem Ledger.cleanup
    (hLedger : Ledger p totals dones)
    (expired : Bool) :
    Ledger (p.setCurrent
      (p.currentEntry.bind (cleanedEntry expired)))
      totals dones := by
  cases hCleaned : p.currentEntry.bind
      (cleanedEntry expired) with
  | some entry =>
      rw [Option.bind_eq_some_iff] at hCleaned
      rcases hCleaned with ⟨recv, hEntry, hNew⟩
      exact hLedger.update (Or.inl ⟨recv, hEntry,
        sameChunks_cleanedEntry hNew⟩)
  | none =>
      apply hLedger.drop
      intro task hTask hCurrent
      have hPos := (hLedger.started task hTask).1
      rw [currentEntry_of_current hCurrent] at hCleaned
      simp only [Option.bind_some, cleanedEntry] at hCleaned
      split_ifs at hCleaned with hBusy hStale hExpired
      rw [hStale.1] at hPos
      exact Nat.lt_irrefl 0 hPos

theorem Ledger.cancel
    (hLedger : Ledger p totals dones)
    (peerId : String) :
    Ledger (p.setCurrent
      (p.currentEntry.bind (cancelledEntry peerId)))
      totals dones := by
  cases hEntry : p.currentEntry with
  | none =>
      apply hLedger.drop
      intro task _ hCurrent
      rw [currentEntry_of_current hCurrent] at hEntry
      cases hEntry
  | some recv =>
      have hKept : ∃ entry,
          cancelledEntry peerId recv = some entry := by
        unfold cancelledEntry
        split
        next => exact ⟨_, rfl⟩
        next => exact ⟨_, rfl⟩
      rcases hKept with ⟨entry, hNew⟩
      rw [Option.bind_some, hNew]
      apply hLedger.update
      exact Or.inl ⟨recv, hEntry,
        sameChunks_cancelledEntry hNew⟩

theorem Ledger.register
    (hLedger : Ledger p totals dones)
    (path peerId hash : String)
    (size : ℕ) :
    Ledger (p.setCurrent
      ((registerExpectedMetadata path peerId hash size
        (p.view path)).receiving.lookup path))
      totals dones := by
  cases hEntry : (registerExpectedMetadata path peerId hash
      size (p.view path)).receiving.lookup path with
  | some entry =>
      have hChanged :=
        changed_registerExpectedMetadata hEntry
      rw [lookup_view] at hChanged
      exact hLedger.update hChanged
  | none =>
      apply hLedger.drop
      intro task _ hCurrent
      have hRecv : (p.view path).receiving.lookup path =
          some (p.entries task.entry) := by
        rw [lookup_view]
        exact currentEntry_of_current hCurrent
      unfold registerExpectedMetadata at hEntry
      rw [hRecv] at hEntry
      dsimp only at hEntry
      split at hEntry
      next =>
        rw [hRecv] at hEntry
        cases hEntry
      next =>
        rw [setReceiving, AList.lookup_insert] at hEntry
        cases hEntry

end Ledger

------------------------------------------------------------
-- Steps Keep The Ledger
------------------------------------------------------------

section Steps

variable
  {H : Host}
  {path : String}
  {chunkDataSize : ℕ}
  {p p' : Receiver}
  {totals dones : ℕ → ℕ}
  {refusals : Refusals}
  {n : ℕ}
  {task : Task}

theorem Ledger.prepare
    (hLedger : Ledger p totals dones)
    (hTask : p.tasks[n]? = some task)
    {needOpenStream needCreateDirs : Bool}
    (hStage : task.stage =
      .found needOpenStream needCreateDirs)
    (hFree : lockFree task.entry p = true)
    (hTimely : ∀ k ∈ countsDone H chunkDataSize p
      (.prepare refusals n), p.current = some k) :
    Ledger
      (preparePhase (H.during refusals) n task
        needOpenStream needCreateDirs p)
      totals
      (countUp (countsDone H chunkDataSize p
        (.prepare refusals n)) dones) := by
  have hStays : task.stage ≠ .leaving := by
    rw [hStage]
    exact fun hEq => by cases hEq
  have hOthers := othersWait_of_lockFree hFree n
  unfold preparePhase
  simp only [countsDone, hTask, Option.bind_some, hStage,
    hFree, Bool.true_and] at hTimely ⊢
  cases hPrepare : prepareStream (H.during refusals)
      task.hdr.filePath
      ⟨p.entries task.entry, needOpenStream, needCreateDirs⟩
      p.node.disk with
  | mk disk opened =>
      rw [hPrepare] at hTimely
      cases opened with
      | true =>
          simp only [Bool.not_true, Bool.false_eq_true,
            if_false, countUp_none]
          apply Ledger.move
          · exact hLedger.setEntry rfl rfl
          · exact hTask
          · exact hStays
          · exact hOthers
          · exact fun hEq => by cases hEq
      | false =>
          simp only [Bool.not_false, if_true]
          apply Ledger.leave
          · exact hLedger.setEntry rfl rfl
          · exact hTask
          · exact hStays
          · exact hOthers
          · exact hTimely task.entry rfl

theorem Ledger.store
    (hLedger : Ledger p totals dones)
    (hTask : p.tasks[n]? = some task)
    (hStage : task.stage = .opened)
    (hTimely : ∀ k ∈ countsDone H chunkDataSize p
      (.store refusals n), p.current = some k) :
    Ledger
      (storePhase (H.during refusals) chunkDataSize n task p)
      totals
      (countUp (countsDone H chunkDataSize p
        (.store refusals n)) dones) := by
  have hStays : task.stage ≠ .leaving := by
    rw [hStage]
    exact fun hEq => by cases hEq
  have hBusy : task.stage.waits = false := by
    rw [hStage]
    rfl
  have hOthers := hLedger.alone.others hTask hBusy
  have hKeeps := storeChunk_keeps
    (onStream (H.during refusals) (p.entries task.entry))
    chunkDataSize task.hdr (p.entries task.entry)
    p.node.disk
  have hNoted : Ledger { p with
      stored := Function.update p.stored task.entry
        (noteStored task.hdr (p.entries task.entry)
          (p.stored task.entry)) } totals dones :=
    ⟨hLedger.temps, hLedger.unused, hLedger.below,
      hLedger.counted, hLedger.started, hLedger.dones_le,
      hLedger.pending, hLedger.past, hLedger.leaving,
      hLedger.alone⟩
  unfold storePhase
  simp only [countsDone, hTask, Option.bind_some, hStage,
    if_true] at hTimely ⊢
  cases hStore : storeChunk
      (onStream (H.during refusals) (p.entries task.entry))
      chunkDataSize task.hdr (p.entries task.entry)
      p.node.disk with
  | failed entry disk =>
      rw [hStore] at hKeeps hTimely
      apply Ledger.leave
      · exact hNoted.setEntry hKeeps.1 hKeeps.2
      · exact hTask
      · exact hStays
      · exact hOthers
      · exact hTimely task.entry rfl
  | kept entry disk =>
      rw [hStore] at hKeeps
      rw [countUp_none]
      apply Ledger.finish
      · exact hNoted.setEntry hKeeps.1 hKeeps.2
      · exact hTask
      · exact hStays
  | complete entry disk =>
      rw [hStore] at hKeeps
      rw [countUp_none]
      apply Ledger.move
      · exact hNoted.setEntry hKeeps.1 hKeeps.2
      · exact hTask
      · exact hStays
      · exact hOthers
      · exact fun hEq => by cases hEq

theorem Ledger.finalize
    (hLedger : Ledger p totals dones)
    (hTask : p.tasks[n]? = some task)
    (hStage : task.stage = .completing)
    (hTimely : ∀ k ∈ countsDone H chunkDataSize p
      (.finalize refusals n), p.current = some k) :
    Ledger (finalizePhase (H.during refusals) n task p)
      totals
      (countUp (countsDone H chunkDataSize p
        (.finalize refusals n)) dones) := by
  have hBusy : task.stage.waits = false := by
    rw [hStage]
    rfl
  simp only [countsDone, hTask, Option.bind_some, hStage,
    if_true] at hTimely ⊢
  have hClosed : Ledger
      (ChunkPhases.setEntry task.entry
        { p.entries task.entry with streamOpen := false }
        p.node.disk p) totals dones :=
    hLedger.setEntry rfl rfl
  apply Ledger.leave
  · exact ⟨hClosed.temps, hClosed.unused, hClosed.below,
      hClosed.counted, hClosed.started, hClosed.dones_le,
      hClosed.pending, hClosed.past, hClosed.leaving,
      hClosed.alone⟩
  · exact hTask
  · rw [hStage]
    exact fun hEq => by cases hEq
  · exact hLedger.alone.others hTask hBusy
  · exact hTimely task.entry rfl

/- A step that counts an entry as done can be taken. -/
theorem exists_step_of_countsDone
    {event : Event}
    {k : ℕ}
    (path : String)
    (hCounts : countsDone H chunkDataSize p event =
      some k) :
    (∃ p', step H path chunkDataSize p event = some p') ∧
      countsTotal H p event = none ∧
      ∃ task ∈ p.tasks, task.entry = k := by
  cases event with
  | prepare refusals n =>
      simp only [countsDone, Option.bind_eq_some_iff]
        at hCounts
      rcases hCounts with ⟨task, hTask, hCounts⟩
      split at hCounts
      next hStage =>
        split at hCounts
        next hFails =>
          rw [Bool.and_eq_true] at hFails
          exact ⟨⟨_, step_prepare_eq_some_iff.mpr
            ⟨task, _, _, hTask, hStage, hFails.1, rfl⟩⟩,
            rfl, task,
            List.mem_of_getElem? hTask,
            Option.some.inj hCounts⟩
        next => cases hCounts
      next => cases hCounts
  | store refusals n =>
      simp only [countsDone, Option.bind_eq_some_iff]
        at hCounts
      rcases hCounts with ⟨task, hTask, hCounts⟩
      split at hCounts
      next hStage =>
        have hEntry : task.entry = k := by
          split at hCounts
          next => exact Option.some.inj hCounts
          next => cases hCounts
        exact ⟨⟨_, step_store_eq_some_iff.mpr
          ⟨task, hTask, hStage, rfl⟩⟩, rfl, task,
          List.mem_of_getElem? hTask, hEntry⟩
      next => cases hCounts
  | finalize refusals n =>
      simp only [countsDone, Option.bind_eq_some_iff]
        at hCounts
      rcases hCounts with ⟨task, hTask, hCounts⟩
      split at hCounts
      next hStage =>
        exact ⟨⟨_, step_finalize_eq_some_iff.mpr
          ⟨task, hTask, hStage, rfl⟩⟩, rfl, task,
          List.mem_of_getElem? hTask,
          Option.some.inj hCounts⟩
      next => cases hCounts
  | lookup refusals hdr peerId => cases hCounts
  | erase n => cases hCounts
  | register peerId hash size => cases hCounts
  | cleanup expired => cases hCounts
  | cancel peerId => cases hCounts

/-
  A step keeps the ledger if what it counts as done is still
  what the map holds.
-/
theorem ledger_of_step
    {event : Event}
    (hLedger : Ledger p totals dones)
    (hTimely : ∀ k ∈ countsDone H chunkDataSize p event,
      p.current = some k)
    (hStep : step H path chunkDataSize p event = some p') :
    Ledger p' (countUp (countsTotal H p event) totals)
      (countUp (countsDone H chunkDataSize p event)
        dones) := by
  cases event with
  | lookup refusals hdr peerId =>
      rcases step_lookup_eq_some_iff.mp hStep with
        ⟨-, rfl⟩
      exact hLedger.lookup H refusals hdr peerId
  | prepare refusals n =>
      rcases step_prepare_eq_some_iff.mp hStep with
        ⟨task, _, _, hTask, hStage, hFree, rfl⟩
      exact hLedger.prepare hTask hStage hFree hTimely
  | store refusals n =>
      rcases step_store_eq_some_iff.mp hStep with
        ⟨task, hTask, hStage, rfl⟩
      exact hLedger.store hTask hStage hTimely
  | finalize refusals n =>
      rcases step_finalize_eq_some_iff.mp hStep with
        ⟨task, hTask, hStage, rfl⟩
      exact hLedger.finalize hTask hStage hTimely
  | erase n =>
      rcases step_erase_eq_some_iff.mp hStep with
        ⟨task, hTask, hStage, rfl⟩
      exact hLedger.erase hTask hStage
  | register peerId hash size =>
      cases hStep
      exact hLedger.register path peerId hash size
  | cleanup expired =>
      cases hStep
      exact hLedger.cleanup expired
  | cancel peerId =>
      cases hStep
      exact hLedger.cancel peerId

end Steps

end ChunkPhases

end VeritasSync
