import VeritasSync.Library.LastWriter
import VeritasSync.Storage.PipelineReadings

/-
  What the maps hold once the pipeline has come to rest.

  A path that was pending and that nothing has touched since
  is in the maps as it is on the disk.  The rounds that were
  under way may have read it earlier; they are committed
  before the round that reads it last.

  A time stamp or a digest that cannot be read is looked at
  again.  The other calls are not allowed to fail for the
  path: the program skips it then, or takes it for deleted.

  Main declarations:
    * `ChangePipeline.StampsTell`,
      `ChangePipeline.AllUnambiguous`
    * `ChangePipeline.Undisturbed`
    * `ChangePipeline.Due`, `ChangePipeline.tracked_step`
    * `ChangePipeline.agrees_of_run`
-/

namespace VeritasSync

namespace ChangePipeline

open StateManager WatchedRun Transition

------------------------------------------------------------
-- What Is Under Way
------------------------------------------------------------

/- The rounds that are to be committed, in their order. -/
def Task.round? : Task → Option (List (Reading × Bool))
| .commit readings =>
    some (readings.map (fun r => (r, false)))
| _ => none

def rounds (s : System) : List (List (Reading × Bool)) :=
  s.tasks.filterMap Task.round? ++
    (s.scan.map Round.readings).toList

/- The paths that a round is still to look at. -/
def Watcher.reporting : Watcher → List String
| .report path later => path :: later
| _ => []

def reported (s : System) : List String :=
  s.watcher.reporting ++ s.pending ++
    ((s.waiting.map Prod.fst).getD [] ++
      (s.scan.map Round.todo).getD [])

/-
  Whatever is under way and has the time stamp of the file
  has its digest too.
-/
structure StampsTell
    (H : Host)
    (change : String)
    (s : System) : Prop where
  rows : ∀ file,
    s.node.disk.lookup (H.locate change) =
        some (.file file) →
      RowsTell H change s.node file
  readings : ∀ file,
    s.node.disk.lookup (H.locate change) =
        some (.file file) →
      ∀ round ∈ rounds s, ∀ entry ∈ round,
        About H change entry.1 → StampTells H file entry

/- No other file under way is recorded under the path. -/
structure AllUnambiguous
    (H : Host)
    (change : String)
    (s : System) : Prop where
  reported : ∀ other ∈ reported s,
    Unambiguous H change other
  readings : ∀ round ∈ rounds s, ∀ entry ∈ round,
    Unambiguous H change entry.1.change

------------------------------------------------------------
-- The Invariant
------------------------------------------------------------

/- Some entry of the round is about the path. -/
def Mentions
    (H : Host)
    (change : String)
    (round : List (Reading × Bool)) : Prop :=
  ∃ entry ∈ round, About H change entry.1

/- All of them tell what is on the disk, or have failed. -/
def Current
    (H : Host)
    (change : String)
    (found : Option (Node File))
    (round : List (Reading × Bool)) : Prop :=
  ∀ entry ∈ round, About H change entry.1 →
    Fresh H change found entry

/-
  The path is pending; or a handler has taken it and waits;
  or the scan thread is still to look at it; or the last
  round that looked at it found what is there, and where
  none is under way the maps have it.
-/
inductive Due
    (H : Host)
    (change : String)
    (s : System) : Prop where
| pending
    (other : String)
    (hNames : Names H change other)
    (hPending : other ∈ s.pending)
| waiting
    (other : String)
    (changes : List String)
    (batch : Bool)
    (hNames : Names H change other)
    (hWaiting : s.waiting = some (changes, batch))
    (hMem : other ∈ changes)
| todo
    (other : String)
    (round : Round)
    (hNames : Names H change other)
    (hScan : s.scan = some round)
    (hMem : other ∈ round.todo)
    (hCurrent : Current H change
      (s.node.disk.lookup (H.locate change)) round.readings)
| read
    (hCurrent : ∀ round, s.scan = some round →
      Current H change
        (s.node.disk.lookup (H.locate change))
        round.readings)
    (hSettles : LastWriter.Settles (Mentions H change)
      (Current H change
        (s.node.disk.lookup (H.locate change)))
      (Agrees H change s.node) (rounds s))

structure Tracked
    (H : Host)
    (change : String)
    (s : System) : Prop where
  unambiguous : AllUnambiguous H change s
  wellRead : ∀ round ∈ rounds s, ∀ entry ∈ round,
    WellRead H entry
  stamps : StampsTell H change s
  due : Due H change s

------------------------------------------------------------
-- Steps That Leave the Path Alone
------------------------------------------------------------

/- The node is the same as far as the path is concerned. -/
structure SameAt
    (H : Host)
    (change : String)
    (node node' : LocalState) : Prop where
  disk : node'.disk.lookup (H.locate change) =
    node.disk.lookup (H.locate change)
  file : node'.fileMap.lookup (recorded H change) =
    node.fileMap.lookup (recorded H change)
  dir : recorded H change ∈ node'.dirMap ↔
    recorded H change ∈ node.dirMap
  row : node'.fileStore.lookup (recorded H change) =
    node.fileStore.lookup (recorded H change)

/-
  Nothing else touches the path, its places in the maps or
  its row, nothing else that is reported is recorded under
  it, and a round that looks at it gets its answers under
  rules that let it through.
-/
def Undisturbed
    (H : Host)
    (change : String)
    (s : System) : Event → Prop
| .act node => SameAt H change s.node node
| .scanDirectory _ => False
| .handle dir filename moved oldFilename =>
    ∀ other ∈
      handleFileAction dir filename moved oldFilename,
        Unambiguous H change other
| .inspect faults other =>
    Names H change other →
      Answers faults (H.locate change) ∧
        s.filter.shouldIgnore
          (bytes (recorded H change)) = false
| _ => True

section Frame

variable
  {H : Host}
  {change : String}
  {s s' : System}

theorem SameAt.refl
    {node : LocalState} :
    SameAt H change node node :=
  ⟨rfl, rfl, Iff.rfl, rfl⟩

theorem SameAt.agrees
    {node node' : LocalState}
    (hSame : SameAt H change node node')
    (hAgrees : Agrees H change node) :
    Agrees H change node' := by
  unfold Agrees at hAgrees ⊢
  rw [hSame.disk, hSame.file, hSame.dir]
  exact hAgrees

theorem SameAt.rowsTell
    {node node' : LocalState}
    {file : File}
    (hSame : SameAt H change node node')
    (hRows : RowsTell H change node file) :
    RowsTell H change node' file := by
  intro row hRow
  rw [hSame.row] at hRow
  exact hRows row hRow

/- Only the pending set has grown. -/
theorem tracked_congr
    (hTracked : Tracked H change s)
    (hNode : SameAt H change s.node s'.node)
    (hPending : s.pending ⊆ s'.pending)
    (hReported : ∀ other ∈ reported s',
      other ∈ reported s ∨ Unambiguous H change other)
    (hRounds : rounds s' = rounds s)
    (hWaiting : s'.waiting = s.waiting)
    (hScan : s'.scan = s.scan) :
    Tracked H change s' := by
  rcases hTracked with
    ⟨hUnambiguous, hWell, hStamps, hDue⟩
  refine ⟨⟨?_, ?_⟩, ?_, ⟨?_, ?_⟩, ?_⟩
  · intro other hOther
    rcases hReported other hOther with hOld | hNew
    · exact hUnambiguous.reported other hOld
    · exact hNew
  · rw [hRounds]
    exact hUnambiguous.readings
  · rw [hRounds]
    exact hWell
  · intro file hFile
    rw [hNode.disk] at hFile
    exact hNode.rowsTell (hStamps.rows file hFile)
  · intro file hFile
    rw [hNode.disk] at hFile
    rw [hRounds]
    exact hStamps.readings file hFile
  · cases hDue with
    | pending other hNames hMem =>
        exact .pending other hNames (hPending hMem)
    | waiting other changes batch hNames hTaken hMem =>
        exact .waiting other changes batch hNames
          (hWaiting.trans hTaken) hMem
    | todo other round hNames hRound hMem hCurrent =>
        refine .todo other round hNames
          (hScan.trans hRound) hMem ?_
        rw [hNode.disk]
        exact hCurrent
    | read hCurrent hSettles =>
        refine .read ?_ ?_
        · rw [hScan, hNode.disk]
          exact hCurrent
        · rw [hRounds, hNode.disk]
          exact hSettles.imp hNode.agrees

/- A handler that is posted is no round. -/
theorem rounds_post
    {task : Task}
    (hTask : task.round? = none) :
    rounds (s.post task) = rounds s := by
  unfold rounds System.post
  simp [hTask]

theorem tracked_post
    {task : Task}
    (hTracked : Tracked H change s)
    (hTask : task.round? = none) :
    Tracked H change (s.post task) :=
  tracked_congr hTracked .refl (fun _ hMem => hMem)
    (fun _ hOther => Or.inl hOther) (rounds_post hTask)
    rfl rfl

theorem tracked_release
    (hTracked : Tracked H change s)
    (batch : Bool) :
    Tracked H change (s.release batch) := by
  cases batch
  · exact hTracked
  · exact tracked_congr hTracked .refl (fun _ hMem => hMem)
      (fun _ hOther => Or.inl hOther) rfl rfl rfl

end Frame

section Watch

variable
  {H : Host}
  {config : SyncConfig}
  {change : String}
  {s s' : System}

theorem mem_reported_iff
    {other : String} :
    other ∈ reported s ↔
      other ∈ s.watcher.reporting ∨ other ∈ s.pending ∨
        other ∈ (s.waiting.map Prod.fst).getD [] ∨
          other ∈ (s.scan.map Round.todo).getD [] := by
  unfold reported
  simp only [List.mem_append, or_assoc]

/- The watcher's thread goes on with what it has to report. -/
theorem tracked_watcher
    {watcher : Watcher}
    (hTracked : Tracked H change s)
    (hReporting : watcher.reporting ⊆ s.watcher.reporting) :
    Tracked H change { s with watcher := watcher } := by
  refine tracked_congr hTracked .refl (fun _ hMem => hMem)
    ?_ rfl rfl rfl
  intro other hOther
  rw [mem_reported_iff] at hOther
  refine Or.inl (mem_reported_iff.mpr ?_)
  rcases hOther with hReport | hRest
  · exact Or.inl (hReporting hReport)
  · exact Or.inr hRest

theorem tracked_notifyChangeDetected
    {path : String}
    (hTracked : Tracked H change s)
    (hPath : Unambiguous H change path) :
    Tracked H change (notifyChangeDetected path s) := by
  unfold notifyChangeDetected
  split
  next => exact hTracked
  next =>
    refine tracked_congr hTracked ⟨rfl, rfl, Iff.rfl, rfl⟩
      (List.subset_append_left _ _) ?_ rfl rfl rfl
    intro other hOther
    rw [mem_reported_iff] at hOther
    rcases hOther with hReport | hPending | hRest
    · exact Or.inl (mem_reported_iff.mpr (Or.inl hReport))
    · rcases List.mem_append.mp hPending with hOld | hNew
      · exact Or.inl (mem_reported_iff.mpr
          (Or.inr (Or.inl hOld)))
      · rw [List.mem_singleton.mp hNew]
        exact Or.inr hPath
    · exact Or.inl (mem_reported_iff.mpr
        (Or.inr (Or.inr hRest)))

theorem tracked_notify
    (hTracked : Tracked H change s)
    (hStep : notify s = some s') :
    Tracked H change s' := by
  have hAll := hTracked.unambiguous.reported
  unfold notify at hStep
  split at hStep
  next path hWatcher =>
    cases hStep
    apply tracked_notifyChangeDetected
    · exact tracked_watcher hTracked (List.nil_subset _)
    · apply hAll
      rw [mem_reported_iff, hWatcher]
      exact Or.inl List.mem_cons_self
  next path next later hWatcher =>
    cases hStep
    apply tracked_notifyChangeDetected
    · apply tracked_watcher hTracked
      rw [hWatcher]
      exact List.subset_cons_self _ _
    · apply hAll
      rw [mem_reported_iff, hWatcher]
      exact Or.inl List.mem_cons_self
  next => cases hStep

theorem tracked_countPending
    (hTracked : Tracked H change s)
    (hStep : countPending config s = some s') :
    Tracked H change s' := by
  unfold countPending at hStep
  split at hStep
  next =>
    split at hStep
    next =>
      cases hStep
      exact tracked_watcher hTracked (List.nil_subset _)
    next =>
      cases hStep
      exact tracked_watcher hTracked (List.nil_subset _)
  next => cases hStep

theorem tracked_claimBatch
    (hTracked : Tracked H change s)
    (hStep : claimBatch config s = some s') :
    Tracked H change s' := by
  unfold claimBatch at hStep
  split at hStep
  next =>
    dsimp only at hStep
    split at hStep
    next =>
      cases hStep
      exact tracked_watcher hTracked (List.nil_subset _)
    next =>
      split at hStep
      next =>
        cases hStep
        exact tracked_watcher hTracked (List.nil_subset _)
      next =>
        cases hStep
        have hIdle : Tracked H change
            { s with watcher := .idle } :=
          tracked_watcher hTracked (List.nil_subset _)
        refine tracked_post ?_ rfl
        exact tracked_congr hIdle .refl (fun _ hMem => hMem)
          (fun _ hOther => Or.inl hOther) rfl rfl rfl
  next => cases hStep

theorem tracked_armDebounce
    (hTracked : Tracked H change s)
    (hStep : armDebounce s = some s') :
    Tracked H change s' := by
  unfold armDebounce at hStep
  split at hStep
  next =>
    cases hStep
    have hIdle : Tracked H change
        { s with watcher := .idle } :=
      tracked_watcher hTracked (List.nil_subset _)
    exact tracked_congr hIdle .refl (fun _ hMem => hMem)
      (fun _ hOther => Or.inl hOther) rfl rfl rfl
  next => cases hStep

/- A handler that takes the pending paths waits with them. -/
theorem tracked_processDebouncedChanges
    (batch : Bool)
    (hTracked : Tracked H change s)
    (hWaiting : s.waiting = none) :
    Tracked H change
      (processDebouncedChanges H batch s) := by
  unfold processDebouncedChanges
  split
  next => exact tracked_release hTracked batch
  next =>
    rcases hTracked with
      ⟨hUnambiguous, hWell, hStamps, hDue⟩
    refine ⟨⟨?_, hUnambiguous.readings⟩, hWell,
      ⟨hStamps.rows, hStamps.readings⟩, ?_⟩
    · intro other hOther
      apply hUnambiguous.reported
      rw [mem_reported_iff] at hOther ⊢
      rcases hOther with hReport | hPending | hTaken | hTodo
      · exact Or.inl hReport
      · cases hPending
      · exact Or.inr (Or.inl hTaken)
      · exact Or.inr (Or.inr (Or.inr hTodo))
    · cases hDue with
      | pending other hNames hPending =>
          exact .waiting other s.pending batch hNames rfl
            hPending
      | waiting other changes _ hNames hTaken hMem =>
          rw [hWaiting] at hTaken
          cases hTaken
      | todo other round hNames hScan hMem hCurrent =>
          exact .todo other round hNames hScan hMem hCurrent
      | read hCurrent hSettles =>
          exact .read hCurrent hSettles

theorem tracked_join
    (hTracked : Tracked H change s)
    (hStep : join s = some s') :
    Tracked H change s' := by
  unfold join at hStep
  split at hStep
  next changes batch hWaiting hScan =>
    cases hStep
    apply tracked_release
    have hRounds : rounds { s with
        waiting := none
        scan := some ⟨changes, []⟩ } = rounds s ++ [[]] := by
      unfold rounds
      rw [hScan]
      simp
    rcases hTracked with
      ⟨hUnambiguous, hWell, hStamps, hDue⟩
    have hOld : ∀ round ∈ rounds s ++ [[]],
        ∀ entry ∈ round,
          round ∈ rounds s := by
      intro round hRound entry hEntry
      rcases List.mem_append.mp hRound with hMem | hNew
      · exact hMem
      · rw [List.mem_singleton.mp hNew] at hEntry
        cases hEntry
    refine ⟨⟨?_, ?_⟩, ?_, ⟨hStamps.rows, ?_⟩, ?_⟩
    · intro other hOther
      apply hUnambiguous.reported
      rw [mem_reported_iff] at hOther ⊢
      rcases hOther with hReport | hPending | hTaken | hTodo
      · exact Or.inl hReport
      · exact Or.inr (Or.inl hPending)
      · cases hTaken
      · rw [hWaiting]
        exact Or.inr (Or.inr (Or.inl hTodo))
    · rw [hRounds]
      intro round hRound entry hEntry
      exact hUnambiguous.readings round
        (hOld round hRound entry hEntry) entry hEntry
    · rw [hRounds]
      intro round hRound entry hEntry
      exact hWell round (hOld round hRound entry hEntry)
        entry hEntry
    · intro file hFile
      rw [hRounds]
      intro round hRound entry hEntry
      exact hStamps.readings file hFile round
        (hOld round hRound entry hEntry) entry hEntry
    · cases hDue with
      | pending other hNames hPending =>
          exact .pending other hNames hPending
      | waiting other taken _ hNames hTaken hMem =>
          rw [hWaiting] at hTaken
          cases hTaken
          exact .todo other _ hNames rfl hMem
            (by simp [Current])
      | todo other round hNames hRound hMem hCurrent =>
          rw [hScan] at hRound
          cases hRound
      | read hCurrent hSettles =>
          refine .read ?_ ?_
          · rintro round ⟨⟩ entry hEntry
            cases hEntry
          · rw [hRounds]
            apply hSettles.snoc
            rintro - entry hEntry
            cases hEntry
  next => cases hStep

end Watch

section Scan

variable
  {H : Host}
  {change : String}
  {s s' : System}
  {round : Round}

/- The rounds that are posted. -/
def posted (s : System) : List (List (Reading × Bool)) :=
  s.tasks.filterMap Task.round?

theorem rounds_of_scan
    (hScan : s.scan = some round) :
    rounds s = posted s ++ [round.readings] := by
  unfold rounds posted
  rw [hScan]
  rfl

/-
  The running round is replaced by one whose entries are all
  right and which mentions no less.
-/
theorem tracked_scan
    {next : Round}
    (hTracked : Tracked H change s)
    (hScan : s.scan = some round)
    (hTodo : next.todo ⊆ round.todo)
    (hEntries : ∀ entry ∈ next.readings,
      entry ∈ round.readings ∨
        Unambiguous H change entry.1.change ∧
          WellRead H entry ∧
          (About H change entry.1 → ∀ file,
            s.node.disk.lookup (H.locate change) =
                some (.file file) →
              StampTells H file entry))
    (hMore : Mentions H change round.readings →
      Mentions H change next.readings)
    (hCurrent : Current H change
        (s.node.disk.lookup (H.locate change))
        round.readings →
      Current H change
        (s.node.disk.lookup (H.locate change))
        next.readings)
    (hLooked : ∀ other ∈ round.todo,
      Names H change other →
        other ∈ next.todo ∨ Mentions H change next.readings) :
    Tracked H change { s with scan := some next } := by
  have hOld := rounds_of_scan hScan
  have hNew : rounds { s with scan := some next } =
      posted s ++ [next.readings] := rounds_of_scan rfl
  have hIn : ∀ entries ∈ posted s, entries ∈ rounds s := by
    intro entries hMem
    rw [hOld]
    exact List.mem_append_left _ hMem
  have hLast : round.readings ∈ rounds s := by
    rw [hOld]
    exact List.mem_append_right _ List.mem_cons_self
  rcases hTracked with ⟨hUnambiguous, hWell, hStamps, hDue⟩
  refine ⟨⟨?_, ?_⟩, ?_, ⟨hStamps.rows, ?_⟩, ?_⟩
  · intro other hOther
    apply hUnambiguous.reported
    rw [mem_reported_iff] at hOther ⊢
    rcases hOther with hReport | hPending | hTaken | hMem
    · exact Or.inl hReport
    · exact Or.inr (Or.inl hPending)
    · exact Or.inr (Or.inr (Or.inl hTaken))
    · rw [hScan]
      exact Or.inr (Or.inr (Or.inr (hTodo hMem)))
  · rw [hNew]
    intro entries hMem entry hEntry
    rcases List.mem_append.mp hMem with hPosted | hRunning
    · exact hUnambiguous.readings entries (hIn _ hPosted)
        entry hEntry
    · rw [List.mem_singleton.mp hRunning] at hEntry
      rcases hEntries entry hEntry with hKept | hMade
      · exact hUnambiguous.readings _ hLast entry hKept
      · exact hMade.1
  · rw [hNew]
    intro entries hMem entry hEntry
    rcases List.mem_append.mp hMem with hPosted | hRunning
    · exact hWell entries (hIn _ hPosted) entry hEntry
    · rw [List.mem_singleton.mp hRunning] at hEntry
      rcases hEntries entry hEntry with hKept | hMade
      · exact hWell _ hLast entry hKept
      · exact hMade.2.1
  · intro file hFile
    rw [hNew]
    intro entries hMem entry hEntry hAbout
    rcases List.mem_append.mp hMem with hPosted | hRunning
    · exact hStamps.readings file hFile entries
        (hIn _ hPosted) entry hEntry hAbout
    · rw [List.mem_singleton.mp hRunning] at hEntry
      rcases hEntries entry hEntry with hKept | hMade
      · exact hStamps.readings file hFile _ hLast entry
          hKept hAbout
      · exact hMade.2.2 hAbout file hFile
  · cases hDue with
    | pending other hNames hPending =>
        exact .pending other hNames hPending
    | waiting other changes batch hNames hTaken hMem =>
        exact .waiting other changes batch hNames hTaken hMem
    | todo other running hNames hRunning hMem hRead =>
        rw [hScan] at hRunning
        cases hRunning
        have hAll := hCurrent hRead
        rcases hLooked other hMem hNames with
          hLeft | hMentions
        · exact .todo other next hNames rfl hLeft hAll
        · refine .read ?_ ?_
          · rintro running ⟨⟩
            exact hAll
          · rw [hNew]
            exact .snoc_of_mentions hMentions hAll
    | read hRead hSettles =>
        have hAll := hCurrent (hRead round hScan)
        refine .read ?_ ?_
        · rintro running ⟨⟩
          exact hAll
        · rw [hNew]
          rw [hOld] at hSettles
          exact hSettles.replace_last hMore (fun _ => hAll)

theorem tracked_inspect
    {faults : Faults}
    {other : String}
    (hTracked : Tracked H change s)
    (hUndisturbed : Undisturbed H change s
      (.inspect faults other))
    (hStep : inspect H faults other s = some s') :
    Tracked H change s' := by
  unfold inspect at hStep
  split at hStep
  next round hScan =>
    split at hStep
    next hMem =>
      cases hStep
      have hOther : Unambiguous H change other := by
        apply hTracked.unambiguous.reported
        rw [mem_reported_iff, hScan]
        exact Or.inr (Or.inr (Or.inr hMem))
      have hOwn : (inspectChange H faults other s).1.change =
          other := inspectChange_cases.1
      have hFresh (hNames : Names H change other) :=
        fresh_inspectChange hNames (hUndisturbed hNames).1
          (hUndisturbed hNames).2 hTracked.stamps.rows
      refine tracked_scan hTracked hScan
        List.erase_subset ?_ ?_ ?_ ?_
      · intro entry hEntry
        rcases List.mem_append.mp hEntry with hOld | hNew
        · exact Or.inl hOld
        rw [List.mem_singleton.mp hNew]
        right
        refine ⟨?_, wellRead_inspectChange, ?_⟩
        · rw [hOwn]
          exact hOther
        · intro hAbout file hFile
          unfold About at hAbout
          rw [hOwn] at hAbout
          have hTells := hFresh (hOther hAbout)
          rw [hFile] at hTells
          exact stampTells_of_fresh hTells
      · rintro ⟨entry, hEntry, hAbout⟩
        exact ⟨entry, List.mem_append_left _ hEntry, hAbout⟩
      · intro hCurrent entry hEntry hAbout
        rcases List.mem_append.mp hEntry with hOld | hNew
        · exact hCurrent entry hOld hAbout
        rw [List.mem_singleton.mp hNew] at hAbout ⊢
        unfold About at hAbout
        rw [hOwn] at hAbout
        exact hFresh (hOther hAbout)
      · intro asked hAsked hNames
        by_cases hSame : asked = other
        · right
          refine ⟨_, List.mem_append_right _
            List.mem_cons_self, ?_⟩
          unfold About recorded
          rw [hOwn, ← hSame, hNames.1]
        · exact Or.inl ((List.mem_erase_of_ne hSame).mpr
            hAsked)
    next => cases hStep
  next => cases hStep

theorem mem_modify
    {α : Type}
    {items : List α}
    {i : ℕ}
    {f : α → α}
    {item : α}
    (hMem : item ∈ items.modify i f) :
    item ∈ items ∨
      ∃ old, items[i]? = some old ∧ item = f old := by
  rcases List.getElem?_of_mem hMem with ⟨j, hItem⟩
  rw [List.getElem?_modify] at hItem
  rcases Option.map_eq_some_iff.mp hItem with
    ⟨old, hOld, hEq⟩
  split at hEq
  next hSame =>
    subst hSame
    exact Or.inr ⟨old, hOld, hEq.symm⟩
  next =>
    subst hEq
    exact Or.inl (List.mem_of_getElem? hOld)

/- An item that is changed is still there, changed. -/
theorem mem_modify_of_mem
    {α : Type}
    {items : List α}
    {i : ℕ}
    {f : α → α}
    {item : α}
    (hMem : item ∈ items) :
    item ∈ items.modify i f ∨ f item ∈ items.modify i f := by
  rcases List.getElem?_of_mem hMem with ⟨j, hItem⟩
  by_cases hSame : i = j
  · right
    apply List.mem_of_getElem? (i := j)
    simp [hItem, hSame]
  · left
    apply List.mem_of_getElem? (i := j)
    simp [hItem, hSame]

theorem tracked_hash
    {conditions : ScanConditions}
    {i : ℕ}
    (hTracked : Tracked H change s)
    (hStep : hash H conditions i s = some s') :
    Tracked H change s' := by
  unfold hash at hStep
  split at hStep
  next round hScan =>
    split at hStep
    next hGuard =>
      cases hStep
      have hLast : round.readings ∈ rounds s := by
        rw [rounds_of_scan hScan]
        exact List.mem_append_right _ List.mem_cons_self
      have hFlag : ∀ old, round.readings[i]? = some old →
          old.2 = true := by
        intro old hOld
        have hAny := hGuard.2
        rw [hOld] at hAny
        exact hAny
      have hWell := hTracked.wellRead _ hLast
      have hNames : ∀ old ∈ round.readings,
          Unambiguous H change old.1.change :=
        hTracked.unambiguous.readings _ hLast
      refine tracked_scan hTracked hScan
        (List.Subset.refl _) ?_ ?_ ?_ ?_
      · intro entry hEntry
        rcases mem_modify hEntry with hKept |
          ⟨old, hAt, rfl⟩
        · exact Or.inl hKept
        right
        have hOld := List.mem_of_getElem? hAt
        refine ⟨hNames old hOld,
          wellRead_hashReading (hWell old hOld), ?_⟩
        intro hAbout file hFile pending hCheck _
        exact hashed_hashReading (hWell old hOld)
          (hFlag old hAt) (hNames old hOld hAbout) hFile
          hCheck
      · rintro ⟨entry, hEntry, hAbout⟩
        rcases mem_modify_of_mem hEntry with hKept | hMade
        · exact ⟨entry, hKept, hAbout⟩
        · exact ⟨_, hMade, hAbout⟩
      · intro hCurrent entry hEntry hAbout
        rcases mem_modify hEntry with hKept |
          ⟨old, hAt, rfl⟩
        · exact hCurrent entry hKept hAbout
        · have hOld := List.mem_of_getElem? hAt
          exact fresh_hashReading (hWell old hOld)
            (hFlag old hAt) (hNames old hOld hAbout)
            (hCurrent old hOld hAbout)
      · intro other hOther _
        exact Or.inl hOther
    next => cases hStep
  next => cases hStep

/- A round that is over is posted as it is. -/
theorem rounds_finish
    (hScan : s.scan = some round)
    (hFlags : round.readings.all (fun entry => !entry.2) =
      true) :
    rounds ({ s with scan := none }.post
      (.commit (round.readings.map Prod.fst))) =
        rounds s := by
  have hSame : (round.readings.map Prod.fst).map
      (fun r => (r, false)) = round.readings := by
    rw [List.map_map]
    conv_rhs => rw [← List.map_id round.readings]
    apply List.map_congr_left
    intro entry hEntry
    have hFlag := List.all_eq_true.mp hFlags entry hEntry
    rw [Bool.not_eq_true'] at hFlag
    exact Prod.ext rfl hFlag.symm
  rw [rounds_of_scan hScan]
  unfold rounds posted System.post
  simp only [List.filterMap_append]
  simp [Task.round?, hSame]

theorem tracked_finish
    (hTracked : Tracked H change s)
    (hStep : finish s = some s') :
    Tracked H change s' := by
  unfold finish at hStep
  split at hStep
  next round hScan =>
    split at hStep
    next hGuard =>
      cases hStep
      have hRounds := rounds_finish hScan hGuard.2
      rcases hTracked with
        ⟨hUnambiguous, hWell, hStamps, hDue⟩
      refine ⟨⟨?_, hRounds ▸ hUnambiguous.readings⟩,
        hRounds ▸ hWell, ⟨hStamps.rows, ?_⟩, ?_⟩
      · intro other hOther
        apply hUnambiguous.reported
        rw [mem_reported_iff] at hOther ⊢
        rcases hOther with hReport | hPending | hTaken | hTodo
        · exact Or.inl hReport
        · exact Or.inr (Or.inl hPending)
        · exact Or.inr (Or.inr (Or.inl hTaken))
        · cases hTodo
      · intro file hFile
        exact hRounds ▸ hStamps.readings file hFile
      · cases hDue with
        | pending other hNames hPending =>
            exact .pending other hNames hPending
        | waiting other changes batch hNames hTaken hMem =>
            exact .waiting other changes batch hNames hTaken
              hMem
        | todo other running hNames hRunning hMem hCurrent =>
            rw [hScan] at hRunning
            cases hRunning
            rw [hGuard.1] at hMem
            cases hMem
        | read hCurrent hSettles =>
            refine .read ?_ (hRounds ▸ hSettles)
            rintro running ⟨⟩
    next => cases hStep
  next => cases hStep

end Scan

------------------------------------------------------------
-- The Commit
------------------------------------------------------------

section Commit

variable
  {H : Host}
  {change : String}
  {s s' : System}

/- The node and the log after a commit. -/
def committed
    (readings : List Reading)
    (s : System) : System :=
  { s with
    node := (commitScanned (collect readings) s.node).2
    log := s.log ++
      [(commitScanned (collect readings) s.node).1] }

theorem tracked_committed
    {readings : List Reading}
    {tasks : List Task}
    (hTracked : Tracked H change s)
    (hTasks : s.tasks = .commit readings :: tasks) :
    Tracked H change
      (committed readings { s with tasks := tasks }) := by
  have hRounds : rounds s =
      readings.map (fun r => (r, false)) ::
        rounds (committed readings
          { s with tasks := tasks }) := by
    unfold rounds committed
    rw [hTasks]
    rfl
  have hDisk : (committed readings
      { s with tasks := tasks }).node.disk = s.node.disk :=
    disk_commitScanned _ _
  have hPending : (committed readings
      { s with tasks := tasks }).pending =
        s.pending ++ (collect readings).failedChanges.filter
          (fun path => !s.pending.contains path) :=
    pendingChanges_commitScanned _ _
  rcases hTracked with ⟨hUnambiguous, hWell, hStamps, hDue⟩
  rw [hRounds] at hWell
  have hAll := hUnambiguous.readings
  rw [hRounds] at hAll
  have hEntry : ∀ r ∈ readings,
      (r, false) ∈ readings.map (fun r => (r, false)) :=
    fun r hR => List.mem_map.mpr ⟨r, hR, rfl⟩
  have hRead : ∀ r ∈ readings,
      Unambiguous H change r.change := fun r hR =>
    hAll _ List.mem_cons_self (r, false) (hEntry r hR)
  have hOwn : ∀ r ∈ readings, WellRead H (r, false) :=
    fun r hR => hWell _ List.mem_cons_self _ (hEntry r hR)
  refine ⟨⟨?_, ?_⟩, ?_, ⟨?_, ?_⟩, ?_⟩
  · intro other hOther
    rw [mem_reported_iff, hPending] at hOther
    rcases hOther with hReport | hMem | hRest
    · exact hUnambiguous.reported other
        (mem_reported_iff.mpr (Or.inl hReport))
    · rcases List.mem_append.mp hMem with hOld | hFailed
      · exact hUnambiguous.reported other
          (mem_reported_iff.mpr (Or.inr (Or.inl hOld)))
      · rcases List.mem_map.mp
          (List.mem_of_mem_filter hFailed) with
          ⟨r, hR, rfl⟩
        exact hRead r (List.mem_of_mem_filter hR)
    · exact hUnambiguous.reported other
        (mem_reported_iff.mpr (Or.inr (Or.inr hRest)))
  · intro round hRound
    exact hAll round (List.mem_cons_of_mem _ hRound)
  · intro round hRound
    exact hWell round (List.mem_cons_of_mem _ hRound)
  · intro file hFile row hRow hTime
    rw [hDisk] at hFile
    apply row_commit hOwn _ (hStamps.rows file hFile) hRow
      hTime
    intro r hR hAbout
    refine hStamps.readings file hFile _ ?_ _ (hEntry r hR)
      hAbout
    rw [hRounds]
    exact List.mem_cons_self
  · intro file hFile round hRound
    rw [hDisk] at hFile
    apply hStamps.readings file hFile
    rw [hRounds]
    exact List.mem_cons_of_mem _ hRound
  · by_cases hFails : ∃ r ∈ readings,
      About H change r ∧ r.fails = true
    · -- what could not be read is looked at again
      rcases hFails with ⟨r, hR, hAbout, hFailed⟩
      exact .pending r.change (hRead r hR hAbout)
        (pending_of_fails hR hFailed)
    have hOk : ∀ r ∈ readings, About H change r →
        r.fails = false := by
      intro r hR hAbout
      cases hCase : r.fails with
      | true => exact absurd ⟨r, hR, hAbout, hCase⟩ hFails
      | false => rfl
    cases hDue with
    | pending other hNames hMem =>
        refine .pending other hNames ?_
        rw [hPending]
        exact List.mem_append_left _ hMem
    | waiting other changes batch hNames hTaken hMem =>
        exact .waiting other changes batch hNames hTaken hMem
    | todo other round hNames hScan hMem hCurrent =>
        refine .todo other round hNames hScan hMem ?_
        rw [hDisk]
        exact hCurrent
    | read hCurrent hSettles =>
        refine .read ?_ ?_
        · rw [hDisk]
          exact hCurrent
        · rw [hRounds] at hSettles
          rw [hDisk]
          apply hSettles.tail
          · intro hNone hAgrees
            apply agrees_commit_other hOwn _ hAgrees
            intro r hR hAbout
            exact hNone ⟨(r, false), hEntry r hR, hAbout⟩
          · rintro ⟨entry, hMem, hAbout⟩ hFresh
            rcases List.mem_map.mp hMem with ⟨r, hR, rfl⟩
            exact agrees_commit_fresh hOwn
              (fun other hOther =>
                hFresh (other, false) (hEntry other hOther))
              hOk hR hAbout

theorem tracked_run
    (hTracked : Tracked H change s)
    (hStep : run H s = some s') :
    Tracked H change s' := by
  unfold run at hStep
  split at hStep
  next task tasks hWaiting hTasks =>
    cases hStep
    have hRest (hTask : task.round? = none) :
        Tracked H change { s with tasks := tasks } := by
      refine tracked_congr hTracked .refl
        (fun _ hMem => hMem) (fun _ hOther => Or.inl hOther)
        ?_ rfl rfl
      unfold rounds
      rw [hTasks, List.filterMap_cons_none hTask]
    cases task with
    | batch =>
        exact tracked_processDebouncedChanges true
          (hRest rfl) hWaiting
    | process =>
        exact tracked_processDebouncedChanges false
          (hRest rfl) hWaiting
    | debounced => exact tracked_post (hRest rfl) rfl
    | retried =>
        exact tracked_processDebouncedChanges false
          (hRest rfl) hWaiting
    | scheduleRetry =>
        exact tracked_congr (hRest rfl) .refl
          (fun _ hMem => hMem)
          (fun _ hOther => Or.inl hOther) rfl rfl rfl
    | commit readings =>
        have hDone := tracked_committed hTracked hTasks
        dsimp only [runTask]
        unfold commitRound
        dsimp only
        split
        · exact hDone
        · exact tracked_post hDone rfl
  next => cases hStep

end Commit

theorem tracked_step
    {H : Host}
    {config : SyncConfig}
    {change : String}
    {s s' : System}
    {e : Event}
    (hTracked : Tracked H change s)
    (hUndisturbed : Undisturbed H change s e)
    (hStep : step H config s e = some s') :
    Tracked H change s' := by
  cases e with
  | act node =>
      cases hStep
      exact tracked_congr hTracked
        ⟨hUndisturbed.disk, hUndisturbed.file,
          hUndisturbed.dir, hUndisturbed.row⟩
        (fun _ hMem => hMem) (fun _ hOther => Or.inl hOther)
        rfl rfl rfl
  | scanDirectory conditions => cases hUndisturbed
  | tick ns =>
      cases hStep
      exact tracked_congr hTracked .refl
        (fun _ hMem => hMem) (fun _ hOther => Or.inl hOther)
        rfl rfl rfl
  | handle dir filename moved oldFilename =>
      simp only [step] at hStep
      split at hStep
      next hIdle =>
        cases hStep
        unfold startReport
        split
        next => exact hTracked
        next path later hPaths =>
          refine tracked_congr hTracked .refl
            (fun _ hMem => hMem) ?_ rfl rfl rfl
          intro other hOther
          rw [mem_reported_iff] at hOther
          rcases hOther with hReport | hRest
          · right
            apply hUndisturbed
            rw [hPaths]
            exact hReport
          · exact Or.inl (mem_reported_iff.mpr
              (Or.inr hRest))
      next => cases hStep
  | notify => exact tracked_notify hTracked hStep
  | count => exact tracked_countPending hTracked hStep
  | claim => exact tracked_claimBatch hTracked hStep
  | arm => exact tracked_armDebounce hTracked hStep
  | debounceFires =>
      simp only [step] at hStep
      split at hStep
      next =>
        cases hStep
        apply tracked_post _ rfl
        exact tracked_congr hTracked .refl
          (fun _ hMem => hMem)
          (fun _ hOther => Or.inl hOther) rfl rfl rfl
      next => cases hStep
  | retryFires =>
      simp only [step] at hStep
      split at hStep
      next =>
        cases hStep
        apply tracked_post _ rfl
        exact tracked_congr hTracked .refl
          (fun _ hMem => hMem)
          (fun _ hOther => Or.inl hOther) rfl rfl rfl
      next => cases hStep
  | run => exact tracked_run hTracked hStep
  | join => exact tracked_join hTracked hStep
  | inspect faults other =>
      exact tracked_inspect hTracked hUndisturbed hStep
  | hash conditions i => exact tracked_hash hTracked hStep
  | finish => exact tracked_finish hTracked hStep

------------------------------------------------------------
-- At Rest
------------------------------------------------------------

section Rest

variable
  {H : Host}
  {config : SyncConfig}
  {change : String}
  {s s' : System}

/- Every reading under way is about its own path. -/
def AllWellRead
    (H : Host)
    (s : System) : Prop :=
  ∀ round ∈ rounds s, ∀ entry ∈ round, WellRead H entry

theorem rounds_notify
    (hStep : notify s = some s') :
    rounds s' = rounds s := by
  unfold notify notifyChangeDetected at hStep
  split at hStep
  next =>
    cases hStep
    split <;> rfl
  next =>
    cases hStep
    split <;> rfl
  next => cases hStep

theorem rounds_countPending
    (hStep : countPending config s = some s') :
    rounds s' = rounds s := by
  unfold countPending at hStep
  split at hStep
  next =>
    split at hStep <;>
      · cases hStep
        rfl
  next => cases hStep

theorem rounds_claimBatch
    (hStep : claimBatch config s = some s') :
    rounds s' = rounds s := by
  unfold claimBatch at hStep
  split at hStep
  next =>
    dsimp only at hStep
    split at hStep
    next =>
      cases hStep
      rfl
    next =>
      split at hStep
      next =>
        cases hStep
        rfl
      next =>
        cases hStep
        exact rounds_post rfl
  next => cases hStep

theorem rounds_release (batch : Bool) :
    rounds (s.release batch) = rounds s := by
  cases batch <;> rfl

/- A handler adds no round; a commit takes one away. -/
theorem rounds_run
    (hStep : run H s = some s') :
    rounds s' ⊆ rounds s := by
  have hProcess (tasks : List Task) (batch : Bool) :
      rounds (processDebouncedChanges H batch
        { s with tasks := tasks }) =
          rounds { s with tasks := tasks } := by
    unfold processDebouncedChanges
    split
    · exact rounds_release batch
    · rfl
  unfold run at hStep
  split at hStep
  next task tasks hWaiting hTasks =>
    cases hStep
    have hRest : rounds { s with tasks := tasks } ⊆
        rounds s := by
      unfold rounds
      rw [hTasks]
      refine List.append_subset.mpr
        ⟨?_, List.subset_append_right _ _⟩
      intro round hRound
      exact List.mem_append_left _ (List.filterMap_subset _
        (List.subset_cons_self _ _) hRound)
    cases task with
    | batch =>
        dsimp only [runTask]
        rw [hProcess]
        exact hRest
    | process =>
        dsimp only [runTask]
        rw [hProcess]
        exact hRest
    | debounced =>
        dsimp only [runTask]
        rw [rounds_post rfl]
        exact hRest
    | retried =>
        dsimp only [runTask]
        rw [hProcess]
        exact hRest
    | scheduleRetry => exact hRest
    | commit readings =>
        dsimp only [runTask]
        unfold commitRound
        dsimp only
        split
        · exact hRest
        · rw [rounds_post rfl]
          exact hRest
  next => cases hStep

theorem AllWellRead.subset
    (hWell : AllWellRead H s)
    (hRounds : rounds s' ⊆ rounds s) :
    AllWellRead H s' :=
  fun round hRound => hWell round (hRounds hRound)

theorem AllWellRead.congr
    (hWell : AllWellRead H s)
    (hRounds : rounds s' = rounds s) :
    AllWellRead H s' := by
  unfold AllWellRead
  rw [hRounds]
  exact hWell

/- The running round is replaced. -/
theorem AllWellRead.scan
    {round next : Round}
    (hWell : AllWellRead H s)
    (hScan : s.scan = some round)
    (hNext : ∀ entry ∈ next.readings,
      entry ∈ round.readings ∨ WellRead H entry) :
    AllWellRead H { s with scan := some next } := by
  intro entries hMem entry hEntry
  have hNew : rounds { s with scan := some next } =
      posted s ++ [next.readings] := rounds_of_scan rfl
  have hOld := rounds_of_scan hScan
  rw [hNew] at hMem
  rcases List.mem_append.mp hMem with hPosted | hRunning
  · apply hWell entries _ entry hEntry
    rw [hOld]
    exact List.mem_append_left _ hPosted
  · rw [List.mem_singleton.mp hRunning] at hEntry
    rcases hNext entry hEntry with hKept | hMade
    · apply hWell round.readings _ entry hKept
      rw [hOld]
      exact List.mem_append_right _ List.mem_cons_self
    · exact hMade

theorem wellRead_step
    {e : Event}
    (hWell : AllWellRead H s)
    (hStep : step H config s e = some s') :
    AllWellRead H s' := by
  cases e with
  | act node =>
      cases hStep
      exact hWell
  | scanDirectory conditions =>
      cases hStep
      unfold fullScan
      dsimp only
      split
      · exact hWell
      · exact hWell.congr (rounds_post rfl)
  | tick ns =>
      cases hStep
      exact hWell
  | handle dir filename moved oldFilename =>
      simp only [step] at hStep
      split at hStep
      next =>
        cases hStep
        unfold startReport
        split
        · exact hWell
        · exact hWell
      next => cases hStep
  | notify =>
      exact hWell.congr (rounds_notify hStep)
  | count =>
      exact hWell.congr (rounds_countPending hStep)
  | claim =>
      exact hWell.congr (rounds_claimBatch hStep)
  | arm =>
      simp only [step, armDebounce] at hStep
      split at hStep
      next =>
        cases hStep
        exact hWell
      next => cases hStep
  | debounceFires =>
      simp only [step] at hStep
      split at hStep
      next =>
        cases hStep
        exact hWell.congr (rounds_post
          (s := { s with debounceArmed := false }) rfl)
      next => cases hStep
  | retryFires =>
      simp only [step] at hStep
      split at hStep
      next =>
        cases hStep
        exact hWell.congr (rounds_post
          (s := { s with retryArmed := false }) rfl)
      next => cases hStep
  | run => exact hWell.subset (rounds_run hStep)
  | join =>
      simp only [step, join] at hStep
      split at hStep
      next changes batch hWaiting hScan =>
        cases hStep
        intro round hRound entry hEntry
        rw [rounds_release] at hRound
        rcases List.mem_append.mp hRound with hMem | hNew
        · exact hWell round
            (List.mem_append_left _ hMem) entry hEntry
        · rw [List.mem_singleton.mp hNew] at hEntry
          cases hEntry
      next => cases hStep
  | inspect faults change =>
      simp only [step, inspect] at hStep
      split at hStep
      next round hScan =>
        split at hStep
        next =>
          cases hStep
          apply hWell.scan hScan
          intro entry hEntry
          rcases List.mem_append.mp hEntry with hOld | hNew
          · exact Or.inl hOld
          · rw [List.mem_singleton.mp hNew]
            exact Or.inr wellRead_inspectChange
        next => cases hStep
      next => cases hStep
  | hash conditions i =>
      simp only [step, hash] at hStep
      split at hStep
      next round hScan =>
        split at hStep
        next =>
          cases hStep
          apply hWell.scan hScan
          intro entry hEntry
          rcases mem_modify hEntry with hKept |
            ⟨old, hAt, rfl⟩
          · exact Or.inl hKept
          · refine Or.inr (wellRead_hashReading ?_)
            apply hWell round.readings _ old
              (List.mem_of_getElem? hAt)
            rw [rounds_of_scan hScan]
            exact List.mem_append_right _ List.mem_cons_self
        next => cases hStep
      next => cases hStep
  | finish =>
      simp only [step, finish] at hStep
      split at hStep
      next round hScan =>
        split at hStep
        next hGuard =>
          cases hStep
          exact hWell.congr (rounds_finish hScan hGuard.2)
        next => cases hStep
      next => cases hStep

/-
  A path that was pending, and that nothing has touched since,
  is in the maps as it is on the disk once the pipeline is at
  rest, whatever the threads did in between.
-/
theorem agrees_of_run
    (H : Host)
    (config : SyncConfig)
    (node : LocalState)
    (filter : FileFilter)
    (nowNs : ℕ)
    (before later : List Event)
    (s s' : System)
    (change : String)
    (hBefore : Transition.run (step H config)
      (start node filter nowNs) before = some s)
    (hLater : Transition.run (step H config) s later =
      some s')
    (hPending : change ∈ s.pending)
    (hRoot : isRootPath H change = false)
    (hUnambiguous : AllUnambiguous H change s)
    (hStamps : StampsTell H change s)
    (hUndisturbed : Meets (step H config)
      (Undisturbed H change) s later)
    (hRest : AtRest s') :
    Agrees H change s'.node := by
  have hMeets (s : System) (events : List Event) :
      Meets (step H config) (fun _ _ => True) s events :=
    meets_of_forall (fun _ _ => trivial)
  have hWell : AllWellRead H s := by
    apply invariant_of_run _ _ (hMeets _ _) hBefore
    · intro s e s' hInv _ hStep
      exact wellRead_step hInv hStep
    · intro round hRound
      cases hRound
  have hTracked : Tracked H change s :=
    ⟨hUnambiguous, hWell, hStamps,
      .pending change ⟨rfl, hRoot⟩ hPending⟩
  have hDone := invariant_of_run
    (fun s e s' hInv hCondition hStep =>
      tracked_step hInv hCondition hStep)
    hTracked hUndisturbed hLater
  have hEmpty : s'.pending = [] := by
    have hWhole : Transition.run (step H config)
        (start node filter nowNs) (before ++ later) =
          some s' := by
      rw [run_append, hBefore]
      exact hLater
    exact pending_of_atRest
      (wakesWhilePending_of_run hWhole) hRest
  have hRounds : rounds s' = [] := by
    unfold rounds
    rw [hRest.tasks, hRest.scan]
    rfl
  cases hDone.due with
  | pending other hNames hMem =>
      rw [hEmpty] at hMem
      cases hMem
  | waiting other changes batch hNames hTaken hMem =>
      rw [hRest.waiting] at hTaken
      cases hTaken
  | todo other round hNames hScan hMem hCurrent =>
      rw [hRest.scan] at hScan
      cases hScan
  | read hCurrent hSettles =>
      rw [hRounds] at hSettles
      exact hSettles.done_of_nil

end Rest

/- The threads bring the reported file into the map. -/
def sampleRest : List Event :=
  [.count, .arm, .debounceFires, .run, .run, .join,
    .inspect noFaults "/r/a", .hash .plain 0, .finish, .run]

theorem agrees_sampleRest :
    ∃ s s', Transition.run (step .plain sampleConfig)
        (start sampleNode .cleared 0) sampleReport =
          some s ∧
      Transition.run (step .plain sampleConfig) s
        sampleRest = some s' ∧
      s'.node.disk.lookup ["r", "a"] =
        some (.file ⟨[97], 0⟩) ∧
      Agrees .plain "/r/a" s'.node := by
  refine ⟨_, _, rfl, rfl, rfl, ?_⟩
  refine agrees_of_run .plain sampleConfig sampleNode
    .cleared 0 sampleReport sampleRest _ _ "/r/a" rfl rfl
    List.mem_cons_self rfl ?_ ?_ ?_ ⟨rfl, rfl, rfl, rfl, rfl,
      rfl⟩
  · refine ⟨?_, ?_⟩
    · intro other hOther _
      rw [List.mem_singleton.mp hOther]
      exact ⟨rfl, rfl⟩
    · intro round hRound
      cases hRound
  · refine ⟨?_, ?_⟩
    · intro file _ row hRow
      cases hRow
    · intro file _ round hRound
      cases hRound
  · refine .cons trivial rfl (.cons trivial rfl
      (.cons trivial rfl (.cons trivial rfl
        (.cons trivial rfl (.cons trivial rfl
          (.cons ?_ rfl ?_))))))
    · exact fun _ => ⟨⟨rfl, rfl, rfl, rfl, rfl⟩, rfl⟩
    · exact .cons trivial rfl (.cons trivial rfl
        (.cons trivial rfl trivial))

end ChangePipeline

end VeritasSync
