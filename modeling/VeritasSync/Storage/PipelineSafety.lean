import VeritasSync.Library.Settling
import VeritasSync.Storage.ChangePipeline

/-
  No report of the watcher is forgotten.

  Whenever a path is pending, some thread is about to look at
  the pending set, a timer is armed, or a handler is queued:
  so at rest nothing is pending.  Left alone, and with a host
  that lets every file be read, the pipeline comes to rest
  after a number of steps that the state bounds, in whatever
  order the threads take them.

  Main declarations:
    * `ChangePipeline.Wakes`
    * `ChangePipeline.wakesWhilePending_of_run`
    * `ChangePipeline.cost`, `ChangePipeline.settling`
    * `ChangePipeline.settles_of_run`
-/

namespace VeritasSync

namespace ChangePipeline

open StateManager WatchedRun Transition

------------------------------------------------------------
-- Wake-Ups
------------------------------------------------------------

/- The handler leads to a round that takes what is pending. -/
def Task.starts : Task → Bool
| .commit _ => false
| _ => true

/- Something is due that looks at the pending set. -/
def Wakes (s : System) : Prop :=
  s.watcher ≠ .idle ∨ s.debounceArmed = true ∨
    s.retryArmed = true ∨
    ∃ task ∈ s.tasks, task.starts = true

/- Nothing is pending unless something is due. -/
def WakesWhilePending (s : System) : Prop :=
  s.pending ≠ [] → Wakes s

section Lemmas

variable {s s' : System}

theorem wakes_post
    {task : Task}
    (hStarts : task.starts = true) :
    Wakes (s.post task) :=
  .inr (.inr (.inr ⟨task, by simp [System.post], hStarts⟩))

theorem Wakes.post
    (hWakes : Wakes s)
    (task : Task) :
    Wakes (s.post task) := by
  rcases hWakes with hWatcher | hDebounce | hRetry | hTask
  · exact .inl hWatcher
  · exact .inr (.inl hDebounce)
  · exact .inr (.inr (.inl hRetry))
  · rcases hTask with ⟨due, hMem, hStarts⟩
    exact .inr (.inr (.inr
      ⟨due, List.mem_append_left _ hMem, hStarts⟩))

@[simp] theorem pending_release (batch : Bool) :
    (s.release batch).pending = s.pending := by
  cases batch <;> rfl

@[simp] theorem pending_post (task : Task) :
    (s.post task).pending = s.pending := rfl

/- A round takes everything that is pending. -/
theorem pending_processDebouncedChanges
    (H : Host)
    (batch : Bool) :
    (processDebouncedChanges H batch s).pending = [] := by
  unfold processDebouncedChanges
  split
  next hEmpty => rw [pending_release, hEmpty]
  next => rfl

theorem pendingChanges_commitScanned
    (scanned : ScannedChanges)
    (node : LocalState) :
    (commitScanned scanned node).2.pendingChanges =
      node.pendingChanges ++ scanned.failedChanges.filter
        (fun path =>
          !node.pendingChanges.contains path) := by
  rcases mapsOnly_commitLoops (.empty, node)
    scanned.fileUpdateResults scanned.deleteCheckResults
    scanned.dirCreateResults with ⟨_, _, _, hEq⟩
  unfold commitScanned commitChanges
  dsimp only
  rw [hEq]

/- A commit leaves the pending set alone, or schedules. -/
theorem commitRound_cases
    (readings : List Reading)
    (s : System) :
    (∃ node log,
      node.pendingChanges = s.pending ∧
        commitRound readings s =
          { s with node := node, log := log }) ∨
    ∃ node log,
      commitRound readings s =
        { s with node := node, log := log }.post
          .scheduleRetry := by
  unfold commitRound
  dsimp only
  split
  next hNone =>
    refine Or.inl ⟨_, _, ?_, rfl⟩
    rw [pendingChanges_commitScanned, hNone,
      List.filter_nil, List.append_nil]
  next => exact Or.inr ⟨_, _, rfl⟩

end Lemmas

section Steps

variable
  {H : Host}
  {config : SyncConfig}
  {s s' : System}

/- A handler that is run leaves the others due. -/
theorem wakesWhilePending_run
    (hWakes : WakesWhilePending s)
    (hStep : run H s = some s') :
    WakesWhilePending s' := by
  unfold run at hStep
  split at hStep
  next task tasks hWaiting hTasks =>
    cases hStep
    intro hPending
    cases task with
    | batch =>
        exact absurd
          (pending_processDebouncedChanges H true) hPending
    | process =>
        exact absurd
          (pending_processDebouncedChanges H false) hPending
    | debounced => exact wakes_post rfl
    | retried =>
        exact absurd
          (pending_processDebouncedChanges H false) hPending
    | scheduleRetry => exact Or.inr (Or.inr (Or.inl rfl))
    | commit readings =>
        dsimp only [runTask] at hPending ⊢
        rcases commitRound_cases readings
          { s with tasks := tasks } with
          ⟨node, log, hSame, hEq⟩ | ⟨node, log, hEq⟩
        · -- what is pending did not wait for the commit
          rw [hEq] at hPending ⊢
          rcases hWakes (hSame ▸ hPending) with
            hWatcher | hDebounce | hRetry |
              ⟨due, hMem, hStarts⟩
          · exact Or.inl hWatcher
          · exact Or.inr (Or.inl hDebounce)
          · exact Or.inr (Or.inr (Or.inl hRetry))
          · rw [hTasks, List.mem_cons] at hMem
            rcases hMem with rfl | hLater
            · cases hStarts
            · exact Or.inr (Or.inr (Or.inr
                ⟨due, hLater, hStarts⟩))
        · rw [hEq]
          exact wakes_post rfl
  next => cases hStep

theorem wakes_of_watcher
    (hWatcher : s.watcher ≠ .idle) :
    Wakes s :=
  Or.inl hWatcher

/-
  The watcher's thread does not end its callback before it
  has posted a batch or armed the timer.
-/
theorem wakes_notify
    (hStep : notify s = some s') :
    Wakes s' := by
  unfold notify notifyChangeDetected at hStep
  split at hStep
  next =>
    cases hStep
    apply wakes_of_watcher
    split <;> simp [System.setPending]
  next =>
    cases hStep
    apply wakes_of_watcher
    split <;> simp [System.setPending]
  next => cases hStep

theorem wakes_countPending
    (hStep : countPending config s = some s') :
    Wakes s' := by
  unfold countPending at hStep
  split at hStep
  next =>
    split at hStep
    next =>
      cases hStep
      exact wakes_of_watcher (by simp)
    next =>
      cases hStep
      exact wakes_of_watcher (by simp)
  next => cases hStep

theorem wakes_claimBatch
    (hStep : claimBatch config s = some s') :
    Wakes s' := by
  unfold claimBatch at hStep
  split at hStep
  next =>
    dsimp only at hStep
    split at hStep
    next =>
      cases hStep
      exact wakes_of_watcher (by simp)
    next =>
      split at hStep
      next =>
        cases hStep
        exact wakes_of_watcher (by simp)
      next =>
        cases hStep
        exact wakes_post rfl
  next => cases hStep

theorem wakes_armDebounce
    (hStep : armDebounce s = some s') :
    Wakes s' := by
  unfold armDebounce at hStep
  split at hStep
  next =>
    cases hStep
    exact Or.inr (Or.inl rfl)
  next => cases hStep

/- The scan thread neither adds to the set nor wakes less. -/
theorem wakesWhilePending_scan
    (hWakes : WakesWhilePending s)
    (hNode : s'.pending = s.pending)
    (hWatcher : s'.watcher = s.watcher)
    (hDebounce : s'.debounceArmed = s.debounceArmed)
    (hRetry : s'.retryArmed = s.retryArmed)
    (hTasks : s.tasks ⊆ s'.tasks) :
    WakesWhilePending s' := by
  intro hPending
  rw [hNode] at hPending
  rcases hWakes hPending with h | h | h | ⟨due, hMem, hDue⟩
  · exact Or.inl (hWatcher ▸ h)
  · exact Or.inr (Or.inl (hDebounce ▸ h))
  · exact Or.inr (Or.inr (Or.inl (hRetry ▸ h)))
  · exact Or.inr (Or.inr (Or.inr
      ⟨due, hTasks hMem, hDue⟩))

theorem wakesWhilePending_fullScan
    (conditions : ScanConditions)
    (hWakes : WakesWhilePending s) :
    WakesWhilePending (fullScan H conditions s) := by
  unfold fullScan
  dsimp only
  split
  next hQuiet =>
    refine wakesWhilePending_scan hWakes ?_ rfl rfl rfl
      (fun _ hMem => hMem)
    unfold scanWithRules System.pending scanDirectory
    dsimp only
    split
    · rfl
    · rcases hQuiet with hFails | hNone
      · contradiction
      · dsimp only [scanWithRules] at hNone
        rw [hNone, List.filter_nil, List.append_nil]
  next =>
    intro _
    exact wakes_post rfl

end Steps

theorem wakesWhilePending_step
    (H : Host)
    (config : SyncConfig)
    (s : System)
    (e : Event)
    (s' : System)
    (hWakes : WakesWhilePending s)
    (hStep : step H config s e = some s') :
    WakesWhilePending s' := by
  cases e with
  | act node =>
      cases hStep
      exact wakesWhilePending_scan hWakes rfl rfl rfl rfl
        (fun _ hMem => hMem)
  | scanDirectory conditions =>
      cases hStep
      exact wakesWhilePending_fullScan conditions hWakes
  | tick ns =>
      cases hStep
      exact hWakes
  | handle dir filename moved oldFilename =>
      simp only [step] at hStep
      split at hStep
      next hIdle =>
        cases hStep
        unfold startReport
        split
        · exact hWakes
        · exact fun _ => Or.inl (by simp)
      next => cases hStep
  | notify => exact fun _ => wakes_notify hStep
  | count => exact fun _ => wakes_countPending hStep
  | claim => exact fun _ => wakes_claimBatch hStep
  | arm => exact fun _ => wakes_armDebounce hStep
  | debounceFires =>
      simp only [step] at hStep
      split at hStep
      next =>
        cases hStep
        exact fun _ => wakes_post rfl
      next => cases hStep
  | retryFires =>
      simp only [step] at hStep
      split at hStep
      next =>
        cases hStep
        exact fun _ => wakes_post rfl
      next => cases hStep
  | run => exact wakesWhilePending_run hWakes hStep
  | join =>
      simp only [step, join] at hStep
      split at hStep
      next changes batch _ _ =>
        cases hStep
        cases batch
        · exact hWakes
        · exact hWakes
      next => cases hStep
  | inspect faults change =>
      simp only [step, inspect] at hStep
      split at hStep
      next =>
        split at hStep
        next =>
          cases hStep
          exact hWakes
        next => cases hStep
      next => cases hStep
  | hash conditions i =>
      simp only [step, hash] at hStep
      split at hStep
      next =>
        split at hStep
        next =>
          cases hStep
          exact hWakes
        next => cases hStep
      next => cases hStep
  | finish =>
      simp only [step, finish] at hStep
      split at hStep
      next =>
        split at hStep
        next =>
          cases hStep
          exact wakesWhilePending_scan hWakes rfl rfl rfl rfl
            (fun _ hMem => List.mem_append_left _ hMem)
        next => cases hStep
      next => cases hStep

theorem wakesWhilePending_of_run
    {H : Host}
    {config : SyncConfig}
    {node : LocalState}
    {filter : FileFilter}
    {nowNs : ℕ}
    {events : List Event}
    {s : System}
    (hRun : Transition.run (step H config)
      (start node filter nowNs) events = some s) :
    WakesWhilePending s := by
  have hMeets : Meets (step H config) (fun _ _ => True)
      (start node filter nowNs) events :=
    meets_of_forall (fun _ _ => trivial)
  apply invariant_of_run _ _ hMeets hRun
  · intro s e s' hWakes _ hStep
    exact wakesWhilePending_step H config s e s' hWakes hStep
  · exact fun hPending => absurd rfl hPending

/- Something that is due is not at rest. -/
theorem not_wakes_of_atRest
    {s : System}
    (hRest : AtRest s) :
    ¬ Wakes s := by
  rintro (hWatcher | hDebounce | hRetry | ⟨task, hMem, -⟩)
  · exact hWatcher hRest.watcher
  · rw [hRest.debounce] at hDebounce
    cases hDebounce
  · rw [hRest.retry] at hRetry
    cases hRetry
  · rw [hRest.tasks] at hMem
    cases hMem

theorem pending_of_atRest
    {s : System}
    (hWakes : WakesWhilePending s)
    (hRest : AtRest s) :
    s.pending = [] := by
  by_contra hPending
  exact not_wakes_of_atRest hRest (hWakes hPending)

------------------------------------------------------------
-- What Is Left to Do
------------------------------------------------------------

section Cost

variable (H : Host)

/- The reading as a worker that can read the file ends it. -/
def rehashed
    (disk : Disk)
    (r : Reading) : Reading :=
  { r with
    hash :=
      match r.check.file? with
      | some pending =>
          if pending.needCalc then
            ((disk.payload? pending.loc).map
              (fun file => H.digest.hash file.content)).getD ""
          else
            pending.cachedHash
      | none => r.hash }

/-
  The prices are such that every step pays for what it leads
  to: a pending path is looked at, maybe hashed, and a path
  that fails is pending again with a retry scheduled.
-/
def failCost (r : Reading) : ℕ :=
  if r.fails then 10 else 0

def Watcher.cost : Watcher → ℕ
| .idle => 0
| .arm => 7
| .claim => 8
| .count => 9
| .report _ later => 14 + 5 * later.length

def Task.cost : Task → ℕ
| .batch => 4
| .process => 4
| .debounced => 5
| .retried => 4
| .scheduleRetry => 6
| .commit readings => 1 + (readings.map failCost).sum

def entryCost
    (disk : Disk)
    (entry : Reading × Bool) : ℕ :=
  if entry.2 then
    1 + failCost (rehashed H disk entry.1)
  else
    failCost entry.1

def roundCost
    (disk : Disk) : Option Round → ℕ
| some round =>
    2 + 3 * round.todo.length +
      (round.readings.map (entryCost H disk)).sum
| none => 0

def waitingCost : Option (List String × Bool) → ℕ
| some (changes, _) => 3 + 3 * changes.length
| none => 0

def cost (s : System) : ℕ :=
  s.watcher.cost +
    (if s.debounceArmed then 6 else 0) +
    (if s.retryArmed then 5 else 0) +
    (s.tasks.map Task.cost).sum +
    4 * s.node.pendingChanges.length +
    waitingCost s.waiting +
    roundCost H s.node.disk s.scan

end Cost

/- The host lets the time stamp and the content be read. -/
def IsReadable : Event → Prop
| .inspect faults _ =>
    ∀ loc, faults.scan.mtimeFails loc = false
| .hash conditions _ =>
    ∀ loc, conditions.hashFails loc = false
| _ => True

section Decrease

variable
  {H : Host}
  {config : SyncConfig}
  {s s' : System}

theorem hashReading_eq_rehashed
    {conditions : ScanConditions}
    (hReadable : ∀ loc, conditions.hashFails loc = false)
    (entry : Reading × Bool) :
    hashReading H conditions s entry =
      (rehashed H s.node.disk entry.1, false) := by
  unfold hashReading rehashed
  cases entry.1.check.file? with
  | none => rfl
  | some pending =>
      unfold finalHash scanHash hostAt withRules
      dsimp only
      cases s.node.disk.payload? pending.loc with
      | none => rfl
      | some file =>
          rw [hReadable]
          rfl

theorem checkChange_ne_failed
    {H : Host}
    {existsFails : Loc → Bool}
    {node : LocalState}
    (hReadable : ∀ loc, H.scan.mtimeFails loc = false)
    (change : String) :
    checkChange H existsFails node change ≠ .failed := by
  unfold checkChange
  dsimp only
  split
  · simp
  · split
    · simp
    · split
      · simp
      · split
        · split
          · simp
          · simp [hReadable]
        · split <;> simp
        · simp

/- What is to be hashed is a file that is there. -/
theorem payload?_of_file?_checkChange
    {H : Host}
    {existsFails : Loc → Bool}
    {node : LocalState}
    {change : String}
    {pending : PendingFile}
    (hFile : (checkChange H existsFails node change).file? =
      some pending) :
    (node.disk.payload? pending.loc).isSome = true := by
  rcases file?_checkChange_iff.mp hFile with
    ⟨file, hNode, rfl, -⟩
  rw [Option.isSome_iff_exists]
  exact ⟨file,
    (FileTree.payload?_eq_some_iff _ _ _).mpr hNode⟩

/- A path that is looked at costs less than one to do. -/
theorem entryCost_inspectChange
    {faults : Faults}
    (hReadable : ∀ loc, faults.scan.mtimeFails loc = false)
    (change : String) :
    entryCost H s.node.disk
      (inspectChange H faults change s) ≤ 1 := by
  have hCheck : (checkChange (hostAt H s faults.scan)
      faults.existsFails s.node change == .failed) =
        false := by
    rw [beq_eq_false_iff_ne]
    exact checkChange_ne_failed hReadable change
  unfold inspectChange entryCost
  dsimp only
  split
  next hNeeds =>
    rw [if_pos rfl]
    unfold Reading.needsHash readChange at hNeeds
    dsimp only at hNeeds
    rw [Option.any_eq_true] at hNeeds
    rcases hNeeds with ⟨pending, hFile, hCalc⟩
    have hThere := payload?_of_file?_checkChange hFile
    rw [Option.isSome_iff_exists] at hThere
    rcases hThere with ⟨file, hPayload⟩
    -- the file is there, so its digest is not empty
    have hFails : (rehashed H s.node.disk
        { readChange (hostAt H s faults.scan)
            faults.existsFails s.node (fun _ => .user)
            change with hash := "" }).fails = false := by
      unfold Reading.fails rehashed readChange
      dsimp only
      rw [hFile]
      dsimp only
      rw [hCalc, hPayload, hCheck]
      simp [H.digest.hash_ne_empty]
    unfold failCost
    rw [hFails]
    simp
  next hNeeds =>
    rw [if_neg (by simp)]
    have hFails : (readChange (hostAt H s faults.scan)
        faults.existsFails s.node (fun _ => .user)
        change).fails = false := by
      unfold Reading.fails
      rw [Bool.not_eq_true] at hNeeds
      rw [hNeeds, Bool.false_and, Bool.or_false]
      exact hCheck
    unfold failCost
    rw [hFails]
    simp

/- The failed changes of a commit have been paid for. -/
theorem failedChanges_cost
    (readings : List Reading) :
    10 * (collect readings).failedChanges.length =
      (readings.map failCost).sum := by
  unfold collect
  dsimp only
  rw [List.length_map]
  induction readings with
  | nil => rfl
  | cons r readings ih =>
      rw [List.map_cons, List.sum_cons, ← ih]
      unfold failCost
      cases hFails : r.fails with
      | true =>
          rw [List.filter_cons_of_pos hFails,
            List.length_cons, if_pos rfl]
          omega
      | false =>
          rw [List.filter_cons_of_neg (by simp [hFails])]
          simp

theorem cost_post (task : Task) :
    cost H (s.post task) = cost H s + task.cost := by
  unfold cost System.post
  simp
  omega

theorem cost_release (batch : Bool) :
    cost H (s.release batch) = cost H s := by
  cases batch <;> rfl

theorem cost_notifyChangeDetected (path : String) :
    cost H (notifyChangeDetected path s) ≤ cost H s + 4 := by
  unfold notifyChangeDetected
  split
  next => omega
  next =>
    unfold cost System.setPending System.pending
    simp
    omega

/- Taking the pending paths costs less than they did. -/
theorem cost_processDebouncedChanges
    (batch : Bool)
    (hWaiting : s.waiting = none) :
    cost H (processDebouncedChanges H batch s) ≤
      cost H s + 3 := by
  unfold processDebouncedChanges
  split
  next =>
    rw [cost_release]
    omega
  next =>
    unfold cost System.setPending System.pending
    rw [hWaiting]
    simp [waitingCost]
    omega

theorem disk_commitScanned
    (scanned : ScannedChanges)
    (node : LocalState) :
    (commitScanned scanned node).2.disk = node.disk :=
  disk_commitChanges _ _ _ _ _

/- What a commit leaves to do is paid for by its failures. -/
theorem cost_commitRound (readings : List Reading) :
    cost H (commitRound readings s) ≤
      cost H s + (readings.map failCost).sum := by
  have hPrice := failedChanges_cost readings
  have hCost : cost H { s with
      node := (commitScanned (collect readings) s.node).2
      log := s.log ++
        [(commitScanned (collect readings) s.node).1] } ≤
        cost H s +
          4 * (collect readings).failedChanges.length := by
    have hLength := List.length_filter_le
      (fun path => !s.node.pendingChanges.contains path)
      (collect readings).failedChanges
    unfold cost
    dsimp only
    rw [pendingChanges_commitScanned, disk_commitScanned,
      List.length_append]
    omega
  unfold commitRound
  dsimp only
  split
  next => omega
  next hSome =>
    have hPos := List.length_pos_iff.mpr hSome
    rw [cost_post]
    simp only [Task.cost]
    omega

theorem cost_run
    (hStep : run H s = some s') :
    cost H s' < cost H s := by
  unfold run at hStep
  split at hStep
  next task tasks hWaiting hTasks =>
    cases hStep
    have hCost : cost H s =
        cost H { s with tasks := tasks } + task.cost := by
      unfold cost
      rw [hTasks, List.map_cons, List.sum_cons]
      dsimp only
      omega
    rw [hCost]
    cases task with
    | batch =>
        have hRound := cost_processDebouncedChanges (H := H)
          (s := { s with tasks := tasks }) true hWaiting
        simp only [runTask, Task.cost]
        omega
    | process =>
        have hRound := cost_processDebouncedChanges (H := H)
          (s := { s with tasks := tasks }) false hWaiting
        simp only [runTask, Task.cost]
        omega
    | debounced =>
        simp only [runTask, cost_post, Task.cost]
        omega
    | retried =>
        have hRound := cost_processDebouncedChanges (H := H)
          (s := { s with tasks := tasks }) false hWaiting
        simp only [runTask, Task.cost]
        omega
    | scheduleRetry =>
        simp only [runTask, Task.cost]
        unfold cost
        dsimp only
        split <;> simp only [if_true] <;> omega
    | commit readings =>
        have hRound := cost_commitRound (H := H)
          (s := { s with tasks := tasks }) readings
        simp only [runTask, Task.cost]
        omega
  next => cases hStep

/- The watcher's thread pays for the path it reports. -/
theorem cost_notify
    (hStep : notify s = some s') :
    cost H s' < cost H s := by
  unfold notify at hStep
  split at hStep
  next path hWatcher =>
    cases hStep
    refine lt_of_le_of_lt (cost_notifyChangeDetected path) ?_
    unfold cost
    rw [hWatcher]
    simp only [Watcher.cost, List.length_nil]
    omega
  next path next later hWatcher =>
    cases hStep
    refine lt_of_le_of_lt (cost_notifyChangeDetected path) ?_
    unfold cost
    rw [hWatcher]
    simp only [Watcher.cost, List.length_cons]
    omega
  next => cases hStep

theorem cost_countPending
    (hStep : countPending config s = some s') :
    cost H s' < cost H s := by
  unfold countPending at hStep
  split at hStep
  next hWatcher =>
    split at hStep
    next =>
      cases hStep
      unfold cost
      rw [hWatcher]
      simp only [Watcher.cost]
      omega
    next =>
      cases hStep
      unfold cost
      rw [hWatcher]
      simp only [Watcher.cost]
      omega
  next => cases hStep

theorem cost_claimBatch
    (hStep : claimBatch config s = some s') :
    cost H s' < cost H s := by
  have hArm (hWatcher : s.watcher = .claim) :
      cost H { s with watcher := .arm } < cost H s := by
    unfold cost
    rw [hWatcher]
    simp only [Watcher.cost]
    omega
  unfold claimBatch at hStep
  split at hStep
  next hWatcher =>
    dsimp only at hStep
    split at hStep
    next =>
      cases hStep
      exact hArm hWatcher
    next =>
      split at hStep
      next =>
        cases hStep
        exact hArm hWatcher
      next =>
        cases hStep
        rw [cost_post]
        unfold cost
        rw [hWatcher]
        simp only [Watcher.cost, Task.cost]
        omega
  next => cases hStep

theorem cost_armDebounce
    (hStep : armDebounce s = some s') :
    cost H s' < cost H s := by
  unfold armDebounce at hStep
  split at hStep
  next hWatcher =>
    cases hStep
    unfold cost
    rw [hWatcher]
    simp only [Watcher.cost, if_true]
    split <;> omega
  next => cases hStep

theorem cost_debounceFires
    (hArmed : s.debounceArmed = true) :
    cost H ({ s with debounceArmed := false }.post
      .debounced) < cost H s := by
  rw [cost_post]
  unfold cost
  rw [hArmed]
  simp only [Task.cost, if_true, Bool.false_eq_true,
    if_false]
  omega

theorem cost_retryFires
    (hArmed : s.retryArmed = true) :
    cost H ({ s with retryArmed := false }.post
      .retried) < cost H s := by
  rw [cost_post]
  unfold cost
  rw [hArmed]
  simp only [Task.cost, if_true, Bool.false_eq_true,
    if_false]
  omega

theorem cost_join
    (hStep : join s = some s') :
    cost H s' < cost H s := by
  unfold join at hStep
  split at hStep
  next changes batch hWaiting hScan =>
    cases hStep
    rw [cost_release]
    unfold cost
    rw [hWaiting, hScan]
    simp [waitingCost, roundCost]
  next => cases hStep

theorem cost_inspect
    {faults : Faults}
    {change : String}
    (hReadable : ∀ loc, faults.scan.mtimeFails loc = false)
    (hStep : inspect H faults change s = some s') :
    cost H s' < cost H s := by
  unfold inspect at hStep
  split at hStep
  next round hScan =>
    split at hStep
    next hTodo =>
      cases hStep
      have hEntry := entryCost_inspectChange (H := H)
        (s := s) hReadable change
      have hLength := List.length_erase_of_mem hTodo
      have hPos := List.length_pos_of_mem hTodo
      unfold cost
      rw [hScan]
      simp only [roundCost, List.map_append,
        List.sum_append, List.map_cons, List.map_nil,
        List.sum_singleton, hLength]
      omega
    next => cases hStep
  next => cases hStep

theorem sum_map_modify_lt
    {α : Type}
    {price : α → ℕ}
    {change : α → α}
    {items : List α}
    {i : ℕ}
    {item : α}
    (hItem : items[i]? = some item)
    (hLess : price (change item) < price item) :
    ((items.modify i change).map price).sum <
      (items.map price).sum := by
  induction items generalizing i with
  | nil => cases hItem
  | cons first items ih =>
      cases i with
      | zero =>
          cases Option.some.inj hItem
          simp only [List.modify_zero_cons, List.map_cons,
            List.sum_cons]
          omega
      | succ i =>
          have hRest := ih hItem
          simp only [List.modify_succ_cons, List.map_cons,
            List.sum_cons]
          omega

theorem cost_hash
    {conditions : ScanConditions}
    {i : ℕ}
    (hReadable : ∀ loc, conditions.hashFails loc = false)
    (hStep : hash H conditions i s = some s') :
    cost H s' < cost H s := by
  unfold hash at hStep
  split at hStep
  next round hScan =>
    split at hStep
    next hGuard =>
      cases hStep
      have hAny := hGuard.2
      rw [Option.any_eq_true] at hAny
      rcases hAny with ⟨entry, hEntry, hFlag⟩
      have hLess : entryCost H s.node.disk
          (hashReading H conditions s entry) <
            entryCost H s.node.disk entry := by
        rw [hashReading_eq_rehashed hReadable]
        unfold entryCost
        rw [hFlag, if_pos rfl]
        simp
      have hSum := sum_map_modify_lt hEntry hLess
      unfold cost
      rw [hScan]
      simp only [roundCost]
      omega
    next => cases hStep
  next => cases hStep

theorem cost_finish
    (hStep : finish s = some s') :
    cost H s' < cost H s := by
  unfold finish at hStep
  split at hStep
  next round hScan =>
    split at hStep
    next hGuard =>
      cases hStep
      have hSum : (round.readings.map
          (entryCost H s.node.disk)).sum =
            ((round.readings.map Prod.fst).map
              failCost).sum := by
        rw [List.map_map]
        congr 1
        apply List.map_congr_left
        intro entry hMem
        have hFlag := List.all_eq_true.mp hGuard.2 entry hMem
        rw [Bool.not_eq_true'] at hFlag
        unfold entryCost
        rw [hFlag, if_neg (by simp)]
        rfl
      rw [cost_post]
      unfold cost
      rw [hScan]
      simp only [roundCost, Task.cost, hSum]
      omega
    next => cases hStep
  next => cases hStep

end Decrease

------------------------------------------------------------
-- Coming to Rest
------------------------------------------------------------

/- The pipeline's own event, of a host that can be read. -/
def IsOwnReadable (e : Event) : Prop :=
  IsOwn e ∧ IsReadable e

theorem settling
    (H : Host)
    (config : SyncConfig) :
    Settling (step H config) WakesWhilePending IsOwnReadable
      (cost H) where
  lowers := by
    intro s e s' hWakes hOwn hStep
    refine ⟨wakesWhilePending_step H config s e s' hWakes
      hStep, ?_⟩
    rcases hOwn with ⟨hOwn, hReadable⟩
    cases e with
    | act node => cases hOwn
    | scanDirectory conditions => cases hOwn
    | tick ns => cases hOwn
    | handle dir filename moved oldFilename => cases hOwn
    | notify => exact cost_notify hStep
    | count => exact cost_countPending hStep
    | claim => exact cost_claimBatch hStep
    | arm => exact cost_armDebounce hStep
    | debounceFires =>
        simp only [step] at hStep
        split at hStep
        next hArmed =>
          cases hStep
          exact cost_debounceFires hArmed
        next => cases hStep
    | retryFires =>
        simp only [step] at hStep
        split at hStep
        next hArmed =>
          cases hStep
          exact cost_retryFires hArmed
        next => cases hStep
    | run => exact cost_run hStep
    | join => exact cost_join hStep
    | inspect faults change =>
        exact cost_inspect hReadable hStep
    | hash conditions i => exact cost_hash hReadable hStep
    | finish => exact cost_finish hStep

/- Nothing is refused. -/
def noFaults : Faults where
  scan := .plain
  existsFails := fun _ => false

section Progress

variable
  {H : Host}
  {config : SyncConfig}
  {s : System}

/- Some thread can go on by itself. -/
def CanGoOn
    (H : Host)
    (config : SyncConfig)
    (s : System) : Prop :=
  ∃ e s', IsOwnReadable e ∧ step H config s e = some s'

theorem canGoOn_of_isSome
    {e : Event}
    (hOwn : IsOwnReadable e)
    (hSome : (step H config s e).isSome = true) :
    CanGoOn H config s := by
  rcases Option.isSome_iff_exists.mp hSome with ⟨s', hStep⟩
  exact ⟨e, s', hOwn, hStep⟩

/- The scan thread can go on until its round is over. -/
theorem canGoOn_of_scan
    {round : Round}
    (hScan : s.scan = some round) :
    CanGoOn H config s := by
  by_cases hTodo : round.todo = []
  · by_cases hFlags :
      round.readings.all (fun entry => !entry.2) = true
    · apply canGoOn_of_isSome (e := .finish)
        ⟨trivial, trivial⟩
      simp only [step, finish, hScan]
      rw [if_pos ⟨hTodo, hFlags⟩]
      rfl
    · rw [List.all_eq_true] at hFlags
      push Not at hFlags
      rcases hFlags with ⟨entry, hMem, hFlag⟩
      rcases List.getElem?_of_mem hMem with ⟨i, hEntry⟩
      have hAny : (round.readings[i]?).any Prod.snd =
          true := by
        rw [hEntry]
        simpa using hFlag
      apply canGoOn_of_isSome (e := .hash .plain i)
        ⟨trivial, fun _ => rfl⟩
      simp only [step, hash, hScan]
      rw [if_pos ⟨hTodo, hAny⟩]
      rfl
  · rcases List.exists_mem_of_ne_nil _ hTodo with
      ⟨change, hMem⟩
    apply canGoOn_of_isSome (e := .inspect noFaults change)
      ⟨trivial, fun _ => rfl⟩
    simp only [step, inspect, hScan]
    rw [if_pos hMem]
    rfl

/- The watcher's thread can go on until its callback ends. -/
theorem canGoOn_of_watcher
    (hWatcher : s.watcher ≠ .idle) :
    CanGoOn H config s := by
  cases hCase : s.watcher with
  | idle => exact absurd hCase hWatcher
  | report path later =>
      apply canGoOn_of_isSome (e := .notify)
        ⟨trivial, trivial⟩
      simp only [step, notify, hCase]
      cases later <;> rfl
  | count =>
      apply canGoOn_of_isSome (e := .count)
        ⟨trivial, trivial⟩
      simp only [step, countPending, hCase]
      split <;> rfl
  | claim =>
      apply canGoOn_of_isSome (e := .claim)
        ⟨trivial, trivial⟩
      simp only [step, claimBatch, hCase]
      split
      · rfl
      · split <;> rfl
  | arm =>
      apply canGoOn_of_isSome (e := .arm) ⟨trivial, trivial⟩
      simp only [step, armDebounce, hCase]
      rfl

/- While something is under way, some thread can go on. -/
theorem canGoOn_of_not_atRest
    (hBusy : ¬ AtRest s) :
    CanGoOn H config s := by
  by_cases hWatcher : s.watcher = .idle
  swap
  · exact canGoOn_of_watcher hWatcher
  cases hScan : s.scan with
  | some round => exact canGoOn_of_scan hScan
  | none =>
  cases hWaiting : s.waiting with
  | some waiting =>
      apply canGoOn_of_isSome (e := .join)
        ⟨trivial, trivial⟩
      simp only [step, join, hWaiting, hScan]
      rfl
  | none =>
  cases hTasks : s.tasks with
  | cons task tasks =>
      apply canGoOn_of_isSome (e := .run)
        ⟨trivial, trivial⟩
      simp only [step, run, hWaiting, hTasks]
      rfl
  | nil =>
  cases hDebounce : s.debounceArmed with
  | true =>
      apply canGoOn_of_isSome (e := .debounceFires)
        ⟨trivial, trivial⟩
      simp only [step, hDebounce, if_true]
      rfl
  | false =>
  cases hRetry : s.retryArmed with
  | true =>
      apply canGoOn_of_isSome (e := .retryFires)
        ⟨trivial, trivial⟩
      simp only [step, hRetry, if_true]
      rfl
  | false =>
      exact absurd
        ⟨hWatcher, hDebounce, hRetry, hTasks, hWaiting,
          hScan⟩ hBusy

end Progress

/-
  In every state of every run something is due while a path
  is pending.  Left alone from there with a host that can be
  read, the threads take no more than `cost` steps in any
  order; where they can take none, nothing is pending and
  nothing is under way; and such a rest can be reached.
-/
theorem settles_of_run
    (H : Host)
    (config : SyncConfig)
    (node : LocalState)
    (filter : FileFilter)
    (nowNs : ℕ)
    (events : List Event)
    (s : System)
    (hRun : Transition.run (step H config)
      (start node filter nowNs) events = some s) :
    (s.pending ≠ [] → Wakes s) ∧
    (∀ later s', (∀ e ∈ later, IsOwnReadable e) →
      Transition.run (step H config) s later = some s' →
        later.length ≤ cost H s ∧
        ((∀ e, IsOwnReadable e →
            step H config s' e = none) →
          AtRest s' ∧ s'.pending = [])) ∧
    ∃ later s', (∀ e ∈ later, IsOwnReadable e) ∧
      Transition.run (step H config) s later = some s' ∧
        AtRest s' ∧ s'.pending = [] := by
  have hWakes := wakesWhilePending_of_run hRun
  have hSettling := settling H config
  refine ⟨hWakes, ?_, ?_⟩
  · intro later s' hOwn hLater
    refine ⟨hSettling.length_le hWakes hOwn hLater, ?_⟩
    intro hStuck
    have hRest : AtRest s' := by
      by_contra hBusy
      rcases canGoOn_of_not_atRest (H := H) hBusy with
        ⟨e, next, hOwn, hStep⟩
      rw [hStuck e hOwn] at hStep
      cases hStep
    exact ⟨hRest, pending_of_atRest
      (hSettling.inv_of_run hWakes hOwn hLater) hRest⟩
  · rcases hSettling.exists_run_to_rest
      (fun s _ hBusy => canGoOn_of_not_atRest hBusy)
      hWakes with ⟨later, s', hOwn, hLater, hRest⟩
    exact ⟨later, s', hOwn, hLater, hRest,
      pending_of_atRest
        (hSettling.inv_of_run hWakes hOwn hLater) hRest⟩

def sampleConfig : SyncConfig := ⟨100, 1000⟩

def sampleNode : LocalState :=
  .empty .plain .source .biDirectional

/- A user writes a file and the watcher reports it. -/
def sampleReport : List Event :=
  [.act (.userWrites .plain "a" [97] sampleNode),
    .handle "/r/" "a" false "", .notify]

theorem settles_sampleReport :
    ∃ s, Transition.run (step .plain sampleConfig)
        (start sampleNode .cleared 0) sampleReport =
          some s ∧
      s.pending = ["/r/a"] ∧
      ∃ later s', (∀ e ∈ later, IsOwnReadable e) ∧
        Transition.run (step .plain sampleConfig) s later =
          some s' ∧ AtRest s' ∧ s'.pending = [] :=
  ⟨_, rfl, rfl,
    (settles_of_run .plain sampleConfig sampleNode .cleared 0
      sampleReport _ rfl).2.2⟩

end ChangePipeline

end VeritasSync
