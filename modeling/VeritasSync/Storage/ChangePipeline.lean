import VeritasSync.Storage.WatchedRun

/-
  From a report of the file watcher to the commit of what was
  found.

  Three threads take part.  The watcher's thread puts a path
  into the pending set and then either posts a batch or arms
  the debounce timer.  The thread of the `io_context` runs
  the posted handlers one after the other; a handler that
  starts a round empties the pending set and waits for the
  scan thread of the previous round.  The scan thread looks
  at the paths, hashes what has to be hashed, and posts what
  it found to be committed.

  Any step of one thread may come between any two of the
  others, and a timer may fire as soon as it is armed.

  Main declarations:
    * `ChangePipeline.handleFileAction`
    * `ChangePipeline.System`, `ChangePipeline.step`
    * `ChangePipeline.IsOwn`, `ChangePipeline.AtRest`
-/

namespace VeritasSync

namespace ChangePipeline

open StateManager WatchedRun

------------------------------------------------------------
-- Reports of the Watcher
------------------------------------------------------------

/- A directory and a name in it, as one path. -/
def joinPath (dir name : String) : String :=
  if isAbsolute name then
    name
  else if dir = "" ∨ dir.toList.getLast? = some '/' then
    dir ++ name
  else
    dir ++ "/" ++ name

/- The name is not one that is never looked at. -/
def isReported (filename : String) : Bool :=
  !(filename == "." || filename == ".." ||
    ".veritas.db".toList <:+: filename.toList ||
    ".veritas_tmp".toList <:+: filename.toList)

/-
  The paths that one callback of the watcher reports.  A
  rename reports the old name first, whatever it is.
-/
def handleFileAction
    (dir filename : String)
    (moved : Bool)
    (oldFilename : String) : List String :=
  if isReported filename then
    if moved && oldFilename != "" then
      [joinPath dir oldFilename, joinPath dir filename]
    else
      [joinPath dir filename]
  else
    []

------------------------------------------------------------
-- The Threads
------------------------------------------------------------

structure SyncConfig where
  batchTriggerThreshold : Int
  batchMinIntervalMs : Int
deriving DecidableEq, Repr

/- The threshold is compared as an unsigned number. -/
def SyncConfig.threshold (config : SyncConfig) : ℕ :=
  (config.batchTriggerThreshold % 2 ^ 64).toNat

/- Where the watcher's thread is in its callback. -/
inductive Watcher where
| idle : Watcher
| report : String → List String → Watcher
| count : Watcher
| claim : Watcher
| arm : Watcher
deriving DecidableEq, Repr

/- A handler that waits for the `io_context`. -/
inductive Task where
| batch : Task
| process : Task
| debounced : Task
| retried : Task
| scheduleRetry : Task
| commit : List Reading → Task
deriving DecidableEq, Repr

/-
  A round on the scan thread.  Of every reading it is kept
  whether its digest is still to be computed.
-/
structure Round where
  todo : List String
  readings : List (Reading × Bool)
deriving DecidableEq, Repr

/-
  `waiting` has the changes of a handler that waits for the
  scan thread, and whether the handler is a batch.
-/
structure System where
  node : LocalState
  filter : FileFilter
  watcher : Watcher
  processing : Bool
  lastBatchNs : ℕ
  nowNs : ℕ
  debounceArmed : Bool
  retryArmed : Bool
  tasks : List Task
  waiting : Option (List String × Bool)
  scan : Option Round
  log : List Committed

namespace System

abbrev pending (s : System) : List String :=
  s.node.pendingChanges

def setPending
    (s : System)
    (changes : List String) : System :=
  { s with
    node := { s.node with pendingChanges := changes } }

/- Post a handler to the `io_context`. -/
def post
    (s : System)
    (task : Task) : System :=
  { s with tasks := s.tasks ++ [task] }

/- The end of a batch's handler. -/
def release
    (s : System)
    (batch : Bool) : System :=
  if batch then
    { s with lastBatchNs := s.nowNs, processing := false }
  else
    s

end System

/- Nothing is under way when the watcher is started. -/
def start
    (node : LocalState)
    (filter : FileFilter)
    (nowNs : ℕ) : System where
  node := { node with pendingChanges := [] }
  filter := filter
  watcher := .idle
  processing := false
  lastBatchNs := 0
  nowNs := nowNs
  debounceArmed := false
  retryArmed := false
  tasks := []
  waiting := none
  scan := none
  log := []

/-
  What the host may refuse at one moment.  The rules that are
  loaded decide what is ignored.
-/
structure Faults where
  scan : ScanConditions
  existsFails : Loc → Bool

/- The host as a round finds it. -/
def hostAt
    (H : Host)
    (s : System)
    (conditions : ScanConditions) : Host :=
  withRules { H with scan := conditions } s.filter

/-
  `act` is whatever else happens to the node, from local
  programs or from peers.  The watcher's callback starts,
  reports a path, counts the pending ones, claims a batch,
  arms its timer.  A timer fires; the `io_context` runs a
  handler, or has waited for the scan thread; the scan
  thread looks at a path, hashes a file, or ends.
-/
inductive Event where
| act : LocalState → Event
| scanDirectory : ScanConditions → Event
| tick : ℕ → Event
| handle : String → String → Bool → String → Event
| notify : Event
| count : Event
| claim : Event
| arm : Event
| debounceFires : Event
| retryFires : Event
| run : Event
| join : Event
| inspect : Faults → String → Event
| hash : ScanConditions → ℕ → Event
| finish : Event

------------------------------------------------------------
-- Steps
------------------------------------------------------------

def notifyChangeDetected
    (fullPath : String)
    (s : System) : System :=
  if fullPath ∈ s.pending then
    s
  else
    s.setPending (s.pending ++ [fullPath])

/- The first path that is reported, and those after it. -/
def startReport
    (paths : List String)
    (s : System) : System :=
  match paths with
  | [] => s
  | path :: later => { s with watcher := .report path later }

/- One call of `notify_change_detected` in the callback. -/
def notify (s : System) : Option System :=
  match s.watcher with
  | .report path [] =>
      some (notifyChangeDetected path
        { s with watcher := .count })
  | .report path (next :: later) =>
      some (notifyChangeDetected path
        { s with watcher := .report next later })
  | _ => none

/- `check_and_trigger_batch` up to the threshold. -/
def countPending
    (config : SyncConfig)
    (s : System) : Option System :=
  match s.watcher with
  | .count =>
      if s.pending.length < config.threshold then
        some { s with watcher := .arm }
      else
        some { s with watcher := .claim }
  | _ => none

/- The rest of it: the interval, then the flag. -/
def claimBatch
    (config : SyncConfig)
    (s : System) : Option System :=
  match s.watcher with
  | .claim =>
      let elapsedMs := ((s.nowNs - s.lastBatchNs : Int).tdiv
        1000000)
      if elapsedMs < config.batchMinIntervalMs then
        some { s with watcher := .arm }
      else if s.processing then
        some { s with watcher := .arm }
      else
        some ({ s with
          watcher := .idle
          processing := true }.post .batch)
  | _ => none

/- Arming the timer drops the wait that was armed before. -/
def armDebounce (s : System) : Option System :=
  match s.watcher with
  | .arm =>
      some { s with watcher := .idle, debounceArmed := true }
  | _ => none

/- `process_debounced_changes` up to the join. -/
def processDebouncedChanges
    (H : Host)
    (batch : Bool)
    (s : System) : System :=
  if s.pending = [] then
    s.release batch
  else
    { s.setPending [] with
      filter :=
        if s.pending.any reloadsRules then
          rulesOn H s.node.disk
        else
          s.filter
      waiting := some (s.pending, batch) }

/- `commit_changes`; what failed is tried again later. -/
def commitRound
    (readings : List Reading)
    (s : System) : System :=
  let done := commitScanned (collect readings) s.node
  let s' := { s with node := done.2, log := s.log ++ [done.1] }
  if (collect readings).failedChanges = [] then
    s'
  else
    s'.post .scheduleRetry

def runTask
    (H : Host)
    (s : System) : Task → System
| .batch => processDebouncedChanges H true s
| .process => processDebouncedChanges H false s
| .debounced => s.post .process
| .retried => processDebouncedChanges H false s
| .scheduleRetry => { s with retryArmed := true }
| .commit readings => commitRound readings s

/- The next handler, unless the thread waits in a join. -/
def run
    (H : Host)
    (s : System) : Option System :=
  match s.waiting, s.tasks with
  | none, task :: tasks =>
      some (runTask H { s with tasks := tasks } task)
  | _, _ => none

/- The scan thread is free, the next round starts on it. -/
def join (s : System) : Option System :=
  match s.waiting, s.scan with
  | some (changes, batch), none =>
      some ({ s with
        waiting := none
        scan := some ⟨changes, []⟩ }.release batch)
  | _, _ => none

/-
  A path as the first pass finds it; a digest that is not
  taken from a row is computed in the second pass.
-/
def inspectChange
    (H : Host)
    (faults : Faults)
    (change : String)
    (s : System) : Reading × Bool :=
  let reading := readChange (hostAt H s faults.scan)
    faults.existsFails s.node (fun _ => .user) change
  if reading.needsHash then
    ({ reading with hash := "" }, true)
  else
    (reading, false)

def inspect
    (H : Host)
    (faults : Faults)
    (change : String)
    (s : System) : Option System :=
  match s.scan with
  | some round =>
      if change ∈ round.todo then
        some { s with
          scan := some
            { todo := round.todo.erase change
              readings := round.readings ++
                [inspectChange H faults change s] } }
      else
        none
  | none => none

/- The digest of the file as it is now. -/
def hashReading
    (H : Host)
    (conditions : ScanConditions)
    (s : System)
    (entry : Reading × Bool) : Reading × Bool :=
  ({ entry.1 with
      hash :=
        match entry.1.check.file? with
        | some pending =>
            finalHash (hostAt H s conditions) s.node.disk
              pending
        | none => entry.1.hash },
    false)

/- A worker of the second pass. -/
def hash
    (H : Host)
    (conditions : ScanConditions)
    (i : ℕ)
    (s : System) : Option System :=
  match s.scan with
  | some round =>
      if round.todo = [] ∧
          (round.readings[i]?).any Prod.snd then
        some { s with
          scan := some { round with
            readings := round.readings.modify i
              (hashReading H conditions s) } }
      else
        none
  | none => none

/- The round is over and what it found is posted. -/
def finish (s : System) : Option System :=
  match s.scan with
  | some round =>
      if round.todo = [] ∧
          round.readings.all (fun entry => !entry.2) then
        some ({ s with scan := none }.post
          (.commit (round.readings.map Prod.fst)))
      else
        none
  | none => none

/- `scan_directory`, which schedules retries of its own. -/
def fullScan
    (H : Host)
    (conditions : ScanConditions)
    (s : System) : System :=
  let H' := { H with scan := conditions }
  let w := scanWithRules H' ⟨s.filter, s.node⟩
  let s' := { s with filter := w.filter, node := w.node }
  if conditions.walkFails ∨
      retryList (withRules H' w.filter) s.node = [] then
    s'
  else
    s'.post .scheduleRetry

/- The pending set belongs to the pipeline alone. -/
def act
    (node : LocalState)
    (s : System) : System :=
  { s with
    node := { node with pendingChanges := s.pending } }

def step
    (H : Host)
    (config : SyncConfig)
    (s : System) : Event → Option System
| .act node => some (act node s)
| .scanDirectory conditions =>
    some (fullScan H conditions s)
| .tick ns => some { s with nowNs := s.nowNs + ns }
| .handle dir filename moved oldFilename =>
    if s.watcher = .idle then
      some (startReport
        (handleFileAction dir filename moved oldFilename) s)
    else
      none
| .notify => notify s
| .count => countPending config s
| .claim => claimBatch config s
| .arm => armDebounce s
| .debounceFires =>
    if s.debounceArmed then
      some ({ s with debounceArmed := false }.post .debounced)
    else
      none
| .retryFires =>
    if s.retryArmed then
      some ({ s with retryArmed := false }.post .retried)
    else
      none
| .run => run H s
| .join => join s
| .inspect faults change => inspect H faults change s
| .hash conditions i => hash H conditions i s
| .finish => finish s

/- What the pipeline does by itself, and when it waits. -/
def IsOwn : Event → Prop
| .act _ => False
| .scanDirectory _ => False
| .tick _ => False
| .handle _ _ _ _ => False
| _ => True

/- Nothing is under way on any thread, no timer is armed. -/
structure AtRest (s : System) : Prop where
  watcher : s.watcher = .idle
  debounce : s.debounceArmed = false
  retry : s.retryArmed = false
  tasks : s.tasks = []
  waiting : s.waiting = none
  scan : s.scan = none

end ChangePipeline

end VeritasSync
