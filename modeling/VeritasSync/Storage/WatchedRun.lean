import Mathlib.Logic.Function.Basic
import VeritasSync.Common.Filesystem
import VeritasSync.Library.Transition
import VeritasSync.Storage.ScanChanges

/-
  A node whose files are received and edited while the
  watcher's rounds are read, posted and committed.

  A round reads the reported paths one after the other, and
  anything may happen in between.  Of every file it is kept
  who wrote it last, which the program does not know.

  Main declarations:
    * `WatchedRun.Reading`, `WatchedRun.collect`
    * `WatchedRun.collect_map_readChange`
    * `WatchedRun.System`, `WatchedRun.step`
-/

namespace VeritasSync

namespace WatchedRun

open StateManager

------------------------------------------------------------
-- Reading a Round
------------------------------------------------------------

/- Who wrote a file last. -/
inductive Source where
| user : Source
| peer : Source
deriving DecidableEq, Repr

/- What a round found under one path. -/
structure Reading where
  change : String
  check : ChangeCheck
  hash : String
  source : Source
deriving DecidableEq, Repr

def readChange
    (H : Host)
    (existsFails : Loc → Bool)
    (s : LocalState)
    (written : Loc → Source)
    (change : String) : Reading where
  change := change
  check := checkChange H existsFails s change
  hash :=
    match (checkChange H existsFails s change).file? with
    | some pending => finalHash H s.disk pending
    | none => ""
  source := written (H.locate change)

namespace Reading

/- The file as it is committed. -/
def info? (r : Reading) : Option FileInfo :=
  r.check.file?.map (fun pending =>
    { path := pending.relPathStr
      hash := r.hash
      modifiedTime := (pending.modifiedTime % 2 ^ 64).toNat
      size := pending.fileSize })

def needsHash (r : Reading) : Bool :=
  r.check.file?.any PendingFile.needCalc

def fails (r : Reading) : Bool :=
  r.check == .failed || (r.needsHash && r.hash == "")

end Reading

/- What is left once the files without digest are dropped. -/
def hashed (readings : List Reading) : List Reading :=
  if readings.any Reading.needsHash then
    readings.filter (fun r => r.hash != "")
  else
    readings

/- What a round hands over, from what it has read. -/
def collect (readings : List Reading) : ScannedChanges where
  fileUpdateResults :=
    (hashed readings).filterMap Reading.info?
  deleteCheckResults :=
    readings.filterMap (fun r => r.check.deleted?)
  dirCreateResults :=
    readings.filterMap (fun r => r.check.dir?)
  failedChanges :=
    (readings.filter Reading.fails).map Reading.change

section Collect

variable
  (H : Host)
  (existsFails : Loc → Bool)
  (s : LocalState)
  (written : Loc → Source)

theorem info?_readChange
    (change : String) :
    (readChange H existsFails s written change).info? =
      (checkChange H existsFails s change).file?.map
        (pendingInfo H s.disk) := by
  unfold Reading.info? readChange
  dsimp only
  cases (checkChange H existsFails s change).file? <;> rfl

theorem fails_readChange
    (change : String) :
    (readChange H existsFails s written change).fails =
      changeFails H existsFails s change := by
  unfold Reading.fails Reading.needsHash readChange
    changeFails
  dsimp only
  cases checkChange H existsFails s change <;> rfl

theorem filterMap_info?_readings
    (changes : List String) :
    (changes.map (readChange H existsFails s
        written)).filterMap Reading.info? =
      ((changes.map (checkChange H existsFails s)).filterMap
        ChangeCheck.file?).map (pendingInfo H s.disk) := by
  rw [List.filterMap_map, List.filterMap_map,
    List.map_filterMap]
  apply List.filterMap_congr
  intro change _
  exact info?_readChange H existsFails s written change

/- Dropping readings drops the files they are about. -/
theorem filterMap_info?_filter
    (readings : List Reading) :
    (readings.filter (fun r => r.hash != "")).filterMap
        Reading.info? =
      (readings.filterMap Reading.info?).filter
        (fun info => info.hash != "") := by
  rw [List.filterMap_filter, List.filter_filterMap]
  apply List.filterMap_congr
  intro r _
  unfold Reading.info?
  cases r.check.file? with
  | none => simp
  | some pending =>
      by_cases hHash : r.hash = "" <;>
        simp [hHash, Option.filter]

/- A round that nothing comes in between of is a scan. -/
theorem collect_map_readChange
    (changes : List String) :
    collect (changes.map
        (readChange H existsFails s written)) =
      scanAndHashChanges H existsFails changes s := by
  have hNeeds : (changes.map (readChange H existsFails s
      written)).any Reading.needsHash =
        ((changes.map (checkChange H existsFails
          s)).filterMap ChangeCheck.file?).any
            PendingFile.needCalc := by
    rw [List.any_map, List.filterMap_map, List.any_filterMap]
    rfl
  have hFails : ((changes.map (readChange H existsFails s
      written)).filter Reading.fails).map Reading.change =
        changes.filter (changeFails H existsFails s) := by
    rw [List.filter_map, List.map_map]
    have hSame : Reading.fails ∘ readChange H existsFails s
        written = changeFails H existsFails s := by
      funext change
      exact fails_readChange H existsFails s written change
    rw [hSame]
    exact List.map_id _
  have hDeleted : (changes.map (readChange H existsFails s
      written)).filterMap (fun r => r.check.deleted?) =
        (changes.map (checkChange H existsFails s)).filterMap
          ChangeCheck.deleted? := by
    rw [List.filterMap_map, List.filterMap_map]
    rfl
  have hDirs : (changes.map (readChange H existsFails s
      written)).filterMap (fun r => r.check.dir?) =
        (changes.map (checkChange H existsFails s)).filterMap
          ChangeCheck.dir? := by
    rw [List.filterMap_map, List.filterMap_map]
    rfl
  unfold collect hashed scanAndHashChanges
  dsimp only
  rw [hNeeds, hFails, hDeleted, hDirs,
    ← filterMap_info?_readings, ← filterMap_info?_filter]
  split <;> rfl

end Collect

------------------------------------------------------------
-- Runs
------------------------------------------------------------

/-
  `reading` is the round that is being scanned, `posted` the
  rounds that wait to be committed, and `log` has those that
  were, with what was reported of them.
-/
structure System where
  node : LocalState
  written : Loc → Source
  reading : List Reading
  posted : List (List Reading)
  log : List (List Reading × Committed)

/- Nothing has been received since the program started. -/
def start (node : LocalState) : System where
  node := { node with receivedFiles := ∅ }
  written := fun _ => .user
  reading := []
  posted := []
  log := []

/-
  A download is moved into place, its digest is marked; local
  programs leave the tree as it is given; a round reads one
  more path, ends, and is committed.
-/
inductive Event where
| receive : String → File → Event
| mark : String → String → Event
| edit : Disk → Event
| read : String → Event
| post : Event
| commit : Event

def receive
    (H : Host)
    (path : String)
    (file : File)
    (s : System) : Option System :=
  let loc := H.locate path
  if Filesystem.writable s.node.disk loc then
    some { s with
      node := { s.node with
        disk := AList.insert loc (.file file) s.node.disk }
      written := Function.update s.written loc .peer }
  else
    none

/- What differs now has been written by a local program. -/
def edit
    (disk : Disk)
    (s : System) : System :=
  { s with
    node := { s.node with disk := disk }
    written := fun loc =>
      if disk.lookup loc = s.node.disk.lookup loc then
        s.written loc
      else
        .user }

def commit (s : System) : Option System :=
  match s.posted with
  | [] => none
  | readings :: rest =>
      let done := commitScanned (collect readings) s.node
      some { s with
        node := done.2
        posted := rest
        log := s.log ++ [(readings, done.1)] }

def step
    (H : Host)
    (existsFails : Loc → Bool)
    (s : System) : Event → Option System
| .receive path file => receive H path file s
| .mark path hash =>
    some { s with node := markFileReceived path hash s.node }
| .edit disk => some (edit disk s)
| .read change =>
    some { s with
      reading := s.reading ++
        [readChange H existsFails s.node s.written change] }
| .post =>
    some { s with
      reading := []
      posted := s.posted ++ [s.reading] }
| .commit => commit s

end WatchedRun

end VeritasSync
