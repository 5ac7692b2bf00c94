import VeritasSync.Storage.CommitChanges
import VeritasSync.Storage.FileFilter
import VeritasSync.Storage.ScanDirectory

/-
  The incremental path: what a round of changes that the
  watcher reported finds on the disk, and the round as a
  whole, rules and commit included.

  Main declarations:
    * `StateManager.checkChange`
    * `StateManager.scanAndHashChanges`
    * `StateManager.processDebouncedChanges`
    * `StateManager.scanWithRules`
-/

namespace VeritasSync

namespace StateManager

------------------------------------------------------------
-- One Change
------------------------------------------------------------

/- What becomes of one reported path. -/
inductive ChangeCheck where
| skipped : ChangeCheck
| failed : ChangeCheck
| file : PendingFile → ChangeCheck
| dir : String → ChangeCheck
| deleted : String → ChangeCheck
deriving DecidableEq, Repr

namespace ChangeCheck

def file? : ChangeCheck → Option PendingFile
| .file pending => some pending
| _ => none

def dir? : ChangeCheck → Option String
| .dir path => some path
| _ => none

def deleted? : ChangeCheck → Option String
| .deleted path => some path
| _ => none

end ChangeCheck

/- The full path is the root, name by name. -/
def isRootPath
    (H : Host)
    (fullPath : String) : Bool :=
  isAbsolute fullPath && components fullPath == H.root

/-
  `existsFails` are the places where the host cannot tell
  whether there is anything.
-/
def checkChange
    (H : Host)
    (existsFails : Loc → Bool)
    (s : LocalState)
    (fullPath : String) : ChangeCheck :=
  let loc := H.locate fullPath
  if isRootPath H fullPath then
    .skipped
  else if H.scan.relativeFails loc then
    .skipped
  else if H.scan.ignores (H.relative loc) then
    .skipped
  else
    match s.disk.lookup loc, existsFails loc with
    | some (.file file), false =>
        -- a failed type check answers "not a file"
        if H.scan.fileCheckFails loc then
          .skipped
        else if H.scan.mtimeFails loc then
          .failed
        else
          .file (inspectFile H s.fileStore loc file)
    | some .dir, false =>
        if H.scan.dirCheckFails loc then
          .skipped
        else
          .dir (H.relative loc)
    | _, _ => .deleted (H.relative loc)

------------------------------------------------------------
-- A Round of Changes
------------------------------------------------------------

/- What a round hands over to be committed. -/
structure ScannedChanges where
  fileUpdateResults : List FileInfo
  deleteCheckResults : List String
  dirCreateResults : List String
  failedChanges : List String
deriving DecidableEq, Repr

/- The change fails now, or its file cannot be hashed. -/
def changeFails
    (H : Host)
    (existsFails : Loc → Bool)
    (s : LocalState)
    (fullPath : String) : Bool :=
  match checkChange H existsFails s fullPath with
  | .failed => true
  | .file pending =>
      pending.needCalc && finalHash H s.disk pending == ""
  | _ => false

/-
  Files without a digest are dropped, but only in a round
  that had to hash some file.
-/
def scanAndHashChanges
    (H : Host)
    (existsFails : Loc → Bool)
    (changes : List String)
    (s : LocalState) : ScannedChanges :=
  let checks := changes.map (checkChange H existsFails s)
  let files := checks.filterMap ChangeCheck.file?
  let results := files.map (pendingInfo H s.disk)
  { fileUpdateResults :=
      if files.any PendingFile.needCalc then
        results.filter (fun info => info.hash != "")
      else
        results
    deleteCheckResults :=
      checks.filterMap ChangeCheck.deleted?
    dirCreateResults := checks.filterMap ChangeCheck.dir?
    failedChanges :=
      changes.filter (changeFails H existsFails s) }

def commitScanned
    (scanned : ScannedChanges)
    (s : LocalState) : Committed × LocalState :=
  commitChanges scanned.fileUpdateResults
    scanned.deleteCheckResults scanned.dirCreateResults
    scanned.failedChanges s

section Found

variable
  {H : Host}
  {existsFails : Loc → Bool}
  {s : LocalState}
  {fullPath : String}

/- The change is of something that the rules let through. -/
def IsWatched
    (H : Host)
    (fullPath : String) : Prop :=
  isRootPath H fullPath = false ∧
    H.scan.relativeFails (H.locate fullPath) = false ∧
    H.scan.ignores (H.relative (H.locate fullPath)) = false

theorem file?_checkChange_iff
    {pending : PendingFile} :
    (checkChange H existsFails s fullPath).file? =
        some pending ↔
      ∃ file,
        s.disk.lookup (H.locate fullPath) =
          some (.file file) ∧
        inspectFile H s.fileStore (H.locate fullPath) file =
          pending ∧
        IsWatched H fullPath ∧
        existsFails (H.locate fullPath) = false ∧
        H.scan.fileCheckFails (H.locate fullPath) = false ∧
        H.scan.mtimeFails (H.locate fullPath) = false := by
  unfold checkChange IsWatched
  dsimp only
  by_cases hRoot : isRootPath H fullPath = true
  · simp [hRoot, ChangeCheck.file?]
  by_cases hRelative :
      H.scan.relativeFails (H.locate fullPath) = true
  · simp [hRoot, hRelative, ChangeCheck.file?]
  by_cases hIgnores : H.scan.ignores
      (H.relative (H.locate fullPath)) = true
  · simp [hRoot, hRelative, hIgnores, ChangeCheck.file?]
  rw [if_neg hRoot, if_neg hRelative, if_neg hIgnores]
  split
  next file hNode hExists =>
    rw [hNode, hExists]
    by_cases hCheck :
        H.scan.fileCheckFails (H.locate fullPath) = true
    · simp [hCheck, ChangeCheck.file?]
    by_cases hMtime :
        H.scan.mtimeFails (H.locate fullPath) = true
    · simp [hCheck, hMtime, ChangeCheck.file?]
    · simp [hRoot, hRelative, hIgnores, hCheck, hMtime,
        ChangeCheck.file?]
  next hNode hExists =>
    rw [hNode]
    split <;> simp [ChangeCheck.file?]
  next hNoFile hNoDir =>
    constructor
    · intro hFile
      cases hFile
    · rintro ⟨file, hFile, -, -, hExists, -⟩
      exact absurd hExists (hNoFile file hFile)

/- Nothing is taken for deleted that can be seen. -/
theorem deleted?_checkChange_eq_none
    (hNode : s.disk.lookup (H.locate fullPath) ≠ none)
    (hExists : existsFails (H.locate fullPath) = false) :
    (checkChange H existsFails s fullPath).deleted? =
      none := by
  unfold checkChange
  dsimp only
  split
  · rfl
  · split
    · rfl
    · split
      · rfl
      · split
        · split
          · rfl
          · split <;> rfl
        · split <;> rfl
        next hNoFile hNoDir =>
          cases hLookup : s.disk.lookup
              (H.locate fullPath) with
          | none => exact absurd hLookup hNode
          | some node =>
              cases node with
              | dir => exact absurd hExists (hNoDir hLookup)
              | file file =>
                  exact absurd hExists
                    (hNoFile file hLookup)

end Found

------------------------------------------------------------
-- With the Rules
------------------------------------------------------------

/- The text of the rules file at the root. -/
def ignoreFile
    (H : Host)
    (disk : Disk) : Option (List Char) :=
  let loc := H.locate ".veritasignore"
  if H.openFails loc then
    none
  else
    (disk.payload? loc).map (fun file =>
      file.content.map (fun byte => Char.ofNat byte.toNat))

def rulesOn
    (H : Host)
    (disk : Disk) : FileFilter :=
  .loadRules (ignoreFile H disk)

/- The host while these rules are loaded. -/
def withRules
    (H : Host)
    (filter : FileFilter) : Host :=
  { H with
    scan := { H.scan with
      ignores := fun path =>
        filter.shouldIgnore (bytes path) } }

/- A node together with the rules that it has loaded. -/
structure Watching where
  filter : FileFilter
  node : LocalState

/- The full scan, which loads the rules first. -/
def scanWithRules
    (H : Host)
    (w : Watching) : Watching :=
  let filter := rulesOn H w.node.disk
  ⟨filter, scanDirectory (withRules H filter) w.node⟩

/- A change that mentions the rules file. -/
def reloadsRules (fullPath : String) : Bool :=
  ".veritasignore".toList <:+: fullPath.toList

/- A round of changes that nothing comes in between of. -/
def processDebouncedChanges
    (H : Host)
    (existsFails : Loc → Bool)
    (w : Watching)
    (changes : List String) : Watching :=
  if changes = [] then
    w
  else
    let filter :=
      if changes.any reloadsRules then
        rulesOn H w.node.disk
      else
        w.filter
    let scanned := scanAndHashChanges (withRules H filter)
      existsFails changes w.node
    ⟨filter, (commitScanned scanned w.node).2⟩

end StateManager

end VeritasSync
