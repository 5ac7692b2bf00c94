import VeritasSync.Storage.ScanDirectory

/-
  The directory scan of a tree with symbolic links.

  The walk visits a link like any other entry and does not
  go through it, but its type and its path are those of the
  place that it leads to.  That path is written relative to
  the root, also where the place lies outside.

  Main declarations:
    * `StateManager.relativeTo`,
      `StateManager.relativeTo_of_inside`
    * `StateManager.scanLinked`,
      `StateManager.scanLinked_nil`
    * `StateManager.Scan`
-/

namespace VeritasSync

namespace StateManager

------------------------------------------------------------
-- Relative Paths
------------------------------------------------------------

/- `lexically_relative`: up from the base, then down. -/
def lexicallyRelative : Loc → Loc → List String
| b :: base, name :: names =>
    if b = name then
      lexicallyRelative base names
    else
      (b :: base).map (fun _ => "..") ++ name :: names
| base, names => base.map (fun _ => "..") ++ names

/- `std::filesystem::relative` of a resolved place. -/
def relativeTo
    (H : Host)
    (loc : Loc) : String :=
  match lexicallyRelative H.root loc with
  | [] => "."
  | names => "/".intercalate names

theorem lexicallyRelative_append
    (base names : Loc) :
    lexicallyRelative base (base ++ names) = names := by
  induction base with
  | nil => simp [lexicallyRelative]
  | cons b base ih => simpa [lexicallyRelative] using ih

/- Below the root it is the path that a scan records. -/
theorem relativeTo_of_inside
    {H : Host}
    {loc : Loc}
    (hInside : H.Inside loc)
    (hBelow : loc ≠ H.root) :
    relativeTo H loc = H.relative loc := by
  rcases hInside with ⟨names, rfl⟩
  have hNames : names ≠ [] := by
    rintro rfl
    exact hBelow (List.append_nil _)
  unfold relativeTo Host.relative
  rw [lexicallyRelative_append, List.drop_left]
  cases names with
  | nil => exact absurd rfl hNames
  | cons name names => rfl

------------------------------------------------------------
-- The Walk With Its Links
------------------------------------------------------------

/- What the walk makes of one entry, and the entry's path. -/
structure Visit where
  path : String
  found : Inspection

/- A file that a link leads to. -/
def inspectTarget
    (H : Host)
    (store : AList (fun _ : String => FileMetadata))
    (link : Loc)
    (file : File) : PendingFile :=
  let path := relativeTo H (H.follow link)
  let cached := cachedMeta store path file.mtime
  { loc := H.follow link
    relPathStr := path
    modifiedTime := file.mtime
    cachedHash := (cached.map FileMetadata.hash).getD ""
    needCalc := cached.isNone
    isDirty := cached.isNone
    fileSize :=
      if H.scan.sizeFails link then
        0
      else
        file.content.length }

/- A link that leads nowhere is neither file nor directory. -/
def inspectLink
    (H : Host)
    (disk : Disk)
    (store : AList (fun _ : String => FileMetadata))
    (link : Loc) : Inspection :=
  let path := relativeTo H (H.follow link)
  if H.scan.relativeFails link then
    .failed none
  else if H.scan.ignores path then
    .skipped
  else
    match disk.lookup (H.follow link) with
    | none => .skipped
    | some (.file file) =>
        if H.scan.fileCheckFails link then
          .skipped
        else if H.scan.mtimeFails link then
          .failed (some (pathString link))
        else
          .file (inspectTarget H store link file)
    | some .dir =>
        if H.scan.dirCheckFails link then
          .skipped
        else
          .dir path

/- The visits before the error limit stops the walk. -/
def untilLimit : ℕ → List Visit → List Visit
| _, [] => []
| errorCount, visit :: rest =>
    if errorCount ≥ maxErrorCount then
      []
    else if visit.found.isFailed then
      visit :: untilLimit (errorCount + 1) rest
    else
      visit :: untilLimit errorCount rest

def visitEntry
    (H : Host)
    (store : AList (fun _ : String => FileMetadata))
    (entry : Entry) : Visit :=
  ⟨pathString entry.1, inspect H store entry⟩

def visitLink
    (H : Host)
    (disk : Disk)
    (store : AList (fun _ : String => FileMetadata))
    (link : Loc) : Visit :=
  ⟨pathString link, inspectLink H disk store link⟩

/- The links below the root that the walk comes upon. -/
def walkLinks
    (H : Host)
    (disk : Disk)
    (links : List Loc) : List Loc :=
  links.filter (fun link =>
    H.root <+: link && link != H.root &&
      !pruned H disk link)

def visits
    (H : Host)
    (links : List Loc)
    (s : LocalState) : List Visit :=
  untilLimit 0
    ((walkEntries H s.disk).map (visitEntry H s.fileStore) ++
      (walkLinks H s.disk links).map
        (visitLink H s.disk s.fileStore))

------------------------------------------------------------
-- The Scan
------------------------------------------------------------

/- A file whose digest should have been computed and was not. -/
def unhashed
    (H : Host)
    (disk : Disk)
    (pending : PendingFile) : Bool :=
  pending.needCalc && finalHash H disk pending == ""

/- The new maps, rows and retry list from what was visited. -/
def recordVisits
    (H : Host)
    (visits : List Visit)
    (s : LocalState) : LocalState :=
  let found := visits.map Visit.found
  let hashed := (found.filterMap Inspection.file?).filter
    (fun pending => finalHash H s.disk pending != "")
  let files := (hashed.map (pendingInfo H s.disk)).foldl
    insertInfo ∅
  let retry := found.filterMap Inspection.retry? ++
    (visits.filter (fun visit =>
      visit.found.file?.any (unhashed H s.disk))).map
      Visit.path
  { s with
    fileMap := files
    dirMap := (found.filterMap Inspection.dir?).dedup
    fileStore := (hashed.foldl (storeInfo H s.disk)
      s.fileStore).filterKeys
        (fun path => files.keys.contains path)
    pendingChanges :=
      s.pendingChanges ++
        retry.filter
          (fun path => !s.pendingChanges.contains path) }

/- `scan_directory`, where the given places are links. -/
def scanLinked
    (H : Host)
    (links : List Loc)
    (s : LocalState) : LocalState :=
  if H.scan.walkFails then
    s
  else
    recordVisits H (visits H links s) s

section Linkless

variable
  (H : Host)
  (s : LocalState)

theorem untilLimit_map
    (store : AList (fun _ : String => FileMetadata))
    (errorCount : ℕ)
    (entries : List Entry) :
    untilLimit errorCount
        (entries.map (visitEntry H store)) =
      (reached H store errorCount entries).map
        (visitEntry H store) := by
  induction entries generalizing errorCount with
  | nil => rfl
  | cons entry entries ih =>
      rw [List.map_cons, untilLimit, reached]
      simp only [visitEntry, ih]
      split
      · rfl
      · split <;> rfl

theorem found_visits_nil :
    (visits H [] s).map Visit.found = walked H s := by
  simp [visits, walkLinks, untilLimit_map, walked,
    visitEntry, Function.comp_def]

/- A found file lies where its entry does. -/
theorem loc_of_inspect
    {store : AList (fun _ : String => FileMetadata)}
    {entry : Entry}
    {pending : PendingFile}
    (hFile : (inspect H store entry).file? = some pending) :
    pending.loc = entry.1 := by
  unfold inspect at hFile
  dsimp only at hFile
  split at hFile
  · cases hFile
  · split at hFile
    · cases hFile
    · split at hFile
      · cases hFile
      · split at hFile
        · split at hFile
          · cases hFile
          · split at hFile
            · cases hFile
            · cases hFile
              rfl
        · split at hFile <;> cases hFile

/- The entries without a digest, by their own paths. -/
theorem unhashed_paths
    (store : AList (fun _ : String => FileMetadata))
    (disk : Disk)
    (entries : List Entry) :
    (((entries.map (inspect H store)).filterMap
        Inspection.file?).filter (unhashed H disk)).map
        (fun pending => pathString pending.loc) =
      ((entries.map (visitEntry H store)).filter
        (fun visit =>
          visit.found.file?.any (unhashed H disk))).map
        Visit.path := by
  induction entries with
  | nil => rfl
  | cons entry entries ih =>
      simp only [List.map_cons, visitEntry,
        List.filter_cons] at ih ⊢
      cases hFile : (inspect H store entry).file? with
      | none => simpa [List.filterMap_cons, hFile] using ih
      | some pending =>
          have hLoc := loc_of_inspect H hFile
          cases hHash : unhashed H disk pending with
          | false =>
              simpa [List.filterMap_cons, hFile, hHash]
                using ih
          | true =>
              simpa [List.filterMap_cons, hFile, hHash, hLoc]
                using ih

/- Without links it is the scan of the tree alone. -/
theorem scanLinked_nil :
    scanLinked H [] s = scanDirectory H s := by
  have hRetry := unhashed_paths H s.fileStore s.disk
    (reached H s.fileStore 0 (walkEntries H s.disk))
  have hVisits : visits H [] s =
      (reached H s.fileStore 0 (walkEntries H s.disk)).map
        (visitEntry H s.fileStore) := by
    simp [visits, walkLinks, untilLimit_map]
  unfold scanLinked scanDirectory
  split
  · rfl
  · unfold recordVisits retryList newFileStore newFileMap
      hashedFiles
    rw [found_visits_nil, hVisits, ← hRetry]
    rfl

end Linkless

------------------------------------------------------------
-- Any Scan
------------------------------------------------------------

/-
  A way to scan: it rebuilds what the node remembers, and
  leaves its disk and its downloads alone.
-/
structure Scan where
  run : LocalState → LocalState
  disk : ∀ s, (run s).disk = s.disk
  actions : ∀ s, (run s).actions = s.actions
  receiving : ∀ s, (run s).receiving = s.receiving

namespace Scan

/- The scan of a tree without links. -/
def plain (H : Host) : Scan where
  run := scanDirectory H
  disk := scanDirectory_disk H
  actions := scanDirectory_actions H
  receiving := scanDirectory_receiving H

theorem scanLinked_cases
    (H : Host)
    (links : List Loc)
    (s : LocalState) :
    scanLinked H links s = s ∨
      scanLinked H links s =
        recordVisits H (visits H links s) s := by
  unfold scanLinked
  split
  · exact Or.inl rfl
  · exact Or.inr rfl

/- The scan of a tree with the given links. -/
def linked
    (H : Host)
    (links : List Loc) : Scan where
  run := scanLinked H links
  disk s := by
    rcases scanLinked_cases H links s with hSame | hNew
    · rw [hSame]
    · rw [hNew]
      rfl
  actions s := by
    rcases scanLinked_cases H links s with hSame | hNew
    · rw [hSame]
    · rw [hNew]
      rfl
  receiving s := by
    rcases scanLinked_cases H links s with hSame | hNew
    · rw [hSame]
    · rw [hNew]
      rfl

theorem linked_nil (H : Host) : linked H [] = plain H := by
  have hRun : scanLinked H [] = scanDirectory H :=
    funext (scanLinked_nil H)
  simp [linked, plain, hRun]

end Scan

end StateManager

end VeritasSync
