import VeritasSync.Storage.StateManager

/-
  How a round of local changes is committed: what becomes of
  the maps, and which changes are reported.

  Main declarations:
    * `StateManager.Committed`
    * `StateManager.commitChanges`
    * `StateManager.mem_fileMap_commitChanges_iff`
    * `StateManager.row_cases_commitChanges`
    * `StateManager.marked_commitChanges_iff`
    * `StateManager.mem_fileUpdates_commitChanges`
-/

namespace VeritasSync

namespace StateManager

/- What the callbacks of one round are called with. -/
structure Committed where
  fileUpdates : List FileInfo
  fileDeletes : List String
  dirCreates : List String
  dirDeletes : List String
deriving DecidableEq, Repr

namespace Committed

def empty : Committed := ⟨[], [], [], []⟩

end Committed

/- A file that was received is no local change. -/
def checkAndClearEcho
    (path hash : String)
    (s : LocalState) : Bool × LocalState :=
  if s.receivedFiles.lookup path = some hash then
    (true,
      { s with receivedFiles := s.receivedFiles.erase path })
  else
    (false, s)

def commitFile
    (acc : Committed × LocalState)
    (info : FileInfo) : Committed × LocalState :=
  let s := { acc.2 with
    fileMap := acc.2.fileMap.insert info.path info }
  match checkAndClearEcho info.path info.hash s with
  | (true, s) => (acc.1, s)
  | (false, s) =>
      ({ acc.1 with
        fileUpdates := acc.1.fileUpdates ++ [info] }, s)

def commitDir
    (acc : Committed × LocalState)
    (path : String) : Committed × LocalState :=
  if path ∈ acc.2.dirMap then
    acc
  else
    ({ acc.1 with dirCreates := acc.1.dirCreates ++ [path] },
      addDirToMap path acc.2)

/- A path that is in neither map is nothing to report. -/
def commitDelete
    (acc : Committed × LocalState)
    (path : String) : Committed × LocalState :=
  if (acc.2.fileMap.lookup path).isSome then
    ({ acc.1 with
        fileDeletes := acc.1.fileDeletes ++ [path] },
      { acc.2 with fileMap := acc.2.fileMap.erase path })
  else if path ∈ acc.2.dirMap then
    ({ acc.1 with dirDeletes := acc.1.dirDeletes ++ [path] },
      removeDirFromMap path acc.2)
  else
    acc

/- One row; the time stamp is stored as a signed number. -/
def insertRow
    (store : AList (fun _ : String => FileMetadata))
    (info : FileInfo) :
    AList (fun _ : String => FileMetadata) :=
  store.insert info.path
    ⟨info.hash, (info.modifiedTime : Int).bmod (2 ^ 64)⟩

/- The rows of the table `files` after a round. -/
def commitRows
    (fileUpdateResults : List FileInfo)
    (fileDeletes : List String)
    (store : AList (fun _ : String => FileMetadata)) :
    AList (fun _ : String => FileMetadata) :=
  fileDeletes.foldl (fun store path => store.erase path)
    (fileUpdateResults.foldl insertRow store)

/- What failed is looked at again in a later round. -/
def commitChanges
    (fileUpdateResults : List FileInfo)
    (deleteCheckResults dirCreateResults
      failedChanges : List String)
    (s : LocalState) : Committed × LocalState :=
  let files :=
    fileUpdateResults.foldl commitFile (.empty, s)
  let dirs := dirCreateResults.foldl commitDir files
  let all := deleteCheckResults.foldl commitDelete dirs
  (all.1,
    { all.2 with
      fileStore := commitRows fileUpdateResults
        all.1.fileDeletes all.2.fileStore
      pendingChanges :=
        all.2.pendingChanges ++
          failedChanges.filter (fun path =>
            !all.2.pendingChanges.contains path) })

------------------------------------------------------------
-- What A Commit Leaves Alone
------------------------------------------------------------

section Frame

variable
  (acc : Committed × LocalState)

/- Either the change is an echo, or it is reported. -/
theorem commitFile_cases (info : FileInfo) :
    (acc.2.receivedFiles.lookup info.path = some info.hash ∧
      commitFile acc info =
        (acc.1, { acc.2 with
          fileMap := acc.2.fileMap.insert info.path info
          receivedFiles :=
            acc.2.receivedFiles.erase info.path })) ∨
    (acc.2.receivedFiles.lookup info.path ≠
        some info.hash ∧
      commitFile acc info =
        ({ acc.1 with
            fileUpdates := acc.1.fileUpdates ++ [info] },
          { acc.2 with
            fileMap :=
              acc.2.fileMap.insert info.path info })) := by
  unfold commitFile checkAndClearEcho
  dsimp only
  by_cases hEcho : acc.2.receivedFiles.lookup info.path =
      some info.hash
  · rw [if_pos hEcho]
    exact Or.inl ⟨hEcho, rfl⟩
  · rw [if_neg hEcho]
    exact Or.inr ⟨hEcho, rfl⟩

/- The two nodes differ at most in maps and echo marks. -/
def MapsOnly (s s' : LocalState) : Prop :=
  ∃ fileMap dirMap receivedFiles,
    s' = { s with
      fileMap := fileMap
      dirMap := dirMap
      receivedFiles := receivedFiles }

theorem MapsOnly.trans
    {s s' s'' : LocalState}
    (hFirst : MapsOnly s s')
    (hSecond : MapsOnly s' s'') :
    MapsOnly s s'' := by
  rcases hFirst with ⟨_, _, _, rfl⟩
  rcases hSecond with ⟨_, _, _, rfl⟩
  exact ⟨_, _, _, rfl⟩

theorem mapsOnly_commitFile (info : FileInfo) :
    MapsOnly acc.2 (commitFile acc info).2 := by
  rcases commitFile_cases acc info with ⟨-, hEq⟩ | ⟨-, hEq⟩
  · rw [hEq]
    exact ⟨_, _, _, rfl⟩
  · rw [hEq]
    exact ⟨_, _, _, rfl⟩

theorem mapsOnly_commitDir (path : String) :
    MapsOnly acc.2 (commitDir acc path).2 := by
  unfold commitDir
  split
  · exact ⟨_, _, _, rfl⟩
  · exact ⟨_, _, _, rfl⟩

theorem mapsOnly_commitDelete (path : String) :
    MapsOnly acc.2 (commitDelete acc path).2 := by
  unfold commitDelete
  split
  · exact ⟨_, _, _, rfl⟩
  · split
    · exact ⟨_, _, _, rfl⟩
    · exact ⟨_, _, _, rfl⟩

/- A loop changes what its steps change. -/
theorem MapsOnly.foldl
    {α : Type}
    {step : Committed × LocalState → α →
      Committed × LocalState}
    (hStep : ∀ acc item, MapsOnly acc.2 (step acc item).2)
    (items : List α) :
    MapsOnly acc.2 (items.foldl step acc).2 := by
  induction items generalizing acc with
  | nil => exact ⟨_, _, _, rfl⟩
  | cons item rest ih => exact (hStep acc item).trans (ih _)

/- The three loops of a commit, before the rows. -/
theorem mapsOnly_commitLoops
    (results : List FileInfo)
    (deletes dirs : List String) :
    MapsOnly acc.2 (deletes.foldl commitDelete
      (dirs.foldl commitDir
        (results.foldl commitFile acc))).2 :=
  ((MapsOnly.foldl acc mapsOnly_commitFile results).trans
    (MapsOnly.foldl _ mapsOnly_commitDir dirs)).trans
      (MapsOnly.foldl _ mapsOnly_commitDelete deletes)

end Frame

section Whole

variable
  (results : List FileInfo)
  (deletes dirs failed : List String)
  (s : LocalState)

/- Committing does not make a source a destination. -/
theorem role_commitChanges :
    (commitChanges results deletes dirs failed s).2.role =
      s.role := by
  rcases mapsOnly_commitLoops (.empty, s) results deletes
    dirs with ⟨_, _, _, hEq⟩
  unfold commitChanges
  dsimp only
  rw [hEq]

theorem disk_commitChanges :
    (commitChanges results deletes dirs failed s).2.disk =
      s.disk := by
  rcases mapsOnly_commitLoops (.empty, s) results deletes
    dirs with ⟨_, _, _, hEq⟩
  unfold commitChanges
  dsimp only
  rw [hEq]

end Whole

------------------------------------------------------------
-- What A Commit Tracks
------------------------------------------------------------

section Tracked

variable
  {path : String}
  {acc : Committed × LocalState}

theorem fileMap_commitFile
    (info : FileInfo) :
    (commitFile acc info).2.fileMap =
      acc.2.fileMap.insert info.path info := by
  rcases commitFile_cases acc info with ⟨-, hEq⟩ | ⟨-, hEq⟩
  · rw [hEq]
  · rw [hEq]

theorem fileMap_foldl_commitDir
    (dirs : List String) :
    (dirs.foldl commitDir acc).2.fileMap =
      acc.2.fileMap := by
  induction dirs generalizing acc with
  | nil => rfl
  | cons dir dirs ih =>
      rw [List.foldl_cons, ih]
      unfold commitDir
      split <;> rfl

theorem mem_fileMap_commitDelete_iff
    {deleted : String} :
    path ∈ (commitDelete acc deleted).2.fileMap ↔
      path ∈ acc.2.fileMap ∧ path ≠ deleted := by
  unfold commitDelete
  split
  next => rw [AList.mem_erase, and_comm]
  next hAbsent =>
    have hSame : path ∈ acc.2.fileMap → path ≠ deleted := by
      intro hMem hEq
      rw [hEq] at hMem
      exact hAbsent (AList.lookup_isSome.mpr hMem)
    split
    · exact ⟨fun hMem => ⟨hMem, hSame hMem⟩, And.left⟩
    · exact ⟨fun hMem => ⟨hMem, hSame hMem⟩, And.left⟩

theorem mem_fileMap_foldl_commitFile_iff
    (results : List FileInfo) :
    path ∈ (results.foldl commitFile acc).2.fileMap ↔
      path ∈ acc.2.fileMap ∨
        path ∈ results.map FileInfo.path := by
  induction results generalizing acc with
  | nil => simp
  | cons info results ih =>
      rw [List.foldl_cons, ih, fileMap_commitFile,
        AList.mem_insert, List.map_cons, List.mem_cons,
        or_assoc, or_left_comm]

theorem mem_fileMap_foldl_commitDelete_iff
    (deletes : List String) :
    path ∈ (deletes.foldl commitDelete acc).2.fileMap ↔
      path ∈ acc.2.fileMap ∧ path ∉ deletes := by
  induction deletes generalizing acc with
  | nil => simp
  | cons deleted deletes ih =>
      rw [List.foldl_cons, ih, mem_fileMap_commitDelete_iff,
        List.mem_cons, not_or, and_assoc]

/- The files of a round are tracked, unless deleted. -/
theorem mem_fileMap_commitChanges_iff
    {results : List FileInfo}
    {deletes dirs failed : List String}
    {s : LocalState} :
    path ∈ (commitChanges results deletes dirs failed
        s).2.fileMap ↔
      (path ∈ s.fileMap ∨
        path ∈ results.map FileInfo.path) ∧
      path ∉ deletes := by
  unfold commitChanges
  dsimp only
  rw [mem_fileMap_foldl_commitDelete_iff,
    fileMap_foldl_commitDir,
    mem_fileMap_foldl_commitFile_iff]

end Tracked

------------------------------------------------------------
-- What A Commit Stores
------------------------------------------------------------

section Stored

variable
  {results : List FileInfo}
  {store : AList (fun _ : String => FileMetadata)}
  {path : String}
  {row : FileMetadata}

theorem row_cases_foldl_insertRow
    (hRow : (results.foldl insertRow store).lookup path =
      some row) :
    store.lookup path = some row ∨
      ∃ info ∈ results, info.path = path ∧
        info.hash = row.hash := by
  induction results generalizing store with
  | nil => exact Or.inl hRow
  | cons info results ih =>
      rcases ih hRow with hFirst | ⟨later, hLater, hOwn⟩
      · unfold insertRow at hFirst
        by_cases hSame : path = info.path
        · rw [hSame, AList.lookup_insert] at hFirst
          right
          refine ⟨info, List.mem_cons_self, hSame.symm, ?_⟩
          rw [← Option.some.inj hFirst]
        · rw [AList.lookup_insert_ne hSame] at hFirst
          exact Or.inl hFirst
      · exact Or.inr
          ⟨later, List.mem_cons_of_mem _ hLater, hOwn⟩

/- A row is an old one, or it is of a file of the round. -/
theorem row_cases_commitChanges
    {deletes dirs failed : List String}
    {s : LocalState}
    (hRow : (commitChanges results deletes dirs failed
      s).2.fileStore.lookup path = some row) :
    s.fileStore.lookup path = some row ∨
      ∃ info ∈ results, info.path = path ∧
        info.hash = row.hash := by
  rcases mapsOnly_commitLoops (.empty, s) results deletes
    dirs with ⟨_, _, _, hEq⟩
  unfold commitChanges at hRow
  dsimp only at hRow
  rw [hEq] at hRow
  apply row_cases_foldl_insertRow
  rw [commitRows, AList.lookup_foldl_erase] at hRow
  split at hRow
  next => cases hRow
  next => exact hRow

end Stored

/- Every row of the table has a digest. -/
def RowsHashed
    (store : AList (fun _ : String => FileMetadata)) :
    Prop :=
  ∀ path row, store.lookup path = some row → row.hash ≠ ""

theorem RowsHashed.commitChanges
    {results : List FileInfo}
    {deletes dirs failed : List String}
    {s : LocalState}
    (hStore : RowsHashed s.fileStore)
    (hHashed : ∀ info ∈ results, info.hash ≠ "") :
    RowsHashed (StateManager.commitChanges results deletes
      dirs failed s).2.fileStore := by
  intro path row hRow
  rcases row_cases_commitChanges hRow with
    hOld | ⟨info, hInfo, -, hHash⟩
  · exact hStore path row hOld
  · rw [← hHash]
    exact hHashed info hInfo

------------------------------------------------------------
-- What A Commit Withholds
------------------------------------------------------------

/- The digest is marked as received for the path. -/
def Marked
    (s : LocalState)
    (path hash : String) : Prop :=
  s.receivedFiles.lookup path = some hash

section Withheld

variable
  {acc : Committed × LocalState}
  {info : FileInfo}
  {path hash : String}

/- A change that is committed uses up the mark for it. -/
theorem marked_commitFile_iff :
    Marked (commitFile acc info).2 path hash ↔
      Marked acc.2 path hash ∧
        ¬ (info.path = path ∧ info.hash = hash) := by
  unfold Marked
  rcases commitFile_cases acc info with
    ⟨hEcho, hEq⟩ | ⟨hNoEcho, hEq⟩
  · rw [hEq]
    by_cases hPath : path = info.path
    · rw [hPath, AList.lookup_erase, hEcho]
      simp
    · rw [AList.lookup_erase_ne hPath]
      simp [Ne.symm hPath]
  · rw [hEq]
    constructor
    · intro hMark
      refine ⟨hMark, ?_⟩
      rintro ⟨rfl, rfl⟩
      exact hNoEcho hMark
    · exact And.left

theorem marked_foldl_commitFile_iff
    (results : List FileInfo) :
    Marked (results.foldl commitFile acc).2 path hash ↔
      Marked acc.2 path hash ∧
        ∀ info ∈ results,
          ¬ (info.path = path ∧ info.hash = hash) := by
  induction results generalizing acc with
  | nil => simp
  | cons first results ih =>
      rw [List.foldl_cons, ih, marked_commitFile_iff,
        and_assoc, List.forall_mem_cons]

/- What is in the list of updates stays in it. -/
theorem mem_fileUpdates_foldl_of_mem
    (results : List FileInfo)
    (hMem : info ∈ acc.1.fileUpdates) :
    info ∈ (results.foldl commitFile acc).1.fileUpdates := by
  induction results generalizing acc with
  | nil => exact hMem
  | cons first results ih =>
      apply ih
      rcases commitFile_cases acc first with
        ⟨-, hEq⟩ | ⟨-, hEq⟩
      · rw [hEq]
        exact hMem
      · rw [hEq]
        exact List.mem_append_left _ hMem

theorem mem_fileUpdates_foldl_commitFile
    {results : List FileInfo}
    (hInfo : info ∈ results)
    (hNotMarked : ¬ Marked acc.2 info.path info.hash) :
    info ∈ (results.foldl commitFile acc).1.fileUpdates := by
  induction results generalizing acc with
  | nil => cases hInfo
  | cons first results ih =>
      rw [List.foldl_cons]
      rcases List.mem_cons.mp hInfo with hFirst | hRest
      · apply mem_fileUpdates_foldl_of_mem
        rw [hFirst] at hNotMarked ⊢
        rcases commitFile_cases acc first with
          ⟨hEcho, -⟩ | ⟨-, hEq⟩
        · exact absurd hEcho hNotMarked
        · rw [hEq]
          exact List.mem_append_right _ List.mem_cons_self
      · apply ih hRest
        rw [marked_commitFile_iff]
        exact fun hMarked => hNotMarked hMarked.1

/- The loops over directories and deletions report none. -/
def KeepsEchoes
    (acc acc' : Committed × LocalState) : Prop :=
  acc'.1.fileUpdates = acc.1.fileUpdates ∧
    acc'.2.receivedFiles = acc.2.receivedFiles

theorem KeepsEchoes.foldl
    {step : Committed × LocalState → String →
      Committed × LocalState}
    (hStep : ∀ acc item, KeepsEchoes acc (step acc item))
    (items : List String) :
    KeepsEchoes acc (items.foldl step acc) := by
  induction items generalizing acc with
  | nil => exact ⟨rfl, rfl⟩
  | cons item rest ih =>
      have hFirst := hStep acc item
      have hRest : KeepsEchoes (step acc item)
          (rest.foldl step (step acc item)) := ih
      exact ⟨hRest.1.trans hFirst.1, hRest.2.trans hFirst.2⟩

theorem keepsEchoes_commitDir
    (acc : Committed × LocalState)
    (dir : String) :
    KeepsEchoes acc (commitDir acc dir) := by
  unfold commitDir
  split <;> exact ⟨rfl, rfl⟩

theorem keepsEchoes_commitDelete
    (acc : Committed × LocalState)
    (deleted : String) :
    KeepsEchoes acc (commitDelete acc deleted) := by
  unfold commitDelete
  split
  · exact ⟨rfl, rfl⟩
  · split <;> exact ⟨rfl, rfl⟩

theorem keepsEchoes_commitChanges
    (results : List FileInfo)
    (deletes dirs failed : List String)
    (s : LocalState) :
    KeepsEchoes (results.foldl commitFile (.empty, s))
      (commitChanges results deletes dirs failed s) := by
  let files := results.foldl commitFile (.empty, s)
  have hDirs : KeepsEchoes files
      (dirs.foldl commitDir files) :=
    .foldl keepsEchoes_commitDir dirs
  have hDeletes : KeepsEchoes (dirs.foldl commitDir files)
      (deletes.foldl commitDelete
        (dirs.foldl commitDir files)) :=
    .foldl keepsEchoes_commitDelete deletes
  exact ⟨hDeletes.1.trans hDirs.1, hDeletes.2.trans hDirs.2⟩

variable
  {results : List FileInfo}
  {deletes dirs failed : List String}
  {s : LocalState}

theorem marked_commitChanges_iff :
    Marked (commitChanges results deletes dirs failed s).2
        path hash ↔
      Marked s path hash ∧
        ∀ info ∈ results,
          ¬ (info.path = path ∧ info.hash = hash) := by
  have hKeeps := keepsEchoes_commitChanges results deletes
    dirs failed s
  have hFiles : Marked
      (results.foldl commitFile (.empty, s)).2 path hash ↔
        Marked s path hash ∧ ∀ info ∈ results,
          ¬ (info.path = path ∧ info.hash = hash) :=
    marked_foldl_commitFile_iff results
  rw [← hFiles]
  unfold Marked
  rw [hKeeps.2]

/- A change whose digest is not marked is reported. -/
theorem mem_fileUpdates_commitChanges
    (hInfo : info ∈ results)
    (hNotMarked : ¬ Marked s info.path info.hash) :
    info ∈ (commitChanges results deletes dirs failed
      s).1.fileUpdates := by
  have hKeeps := keepsEchoes_commitChanges results deletes
    dirs failed s
  rw [hKeeps.1]
  exact mem_fileUpdates_foldl_commitFile hInfo hNotMarked

end Withheld

end StateManager

end VeritasSync
