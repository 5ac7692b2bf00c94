import VeritasSync.P2p.BroadcastManager
import VeritasSync.Storage.CacheCoherence
import VeritasSync.Storage.ScanAgreement

/-
  What a full scan leaves in the file map, and in the cached
  `files` table once its rows have been written in windows
  and those without a file have been removed.

  Main declarations:
    * `CachedFileStore.guarded`, `CachedFileStore.run_guarded`
    * `ScanSnapshot.run_windowEvents`
    * `ScanSnapshot.run_cleanupEvents`
    * `ScanSnapshot.scan_snapshot_exact`
-/

namespace VeritasSync

------------------------------------------------------------
-- Writes in a Transaction
------------------------------------------------------------

namespace CachedFileStore

open FileWrite Transition

/- One write: the database first, then the cache. -/
def writeEvents
    (thread : ℕ)
    (w : FileWrite) : List Event :=
  [.writeDb thread w true, .writeCache thread]

/- Writes in a transaction of their own, none of which fails. -/
def guarded
    (thread : ℕ)
    (writes : List FileWrite) : List Event :=
  .beginGuard thread true ::
    writes.flatMap (writeEvents thread) ++
      [.commitDb thread true, .commitCache thread,
        .dropGuard thread]

section Guarded

variable
  (thread : ℕ)
  (table : FileTable)

/- The transaction is under way, with these writes so far. -/
def inGuard (writes : List FileWrite) : CachedFileStore where
  db := ⟨applyAll table writes, some table, some thread⟩
  cache := table
  threads := Function.update (start table).threads thread
    ⟨[⟨writes, false, false⟩], true, .idle⟩

theorem admits_inGuard (writes : List FileWrite) :
    (inGuard thread table writes).db.admits thread =
      true := by
  simp [inGuard, Database.admits]

theorem threads_inGuard (writes : List FileWrite) :
    (inGuard thread table writes).threads thread =
      ⟨[⟨writes, false, false⟩], true, .idle⟩ :=
  Function.update_self ..

theorem step_beginGuard_start :
    step (start table) (.beginGuard thread true) =
      some (inGuard thread table []) := by
  simp [step, start, StoreThread.start, Database.admits,
    beginGuard, withThread, Database.beginTransaction,
    inGuard, applyAll]

/- One more write in the transaction. -/
theorem run_writeEvents
    (writes : List FileWrite)
    (w : FileWrite) :
    run step (inGuard thread table writes)
        (writeEvents thread w) =
      some (inGuard thread table (writes ++ [w])) := by
  have hWritten : step (inGuard thread table writes)
      (.writeDb thread w true) =
        some ((inGuard thread table writes).writeDb thread w
          true) := by
    simp only [step, admits_inGuard, threads_inGuard,
      and_self, if_true]
  have hPhase : (((inGuard thread table writes).writeDb
      thread w true).threads thread) =
        ⟨[⟨writes, false, false⟩], true, .writing w⟩ := by
    simp only [writeDb, if_true]
    rw [threads_withThread_self, threads_inGuard]
  rw [writeEvents, run, hWritten, Option.bind_some, run,
    step, hPhase]
  simp only [writeCache, hPhase, run, Option.bind_some,
    Option.some.injEq]
  simp [writeDb, withThread, inGuard, Database.write,
    applyAll_append]

theorem run_flatMap_writeEvents
    (writes later : List FileWrite)
    (events : List Event) :
    run step (inGuard thread table writes)
        (later.flatMap (writeEvents thread) ++ events) =
      run step (inGuard thread table (writes ++ later))
        events := by
  induction later generalizing writes with
  | nil => simp
  | cons w later ih =>
      rw [List.flatMap_cons, List.append_assoc, run_append,
        run_writeEvents, Option.bind_some, ih]
      simp

/- The commit brings all writes to the cache. -/
theorem run_commit (writes : List FileWrite) :
    run step (inGuard thread table writes)
        [.commitDb thread true, .commitCache thread,
          .dropGuard thread] =
      some (start (applyAll table writes)) := by
  simp only [run, step, commitDb, inGuard,
    Database.commitTransaction?, Option.isSome_some,
    and_self, if_true, commitCache, dropGuard]
  simp [withThread, start, StoreThread.start]

/- A transaction on its own does its writes to both. -/
theorem run_guarded (writes : List FileWrite) :
    run step (start table) (guarded thread writes) =
      some (start (applyAll table writes)) := by
  rw [guarded, List.cons_append, run, step_beginGuard_start,
    Option.bind_some, run_flatMap_writeEvents,
    List.nil_append, run_commit]

end Guarded

end CachedFileStore

namespace ScanSnapshot

open CachedFileStore FileWrite ScanAgreement StateManager
open Transition

------------------------------------------------------------
-- What a Scan Writes
------------------------------------------------------------

section Writes

variable
  (H : Host)
  (s : LocalState)

def dbBatchWriteSize : ℕ := 500

/- The rows of the files that were hashed anew. -/
def dirtyWrites : List FileWrite :=
  ((hashedFiles H s).filter PendingFile.isDirty).map
    (fun pending => ⟨pending.relPathStr,
      some ⟨finalHash H s.disk pending,
        pending.modifiedTime⟩⟩)

/- The rows of files that the scan has not found. -/
def zombieWrites (dbPaths : List String) : List FileWrite :=
  (dbPaths.filter (fun path =>
    !(newFileMap H s).keys.contains path)).map
      (fun path => ⟨path, none⟩)

/- The hashed files are written in windows. -/
def windowEvents (thread : ℕ) : List Event :=
  (BroadcastManager.batches dbBatchWriteSize
    (dirtyWrites H s)).flatMap (guarded thread)

/- Then the rows without a file go, if there are any. -/
def cleanupEvents
    (thread : ℕ)
    (dbPaths : List String) : List Event :=
  if zombieWrites H s dbPaths = [] then
    []
  else
    guarded thread (zombieWrites H s dbPaths)

end Writes

/- The table of the rows that a node knows. -/
def tableOf
    (rows : AList (fun _ : String => FileMetadata)) :
    FileTable :=
  fun path => rows.lookup path

section Runs

variable
  {H : Host}
  {s : LocalState}

/- Windows of writes do what the writes do. -/
theorem run_flatMap_guarded
    (thread : ℕ)
    (windows : List (List FileWrite))
    (table : FileTable) :
    run step (start table)
        (windows.flatMap (guarded thread)) =
      some (start (applyAll table windows.flatten)) := by
  induction windows generalizing table with
  | nil => rfl
  | cons writes windows ih =>
      rw [List.flatMap_cons, run_append, run_guarded,
        Option.bind_some, ih, List.flatten_cons, applyAll,
        applyAll, applyAll, List.foldl_append]

/- Removals leave the rows that they do not name. -/
theorem applyAll_removals
    (table : FileTable)
    (paths : List String)
    (path : String) :
    applyAll table (paths.map (fun path => ⟨path, none⟩))
        path =
      if path ∈ paths then none else table path := by
  induction paths generalizing table with
  | nil => rfl
  | cons first paths ih =>
      rw [List.map_cons, applyAll, List.foldl_cons]
      refine (ih _).trans ?_
      by_cases hFirst : path = first
      · subst hFirst
        simp [apply]
      · simp [apply, hFirst]

theorem applyAll_zombieWrites
    {table : FileTable}
    {dbPaths : List String}
    (hPaths : ∀ path, path ∈ dbPaths ↔ table path ≠ none)
    (path : String) :
    applyAll table (zombieWrites H s dbPaths) path =
      if (newFileMap H s).keys.contains path then
        table path
      else
        none := by
  rw [zombieWrites, applyAll_removals]
  simp only [List.mem_filter, hPaths]
  cases hFound : (newFileMap H s).keys.contains path with
  | true => simp
  | false =>
      cases hRow : table path with
      | none => simp
      | some row => simp

/- The rows of the cache are those of the node's table. -/
theorem applyAll_dirtyWrites
    (rows : AList (fun _ : String => FileMetadata))
    (pendings : List PendingFile) :
    applyAll (tableOf rows)
        ((pendings.filter PendingFile.isDirty).map
          (fun pending => ⟨pending.relPathStr,
            some ⟨finalHash H s.disk pending,
              pending.modifiedTime⟩⟩)) =
      tableOf (pendings.foldl (storeInfo H s.disk) rows) := by
  induction pendings generalizing rows with
  | nil => rfl
  | cons pending pendings ih =>
      rw [List.foldl_cons, storeInfo, List.filter_cons]
      split
      next hDirty =>
        rw [← ih, List.map_cons, applyAll, List.foldl_cons]
        congr 1
        funext path
        rw [apply, tableOf, Function.update_apply]
        split
        next hSame => rw [hSame, AList.lookup_insert]
        next hOther =>
          exact (AList.lookup_insert_ne hOther).symm
      next => exact ih rows

/- The store once all windows have been written. -/
theorem run_windowEvents
    (thread : ℕ) :
    run step (start (tableOf s.fileStore))
        (windowEvents H s thread) =
      some (start (tableOf ((hashedFiles H s).foldl
        (storeInfo H s.disk) s.fileStore))) := by
  rw [windowEvents, run_flatMap_guarded,
    BroadcastManager.flatten_batches (by decide), dirtyWrites,
    applyAll_dirtyWrites]

/- The rows that are left are those of the node. -/
theorem run_cleanupEvents
    (thread : ℕ)
    {dbPaths : List String}
    (hPaths : ∀ path, path ∈ dbPaths ↔
      tableOf ((hashedFiles H s).foldl (storeInfo H s.disk)
        s.fileStore) path ≠ none) :
    run step (start (tableOf ((hashedFiles H s).foldl
        (storeInfo H s.disk) s.fileStore)))
        (cleanupEvents H s thread dbPaths) =
      some (start (tableOf (newFileStore H s))) := by
  have hCleaned :
      applyAll (tableOf ((hashedFiles H s).foldl
          (storeInfo H s.disk) s.fileStore))
          (zombieWrites H s dbPaths) =
        tableOf (newFileStore H s) := by
    funext path
    rw [applyAll_zombieWrites hPaths]
    exact (AList.lookup_filterKeys ..).symm
  rw [cleanupEvents]
  split
  next hNone =>
    rw [hNone] at hCleaned
    rw [← hCleaned]
    rfl
  next => rw [run_guarded, hCleaned]

end Runs

------------------------------------------------------------
-- What a Scan Finds
------------------------------------------------------------

/-
  A regular file that is neither ignored nor below an
  ignored directory.
-/
def TracksAt
    (H : Host)
    (disk : Disk)
    (loc : Loc)
    (file : File) : Prop :=
  disk.lookup loc = some (.file file) ∧
    IsBelow H disk loc ∧ ¬ IsIgnored H disk loc ∧
      ¬ Hidden H disk loc

/- Such a file has this path. -/
def Tracks
    (H : Host)
    (disk : Disk)
    (path : String)
    (file : File) : Prop :=
  ∃ loc, H.relative loc = path ∧ TracksAt H disk loc file

/- A row with the time stamp of its file has its digest. -/
def Truthful
    (H : Host)
    (disk : Disk)
    (rows : AList (fun _ : String => FileMetadata)) : Prop :=
  ∀ path file row, Tracks H disk path file →
    rows.lookup path = some row →
      row.mtime = file.mtime →
        row.hash = H.digest.hash file.content

/- What the file map holds of a file. -/
def infoOf
    (H : Host)
    (path : String)
    (file : File) : FileInfo where
  path := path
  hash := H.digest.hash file.content
  modifiedTime := (file.mtime % 2 ^ 64).toNat
  size := file.content.length

/- What the `files` table holds of a file. -/
def rowOf
    (H : Host)
    (file : File) : FileMetadata :=
  ⟨H.digest.hash file.content, file.mtime⟩

section Found

variable
  {H : Host}
  {tree : Tree}
  {s : LocalState}
  {path : String}
  {loc : Loc}
  {file file' : File}

/- A path belongs to one file of the tree. -/
theorem tracks_unique
    (hTracks : Tracks H tree.disk path file)
    (hTracks' : Tracks H tree.disk path file') :
    file = file' := by
  rcases hTracks with ⟨loc, hPath, hFile, hBelow, -, -⟩
  rcases hTracks' with ⟨loc', hPath', hFile', hBelow', -, -⟩
  have hSame : loc = loc' :=
    eq_of_relative_eq hBelow hBelow' (hPath.trans hPath'.symm)
  rw [hSame, hFile'] at hFile
  cases hFile
  rfl

/- The digest of a tracked file, cached or hashed anew. -/
theorem finalHash_of_tracksAt
    (hTruthful : Truthful H s.disk s.fileStore)
    (hTracks : TracksAt H s.disk loc file) :
    finalHash (ruled H s.disk) s.disk
        (inspectFile (ruled H s.disk) s.fileStore loc file) =
      H.digest.hash file.content := by
  have hPayload : s.disk.payload? loc = some file :=
    (FileTree.payload?_eq_some_iff _ _ _).mpr hTracks.1
  unfold finalHash inspectFile
  dsimp only
  cases hCached : cachedMeta s.fileStore
      ((ruled H s.disk).relative loc) file.mtime with
  | none =>
      unfold scanHash
      rw [hPayload]
      rfl
  | some row =>
      rcases cachedMeta_eq_some_iff.mp hCached with
        ⟨hStored, hTime⟩
      exact hTruthful _ _ _ ⟨loc, rfl, hTracks⟩ hStored hTime

/- A file that need not be written has its row already. -/
theorem lookup_of_clean
    (hTruthful : Truthful H s.disk s.fileStore)
    (hTracks : TracksAt H s.disk loc file)
    (hClean : (inspectFile (ruled H s.disk) s.fileStore loc
      file).isDirty = false) :
    s.fileStore.lookup (H.relative loc) =
      some (rowOf H file) := by
  have hCached : cachedMeta s.fileStore (H.relative loc)
      file.mtime ≠ none := by
    intro hNone
    unfold inspectFile at hClean
    dsimp only at hClean
    rw [show cachedMeta s.fileStore ((ruled H
      s.disk).relative loc) file.mtime = none from hNone]
      at hClean
    cases hClean
  rcases Option.ne_none_iff_exists'.mp hCached with
    ⟨row, hRow⟩
  rcases cachedMeta_eq_some_iff.mp hRow with ⟨hStored, hTime⟩
  have hHash :=
    hTruthful _ _ _ ⟨loc, rfl, hTracks⟩ hStored hTime
  rw [hStored, rowOf, ← hHash, ← hTime]

theorem mem_walkEntries_ruled_iff :
    (loc, .file file) ∈ walkEntries (ruled H s.disk)
        s.disk ↔
      s.disk.lookup loc = some (.file file) ∧
        IsBelow H s.disk loc ∧ ¬ Hidden H s.disk loc := by
  rw [mem_walkEntries_iff, Bool.eq_false_iff]
  constructor
  · rintro ⟨hFile, hInside, hRoot, hSeen⟩
    refine ⟨hFile, ⟨hInside, hRoot, ?_⟩, fun hHidden =>
      hSeen (pruned_ruled_iff.mpr hHidden)⟩
    rw [hFile]
    exact Option.some_ne_none _
  · rintro ⟨hFile, ⟨hInside, hRoot, -⟩, hSeen⟩
    exact ⟨hFile, hInside, hRoot, fun hPruned =>
      hSeen (pruned_ruled_iff.mp hPruned)⟩

/- The hashed files are the tracked ones. -/
theorem mem_hashedFiles_iff
    (hDisk : s.disk = tree.disk)
    (hTruthful : Truthful H s.disk s.fileStore)
    {pending : PendingFile} :
    pending ∈ hashedFiles (ruled H s.disk) s ↔
      ∃ loc file, TracksAt H s.disk loc file ∧
        inspectFile (ruled H s.disk) s.fileStore loc file =
          pending := by
  rw [hashedFiles, List.mem_filter, List.mem_filterMap]
  constructor
  · rintro ⟨⟨inspection, hIn, hFound⟩, -⟩
    rcases List.mem_map.mp hIn with
      ⟨⟨loc, node⟩, hEntry, rfl⟩
    rcases file?_inspect_iff.mp hFound with
      ⟨file, rfl, hPending, -, -, hIgnores, -, -⟩
    have hWalk :=
      visits_ruled_iff.mp ((visits_iff _).mpr hEntry)
    rcases mem_walkEntries_ruled_iff.mp hWalk with
      ⟨hFile, hBelow, hSeen⟩
    exact ⟨loc, file, ⟨hFile, hBelow,
      Bool.eq_false_iff.mp hIgnores, hSeen⟩, hPending⟩
  · rintro ⟨loc, file, hTracks, rfl⟩
    have hHash := finalHash_of_tracksAt hTruthful hTracks
    rcases hTracks with ⟨hFile, hBelow, hKept, hSeen⟩
    have hWalk := mem_walkEntries_ruled_iff.mpr
      ⟨hFile, hBelow, hSeen⟩
    refine ⟨⟨_, List.mem_map_of_mem
      ((visits_iff _).mp (visits_ruled_iff.mpr hWalk)), ?_⟩,
      ?_⟩
    · rw [hDisk] at hBelow
      exact file?_inspect_iff.mpr ⟨file, rfl, rfl, rfl,
        relative_ne_empty hBelow,
        Bool.eq_false_iff.mpr hKept, rfl, rfl⟩
    · rw [hHash]
      simpa using H.digest.hash_ne_empty file.content

end Found

------------------------------------------------------------
-- The New Map and the New Rows
------------------------------------------------------------

/- An entry of the new map is one of those put in. -/
theorem mem_of_lookup_foldl_insertInfo
    (infos : List FileInfo)
    {files : AList (fun _ : String => FileInfo)}
    {path : String}
    {info : FileInfo}
    (hLookup : (infos.foldl insertInfo files).lookup path =
      some info) :
    info ∈ infos ∨ files.lookup path = some info := by
  induction infos generalizing files with
  | nil => exact Or.inr hLookup
  | cons first infos ih =>
      rcases ih hLookup with hLater | hEarlier
      · exact Or.inl (List.mem_cons_of_mem _ hLater)
      · unfold insertInfo at hEarlier
        by_cases hPath : path = first.path
        · rw [hPath, AList.lookup_insert] at hEarlier
          cases hEarlier
          exact Or.inl List.mem_cons_self
        · rw [AList.lookup_insert_ne hPath] at hEarlier
          exact Or.inr hEarlier

/-
  A file with this path either has the row already or is
  written with it.
-/
theorem lookup_foldl_storeInfo
    {H : Host}
    {disk : Disk}
    {path : String}
    {row : FileMetadata}
    (pendings : List PendingFile)
    {rows : AList (fun _ : String => FileMetadata)}
    (hRows : ∀ pending ∈ pendings, pending.relPathStr = path →
      if pending.isDirty then
        ⟨finalHash H disk pending, pending.modifiedTime⟩ = row
      else
        rows.lookup path = some row)
    (hSome : rows.lookup path = some row ∨
      ∃ pending ∈ pendings, pending.relPathStr = path) :
    (pendings.foldl (storeInfo H disk) rows).lookup path =
      some row := by
  induction pendings generalizing rows with
  | nil => simpa using hSome
  | cons pending pendings ih =>
      have hHead := hRows pending List.mem_cons_self
      have hTail := fun other hOther =>
        hRows other (List.mem_cons_of_mem _ hOther)
      rw [List.foldl_cons]
      -- the row once this file has been written
      have hNext : pending.relPathStr = path →
          (storeInfo H disk rows pending).lookup path =
            some row := by
        intro hPath
        have hRow := hHead hPath
        unfold storeInfo
        split
        next hDirty =>
          rw [if_pos hDirty] at hRow
          rw [hPath, AList.lookup_insert, hRow]
        next hClean => rwa [if_neg hClean] at hRow
      have hOther : pending.relPathStr ≠ path →
          (storeInfo H disk rows pending).lookup path =
            rows.lookup path := by
        intro hPath
        unfold storeInfo
        split
        · exact AList.lookup_insert_ne (Ne.symm hPath)
        · rfl
      by_cases hPath : pending.relPathStr = path
      · apply ih
        · intro other hMem hSame
          have hRow := hTail other hMem hSame
          split
          next hDirty => rwa [if_pos hDirty] at hRow
          next => exact hNext hPath
        · exact Or.inl (hNext hPath)
      · apply ih
        · rw [hOther hPath]
          exact hTail
        · rw [hOther hPath]
          rcases hSome with hRow | ⟨other, hMem, hSame⟩
          · exact Or.inl hRow
          · rcases List.mem_cons.mp hMem with rfl | hMem
            · exact absurd hSame hPath
            · exact Or.inr ⟨other, hMem, hSame⟩

section Snapshot

variable
  {H : Host}
  {tree : Tree}
  {s : LocalState}
  {path : String}

/- The new map has the tracked files, as they are now. -/
theorem lookup_newFileMap_iff
    (hDisk : s.disk = tree.disk)
    (hTruthful : Truthful H s.disk s.fileStore)
    {info : FileInfo} :
    (newFileMap (ruled H s.disk) s).lookup path =
        some info ↔
      ∃ file, Tracks H s.disk path file ∧
        info = infoOf H path file := by
  have hOwn : OwnPaths (newFileMap (ruled H s.disk) s) :=
    ownPaths_foldl_insertInfo _ (fun path info hLookup => by
      cases hLookup)
  have hInfo : ∀ {loc file}, TracksAt H s.disk loc file →
      pendingInfo (ruled H s.disk) s.disk
          (inspectFile (ruled H s.disk) s.fileStore loc
            file) =
        infoOf H (H.relative loc) file := by
    intro loc file hTracks
    rw [pendingInfo, finalHash_of_tracksAt hTruthful hTracks]
    rfl
  have hTracked : ∀ {info}, (newFileMap (ruled H s.disk)
      s).lookup path = some info →
        ∃ file, Tracks H s.disk path file ∧
          info = infoOf H path file := by
    intro info hLookup
    have hPath := hOwn path info hLookup
    rcases mem_of_lookup_foldl_insertInfo _ hLookup with
      hIn | hNone
    · rcases List.mem_map.mp hIn with
        ⟨pending, hPending, rfl⟩
      rcases (mem_hashedFiles_iff hDisk hTruthful).mp hPending
        with ⟨loc, file, hTracks, rfl⟩
      rw [hInfo hTracks] at hPath ⊢
      exact ⟨file, ⟨loc, hPath, hTracks⟩, by rw [← hPath]; rfl⟩
    · cases hNone
  constructor
  · exact hTracked
  · rintro ⟨file, ⟨loc, hPath, hTracks⟩, rfl⟩
    have hIn : path ∈ newFileMap (ruled H s.disk) s := by
      rw [newFileMap, mem_foldl_insertInfo_iff]
      refine Or.inr (List.mem_map.mpr
        ⟨_, List.mem_map_of_mem ((mem_hashedFiles_iff hDisk
          hTruthful).mpr ⟨loc, file, hTracks, rfl⟩), ?_⟩)
      exact hPath
    rcases Option.isSome_iff_exists.mp
      (AList.lookup_isSome.mpr hIn) with ⟨info, hLookup⟩
    rcases hTracked hLookup with ⟨file', hTracks', rfl⟩
    rw [hDisk] at hTracks hTracks'
    rw [hLookup, tracks_unique hTracks' ⟨loc, hPath, hTracks⟩]

theorem mem_newFileMap_ruled_iff
    (hDisk : s.disk = tree.disk)
    (hTruthful : Truthful H s.disk s.fileStore) :
    path ∈ newFileMap (ruled H s.disk) s ↔
      ∃ file, Tracks H s.disk path file := by
  rw [← AList.lookup_isSome, Option.isSome_iff_exists]
  simp only [lookup_newFileMap_iff hDisk hTruthful]
  constructor
  · rintro ⟨info, file, hTracks, -⟩
    exact ⟨file, hTracks⟩
  · rintro ⟨file, hTracks⟩
    exact ⟨_, file, hTracks, rfl⟩

/- The new rows are those of the tracked files. -/
theorem lookup_newFileStore_iff
    (hDisk : s.disk = tree.disk)
    (hTruthful : Truthful H s.disk s.fileStore)
    {row : FileMetadata} :
    (newFileStore (ruled H s.disk) s).lookup path =
        some row ↔
      ∃ file, Tracks H s.disk path file ∧
        row = rowOf H file := by
  have hLookup : (newFileStore (ruled H s.disk) s).lookup
      path = if path ∈ newFileMap (ruled H s.disk) s then
        ((hashedFiles (ruled H s.disk) s).foldl (storeInfo
          (ruled H s.disk) s.disk) s.fileStore).lookup path
      else none := by
    rw [newFileStore, AList.lookup_filterKeys]
    simp [AList.mem_keys]
  have hWritten : ∀ {file}, Tracks H s.disk path file →
      ((hashedFiles (ruled H s.disk) s).foldl (storeInfo
        (ruled H s.disk) s.disk) s.fileStore).lookup path =
          some (rowOf H file) := by
    intro file hTracks
    apply lookup_foldl_storeInfo
    · intro pending hPending hPath
      rcases (mem_hashedFiles_iff hDisk hTruthful).mp hPending
        with ⟨loc, file', hTracks', rfl⟩
      have hSame : file' = file := by
        rw [hDisk] at hTracks hTracks'
        exact tracks_unique ⟨loc, hPath, hTracks'⟩ hTracks
      subst hSame
      rw [finalHash_of_tracksAt hTruthful hTracks']
      split
      next => rfl
      next hClean =>
        have hRow := lookup_of_clean hTruthful hTracks'
          (Bool.eq_false_iff.mpr hClean)
        exact hPath ▸ hRow
    · rcases hTracks with ⟨loc, hPath, hTracks⟩
      exact Or.inr ⟨_, (mem_hashedFiles_iff hDisk
        hTruthful).mpr ⟨loc, file, hTracks, rfl⟩, hPath⟩
  rw [hLookup]
  constructor
  · intro hRow
    split at hRow
    next hIn =>
      rcases (mem_newFileMap_ruled_iff hDisk hTruthful).mp hIn
        with ⟨file, hTracks⟩
      rw [hWritten hTracks] at hRow
      exact ⟨file, hTracks, (Option.some.inj hRow).symm⟩
    next => cases hRow
  · rintro ⟨file, hTracks, rfl⟩
    rw [if_pos ((mem_newFileMap_ruled_iff hDisk
      hTruthful).mpr ⟨file, hTracks⟩), hWritten hTracks]

end Snapshot

/-
  A scan that runs alone and in which nothing fails.  The
  rows to remove are looked for among the paths that the
  cache has by then, in any order.
-/
theorem scan_snapshot_exact
    {H : Host}
    {tree : Tree}
    {w : Watching}
    (thread : ℕ)
    (hDisk : w.node.disk = tree.disk)
    (hTruthful : Truthful H tree.disk w.node.fileStore) :
    (∀ path info,
      (scanWithRules (quiet H) w).node.fileMap.lookup path =
          some info ↔
        ∃ file, Tracks H tree.disk path file ∧
          info = infoOf H path file) ∧
    ∃ written,
      run step (start (tableOf w.node.fileStore))
          (windowEvents (ruled H tree.disk) w.node thread) =
        some written ∧
      ∀ dbPaths : List String,
        (∀ path, path ∈ dbPaths ↔
          written.cache path ≠ none) →
        ∃ store,
          run step written (cleanupEvents
              (ruled H tree.disk) w.node thread dbPaths) =
            some store ∧
          AtRest store ∧ Coherent store ∧
          ∀ path row, store.db.files path = some row ↔
            ∃ file, Tracks H tree.disk path file ∧
              row = rowOf H file := by
  rw [← hDisk] at hTruthful ⊢
  refine ⟨fun path info => lookup_newFileMap_iff hDisk
    hTruthful, _, run_windowEvents thread, ?_⟩
  intro dbPaths hPaths
  refine ⟨_, run_cleanupEvents thread hPaths,
    fun _ => ⟨rfl, rfl⟩, fun _ => rfl, fun path row => ?_⟩
  exact lookup_newFileStore_iff hDisk hTruthful

/- One row is up to date, one ignored and one without file. -/
def notesRows : AList (fun _ : String => FileMetadata) :=
  [⟨"notes/a.txt", ⟨Digest.sample.hash [97], 0⟩⟩,
    ⟨"b.log", ⟨"", 0⟩⟩, ⟨"gone.txt", ⟨"", 7⟩⟩].toAList

def notesBefore : Watching where
  filter := rulesOn .plain notesDisk
  node :=
    { LocalState.empty .plain .source .oneWay with
      disk := notesDisk
      fileStore := notesRows }

theorem truthful_notesRows :
    Truthful .plain notesTree.disk notesRows := by
  have hAll : ∀ entry ∈ notesDisk.entries,
      (rulesOn .plain notesDisk).shouldIgnore
          (bytes (Host.plain.relative entry.1)) = false →
        ∀ file ∈ notesDisk.payload? entry.1,
          ∀ row ∈ notesRows.lookup
              (Host.plain.relative entry.1),
            row.mtime = file.mtime →
              row.hash =
                Host.plain.digest.hash file.content := by
    decide +kernel
  rintro path file row ⟨loc, rfl, hFile, -, hKept, -⟩ hRow
  exact hAll ⟨loc, .file file⟩
    (AList.mem_lookup_iff.mp hFile)
    (Bool.eq_false_iff.mpr hKept) file
    ((FileTree.payload?_eq_some_iff _ _ _).mpr hFile) row hRow

theorem scan_snapshot_exact_notes :
    (scanWithRules (quiet .plain)
        notesBefore).node.fileMap.lookup "notes/a.txt" =
      some ⟨"notes/a.txt", Digest.sample.hash [97], 0, 1⟩ ∧
    ∃ written,
      run step (start (tableOf notesRows))
          (windowEvents (ruled .plain notesDisk)
            notesBefore.node 3) =
        some written ∧
      ∀ dbPaths : List String,
        (∀ path, path ∈ dbPaths ↔
          written.cache path ≠ none) →
        ∃ store,
          run step written (cleanupEvents
              (ruled .plain notesDisk) notesBefore.node 3
              dbPaths) =
            some store ∧
          AtRest store ∧ Coherent store ∧
          store.db.files "notes/a.txt" =
            some ⟨Digest.sample.hash [97], 0⟩ := by
  rcases @scan_snapshot_exact .plain notesTree notesBefore 3
    rfl truthful_notesRows with
    ⟨hMap, written, hRun, hRest⟩
  have hTracks : Tracks .plain notesTree.disk "notes/a.txt"
      ⟨[97], 0⟩ := by
    refine ⟨["r", "notes", "a.txt"], by decide, by decide,
      ⟨by decide, by decide, by decide⟩, ?_, ?_⟩
    · unfold IsIgnored
      decide +kernel
    · exact not_hidden_notes _
  refine ⟨(hMap _ _).mpr ⟨_, hTracks, rfl⟩, written, hRun, ?_⟩
  intro dbPaths hPaths
  rcases hRest dbPaths hPaths with
    ⟨store, hStore, hIdle, hCoherent, hRows⟩
  exact ⟨store, hStore, hIdle, hCoherent,
    (hRows _ _).mpr ⟨_, hTracks, rfl⟩⟩

end ScanSnapshot

end VeritasSync
