import Mathlib.Data.List.AList
import Mathlib.Data.List.Nodup
import VeritasSync.Sync.SyncManager

/-
  The comparison of two file lists as the program runs it:
  two tables by the key of a path, one loop over the remote
  list and one over the local list.  The tables and loops
  come to what `compareStatesAndGetRequests` says.

  Main declarations:
    * `CompareStates.compareStates`
    * `CompareStates.compareStates_eq`
    * `CompareStates.compareStates_exact`
    * `CompareStates.compareStates_self_iff`
-/

namespace VeritasSync

namespace SyncActions

def request
    (actions : SyncActions)
    (path : String) : SyncActions :=
  { actions with
    filesToRequest := actions.filesToRequest ++ [path] }

def delete
    (actions : SyncActions)
    (path : String) : SyncActions :=
  { actions with
    filesToDelete := actions.filesToDelete ++ [path] }

def conflictRename
    (actions : SyncActions)
    (path : String) : SyncActions :=
  { actions with
    filesToConflictRename :=
      actions.filesToConflictRename ++ [path] }

end SyncActions

namespace CompareStates

open PathUtils SyncManager

------------------------------------------------------------
-- The History Callback
------------------------------------------------------------

/- What the callback does with a path. -/
inductive HistoryAnswer where
| returned : Option SyncHistory → HistoryAnswer
| threw : HistoryAnswer
deriving DecidableEq, Repr

/- The callback, which may be null. -/
abbrev HistoryQueryFunc := Option (String → HistoryAnswer)

/- An exception counts as no history. -/
def safeGetHistory
    (getHistory : String → HistoryAnswer)
    (path : String) : Option SyncHistory :=
  match getHistory path with
  | .returned row => row
  | .threw => none

/- The digest of the last agreement, if there is one. -/
def baseHash
    (getHistory : String → HistoryAnswer)
    (path : String) : Option String :=
  (safeGetHistory getHistory path).map SyncHistory.hash

------------------------------------------------------------
-- The Tables
------------------------------------------------------------

/- A table that compares paths by their folded bytes. -/
abbrev HashTable := AList (fun _ : List Char => String)

def buildLocalFileHashes
    (localFiles : List FileInfo) : HashTable :=
  localFiles.foldl
    (fun table info => table.insert (key info.path) info.hash)
    ∅

def buildRemoteFilePaths
    (remoteFiles : List FileInfo) : List (List Char) :=
  remoteFiles.foldl
    (fun paths info => paths.insert (key info.path)) []

------------------------------------------------------------
-- The Loops
------------------------------------------------------------

section Loops

variable
  (getHistory : String → HistoryAnswer)
  (mode : SyncMode)

/- One remote file. -/
def compareRemote
    (localFileHashes : HashTable)
    (actions : SyncActions)
    (remoteFile : FileInfo) : SyncActions :=
  match localFileHashes.lookup (key remoteFile.path) with
  | none => actions.request remoteFile.path
  | some localHash =>
      if localHash = remoteFile.hash then
        actions
      else if mode = .biDirectional ∧ detectConflict localHash
          (safeGetHistory getHistory remoteFile.path) then
        (actions.conflictRename remoteFile.path).request
          remoteFile.path
      else
        actions.request remoteFile.path

/- One local file. -/
def compareLocal
    (remoteFilePaths : List (List Char))
    (actions : SyncActions)
    (localFile : FileInfo) : SyncActions :=
  if key localFile.path ∈ remoteFilePaths then
    actions
  else
    match mode with
    | .oneWay => actions.delete localFile.path
    | .biDirectional =>
        match safeGetHistory getHistory localFile.path with
        -- a file that is new here stays
        | none => actions
        | some row =>
            if row.hash = localFile.hash then
              actions.delete localFile.path
            else
              actions

end Loops

def compareStates
    (localFiles remoteFiles : List FileInfo)
    (getHistory : HistoryQueryFunc)
    (mode : SyncMode) : SyncActions :=
  match getHistory with
  | none => ⟨[], [], []⟩
  | some getHistory =>
      localFiles.foldl
        (compareLocal getHistory mode
          (buildRemoteFilePaths remoteFiles))
        (remoteFiles.foldl
          (compareRemote getHistory mode
            (buildLocalFileHashes localFiles))
          ⟨[], [], []⟩)

------------------------------------------------------------
-- What the Tables Hold
------------------------------------------------------------

section Tables

variable
  (files : List FileInfo)
  (path : String)

/- The last entry with a key decides. -/
theorem lookup_foldl_insert
    (table : HashTable) :
    (files.foldl (fun table info =>
        table.insert (key info.path) info.hash) table).lookup
          (key path) =
      (localFileHash files path).or
        (table.lookup (key path)) := by
  induction files generalizing table with
  | nil => rfl
  | cons info files ih =>
      have hFirst : (table.insert (key info.path)
          info.hash).lookup (key path) =
            (([info].find? (fun info => key info.path ==
              key path)).map FileInfo.hash).or
                (table.lookup (key path)) := by
        by_cases hKey : key path = key info.path
        · rw [hKey, AList.lookup_insert]
          simp
        · rw [AList.lookup_insert_ne hKey]
          simp [Ne.symm hKey]
      rw [List.foldl_cons, ih, hFirst, localFileHash,
        localFileHash, List.reverse_cons,
        List.find?_append, Option.map_or, Option.or_assoc]

theorem lookup_buildLocalFileHashes :
    (buildLocalFileHashes files).lookup (key path) =
      localFileHash files path := by
  rw [buildLocalFileHashes, lookup_foldl_insert]
  exact Option.or_none

theorem mem_foldl_insert_iff
    (paths : List (List Char)) :
    key path ∈ files.foldl (fun paths info =>
        paths.insert (key info.path)) paths ↔
      key path ∈ paths ∨
        hasKey (files.map FileInfo.path) path = true := by
  induction files generalizing paths with
  | nil => simp [hasKey]
  | cons info files ih =>
      rw [List.foldl_cons, ih, List.mem_insert_iff]
      simp only [hasKey, List.map_cons, List.any_cons,
        Bool.or_eq_true, beq_iff_eq]
      rw [eq_comm, or_comm (a := key info.path = key path),
        or_assoc]

theorem mem_buildRemoteFilePaths_iff :
    key path ∈ buildRemoteFilePaths files ↔
      hasKey (files.map FileInfo.path) path = true := by
  rw [buildRemoteFilePaths, mem_foldl_insert_iff]
  simp

end Tables

------------------------------------------------------------
-- What the Loops Collect
------------------------------------------------------------

section Collect

variable
  (localFiles remoteFiles : List FileInfo)
  (getHistory : String → HistoryAnswer)
  (mode : SyncMode)
  (actions : SyncActions)

/- One remote file adds what is to be done about it. -/
theorem compareRemote_eq
    (remoteFile : FileInfo) :
    compareRemote getHistory mode
        (buildLocalFileHashes localFiles) actions
        remoteFile =
      ⟨actions.filesToRequest ++
          ([remoteFile].filter
            (needsRequest localFiles)).map FileInfo.path,
        actions.filesToDelete,
        actions.filesToConflictRename ++
          ([remoteFile].filter (needsConflictRename
            localFiles (safeGetHistory getHistory)
              mode)).map FileInfo.path⟩ := by
  unfold compareRemote needsConflictRename needsRequest
  simp only [lookup_buildLocalFileHashes, List.filter_cons,
    List.filter_nil]
  cases hLocal : localFileHash localFiles
      remoteFile.path with
  | none => simp [SyncActions.request]
  | some localHash =>
      by_cases hSame : localHash = remoteFile.hash
      · simp [hSame]
      · by_cases hConflict : mode = .biDirectional ∧
            detectConflict localHash (safeGetHistory
              getHistory remoteFile.path) = true
        · simp [hSame, hConflict, SyncActions.request,
            SyncActions.conflictRename]
        · simp only [hSame, hConflict, if_false]
          simpa [hSame, SyncActions.request] using
            hConflict

theorem foldl_compareRemote :
    remoteFiles.foldl (compareRemote getHistory mode
        (buildLocalFileHashes localFiles)) actions =
      ⟨actions.filesToRequest ++
          (remoteFiles.filter
            (needsRequest localFiles)).map FileInfo.path,
        actions.filesToDelete,
        actions.filesToConflictRename ++
          (remoteFiles.filter (needsConflictRename
            localFiles (safeGetHistory getHistory)
              mode)).map FileInfo.path⟩ := by
  induction remoteFiles generalizing actions with
  | nil => simp
  | cons remoteFile remoteFiles ih =>
      rw [List.foldl_cons, compareRemote_eq, ih,
        List.append_assoc, List.append_assoc,
        ← List.map_append, ← List.map_append,
        ← List.filter_append, ← List.filter_append,
        List.singleton_append]

/- One local file adds itself when it is to be deleted. -/
theorem compareLocal_eq
    (localFile : FileInfo) :
    compareLocal getHistory mode
        (buildRemoteFilePaths remoteFiles) actions
        localFile =
      { actions with
        filesToDelete := actions.filesToDelete ++
          ([localFile].filter (needsDelete remoteFiles
            (safeGetHistory getHistory) mode)).map
              FileInfo.path } := by
  unfold compareLocal needsDelete
  simp only [mem_buildRemoteFilePaths_iff,
    List.filter_cons, List.filter_nil]
  by_cases hRemote : hasKey (remoteFiles.map FileInfo.path)
      localFile.path = true
  · simp [hRemote]
  · cases mode with
    | oneWay => simp [hRemote, SyncActions.delete]
    | biDirectional =>
        cases hRow : safeGetHistory getHistory
            localFile.path with
        | none => simp [hRemote]
        | some row =>
            by_cases hSame : row.hash = localFile.hash
            · simp [hRemote, hSame, SyncActions.delete]
            · simp [hRemote, hSame]

theorem foldl_compareLocal :
    localFiles.foldl (compareLocal getHistory mode
        (buildRemoteFilePaths remoteFiles)) actions =
      { actions with
        filesToDelete := actions.filesToDelete ++
          (localFiles.filter (needsDelete remoteFiles
            (safeGetHistory getHistory) mode)).map
              FileInfo.path } := by
  induction localFiles generalizing actions with
  | nil => simp
  | cons localFile localFiles ih =>
      rw [List.foldl_cons, compareLocal_eq, ih,
        List.append_assoc, ← List.map_append,
        ← List.filter_append, List.singleton_append]

/- The tables and loops collect what the filters tell. -/
theorem compareStates_eq :
    compareStates localFiles remoteFiles (some getHistory)
        mode =
      compareStatesAndGetRequests localFiles remoteFiles
        (safeGetHistory getHistory) mode := by
  rw [compareStates, foldl_compareRemote,
    foldl_compareLocal]
  rfl

end Collect

------------------------------------------------------------
-- Which Paths Are Listed
------------------------------------------------------------

/- No two entries have the same key. -/
def DistinctKeys (files : List FileInfo) : Prop :=
  (files.map (fun info => key info.path)).Nodup

instance (files : List FileInfo) :
    Decidable (DistinctKeys files) := by
  unfold DistinctKeys
  infer_instance

section Exact

variable
  {files localFiles remoteFiles : List FileInfo}
  {getHistory : String → HistoryAnswer}
  {mode : SyncMode}
  {path : String}

theorem eq_of_key_eq
    (hDistinct : DistinctKeys files)
    {info other : FileInfo}
    (hInfo : info ∈ files)
    (hOther : other ∈ files)
    (hKey : key info.path = key other.path) :
    info = other :=
  List.inj_on_of_nodup_map hDistinct hInfo hOther hKey

theorem localFileHash_eq_none_iff :
    localFileHash files path = none ↔
      ∀ info ∈ files, key info.path ≠ key path := by
  simp [localFileHash]

/- With distinct keys the digest is that of the entry. -/
theorem localFileHash_eq_some_iff
    (hDistinct : DistinctKeys files)
    {hash : String} :
    localFileHash files path = some hash ↔
      ∃ info ∈ files, key info.path = key path ∧
        info.hash = hash := by
  rw [localFileHash, Option.map_eq_some_iff]
  constructor
  · rintro ⟨info, hFind, hHash⟩
    have hMem := List.mem_of_find?_eq_some hFind
    have hKey := List.find?_some hFind
    exact ⟨info, List.mem_reverse.mp hMem,
      by simpa using hKey, hHash⟩
  · rintro ⟨info, hMem, hKey, hHash⟩
    cases hFind : files.reverse.find? (fun info =>
        key info.path == key path) with
    | none =>
        rw [List.find?_eq_none] at hFind
        exact absurd (by simpa using hKey)
          (hFind info (List.mem_reverse.mpr hMem))
    | some found =>
        have hFound := List.mem_of_find?_eq_some hFind
        have hOwn := List.find?_some hFind
        have hSame : found = info :=
          eq_of_key_eq hDistinct
            (List.mem_reverse.mp hFound) hMem
              ((by simpa using hOwn : key found.path =
                key path).trans hKey.symm)
        exact ⟨found, rfl, hSame ▸ hHash⟩

theorem nodup_map_filter
    (hDistinct : DistinctKeys files)
    (p : FileInfo → Bool) :
    (((files.filter p).map FileInfo.path).map key).Nodup := by
  rw [List.map_map]
  exact hDistinct.sublist (List.filter_sublist.map _)

theorem localFileHash_ne_iff
    (hDistinct : DistinctKeys files)
    {hash : String} :
    localFileHash files path ≠ some hash ↔
      (∀ info ∈ files, key info.path ≠ key path) ∨
        ∃ info ∈ files, key info.path = key path ∧
          info.hash ≠ hash := by
  cases hFound : localFileHash files path with
  | none =>
      have hAbsent := localFileHash_eq_none_iff.mp hFound
      exact iff_of_true nofun (Or.inl hAbsent)
  | some found =>
      rcases (localFileHash_eq_some_iff hDistinct).mp hFound
        with ⟨info, hMem, hKey, rfl⟩
      rw [Ne, Option.some.injEq]
      constructor
      · exact fun hDiffers =>
          Or.inr ⟨info, hMem, hKey, hDiffers⟩
      · rintro (hAbsent | ⟨other, hOther, hSame, hDiffers⟩)
        · exact absurd hKey (hAbsent info hMem)
        · rwa [eq_of_key_eq hDistinct hMem hOther
            (hKey.trans hSame.symm)]

theorem hasKey_eq_false_iff :
    hasKey (files.map FileInfo.path) path = false ↔
      ∀ info ∈ files, key info.path ≠ key path := by
  simp [hasKey]

/- A file is set aside unless only the other side changed. -/
theorem needsConflictRename_iff
    (hDistinct : DistinctKeys localFiles)
    {remote : FileInfo} :
    needsConflictRename localFiles
        (safeGetHistory getHistory) mode remote = true ↔
      mode = .biDirectional ∧
        ∃ mine ∈ localFiles, key mine.path = key remote.path ∧
          mine.hash ≠ remote.hash ∧
            baseHash getHistory remote.path ≠
              some mine.hash := by
  have hDetect : ∀ hash, detectConflict hash
      (safeGetHistory getHistory remote.path) = true ↔
        baseHash getHistory remote.path ≠ some hash := by
    intro hash
    unfold detectConflict baseHash
    cases safeGetHistory getHistory remote.path with
    | none => simp
    | some row => simpa using ne_comm
  unfold needsConflictRename
  cases hFound : localFileHash localFiles remote.path with
  | none =>
      have hAbsent := localFileHash_eq_none_iff.mp hFound
      refine iff_of_false (by simp) ?_
      rintro ⟨-, mine, hMine, hKey, -⟩
      exact hAbsent mine hMine hKey
  | some found =>
      rcases (localFileHash_eq_some_iff hDistinct).mp hFound
        with ⟨info, hMem, hKey, rfl⟩
      simp only [Bool.and_eq_true, bne_iff_ne, beq_iff_eq,
        hDetect]
      constructor
      · rintro ⟨⟨hDiffers, hMode⟩, hBase⟩
        exact ⟨hMode, info, hMem, hKey, hDiffers, hBase⟩
      · rintro ⟨hMode, mine, hMine, hSame, hDiffers, hBase⟩
        rw [eq_of_key_eq hDistinct hMem hMine
          (hKey.trans hSame.symm)]
        exact ⟨⟨hDiffers, hMode⟩, hBase⟩

/- A file goes that the other side has removed. -/
theorem needsDelete_iff
    {mine : FileInfo} :
    needsDelete remoteFiles (safeGetHistory getHistory) mode
        mine = true ↔
      (∀ remote ∈ remoteFiles,
          key remote.path ≠ key mine.path) ∧
        (mode = .oneWay ∨
          baseHash getHistory mine.path =
            some mine.hash) := by
  cases mode with
  | oneWay =>
      rw [needsDelete_oneWay_iff, hasKey_eq_false_iff]
      simp
  | biDirectional =>
      rw [needsDelete_biDirectional_iff, hasKey_eq_false_iff]
      simp [baseHash]

/-
  The comparison of two lists with distinct keys: what is
  requested, set aside and deleted, each of it once.
-/
theorem compareStates_exact
    (hLocal : DistinctKeys localFiles)
    (hRemote : DistinctKeys remoteFiles)
    (getHistory : String → HistoryAnswer)
    (mode : SyncMode) :
    let actions := compareStates localFiles remoteFiles
      (some getHistory) mode
    (∀ path, path ∈ actions.filesToRequest ↔
      ∃ remote ∈ remoteFiles, remote.path = path ∧
        ((∀ mine ∈ localFiles, key mine.path ≠ key path) ∨
          ∃ mine ∈ localFiles, key mine.path = key path ∧
            mine.hash ≠ remote.hash)) ∧
    (∀ path, path ∈ actions.filesToConflictRename ↔
      mode = .biDirectional ∧
        ∃ remote ∈ remoteFiles, remote.path = path ∧
          ∃ mine ∈ localFiles, key mine.path = key path ∧
            mine.hash ≠ remote.hash ∧
              baseHash getHistory path ≠ some mine.hash) ∧
    (∀ path, path ∈ actions.filesToDelete ↔
      ∃ mine ∈ localFiles, mine.path = path ∧
        (∀ remote ∈ remoteFiles,
          key remote.path ≠ key path) ∧
        (mode = .oneWay ∨
          baseHash getHistory path = some mine.hash)) ∧
    (actions.filesToRequest.map key).Nodup ∧
    (actions.filesToConflictRename.map key).Nodup ∧
    (actions.filesToDelete.map key).Nodup ∧
    ∀ requested ∈ actions.filesToRequest,
      ∀ deleted ∈ actions.filesToDelete,
        key requested ≠ key deleted := by
  intro actions
  have hEq : actions = compareStatesAndGetRequests localFiles
      remoteFiles (safeGetHistory getHistory) mode :=
    compareStates_eq localFiles remoteFiles getHistory mode
  rw [hEq]
  refine ⟨?_, ?_, ?_, nodup_map_filter hRemote _,
    nodup_map_filter hRemote _, nodup_map_filter hLocal _, ?_⟩
  · intro path
    rw [mem_filesToRequest_iff]
    constructor
    · rintro ⟨remote, hMem, hDiffers, rfl⟩
      exact ⟨remote, hMem, rfl,
        (localFileHash_ne_iff hLocal).mp hDiffers⟩
    · rintro ⟨remote, hMem, rfl, hDiffers⟩
      exact ⟨remote, hMem,
        (localFileHash_ne_iff hLocal).mpr hDiffers, rfl⟩
  · intro path
    have hList : path ∈ ((remoteFiles.filter
        (needsConflictRename localFiles (safeGetHistory
          getHistory) mode)).map FileInfo.path) ↔
        ∃ remote ∈ remoteFiles, needsConflictRename
          localFiles (safeGetHistory getHistory) mode
            remote = true ∧ remote.path = path := by
      simp [and_assoc]
    refine hList.trans ?_
    simp only [needsConflictRename_iff hLocal]
    constructor
    · rintro ⟨remote, hMem, ⟨hMode, hMine⟩, rfl⟩
      exact ⟨hMode, remote, hMem, rfl, hMine⟩
    · rintro ⟨hMode, remote, hMem, rfl, hMine⟩
      exact ⟨remote, hMem, ⟨hMode, hMine⟩, rfl⟩
  · intro path
    rw [mem_filesToDelete_iff]
    simp only [needsDelete_iff]
    constructor
    · rintro ⟨mine, hMem, hDelete, rfl⟩
      exact ⟨mine, hMem, rfl, hDelete⟩
    · rintro ⟨mine, hMem, rfl, hDelete⟩
      exact ⟨mine, hMem, hDelete, rfl⟩
  · intro requested hRequested deleted hDeleted
    rcases mem_filesToRequest_iff.mp hRequested with
      ⟨remote, hMem, -, rfl⟩
    rcases mem_filesToDelete_iff.mp hDeleted with
      ⟨mine, -, hDelete, rfl⟩
    exact (needsDelete_iff.mp hDelete).1 remote hMem

/- A conflict, a new file, and a file gone on the peer. -/
theorem compareStates_exact_sample :
    let mine : List FileInfo :=
      [⟨"a.txt", "1", 0, 0⟩, ⟨"b\\c", "2", 0, 0⟩]
    let theirs : List FileInfo :=
      [⟨"A.txt", "3", 0, 0⟩, ⟨"d/", "4", 0, 0⟩]
    let getHistory : String → HistoryAnswer := fun path =>
      if path = "A.txt" then
        .threw
      else
        .returned (some ⟨"2", 0⟩)
    let actions := compareStates mine theirs
      (some getHistory) .biDirectional
    "A.txt" ∈ actions.filesToRequest ∧
      "d/" ∈ actions.filesToRequest ∧
      "A.txt" ∈ actions.filesToConflictRename ∧
      "b\\c" ∈ actions.filesToDelete := by
  intro mine theirs getHistory actions
  have hMine : DistinctKeys mine := by decide
  have hTheirs : DistinctKeys theirs := by decide
  rcases compareStates_exact hMine hTheirs getHistory
      .biDirectional with ⟨hRequest, hRename, hDelete, -⟩
  refine ⟨(hRequest _).mpr ?_, (hRequest _).mpr ?_,
    (hRename _).mpr ?_, (hDelete _).mpr ?_⟩ <;> decide

end Exact

------------------------------------------------------------
-- A List Compared with Itself
------------------------------------------------------------

/- Entries with one key have one digest. -/
def SameKeySameHash (files : List FileInfo) : Prop :=
  ∀ info ∈ files, ∀ other ∈ files,
    key info.path = key other.path → info.hash = other.hash

section Self

variable
  {files : List FileInfo}

theorem localFileHash_congr
    {path path' : String}
    (hKey : key path = key path') :
    localFileHash files path = localFileHash files path' := by
  unfold localFileHash
  rw [hKey]

/- Some entry of the key has the digest that is kept. -/
theorem exists_of_localFileHash
    {path hash : String}
    (hHash : localFileHash files path = some hash) :
    ∃ info ∈ files, key info.path = key path ∧
      info.hash = hash := by
  rcases Option.map_eq_some_iff.mp hHash with
    ⟨info, hFind, rfl⟩
  have hKey := List.find?_some hFind
  exact ⟨info, List.mem_reverse.mp
    (List.mem_of_find?_eq_some hFind), by simpa using hKey,
    rfl⟩

theorem localFileHash_self_iff :
    (∀ info ∈ files,
      localFileHash files info.path = some info.hash) ↔
      SameKeySameHash files := by
  constructor
  · intro hOwn info hInfo other hOther hKey
    have hHash := hOwn info hInfo
    rw [localFileHash_congr hKey, hOwn other hOther] at hHash
    exact (Option.some.inj hHash).symm
  · intro hSame info hInfo
    cases hFound : localFileHash files info.path with
    | none =>
        exact absurd rfl
          (localFileHash_eq_none_iff.mp hFound info hInfo)
    | some hash =>
        rcases exists_of_localFileHash hFound with
          ⟨other, hOther, hKey, rfl⟩
        rw [hSame other hOther info hInfo hKey]

/-
  Nothing is ever deleted.  Nothing is requested or set
  aside exactly when entries with one key have one digest.
-/
theorem compareStates_self_iff
    (files : List FileInfo)
    (getHistory : String → HistoryAnswer)
    (mode : SyncMode) :
    let actions :=
      compareStates files files (some getHistory) mode
    actions.filesToDelete = [] ∧
      (actions.filesToRequest = [] ∧
        actions.filesToConflictRename = [] ↔
          SameKeySameHash files) := by
  intro actions
  have hEq : actions = compareStatesAndGetRequests files
      files (safeGetHistory getHistory) mode :=
    compareStates_eq files files getHistory mode
  have hRequest : actions.filesToRequest = [] ↔
      ∀ info ∈ files,
        localFileHash files info.path = some info.hash := by
    rw [hEq, List.eq_nil_iff_forall_not_mem]
    simp only [mem_filesToRequest_iff]
    constructor
    · intro hNone info hInfo
      by_contra hDiffers
      exact hNone info.path ⟨info, hInfo, hDiffers, rfl⟩
    · rintro hOwn path ⟨info, hInfo, hDiffers, -⟩
      exact hDiffers (hOwn info hInfo)
  constructor
  · rw [hEq, List.eq_nil_iff_forall_not_mem]
    intro path hPath
    rcases mem_filesToDelete_iff.mp hPath with
      ⟨mine, hMine, hDelete, -⟩
    exact (needsDelete_iff.mp hDelete).1 mine hMine rfl
  · rw [hRequest, localFileHash_self_iff]
    refine and_iff_left_of_imp (fun hSame => ?_)
    rw [hEq, compareStatesAndGetRequests]
    simp only [List.map_eq_nil_iff, List.filter_eq_nil_iff]
    intro info hInfo
    have hOwn := localFileHash_self_iff.mpr hSame info hInfo
    simp [needsConflictRename, hOwn]

/- Two files whose names differ in case only. -/
theorem not_compareStates_self_nil :
    ¬∀ (files : List FileInfo)
        (getHistory : String → HistoryAnswer)
        (mode : SyncMode),
      (files.map FileInfo.path).Nodup →
        compareStates files files (some getHistory) mode =
          ⟨[], [], []⟩ := by
  intro hNothing
  have hBoth := hNothing
    [⟨"a", "1", 0, 0⟩, ⟨"A", "2", 0, 0⟩]
    (fun _ => .returned none) .oneWay (by decide)
  revert hBoth
  decide

end Self

end CompareStates

end VeritasSync
