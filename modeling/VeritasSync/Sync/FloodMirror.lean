import VeritasSync.Sync.FloodRequests
import VeritasSync.Sync.FloodSafety
import VeritasSync.Sync.ScanSafety

/-
  What a one-way receiver tracks after a flood: nothing that
  the source does not announce.

  Main declarations:
    * `SyncHandler.NothingExtra`
    * `SyncHandler.NoDiskErrors`
    * `SyncHandler.nothingExtraUpToCase_of_flood`
-/

namespace VeritasSync

namespace SyncHandler

open LocalState PathUtils StateManager SyncManager
  TransferManager

------------------------------------------------------------
-- The Property
------------------------------------------------------------

/- Every tracked path is one of the snapshot. -/
structure NothingExtra
    (files : List FileInfo)
    (dirs : List String)
    (s : LocalState) : Prop where
  files : ∀ info ∈ getAllFiles s,
    info.path ∈ files.map FileInfo.path
  dirs : ∀ dir ∈ getLocalDirectories s, dir ∈ dirs

/-
  Every tracked path is one of the snapshot for the
  program's comparison of paths, which ignores case.
-/
structure NothingExtraUpToCase
    (files : List FileInfo)
    (dirs : List String)
    (s : LocalState) : Prop where
  files : ∀ info ∈ getAllFiles s,
    hasKey (files.map FileInfo.path) info.path = true
  dirs : ∀ dir ∈ getLocalDirectories s,
    hasKey dirs dir = true

/-
  The completion meets no disk error: the walk starts, every
  removal works, and the path of a file that the walk finds
  leads to the place where it was found.
-/
structure NoDiskErrors
    (H : Host)
    (s : LocalState) : Prop where
  walk : H.scan.walkFails = false
  removes : ∀ loc, H.removeFails loc = false
  clears : ∀ top loc, H.survives top loc = false
  resolves : ∀ loc file,
    s.disk.lookup loc = some (.file file) →
    H.Inside loc → H.locate (H.relative loc) = loc

------------------------------------------------------------
-- Tasks That Change Nothing Tracked
------------------------------------------------------------

/- The mode and the tracked entries are as they were. -/
structure SameTracked (s s' : LocalState) : Prop where
  mode : s'.mode = s.mode
  fileMap : s'.fileMap = s.fileMap
  dirMap : s'.dirMap = s.dirMap

namespace SameTracked

theorem refl (s : LocalState) : SameTracked s s :=
  ⟨rfl, rfl, rfl⟩

theorem trans
    {s s' s'' : LocalState}
    (hFirst : SameTracked s s')
    (hSecond : SameTracked s' s'') :
    SameTracked s s'' :=
  ⟨hSecond.mode.trans hFirst.mode,
    hSecond.fileMap.trans hFirst.fileMap,
    hSecond.dirMap.trans hFirst.dirMap⟩

end SameTracked

theorem sameTracked_check
    (H : Host)
    (path hash : String)
    (size : ℕ)
    (s : LocalState) :
    SameTracked s
      (checkResumeEligibility H path hash size s).2 := by
  have hChecked :=
    checkResumeEligibility_checked H path hash size s
  exact ⟨hChecked.mode, hChecked.fileMap, hChecked.dirMap⟩

theorem sameTracked_resolveConflict
    (H : Host)
    (peerId : String)
    (info : FileInfo)
    (s : LocalState) :
    SameTracked s (resolveConflict H peerId info s).2 := by
  rcases resolveConflict_cases H peerId info s with
    ⟨-, hResult⟩ | ⟨-, -, hResult⟩ | ⟨-, -, -, hResult⟩ |
      ⟨-, -, -, -, -, hResult⟩ | ⟨-, -, -, -, -, hResult⟩
  · rw [hResult]
    exact SameTracked.refl s
  · rw [hResult]
    exact ⟨rfl, rfl, rfl⟩
  · rw [hResult]
    exact SameTracked.refl s
  · rw [hResult]
    exact ⟨rfl, rfl, rfl⟩
  · rw [hResult]
    unfold renameConflict
    dsimp only
    split
    · exact ⟨rfl, rfl, rfl⟩
    · exact SameTracked.refl s

theorem sameTracked_processSingleFile
    (H : Host)
    (peerId : String)
    (info : FileInfo)
    (s : LocalState) :
    SameTracked s (processSingleFile H peerId info s).2 := by
  rcases processSingleFile_cases H peerId info s with
    ⟨-, hResult⟩ | ⟨-, s', hChecked, ⟨-, hResult⟩ |
      ⟨-, hResult⟩⟩
  · rw [hResult]
    exact SameTracked.refl s
  · rw [hResult]
    exact ⟨hChecked.mode, hChecked.fileMap, hChecked.dirMap⟩
  · rw [hResult]
    have hChecks : SameTracked s s' :=
      ⟨hChecked.mode, hChecked.fileMap, hChecked.dirMap⟩
    exact hChecks.trans
      (sameTracked_resolveConflict H peerId info s')

theorem sameTracked_processFiles
    (H : Host)
    (peerId : String)
    (files : List FileInfo)
    (s : LocalState) :
    SameTracked s (processFiles H peerId files s).2 := by
  induction files generalizing s with
  | nil => exact SameTracked.refl s
  | cons info rest ih =>
      exact (sameTracked_processSingleFile H peerId info
        s).trans (ih _)

theorem sameTracked_requestFile
    (H : Host)
    (peerId : String)
    (s : LocalState)
    (info : FileInfo) :
    SameTracked s (requestFile H peerId s info) := by
  have hChecked := sameTracked_check H info.path info.hash
    info.size s
  unfold requestFile buildFileRequest
  dsimp only
  split
  · exact hChecked.trans ⟨rfl, rfl, rfl⟩
  · apply hChecked.trans
    unfold registerExpectedMetadata
    split
    · exact ⟨rfl, rfl, rfl⟩
    · split
      · exact ⟨rfl, rfl, rfl⟩
      · exact ⟨rfl, rfl, rfl⟩

theorem sameTracked_updateBatch
    (H : Host)
    (peerId : String)
    (files : List FileInfo)
    (s : LocalState) :
    SameTracked s (updateBatch H peerId files s) := by
  apply (sameTracked_processFiles H peerId files s).trans
  apply List.foldlRecOn
  · exact SameTracked.refl _
  · intro s' hSame info _
    exact hSame.trans (sameTracked_requestFile H peerId s'
      info)

/-
  Between `s` and `s'` the tracked files are the same, and
  the tracked directories grew by some of `dirs` at most.
-/
structure Grows
    (dirs : List String)
    (s s' : LocalState) : Prop where
  mode : s'.mode = s.mode
  fileMap : s'.fileMap = s.fileMap
  dirMap : ∀ dir ∈ s'.dirMap, dir ∈ s.dirMap ∨ dir ∈ dirs

namespace Grows

variable
  {dirs : List String}
  {s s' s'' : LocalState}

theorem of_sameTracked
    (hSame : SameTracked s s') :
    Grows dirs s s' where
  mode := hSame.mode
  fileMap := hSame.fileMap
  dirMap dir hDir := by
    rw [hSame.dirMap] at hDir
    exact Or.inl hDir

theorem trans
    (hFirst : Grows dirs s s')
    (hSecond : Grows dirs s' s'') :
    Grows dirs s s'' where
  mode := hSecond.mode.trans hFirst.mode
  fileMap := hSecond.fileMap.trans hFirst.fileMap
  dirMap dir hDir := by
    rcases hSecond.dirMap dir hDir with hOld | hNew
    · exact hFirst.dirMap dir hOld
    · exact Or.inr hNew

theorem foldl
    {step : LocalState → String → LocalState}
    {paths : List String}
    (hStep : ∀ s, ∀ path ∈ paths, Grows dirs s (step s path))
    (s : LocalState) :
    Grows dirs s (paths.foldl step s) :=
  List.foldlRecOn paths step
    (of_sameTracked (SameTracked.refl s))
    (fun s' hGrows path hPath =>
      hGrows.trans (hStep s' path hPath))

/- One more directory is tracked. -/
theorem addDir
    {path : String}
    (hPath : path ∈ dirs)
    (hMode : s'.mode = s.mode)
    (hMap : s'.fileMap = s.fileMap)
    (hDirs : s'.dirMap = s.dirMap.insert path) :
    Grows dirs s s' where
  mode := hMode
  fileMap := hMap
  dirMap dir hDir := by
    rw [hDirs, List.mem_insert_iff] at hDir
    rcases hDir with rfl | hOld
    · exact Or.inr hPath
    · exact Or.inl hOld

end Grows

theorem grows_createBatchDir
    (H : Host)
    (s : LocalState)
    {path : String}
    {dirs : List String}
    (hPath : path ∈ dirs) :
    Grows dirs s (createBatchDir H s path) := by
  unfold createBatchDir
  dsimp only
  split
  · split
    · exact Grows.addDir hPath rfl rfl rfl
    · split
      · exact Grows.addDir hPath rfl rfl rfl
      · exact Grows.of_sameTracked (SameTracked.refl s)
  · exact Grows.of_sameTracked (SameTracked.refl s)

theorem grows_dirBatch
    (H : Host)
    (dirs : List String)
    (s : LocalState) :
    Grows dirs s (dirBatch H dirs [] s) := by
  unfold dirBatch
  split
  · exact Grows.of_sameTracked (SameTracked.refl s)
  · exact Grows.foldl
      (fun s _ hPath => grows_createBatchDir H s hPath) s

theorem grows_syncCreateDir
    (H : Host)
    (s : LocalState)
    {path : String}
    {dirs : List String}
    (hPath : path ∈ dirs) :
    Grows dirs s (syncCreateDir H s path) := by
  unfold syncCreateDir
  split
  · exact Grows.addDir hPath rfl rfl rfl
  · exact Grows.of_sameTracked (SameTracked.refl s)

theorem mem_getAllFiles_iff
    {s : LocalState}
    {info : FileInfo} :
    info ∈ getAllFiles s ↔
      ∃ path, s.fileMap.lookup path = some info := by
  unfold StateManager.getAllFiles
  rw [List.mem_map]
  constructor
  · rintro ⟨⟨path, other⟩, hEntry, rfl⟩
    exact ⟨path, AList.mem_lookup_iff.mpr hEntry⟩
  · rintro ⟨path, hLookup⟩
    exact ⟨⟨path, info⟩, AList.mem_lookup_iff.mp hLookup,
      rfl⟩

theorem NothingExtraUpToCase.grows
    {files : List FileInfo}
    {dirs : List String}
    {s s' : LocalState}
    (hNothing : NothingExtraUpToCase files dirs s)
    (hGrows : Grows dirs s s') :
    NothingExtraUpToCase files dirs s' where
  files info hInfo := by
    apply hNothing.files info
    unfold StateManager.getAllFiles at hInfo ⊢
    rwa [hGrows.fileMap] at hInfo
  dirs dir hDir := by
    rcases hGrows.dirMap dir hDir with hOld | hNew
    · exact hNothing.dirs dir hOld
    · exact hasKey_of_mem hNew

------------------------------------------------------------
-- The Deletions Of A Completion
------------------------------------------------------------

section Completion

variable
  {H : Host}
  {s : LocalState}

/-
  Files at different places are all removed, and none of
  them stays tracked.
-/
theorem fileMap_foldl_deleteFile
    (hRemoves : ∀ loc, H.removeFails loc = false)
    {paths : List String}
    (hFiles : ∀ path ∈ paths, ∃ file,
      s.disk.lookup (H.locate path) = some (.file file))
    (hApart : paths.Pairwise
      (fun p q => H.locate p ≠ H.locate q))
    {path : String}
    {info : FileInfo}
    (hLookup : (paths.foldl (deleteFile H) s).fileMap.lookup
      path = some info) :
    s.fileMap.lookup path = some info ∧ path ∉ paths := by
  induction paths generalizing s with
  | nil => exact ⟨hLookup, List.not_mem_nil⟩
  | cons first rest ih =>
      rcases hFiles first List.mem_cons_self with
        ⟨file, hFirst⟩
      rcases List.pairwise_cons.mp hApart with
        ⟨hFirstApart, hRestApart⟩
      have hRemove : Filesystem.remove H s.disk
          (H.locate first) =
            some (s.disk.erase (H.locate first)) := by
        unfold Filesystem.remove
        rw [hRemoves, if_neg Bool.false_ne_true]
        exact FileTree.remove_of_file hFirst
      have hStep : deleteFile H s first =
          (removePathFromMap first { s with
            disk := s.disk.erase (H.locate first) }).act
              (.removed first) := by
        unfold deleteFile
        rw [hRemove]
      have hLater : ∀ other ∈ rest, ∃ file,
          (deleteFile H s first).disk.lookup
              (H.locate other) = some (.file file) := by
        intro other hOther
        rcases hFiles other (List.mem_cons_of_mem _ hOther)
          with ⟨file, hFile⟩
        refine ⟨file, ?_⟩
        rw [hStep]
        change (s.disk.erase (H.locate first)).lookup _ = _
        rw [AList.lookup_erase_ne
          (Ne.symm (hFirstApart other hOther))]
        exact hFile
      rcases ih hLater hRestApart hLookup with
        ⟨hBefore, hNotRest⟩
      rw [hStep] at hBefore
      change (s.fileMap.erase first).lookup path =
        some info at hBefore
      have hOther : path ≠ first := by
        rintro rfl
        rw [AList.lookup_erase] at hBefore
        cases hBefore
      rw [AList.lookup_erase_ne hOther] at hBefore
      refine ⟨hBefore, ?_⟩
      rw [List.mem_cons, not_or]
      exact ⟨hOther, hNotRest⟩

theorem foldl_deleteFile_dirs
    (paths : List String)
    (s : LocalState) :
    (paths.foldl (deleteFile H) s).mode = s.mode ∧
      (paths.foldl (deleteFile H) s).dirMap = s.dirMap := by
  induction paths generalizing s with
  | nil => exact ⟨rfl, rfl⟩
  | cons path paths ih =>
      rw [List.foldl_cons, (ih _).1, (ih _).2]
      unfold deleteFile
      split
      · exact ⟨rfl, rfl⟩
      · exact ⟨rfl, rfl⟩

theorem hasKey_collectedDirs
    (dirs : List String)
    (path : String) :
    hasKey (collectedDirs dirs) path = hasKey dirs path := by
  rw [Bool.eq_iff_iff, ScanSafety.hasKey_eq_true_iff,
    ScanSafety.hasKey_eq_true_iff]
  unfold collectedDirs
  simp only [FloodSafety.mem_foldl_insert, List.not_mem_nil,
    or_false]

/- Without survivors a recursive removal succeeds. -/
theorem deleteTree_of_clears
    (hClears : ∀ top loc, H.survives top loc = false)
    (path : String) :
    (deleteTree H s path).fileMap = s.fileMap ∧
      (deleteTree H s path).dirMap =
        s.dirMap.filter (fun dir => dir != path) := by
  have hWorks : Filesystem.removeAllFails H s.disk
      (H.locate path) = false := by
    unfold Filesystem.removeAllFails Filesystem.survivor
    simp [hClears]
  unfold deleteTree
  dsimp only
  rw [hWorks, if_neg Bool.false_ne_true]
  exact ⟨rfl, rfl⟩

theorem dirMap_foldl_syncDeleteDir
    (hClears : ∀ top loc, H.survives top loc = false)
    (paths : List String) :
    let s' := paths.foldl (syncDeleteDir H .oneWay) s
    s'.fileMap = s.fileMap ∧
      ∀ dir ∈ s'.dirMap, dir ∈ s.dirMap ∧ dir ∉ paths := by
  intro s'
  induction paths generalizing s with
  | nil =>
      exact ⟨rfl, fun _ hDir => ⟨hDir, List.not_mem_nil⟩⟩
  | cons path paths ih =>
      have hFirst := deleteTree_of_clears (s := s) hClears
        path
      rcases ih (s := deleteTree H s path) with
        ⟨hMap, hDirs⟩
      refine ⟨hMap.trans hFirst.1, fun dir hDir => ?_⟩
      rcases hDirs dir hDir with ⟨hBefore, hNotRest⟩
      rw [hFirst.2, List.mem_filter] at hBefore
      refine ⟨hBefore.1, ?_⟩
      rw [List.mem_cons, not_or]
      exact ⟨by simpa using hBefore.2, hNotRest⟩

/- A scanned path leads to the file that the scan found. -/
theorem exists_file_of_scanned
    (hClean : NoDiskErrors H s)
    {path : String}
    (hPath : path ∈ (getAllFiles (scanDirectory H s)).map
      FileInfo.path) :
    H.relative (H.locate path) = path ∧
      ∃ file, s.disk.lookup (H.locate path) =
        some (.file file) := by
  rcases (mem_scannedFiles_iff hClean.walk path).mp hPath
    with ⟨loc, file, rfl, hVisits, -⟩
  have hFile : s.disk.lookup loc = some (.file file) :=
    lookup_of_visits hVisits
  have hLocate := hClean.resolves loc file hFile
    (inside_of_visits hVisits)
  rw [hLocate]
  exact ⟨rfl, file, hFile⟩

theorem ownPaths_scanned
    (hClean : NoDiskErrors H s) :
    OwnPaths (scanDirectory H s).fileMap := by
  unfold scanDirectory
  rw [hClean.walk, if_neg Bool.false_ne_true]
  apply ownPaths_foldl_insertInfo
  intro path info hLookup
  cases hLookup

/- No path is listed twice. -/
theorem nodup_scanned
    (hClean : NoDiskErrors H s) :
    ((getAllFiles (scanDirectory H s)).map
      FileInfo.path).Nodup := by
  have hKeys : (scanDirectory H s).fileMap.entries.map
      (FileInfo.path ∘ Sigma.snd) =
        (scanDirectory H s).fileMap.keys := by
    apply List.map_congr_left
    rintro ⟨path, info⟩ hEntry
    exact ownPaths_scanned hClean path info
      (AList.mem_lookup_iff.mpr hEntry)
  unfold StateManager.getAllFiles
  rw [List.map_map, hKeys]
  exact (scanDirectory H s).fileMap.keys_nodup

/- The files to delete are there, each at its own place. -/
theorem filesToDelete_apart
    (hClean : NoDiskErrors H s)
    (peerId : String)
    (files : List FileInfo) :
    let paths := (fileActions peerId files
      (scanDirectory H s)).filesToDelete
    (∀ path ∈ paths, ∃ file,
        s.disk.lookup (H.locate path) = some (.file file)) ∧
      paths.Pairwise
        (fun p q => H.locate p ≠ H.locate q) := by
  intro paths
  have hSublist : paths.Sublist
      ((getAllFiles (scanDirectory H s)).map
        FileInfo.path) :=
    List.filter_sublist.map FileInfo.path
  refine ⟨?_, ?_⟩
  · intro path hPath
    exact (exists_file_of_scanned hClean
      (hSublist.subset hPath)).2
  · apply ((nodup_scanned hClean).sublist
      hSublist).pairwise_of_forall_ne
    intro p hp q hq hDiffer hSame
    apply hDiffer
    rw [← (exists_file_of_scanned hClean
        (hSublist.subset hp)).1,
      ← (exists_file_of_scanned hClean
        (hSublist.subset hq)).1, hSame]

/-
  After a completion without disk errors nothing is tracked
  that the completion does not list.
-/
theorem nothingExtra_of_floodComplete
    (hMode : s.mode = .oneWay)
    (hClean : NoDiskErrors H s)
    (peerId : String)
    (files : List FileInfo)
    (dirs : List String) :
    NothingExtraUpToCase files dirs
      (runTask H peerId (.floodComplete files dirs) s) := by
  let scanned := scanDirectory H s
  let deleted := (fileActions peerId files scanned).filesToDelete
  let pruned := deleted.foldl (deleteFile H) scanned
  let cleared :=
    (sortByLength (dirActions dirs scanned).dirsToDelete).foldl
      (syncDeleteDir H .oneWay) pruned
  have hResult : runTask H peerId (.floodComplete files dirs)
      s = (dirActions dirs scanned).dirsToCreate.foldl
        (syncCreateDir H) cleared := by
    change syncDirectoryActions H _ s.mode _ = _
    rw [hMode]
    rfl
  have hGrows : Grows dirs cleared
      (runTask H peerId (.floodComplete files dirs) s) := by
    rw [hResult]
    apply Grows.foldl
    intro s path hPath
    exact grows_syncCreateDir H s
      (mem_dirsToCreate_iff.mp hPath).1
  rcases dirMap_foldl_syncDeleteDir (s := pruned)
    hClean.clears
    (sortByLength (dirActions dirs scanned).dirsToDelete)
    with ⟨hMap, hDirs⟩
  rcases filesToDelete_apart hClean peerId files with
    ⟨hFiles, hApart⟩
  apply NothingExtraUpToCase.grows ?_ hGrows
  refine ⟨?_, ?_⟩
  · intro info hInfo
    rcases mem_getAllFiles_iff.mp hInfo with ⟨path, hLookup⟩
    change cleared.fileMap = pruned.fileMap at hMap
    rw [hMap] at hLookup
    rcases fileMap_foldl_deleteFile (s := scanned)
      hClean.removes
      (by rwa [scanDirectory_disk]) hApart hLookup with
      ⟨hScanned, hKept⟩
    -- what is still tracked was not to be deleted
    by_contra hExtra
    apply hKept
    apply mem_filesToDelete_iff.mpr
    refine ⟨info, mem_getAllFiles_iff.mpr ⟨path, hScanned⟩,
      ?_, ownPaths_scanned hClean path info hScanned⟩
    rw [scanDirectory_mode, hMode]
    exact needsDelete_oneWay_iff.mpr
      (Bool.eq_false_iff.mpr hExtra)
  · intro dir hDir
    rcases hDirs dir hDir with ⟨hBefore, hKept⟩
    by_contra hExtra
    apply hKept
    rw [sortByLength, List.mem_insertionSort]
    refine mem_dirsToDelete_iff.mpr
      ⟨?_, Bool.eq_false_iff.mpr hExtra⟩
    change dir ∈ pruned.dirMap at hBefore
    rwa [(foldl_deleteFile_dirs deleted scanned).2]
      at hBefore

end Completion

------------------------------------------------------------
-- The Whole Flood
------------------------------------------------------------

theorem mode_foldl_deleteTree
    (H : Host)
    (paths : List String)
    (s : LocalState) :
    (paths.foldl (syncDeleteDir H .oneWay) s).mode =
      s.mode := by
  induction paths generalizing s with
  | nil => rfl
  | cons path paths ih =>
      rw [List.foldl_cons, ih]
      change (deleteTree H s path).mode = s.mode
      unfold deleteTree
      dsimp only
      split <;> rfl

theorem mode_floodComplete
    {H : Host}
    {s : LocalState}
    (hMode : s.mode = .oneWay)
    (peerId : String)
    (files : List FileInfo)
    (dirs : List String) :
    (runTask H peerId (.floodComplete files dirs) s).mode =
      .oneWay := by
  have hGrows (start : LocalState) : Grows dirs start
      ((dirActions dirs (scanDirectory H s)).dirsToCreate.foldl
        (syncCreateDir H) start) :=
    Grows.foldl
      (fun s _ hPath => grows_syncCreateDir H s
        (mem_dirsToCreate_iff.mp hPath).1) start
  change (syncDirectoryActions H _ s.mode _).mode = _
  rw [hMode]
  unfold syncDirectoryActions
  rw [(hGrows _).mode, mode_foldl_deleteTree,
    (foldl_deleteFile_dirs _ _).1, scanDirectory_mode, hMode]

/-
  Along the tasks of a flood: from the completion on,
  nothing extra is tracked.
-/
theorem nothingExtra_of_tasks
    {H : Host}
    (peerId : String)
    {files : List FileInfo}
    {dirs : List String}
    {tasks : List Task}
    {s : LocalState}
    (hTasks : ∀ task ∈ tasks, task ∈ floodTasks files dirs)
    (hMode : s.mode = .oneWay)
    (hClean : ∀ first files' dirs' rest,
      tasks = first ++ .floodComplete files' dirs' :: rest →
        NoDiskErrors H (runTasks H peerId first s)) :
    (runTasks H peerId tasks s).mode = .oneWay ∧
      (.floodComplete files (collectedDirs dirs) ∈ tasks →
        NothingExtraUpToCase files dirs
          (runTasks H peerId tasks s)) := by
  induction tasks using List.reverseRecOn with
  | nil => exact ⟨hMode, fun hNever => by cases hNever⟩
  | append_singleton earlier task ih =>
      rcases ih
        (fun other hMem =>
          hTasks other (List.mem_append_left _ hMem))
        (fun first files' dirs' rest hSplit =>
          hClean first files' dirs' (rest ++ [task])
            (by simp [hSplit])) with ⟨hBefore, hNothing⟩
      have hRun : runTasks H peerId (earlier ++ [task]) s =
          runTask H peerId task
            (runTasks H peerId earlier s) := by
        unfold runTasks
        rw [List.foldl_append]
        rfl
      have hTask := hTasks task
        (List.mem_append_right _ (List.mem_singleton.mpr rfl))
      rw [hRun]
      rcases floodTask_cases hTask with
        ⟨batch, rfl⟩ | rfl | rfl
      · have hGrows : Grows dirs _ _ := Grows.of_sameTracked
          (sameTracked_updateBatch H peerId batch
            (runTasks H peerId earlier s))
        refine ⟨hGrows.mode.trans hBefore, fun hMem => ?_⟩
        apply (hNothing ?_).grows hGrows
        simpa using hMem
      · have hGrows := grows_dirBatch H dirs
          (runTasks H peerId earlier s)
        refine ⟨hGrows.mode.trans hBefore, fun hMem => ?_⟩
        apply (hNothing ?_).grows hGrows
        simpa using hMem
      · refine ⟨mode_floodComplete hBefore peerId files _,
          fun _ => ?_⟩
        have hDone := nothingExtra_of_floodComplete hBefore
          (hClean earlier files (collectedDirs dirs) [] rfl)
          peerId files (collectedDirs dirs)
        refine ⟨hDone.files, fun dir hDir => ?_⟩
        rw [← hasKey_collectedDirs]
        exact hDone.dirs dir hDir

/-
  A flood of a non-empty snapshot whose completion meets no
  disk error leaves nothing extra, whatever the order in
  which the worker pool runs its tasks.
-/
theorem nothingExtraUpToCase_of_flood
    {H : Host}
    (peerId : String)
    {sessionId : ℕ}
    {files : List FileInfo}
    {dirs : List String}
    {start : PeerSession}
    (hSome : files ≠ [] ∨ dirs ≠ [])
    (hNamed : ∀ info ∈ files, info.path ≠ "")
    (hNonzero : sessionId ≠ 0)
    (hReceives : canReceive start.role start.mode = true)
    (hAccepted : start.sessionId = 0 ∨
      start.offerSide = false)
    {tasks : List Task}
    (hTasks : tasks.Perm
      (postedTasks sessionId files dirs start))
    {s : LocalState}
    (hMode : s.mode = .oneWay)
    (hClean : ∀ first files' dirs' rest,
      tasks = first ++ .floodComplete files' dirs' :: rest →
        NoDiskErrors H (runTasks H peerId first s)) :
    NothingExtraUpToCase files dirs
      (runTasks H peerId tasks s) := by
  rw [postedTasks_of_nonempty hSome hNamed hNonzero
    hReceives hAccepted] at hTasks
  apply (nothingExtra_of_tasks peerId
    (fun task hMem => hTasks.mem_iff.mp hMem) hMode
    hClean).2
  apply hTasks.mem_iff.mpr
  exact List.mem_append_right _ (List.mem_singleton.mpr rfl)

/- An empty snapshot is not flooded, and changes nothing. -/
theorem nothingExtra_of_empty_snapshot_iff
    (H : Host)
    (peerId : String)
    (sessionId : ℕ)
    (start : PeerSession)
    (s : LocalState) :
    NothingExtra [] []
        (runTasks H peerId
          (postedTasks sessionId [] [] start) s) ↔
      getAllFiles s = [] ∧ getLocalDirectories s = [] := by
  rw [postedTasks_nil]
  constructor
  · rintro ⟨hFiles, hDirs⟩
    exact ⟨List.eq_nil_iff_forall_not_mem.mpr
        (fun info hInfo => List.not_mem_nil
          (hFiles info hInfo)),
      List.eq_nil_iff_forall_not_mem.mpr
        (fun dir hDir => List.not_mem_nil (hDirs dir hDir))⟩
  · rintro ⟨hFiles, hDirs⟩
    refine ⟨fun info hInfo => ?_, fun dir hDir => ?_⟩
    · change info ∈ getAllFiles s at hInfo
      rw [hFiles] at hInfo
      cases hInfo
    · change dir ∈ getLocalDirectories s at hDir
      rw [hDirs] at hDir
      cases hDir

section Example

/- A one-way destination with one file of its own. -/
def withFile (path : String) : LocalState :=
  LocalState.userWrites Host.plain path [98]
    emptyDestination

/- A plain host meets no disk errors on a given disk. -/
theorem noDiskErrors_plain
    {s : LocalState}
    (hPlaces : ∀ entry ∈ s.disk.entries,
      Host.plain.Inside entry.1 →
        Host.plain.locate (Host.plain.relative entry.1) =
          entry.1) :
    NoDiskErrors Host.plain s where
  walk := rfl
  removes _ := rfl
  clears _ _ := rfl
  resolves loc file hFile hInside :=
    hPlaces ⟨loc, .file file⟩ (AList.mem_lookup_iff.mp hFile)
      hInside

/- The completion is the last of the two tasks. -/
theorem split_letterTasks
    {first rest : List Task}
    {files : List FileInfo}
    {dirs : List String}
    (hSplit : letterTasks =
      first ++ .floodComplete files dirs :: rest) :
    first = [.updateBatch [announcedLetter]] := by
  have hTasks : letterTasks =
      [.updateBatch [announcedLetter],
        .floodComplete [announcedLetter] []] := rfl
  rw [hTasks] at hSplit
  cases first with
  | nil => cases hSplit
  | cons task first =>
      cases first with
      | nil =>
          cases hSplit
          rfl
      | cons other first =>
          simp at hSplit

theorem nothingExtra_of_extra_file :
    NothingExtraUpToCase [announcedLetter] []
      (runTasks Host.plain "p" letterTasks
        (withFile "x.txt")) := by
  apply nothingExtraUpToCase_of_flood "p"
    (Or.inl (List.cons_ne_nil _ _)) (by decide)
    Nat.one_ne_zero rfl (Or.inl rfl)
    (List.Perm.refl letterTasks) rfl
  intro first files dirs rest hSplit
  rw [split_letterTasks hSplit]
  exact noDiskErrors_plain (by decide)

/-
  A tracked file whose path differs from an announced one in
  case only stays, by the program's comparison of paths.
-/
theorem not_nothingExtra_of_other_case :
    ¬∀ (H : Host) (peerId : String) (sessionId : ℕ)
        (files : List FileInfo) (dirs : List String)
        (start : PeerSession) (tasks : List Task)
        (s : LocalState),
      (∀ info ∈ files, info.path ≠ "") →
        sessionId ≠ 0 →
        canReceive start.role start.mode = true →
        (start.sessionId = 0 ∨ start.offerSide = false) →
        tasks.Perm (postedTasks sessionId files dirs start) →
        s.mode = .oneWay →
        (∀ first files' dirs' rest,
          tasks = first ++
              .floodComplete files' dirs' :: rest →
            NoDiskErrors H (runTasks H peerId first s)) →
        NothingExtra files dirs
          (runTasks H peerId tasks s) := by
  intro hAlways
  have hNothing := hAlways Host.plain "p" 1
    [announcedLetter] [] freshDestination letterTasks
    (withFile "A.txt") (by decide) Nat.one_ne_zero rfl
    (Or.inl rfl) (List.Perm.refl _) rfl
    (by
      intro first files dirs rest hSplit
      rw [split_letterTasks hSplit]
      exact noDiskErrors_plain (by decide))
  have hStays : "A.txt" ∈ (getAllFiles (runTasks Host.plain
      "p" letterTasks (withFile "A.txt"))).map
        FileInfo.path := by
    decide
  rcases List.mem_map.mp hStays with ⟨info, hInfo, hPath⟩
  have hListed := hNothing.files info hInfo
  rw [hPath] at hListed
  revert hListed
  decide

end Example

end SyncHandler

end VeritasSync
