import VeritasSync.Sync.ChangeOrder

/-
  What each step of a task comes to at the paths that its
  change touches.  A step that adds another one comes to
  what that one does.

  Main declarations:
    * `ChangeOrder.unneeded_of_processSingleFile`
    * `ChangeOrder.effect_perform`
-/

namespace VeritasSync

open StateManager BroadcastManager TransferManager
open SyncHandler PathUtils

namespace ChangeOrder

variable
  {H : Host}
  {peerId path other : String}
  {info : FileInfo}
  {s s' : LocalState}

------------------------------------------------------------
-- Updates
------------------------------------------------------------

/- The check sends nothing and drops partial content only. -/
theorem requests_checkedState
    (H : Host)
    (info : FileInfo)
    (s : LocalState)
    (path : String) :
    (view H (checkedState H info s) path).requests =
      (view H s path).requests := by
  have hChecked := checkResumeEligibility_checked H
    info.path info.hash info.size s
  unfold view checkedState
  rw [hChecked.actions]

theorem node_checkedState :
    (view H (checkedState H info s) info.path).node =
        (view H s info.path).node ∨
      ∃ recv, s.receiving.lookup info.path = some recv ∧
        H.locate recv.tempPath = H.locate info.path := by
  have hChecked := checkResumeEligibility_checked H
    info.path info.hash info.size s
  unfold view checkedState
  rw [hChecked.disk]
  by_cases hTemp : discardedTemp H info.path info.hash
      info.size s = some (H.locate info.path)
  · right
    unfold discardedTemp at hTemp
    cases hEntry : s.receiving.lookup info.path with
    | none =>
        rw [hEntry] at hTemp
        cases hTemp
    | some recv =>
        rw [hEntry] at hTemp
        dsimp only at hTemp
        split at hTemp
        · exact ⟨recv, rfl, Option.some.inj hTemp⟩
        · cases hTemp
  · left
    exact lookup_dropTemp H s.disk _ _ hTemp

/- What the decision leaves alone when it asks for nothing. -/
theorem resolveConflict_of_ne_requestRemote
    (hEcho : shouldIgnoreEcho s peerId info.path info.hash =
      false)
    (hDecided : (resolveConflict H peerId info s).1 ≠
      .requestRemote) :
    (s.disk.lookup (H.locate info.path) ≠ none ∧
        knownEqual H info s = true ∨
      Stuck H peerId info s) ∧
    (resolveConflict H peerId info s).2.disk = s.disk ∧
    (resolveConflict H peerId info s).2.actions =
      s.actions := by
  rcases resolveConflict_cases H peerId info s with
    ⟨-, hEq⟩ | ⟨hSome, hEqual, hEq⟩ | ⟨-, -, -, hEq⟩ |
    ⟨-, -, hBase, -, hRemote, -⟩ |
    ⟨hSome, -, hBase, hLocal, hRemote, hEq⟩
  · exact absurd (congrArg Prod.fst hEq) hDecided
  · rw [hEq]
    exact ⟨Or.inl ⟨hSome, hEqual⟩, rfl, rfl⟩
  · exact absurd (congrArg Prod.fst hEq) hDecided
  · -- an announcement of the base is an echo
    rw [Bool.eq_false_iff, ne_eq,
      shouldIgnoreEcho_iff] at hEcho
    exact absurd ⟨hBase, hRemote.symm⟩ hEcho
  · rw [hEq] at hDecided ⊢
    cases hRename : Filesystem.rename H s.disk
        (H.locate info.path)
        (H.locate (conflictPath H info.path)) with
    | some disk =>
        rw [renameConflict_of_some hRename] at hDecided
        exact absurd rfl hDecided
    | none =>
        rw [renameConflict_of_none hRename]
        exact ⟨Or.inr ⟨hSome, hBase, hLocal, hRemote,
          hRename⟩, rfl, rfl⟩

/- A file that is not wanted need not be fetched. -/
theorem unneeded_of_processSingleFile
    (hNone : (processSingleFile H peerId info s).1 =
      none) :
    Unneeded H peerId info s ∧
      (processSingleFile H peerId info s).2.disk =
        (checkedState H info s).disk ∧
      (processSingleFile H peerId info s).2.actions =
        (checkedState H info s).actions := by
  unfold Unneeded
  unfold processSingleFile checkedState at *
  dsimp only at *
  cases hResume : (checkResumeEligibility H info.path
      info.hash info.size s).1 with
  | some resume =>
      rw [hResume] at hNone
      cases hNone
  | none =>
      rw [hResume] at hNone
      dsimp only at hNone ⊢
      generalize (checkResumeEligibility H info.path
        info.hash info.size s).2 = s' at hNone ⊢
      cases hEcho : shouldIgnoreEcho s' peerId info.path
          info.hash with
      | true => exact ⟨Or.inl rfl, rfl, rfl⟩
      | false =>
          rw [hEcho] at hNone
          simp only [Bool.false_eq_true, if_false]
            at hNone ⊢
          have hAlone := resolveConflict_of_ne_requestRemote
            (H := H) hEcho
          generalize resolveConflict H peerId info s' =
            decided at hNone hAlone ⊢
          rcases decided with ⟨_ | _ | _, s''⟩
          · cases hNone
          all_goals
            rcases hAlone (by simp) with
              ⟨hWhy, hDisk, hActions⟩
            exact ⟨Or.inr hWhy, hDisk, hActions⟩

theorem updated_process
    (hNone : (processSingleFile H peerId info s).1 =
      none) :
    Updated H peerId info s
      (view H (processSingleFile H peerId info s).2
        info.path) := by
  rcases unneeded_of_processSingleFile hNone with
    ⟨hUnneeded, hDisk, hActions⟩
  have hRequests :
      (view H (processSingleFile H peerId info s).2
          info.path).requests =
        (view H (checkedState H info s)
          info.path).requests := by
    unfold view
    rw [hActions]
  have hNode :
      (view H (processSingleFile H peerId info s).2
          info.path).node =
        (view H (checkedState H info s) info.path).node := by
    unfold view
    rw [hDisk]
  constructor
  · right
    exact ⟨hUnneeded,
      hRequests.trans (requests_checkedState H info s _)⟩
  · rw [hNode]
    exact node_checkedState

/- What is sent is a request for the path. -/
theorem requestFile_eq
    (H : Host)
    (peerId : String)
    (info : FileInfo)
    (s : LocalState) :
    ∃ (request : FileRequest) (s' : LocalState),
      requestFile H peerId s info =
        s'.act (.requested request) ∧
      request.path = info.path ∧
      s'.disk = (checkedState H info s).disk ∧
      s'.actions = (checkedState H info s).actions := by
  unfold requestFile buildFileRequest checkedState
  dsimp only
  split
  · exact ⟨_, _, rfl, rfl, rfl, rfl⟩
  · refine ⟨_, _, rfl, rfl, ?_, ?_⟩
    · exact registerExpectedMetadata_disk _ _ _ _ _
    · exact registerExpectedMetadata_actions _ _ _ _ _

theorem updated_request :
    Updated H peerId info s
      (view H (requestFile H peerId s info) info.path) := by
  rcases requestFile_eq H peerId info s with
    ⟨request, s', hEq, hPath, hDisk, hActions⟩
  have hNode : (view H (s'.act (.requested request))
      info.path).node =
        (view H (checkedState H info s) info.path).node := by
    change s'.disk.lookup _ = _
    rw [hDisk]
    rfl
  rw [hEq]
  constructor
  · left
    refine ⟨request, hPath, ?_⟩
    rw [← requests_checkedState H info s]
    unfold view LocalState.act
    dsimp only
    rw [List.filterMap_append, hActions]
    simp [requestsFor, hPath]
  · rw [hNode]
    exact node_checkedState

------------------------------------------------------------
-- Deletions And Creations
------------------------------------------------------------

/- Removing one node that nothing holds back. -/
theorem exists_remove
    {disk : Disk}
    {loc : Loc}
    (hAllowed : H.removeFails loc = false)
    (hChildless : FileTree.hasChild disk loc = false)
    (hSome : disk.lookup loc ≠ none) :
    ∃ disk', Filesystem.remove H disk loc = some disk' := by
  unfold Filesystem.remove FileTree.remove
  rw [hAllowed]
  cases hNode : disk.lookup loc with
  | none => exact absurd hNode hSome
  | some node =>
      cases node with
      | file file => exact ⟨_, rfl⟩
      | dir =>
          simp only [hChildless]
          exact ⟨_, rfl⟩

theorem whenResolved_of_permitted
    {act : LocalState → LocalState}
    (hPermitted : Permitted H other) :
    whenResolved H act s = act s := by
  unfold whenResolved
  rw [hPermitted.1]
  rfl

/- What is not done sends nothing. -/
theorem requests_whenResolved
    {act : LocalState → LocalState}
    (hAct : (view H (act s) path).requests =
      (view H s path).requests) :
    (view H (whenResolved H act s) path).requests =
      (view H s path).requests := by
  unfold whenResolved
  split
  · rfl
  · exact hAct

/- An action that is no request asks for nothing. -/
theorem requests_act
    {action : Action}
    (hQuiet : requestsFor path action = none) :
    (view H (s.act action) path).requests =
      (view H s path).requests := by
  unfold view LocalState.act
  dsimp only
  rw [List.filterMap_append,
    List.filterMap_cons_none hQuiet, List.filterMap_nil,
    List.append_nil]

theorem fileDeleted_deleteSafeFile
    (hTouches : H.locate other = H.locate path) :
    FileDeleted H other path s
      (view H
        (whenResolved H (deleteSafeFile H · other) s)
        path) := by
  have hAct : Removable H other s →
      whenResolved H (deleteSafeFile H · other) s =
        deleteFile H s other := by
    intro hRemovable
    rw [whenResolved_of_permitted hRemovable.permitted]
    exact if_pos hRemovable.permitted.2
  have hRemoved : Removable H other s →
      s.disk.lookup (H.locate path) ≠ none →
      ∃ disk, Filesystem.remove H s.disk (H.locate other) =
        some disk := by
    intro hRemovable hSome
    rw [← hTouches] at hSome
    exact exists_remove hRemovable.allowed
      hRemovable.childless hSome
  constructor
  · intro hRemovable
    rw [hAct hRemovable]
    unfold deleteFile
    cases hRemove : Filesystem.remove H s.disk
        (H.locate other) with
    | some disk =>
        change disk.lookup (H.locate path) = none
        rw [Filesystem.lookup_remove hRemove,
          if_pos hTouches.symm]
    | none =>
        change s.disk.lookup (H.locate path) = none
        by_contra hSome
        rcases hRemoved hRemovable hSome with ⟨disk, hDisk⟩
        rw [hRemove] at hDisk
        cases hDisk
  · intro hRemovable hSame hSome
    rcases hRemoved hRemovable hSome with ⟨disk, hDisk⟩
    rw [hAct hRemovable]
    unfold deleteFile
    rw [hDisk]
    change (s.fileMap.erase other).lookup path = none
    rw [hSame]
    exact AList.lookup_erase _ _
  · apply requests_whenResolved
    unfold deleteSafeFile deleteFile
    split
    · split
      · exact requests_act rfl
      · rfl
    · rfl

theorem dirCreated_createBatchDir
    (hTouches : H.locate path <+: H.locate other) :
    DirCreated H other path s
      (view H
        (whenResolved H (createBatchDir H · other) s)
        path) := by
  have hMade : Creatable H other s →
      ∃ disk,
        Filesystem.createDirectories H s.disk
          (H.locate other) = some disk ∧
        whenResolved H (createBatchDir H · other) s =
          (addDirToMap other { s with disk := disk }).act
            (.createdDirs other) := by
    intro hCreatable
    have hSome : ∃ disk, Filesystem.createDirectories H
        s.disk (H.locate other) = some disk := by
      unfold Filesystem.createDirectories
        FileTree.createDirectories
      rw [hCreatable.allowed, hCreatable.free]
      exact ⟨_, rfl⟩
    rcases hSome with ⟨disk, hDisk⟩
    refine ⟨disk, hDisk, ?_⟩
    rw [whenResolved_of_permitted hCreatable.permitted]
    unfold createBatchDir
    rw [if_pos hCreatable.permitted.2, hDisk]
  constructor
  · intro hCreatable
    rcases hMade hCreatable with ⟨disk, hDisk, hEq⟩
    rw [hEq]
    change disk.lookup (H.locate path) = some .dir
    rw [Filesystem.lookup_createDirectories hDisk]
    split
    · rfl
    next hOld =>
      -- no file is in the way of the directory
      have hFree := hCreatable.free
      unfold FileTree.blocked at hFree
      rw [List.any_eq_false] at hFree
      have hNode := hFree (H.locate path)
        (List.mem_inits _ _ |>.mpr hTouches)
      cases hAt : s.disk.lookup (H.locate path) with
      | none => exact absurd ⟨hTouches, hAt⟩ hOld
      | some node =>
          cases node with
          | dir => rfl
          | file file =>
              rw [hAt] at hNode
              exact absurd rfl hNode
  · intro hCreatable hSame
    rcases hMade hCreatable with ⟨disk, -, hEq⟩
    rw [hEq, hSame]
    change (s.dirMap.insert other).contains other = true
    rw [List.contains_iff_mem]
    exact List.mem_insert_self
  · apply requests_whenResolved
    unfold createBatchDir
    dsimp only
    split
    · split
      · exact requests_act rfl
      · split <;> rfl
    · rfl

theorem dirDeleted_deleteSafeTree
    (hTouches : H.locate other <+: H.locate path) :
    DirDeleted H other path s
      (view H
        (whenResolved H (deleteSafeTree H · other) s)
        path) := by
  have hAct : Permitted H other →
      whenResolved H (deleteSafeTree H · other) s =
        deleteTree H s other := by
    intro hPermitted
    rw [whenResolved_of_permitted hPermitted]
    exact if_pos hPermitted.2
  have hNode : (view H (deleteTree H s other) path).node =
      (Filesystem.removeAll H s.disk
        (H.locate other)).lookup (H.locate path) := by
    unfold deleteTree
    dsimp only
    split <;> rfl
  constructor
  · intro hPermitted hGoes
    rw [hAct hPermitted, hNode,
      Filesystem.lookup_removeAll,
      if_pos ⟨hTouches, hGoes⟩]
  · intro hPermitted hDone hSame
    rw [hAct hPermitted, hSame]
    unfold deleteTree
    dsimp only
    rw [hDone]
    change (s.dirMap.filter (fun dir =>
      dir != other)).contains other = false
    simp
  · apply requests_whenResolved
    unfold deleteSafeTree deleteTree
    dsimp only
    split
    · refine (requests_act rfl).trans ?_
      split <;> rfl
    · rfl

------------------------------------------------------------
-- Every Step
------------------------------------------------------------

/- A step that adds no other has the effect of its change. -/
theorem effect_perform
    {begun : AList (fun _ : String => ReceivingFile)}
    {op : Op}
    (hTouches : Touches H begun op.change path)
    (hLast : (perform H peerId op s).1 = []) :
    Effect H peerId op.change path s
      (view H (perform H peerId op s).2 path) := by
  cases op with
  | process info =>
      intro hPath
      subst hPath
      apply updated_process
      cases hWanted : (processSingleFile H peerId info
          s).1 with
      | none => rfl
      | some wanted =>
          have hAdded : (processSingleFile H peerId info
              s).1.toList.map Op.request = [] := hLast
          rw [hWanted] at hAdded
          cases hAdded
  | request info =>
      intro hPath
      subst hPath
      exact updated_request
  | deleteFile other =>
      exact fileDeleted_deleteSafeFile hTouches
  | createDir other =>
      exact dirCreated_createBatchDir hTouches
  | deleteTree other =>
      exact dirDeleted_deleteSafeTree hTouches

end ChangeOrder

end VeritasSync
