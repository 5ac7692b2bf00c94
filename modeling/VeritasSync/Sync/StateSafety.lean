import VeritasSync.Sync.SyncHandler

/-
  Local edits on the full-state path: which files the
  reconciliation with a `share_state` message requests, and
  what it does first with the files it will replace.

  Main declarations:
    * `SyncHandler.reconcile_actions`
    * `SyncHandler.NoLostEditInState`
    * `SyncHandler.noLostEditInState_iff`
-/

namespace VeritasSync

namespace SyncHandler

open LocalState StateManager SyncManager TransferManager

------------------------------------------------------------
-- The Effects Of A Reconciliation
------------------------------------------------------------

theorem deleteFile_emits
    (H : Host)
    (s : LocalState)
    (path : String) :
    Emits (fun action => action = .removed path) s
      (deleteFile H s path) := by
  unfold deleteFile
  split
  · exact Emits.of_append rfl rfl
  · exact Emits.of_actions_eq rfl

theorem deleteTree_emits
    (H : Host)
    (s : LocalState)
    (path : String) :
    Emits (fun action => action = .removedTree path) s
      (deleteTree H s path) := by
  have hActions : (deleteTree H s path).actions =
      s.actions ++ [.removedTree path] := by
    unfold deleteTree
    dsimp only
    split <;> rfl
  exact Emits.of_append hActions rfl

theorem syncDeleteDir_emits
    (H : Host)
    (mode : SyncMode)
    (s : LocalState)
    (path : String) :
    Emits (fun action => action = .removed path ∨
      mode = .oneWay ∧ action = .removedTree path) s
        (syncDeleteDir H mode s path) := by
  unfold syncDeleteDir
  split
  · exact (deleteTree_emits H s path).mono
      (fun _ hAction => Or.inr ⟨rfl, hAction⟩)
  · dsimp only
    split
    · exact Emits.of_append rfl (Or.inl rfl)
    · split
      · exact Emits.of_actions_eq rfl
      · exact Emits.of_actions_eq rfl

theorem syncCreateDir_emits
    (H : Host)
    (s : LocalState)
    (path : String) :
    Emits (fun action => action = .createdDirs path) s
      (syncCreateDir H s path) := by
  unfold syncCreateDir
  split
  · exact Emits.of_append rfl rfl
  · exact Emits.of_actions_eq rfl

/-
  The effects of deleting and creating: each entry of the
  action lists is removed or created as its list says, and a
  directory goes with its content in one-way mode only.
-/
def IsPruning
    (files : SyncActions)
    (dirs : DirSyncActions)
    (mode : SyncMode) : Action → Prop
| .removed path =>
    path ∈ files.filesToDelete ∨ path ∈ dirs.dirsToDelete
| .removedTree path =>
    mode = .oneWay ∧ path ∈ dirs.dirsToDelete
| .createdDirs path => path ∈ dirs.dirsToCreate
| .renamed _ _ => False
| .requested _ => False

theorem pruning_emits
    (H : Host)
    (files : SyncActions)
    (dirs : DirSyncActions)
    (mode : SyncMode)
    (s : LocalState) :
    Emits (IsPruning files dirs mode) s
      (syncDirectoryActions H dirs mode
        (files.filesToDelete.foldl (deleteFile H) s)) := by
  have hFiles : Emits (IsPruning files dirs mode) s
      (files.filesToDelete.foldl (deleteFile H) s) := by
    apply Emits.foldl
    intro s path hPath
    refine (deleteFile_emits H s path).mono ?_
    intro action hAction
    subst hAction
    exact Or.inl hPath
  refine hFiles.trans (Emits.trans (Emits.foldl _ ?_)
    (Emits.foldl _ ?_))
  · intro s path hPath
    rw [sortByLength, List.mem_insertionSort] at hPath
    refine (syncDeleteDir_emits H mode s path).mono ?_
    intro action hAction
    rcases hAction with hAction | ⟨hMode, hAction⟩
    · subst hAction
      exact Or.inr hPath
    · subst hAction
      exact ⟨hMode, hPath⟩
  · intro s path hPath
    refine (syncCreateDir_emits H s path).mono ?_
    intro action hAction
    subst hAction
    exact hPath

/- A request names the file it asks for. -/
theorem buildFileRequest_path
    (H : Host)
    (path peerId hash : String)
    (size : ℕ)
    (s : LocalState) :
    (buildFileRequest H path peerId hash size s).1.path =
      path := by
  unfold buildFileRequest
  dsimp only
  split <;> rfl

theorem buildFileRequest_actions
    (H : Host)
    (path peerId hash : String)
    (size : ℕ)
    (s : LocalState) :
    (buildFileRequest H path peerId hash size s).2.actions =
      s.actions := by
  have hChecked :=
    checkResumeEligibility_checked H path hash size s
  unfold buildFileRequest
  dsimp only
  split
  · exact hChecked.actions
  · rw [registerExpectedMetadata_actions, hChecked.actions]

/- Sending a request emits that request. -/
theorem requestFile_actions
    (H : Host)
    (peerId : String)
    (s : LocalState)
    (remoteInfo : FileInfo) :
    ∃ request : FileRequest,
      request.path = remoteInfo.path ∧
        (requestFile H peerId s remoteInfo).actions =
          s.actions ++ [.requested request] := by
  refine ⟨_, buildFileRequest_path H remoteInfo.path peerId
    remoteInfo.hash remoteInfo.size s, ?_⟩
  unfold requestFile
  rw [act, buildFileRequest_actions]

/- The requests go out in order, one for each file. -/
theorem paceAndSendFiles_actions
    (H : Host)
    (peerId : String)
    (files : List FileInfo)
    (s : LocalState) :
    ∃ requests : List FileRequest,
      requests.map FileRequest.path =
          files.map FileInfo.path ∧
        (paceAndSendFiles H peerId files s).actions =
          s.actions ++ requests.map .requested := by
  unfold paceAndSendFiles
  induction files generalizing s with
  | nil => exact ⟨[], rfl, by simp⟩
  | cons file files ih =>
      rcases requestFile_actions H peerId s file with
        ⟨request, hPath, hActions⟩
      rcases ih (requestFile H peerId s file) with
        ⟨requests, hPaths, hRest⟩
      refine ⟨request :: requests, ?_, ?_⟩
      · simp [hPath, hPaths]
      · rw [List.foldl_cons, hRest, hActions]
        simp

theorem requestInfo_path
    (remoteFiles : List FileInfo)
    (path : String) :
    (requestInfo remoteFiles path).path = path := by
  unfold requestInfo
  split
  next info hFind => simpa using List.find?_some hFind
  next => rfl

/-
  A reconciliation first deletes and creates, then sends the
  requests that the comparison lists.  It renames nothing.
-/
theorem reconcile_actions
    (H : Host)
    (peerId : String)
    (remoteFiles : List FileInfo)
    (remoteDirs : List String)
    (s : LocalState) :
    ∃ (pruning : List Action) (requests : List FileRequest),
      (∀ action ∈ pruning, IsPruning
        (fileActions peerId remoteFiles (scanDirectory H s))
        (dirActions remoteDirs (scanDirectory H s)) s.mode
          action) ∧
      requests.map FileRequest.path =
        (fileActions peerId remoteFiles
          (scanDirectory H s)).filesToRequest ∧
      LocalState.newActions s
          (reconcileWithRemoteState H peerId remoteFiles
            remoteDirs true s) =
        pruning ++ requests.map .requested := by
  have hPruning := pruning_emits H
    (fileActions peerId remoteFiles (scanDirectory H s))
    (dirActions remoteDirs (scanDirectory H s)) s.mode
    (scanDirectory H s)
  rcases hPruning with ⟨pruning, hActions, hAll⟩
  rcases paceAndSendFiles_actions H peerId
    ((fileActions peerId remoteFiles
      (scanDirectory H s)).filesToRequest.map
        (requestInfo remoteFiles)) _ with
    ⟨requests, hPaths, hSent⟩
  refine ⟨pruning, requests, hAll, ?_, ?_⟩
  · rw [hPaths, List.map_map]
    simp [Function.comp_def, requestInfo_path]
  · unfold LocalState.newActions reconcileWithRemoteState
      sendFileRequests
    dsimp only
    rw [if_pos rfl, hSent, hActions, scanDirectory_actions,
      List.append_assoc, List.drop_left]

------------------------------------------------------------
-- When No Edit Is Lost
------------------------------------------------------------

/-
  Every requested file whose local content is neither the
  announced one nor the recorded one was renamed before its
  request was sent.
-/
def NoLostEditInState
    (H : Host)
    (peerId : String)
    (remoteFiles : List FileInfo)
    (remoteDirs : List String)
    (s : LocalState) : Prop :=
  let s' := runTask H peerId
    (.shareState remoteFiles remoteDirs) s
  ∀ before request after,
    LocalState.newActions s s' =
        before ++ .requested request :: after →
      ∀ remote ∈ remoteFiles, remote.path = request.path →
        ∀ file,
          s.disk.lookup (H.locate request.path) =
              some (.file file) →
            H.digest.hash file.content ≠ remote.hash →
            ¬MatchesBase H s peerId request.path
              file.content →
            ∃ copy, .renamed request.path copy ∈ before

/-
  The file at an announced path was edited: it is neither
  the announced one nor the recorded one.
-/
def Edited
    (H : Host)
    (peerId : String)
    (remote : FileInfo)
    (s : LocalState) : Prop :=
  ∃ file,
    s.disk.lookup (H.locate remote.path) =
        some (.file file) ∧
      H.digest.hash file.content ≠ remote.hash ∧
      ¬MatchesBase H s peerId remote.path file.content

/-
  No edit is lost exactly when, for every edited file, the
  scanned list already has each digest announced for its
  path, so that the file is not requested at all.
-/
theorem noLostEditInState_iff
    (H : Host)
    (peerId : String)
    (remoteFiles : List FileInfo)
    (remoteDirs : List String)
    (s : LocalState) :
    NoLostEditInState H peerId remoteFiles remoteDirs s ↔
      ∀ remote ∈ remoteFiles, Edited H peerId remote s →
        ∀ announced ∈ remoteFiles,
          announced.path = remote.path →
            localFileHash (getAllFiles (scanDirectory H s))
              announced.path = some announced.hash := by
  rcases reconcile_actions H peerId remoteFiles remoteDirs
    s with ⟨pruning, requests, hPruning, hPaths, hActions⟩
  have hRequested : ∀ path,
      path ∈ requests.map FileRequest.path ↔
        ∃ announced ∈ remoteFiles,
          localFileHash (getAllFiles (scanDirectory H s))
            announced.path ≠ some announced.hash ∧
          announced.path = path := by
    intro path
    rw [hPaths]
    exact mem_filesToRequest_iff
  constructor
  · intro hSafe remote hRemote hEdited announced hAnnounced
      hPath
    rcases hEdited with ⟨file, hFile, hDiffers, hBase⟩
    by_contra hStale
    have hMem : remote.path ∈
        requests.map FileRequest.path :=
      (hRequested _).mpr
        ⟨announced, hAnnounced, hStale, hPath⟩
    rcases List.mem_map.mp hMem with
      ⟨request, hRequest, hRequestPath⟩
    rcases List.append_of_mem
      (List.mem_map_of_mem (f := Action.requested) hRequest)
      with ⟨sent, rest, hSplit⟩
    rw [← hRequestPath] at hFile hBase
    -- nothing before this request is a rename
    rcases hSafe (pruning ++ sent) request rest
      (by rw [runTask, hActions, hSplit, List.append_assoc])
      remote hRemote hRequestPath.symm file hFile hDiffers
      hBase with ⟨copy, hCopy⟩
    rcases List.mem_append.mp hCopy with hCopy | hCopy
    · exact hPruning _ hCopy
    · have hAll : Action.renamed request.path copy ∈
          requests.map Action.requested := by
        rw [hSplit]
        exact List.mem_append_left _ hCopy
      simp at hAll
  · intro hKnown before request after hSplit remote hRemote
      hPath file hFile hDiffers hBase
    exfalso
    have hMem : Action.requested request ∈
        pruning ++ requests.map Action.requested := by
      rw [← hActions]
      exact hSplit ▸
        List.mem_append_right _ List.mem_cons_self
    rcases List.mem_append.mp hMem with hMem | hMem
    · exact hPruning _ hMem
    rcases List.mem_map.mp hMem with
      ⟨request', hRequest, hEq⟩
    cases hEq
    rcases (hRequested _).mp
      (List.mem_map_of_mem (f := FileRequest.path) hRequest)
      with ⟨announced, hAnnounced, hStale, hAnnouncedPath⟩
    rw [← hPath] at hFile hBase hAnnouncedPath
    exact hStale (hKnown remote hRemote
      ⟨file, hFile, hDiffers, hBase⟩ announced hAnnounced
      hAnnouncedPath)

/-
  A file written here and announced with another content is
  requested at once, although the comparison lists it for a
  conflict rename.
-/
theorem not_noLostEditInState_on_conflict :
    ¬NoLostEditInState Host.plain "peer"
      [⟨"a.txt", Digest.sampleHash [98], 1, 1⟩] []
      ((LocalState.empty Host.plain .destination
        .biDirectional).userWrites Host.plain "a.txt"
          [97]) := by
  intro hSafe
  rcases hSafe [] ⟨"a.txt", none⟩ [] (by decide)
    ⟨"a.txt", Digest.sampleHash [98], 1, 1⟩ (by simp) rfl
    ⟨[97], 0⟩ (by decide) (by decide)
    (by simp [MatchesBase, LocalState.empty,
      LocalState.userWrites]) with ⟨copy, hMem⟩
  cases hMem

end SyncHandler

end VeritasSync
