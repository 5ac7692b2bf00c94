import VeritasSync.Storage.LinkedScan
import VeritasSync.Sync.Confinement
import VeritasSync.Sync.SyncSession
import VeritasSync.Sync.Upload
import VeritasSync.Sync.UpdateDecision

/-
  Which messages of a peer reach outside the sync root: the
  routes that check every path, and the three that do not.

  A reconciliation deletes what its scan recorded, whatever
  scan that was.  One that comes upon a symbolic link records
  a path outside the root for it.

  Main declarations:
    * `SyncHandler.reconcileScanned`,
      `SyncHandler.runTaskScanned`
    * `SyncHandler.ReconcileInside`
    * `SyncHandler.AsidesInside`
    * `SyncHandler.TaskPathsInside`
    * `SyncHandler.confined_iff_pathsInside`
-/

namespace VeritasSync

open LocalState PathUtils StateManager

namespace SyncHandler

open SyncManager TransferManager

section Announced

variable
  {H : Host}
  {s : LocalState}

------------------------------------------------------------
-- Directories Announced By The Peer
------------------------------------------------------------

/- A place outside the root cannot be created. -/
def CannotCreate
    (H : Host)
    (s : LocalState)
    (dir : String) : Prop :=
  ¬H.Inside (H.locate dir) →
    Filesystem.createDirectories H s.disk (H.locate dir) =
      none

theorem CannotCreate.congr
    {s' : LocalState}
    {dir : String}
    (hStep : Confined H s s') :
    CannotCreate H s' dir ↔ CannotCreate H s dir := by
  apply imp_congr_right
  intro hOutside
  apply Filesystem.createDirectories_eq_none_congr
  intro key hAbove
  exact hStep.disk key (not_inside_of_above hOutside hAbove)

theorem emits_syncCreateDir_iff (dir : String) :
    Emits (PlacesInside H) s (syncCreateDir H s dir) ↔
      CannotCreate H s dir := by
  unfold syncCreateDir CannotCreate
  cases hCreate : Filesystem.createDirectories H s.disk
      (H.locate dir) with
  | none => simp [Emits.of_actions_eq]
  | some disk =>
      simp only [reduceCtorEq, imp_false, not_not]
      change Emits (PlacesInside H) s
        ((addDirToMap dir { s with disk := disk }).act
          (.createdDirs dir)) ↔
            PlacesInside H (.createdDirs dir)
      exact emits_append_iff rfl

theorem confined_syncCreateDir
    (hStanding : Standing H s)
    {dir : String}
    (hCannot : CannotCreate H s dir) :
    Confined H s (syncCreateDir H s dir) := by
  unfold syncCreateDir
  cases hCreate : Filesystem.createDirectories H s.disk
      (H.locate dir) with
  | none => exact Confined.refl s
  | some disk =>
      have hInside : H.Inside (H.locate dir) := by
        by_contra hOutside
        rw [hCannot hOutside] at hCreate
        cases hCreate
      exact confined_createdDirs hStanding hInside hCreate

theorem appends_foldl_syncCreateDir
    (dirs : List String)
    (s : LocalState) :
    Emits (fun _ => True) s
      (dirs.foldl (syncCreateDir H) s) :=
  Emits.foldl s (fun s dir _ =>
    (syncCreateDir_emits H s dir).mono (fun _ _ => trivial))

theorem confined_foldl_syncCreateDir
    (hStanding : Standing H s)
    {dirs : List String}
    (hCannot : ∀ dir ∈ dirs, CannotCreate H s dir) :
    Confined H s (dirs.foldl (syncCreateDir H) s) := by
  induction dirs generalizing s with
  | nil => exact Confined.refl s
  | cons dir dirs ih =>
      have hStep := confined_syncCreateDir hStanding
        (hCannot dir List.mem_cons_self)
      apply hStep.trans
      apply ih (hStep.standing hStanding)
      intro other hOther
      rw [CannotCreate.congr hStep]
      exact hCannot other (List.mem_cons_of_mem _ hOther)

/- The effects show that nothing outside was created. -/
theorem cannotCreate_of_emits
    (hStanding : Standing H s)
    {dirs : List String}
    (hPlaces : Emits (PlacesInside H) s
      (dirs.foldl (syncCreateDir H) s)) :
    ∀ dir ∈ dirs, CannotCreate H s dir := by
  induction dirs generalizing s with
  | nil => simp
  | cons dir dirs ih =>
      have hAppends : Emits (fun _ => True) s
          (syncCreateDir H s dir) :=
        (syncCreateDir_emits H s dir).mono
          (fun _ _ => trivial)
      rcases (Emits.trans_iff hAppends
        (appends_foldl_syncCreateDir dirs _)).mp hPlaces
        with ⟨hNow, hThen⟩
      have hHead := (emits_syncCreateDir_iff dir).mp hNow
      have hStep := confined_syncCreateDir hStanding hHead
      have hTail := ih (hStep.standing hStanding) hThen
      simp only [CannotCreate.congr hStep] at hTail
      exact List.forall_mem_cons.mpr ⟨hHead, hTail⟩

------------------------------------------------------------
-- Files Announced By The Peer
------------------------------------------------------------

/-
  A file that is set aside, and the name it is kept under,
  lie inside the root.
-/
def AsideInside
    (H : Host)
    (peerId : String)
    (s : LocalState)
    (info : FileInfo) : Prop :=
  resumable H info.path info.hash info.size s =
      false →
    setsAside H peerId (checkedState H info s) info = true →
      PlacesInside H (asideAction H info)

/- Every entry, in the state in which it is processed. -/
def AsidesInside
    (H : Host)
    (peerId : String) :
    List FileInfo → LocalState → Prop
| [], _ => True
| info :: rest, s =>
    AsideInside H peerId s info ∧
      AsidesInside H peerId rest
        (processSingleFile H peerId info s).2

theorem processSingleFile_of_resumable
    (H : Host)
    (peerId : String)
    (info : FileInfo)
    {s : LocalState}
    (hResume : resumable H info.path
      info.hash info.size s = true) :
    (processSingleFile H peerId info s).2 = s := by
  rcases processSingleFile_cases H peerId info s with
    ⟨-, hResult⟩ | ⟨hFresh, -⟩
  · rw [hResult]
  · rw [hResume] at hFresh
    cases hFresh

/- Setting a file aside is all that can get out. -/
theorem confined_of_processed
    {peerId : String}
    {info : FileInfo}
    {s' : LocalState}
    (hProcessed : Processed H peerId info s s')
    (hInside : setsAside H peerId s info = true →
      PlacesInside H (asideAction H info)) :
    Confined H s s' := by
  have hActions := hProcessed.actions
  cases hAside : setsAside H peerId s info with
  | false =>
      apply Confined.of_eq (hProcessed.kept hAside)
      simpa [hAside] using hActions
  | true =>
      rcases hInside hAside with ⟨hPath, hTarget⟩
      refine ⟨fun loc hLoc => ?_, ?_⟩
      · apply hProcessed.disk
        · exact fun hBelow => hLoc (hPath.trans hBelow)
        · exact fun hBelow => hLoc (hTarget.trans hBelow)
      · rw [hAside] at hActions
        exact Emits.of_append hActions ⟨hPath, hTarget⟩

theorem processSingleFile_emits
    (peerId : String)
    (info : FileInfo)
    (s : LocalState) :
    Emits (fun _ => True) s
      (processSingleFile H peerId info s).2 := by
  cases hResume : resumable H info.path
      info.hash info.size s with
  | true =>
      rw [processSingleFile_of_resumable H peerId info hResume]
      exact Emits.of_actions_eq rfl
  | false =>
      have hProcessed :=
        (processSingleFile_of_fresh H peerId info hResume).2
      have hChecked :=
        checkResumeEligibility_checked H
          info.path info.hash info.size s
      have hActions := hProcessed.actions
      rw [checkedState, hChecked.actions] at hActions
      exact ⟨_, hActions, fun _ _ => trivial⟩

theorem processFiles_emits
    (peerId : String)
    (files : List FileInfo)
    (s : LocalState) :
    Emits (fun _ => True) s
      (processFiles H peerId files s).2 := by
  induction files generalizing s with
  | nil => exact Emits.of_actions_eq rfl
  | cons info files ih =>
      exact (processSingleFile_emits peerId info s).trans
        (ih (processSingleFile H peerId info s).2)

theorem confined_processSingleFile
    (hDownloads : DownloadsInside H s)
    {peerId : String}
    {info : FileInfo}
    (hInside : AsideInside H peerId s info) :
    let result := (processSingleFile H peerId info s).2
    Confined H s result ∧ DownloadsInside H result := by
  dsimp only
  cases hResume : resumable H info.path
      info.hash info.size s with
  | true =>
      rw [processSingleFile_of_resumable H peerId info hResume]
      exact ⟨Confined.refl s, hDownloads⟩
  | false =>
      have hProcessed :=
        (processSingleFile_of_fresh H peerId info hResume).2
      have hCheck := confined_checkResumeEligibility
        hDownloads info.path info.hash info.size
      refine ⟨hCheck.1.trans (confined_of_processed
        hProcessed (hInside hResume)), ?_⟩
      unfold DownloadsInside
      rw [hProcessed.receiving]
      exact hCheck.2

theorem asideInside_of_emits
    {peerId : String}
    {info : FileInfo}
    (hPlaces : Emits (PlacesInside H) s
      (processSingleFile H peerId info s).2) :
    AsideInside H peerId s info := by
  intro hResume hAside
  have hActions :=
    (processSingleFile_of_fresh H peerId info
      hResume).2.actions
  have hChecked :=
    checkResumeEligibility_checked H
      info.path info.hash info.size s
  rw [hAside, checkedState, hChecked.actions] at hActions
  exact (emits_append_iff hActions).mp hPlaces

theorem asidesInside_of_emits
    {peerId : String}
    {files : List FileInfo}
    (hPlaces : Emits (PlacesInside H) s
      (processFiles H peerId files s).2) :
    AsidesInside H peerId files s := by
  induction files generalizing s with
  | nil => trivial
  | cons info files ih =>
      rcases (Emits.trans_iff
        (processSingleFile_emits peerId info s)
        (processFiles_emits peerId files _)).mp hPlaces
        with ⟨hNow, hThen⟩
      exact ⟨asideInside_of_emits hNow, ih hThen⟩

theorem confined_processFiles
    (hDownloads : DownloadsInside H s)
    {peerId : String}
    {files : List FileInfo}
    (hInside : AsidesInside H peerId files s) :
    let result := (processFiles H peerId files s).2
    Confined H s result ∧ DownloadsInside H result := by
  induction files generalizing s with
  | nil => exact ⟨Confined.refl s, hDownloads⟩
  | cons info files ih =>
      have hNow :=
        confined_processSingleFile hDownloads hInside.1
      have hThen := ih hNow.2 hInside.2
      exact ⟨hNow.1.trans hThen.1, hThen.2⟩

/-
  An update batch is confined exactly when each file that is
  set aside lies inside.
-/
theorem confined_updateBatch_iff
    (hDownloads : DownloadsInside H s)
    (peerId : String)
    (files : List FileInfo) :
    Confined H s (updateBatch H peerId files s) ↔
      AsidesInside H peerId files s := by
  constructor
  · intro hBoth
    rcases paceAndSendFiles_actions H peerId
      (processFiles H peerId files s).1
      (processFiles H peerId files s).2 with
      ⟨requests, -, hActions⟩
    apply asidesInside_of_emits
    exact ((Emits.trans_iff (processFiles_emits peerId files s)
      ⟨_, hActions, fun _ _ => trivial⟩).mp
        hBoth.actions).1
  · intro hInside
    have hFiles := confined_processFiles hDownloads hInside
    exact hFiles.1.trans
      (confined_paceAndSendFiles hFiles.2 peerId _)

end Announced

------------------------------------------------------------
-- Reconciliations
------------------------------------------------------------

/- `reconcile_with_remote_state`, over the given scan. -/
def reconcileScanned
    (H : Host)
    (scan : Scan)
    (peerId : String)
    (remoteFiles : List FileInfo)
    (remoteDirs : List String)
    (sendFileReqs : Bool)
    (s : LocalState) : LocalState :=
  let scanned := scan.run s
  let files := fileActions peerId remoteFiles scanned
  let dirs := dirActions remoteDirs scanned
  let pruned := files.filesToDelete.foldl (deleteFile H)
    scanned
  let synced := syncDirectoryActions H dirs s.mode pruned
  if sendFileReqs then
    sendFileRequests H peerId files.filesToRequest
      remoteFiles synced
  else
    synced

/- A task whose reconciliation uses the given scan. -/
def runTaskScanned
    (H : Host)
    (scan : Scan)
    (peerId : String) :
    Task → LocalState → LocalState
| .shareState files dirs, s =>
    reconcileScanned H scan peerId files dirs true s
| .floodComplete files dirs, s =>
    reconcileScanned H scan peerId files dirs false s
| task, s => runTask H peerId task s

/- On a tree without links the tasks are those of before. -/
theorem runTaskScanned_plain
    (H : Host)
    (peerId : String)
    (task : Task)
    (s : LocalState) :
    runTaskScanned H (Scan.plain H) peerId task s =
      runTask H peerId task s := by
  cases task <;> rfl

/-
  What a task starts from: the directories above the root
  exist, and downloads are collected inside the root.
-/
structure Sound
    (H : Host)
    (s : LocalState) : Prop where
  standing : Standing H s
  downloads : DownloadsInside H s

/- A place outside the root cannot be removed. -/
def CannotRemove
    (H : Host)
    (s : LocalState)
    (path : String) : Prop :=
  ¬H.Inside (H.locate path) →
    Filesystem.remove H s.disk (H.locate path) = none

/-
  A directory lies inside the root when it goes with all its
  content, and otherwise may lie outside and stay.
-/
def DirSpared
    (H : Host)
    (mode : SyncMode)
    (s : LocalState)
    (dir : String) : Prop :=
  match mode with
  | .oneWay => H.Inside (H.locate dir)
  | .biDirectional => CannotRemove H s dir

/-
  What a reconciliation deletes lies inside the root or
  cannot be deleted, in the state that the deletions before
  it have left; and an announced directory that the scan did
  not record lies inside or cannot be created.
-/
structure ReconcileInside
    (H : Host)
    (scan : Scan)
    (peerId : String)
    (files : List FileInfo)
    (dirs : List String)
    (s : LocalState) : Prop where
  deletions : Transition.Meets (each (deleteFile H))
    (CannotRemove H) (scan.run s)
    (fileActions peerId files (scan.run s)).filesToDelete
  dirDeletions : Transition.Meets
    (each (syncDeleteDir H s.mode)) (DirSpared H s.mode)
    ((fileActions peerId files
      (scan.run s)).filesToDelete.foldl (deleteFile H)
        (scan.run s))
    (sortByLength (dirActions dirs
      (scan.run s)).dirsToDelete)
  newDirs : ∀ dir ∈ dirs,
    hasKey (getLocalDirectories (scan.run s)) dir = false →
      CannotCreate H s dir

section Reconcile

variable
  {H : Host}
  {s : LocalState}

theorem receiving_deleteFile
    (s : LocalState)
    (path : String) :
    (deleteFile H s path).receiving = s.receiving := by
  unfold deleteFile
  split <;> rfl

theorem receiving_syncDeleteDir
    (mode : SyncMode)
    (s : LocalState)
    (dir : String) :
    (syncDeleteDir H mode s dir).receiving = s.receiving := by
  unfold syncDeleteDir deleteTree
  dsimp only
  cases mode with
  | oneWay =>
      dsimp only
      split <;> rfl
  | biDirectional =>
      dsimp only
      split
      · rfl
      · split <;> rfl

theorem receiving_syncCreateDir
    (s : LocalState)
    (dir : String) :
    (syncCreateDir H s dir).receiving = s.receiving := by
  unfold syncCreateDir
  split <;> rfl

/- A loop that leaves the unfinished downloads alone. -/
theorem receiving_foldl
    {α : Type}
    {step : LocalState → α → LocalState}
    (hStep : ∀ s item, (step s item).receiving = s.receiving)
    (items : List α)
    (s : LocalState) :
    (items.foldl step s).receiving = s.receiving := by
  induction items generalizing s with
  | nil => rfl
  | cons item items ih =>
      rw [List.foldl_cons, ih, hStep]

------------------------------------------------------------
-- Deletions
------------------------------------------------------------

theorem appends_deleteFile
    (s : LocalState)
    (path : String) :
    Emits (fun _ => True) s (deleteFile H s path) :=
  (deleteFile_emits H s path).mono (fun _ _ => trivial)

theorem appends_syncDeleteDir
    (mode : SyncMode)
    (s : LocalState)
    (dir : String) :
    Emits (fun _ => True) s (syncDeleteDir H mode s dir) :=
  (syncDeleteDir_emits H mode s dir).mono
    (fun _ _ => trivial)

theorem appends_foldl_deleteFile
    (files : List String)
    (s : LocalState) :
    Emits (fun _ => True) s (files.foldl (deleteFile H) s) :=
  Emits.foldl s (fun s path _ => appends_deleteFile s path)

theorem appends_foldl_syncDeleteDir
    (mode : SyncMode)
    (dirs : List String)
    (s : LocalState) :
    Emits (fun _ => True) s
      (dirs.foldl (syncDeleteDir H mode) s) :=
  Emits.foldl s
    (fun s dir _ => appends_syncDeleteDir mode s dir)

theorem confined_of_cannotRemove
    {path : String}
    (hCannot : CannotRemove H s path) :
    Confined H s (deleteFile H s path) := by
  by_cases hInside : H.Inside (H.locate path)
  · exact confined_deleteFile hInside
  · unfold deleteFile
    rw [hCannot hInside]
    exact Confined.refl s

theorem cannotRemove_of_emits
    {path : String}
    (hPlaces : Emits (PlacesInside H) s
      (deleteFile H s path)) :
    CannotRemove H s path := by
  intro hOutside
  unfold deleteFile at hPlaces
  cases hRemove : Filesystem.remove H s.disk
      (H.locate path) with
  | none => rfl
  | some disk =>
      rw [hRemove] at hPlaces
      have hInside : PlacesInside H (.removed path) :=
        (emits_append_iff rfl).mp hPlaces
      exact absurd hInside hOutside

theorem confined_of_dirSpared
    {mode : SyncMode}
    {dir : String}
    (hSpared : DirSpared H mode s dir) :
    Confined H s (syncDeleteDir H mode s dir) := by
  cases mode with
  | oneWay => exact confined_syncDeleteDir hSpared .oneWay
  | biDirectional =>
      by_cases hInside : H.Inside (H.locate dir)
      · exact confined_syncDeleteDir hInside .biDirectional
      · unfold syncDeleteDir
        dsimp only
        rw [hSpared hInside]
        dsimp only
        split
        · exact Confined.refl s
        · exact Confined.of_eq rfl rfl

theorem dirSpared_of_emits
    {mode : SyncMode}
    {dir : String}
    (hPlaces : Emits (PlacesInside H) s
      (syncDeleteDir H mode s dir)) :
    DirSpared H mode s dir := by
  cases mode with
  | oneWay =>
      have hActions : (deleteTree H s dir).actions =
          s.actions ++ [.removedTree dir] := by
        unfold deleteTree
        dsimp only
        split <;> rfl
      exact (emits_append_iff hActions).mp hPlaces
  | biDirectional =>
      intro hOutside
      unfold syncDeleteDir at hPlaces
      dsimp only at hPlaces
      cases hRemove : Filesystem.remove H s.disk
          (H.locate dir) with
      | none => rfl
      | some disk =>
          rw [hRemove] at hPlaces
          have hInside : PlacesInside H (.removed dir) :=
            (emits_append_iff rfl).mp hPlaces
          exact absurd hInside hOutside

section Stages

variable
  {mode : SyncMode}
  {files doomed dirs : List String}

/- The deletions of a reconciliation, files first. -/
theorem confined_deletions
    (hFiles : Transition.Meets (each (deleteFile H))
      (CannotRemove H) s files)
    (hDirs : Transition.Meets (each (syncDeleteDir H mode))
      (DirSpared H mode) (files.foldl (deleteFile H) s)
        doomed) :
    Confined H s (doomed.foldl (syncDeleteDir H mode)
      (files.foldl (deleteFile H) s)) :=
  (Confined.foldl_of_meets
      (fun _ _ => confined_of_cannotRemove) hFiles).trans
    (Confined.foldl_of_meets
      (fun _ _ => confined_of_dirSpared) hDirs)

/- Effects inside show what each of the deletions met. -/
theorem deletions_of_emits
    (hPlaces : Emits (PlacesInside H) s
      (dirs.foldl (syncCreateDir H)
        (doomed.foldl (syncDeleteDir H mode)
          (files.foldl (deleteFile H) s)))) :
    Transition.Meets (each (deleteFile H)) (CannotRemove H) s
        files ∧
      Transition.Meets (each (syncDeleteDir H mode))
        (DirSpared H mode) (files.foldl (deleteFile H) s)
          doomed ∧
      Emits (PlacesInside H)
        (doomed.foldl (syncDeleteDir H mode)
          (files.foldl (deleteFile H) s))
        (dirs.foldl (syncCreateDir H)
          (doomed.foldl (syncDeleteDir H mode)
            (files.foldl (deleteFile H) s))) := by
  have hDirsAll := appends_foldl_syncDeleteDir (H := H) mode
    doomed (files.foldl (deleteFile H) s)
  have hMade := appends_foldl_syncCreateDir (H := H) dirs
    (doomed.foldl (syncDeleteDir H mode)
      (files.foldl (deleteFile H) s))
  rcases (Emits.trans_iff (appends_foldl_deleteFile files s)
    (hDirsAll.trans hMade)).mp hPlaces with ⟨hFiles, hAfter⟩
  rcases (Emits.trans_iff hDirsAll hMade).mp hAfter with
    ⟨hDirs, hCreated⟩
  refine ⟨?_, ?_, hCreated⟩
  · exact meets_of_emits appends_deleteFile
      (fun _ _ => cannotRemove_of_emits) hFiles
  · exact meets_of_emits (appends_syncDeleteDir mode)
      (fun _ _ => dirSpared_of_emits) hDirs

end Stages

/- Sending the requests only adds to the effects. -/
theorem emits_before_requests
    {s' : LocalState}
    {peerId : String}
    {paths : List String}
    {remoteFiles : List FileInfo}
    {sendFileReqs : Bool}
    (hAppends : Emits (fun _ => True) s s')
    (hPlaces : Emits (PlacesInside H) s
      (if sendFileReqs then
        sendFileRequests H peerId paths remoteFiles s'
      else
        s')) :
    Emits (PlacesInside H) s s' := by
  cases sendFileReqs with
  | false => exact hPlaces
  | true =>
      rcases paceAndSendFiles_actions H peerId
        (paths.map (requestInfo remoteFiles)) s' with
        ⟨requests, -, hActions⟩
      exact ((Emits.trans_iff hAppends
        ⟨_, hActions, fun _ _ => trivial⟩).mp hPlaces).1

/-
  A reconciliation is confined exactly when what it deletes
  and what it creates lies inside, or stays as it is.
-/
theorem confined_reconcile_iff
    (scan : Scan)
    (hSound : Sound H s)
    (peerId : String)
    (remoteFiles : List FileInfo)
    (remoteDirs : List String)
    (sendFileReqs : Bool) :
    Confined H s (reconcileScanned H scan peerId
        remoteFiles remoteDirs sendFileReqs s) ↔
      ReconcileInside H scan peerId remoteFiles remoteDirs
        s := by
  have hScan : Confined H s (scan.run s) :=
    Confined.of_eq (scan.disk s) (scan.actions s)
  let files := (fileActions peerId remoteFiles
    (scan.run s)).filesToDelete
  let deleted := files.foldl (deleteFile H) (scan.run s)
  let doomed := sortByLength (dirActions remoteDirs
    (scan.run s)).dirsToDelete
  let pruned := doomed.foldl (syncDeleteDir H s.mode) deleted
  let dirs := (dirActions remoteDirs
    (scan.run s)).dirsToCreate
  have hReceiving : pruned.receiving = s.receiving := by
    rw [receiving_foldl (receiving_syncDeleteDir s.mode),
      receiving_foldl receiving_deleteFile, scan.receiving]
  have hNew (hConfined : Confined H s pruned) :
      (∀ dir ∈ dirs, CannotCreate H pruned dir) ↔
        ∀ dir ∈ remoteDirs,
          hasKey (getLocalDirectories (scan.run s)) dir =
              false →
            CannotCreate H s dir := by
    change (∀ dir ∈ (compareDirStates _ _).dirsToCreate, _) ↔
      _
    simp only [mem_dirsToCreate_iff,
      CannotCreate.congr hConfined, and_imp]
  constructor
  · intro hConfined
    have hBefore : Emits (fun _ => True) s (scan.run s) :=
      hScan.actions.mono (fun _ _ => trivial)
    have hStages : Emits (fun _ => True) (scan.run s)
        (dirs.foldl (syncCreateDir H) pruned) :=
      (appends_foldl_deleteFile files _).trans
        ((appends_foldl_syncDeleteDir s.mode doomed _).trans
          (appends_foldl_syncCreateDir dirs _))
    have hAll : Emits (PlacesInside H) s
        (dirs.foldl (syncCreateDir H) pruned) :=
      emits_before_requests (hBefore.trans hStages)
        hConfined.actions
    have hAfter := ((Emits.trans_iff hBefore hStages).mp
      hAll).2
    rcases deletions_of_emits hAfter with
      ⟨hFiles, hDirs, hCreated⟩
    have hStep := hScan.trans
      (confined_deletions hFiles hDirs)
    exact ⟨hFiles, hDirs, (hNew hStep).mp
      (cannotCreate_of_emits
        (hStep.standing hSound.standing) hCreated)⟩
  · rintro ⟨hFiles, hDirs, hNewDirs⟩
    have hStep := hScan.trans
      (confined_deletions hFiles hDirs)
    have hMade := hStep.trans
      (confined_foldl_syncCreateDir
        (hStep.standing hSound.standing)
        ((hNew hStep).mpr hNewDirs))
    have hDownloads : DownloadsInside H
        (dirs.foldl (syncCreateDir H) pruned) := by
      unfold DownloadsInside
      rw [receiving_foldl receiving_syncCreateDir, hReceiving]
      exact hSound.downloads
    cases sendFileReqs with
    | false => exact hMade
    | true =>
        exact hMade.trans
          (confined_paceAndSendFiles hDownloads peerId _)

end Reconcile

/- A node without any files starts out sound. -/
theorem sound_empty
    (H : Host)
    (role : SyncRole)
    (mode : SyncMode) :
    Sound H (LocalState.empty H role mode) := by
  have hLookup : ∀ loc,
      (LocalState.empty H role mode).disk.lookup loc =
        if loc <+: H.root then some .dir else none := by
    intro loc
    have hCreate : FileTree.createDirectories
        (∅ : Disk) H.root =
          some (H.root.inits.foldl FileTree.insertDir ∅) := by
      simp [FileTree.createDirectories, FileTree.blocked]
    have hRoot :=
      FileTree.lookup_createDirectories hCreate loc
    simpa [LocalState.empty, hCreate] using hRoot
  refine ⟨?_, ?_⟩
  · intro loc hAbove _
    simp [hLookup, hAbove]
  · intro path entry hEntry
    cases hEntry

------------------------------------------------------------
-- Every Kind Of Message
------------------------------------------------------------

/-
  What the peer's paths and the scan must satisfy, task by
  task.  The other tasks check each path themselves.
-/
def TaskPathsInside
    (H : Host)
    (scan : Scan)
    (peerId : String) :
    Task → LocalState → Prop
| .shareState files dirs, s =>
    ReconcileInside H scan peerId files dirs s
| .floodComplete files dirs, s =>
    ReconcileInside H scan peerId files dirs s
| .updateBatch files, s => AsidesInside H peerId files s
| _, _ => True

theorem confined_runTask_iff
    {H : Host}
    {s : LocalState}
    (hNames : OrdinaryNames H)
    (scan : Scan)
    (hSound : Sound H s)
    (peerId : String)
    (task : Task) :
    Confined H s (runTaskScanned H scan peerId task s) ↔
      TaskPathsInside H scan peerId task s := by
  cases task with
  | shareState files dirs =>
      exact confined_reconcile_iff scan hSound peerId files
        dirs true
  | floodComplete files dirs =>
      exact confined_reconcile_iff scan hSound peerId files
        dirs false
  | updateBatch files =>
      exact confined_updateBatch_iff hSound.downloads peerId
        files
  | deleteBatch paths =>
      exact iff_of_true (confined_deleteBatch hNames paths)
        trivial
  | createDir path =>
      exact iff_of_true
        (confined_createDir hNames hSound.standing) trivial
  | deleteDir path =>
      exact iff_of_true (confined_deleteDir hNames) trivial
  | dirBatch creates deletes =>
      exact iff_of_true (confined_dirBatch hNames
        hSound.standing creates deletes) trivial

/- Serving a request only reads files. -/
theorem confined_serveRequest
    (H : Host)
    (chunkDataSize : ℕ)
    (peerId : String)
    (request : FileRequest)
    (s : LocalState) :
    Confined H s
      (serveRequest H chunkDataSize peerId request s) := by
  unfold serveRequest finishUpload
  split
  · exact Confined.refl s
  · split
    · exact Confined.refl s
    · exact Confined.of_eq rfl rfl

theorem ordinaryNames_plain : OrdinaryNames Host.plain := by
  apply ordinaryNames_of_linksStayInside
  · exact fun loc hInside => hInside
  · intro name hName
    have hRoot : name = "r" := by
      simpa [Host.plain] using hName
    subst hRoot
    refine ⟨by decide, ?_⟩
    intro c hChar
    have hLetter : c = 'r' := by simpa using hChar
    rw [hLetter]
    rfl

/- A link in the root leads to a file beside it. -/
def linkedHost : Host :=
  { Host.plain with
    follow := fun loc =>
      if loc = ["r", "l"] then ["outside.txt"] else loc }

end SyncHandler

------------------------------------------------------------
-- The Names Derived From A Path
------------------------------------------------------------

namespace TransferManager

/-
  A path is its parent's text and a last name without a
  separator.
-/
theorem exists_lastName (path : String) :
    ∃ base : List Char, '/' ∉ base ∧
      ((path.toList = base ∧
          Filesystem.parentText path = "") ∨
        ∃ above, path.toList = above ++ '/' :: base ∧
          (Filesystem.parentText path).toList =
            above ++ ['/']) := by
  have hParent : (Filesystem.parentText path).toList =
      (path.toList.reverse.dropWhile (· != '/')).reverse := by
    simp [Filesystem.parentText]
  have hSplit := List.takeWhile_append_dropWhile
    (p := (· != '/')) (l := path.toList.reverse)
  refine ⟨(path.toList.reverse.takeWhile
    (· != '/')).reverse, ?_, ?_⟩
  · intro hMem
    have hName := List.all_takeWhile
      (p := (· != '/')) (l := path.toList.reverse)
    rw [List.all_eq_true] at hName
    simpa using hName '/' (List.mem_reverse.mp hMem)
  · cases hRest : path.toList.reverse.dropWhile (· != '/') with
    | nil =>
        left
        rw [hRest, List.append_nil] at hSplit
        rw [hSplit, List.reverse_reverse]
        refine ⟨rfl, ?_⟩
        simp [Filesystem.parentText, hRest]
    | cons c rest =>
        right
        have hSlash : c = '/' := by
          have hHead := List.head?_dropWhile_not (· != '/')
            path.toList.reverse
          rw [hRest] at hHead
          simpa using hHead
        subst hSlash
        rw [hRest] at hSplit hParent
        refine ⟨rest.reverse, ?_, by simpa using hParent⟩
        calc path.toList = path.toList.reverse.reverse := by
              rw [List.reverse_reverse]
          _ = _ := by
              conv_lhs => rw [← hSplit]
              simp

/- Two dots are a name of the path as it is split. -/
theorem dots_mem_components_iff (path : String) :
    ".." ∈ components path ↔
      ['.', '.'] ∈ path.toList.splitOn '/' := by
  unfold components
  simp only [List.mem_map, List.mem_filter]
  constructor
  · rintro ⟨name, ⟨hMem, -⟩, hName⟩
    have hChars := congrArg String.toList hName
    rw [String.toList_ofList] at hChars
    rw [hChars] at hMem
    exact hMem
  · intro hMem
    exact ⟨_, ⟨hMem, rfl⟩, rfl⟩

theorem splitOn_lastName
    {base : List Char}
    (hBase : '/' ∉ base)
    (above : List Char) :
    (above ++ '/' :: base).splitOn '/' =
      above.splitOn '/' ++ [base] := by
  rw [List.splitOn_append_cons_self,
    List.splitOn_eq_singleton hBase]

theorem isPlain_tempPathOf
    {path : String}
    (hNonempty : path ≠ "")
    (hPlain : IsPlain path) :
    IsPlain (tempPathOf path) := by
  rcases hPlain with ⟨hRelative, hDots⟩
  have hText : (tempPathOf path).toList =
      path.toList ++ ".veritas_tmp".toList := by
    simp [tempPathOf]
  constructor
  · have hChars : path.toList ≠ [] := by simpa using hNonempty
    unfold isAbsolute at hRelative ⊢
    rw [hText, List.head?_append_of_ne_nil _ hChars]
    exact hRelative
  · rw [dots_mem_components_iff, hText]
    rw [dots_mem_components_iff] at hDots
    rcases exists_lastName path with ⟨base, hBase, hSplit⟩
    have hLast : '/' ∉ base ++ ".veritas_tmp".toList := by
      rw [List.mem_append, not_or]
      exact ⟨hBase, by decide⟩
    have hLong : ['.', '.'] ≠
        base ++ ".veritas_tmp".toList := by
      intro hEq
      have hLength := congrArg List.length hEq
      rw [List.length_append] at hLength
      have hSuffix : ".veritas_tmp".toList.length = 12 := by
        decide
      simp only [List.length_cons, List.length_nil] at hLength
      omega
    rcases hSplit with ⟨hPath, -⟩ | ⟨above, hPath, -⟩
    · rw [hPath, List.splitOn_eq_singleton hLast]
      simpa using hLong
    · rw [hPath, List.append_assoc, List.cons_append,
        splitOn_lastName hLast]
      rw [hPath, splitOn_lastName hBase] at hDots
      simp only [List.mem_append, List.mem_singleton,
        not_or] at hDots ⊢
      exact ⟨hDots.1, hLong⟩

theorem isPlain_parentText
    {path : String}
    (hPlain : IsPlain path) :
    IsPlain (Filesystem.parentText path) := by
  rcases hPlain with ⟨hRelative, hDots⟩
  rcases exists_lastName path with
    ⟨base, hBase, ⟨-, hParent⟩ | ⟨above, hPath, hParent⟩⟩
  · rw [hParent]
    decide
  · constructor
    · unfold isAbsolute at hRelative ⊢
      rw [hPath] at hRelative
      rw [hParent]
      cases above with
      | nil => simp at hRelative
      | cons c above => exact hRelative
    · rw [dots_mem_components_iff, hPath,
        splitOn_lastName hBase] at hDots
      rw [dots_mem_components_iff, hParent,
        splitOn_lastName (by simp)]
      simp only [List.mem_append, List.mem_singleton,
        not_or] at hDots ⊢
      exact ⟨hDots.1, by simp⟩

/-
  Where no link leads out of the root, the names derived
  from a checked path lie inside.
-/
theorem derivedInside_of_linksStayInside
    {H : Host}
    (hLinks : LinksStayInside H)
    {path : String}
    (hSafe : isPathSafe H path = true) :
    DerivedInside H path := by
  have hCanonical :=
    isPathSafeWithCanonicalRoot_of_isPathSafe hSafe
  have hPlain :=
    isPlain_of_isPathSafeWithCanonicalRoot hCanonical
  have hNonempty : path ≠ "" := by
    rintro rfl
    simp [isPathSafeWithCanonicalRoot] at hCanonical
  exact ⟨locate_inside_of_isPlain hLinks
      (isPlain_tempPathOf hNonempty hPlain),
    locate_inside_of_isPlain hLinks
      (isPlain_parentText hPlain)⟩

end TransferManager

end VeritasSync
