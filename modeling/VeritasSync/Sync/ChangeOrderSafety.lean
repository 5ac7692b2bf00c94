import VeritasSync.Sync.ChangeEffects
import VeritasSync.Sync.ChangeLine

/-
  When each worker pool keeps the order of tasks that touch
  a path in common, the last change of every path wins.

  Main declarations:
    * `ChangeOrder.view_perform`
    * `ChangeOrder.Sound`
    * `ChangeOrder.lastChangeWins_of_run`
-/

namespace VeritasSync

open StateManager BroadcastManager TransferManager
open SyncHandler PathUtils

namespace ChangeOrder

------------------------------------------------------------
-- What A Step Leaves Alone
------------------------------------------------------------

/-
  A receiver whose downloads with progress are those that
  had been begun.
-/
structure Receives
    (begun : AList (fun _ : String => ReceivingFile))
    (s : LocalState) : Prop where
  role : s.role = .destination
  begun : ∀ path recv,
    s.receiving.lookup path = some recv →
    hasProgress recv = true →
    ∃ recv', begun.lookup path = some recv' ∧
      recv'.tempPath = recv.tempPath

section Frame

variable
  {H : Host}
  {begun : AList (fun _ : String => ReceivingFile)}
  {peerId path : String}
  {info : FileInfo}
  {s s' : LocalState}

theorem view_congr
    (hNode : s'.disk.lookup (H.locate path) =
      s.disk.lookup (H.locate path))
    (hMap : s'.fileMap.lookup path =
      s.fileMap.lookup path)
    (hDirs : s'.dirMap.contains path =
      s.dirMap.contains path)
    (hActions : s'.actions.filterMap (requestsFor path) =
      s.actions.filterMap (requestsFor path)) :
    view H s' path = view H s path := by
  unfold view
  rw [hNode, hMap, hDirs, hActions]

/- An action that asks for nothing shows at no path. -/
theorem view_act
    {action : Action}
    (hQuiet : requestsFor path action = none) :
    view H (s.act action) path = view H s path := by
  apply view_congr
  · rfl
  · rfl
  · rfl
  · unfold LocalState.act
    rw [List.filterMap_append,
      List.filterMap_cons_none hQuiet, List.filterMap_nil,
      List.append_nil]

theorem requestsFor_of_ne
    {request : FileRequest}
    (hOther : request.path ≠ path) :
    requestsFor path (.requested request) = none :=
  if_neg hOther

/- Only the content of a download begun can be discarded. -/
theorem begun_of_discardedTemp
    (hBegun : Receives begun s)
    {hash : String}
    {size : ℕ}
    {loc : Loc}
    (hTemp : discardedTemp H info.path hash size s =
      some loc) :
    ∃ recv, begun.lookup info.path = some recv ∧
      H.locate recv.tempPath = loc := by
  unfold discardedTemp at hTemp
  cases hEntry : s.receiving.lookup info.path with
  | none =>
      rw [hEntry] at hTemp
      cases hTemp
  | some recv =>
      rw [hEntry] at hTemp
      dsimp only at hTemp
      split at hTemp
      next hDrop =>
        simp only [Bool.and_eq_true] at hDrop
        rcases hBegun.begun info.path recv hEntry
          hDrop.1.1 with
          ⟨recv', hRecv, hSame⟩
        cases hTemp
        exact ⟨recv', hRecv, by rw [hSame]⟩
      next => cases hTemp

theorem view_checked
    (hBegun : Receives begun s)
    (hNot : ¬ Touches H begun (.update info) path)
    {refusals : Refusals}
    (hChecked : Checked (H.during refusals) info.path
      info.hash info.size s s') :
    view H s' path = view H s path := by
  apply view_congr
  · rw [hChecked.disk]
    apply lookup_dropTemp
    intro hTemp
    apply hNot
    exact Or.inr (Or.inr
      (begun_of_discardedTemp (H := H.during refusals)
        hBegun hTemp))
  · rw [hChecked.fileMap]
  · rw [hChecked.dirMap]
  · rw [hChecked.actions]

/- A conflicting file is moved aside to its conflict copy. -/
theorem view_renameConflict
    (hNot : ¬ Touches H begun (.update info) path)
    (refusals : Refusals)
    (s : LocalState) :
    view H (renameConflict (H.during refusals) info.path
      s).2 path = view H s path := by
  unfold renameConflict
  dsimp only
  split
  next disk hRename =>
    refine (view_act rfl).trans ?_
    apply view_congr
    · refine (Filesystem.lookup_rename hRename _).trans ?_
      rw [if_neg, if_neg]
      · exact fun hBelow => hNot (Or.inl hBelow)
      · exact fun hBelow => hNot (Or.inr (Or.inl
          ⟨refusals.now, hBelow⟩))
    · rfl
    · rfl
    · rfl
  next => rfl

theorem view_resolveConflict
    (hNot : ¬ Touches H begun (.update info) path)
    (refusals : Refusals)
    (s : LocalState) :
    view H (resolveConflict (H.during refusals) peerId info
      s).2 path = view H s path := by
  rcases resolveConflict_cases (H.during refusals) peerId
    info s with ⟨-, hEq⟩ | ⟨-, -, hEq⟩ | ⟨-, -, -, hEq⟩ |
      ⟨-, -, -, -, -, hEq⟩ | ⟨-, -, -, -, -, hEq⟩
  · rw [hEq]
  · rw [hEq]
    rfl
  · rw [hEq]
  · rw [hEq]
    rfl
  · rw [hEq]
    exact view_renameConflict hNot refusals s

theorem view_processSingleFile
    (hBegun : Receives begun s)
    (hNot : ¬ Touches H begun (.update info) path)
    (refusals : Refusals) :
    view H (processSingleFile (H.during refusals) peerId
      info s).2 path = view H s path := by
  rcases processSingleFile_cases (H.during refusals) peerId
    info s with ⟨-, hEq⟩ | ⟨-, s', hChecked, hRest⟩
  · rw [hEq]
  · have hView := view_checked hBegun hNot hChecked
    rcases hRest with ⟨-, hEq⟩ | ⟨-, hEq⟩
    · rw [hEq]
      exact hView
    · rw [hEq]
      exact (view_resolveConflict hNot refusals s').trans
        hView

theorem view_registerExpectedMetadata
    (path' hash : String)
    (size : ℕ) :
    view H (registerExpectedMetadata path' peerId hash size
      s) path = view H s path := by
  apply view_congr
  · rw [registerExpectedMetadata_disk]
  · rw [registerExpectedMetadata_fileMap]
  · unfold registerExpectedMetadata
    split
    · rfl
    · split <;> rfl
  · rw [registerExpectedMetadata_actions]

/- A request shows at the path it is for. -/
theorem view_requestFile
    (hBegun : Receives begun s)
    (hNot : ¬ Touches H begun (.update info) path)
    (refusals : Refusals) :
    view H (requestFile (H.during refusals) peerId s info)
      path = view H s path := by
  have hOther : info.path ≠ path := by
    rintro rfl
    exact hNot (Or.inl (List.prefix_refl _))
  have hChecked := checkResumeEligibility_checked
    (H.during refusals) info.path info.hash info.size s
  have hView := view_checked hBegun hNot hChecked
  unfold requestFile buildFileRequest
  dsimp only
  split
  · exact (view_act (requestsFor_of_ne hOther)).trans hView
  · refine (view_act (requestsFor_of_ne hOther)).trans ?_
    exact (view_registerExpectedMetadata info.path info.hash
      info.size).trans hView

/- Nothing at all is done, or the action. -/
theorem view_whenResolved
    {act : LocalState → LocalState}
    {H' : Host}
    (hAct : view H (act s) path = view H s path) :
    view H (whenResolved H' act s) path =
      view H s path := by
  unfold whenResolved
  split
  · rfl
  · exact hAct

theorem view_deleteSafeFile
    {other : String}
    (hNot : ¬ Touches H begun (.deleteFile other) path)
    (refusals : Refusals) :
    view H (deleteSafeFile (H.during refusals) s other)
      path = view H s path := by
  have hOther : path ≠ other := by
    rintro rfl
    exact hNot rfl
  unfold deleteSafeFile deleteFile
  split
  · split
    next disk hRemove =>
      refine (view_act rfl).trans ?_
      apply view_congr
      · refine (Filesystem.lookup_remove hRemove _).trans ?_
        exact if_neg (fun hSame => hNot hSame.symm)
      · exact AList.lookup_erase_ne hOther
      · rfl
      · rfl
    next => rfl
  · rfl

/- Inserting or removing a name matters to no other. -/
theorem contains_insert_of_ne
    {names : List String}
    {other : String}
    (hOther : path ≠ other) :
    (names.insert other).contains path =
      names.contains path := by
  rw [Bool.eq_iff_iff, List.contains_iff_mem,
    List.contains_iff_mem, List.mem_insert_iff]
  exact or_iff_right hOther

theorem contains_filter_of_ne
    {names : List String}
    {other : String}
    (hOther : path ≠ other) :
    (names.filter (fun dir => dir != other)).contains path =
      names.contains path := by
  rw [Bool.eq_iff_iff, List.contains_iff_mem,
    List.contains_iff_mem, List.mem_filter]
  simp [hOther]

theorem view_addDirToMap
    {other : String}
    (hOther : path ≠ other) :
    view H (addDirToMap other s) path = view H s path :=
  view_congr rfl rfl (contains_insert_of_ne hOther) rfl

theorem view_createBatchDir
    {other : String}
    (hNot : ¬ Touches H begun (.createDir other) path)
    (refusals : Refusals) :
    view H (createBatchDir (H.during refusals) s other)
      path = view H s path := by
  have hOther : path ≠ other := by
    rintro rfl
    exact hNot (List.prefix_refl _)
  unfold createBatchDir
  dsimp only
  split
  · split
    next disk hCreate =>
      refine (view_act rfl).trans ?_
      refine (view_addDirToMap hOther).trans ?_
      apply view_congr
      · refine (Filesystem.lookup_createDirectories hCreate
          _).trans ?_
        exact if_neg (fun hAbove => hNot hAbove.1)
      · rfl
      · rfl
      · rfl
    next =>
      split
      · exact view_addDirToMap hOther
      · rfl
  · rfl

theorem view_deleteSafeTree
    {other : String}
    (hNot : ¬ Touches H begun (.deleteDir other) path)
    (refusals : Refusals) :
    view H (deleteSafeTree (H.during refusals) s other)
      path = view H s path := by
  have hOther : path ≠ other := by
    rintro rfl
    exact hNot (List.prefix_refl _)
  have hNode : (Filesystem.removeAll (H.during refusals)
      s.disk (H.locate other)).lookup (H.locate path) =
        s.disk.lookup (H.locate path) := by
    rw [Filesystem.lookup_removeAll, if_neg]
    exact fun hBelow => hNot hBelow.1
  unfold deleteSafeTree deleteTree
  split
  · refine (view_act rfl).trans ?_
    split
    · exact view_congr hNode rfl rfl rfl
    · exact view_congr hNode rfl
        (contains_filter_of_ne hOther) rfl
  · rfl

/- A step leaves alone what its change does not touch. -/
theorem view_perform
    (hBegun : Receives begun s)
    {op : Op}
    (hNot : ¬ Touches H begun op.change path)
    (refusals : Refusals) :
    view H (perform (H.during refusals) peerId op s).2
      path = view H s path := by
  cases op with
  | process info =>
      exact view_processSingleFile hBegun hNot refusals
  | request info =>
      exact view_requestFile hBegun hNot refusals
  | deleteFile other =>
      exact view_whenResolved
        (view_deleteSafeFile hNot refusals)
  | createDir other =>
      exact view_whenResolved
        (view_createBatchDir hNot refusals)
  | deleteTree other =>
      exact view_whenResolved
        (view_deleteSafeTree hNot refusals)

end Frame

------------------------------------------------------------
-- Downloads Under Way
------------------------------------------------------------

section Begun

variable
  {H : Host}
  {begun : AList (fun _ : String => ReceivingFile)}
  {peerId path : String}
  {info : FileInfo}
  {s s' : LocalState}

/- Neither the role nor the downloads change. -/
structure KeepsDownloads (s s' : LocalState) : Prop where
  role : s'.role = s.role
  receiving : s'.receiving = s.receiving

theorem Receives.congr
    (hBegun : Receives begun s)
    (hSame : KeepsDownloads s s') :
    Receives begun s' where
  role := hSame.role.trans hBegun.role
  begun := by
    rw [hSame.receiving]
    exact hBegun.begun

theorem Receives.eraseReceiving
    (hBegun : Receives begun s)
    (hRole : s'.role = s.role)
    (hErased : s'.receiving = s.receiving.erase path) :
    Receives begun s' where
  role := hRole.trans hBegun.role
  begun := by
    intro other recv hEntry hProgress
    rw [hErased] at hEntry
    by_cases hOther : other = path
    · subst hOther
      rw [AList.lookup_erase] at hEntry
      cases hEntry
    · rw [AList.lookup_erase_ne hOther] at hEntry
      exact hBegun.begun other recv hEntry hProgress

theorem receives_checkResumeEligibility
    (hBegun : Receives begun s)
    (H : Host)
    (path hash : String)
    (size : ℕ) :
    Receives begun
      (checkResumeEligibility H path hash size s).2 := by
  unfold checkResumeEligibility
  split
  · exact hBegun
  · dsimp only
    split
    · exact hBegun
    · split
      · exact hBegun.eraseReceiving rfl rfl
      · split
        · exact hBegun.eraseReceiving rfl rfl
        · exact hBegun

/- What is only announced has no progress. -/
theorem Receives.setReceiving
    (hBegun : Receives begun s)
    {entry : ReceivingFile}
    (hNone : entry.receivedChunks = 0) :
    Receives begun (setReceiving path entry s) where
  role := hBegun.role
  begun := by
    intro other recv hEntry hProgress
    by_cases hOther : other = path
    · subst hOther
      rw [TransferManager.setReceiving, AList.lookup_insert]
        at hEntry
      cases hEntry
      rw [hasProgress, hNone] at hProgress
      simp at hProgress
    · apply hBegun.begun other recv _ hProgress
      rw [← hEntry]
      exact (AList.lookup_insert_ne hOther).symm

theorem receives_registerExpectedMetadata
    (hBegun : Receives begun s)
    (path peerId hash : String)
    (size : ℕ) :
    Receives begun
      (registerExpectedMetadata path peerId hash size
        s) := by
  unfold registerExpectedMetadata
  split
  · exact hBegun.setReceiving rfl
  · split
    · exact hBegun
    next hNone =>
      apply hBegun.setReceiving
      exact Nat.eq_zero_of_not_pos hNone

theorem keeps_resolveConflict
    (H : Host)
    (peerId : String)
    (info : FileInfo)
    (s : LocalState) :
    KeepsDownloads s
      (resolveConflict H peerId info s).2 := by
  rcases resolveConflict_cases H peerId info s with
    ⟨-, hEq⟩ | ⟨-, -, hEq⟩ | ⟨-, -, -, hEq⟩ |
      ⟨-, -, -, -, -, hEq⟩ | ⟨-, -, -, -, -, hEq⟩
  · rw [hEq]
    exact ⟨rfl, rfl⟩
  · rw [hEq]
    exact ⟨rfl, rfl⟩
  · rw [hEq]
    exact ⟨rfl, rfl⟩
  · rw [hEq]
    exact ⟨rfl, rfl⟩
  · rw [hEq]
    unfold renameConflict
    dsimp only
    split <;> exact ⟨rfl, rfl⟩

theorem receives_processSingleFile
    (hBegun : Receives begun s)
    (H : Host)
    (peerId : String)
    (info : FileInfo) :
    Receives begun
      (processSingleFile H peerId info s).2 := by
  have hChecked := receives_checkResumeEligibility hBegun
    H info.path info.hash info.size
  unfold processSingleFile
  dsimp only
  split
  · exact hChecked
  · split
    · exact hChecked
    · have hResolved := hChecked.congr
        (keeps_resolveConflict H peerId info _)
      split
      next hDecided =>
        rw [hDecided] at hResolved
        exact hResolved
      next hDecided =>
        rw [hDecided] at hResolved
        exact hResolved

theorem receives_requestFile
    (hBegun : Receives begun s)
    (H : Host)
    (peerId : String)
    (info : FileInfo) :
    Receives begun (requestFile H peerId s info) := by
  have hChecked := receives_checkResumeEligibility hBegun
    H info.path info.hash info.size
  unfold requestFile buildFileRequest
  dsimp only
  split
  · exact hChecked.congr ⟨rfl, rfl⟩
  · exact (receives_registerExpectedMetadata hChecked
      info.path peerId info.hash info.size).congr ⟨rfl, rfl⟩

theorem keeps_deleteSafeFile
    (H : Host)
    (s : LocalState) :
    KeepsDownloads s (deleteSafeFile H s path) := by
  unfold deleteSafeFile deleteFile
  split
  · split <;> exact ⟨rfl, rfl⟩
  · exact ⟨rfl, rfl⟩

theorem keeps_createBatchDir
    (H : Host)
    (s : LocalState) :
    KeepsDownloads s (createBatchDir H s path) := by
  unfold createBatchDir
  dsimp only
  split
  · split
    · exact ⟨rfl, rfl⟩
    · split <;> exact ⟨rfl, rfl⟩
  · exact ⟨rfl, rfl⟩

theorem keeps_deleteSafeTree
    (H : Host)
    (s : LocalState) :
    KeepsDownloads s (deleteSafeTree H s path) := by
  unfold deleteSafeTree deleteTree
  dsimp only [LocalState.act]
  split
  · split <;> exact ⟨rfl, rfl⟩
  · exact ⟨rfl, rfl⟩

theorem Receives.whenResolved
    {act : LocalState → LocalState}
    (hBegun : Receives begun s)
    (hAct : KeepsDownloads s (act s))
    (H : Host) :
    Receives begun (whenResolved H act s) := by
  unfold SyncHandler.whenResolved
  split
  · exact hBegun
  · exact hBegun.congr hAct

/- No step begins a download. -/
theorem receives_perform
    (hBegun : Receives begun s)
    (H : Host)
    (peerId : String)
    (op : Op) :
    Receives begun (perform H peerId op s).2 := by
  cases op with
  | process info =>
      exact receives_processSingleFile hBegun H peerId info
  | request info =>
      exact receives_requestFile hBegun H peerId info
  | deleteFile other =>
      apply hBegun.whenResolved
      exact keeps_deleteSafeFile H s
  | createDir other =>
      apply hBegun.whenResolved
      exact keeps_createBatchDir H s
  | deleteTree other =>
      apply hBegun.whenResolved
      exact keeps_deleteSafeTree H s

end Begun

------------------------------------------------------------
-- What Holds Throughout A Run
------------------------------------------------------------

/- The change that a step was for, and its round. -/
def Performed.stamp (e : Performed) : ℕ × Change :=
  (e.round, e.op.change)

/- The changes that were committed so far. -/
def committed (sys : System) : Set (ℕ × Change) :=
  { item |
    ∃ changes, sys.rounds[item.1]? = some changes ∧
      item.2 ∈ changes }

/- A step leaves another one to be done. -/
def Performed.Calls
    (H : Host)
    (peerId : String)
    (e : Performed)
    (op : Op) : Prop :=
  op ∈ (perform (H.during e.refusals) peerId e.op
    e.before).1

/- The steps that the receiver has left to do. -/
def pending (sys : System) : Set Op :=
  { op | ∃ task ∈ sys.working, op ∈ task.2 }

/-
  No change is lost or made up on the way, those that wait
  and those carried out kept the order, what a step left to
  be done was or will be, and each path shows what the last
  step that touched it left.
-/
structure Sound
    (H : Host)
    (peerId : String)
    (node : LocalState)
    (sys : System) : Prop where
  source : sys.source.role = .source
  receives : Receives node.receiving sys.node
  accounted : ∀ item, item ∈ committed sys ↔
    item ∈ waiting sys ∨ item ∈ sys.log.map Performed.stamp
  line : Precedence.InLine Prod.fst
    (fun item => Touches H node.receiving item.2) (line sys)
  answered : Precedence.Answered
    (Performed.Calls H peerId) (fun e op => e.op = op)
    sys.log (pending sys)
  order : Precedence.InOrder Prod.fst
    (fun item => Touches H node.receiving item.2)
    (sys.log.map Performed.stamp) (waiting sys)
  trace : Precedence.Traced
    (fun e => Touches H node.receiving e.op.change)
    (view H) (Performed.after H peerId) node sys.node
    sys.log

section Invariant

variable
  {H : Host}
  {peerId : String}
  {source node : LocalState}
  {sys sys' : System}
  {refusals : Refusals}
  {k : ℕ}

theorem sound_start :
    Sound H peerId node (start source node) where
  source := rfl
  receives := ⟨rfl, fun _ recv hEntry _ =>
    ⟨recv, hEntry, rfl⟩⟩
  accounted := by
    intro item
    simp [committed, waiting, start]
  line := Precedence.inLine_nil
  answered := Precedence.answered_nil
  order := Precedence.inOrder_nil
  trace := ⟨fun _ _ => rfl, fun _ _ hLast => by
    cases hLast.mem⟩

/- A batch that moves on changes nothing at the receiver. -/
theorem Sound.move
    (hSound : Sound H peerId node sys)
    (hSource : sys'.source = sys.source)
    (hNode : sys'.node = sys.node)
    (hRounds : sys'.rounds = sys.rounds)
    (hLog : sys'.log = sys.log)
    (hWaiting : waiting sys' = waiting sys)
    (hPending : pending sys ⊆ pending sys')
    (hLine : Precedence.InLine Prod.fst
      (fun item => Touches H node.receiving item.2)
      (ChangeOrder.line sys')) :
    Sound H peerId node sys' where
  source := by
    rw [hSource]
    exact hSound.source
  receives := by
    rw [hNode]
    exact hSound.receives
  accounted := by
    unfold committed
    rw [hRounds, hLog, hWaiting]
    exact hSound.accounted
  line := hLine
  answered := by
    rw [hLog]
    exact hSound.answered.mono hPending
  order := by
    rw [hLog, hWaiting]
    exact hSound.order
  trace := by
    rw [hNode, hLog]
    exact hSound.trace

/- A new round is committed after all others. -/
theorem mem_committed_commitStep
    {results : List FileInfo}
    {deletes dirs failed : List String}
    {item : ℕ × Change} :
    item ∈ committed (commitStep results deletes dirs
      failed sys) ↔
      item ∈ committed sys ∨ item.1 = sys.rounds.length ∧
        item.2 ∈ (commitChanges results deletes dirs failed
          sys.source).1.changes := by
  unfold committed commitStep
  simp only [Set.mem_ofPred_eq]
  constructor
  · rintro ⟨changes, hAt, hIn⟩
    rw [List.getElem?_append] at hAt
    split at hAt
    next => exact Or.inl ⟨changes, hAt, hIn⟩
    next hNew =>
      rw [List.getElem?_singleton] at hAt
      split at hAt
      next hFirst =>
        cases hAt
        exact Or.inr ⟨by omega, hIn⟩
      next => cases hAt
  · rintro (⟨changes, hAt, hIn⟩ | ⟨hRound, hIn⟩)
    · refine ⟨changes, ?_, hIn⟩
      rcases List.getElem?_eq_some_iff.mp hAt with
        ⟨hLess, -⟩
      rw [List.getElem?_append_left hLess, hAt]
    · refine ⟨_, ?_, hIn⟩
      rw [hRound]
      exact List.getElem?_concat_length

theorem lt_length_of_committed
    {item : ℕ × Change}
    (hCommitted : item ∈ committed sys) :
    item.1 < sys.rounds.length := by
  rcases hCommitted with ⟨changes, hAt, -⟩
  rcases List.getElem?_eq_some_iff.mp hAt with ⟨hLess, -⟩
  exact hLess

theorem Sound.commitStep
    (hSound : Sound H peerId node sys)
    (results : List FileInfo)
    (deletes dirs failed : List String) :
    Sound H peerId node
      (commitStep results deletes dirs failed sys) where
  source := (role_commitChanges results deletes dirs failed
    sys.source).trans hSound.source
  receives := hSound.receives
  accounted := by
    intro item
    rw [mem_committed_commitStep,
      mem_waiting_commitStep hSound.source,
      hSound.accounted item]
    exact or_right_comm
  line := by
    apply inLine_commitStep hSound.line
    intro item hWaits
    exact lt_length_of_committed
      ((hSound.accounted item).mpr (Or.inl hWaits))
  answered := hSound.answered
  order := by
    apply hSound.order.join
    intro item hMore hNew earlier hDone
    rw [mem_waiting_commitStep hSound.source] at hMore
    rcases hMore with hOld | ⟨hRound, -⟩
    · exact absurd hOld hNew
    · rw [hRound]
      apply Nat.le_of_lt
      apply lt_length_of_committed
      exact (hSound.accounted earlier).mpr (Or.inr hDone)
  trace := hSound.trace

/-
  What was left to be done is still, but for the step that
  is done now, and what it adds.
-/
theorem pending_workStep
    {round : ℕ}
    {op : Op}
    {rest : List Op}
    (hAt : sys.working[k]? = some (round, op :: rest))
    (hStep : workStep H peerId refusals k sys =
      some sys') :
    (∀ left ∈ pending sys, left ∈ pending sys' ∨
      op = left) ∧
    ∀ left ∈ (perform (H.during refusals) peerId op
      sys.node).1, left ∈ pending sys' := by
  unfold ChangeOrder.workStep at hStep
  rw [hAt] at hStep
  cases hStep
  rcases List.getElem?_eq_some_iff.mp hAt with ⟨hLess, -⟩
  have hNew := List.mem_set (l := sys.working) hLess
    (round, rest ++ (perform (H.during refusals) peerId op
      sys.node).1)
  constructor
  · rintro left ⟨task, hTask, hIn⟩
    rcases List.mem_iff_getElem?.mp hTask with ⟨i, hI⟩
    by_cases hSame : i = k
    · subst hSame
      rw [hAt] at hI
      cases hI
      rcases List.mem_cons.mp hIn with hHead | hTail
      · exact Or.inr hHead.symm
      · exact Or.inl ⟨_, hNew,
          List.mem_append_left _ hTail⟩
    · left
      refine ⟨task, ?_, hIn⟩
      apply List.mem_of_getElem? (i := i)
      rw [List.getElem?_set_ne (Ne.symm hSame), hI]
  · intro left hAdded
    exact ⟨_, hNew, List.mem_append_right _ hAdded⟩

/- A step is done that no earlier change has to precede. -/
theorem Sound.workStep
    (hSound : Sound H peerId node sys)
    (hTurn : InTurn H node sys (.work refusals k))
    (hStep : workStep H peerId refusals k sys =
      some sys') :
    Sound H peerId node sys' := by
  have hWork := hStep
  unfold ChangeOrder.workStep at hWork
  split at hWork
  next round op rest hAt =>
    have hWaiting : ∀ item, item ∈ waiting sys ↔
        item ∈ waiting sys' ∨ item = (round, op.change) :=
      fun item => mem_waiting_workStep hAt hStep
    have hLine := inLine_workStep hSound.line hStep
    rcases pending_workStep hAt hStep with
      ⟨hTaken, hAdded⟩
    cases hWork
    exact
      { source := hSound.source
        receives := receives_perform hSound.receives _ _ _
        accounted := by
          intro item
          rw [List.map_append, List.mem_append,
            List.map_singleton, List.mem_singleton]
          refine (hSound.accounted item).trans ?_
          rw [hWaiting item, or_assoc]
          exact or_congr_right or_comm
        line := hLine
        answered := hSound.answered.snoc hTaken hAdded
        order := by
          rw [List.map_append, List.map_singleton]
          refine (hSound.order.carryOut
            ((hWaiting (round, op.change)).mpr
              (Or.inr rfl)) ?_).mono ?_
          · exact fun item hWaits hLess =>
              clear_of_inTurn hSound.line hTurn hAt hWaits
                hLess
          · exact fun item hItem =>
              (hWaiting item).mpr (Or.inl hItem)
        trace := by
          apply hSound.trace.snoc
          · rfl
          · exact fun path hNot =>
              view_perform hSound.receives hNot refusals }
  next => cases hWork

/- One step that is done in turn keeps all that. -/
theorem sound_of_step
    {event : Event}
    (hSound : Sound H peerId node sys)
    (hTurn : InTurn H node sys event)
    (hStep : step H peerId sys event = some sys') :
    Sound H peerId node sys' := by
  cases event with
  | commit results deletes dirs failed =>
      cases hStep
      exact hSound.commitStep results deletes dirs failed
  | send k =>
      have hWaiting := waiting_sendStep hStep
      have hLine := inLine_sendStep hSound.line hTurn hStep
      unfold step sendStep at hStep
      dsimp only at hStep
      split at hStep
      next =>
        cases hStep
        exact hSound.move rfl rfl rfl rfl hWaiting
          Set.Subset.rfl hLine
      next => cases hStep
  | deliver =>
      have hWaiting := waiting_deliverStep
        hSound.receives.role hStep
      have hLine := hSound.line
      rw [← line_deliverStep hSound.receives.role hStep]
        at hLine
      unfold step deliverStep at hStep
      dsimp only at hStep
      split at hStep
      next => cases hStep
      next =>
        cases hStep
        refine hSound.move rfl rfl rfl rfl hWaiting ?_ hLine
        rintro op ⟨task, hTask, hOp⟩
        exact ⟨task, List.mem_append_left _ hTask, hOp⟩
  | work refusals k =>
      exact hSound.workStep hTurn hStep

/-
  The last step that touches a path leaves none to be done
  for the same change, which would touch it, too.
-/
theorem Sound.calls_none
    (hSound : Sound H peerId node sys)
    (hSettled : Settled sys)
    {path : String}
    {e : Performed}
    (hLast : Precedence.LastTouch
      (fun e => Touches H node.receiving e.op.change)
      sys.log path e) :
    (perform (H.during e.refusals) peerId e.op
      e.before).1 = [] := by
  rcases hLast with
    ⟨hTouches, before, later, hSplit, hLater⟩
  rw [List.eq_nil_iff_forall_not_mem]
  intro op hCalls
  rcases hSound.answered before e later hSplit op hCalls with
    ⟨task, hTask, hOp⟩ | ⟨e', hDone, hAnswer⟩
  · rw [hSettled.working task hTask] at hOp
    cases hOp
  · apply hLater e' hDone
    rw [hAnswer, change_of_added hCalls]
    exact hTouches

/- Once all is settled nothing waits. -/
theorem not_mem_waiting
    (hSettled : Settled sys)
    (item : ℕ × Change) :
    item ∉ waiting sys := by
  rintro (⟨task, hTask, -, batch, hBatch, -⟩ |
    ⟨sent, hSent, -⟩ | ⟨task, hTask, -, op, hOp, -⟩)
  · rw [hSettled.sending task hTask] at hBatch
    cases hBatch
  · rw [hSettled.channel] at hSent
    cases hSent
  · rw [hSettled.working task hTask] at hOp
    cases hOp

theorem Sound.lastChangeWins
    (hSound : Sound H peerId node sys)
    (hSettled : Settled sys) :
    LastChangeWins H peerId node sys where
  untouched path hNone := by
    apply hSound.trace.untouched
    intro e hDone
    rcases (hSound.accounted e.stamp).mpr
      (Or.inr (List.mem_map_of_mem hDone)) with
      ⟨changes, hAt, hIn⟩
    exact hNone changes (List.mem_of_getElem? hAt) _ hIn
  last path round changes hAt hSome hLater := by
    have hCarriedOut : ∀ item ∈ committed sys,
        item ∈ sys.log.map Performed.stamp := by
      intro item hCommitted
      exact ((hSound.accounted item).mp
        hCommitted).resolve_left
          (not_mem_waiting hSettled item)
    rcases hSome with ⟨change, hIn, hTouches⟩
    have hDone := hCarriedOut (round, change)
      ⟨changes, hAt, hIn⟩
    rcases List.mem_map.mp hDone with ⟨a, hLog, hStamp⟩
    have hChange : a.op.change = change :=
      congrArg Prod.snd hStamp
    have hSome : ∃ e ∈ sys.log,
        Touches H node.receiving e.op.change path :=
      ⟨a, hLog, hChange ▸ hTouches⟩
    rcases Precedence.exists_lastTouch hSome with
      ⟨e, hLast⟩
    rcases (hSound.accounted e.stamp).mpr
      (Or.inr (List.mem_map_of_mem hLast.mem)) with
      ⟨changes', hAt', hIn'⟩
    -- The last one is of no earlier round, nor of a later.
    have hNotBefore : round ≤ e.round :=
      hSound.order.rank_le
        (hLast.map Performed.stamp (fun _ _ => Iff.rfl))
        hDone hTouches
    have hNotAfter : ¬ round < e.round := fun hLess =>
      hLater e.round changes' hLess hAt' _ hIn' hLast.1
    have hRound : e.round = round := by omega
    have hView := hSound.trace.touched path e hLast
    refine ⟨e, hLast, hRound, ?_, hView, ?_⟩
    swap
    · rw [hView]
      exact effect_perform hLast.1
        (hSound.calls_none hSettled hLast)
    rw [← hRound] at hAt
    have hSame : changes' = changes :=
      Option.some.inj (hAt'.symm.trans hAt)
    exact hSame ▸ hIn'

end Invariant

------------------------------------------------------------
-- Runs In Turn
------------------------------------------------------------

/-
  When neither pool takes up a change ahead of an earlier
  one that it overlaps with, the last change of each path
  has its effect.
-/
theorem lastChangeWins_of_run
    (H : Host)
    (peerId : String)
    (source node : LocalState)
    (events : List Event)
    (sys : System)
    (hTurn : Transition.Meets (step H peerId)
      (InTurn H node) (start source node) events)
    (hRun : Transition.run (step H peerId)
      (start source node) events = some sys)
    (hSettled : Settled sys) :
    LastChangeWins H peerId node sys := by
  have hSound : Sound H peerId node sys := by
    refine Transition.invariant_of_run ?_ sound_start
      hTurn hRun
    exact fun _ _ _ => sound_of_step
  exact hSound.lastChangeWins hSettled

------------------------------------------------------------
-- Examples
------------------------------------------------------------

def onlyFile : FileInfo where
  path := "a.txt"
  hash := Digest.sampleHash [97]
  modifiedTime := 1
  size := 1

/- A source that knows the file, and a receiver without. -/
def knowsFile : LocalState :=
  { LocalState.empty Host.plain .source .oneWay with
    fileMap := AList.insert "a.txt" onlyFile ∅ }

def lacksFile : LocalState :=
  LocalState.empty Host.plain .destination .oneWay

/- The file is announced and requested, then deleted. -/
def announcedThenDeleted : List Event :=
  [.commit [onlyFile] [] [] [], .send 0, .deliver,
    .work .none 0, .work .none 0,
    .commit [] ["a.txt"] [] [], .send 1, .deliver,
    .work .none 1]

theorem lastChangeWins_announcedThenDeleted :
    ∃ sys,
      Transition.run (step Host.plain "peer")
          (start knowsFile lacksFile)
          announcedThenDeleted = some sys ∧
      LastChangeWins Host.plain "peer" lacksFile sys := by
  have hRun : Transition.run (step Host.plain "peer")
      (start knowsFile lacksFile)
      announcedThenDeleted = some _ := rfl
  refine ⟨_, hRun, lastChangeWins_of_run _ _ _ _ _ _ ?_
    hRun ⟨by decide, rfl, by decide⟩⟩
  -- the first task of a pool has none before it
  refine .cons trivial rfl ?_
  refine .cons (fun _ _ _ _ _ hJ => ?_) rfl ?_
  · exact absurd hJ (Nat.not_lt_zero _)
  refine .cons trivial rfl ?_
  refine .cons (fun _ _ _ _ _ hJ => ?_) rfl ?_
  · exact absurd hJ (Nat.not_lt_zero _)
  refine .cons (fun _ _ _ _ _ hJ => ?_) rfl ?_
  · exact absurd hJ (Nat.not_lt_zero _)
  -- of the one before the second nothing is left
  refine .cons trivial rfl ?_
  refine .cons (fun _ _ _ _ j hJ task hTask _ => ?_) rfl ?_
  · rw [Nat.lt_one_iff.mp hJ] at hTask
    cases hTask
    intro left hLeft
    cases hLeft
  refine .cons trivial rfl ?_
  refine .cons (fun _ _ _ _ j hJ task hTask _ => ?_) rfl
    trivial
  rw [Nat.lt_one_iff.mp hJ] at hTask
  cases hTask
  intro left hLeft
  cases hLeft

/- The file is deleted and brought back at the source. -/
def deletedThenAnnounced : List Event :=
  [.commit [] ["a.txt"] [] [], .commit [onlyFile] [] [] [],
    .send 0, .send 1, .deliver, .deliver,
    .work .none 1, .work .none 0]

/-
  When the deletion is handled last the file is gone.  Kept
  in order, the file that was deleted last stays requested.
-/
theorem not_lastChangeWins_deletedThenAnnounced :
    (∃ sys,
      Transition.run (step Host.plain "peer")
          (start knowsFile
            (lacksFile.userWrites Host.plain "a.txt" [97]))
          deletedThenAnnounced = some sys ∧
        Settled sys ∧
        sys.rounds =
          [[.deleteFile "a.txt"], [.update onlyFile]] ∧
        (view Host.plain sys.node "a.txt").node = none ∧
        ¬ LastChangeWins Host.plain "peer"
          (lacksFile.userWrites Host.plain "a.txt" [97])
          sys) ∧
      ∃ sys,
        Transition.run (step Host.plain "peer")
            (start knowsFile lacksFile)
            announcedThenDeleted = some sys ∧
          Settled sys ∧
          sys.rounds =
            [[.update onlyFile], [.deleteFile "a.txt"]] ∧
          (view Host.plain sys.node "a.txt").requests.length
            = 1 ∧
          (sys.node.receiving.lookup "a.txt").isSome := by
  constructor
  · refine ⟨_, rfl, ⟨by decide, rfl, by decide⟩, rfl, rfl,
      ?_⟩
    intro hWins
    rcases hWins.last "a.txt" 1 [.update onlyFile] rfl
      ⟨_, List.mem_cons_self, Or.inl (List.prefix_refl _)⟩
      (fun later changes hLater hAt => by
        match later, hLater with
        | n + 2, _ => cases hAt) with
      ⟨e, hLast, hRound, -, hView, -⟩
    -- only the update is of the last round, but it is gone
    rcases List.mem_pair.mp hLast.mem with rfl | rfl
    · cases congrArg PathView.node hView
    · cases hRound
  · exact ⟨_, rfl, ⟨by decide, rfl, by decide⟩, rfl, rfl,
      rfl⟩

end ChangeOrder

end VeritasSync
