import VeritasSync.Sync.StateSafety

/-
  The decisions of the incremental update path, read off the
  state in which a batch arrives: which announced files will
  be requested and which local files will be set aside.

  Entries that concern different places do not influence
  each other, so the decisions do not depend on how a list
  is split into batches.

  Main declarations:
    * `SyncHandler.asksFor`, `SyncHandler.setsAside`
    * `SyncHandler.Separate`
    * `SyncHandler.updateBatches_actions`
-/

namespace VeritasSync

namespace SyncHandler

open LocalState StateManager TransferManager

------------------------------------------------------------
-- The Decision On One File
------------------------------------------------------------

/- The conflict rename would succeed. -/
def renameWorks
    (H : Host)
    (path : String)
    (s : LocalState) : Bool :=
  (Filesystem.rename H s.disk (H.locate path)
    (H.locate (conflictPath H path))).isSome

/- The announced file will be requested. -/
def asksFor
    (H : Host)
    (peerId : String)
    (s : LocalState)
    (info : FileInfo) : Bool :=
  let base := getBaseHash s peerId info.path
  !shouldIgnoreEcho s peerId info.path info.hash &&
    (s.disk.lookup (H.locate info.path) == none ||
      (!knownEqual H info s &&
        (base == "" ||
          calculateSHA256 H s.disk (H.locate info.path) ==
            base ||
          renameWorks H info.path s)))

/- The local file will be renamed. -/
def setsAside
    (H : Host)
    (peerId : String)
    (s : LocalState)
    (info : FileInfo) : Bool :=
  let base := getBaseHash s peerId info.path
  !shouldIgnoreEcho s peerId info.path info.hash &&
    s.disk.lookup (H.locate info.path) != none &&
      !knownEqual H info s && base != "" &&
        calculateSHA256 H s.disk (H.locate info.path) !=
          base &&
        renameWorks H info.path s

/- The effect of setting a file aside. -/
def asideAction
    (H : Host)
    (info : FileInfo) : Action :=
  .renamed info.path (conflictPath H info.path)

/- Two locations neither of which contains the other. -/
def Incomparable (left right : Loc) : Prop :=
  ¬left <+: right ∧ ¬right <+: left

theorem Incomparable.not_prefix
    {left right key : Loc}
    (hApart : Incomparable left right)
    (hKey : right <+: key ∨ key <+: right) :
    ¬left <+: key := by
  intro hLeft
  rcases hKey with hRight | hRight
  · rcases List.prefix_or_prefix_of_prefix hLeft hRight
      with hPrefix | hPrefix
    · exact hApart.1 hPrefix
    · exact hApart.2 hPrefix
  · exact hApart.1 (hLeft.trans hRight)

/- Two entries that concern different places. -/
structure Separate
    (H : Host)
    (left right : FileInfo) : Prop where
  path : left.path ≠ right.path
  files : Incomparable (H.locate left.path)
    (H.locate right.path)
  fileCopy : Incomparable (H.locate left.path)
    (H.locate (conflictPath H right.path))
  copyFile : Incomparable
    (H.locate (conflictPath H left.path))
    (H.locate right.path)
  copies : Incomparable
    (H.locate (conflictPath H left.path))
    (H.locate (conflictPath H right.path))

/- The places on which the decision on a path depends. -/
def Region
    (H : Host)
    (path : String)
    (key : Loc) : Prop :=
  H.locate path <+: key ∨
    H.locate (conflictPath H path) <+: key ∨
    key <+: H.locate (conflictPath H path)

/- What the decision on a path depends on is the same. -/
structure SameView
    (H : Host)
    (peerId path : String)
    (s s' : LocalState) : Prop where
  fileMap : s'.fileMap = s.fileMap
  history : s'.history peerId path = s.history peerId path
  disk : ∀ key, Region H path key →
    s'.disk.lookup key = s.disk.lookup key

namespace SameView

variable {H : Host} {peerId path : String}

theorem refl (s : LocalState) :
    SameView H peerId path s s :=
  ⟨rfl, rfl, fun _ _ => rfl⟩

theorem trans
    {s s' s'' : LocalState}
    (hFirst : SameView H peerId path s s')
    (hSecond : SameView H peerId path s' s'') :
    SameView H peerId path s s'' where
  fileMap := hSecond.fileMap.trans hFirst.fileMap
  history := hSecond.history.trans hFirst.history
  disk key hKey :=
    (hSecond.disk key hKey).trans (hFirst.disk key hKey)

end SameView

theorem renameWorks_congr
    {H : Host}
    {peerId path : String}
    {s s' : LocalState}
    (hView : SameView H peerId path s s') :
    renameWorks H path s' = renameWorks H path s := by
  apply Filesystem.rename_isSome_congr
  · exact hView.disk _ (Or.inl (List.prefix_refl _))
  · exact hView.disk _
      (Or.inr (Or.inr (List.dropLast_prefix _)))
  · exact fun key hKey =>
      hView.disk key (Or.inr (Or.inl hKey))

section SameDecision

variable
  {H : Host}
  {peerId : String}
  {info : FileInfo}
  {s s' : LocalState}

theorem shouldIgnoreEcho_congr
    (hView : SameView H peerId info.path s s') :
    shouldIgnoreEcho s' peerId info.path info.hash =
      shouldIgnoreEcho s peerId info.path info.hash := by
  unfold shouldIgnoreEcho getBaseHash
  rw [hView.history]

theorem asksFor_congr
    (hView : SameView H peerId info.path s s') :
    asksFor H peerId s' info = asksFor H peerId s info := by
  have hNode := hView.disk (H.locate info.path)
    (Or.inl (List.prefix_refl _))
  unfold asksFor getBaseHash
  rw [shouldIgnoreEcho_congr hView, hView.history, hNode,
    knownEqual_congr hView.fileMap hNode,
    calculateSHA256_congr H hNode, renameWorks_congr hView]

theorem setsAside_congr
    (hView : SameView H peerId info.path s s') :
    setsAside H peerId s' info =
      setsAside H peerId s info := by
  have hNode := hView.disk (H.locate info.path)
    (Or.inl (List.prefix_refl _))
  unfold setsAside getBaseHash
  rw [shouldIgnoreEcho_congr hView, hView.history, hNode,
    knownEqual_congr hView.fileMap hNode,
    calculateSHA256_congr H hNode, renameWorks_congr hView]

end SameDecision

------------------------------------------------------------
-- Processing One File
------------------------------------------------------------

/-
  What processing one file does: it may set the file aside
  and record a digest for its path, nothing else.
-/
structure Processed
    (H : Host)
    (peerId : String)
    (info : FileInfo)
    (s s' : LocalState) : Prop where
  actions : s'.actions = s.actions ++
    (if setsAside H peerId s info then
      [asideAction H info]
    else
      [])
  receiving : s'.receiving = s.receiving
  fileMap : s'.fileMap = s.fileMap
  history : ∀ path, path ≠ info.path →
    s'.history peerId path = s.history peerId path
  kept : setsAside H peerId s info = false →
    s'.disk = s.disk
  disk : ∀ key, ¬H.locate info.path <+: key →
    ¬H.locate (conflictPath H info.path) <+: key →
      s'.disk.lookup key = s.disk.lookup key

namespace Processed

variable
  {H : Host}
  {peerId : String}
  {info : FileInfo}
  {s : LocalState}

theorem same
    (hKeep : setsAside H peerId s info = false) :
    Processed H peerId info s s where
  actions := by simp [hKeep]
  receiving := rfl
  fileMap := rfl
  history _ _ := rfl
  kept _ := rfl
  disk _ _ _ := rfl

theorem record
    (hash : String)
    (hKeep : setsAside H peerId s info = false) :
    Processed H peerId info s
      (recordSyncSuccess H peerId info.path hash s) where
  actions := by
    simp [hKeep, recordSyncSuccess, updateSyncHistory]
  receiving := rfl
  fileMap := rfl
  history path hPath := by
    simp [recordSyncSuccess, hPath]
  kept _ := rfl
  disk _ _ _ := rfl

theorem renamed
    {disk : Disk}
    (hAside : setsAside H peerId s info = true)
    (hRename : Filesystem.rename H s.disk
      (H.locate info.path)
      (H.locate (conflictPath H info.path)) = some disk) :
    Processed H peerId info s
      (LocalState.act { s with disk := disk }
        (asideAction H info)) where
  actions := by simp [hAside, LocalState.act]
  receiving := rfl
  fileMap := rfl
  history _ _ := rfl
  kept hKeep := by
    rw [hAside] at hKeep
    cases hKeep
  disk key hFile hCopy := by
    change disk.lookup key = _
    rw [Filesystem.lookup_rename hRename, if_neg hCopy,
      if_neg hFile]

end Processed

/-
  A file whose download is not resumed is decided on in the
  checked state, and the decision is as read off there.
-/
theorem processSingleFile_of_fresh
    (H : Host)
    (peerId : String)
    (info : FileInfo)
    {s : LocalState}
    (hFresh : resumable H info.path info.hash info.size s =
      false) :
    (processSingleFile H peerId info s).1 =
        (if asksFor H peerId (checkedState H info s) info then
          some info
        else
          none) ∧
      Processed H peerId info (checkedState H info s)
        (processSingleFile H peerId info s).2 := by
  have hNone := checkResumeEligibility_isSome H info.path
    info.hash info.size s
  rw [hFresh, Option.isSome_eq_false_iff,
    Option.isNone_iff_eq_none] at hNone
  unfold processSingleFile checkedState
  dsimp only
  rw [hNone]
  dsimp only
  generalize (checkResumeEligibility H info.path info.hash
    info.size s).2 = s
  cases hEcho : shouldIgnoreEcho s peerId info.path
      info.hash with
  | true =>
      refine ⟨by simp [asksFor, hEcho], ?_⟩
      exact Processed.same (by simp [setsAside, hEcho])
  | false =>
      simp only [Bool.false_eq_true, if_false]
      -- an unsuppressed announcement has a new digest
      have hNew : getBaseHash s peerId info.path ≠ "" →
          info.hash ≠ getBaseHash s peerId info.path := by
        intro hBase hEq
        have hIs := (shouldIgnoreEcho_iff s peerId
          info.path info.hash).mpr ⟨hBase, hEq.symm⟩
        rw [hEcho] at hIs
        cases hIs
      rcases resolveConflict_cases H peerId info s with
        ⟨hGone, hDecided⟩ | ⟨hThere, hKnown, hDecided⟩ |
          ⟨hThere, hUnequal, hBase, hDecided⟩ |
          ⟨-, -, hBase, -, hSame, -⟩ |
          ⟨hThere, hUnequal, hBase, hLocal, -, hDecided⟩
      · rw [hDecided]
        exact ⟨by simp [asksFor, hEcho, hGone],
          Processed.same (by simp [setsAside, hGone])⟩
      · rw [hDecided]
        exact ⟨by simp [asksFor, hThere, hKnown],
          Processed.record _ (by simp [setsAside, hKnown])⟩
      · rw [hDecided]
        refine ⟨?_, Processed.same ?_⟩
        · rcases hBase with hBase | ⟨hBase, -⟩ <;>
            simp [asksFor, hEcho, hUnequal, hBase]
        · rcases hBase with hBase | ⟨hBase, -⟩ <;>
            simp [setsAside, hBase]
      · exact absurd hSame (hNew hBase)
      · cases hRename : Filesystem.rename H s.disk
            (H.locate info.path)
            (H.locate (conflictPath H info.path)) with
        | none =>
            have hWorks :
                renameWorks H info.path s = false := by
              simp [renameWorks, hRename]
            rw [hDecided, renameConflict_of_none hRename]
            refine ⟨?_, Processed.same ?_⟩
            · simp [asksFor, hThere, hBase, hLocal, hWorks]
            · simp [setsAside, hWorks]
        | some disk =>
            have hWorks :
                renameWorks H info.path s = true := by
              simp [renameWorks, hRename]
            rw [hDecided, renameConflict_of_some hRename]
            refine ⟨?_, Processed.renamed ?_ hRename⟩
            · simp [asksFor, hEcho, hUnequal, hWorks]
            · simp [setsAside, hEcho, hThere, hUnequal,
                hBase, hLocal, hWorks]

/- With nothing under way, the decision is as read off. -/
theorem processSingleFile_of_idle
    (H : Host)
    (peerId : String)
    (info : FileInfo)
    {s : LocalState}
    (hIdle : Idle s) :
    (processSingleFile H peerId info s).1 =
        (if asksFor H peerId s info then
          some info
        else
          none) ∧
      Processed H peerId info s
        (processSingleFile H peerId info s).2 := by
  have hCheck : checkResumeEligibility H info.path info.hash
      info.size s = (none, s) :=
    checkResumeEligibility_of_idle hIdle
  have hSame : checkedState H info s = s := by
    rw [checkedState, hCheck]
  have hFresh : resumable H info.path info.hash info.size s =
      false := by
    rw [← checkResumeEligibility_isSome, hCheck]
    rfl
  have hDecided :=
    processSingleFile_of_fresh H peerId info hFresh
  rw [hSame] at hDecided
  exact hDecided

/- A place of the right entry is away from the left one. -/
theorem Separate.away
    {H : Host}
    {left right : FileInfo}
    (hApart : Separate H left right)
    {key : Loc}
    (hKey : Region H right.path key) :
    ¬H.locate left.path <+: key ∧
      ¬H.locate (conflictPath H left.path) <+: key := by
  rcases hKey with hFile | hCopy
  · exact ⟨hApart.files.not_prefix (Or.inl hFile),
      hApart.copyFile.not_prefix (Or.inl hFile)⟩
  · exact ⟨hApart.fileCopy.not_prefix hCopy,
      hApart.copies.not_prefix hCopy⟩

/- Processing one file leaves separate ones as they were. -/
theorem Processed.sameView
    {H : Host}
    {peerId : String}
    {info other : FileInfo}
    {s s' : LocalState}
    (hProcessed : Processed H peerId info s s')
    (hApart : Separate H info other) :
    SameView H peerId other.path s s' where
  fileMap := hProcessed.fileMap
  history := hProcessed.history _ (Ne.symm hApart.path)
  disk key hKey :=
    hProcessed.disk key (hApart.away hKey).1
      (hApart.away hKey).2

------------------------------------------------------------
-- Processing Batches
------------------------------------------------------------

/-
  The invariant of a run over separate entries: nothing is
  under way, and what is still to be processed looks as it
  did at the start.
-/
structure Pending
    (H : Host)
    (peerId : String)
    (start : LocalState)
    (rest : List FileInfo)
    (s : LocalState) : Prop where
  idle : Idle s
  views : ∀ info ∈ rest, SameView H peerId info.path start s

theorem Pending.asksFor_eq
    {H : Host}
    {peerId : String}
    {start s : LocalState}
    {rest : List FileInfo}
    (hPending : Pending H peerId start rest s)
    {info : FileInfo}
    (hMem : info ∈ rest) :
    asksFor H peerId s info =
      asksFor H peerId start info :=
  asksFor_congr (hPending.views info hMem)

theorem Pending.setsAside_eq
    {H : Host}
    {peerId : String}
    {start s : LocalState}
    {rest : List FileInfo}
    (hPending : Pending H peerId start rest s)
    {info : FileInfo}
    (hMem : info ∈ rest) :
    setsAside H peerId s info =
      setsAside H peerId start info :=
  setsAside_congr (hPending.views info hMem)

/- One file is processed, and the others stay pending. -/
theorem Pending.step
    {H : Host}
    {peerId : String}
    {start s s' : LocalState}
    {info : FileInfo}
    {rest : List FileInfo}
    (hPending : Pending H peerId start (info :: rest) s)
    (hApart : ∀ other ∈ rest, Separate H info other)
    (hProcessed : Processed H peerId info s s') :
    Pending H peerId start rest s' where
  idle path entry hEntry := by
    rw [hProcessed.receiving] at hEntry
    exact hPending.idle path entry hEntry
  views other hOther :=
    (hPending.views other (List.mem_cons_of_mem _ hOther)).trans
      (hProcessed.sameView (hApart other hOther))

/- Which files a batch asks for, and which it sets aside. -/
theorem processFiles_eq
    {H : Host}
    {peerId : String}
    {start : LocalState}
    (files later : List FileInfo)
    (s : LocalState)
    (hApart : (files ++ later).Pairwise (Separate H))
    (hPending : Pending H peerId start (files ++ later) s) :
    (processFiles H peerId files s).1 =
        files.filter (asksFor H peerId start) ∧
      (processFiles H peerId files s).2.actions =
        s.actions ++
          (files.filter (setsAside H peerId start)).map
            (asideAction H) ∧
      Pending H peerId start later
        (processFiles H peerId files s).2 := by
  induction files generalizing s with
  | nil => exact ⟨rfl, by simp [processFiles], hPending⟩
  | cons info files ih =>
      rcases List.pairwise_cons.mp hApart with
        ⟨hFirst, hRest⟩
      rcases processSingleFile_of_idle H peerId info
        hPending.idle with ⟨hAsks, hProcessed⟩
      have hMem : info ∈ info :: (files ++ later) :=
        List.mem_cons_self
      rw [hPending.asksFor_eq hMem] at hAsks
      have hAside := hProcessed.actions
      rw [hPending.setsAside_eq hMem] at hAside
      rcases ih _ hRest (hPending.step hFirst hProcessed)
        with ⟨hOthers, hActions, hLater⟩
      refine ⟨?_, ?_, hLater⟩
      · unfold processFiles
        dsimp only
        rw [hAsks, hOthers, List.filter_cons]
        split <;> simp
      · unfold processFiles
        dsimp only
        rw [hActions, hAside, List.filter_cons]
        split <;> simp

/- Sending requests for files leaves the rest pending. -/
theorem Pending.paceAndSendFiles
    {H : Host}
    {peerId : String}
    {start s : LocalState}
    {rest : List FileInfo}
    (files : List FileInfo)
    (hPending : Pending H peerId start rest s) :
    Pending H peerId start rest
      (paceAndSendFiles H peerId files s) := by
  refine List.foldlRecOn files (requestFile H peerId)
    hPending ?_
  intro s' hPending' info _
  unfold requestFile buildFileRequest
  rw [checkResumeEligibility_of_idle hPending'.idle]
  refine ⟨?_, ?_⟩
  · exact idle_registerExpectedMetadata _ _ _ _
      hPending'.idle
  · intro other hOther
    refine (hPending'.views other hOther).trans ?_
    refine ⟨?_, ?_, ?_⟩
    · simp [act]
    · simp [act]
    · simp [act]

/- The effects contain a request for a path. -/
def Requests
    (actions : List Action)
    (path : String) : Prop :=
  ∃ request, .requested request ∈ actions ∧
    request.path = path

@[simp] theorem requests_append
    (left right : List Action)
    (path : String) :
    Requests (left ++ right) path ↔
      Requests left path ∨ Requests right path := by
  simp [Requests, or_and_right, exists_or]

theorem requests_map_requested
    (requests : List FileRequest)
    (path : String) :
    Requests (requests.map .requested) path ↔
      path ∈ requests.map FileRequest.path := by
  simp [Requests]

theorem not_requests_of_forall
    {actions : List Action}
    {path : String}
    (hOther : ∀ request, .requested request ∉ actions) :
    ¬Requests actions path := by
  rintro ⟨request, hMem, -⟩
  exact hOther request hMem

/- The effects of processing and requesting one batch. -/
theorem updateBatch_eq
    {H : Host}
    {peerId : String}
    {start : LocalState}
    (files later : List FileInfo)
    (s : LocalState)
    (hApart : (files ++ later).Pairwise (Separate H))
    (hPending : Pending H peerId start (files ++ later) s) :
    (∃ requests : List FileRequest,
      requests.map FileRequest.path =
          (files.filter (asksFor H peerId start)).map
            FileInfo.path ∧
        (updateBatch H peerId files s).actions =
          s.actions ++
            ((files.filter (setsAside H peerId start)).map
              (asideAction H) ++
            requests.map .requested)) ∧
      Pending H peerId start later
        (updateBatch H peerId files s) := by
  rcases processFiles_eq files later s hApart hPending with
    ⟨hAsks, hActions, hLater⟩
  rcases paceAndSendFiles_actions H peerId
    (processFiles H peerId files s).1
    (processFiles H peerId files s).2 with
    ⟨requests, hPaths, hSent⟩
  refine ⟨⟨requests, ?_, ?_⟩, hLater.paceAndSendFiles _⟩
  · rw [hPaths, hAsks]
  · unfold updateBatch
    rw [hSent, hActions, List.append_assoc]

/- A list that arrives in several update batches. -/
def updateBatches
    (H : Host)
    (peerId : String)
    (batches : List (List FileInfo))
    (s : LocalState) : LocalState :=
  batches.foldl
    (fun s files => runTask H peerId (.updateBatch files) s)
    s

/-
  However a list of separate entries is split, the run
  requests and sets aside what the first state tells.
-/
theorem updateBatches_actions
    {H : Host}
    {peerId : String}
    {start : LocalState}
    (batches : List (List FileInfo))
    (s : LocalState)
    (hApart : batches.flatten.Pairwise (Separate H))
    (hPending :
      Pending H peerId start batches.flatten s) :
    ∃ extra,
      (updateBatches H peerId batches s).actions =
          s.actions ++ extra ∧
        (∀ path, Requests extra path ↔
          ∃ info ∈ batches.flatten,
            asksFor H peerId start info = true ∧
              info.path = path) ∧
        ∀ path copy, .renamed path copy ∈ extra ↔
          ∃ info ∈ batches.flatten,
            setsAside H peerId start info = true ∧
              asideAction H info = .renamed path copy := by
  induction batches generalizing s with
  | nil =>
      refine ⟨[], by simp [updateBatches], ?_, ?_⟩
      · simp [Requests]
      · simp
  | cons files batches ih =>
      rw [List.flatten_cons] at hApart hPending
      rcases updateBatch_eq files batches.flatten s hApart
        hPending with ⟨⟨requests, hPaths, hFirst⟩, hLater⟩
      rcases ih _ (List.pairwise_append.mp hApart).2.1 hLater
        with ⟨extra, hRest, hRequests, hRenames⟩
      refine ⟨(files.filter (setsAside H peerId start)).map
        (asideAction H) ++ requests.map .requested ++ extra,
        ?_, ?_, ?_⟩
      · unfold updateBatches
        rw [List.foldl_cons]
        change (updateBatches H peerId batches
          (updateBatch H peerId files s)).actions = _
        rw [hRest, hFirst, List.append_assoc]
      · intro path
        have hNoRename : ¬Requests
            ((files.filter (setsAside H peerId start)).map
              (asideAction H)) path :=
          not_requests_of_forall
            (by simp [asideAction])
        rw [requests_append, requests_append,
          requests_map_requested, hPaths, hRequests]
        simp only [hNoRename, false_or, List.mem_map,
          List.mem_filter, List.flatten_cons,
          List.mem_append, or_and_right, exists_or,
          and_assoc]
      · intro path copy
        rw [List.mem_append, List.mem_append, hRenames]
        simp only [List.mem_map, List.mem_filter,
          reduceCtorEq, and_false, exists_false, or_false,
          List.flatten_cons, List.mem_append, or_and_right,
          exists_or, and_assoc]

end SyncHandler

end VeritasSync
