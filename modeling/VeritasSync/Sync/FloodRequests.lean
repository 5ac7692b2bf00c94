import VeritasSync.Sync.FloodTasks
import VeritasSync.Sync.UpdateDecision

/-
  Which announced files a flood makes the receiver request.

  Main declarations:
    * `SyncHandler.RequestsExactly` and its rules
    * `SyncHandler.decisions`, `SyncHandler.Suppressed`
    * `SyncHandler.missesNothing_iff`
-/

namespace VeritasSync

namespace SyncHandler

open LocalState PathUtils StateManager SyncManager
  TransferManager

------------------------------------------------------------
-- Requests Sent By A Step
------------------------------------------------------------

/- From `s` to `s'` exactly certain paths are requested. -/
def RequestsExactly
    (paths : String → Prop)
    (s s' : LocalState) : Prop :=
  ∃ extra, s'.actions = s.actions ++ extra ∧
    ∀ path, Requests extra path ↔ paths path

namespace RequestsExactly

variable
  {s s' s'' : LocalState}
  {paths paths' : String → Prop}

theorem congr
    (hRequests : RequestsExactly paths s s')
    (hIff : ∀ path, paths path ↔ paths' path) :
    RequestsExactly paths' s s' := by
  rcases hRequests with ⟨extra, hActions, hAsks⟩
  exact ⟨extra, hActions,
    fun path => (hAsks path).trans (hIff path)⟩

theorem trans
    (hFirst : RequestsExactly paths s s')
    (hSecond : RequestsExactly paths' s' s'') :
    RequestsExactly (fun path => paths path ∨ paths' path)
      s s'' := by
  rcases hFirst with ⟨first, hFirst, hFirstAsks⟩
  rcases hSecond with ⟨second, hSecond, hSecondAsks⟩
  refine ⟨first ++ second, ?_, ?_⟩
  · rw [hSecond, hFirst, List.append_assoc]
  · intro path
    rw [requests_append, hFirstAsks, hSecondAsks]

/- A step that sends no request. -/
theorem of_emits
    (hEmits : Emits
      (fun action => ∀ request, action ≠ .requested request)
      s s') :
    RequestsExactly (fun _ => False) s s' := by
  rcases hEmits with ⟨extra, hActions, hAll⟩
  refine ⟨extra, hActions, fun path => ?_⟩
  simp only [iff_false]
  rintro ⟨request, hMem, -⟩
  exact hAll _ hMem request rfl

/- What a step asks for shows in its new effects. -/
theorem requests_newActions
    (hRequests : RequestsExactly paths s s')
    (path : String) :
    Requests (newActions s s') path ↔ paths path := by
  rcases hRequests with ⟨extra, hActions, hAsks⟩
  unfold newActions
  rw [hActions, List.drop_left]
  exact hAsks path

end RequestsExactly

theorem requests_paceAndSendFiles
    (H : Host)
    (peerId : String)
    (files : List FileInfo)
    (s : LocalState) :
    RequestsExactly (fun path => path ∈ files.map FileInfo.path) s
      (paceAndSendFiles H peerId files s) := by
  rcases paceAndSendFiles_actions H peerId files s with
    ⟨requests, hPaths, hActions⟩
  refine ⟨_, hActions, fun path => ?_⟩
  rw [← hPaths]
  simp [Requests]

------------------------------------------------------------
-- Decisions
------------------------------------------------------------

/-
  The announced files of a batch, each with the state in
  which it is processed.
-/
def batchDecisions
    (H : Host)
    (peerId : String) :
    List FileInfo → LocalState →
      List (FileInfo × LocalState)
| [], _ => []
| info :: rest, s =>
    (info, s) ::
      batchDecisions H peerId rest
        (processSingleFile H peerId info s).2

def taskDecisions
    (H : Host)
    (peerId : String)
    (s : LocalState) :
    Task → List (FileInfo × LocalState)
| .updateBatch files => batchDecisions H peerId files s
| _ => []

def decisions
    (H : Host)
    (peerId : String) :
    List Task → LocalState →
      List (FileInfo × LocalState)
| [], _ => []
| task :: rest, s =>
    taskDecisions H peerId s task ++
      decisions H peerId rest (runTask H peerId task s)

/-
  Something keeps the file from being requested: the peer's
  digest is the one last recorded for it, the local file is
  taken for the announced one, or it was changed on both
  sides and cannot be set aside.
-/
def Suppressed
    (H : Host)
    (peerId : String)
    (info : FileInfo)
    (s : LocalState) : Prop :=
  shouldIgnoreEcho s peerId info.path info.hash = true ∨
    s.disk.lookup (H.locate info.path) ≠ none ∧
      (knownEqual H info s = true ∨
        getBaseHash s peerId info.path ≠ "" ∧
          calculateSHA256 H s.disk (H.locate info.path) ≠
            getBaseHash s peerId info.path ∧
          renameWorks H info.path s = false)

/- A download goes on, or nothing suppresses the request. -/
def Served
    (H : Host)
    (peerId : String)
    (info : FileInfo)
    (s : LocalState) : Prop :=
  resumable H info.path info.hash info.size s = true ∨
    ¬Suppressed H peerId info (checkedState H info s)

theorem asksFor_iff_not_suppressed
    {H : Host}
    {peerId : String}
    {info : FileInfo}
    {s : LocalState} :
    asksFor H peerId s info = true ↔
      ¬Suppressed H peerId info s := by
  unfold asksFor Suppressed
  dsimp only
  generalize shouldIgnoreEcho s peerId info.path info.hash =
    echo
  generalize s.disk.lookup (H.locate info.path) = node
  generalize knownEqual H info s = known
  generalize getBaseHash s peerId info.path = base
  generalize calculateSHA256 H s.disk (H.locate info.path) =
    localHash
  generalize renameWorks H info.path s = works
  cases echo with
  | true => simp
  | false =>
      by_cases hNode : node = none
      · simp [hNode]
      · cases known with
        | true => simp [hNode]
        | false =>
            cases works with
            | true => simp
            | false =>
                simp only [Bool.not_false, Bool.true_and,
                  Bool.or_false, Bool.or_eq_true,
                  beq_iff_eq, hNode, false_or,
                  Bool.false_eq_true, ne_eq,
                  not_false_eq_true, true_and, and_true,
                  not_and, Decidable.not_not]
                tauto

/- A file is asked for exactly when it is served. -/
theorem processSingleFile_fst
    (H : Host)
    (peerId : String)
    (info : FileInfo)
    (s : LocalState) :
    (Served H peerId info s ∧
        (processSingleFile H peerId info s).1 = some info) ∨
      (¬Served H peerId info s ∧
        (processSingleFile H peerId info s).1 = none) := by
  unfold Served
  cases hResume : resumable H info.path info.hash info.size
      s with
  | true =>
      left
      refine ⟨Or.inl rfl, ?_⟩
      rcases processSingleFile_cases H peerId info s with
        ⟨-, hResult⟩ | ⟨hFresh, -⟩
      · rw [hResult]
      · rw [hResume] at hFresh
        cases hFresh
  | false =>
      rw [(processSingleFile_of_fresh H peerId info
        hResume).1, ← asksFor_iff_not_suppressed]
      by_cases hAsks : asksFor H peerId
          (checkedState H info s) info = true
      · left
        exact ⟨Or.inr hAsks, if_pos hAsks⟩
      · right
        refine ⟨?_, if_neg hAsks⟩
        rintro (hNever | hAsked)
        · cases hNever
        · exact hAsks hAsked

/- What a batch asks for are its served files. -/
theorem mem_processFiles_iff
    (H : Host)
    (peerId : String)
    (files : List FileInfo)
    (s : LocalState)
    (info : FileInfo) :
    info ∈ (processFiles H peerId files s).1 ↔
      ∃ before, (info, before) ∈
          batchDecisions H peerId files s ∧
        Served H peerId info before := by
  induction files generalizing s with
  | nil => simp [processFiles, batchDecisions]
  | cons first rest ih =>
      unfold processFiles batchDecisions
      simp only [List.mem_append, ih, Option.mem_toList,
        List.mem_cons, Prod.mk.injEq]
      constructor
      · rintro (hFirst | ⟨before, hMem, hServed⟩)
        · rcases processSingleFile_fst H peerId first s with
            ⟨hServed, hSome⟩ | ⟨-, hNone⟩
          · rw [hSome] at hFirst
            cases hFirst
            exact ⟨s, Or.inl ⟨rfl, rfl⟩, hServed⟩
          · rw [hNone] at hFirst
            cases hFirst
        · exact ⟨before, Or.inr hMem, hServed⟩
      · rintro ⟨before, ⟨rfl, rfl⟩ | hMem, hServed⟩
        · rcases processSingleFile_fst H peerId info before
            with ⟨-, hSome⟩ | ⟨hNot, -⟩
          · exact Or.inl hSome
          · exact (hNot hServed).elim
        · exact Or.inr ⟨before, hMem, hServed⟩

/- Deciding on the files of a batch sends no request. -/
theorem processFiles_quiet
    (H : Host)
    (peerId : String)
    (files : List FileInfo)
    (s : LocalState) :
    Emits
      (fun action => ∀ request, action ≠ .requested request)
      s (processFiles H peerId files s).2 := by
  induction files generalizing s with
  | nil => exact Emits.of_actions_eq rfl
  | cons info rest ih =>
      have hFirst : Emits (fun action =>
          ∀ request, action ≠ .requested request) s
          (processSingleFile H peerId info s).2 := by
        cases hResume : resumable H info.path info.hash
            info.size s with
        | true =>
            rcases processSingleFile_cases H peerId info s
              with ⟨-, hResult⟩ | ⟨hFresh, -⟩
            · rw [hResult]
              exact Emits.of_actions_eq rfl
            · rw [hResume] at hFresh
              cases hFresh
        | false =>
            have hActions := (processSingleFile_of_fresh H
              peerId info hResume).2.actions
            have hChecked := checkResumeEligibility_checked
              H info.path info.hash info.size s
            rw [checkedState, hChecked.actions] at hActions
            refine ⟨_, hActions, ?_⟩
            intro action hMem request hEq
            split at hMem
            · rw [List.mem_singleton.mp hMem] at hEq
              cases hEq
            · cases hMem
      exact hFirst.trans (ih _)

theorem requests_updateBatch
    (H : Host)
    (peerId : String)
    (files : List FileInfo)
    (s : LocalState) :
    RequestsExactly
      (fun path => ∃ decision ∈
          batchDecisions H peerId files s,
        decision.1.path = path ∧
          Served H peerId decision.1 decision.2) s
      (updateBatch H peerId files s) := by
  have hQuiet := RequestsExactly.of_emits
    (processFiles_quiet H peerId files s)
  have hSent := requests_paceAndSendFiles H peerId
    (processFiles H peerId files s).1
    (processFiles H peerId files s).2
  refine (hQuiet.trans hSent).congr (fun path => ?_)
  simp only [false_or, List.mem_map, mem_processFiles_iff]
  constructor
  · rintro ⟨info, ⟨before, hMem, hServed⟩, hPath⟩
    exact ⟨(info, before), hMem, hPath, hServed⟩
  · rintro ⟨⟨info, before⟩, hMem, hPath, hServed⟩
    exact ⟨info, ⟨before, hMem, hServed⟩, hPath⟩

------------------------------------------------------------
-- The Other Tasks
------------------------------------------------------------

/- Handling a batch of directories sends no request. -/
theorem dirBatch_quiet
    (H : Host)
    (creates deletes : List String)
    (s : LocalState) :
    Emits
      (fun action => ∀ request, action ≠ .requested request)
      s (dirBatch H creates deletes s) := by
  have hCreates : Emits
      (fun action => ∀ request, action ≠ .requested request)
      s (creates.foldl (createBatchDir H) s) := by
    apply Emits.foldl
    intro s path _
    unfold createBatchDir
    dsimp only
    split
    · split
      · apply Emits.of_append rfl
        intro request hEq
        cases hEq
      · split
        · exact Emits.of_actions_eq rfl
        · exact Emits.of_actions_eq rfl
    · exact Emits.of_actions_eq rfl
  unfold dirBatch
  split
  · exact Emits.of_actions_eq rfl
  · apply hCreates.trans
    apply Emits.foldl
    intro s path _
    unfold deleteSafeTree
    split
    · apply (deleteTree_emits H s path).mono
      rintro action rfl request hEq
      cases hEq
    · exact Emits.of_actions_eq rfl

/- The completion of a flood sends no request. -/
theorem floodComplete_quiet
    (H : Host)
    (peerId : String)
    (files : List FileInfo)
    (dirs : List String)
    (s : LocalState) :
    Emits
      (fun action => ∀ request, action ≠ .requested request)
      s (runTask H peerId (.floodComplete files dirs) s) := by
  have hScan : Emits
      (fun action => ∀ request, action ≠ .requested request)
      s (scanDirectory H s) :=
    Emits.of_actions_eq (scanDirectory_actions H s)
  have hPruning := pruning_emits H
    (fileActions peerId files (scanDirectory H s))
    (dirActions dirs (scanDirectory H s)) s.mode
    (scanDirectory H s)
  apply hScan.trans
  apply Emits.mono hPruning
  rintro action hAction request rfl
  exact hAction

/- The three kinds of tasks of a flood. -/
theorem floodTask_cases
    {files : List FileInfo}
    {dirs : List String}
    {task : Task}
    (hTask : task ∈ floodTasks files dirs) :
    (∃ batch, task = .updateBatch batch) ∨
      task = .dirBatch dirs [] ∨
      task = .floodComplete files (collectedDirs dirs) := by
  unfold floodTasks dirTasks updateTasks at hTask
  simp only [List.mem_append, List.mem_map,
    List.mem_singleton] at hTask
  rcases hTask with (hDirs | ⟨batch, -, rfl⟩) | hComplete
  · split at hDirs
    · cases hDirs
    · exact Or.inr (Or.inl (List.mem_singleton.mp hDirs))
  · exact Or.inl ⟨batch, rfl⟩
  · exact Or.inr (Or.inr hComplete)

theorem requests_floodTask
    (H : Host)
    (peerId : String)
    {files : List FileInfo}
    {dirs : List String}
    {task : Task}
    (hTask : task ∈ floodTasks files dirs)
    (s : LocalState) :
    RequestsExactly
      (fun path => ∃ decision ∈
          taskDecisions H peerId s task,
        decision.1.path = path ∧
          Served H peerId decision.1 decision.2) s
      (runTask H peerId task s) := by
  rcases floodTask_cases hTask with
    ⟨batch, rfl⟩ | rfl | rfl
  · exact requests_updateBatch H peerId batch s
  · apply (RequestsExactly.of_emits
      (dirBatch_quiet H dirs [] s)).congr
    simp [taskDecisions]
  · apply (RequestsExactly.of_emits
      (floodComplete_quiet H peerId files _ s)).congr
    simp [taskDecisions]

/- All tasks together ask for the served files. -/
theorem requests_runTasks
    (H : Host)
    (peerId : String)
    {files : List FileInfo}
    {dirs : List String}
    (tasks : List Task)
    (hTasks : ∀ task ∈ tasks, task ∈ floodTasks files dirs)
    (s : LocalState) :
    RequestsExactly
      (fun path => ∃ decision ∈ decisions H peerId tasks s,
        decision.1.path = path ∧
          Served H peerId decision.1 decision.2) s
      (runTasks H peerId tasks s) := by
  induction tasks generalizing s with
  | nil =>
      apply (RequestsExactly.of_emits
        (Emits.of_actions_eq rfl)).congr
      simp [decisions]
  | cons task rest ih =>
      have hFirst := requests_floodTask H peerId
        (hTasks task List.mem_cons_self) s
      have hRest := ih
        (fun other hMem =>
          hTasks other (List.mem_cons_of_mem _ hMem))
        (runTask H peerId task s)
      apply (hFirst.trans hRest).congr
      intro path
      simp only [decisions, List.mem_append, or_and_right,
        exists_or]

------------------------------------------------------------
-- Every Announced File Is Decided On
------------------------------------------------------------

def taskFiles : Task → List FileInfo
| .updateBatch files => files
| _ => []

theorem map_fst_batchDecisions
    (H : Host)
    (peerId : String)
    (files : List FileInfo)
    (s : LocalState) :
    (batchDecisions H peerId files s).map Prod.fst =
      files := by
  induction files generalizing s with
  | nil => rfl
  | cons info rest ih =>
      unfold batchDecisions
      rw [List.map_cons, ih]

theorem map_fst_decisions
    (H : Host)
    (peerId : String)
    (tasks : List Task)
    (s : LocalState) :
    (decisions H peerId tasks s).map Prod.fst =
      tasks.flatMap taskFiles := by
  induction tasks generalizing s with
  | nil => rfl
  | cons task rest ih =>
      unfold decisions
      rw [List.map_append, ih, List.flatMap_cons]
      congr 1
      cases task with
      | updateBatch files =>
          exact map_fst_batchDecisions H peerId files s
      | shareState files dirs => rfl
      | deleteBatch paths => rfl
      | createDir path => rfl
      | deleteDir path => rfl
      | dirBatch creates deletes => rfl
      | floodComplete files dirs => rfl

theorem flatMap_taskFiles_floodTasks
    (files : List FileInfo)
    (dirs : List String) :
    (floodTasks files dirs).flatMap taskFiles = files := by
  have hDirs : (dirTasks dirs).flatMap taskFiles = [] := by
    unfold dirTasks
    split <;> rfl
  have hUpdates : (updateTasks (BroadcastManager.batches
      BroadcastManager.fileUpdateBatchSize files)).flatMap
        taskFiles = files := by
    unfold updateTasks
    rw [List.flatMap_map]
    change List.flatMap id _ = files
    rw [List.flatMap_id]
    exact BroadcastManager.flatten_batches
      BroadcastManager.fileUpdateBatchSize_pos files
  unfold floodTasks
  rw [List.flatMap_append, List.flatMap_append, hDirs,
    hUpdates]
  simp [taskFiles]

------------------------------------------------------------
-- The Flood Misses Nothing
------------------------------------------------------------

/- The disk holds the announced content of the file. -/
def HasAnnounced
    (H : Host)
    (info : FileInfo)
    (s : LocalState) : Prop :=
  ∃ file, s.disk.lookup (H.locate info.path) =
      some (.file file) ∧
    H.digest.hash file.content = info.hash

/- An announced file that the receiver ought to request. -/
structure Wanted
    (H : Host)
    (info : FileInfo)
    (s : LocalState) : Prop where
  safe : isPathSafe H info.path = true
  notIgnored : H.scan.ignores info.path = false
  lacking : ¬HasAnnounced H info s

/-
  Once the tasks have run, every wanted file of the snapshot
  has been requested.
-/
def MissesNothing
    (H : Host)
    (peerId : String)
    (files : List FileInfo)
    (tasks : List Task)
    (s : LocalState) : Prop :=
  ∀ info ∈ files, Wanted H info s →
    Requests (newActions s (runTasks H peerId tasks s))
      info.path

/-
  Whatever the order in which the worker pool runs the tasks
  of a flood, nothing is missed exactly when every wanted
  file is served in the state in which it is processed.
-/
theorem missesNothing_iff
    (H : Host)
    (peerId : String)
    {sessionId : ℕ}
    {files : List FileInfo}
    {dirs : List String}
    {start : PeerSession}
    (hNamed : ∀ info ∈ files, info.path ≠ "")
    (hDistinct : (files.map FileInfo.path).Nodup)
    (hNonzero : sessionId ≠ 0)
    (hReceives : canReceive start.role start.mode = true)
    (hAccepted : start.sessionId = 0 ∨
      start.offerSide = false)
    {tasks : List Task}
    (hTasks : tasks.Perm
      (postedTasks sessionId files dirs start))
    (s : LocalState) :
    MissesNothing H peerId files tasks s ↔
      ∀ decision ∈ decisions H peerId tasks s,
        Wanted H decision.1 s →
          Served H peerId decision.1 decision.2 := by
  by_cases hSome : files ≠ [] ∨ dirs ≠ []
  · rw [postedTasks_of_nonempty hSome hNamed hNonzero
      hReceives hAccepted] at hTasks
    have hRequests := requests_runTasks H peerId tasks
      (fun task hMem => hTasks.mem_iff.mp hMem) s
    have hFiles : ((decisions H peerId tasks s).map
        Prod.fst).Perm files := by
      rw [map_fst_decisions]
      have hAll := hTasks.flatMap_right taskFiles
      rwa [flatMap_taskFiles_floodTasks] at hAll
    constructor
    · intro hMisses decision hDecision hWanted
      have hInfo : decision.1 ∈ files :=
        hFiles.mem_iff.mp (List.mem_map_of_mem hDecision)
      have hAsked := hMisses decision.1 hInfo hWanted
      rw [hRequests.requests_newActions] at hAsked
      rcases hAsked with ⟨other, hOther, hPath, hServed⟩
      -- one decision for each announced path
      have hPaths : ((decisions H peerId tasks s).map
          (fun d => d.1.path)).Nodup := by
        have hPerm := hFiles.map FileInfo.path
        rw [List.map_map] at hPerm
        exact hPerm.nodup_iff.mpr hDistinct
      have hSame := List.inj_on_of_nodup_map hPaths hOther
        hDecision hPath
      rwa [hSame] at hServed
    · intro hServed info hInfo hWanted
      rw [hRequests.requests_newActions]
      have hDecided := hFiles.mem_iff.mpr hInfo
      rcases List.mem_map.mp hDecided with
        ⟨decision, hDecision, rfl⟩
      exact ⟨decision, hDecision, rfl,
        hServed decision hDecision hWanted⟩
  · rw [not_or, not_not, not_not] at hSome
    rcases hSome with ⟨rfl, rfl⟩
    rw [postedTasks_nil] at hTasks
    have hNone := hTasks.eq_nil
    subst hNone
    constructor
    · intro _ decision hDecision
      cases hDecision
    · intro _ info hInfo
      cases hInfo

section Example

/- The source's one file. -/
def announcedLetter : FileInfo :=
  ⟨"a.txt", Digest.sampleHash [97], 0, 1⟩

def freshDestination : PeerSession :=
  PeerSession.fresh .destination .oneWay false

def letterTasks : List Task :=
  postedTasks 1 [announcedLetter] [] freshDestination

def emptyDestination : LocalState :=
  LocalState.empty Host.plain .destination .oneWay

/- The file was received once and deleted locally. -/
def deletedLetter : LocalState :=
  recordSyncSuccess Host.plain "p" "a.txt"
    (Digest.sampleHash [97]) emptyDestination

theorem missesNothing_on_empty_destination :
    MissesNothing Host.plain "p" [announcedLetter]
      letterTasks emptyDestination := by
  apply (missesNothing_iff Host.plain "p"
    (by decide) (by decide) Nat.one_ne_zero rfl
    (Or.inl rfl) (List.Perm.refl letterTasks)
    emptyDestination).mpr
  intro decision hDecision _
  have hOne : decisions Host.plain "p" letterTasks
      emptyDestination =
        [(announcedLetter, emptyDestination)] := rfl
  rw [hOne, List.mem_singleton] at hDecision
  subst hDecision
  apply Or.inr
  apply asksFor_iff_not_suppressed.mp
  decide

/-
  A file that was deleted locally since it was received is
  taken for an echo, and nobody requests it.
-/
theorem not_missesNothing_of_deleted_file :
    ¬∀ (H : Host) (peerId : String) (sessionId : ℕ)
        (files : List FileInfo) (dirs : List String)
        (start : PeerSession) (tasks : List Task)
        (s : LocalState),
      (∀ info ∈ files, info.path ≠ "") →
        (files.map FileInfo.path).Nodup →
        sessionId ≠ 0 →
        canReceive start.role start.mode = true →
        (start.sessionId = 0 ∨ start.offerSide = false) →
        tasks.Perm (postedTasks sessionId files dirs start) →
        s.mode = .oneWay →
        MissesNothing H peerId files tasks s := by
  intro hAlways
  have hMisses := hAlways Host.plain "p" 1 [announcedLetter]
    [] freshDestination letterTasks deletedLetter
    (by decide) (by decide) Nat.one_ne_zero rfl (Or.inl rfl)
    (List.Perm.refl _) rfl
  have hWanted : Wanted Host.plain announcedLetter
      deletedLetter := by
    refine ⟨by decide, rfl, ?_⟩
    rintro ⟨file, hFile, -⟩
    cases hFile
  rcases hMisses announcedLetter
    (List.mem_singleton.mpr rfl) hWanted with
    ⟨request, hMem, -⟩
  have hNone : newActions deletedLetter
      (runTasks Host.plain "p" letterTasks deletedLetter) =
        [] := rfl
  rw [hNone] at hMem
  cases hMem

end Example

end SyncHandler

end VeritasSync
