import Mathlib.Algebra.GroupWithZero.Nat
import VeritasSync.P2p.BroadcastManager
import VeritasSync.Sync.StateSafety

/-
  The accumulator of a flood under interleaved broadcasts:
  when the completion of a flood can rely on having the
  whole announced snapshot.

  Main declarations:
    * `Flood`, `Arrival`, `FloodSafety.receive`
    * `FloodSafety.receive_cases`
    * `FloodSafety.floodSafe_iff`
    * `FloodSafety.mem_completion_floodArrivals`
-/

namespace VeritasSync

------------------------------------------------------------
-- Snapshots And Arrivals
------------------------------------------------------------

/- `dir` is a directory above `path`, by their keys. -/
def IsAbove (dir path : String) : Prop :=
  PathUtils.key dir ++ ['/'] <+: PathUtils.key path

/- An announced snapshot. -/
structure Flood where
  sessionId : ℕ
  files : List FileInfo
  dirs : List String
  sessionId_ne_zero : sessionId ≠ 0

/-
  A batch that arrives during the flood: one of the flood
  itself, or one of the watcher's broadcasts.
-/
structure Arrival where
  ofFlood : Bool
  batch : Batch
deriving DecidableEq, Repr

namespace Batch

/- The entries that count for the announced files. -/
def files : Batch → List FileInfo
| .fileUpdates files => SyncHandler.namedFiles files
| _ => []

def creates : Batch → List String
| .dirs creates _ => creates
| _ => []

/- How many entries count for the directories. -/
def dirCount : Batch → ℕ
| .dirs creates deletes => creates.length + deletes.length
| _ => 0

end Batch

namespace FloodSafety

open LocalState PathUtils StateManager SyncManager
  SyncHandler SyncSession

------------------------------------------------------------
-- Counting
------------------------------------------------------------

def seenFiles (arrivals : List Arrival) : List FileInfo :=
  arrivals.flatMap (fun a => a.batch.files)

def seenDirs (arrivals : List Arrival) : List String :=
  arrivals.flatMap (fun a => a.batch.creates)

def fileCount (arrivals : List Arrival) : ℕ :=
  (arrivals.map (fun a => a.batch.files.length)).sum

def dirCount (arrivals : List Arrival) : ℕ :=
  (arrivals.map (fun a => a.batch.dirCount)).sum

/- The batches of the flood, and the broadcasts. -/
def floodPart (arrivals : List Arrival) : List Arrival :=
  arrivals.filter Arrival.ofFlood

def broadcastPart (arrivals : List Arrival) : List Arrival :=
  arrivals.filter (fun a => !a.ofFlood)

theorem fileCount_append
    (before after : List Arrival) :
    fileCount (before ++ after) =
      fileCount before + fileCount after := by
  simp [fileCount]

theorem dirCount_append
    (before after : List Arrival) :
    dirCount (before ++ after) =
      dirCount before + dirCount after := by
  simp [dirCount]

/- Each batch comes from one of the two producers. -/
theorem fileCount_parts (arrivals : List Arrival) :
    fileCount (broadcastPart arrivals) +
      fileCount (floodPart arrivals) =
        fileCount arrivals := by
  induction arrivals with
  | nil => rfl
  | cons a arrivals ih =>
      cases hFlood : a.ofFlood <;>
        simp [fileCount, broadcastPart, floodPart, hFlood]
          at ih ⊢ <;>
        omega

theorem dirCount_parts (arrivals : List Arrival) :
    dirCount (broadcastPart arrivals) +
      dirCount (floodPart arrivals) =
        dirCount arrivals := by
  induction arrivals with
  | nil => rfl
  | cons a arrivals ih =>
      cases hFlood : a.ofFlood <;>
        simp [dirCount, broadcastPart, floodPart, hFlood]
          at ih ⊢ <;>
        omega

------------------------------------------------------------
-- Runs
------------------------------------------------------------

/-
  A flood is announced, and batches arrive in some order.
  `posted` is emptied first, so that it lists the tasks of
  this run.
-/
def receive
    (flood : Flood)
    (arrivals : List Arrival)
    (p : PeerSession) : PeerSession :=
  (arrivals.map (fun a => a.batch.message)).foldl
    MessageRouter.dispatch
    (MessageRouter.dispatch { p with posted := [] }
      (.syncBegin flood.sessionId flood.files.length
        flood.dirs.length))

/- The counters have reached the announced totals. -/
def Passing
    (flood : Flood)
    (arrivals : List Arrival) : Prop :=
  flood.files.length ≤ fileCount arrivals ∧
    flood.dirs.length ≤ dirCount arrivals

/- An announced entry has not arrived from anyone. -/
def Missing
    (flood : Flood)
    (arrivals : List Arrival) : Prop :=
  (∃ info ∈ flood.files, info ∉ seenFiles arrivals) ∨
    ∃ dir ∈ flood.dirs, dir ∉ seenDirs arrivals

/-
  A directory above an announced entry has not arrived from
  anyone, announced or not.
-/
def Uncovered
    (flood : Flood)
    (arrivals : List Arrival) : Prop :=
  ∃ entry ∈ flood.files.map FileInfo.path ++ flood.dirs,
    ∃ dir, IsAbove dir entry ∧
      hasKey (seenDirs arrivals) dir = false

/-
  A completion would come too early: it would lack an entry,
  or remove a directory with an entry below.  Only one-way
  mode removes directories that are not empty.
-/
def TooEarly
    (flood : Flood)
    (mode : SyncMode)
    (arrivals : List Arrival) : Prop :=
  Missing flood arrivals ∨
    mode = .oneWay ∧ Uncovered flood arrivals

theorem passing_mono
    {flood : Flood}
    {before arrivals : List Arrival}
    (hBefore : before <+: arrivals)
    (hPassing : Passing flood before) :
    Passing flood arrivals := by
  rcases hBefore with ⟨after, rfl⟩
  unfold Passing at hPassing ⊢
  rw [fileCount_append, dirCount_append]
  omega

theorem missing_anti
    {flood : Flood}
    {before arrivals : List Arrival}
    (hBefore : before <+: arrivals)
    (hMissing : Missing flood arrivals) :
    Missing flood before := by
  rcases hBefore with ⟨after, rfl⟩
  rcases hMissing with ⟨info, hInfo, hAbsent⟩ |
    ⟨dir, hDir, hAbsent⟩
  · refine Or.inl ⟨info, hInfo, fun hSeen => hAbsent ?_⟩
    simp only [seenFiles, List.flatMap_append,
      List.mem_append]
    exact Or.inl hSeen
  · refine Or.inr ⟨dir, hDir, fun hSeen => hAbsent ?_⟩
    simp only [seenDirs, List.flatMap_append,
      List.mem_append]
    exact Or.inl hSeen

theorem hasKey_append
    (paths more : List String)
    (path : String) :
    hasKey (paths ++ more) path =
      (hasKey paths path || hasKey more path) := by
  simp [hasKey]

theorem tooEarly_anti
    {flood : Flood}
    {mode : SyncMode}
    {before arrivals : List Arrival}
    (hBefore : before <+: arrivals)
    (hEarly : TooEarly flood mode arrivals) :
    TooEarly flood mode before := by
  rcases hEarly with hMissing | ⟨hMode, hUncovered⟩
  · exact Or.inl (missing_anti hBefore hMissing)
  · rcases hUncovered with ⟨entry, hEntry, dir, hAbove, hKey⟩
    rcases hBefore with ⟨after, rfl⟩
    refine Or.inr ⟨hMode, entry, hEntry, dir, hAbove, ?_⟩
    rw [seenDirs, List.flatMap_append, hasKey_append,
      Bool.or_eq_false_iff] at hKey
    exact hKey.1

/- The directories as the accumulator keeps them. -/
def keptDirs (arrivals : List Arrival) : List String :=
  (seenDirs arrivals).foldl
    (fun dirs dir => dirs.insert dir) []

/- The accumulator after some arrivals. -/
def gathered
    (flood : Flood)
    (arrivals : List Arrival) : FloodSyncAccumulator where
  sessionId := flood.sessionId
  remoteFiles := seenFiles arrivals
  remoteDirs := keptDirs arrivals
  expectedFiles := flood.files.length
  expectedDirs := flood.dirs.length
  receivedFiles := fileCount arrivals
  receivedDirs := dirCount arrivals
  completed := false

theorem mem_foldl_insert
    (creates dirs : List String)
    (dir : String) :
    dir ∈ creates.foldl
        (fun dirs dir => dirs.insert dir) dirs ↔
      dir ∈ creates ∨ dir ∈ dirs := by
  induction creates generalizing dirs with
  | nil => simp
  | cons create creates ih =>
      rw [List.foldl_cons, ih, List.mem_insert_iff,
        List.mem_cons]
      tauto

theorem mem_keptDirs_iff
    (arrivals : List Arrival)
    (dir : String) :
    dir ∈ keptDirs arrivals ↔ dir ∈ seenDirs arrivals := by
  unfold keptDirs
  rw [mem_foldl_insert]
  simp

------------------------------------------------------------
-- One Arrival
------------------------------------------------------------

/- The entries a completion was posted with. -/
def completion? :
    Task → Option (List FileInfo × List String)
| .floodComplete files dirs => some (files, dirs)
| _ => none

def completions
    (p : PeerSession) :
    List (List FileInfo × List String) :=
  p.posted.filterMap completion?

instance
    (flood : Flood)
    (arrivals : List Arrival) :
    Decidable (Passing flood arrivals) := by
  unfold Passing
  infer_instance

/- One batch is gathered as a whole. -/
theorem gathered_snoc
    (flood : Flood)
    (arrivals : List Arrival)
    (a : Arrival) :
    gathered flood (arrivals ++ [a]) =
      { gathered flood arrivals with
        remoteFiles := seenFiles arrivals ++ a.batch.files
        remoteDirs := a.batch.creates.foldl
          (fun dirs dir => dirs.insert dir)
          (keptDirs arrivals)
        receivedFiles :=
          fileCount arrivals + a.batch.files.length
        receivedDirs :=
          dirCount arrivals + a.batch.dirCount } := by
  simp [gathered, seenFiles, seenDirs, keptDirs, fileCount,
    dirCount]

theorem checkInSession_of_gathered
    {flood : Flood}
    {arrivals : List Arrival}
    {p : PeerSession}
    (hSession : p.sessionId = flood.sessionId)
    (hAccumulator :
      p.accumulator = some (gathered flood arrivals)) :
    checkInSession p =
      if Passing flood arrivals then
        { p with accumulator := none }.post
          (.floodComplete (seenFiles arrivals)
            (keptDirs arrivals))
      else
        p := by
  have hNonzero : p.sessionId ≠ 0 := by
    rw [hSession]
    exact flood.sessionId_ne_zero
  unfold checkInSession checkAndRunCompletion
  rw [if_pos hNonzero, hAccumulator]
  by_cases hPassing : Passing flood arrivals
  · have hFiles : ¬fileCount arrivals <
        flood.files.length := by
      have := hPassing.1
      omega
    have hDirs : ¬dirCount arrivals <
        flood.dirs.length := by
      have := hPassing.2
      omega
    simp [gathered, hPassing, hFiles, hDirs]
  · have hEither :
        fileCount arrivals < flood.files.length ∨
          dirCount arrivals < flood.dirs.length := by
      unfold Passing at hPassing
      omega
    rcases hEither with hFiles | hDirs
    · simp [gathered, hPassing, hFiles]
    · simp [gathered, hPassing, hDirs]

/- An open accumulator takes the batch, then checks. -/
theorem dispatch_of_open
    {flood : Flood}
    {arrivals : List Arrival}
    {p : PeerSession}
    (hReceives : canReceive p.role p.mode = true)
    (hSession : p.sessionId = flood.sessionId)
    (hAccumulator :
      p.accumulator = some (gathered flood arrivals))
    (hOpen : ¬Passing flood arrivals)
    (a : Arrival) :
    ∃ task, completion? task = none ∧
      MessageRouter.dispatch p a.batch.message =
        if Passing flood (arrivals ++ [a]) then
          ({ p with accumulator := none }.post task).post
            (.floodComplete (seenFiles (arrivals ++ [a]))
              (keptDirs (arrivals ++ [a])))
        else
          { p with
            accumulator := some
              (gathered flood (arrivals ++ [a])) }.post
            task := by
  have hGathered := gathered_snoc flood arrivals a
  unfold MessageRouter.dispatch
  rw [if_pos hReceives]
  cases hBatch : a.batch with
  | fileUpdates files =>
      refine ⟨.updateBatch (namedFiles files), rfl, ?_⟩
      have hTaken : accumulate (addFiles (namedFiles files))
          p = { p with
            accumulator := some
              (gathered flood (arrivals ++ [a])) } := by
        rw [hGathered]
        simp [accumulate, hAccumulator, hSession,
          flood.sessionId_ne_zero, addFiles, hBatch,
          Batch.files, Batch.creates, Batch.dirCount,
          gathered]
      change handleFileUpdateBatch files p = _
      unfold handleFileUpdateBatch
      dsimp only
      rw [hTaken]
      apply checkInSession_of_gathered
      · exact hSession
      · rfl
  | fileDeletes paths =>
      refine ⟨.deleteBatch paths, rfl, ?_⟩
      have hStill : ¬Passing flood (arrivals ++ [a]) := by
        unfold Passing at hOpen ⊢
        rw [fileCount_append, dirCount_append]
        simpa [fileCount, dirCount, hBatch, Batch.files,
          Batch.dirCount] using hOpen
      rw [if_neg hStill, hGathered]
      simp [Batch.message, PeerSession.post, hBatch,
        Batch.files, Batch.creates, Batch.dirCount,
        gathered, hAccumulator]
  | dirs creates deletes =>
      refine ⟨.dirBatch creates deletes, rfl, ?_⟩
      have hTaken : accumulate (addDirs creates deletes)
          p = { p with
            accumulator := some
              (gathered flood (arrivals ++ [a])) } := by
        rw [hGathered]
        simp [accumulate, hAccumulator, hSession,
          flood.sessionId_ne_zero, addDirs, hBatch,
          Batch.files, Batch.creates, Batch.dirCount,
          gathered]
      change handleDirBatch creates deletes p = _
      unfold handleDirBatch
      rw [hTaken]
      apply checkInSession_of_gathered
      · exact hSession
      · rfl

/- Without an accumulator a batch only posts its task. -/
theorem dispatch_of_closed
    {p : PeerSession}
    (hReceives : canReceive p.role p.mode = true)
    (hAccumulator : p.accumulator = none)
    (a : Arrival) :
    ∃ task, completion? task = none ∧
      MessageRouter.dispatch p a.batch.message =
        p.post task := by
  have hCheck (task : Task) :
      checkInSession (p.post task) = p.post task := by
    simp [checkInSession, checkAndRunCompletion,
      PeerSession.post, hAccumulator]
  have hTake (update : FloodSyncAccumulator →
      FloodSyncAccumulator) : accumulate update p = p := by
    simp [accumulate, hAccumulator]
  unfold MessageRouter.dispatch
  rw [if_pos hReceives]
  cases a.batch with
  | fileUpdates files =>
      refine ⟨.updateBatch (namedFiles files), rfl, ?_⟩
      simp only [Batch.message, handleFileUpdateBatch, hTake,
        hCheck]
  | fileDeletes paths =>
      exact ⟨.deleteBatch paths, rfl, rfl⟩
  | dirs creates deletes =>
      refine ⟨.dirBatch creates deletes, rfl, ?_⟩
      simp only [Batch.message, handleDirBatch, hTake,
        hCheck]

------------------------------------------------------------
-- A Whole Run
------------------------------------------------------------

/- The accumulator is open, and nothing was completed. -/
structure Open
    (flood : Flood)
    (arrivals : List Arrival)
    (p : PeerSession) : Prop where
  notPassing : ¬Passing flood arrivals
  accumulator : p.accumulator = some (gathered flood arrivals)
  completions : completions p = []

/-
  The one completion was posted with what had arrived when
  the counters first passed.
-/
structure Completed
    (flood : Flood)
    (arrivals first : List Arrival)
    (p : PeerSession) : Prop where
  first_le : first <+: arrivals
  passing : Passing flood first
  minimal : ∀ before, before <+: first →
    Passing flood before → before = first
  accumulator : p.accumulator = none
  completions : completions p =
    [(seenFiles first, keptDirs first)]

/- What every handler leaves alone. -/
structure InSession
    (flood : Flood)
    (start p : PeerSession) : Prop where
  role : p.role = start.role
  mode : p.mode = start.mode
  sessionId : p.sessionId = flood.sessionId

theorem prefix_snoc_iff
    {before arrivals : List Arrival}
    {a : Arrival} :
    before <+: arrivals ++ [a] ↔
      before <+: arrivals ∨ before = arrivals ++ [a] := by
  rw [List.prefix_concat_iff, or_comm]

theorem receive_snoc
    (flood : Flood)
    (arrivals : List Arrival)
    (a : Arrival)
    (p : PeerSession) :
    receive flood (arrivals ++ [a]) p =
      MessageRouter.dispatch (receive flood arrivals p)
        a.batch.message := by
  simp [receive]

theorem completions_post
    (p : PeerSession)
    (task : Task) :
    completions (p.post task) =
      completions p ++ (completion? task).toList := by
  unfold completions PeerSession.post
  rw [List.filterMap_append]
  cases hTask : completion? task <;> simp [hTask]

section Run

variable
  {start : PeerSession}

/- The announcement opens the accumulator. -/
theorem receive_nil
    (flood : Flood)
    (hReceives : canReceive start.role start.mode = true)
    (hAccepted : start.sessionId = 0 ∨
      start.offerSide = false) :
    InSession flood start (receive flood [] start) ∧
      (Open flood [] (receive flood [] start) ∨
        Completed flood [] [] (receive flood [] start)) := by
  have hIgnored : ¬(start.sessionId ≠ 0 ∧
      start.offerSide = true) := by
    intro hBoth
    rcases hAccepted with hZero | hAnswer
    · exact hBoth.1 hZero
    · rw [hAnswer] at hBoth
      cases hBoth.2
  have hBegin : receive flood [] start =
      beginFloodSyncAccumulation flood.sessionId
        flood.files.length flood.dirs.length
        { start with
          posted := []
          sessionId := flood.sessionId } := by
    simp only [receive, List.map_nil, List.foldl_nil,
      MessageRouter.dispatch, hReceives, if_true]
    exact if_neg hIgnored
  rw [hBegin]
  unfold beginFloodSyncAccumulation
  dsimp only
  by_cases hEmpty : flood.files.length = 0 ∧
      flood.dirs.length = 0
  · rw [if_pos hEmpty]
    unfold checkAndRunCompletion
    simp only [Bool.false_eq_true, if_false, hEmpty.1,
      hEmpty.2, lt_irrefl]
    refine ⟨⟨rfl, rfl, rfl⟩, Or.inr ?_⟩
    refine ⟨List.prefix_refl _, ?_, ?_, rfl, rfl⟩
    · unfold Passing
      simp [hEmpty.1, hEmpty.2]
    · intro before hBefore hPassing
      exact List.prefix_nil.mp hBefore
  · rw [if_neg hEmpty]
    refine ⟨⟨rfl, rfl, rfl⟩, Or.inl ⟨?_, rfl, rfl⟩⟩
    intro hPassing
    apply hEmpty
    simpa [Passing, fileCount, dirCount] using hPassing

/-
  Whatever arrives, either the counters have not passed and
  nothing was completed, or exactly one completion was
  posted, where they first passed.
-/
theorem receive_cases
    (flood : Flood)
    (hReceives : canReceive start.role start.mode = true)
    (hAccepted : start.sessionId = 0 ∨
      start.offerSide = false)
    (arrivals : List Arrival) :
    InSession flood start (receive flood arrivals start) ∧
      (Open flood arrivals (receive flood arrivals start) ∨
        ∃ first, Completed flood arrivals first
          (receive flood arrivals start)) := by
  induction arrivals using List.reverseRecOn with
  | nil =>
      rcases receive_nil flood hReceives hAccepted with
        ⟨hSession, hOpen | hCompleted⟩
      · exact ⟨hSession, Or.inl hOpen⟩
      · exact ⟨hSession, Or.inr ⟨[], hCompleted⟩⟩
  | append_singleton arrivals a ih =>
      rcases ih with ⟨hSession, hState⟩
      rw [receive_snoc]
      generalize receive flood arrivals start = p
        at hSession hState ⊢
      have hReceives' : canReceive p.role p.mode = true := by
        rw [hSession.role, hSession.mode]
        exact hReceives
      rcases hState with hOpen | ⟨first, hCompleted⟩
      · rcases dispatch_of_open hReceives'
          hSession.sessionId hOpen.accumulator
          hOpen.notPassing a with ⟨task, hTask, hStep⟩
        rw [hStep]
        by_cases hPassing : Passing flood (arrivals ++ [a])
        · rw [if_pos hPassing]
          refine ⟨⟨hSession.role, hSession.mode,
            hSession.sessionId⟩, Or.inr ⟨arrivals ++ [a],
              List.prefix_refl _, hPassing, ?_, rfl, ?_⟩⟩
          · intro before hBefore hEarlier
            rcases prefix_snoc_iff.mp hBefore with
              hBefore | hBefore
            · exact absurd
                (passing_mono hBefore hEarlier)
                hOpen.notPassing
            · exact hBefore
          · rw [completions_post, completions_post, hTask]
            have hNone := hOpen.completions
            unfold completions at hNone ⊢
            rw [hNone]
            rfl
        · rw [if_neg hPassing]
          refine ⟨⟨hSession.role, hSession.mode,
            hSession.sessionId⟩, Or.inl ⟨hPassing, rfl, ?_⟩⟩
          rw [completions_post, hTask]
          have hNone := hOpen.completions
          unfold completions at hNone ⊢
          rw [hNone]
          rfl
      · rcases dispatch_of_closed hReceives'
          hCompleted.accumulator a with ⟨task, hTask, hStep⟩
        rw [hStep]
        refine ⟨⟨hSession.role, hSession.mode,
          hSession.sessionId⟩, Or.inr ⟨first,
            hCompleted.first_le.trans
              (List.prefix_append _ _),
            hCompleted.passing, hCompleted.minimal,
            hCompleted.accumulator, ?_⟩⟩
        rw [completions_post, hTask, hCompleted.completions]
        rfl

end Run

------------------------------------------------------------
-- What A Reconciliation Deletes
------------------------------------------------------------

/-
  A deletion that spares the snapshot: it removes a tracked
  file that is no file of the snapshot, or a tracked
  directory that is none of its directories and, when it
  goes with everything below, has none of its entries below.
-/
def Spares
    (flood : Flood)
    (scanned : LocalState) : Action → Prop
| .removed path =>
    (path ∈ (getAllFiles scanned).map FileInfo.path ∧
        hasKey (flood.files.map FileInfo.path) path =
          false) ∨
      (path ∈ getLocalDirectories scanned ∧
        hasKey flood.dirs path = false)
| .removedTree path =>
    path ∈ getLocalDirectories scanned ∧
      hasKey flood.dirs path = false ∧
      ∀ entry ∈ flood.files.map FileInfo.path ++ flood.dirs,
        ¬IsAbove path entry
| _ => True

/- The whole snapshot is among the gathered entries. -/
def Gathered
    (flood : Flood)
    (files : List FileInfo)
    (dirs : List String) : Prop :=
  (∀ info ∈ flood.files, info ∈ files) ∧
    ∀ dir ∈ flood.dirs, dir ∈ dirs

/- A directory above every entry is among the gathered. -/
def Covered
    (flood : Flood)
    (dirs : List String) : Prop :=
  ∀ entry ∈ flood.files.map FileInfo.path ++ flood.dirs,
    ∀ dir, IsAbove dir entry → hasKey dirs dir = true

/-
  With the whole snapshot its entries are spared, if no
  directory above them can go with its content.
-/
theorem spares_of_gathered
    {flood : Flood}
    {files : List FileInfo}
    {dirs : List String}
    (hGathered : Gathered flood files dirs)
    (H : Host)
    (peerId : String)
    {s : LocalState}
    (hCovered : s.mode = .oneWay → Covered flood dirs) :
    Emits (Spares flood (scanDirectory H s)) s
      (runTask H peerId (.floodComplete files dirs) s) := by
  have hPruning := pruning_emits H
    (fileActions peerId files (scanDirectory H s))
    (dirActions dirs (scanDirectory H s)) s.mode
    (scanDirectory H s)
  have hScan : Emits (Spares flood (scanDirectory H s)) s
      (scanDirectory H s) :=
    Emits.of_actions_eq (scanDirectory_actions H s)
  refine hScan.trans (hPruning.mono ?_)
  have hDir : ∀ path,
      path ∈ (dirActions dirs
          (scanDirectory H s)).dirsToDelete →
        path ∈ getLocalDirectories (scanDirectory H s) ∧
          hasKey flood.dirs path = false := by
    intro path hPath
    rcases mem_dirsToDelete_iff.mp hPath with
      ⟨hTracked, hAbsent⟩
    exact ⟨hTracked, hasKey_mono hGathered.2 hAbsent⟩
  intro action hAction
  cases action with
  | removed path =>
      rcases hAction with hFile | hPath
      · rcases mem_filesToDelete_iff.mp hFile with
          ⟨info, hInfo, hDelete, hPath⟩
        subst hPath
        refine Or.inl ⟨List.mem_map_of_mem hInfo, ?_⟩
        apply hasKey_mono _ (hasKey_of_needsDelete hDelete)
        intro path hMem
        rcases List.mem_map.mp hMem with
          ⟨member, hMember, hPath⟩
        rw [← hPath]
        exact List.mem_map_of_mem
          (hGathered.1 member hMember)
      · exact Or.inr (hDir path hPath)
  | removedTree path =>
      rcases hAction with ⟨hMode, hPath⟩
      rcases hDir path hPath with ⟨hTracked, hAbsent⟩
      refine ⟨hTracked, hAbsent, ?_⟩
      intro entry hEntry hAbove
      have hKey := hCovered hMode entry hEntry path hAbove
      rw [(mem_dirsToDelete_iff.mp hPath).2] at hKey
      cases hKey
  | createdDirs path => trivial
  | renamed source target => trivial
  | requested request => trivial

/- In one-way mode an unknown directory goes, as it is. -/
theorem removedTree_mem_actions
    {H : Host}
    {peerId : String}
    {files : List FileInfo}
    {dirs : List String}
    {s : LocalState}
    {dir : String}
    (hMode : s.mode = .oneWay)
    (hTracked : dir ∈ getLocalDirectories (scanDirectory H s))
    (hKey : hasKey dirs dir = false) :
    .removedTree dir ∈
      (runTask H peerId (.floodComplete files dirs)
        s).actions := by
  have hDelete : dir ∈ sortByLength
      (dirActions dirs (scanDirectory H s)).dirsToDelete := by
    rw [sortByLength, List.mem_insertionSort]
    exact mem_dirsToDelete_iff.mpr ⟨hTracked, hKey⟩
  rcases List.append_of_mem hDelete with
    ⟨before, after, hSplit⟩
  have hKept : ∀ (step : LocalState → String → LocalState)
      (paths : List String) (s' : LocalState),
      (∀ s path, Emits (fun _ => True) s (step s path)) →
      .removedTree dir ∈ s'.actions →
      .removedTree dir ∈ (paths.foldl step s').actions := by
    intro step paths s' hStep hMem
    rcases Emits.foldl s' (fun s path _ => hStep s path) with
      ⟨extra, hActions, -⟩
    rw [hActions]
    exact List.mem_append_left _ hMem
  change _ ∈ (syncDirectoryActions H _ s.mode _).actions
  unfold syncDirectoryActions
  rw [hSplit, hMode, List.foldl_append, List.foldl_cons]
  apply hKept
  · intro s path
    exact (syncCreateDir_emits H s path).mono
      (fun _ _ => trivial)
  apply hKept
  · intro s path
    exact (syncDeleteDir_emits H .oneWay s path).mono
      (fun _ _ => trivial)
  change _ ∈ (deleteTree H _ dir).actions
  unfold deleteTree
  dsimp only
  split <;>
    exact List.mem_append_right _ List.mem_cons_self

/-
  A node whose map holds a directory of an earlier scan; the
  walk fails and leaves it there.
-/
theorem exists_tracked (dir : String) :
    ∃ (H : Host) (s : LocalState), s.mode = .oneWay ∧
      s.actions = [] ∧
      dir ∈ getLocalDirectories (scanDirectory H s) := by
  let H : Host := { Host.plain with
    scan := { ScanConditions.plain with walkFails := true } }
  refine ⟨H, { LocalState.empty H .destination .oneWay with
    dirMap := [dir] }, rfl, rfl, ?_⟩
  exact List.mem_singleton.mpr rfl

------------------------------------------------------------
-- When A Flood Is Safe
------------------------------------------------------------

/-
  A completion is posted only with the whole snapshot, and
  whenever and on whatever state it runs, its reconciliation
  spares the snapshot.  The node has the mode of its
  connections.
-/
def FloodSafe
    (flood : Flood)
    (arrivals : List Arrival)
    (start : PeerSession) : Prop :=
  ∀ files dirs,
    .floodComplete files dirs ∈
        (receive flood arrivals start).posted →
      Gathered flood files dirs ∧
        ∀ H peerId s, s.mode = start.mode →
          Emits (Spares flood (scanDirectory H s)) s
            (runTask H peerId (.floodComplete files dirs) s)

/-
  While an announced entry is missing, or in one-way mode a
  directory above one, the broadcasts have not made up for
  the files, or not for the directories, that the flood still
  owes.
-/
def KeepsPace
    (flood : Flood)
    (mode : SyncMode)
    (arrivals : List Arrival) : Prop :=
  ∀ before, before <+: arrivals →
    TooEarly flood mode before →
    fileCount (broadcastPart before) <
        flood.files.length - fileCount (floodPart before) ∨
      dirCount (broadcastPart before) <
        flood.dirs.length - dirCount (floodPart before)

theorem mem_completions_iff
    (p : PeerSession)
    (files : List FileInfo)
    (dirs : List String) :
    (files, dirs) ∈ completions p ↔
      .floodComplete files dirs ∈ p.posted := by
  unfold completions
  rw [List.mem_filterMap]
  constructor
  · rintro ⟨task, hTask, hEq⟩
    cases task <;> simp [completion?] at hEq
    obtain ⟨rfl, rfl⟩ := hEq
    exact hTask
  · intro hTask
    exact ⟨_, hTask, rfl⟩

/- Missing entries are what is not gathered. -/
theorem gathered_iff_not_missing
    (flood : Flood)
    (arrivals : List Arrival) :
    Gathered flood (seenFiles arrivals)
        (keptDirs arrivals) ↔
      ¬Missing flood arrivals := by
  unfold Gathered Missing
  simp only [mem_keptDirs_iff]
  push Not
  rfl

/- The broadcasts made up for what the flood still owes. -/
theorem passing_iff
    (flood : Flood)
    (arrivals : List Arrival) :
    Passing flood arrivals ↔
      ¬(fileCount (broadcastPart arrivals) <
          flood.files.length -
            fileCount (floodPart arrivals) ∨
        dirCount (broadcastPart arrivals) <
          flood.dirs.length -
            dirCount (floodPart arrivals)) := by
  have hFiles := fileCount_parts arrivals
  have hDirs := dirCount_parts arrivals
  unfold Passing
  omega

/- The kept directories cover what the seen ones do. -/
theorem covered_of_not_uncovered
    {flood : Flood}
    {arrivals : List Arrival}
    (hNot : ¬Uncovered flood arrivals) :
    Covered flood (keptDirs arrivals) := by
  intro entry hEntry dir hAbove
  cases hKey : hasKey (keptDirs arrivals) dir with
  | true => rfl
  | false =>
      apply absurd _ hNot
      refine ⟨entry, hEntry, dir, hAbove, ?_⟩
      exact hasKey_mono (fun other hMem =>
        (mem_keptDirs_iff arrivals other).mpr hMem) hKey

/- Keeping pace, a flood does not complete too early. -/
theorem not_tooEarly_of_keepsPace
    {flood : Flood}
    {mode : SyncMode}
    {arrivals first : List Arrival}
    {p : PeerSession}
    (hPace : KeepsPace flood mode arrivals)
    (hCompleted : Completed flood arrivals first p) :
    ¬TooEarly flood mode first := by
  intro hEarly
  exact (passing_iff flood first).mp hCompleted.passing
    (hPace first hCompleted.first_le hEarly)

theorem gathered_of_not_tooEarly
    {flood : Flood}
    {mode : SyncMode}
    {arrivals : List Arrival}
    (hNot : ¬TooEarly flood mode arrivals) :
    Gathered flood (seenFiles arrivals)
      (keptDirs arrivals) := by
  rw [gathered_iff_not_missing]
  exact fun hMissing => hNot (Or.inl hMissing)

/- A safe completion has not come too early. -/
theorem not_tooEarly_of_spares
    {flood : Flood}
    {mode : SyncMode}
    {arrivals : List Arrival}
    (hGathered : Gathered flood (seenFiles arrivals)
      (keptDirs arrivals))
    (hSpares : ∀ H peerId s, s.mode = mode →
      Emits (Spares flood (scanDirectory H s)) s
        (runTask H peerId (.floodComplete
          (seenFiles arrivals) (keptDirs arrivals)) s)) :
    ¬TooEarly flood mode arrivals := by
  rintro (hMissing | ⟨hMode, entry, hEntry, dir, hAbove,
    hKey⟩)
  · exact (gathered_iff_not_missing flood arrivals).mp
      hGathered hMissing
  · rcases exists_tracked dir with
      ⟨H, s, hOneWay, hNone, hTracked⟩
    have hKept : hasKey (keptDirs arrivals) dir = false :=
      hasKey_mono (fun other hMem =>
        (mem_keptDirs_iff arrivals other).mp hMem) hKey
    rcases hSpares H "" s (hOneWay.trans hMode.symm) with
      ⟨extra, hActions, hAll⟩
    rw [hNone, List.nil_append] at hActions
    have hRemoved : .removedTree dir ∈ extra := by
      rw [← hActions]
      exact removedTree_mem_actions hOneWay hTracked hKept
    exact (hAll _ hRemoved).2.2 entry hEntry hAbove

/-
  A flood is safe exactly when, at every moment at which an
  announced entry is missing or could go with a directory
  above it, the entries broadcast so far cannot stand in for
  those the flood still owes.
-/
theorem floodSafe_iff
    (flood : Flood)
    (arrivals : List Arrival)
    (start : PeerSession)
    (hReceives : canReceive start.role start.mode = true)
    (hAccepted : start.sessionId = 0 ∨
      start.offerSide = false) :
    FloodSafe flood arrivals start ↔
      KeepsPace flood start.mode arrivals := by
  have hCases := (receive_cases flood hReceives hAccepted
    arrivals).2
  constructor
  · intro hSafe before hBefore hEarly
    by_contra hPace
    have hPassing := (passing_iff flood before).mpr hPace
    rcases hCases with hOpen | ⟨first, hCompleted⟩
    · exact hOpen.notPassing
        (passing_mono hBefore hPassing)
    · -- the counters first passed at or before this moment
      have hFirst : first <+: before := by
        rcases List.prefix_or_prefix_of_prefix
          hCompleted.first_le hBefore with
          hFirst | hLater
        · exact hFirst
        · rw [hCompleted.minimal before hLater hPassing]
      have hPosted :=
        (mem_completions_iff _ (seenFiles first)
          (keptDirs first)).mp
          (by rw [hCompleted.completions]; simp)
      rcases hSafe _ _ hPosted with ⟨hWhole, hSpares⟩
      exact not_tooEarly_of_spares hWhole hSpares
        (tooEarly_anti hFirst hEarly)
  · intro hPace files dirs hPosted
    rcases hCases with hOpen | ⟨first, hCompleted⟩
    · rw [← mem_completions_iff, hOpen.completions] at hPosted
      cases hPosted
    · rw [← mem_completions_iff, hCompleted.completions,
        List.mem_singleton, Prod.mk.injEq] at hPosted
      rw [hPosted.1, hPosted.2]
      have hNot := not_tooEarly_of_keepsPace hPace hCompleted
      have hWhole := gathered_of_not_tooEarly hNot
      refine ⟨hWhole, ?_⟩
      intro H peerId s hMode
      apply spares_of_gathered hWhole
      intro hOneWay
      apply covered_of_not_uncovered
      exact fun hUncovered =>
        hNot (Or.inr ⟨hMode ▸ hOneWay, hUncovered⟩)

------------------------------------------------------------
-- An Undisturbed Flood
------------------------------------------------------------

/- The batches of the flood arrive, and nothing else. -/
def floodArrivals (flood : Flood) : List Arrival :=
  (BroadcastManager.floodBatches flood.files
    flood.dirs).map (fun batch => ⟨true, batch⟩)

theorem length_seenFiles (arrivals : List Arrival) :
    (seenFiles arrivals).length = fileCount arrivals := by
  simp [seenFiles, fileCount, List.length_flatMap]

theorem length_seenDirs_le (arrivals : List Arrival) :
    (seenDirs arrivals).length ≤ dirCount arrivals := by
  induction arrivals with
  | nil => exact le_refl _
  | cons a arrivals ih =>
      have hOne : a.batch.creates.length ≤
          a.batch.dirCount := by
        cases hBatch : a.batch <;>
          simp [Batch.creates, Batch.dirCount]
      simp only [seenDirs, dirCount, List.flatMap_cons,
        List.length_append, List.map_cons,
        List.sum_cons] at ih ⊢
      omega

theorem seenFiles_floodArrivals
    {flood : Flood}
    (hNamed : ∀ info ∈ flood.files, info.path ≠ "") :
    seenFiles (floodArrivals flood) = flood.files := by
  have hBatches := BroadcastManager.flatten_batches
    BroadcastManager.fileUpdateBatchSize_pos flood.files
  have hKept : namedFiles flood.files = flood.files := by
    unfold namedFiles
    rw [List.filter_eq_self]
    intro info hInfo
    simpa using hNamed info hInfo
  calc
    seenFiles (floodArrivals flood)
      = ((BroadcastManager.batches
          BroadcastManager.fileUpdateBatchSize
          flood.files).map namedFiles).flatten := by
          unfold seenFiles floodArrivals
            BroadcastManager.floodBatches
            BroadcastManager.broadcastDirChangesBatch
            BroadcastManager.broadcastFileUpdatesBatch
          split <;>
            simp [Batch.files, List.flatMap_def,
              Function.comp_def]
    _ = namedFiles flood.files := by
          unfold namedFiles
          rw [← List.filter_flatten, hBatches]
    _ = flood.files := hKept

theorem dirCount_floodArrivals (flood : Flood) :
    seenDirs (floodArrivals flood) = flood.dirs ∧
      dirCount (floodArrivals flood) =
        flood.dirs.length := by
  unfold seenDirs dirCount floodArrivals
    BroadcastManager.floodBatches
    BroadcastManager.broadcastDirChangesBatch
    BroadcastManager.broadcastFileUpdatesBatch
  cases hDirs : flood.dirs with
  | nil =>
      simp [List.flatMap_map, Batch.creates, Batch.dirCount,
        Function.comp_def]
  | cons dir dirs =>
      simp [List.flatMap_map, Batch.creates, Batch.dirCount,
        Function.comp_def]

/-
  A flood that no broadcast disturbs keeps pace: when its
  counters pass, all of it has arrived.
-/
theorem keepsPace_floodArrivals
    {flood : Flood}
    {mode : SyncMode}
    (hNamed : ∀ info ∈ flood.files, info.path ≠ "")
    (hCovered : mode = .oneWay → Covered flood flood.dirs) :
    KeepsPace flood mode (floodArrivals flood) := by
  intro before hBefore hEarly
  by_contra hPace
  have hPassing := (passing_iff flood before).mpr hPace
  rcases hBefore with ⟨after, hAll⟩
  have hFiles := seenFiles_floodArrivals hNamed
  rcases dirCount_floodArrivals flood with ⟨hDirs, hCount⟩
  rw [← hAll] at hFiles hDirs hCount
  have hLength := congrArg List.length hFiles
  simp only [seenFiles, seenDirs,
    List.flatMap_append] at hFiles hDirs
  rw [length_seenFiles, fileCount_append] at hLength
  rw [dirCount_append] at hCount
  -- nothing is left for the rest of the flood
  have hNoFiles : seenFiles after = [] := by
    rw [← List.length_eq_zero_iff, length_seenFiles]
    have := hPassing.1
    omega
  have hNoDirs : seenDirs after = [] := by
    rw [← List.length_eq_zero_iff]
    have := length_seenDirs_le after
    have := hPassing.2
    omega
  unfold seenFiles at hNoFiles
  unfold seenDirs at hNoDirs
  rw [hNoFiles, List.append_nil] at hFiles
  rw [hNoDirs, List.append_nil] at hDirs
  rcases hEarly with (⟨info, hInfo, hAbsent⟩ |
    ⟨dir, hDir, hAbsent⟩) |
    ⟨hMode, entry, hEntry, dir, hAbove, hKey⟩
  · rw [← hFiles] at hInfo
    exact hAbsent hInfo
  · rw [← hDirs] at hDir
    exact hAbsent hDir
  · have hKnown := hCovered hMode entry hEntry dir hAbove
    rw [← hDirs] at hKnown
    exact Bool.false_ne_true (hKey.symm.trans hKnown)

/-
  The completion of an undisturbed flood carries exactly the
  announced entries.
-/
theorem mem_completion_floodArrivals
    {flood : Flood}
    {start : PeerSession}
    (hNamed : ∀ info ∈ flood.files, info.path ≠ "")
    (hReceives : canReceive start.role start.mode = true)
    (hAccepted : start.sessionId = 0 ∨
      start.offerSide = false)
    {files : List FileInfo}
    {dirs : List String}
    (hPosted : .floodComplete files dirs ∈
      (receive flood (floodArrivals flood) start).posted) :
    (∀ info, info ∈ files ↔ info ∈ flood.files) ∧
      ∀ dir, dir ∈ dirs ↔ dir ∈ flood.dirs := by
  rcases (receive_cases flood hReceives hAccepted
    (floodArrivals flood)).2 with
    hOpen | ⟨first, hCompleted⟩
  · rw [← mem_completions_iff, hOpen.completions] at hPosted
    cases hPosted
  · rw [← mem_completions_iff, hCompleted.completions,
      List.mem_singleton, Prod.mk.injEq] at hPosted
    rw [hPosted.1, hPosted.2]
    have hPace : KeepsPace flood .biDirectional
        (floodArrivals flood) :=
      keepsPace_floodArrivals hNamed (fun hMode => by
        cases hMode)
    have hWhole := gathered_of_not_tooEarly
      (not_tooEarly_of_keepsPace hPace hCompleted)
    have hFiles := seenFiles_floodArrivals hNamed
    have hDirs := (dirCount_floodArrivals flood).1
    rcases hCompleted.first_le with ⟨rest, hAll⟩
    rw [← hAll] at hFiles hDirs
    refine ⟨fun info => ⟨?_, hWhole.1 info⟩,
      fun dir => ⟨?_, hWhole.2 dir⟩⟩
    · intro hSeen
      rw [← hFiles]
      simp only [seenFiles, List.flatMap_append,
        List.mem_append]
      exact Or.inl hSeen
    · intro hKept
      rw [mem_keptDirs_iff] at hKept
      rw [← hDirs]
      simp only [seenDirs, List.flatMap_append,
        List.mem_append]
      exact Or.inl hKept

------------------------------------------------------------
-- Examples
------------------------------------------------------------

/- A snapshot of one file directly below the root. -/
def oneFile : Flood where
  sessionId := 1
  files := [⟨"a.txt", Digest.sampleHash [97], 1, 1⟩]
  dirs := []
  sessionId_ne_zero := by decide

/- Nothing is above the one file but the root. -/
theorem covered_oneFile : Covered oneFile [] := by
  intro path hPath dir hAbove
  have hText : path = "a.txt" := by
    simpa [oneFile] using hPath
  subst hText
  have hSlash : '/' ∈ PathUtils.key "a.txt" :=
    hAbove.subset (by simp)
  exact absurd hSlash (by decide)

/- The flood of one file alone is safe. -/
theorem floodSafe_of_oneFile :
    FloodSafe oneFile (floodArrivals oneFile)
      (PeerSession.fresh .destination .oneWay false) :=
  (floodSafe_iff oneFile (floodArrivals oneFile) _ (by decide)
    (Or.inl rfl)).mpr
      (keepsPace_floodArrivals (by decide)
        (fun _ => covered_oneFile))

/-
  A broadcast of another file counts for the announced one:
  the flood completes without it, and the reconciliation
  deletes the file that the peer announced.
-/
theorem not_floodSafe_with_broadcast :
    ¬FloodSafe oneFile
        [⟨false, .fileUpdates
          [⟨"b.txt", Digest.sampleHash [98], 1, 1⟩]⟩]
        (PeerSession.fresh .destination .oneWay false) ∧
      (runTask Host.plain "peer"
        (.floodComplete
          [⟨"b.txt", Digest.sampleHash [98], 1, 1⟩] [])
        ((LocalState.empty Host.plain .destination
          .oneWay).userWrites Host.plain "a.txt"
            [97])).disk.lookup
              (Host.plain.locate "a.txt") = none := by
  constructor
  · intro hSafe
    have hWhole := (hSafe
      [⟨"b.txt", Digest.sampleHash [98], 1, 1⟩] []
      (by decide)).1.1
    exact absurd (hWhole
      ⟨"a.txt", Digest.sampleHash [97], 1, 1⟩
        (by decide)) (by decide)
  · decide

/-
  All of a snapshot has arrived, and its file still goes with
  the directory that the snapshot does not name.
-/
example :
    (runTask Host.plain "peer"
      (.floodComplete
        [⟨"d/a.txt", Digest.sampleHash [97], 1, 1⟩] [])
      ((LocalState.empty Host.plain .destination
        .oneWay).userWrites Host.plain "d/a.txt"
          [97])).disk.lookup
            (Host.plain.locate "d/a.txt") = none := by
  decide

end FloodSafety

end VeritasSync
