import VeritasSync.Library.Transition
import VeritasSync.P2p.BroadcastManager
import VeritasSync.Sync.StateSafety
import VeritasSync.Sync.Upload

/-
  Deletions after a flood: when the history that lets a
  reconciliation delete a file says no more than what the
  peer really had.

  The system is a node, its peer and the channel between
  them.  Uploads, deliveries, disconnects, floods and
  reconciliations happen in any order.

  Main declarations:
    * `UploadSafety.System`, `UploadSafety.step`
    * `UploadSafety.RowsHeld`, `UploadSafety.InTime`
    * `UploadSafety.deletesOnlyHeld_of_run`
-/

namespace VeritasSync

namespace UploadSafety

open LocalState PathUtils StateManager SyncManager
  SyncHandler TransferManager

------------------------------------------------------------
-- The System
------------------------------------------------------------

/- A path with the digest of its content. -/
abbrev Held := String × String

/-
  A snapshot that the peer announced.  `held` is what the
  peer had held when it took the snapshot.
-/
structure Snapshot where
  files : List FileInfo
  dirs : List String
  held : List Held

/-
  `held` collects the downloads that the peer finalized and
  the files that it announced; `snapshots` are the floods
  that the node has not reconciled with.
-/
structure System where
  node : LocalState
  peer : LocalState
  connected : Bool
  uploads : List UploadContext
  channel : List ChunkHeader
  announced : List FileInfo
  held : List Held
  snapshots : List Snapshot

/- What stays fixed on a connection. -/
structure Link where
  nodeId : String
  peerId : String
  chunkDataSize : ℕ

inductive Event where
| nodeEdits : Disk → Event
| nodeScans : Host → Event
| peerEdits : Disk → Event
| peerProcesses : Host → FileInfo → Event
| startUpload : Host → FileRequest → Event
| sendChunk : Host → ℕ → Event
| finishUpload : Host → ℕ → Event
| deliver : Host → Event
| disconnect : Event
| reconnect : Event
| flood : Host → Event
| process : Host → FileInfo → Event
| reconcile : Host → ℕ → Event

/- The delivered path, once its download was finalized. -/
def finalizedBy
    (peer : LocalState)
    (path : String) : List Held :=
  match peer.receivedFiles.lookup path with
  | none => []
  | some hash => [(path, hash)]

def sendStep
    (L : Link)
    (H : Host)
    (i : ℕ)
    (sys : System) : Option System :=
  match sys.uploads[i]? with
  | none => none
  | some ctx =>
      if ctx.currentChunk ≥ ctx.totalChunks then
        none
      else if sys.connected then
        some { sys with
          uploads := sys.uploads.set i
            { ctx with currentChunk := ctx.currentChunk + 1 }
          channel := sys.channel ++
            [nextChunk H L.chunkDataSize ctx sys.node] }
      else
        -- the send callback answers that the peer is gone
        some { sys with uploads := sys.uploads.eraseIdx i }

def finishStep
    (L : Link)
    (H : Host)
    (i : ℕ)
    (sys : System) : Option System :=
  match sys.uploads[i]? with
  | none => none
  | some ctx =>
      if ctx.currentChunk < ctx.totalChunks then
        none
      else
        some { sys with
          node := finishUpload H L.peerId ctx sys.node
          uploads := sys.uploads.eraseIdx i }

def deliverStep
    (L : Link)
    (H : Host)
    (sys : System) : Option System :=
  match sys.channel with
  | [] => none
  | chunk :: rest =>
      let peer := handleChunk H L.chunkDataSize chunk
        L.nodeId sys.peer
      some { sys with
        peer := peer
        channel := rest
        held := sys.held ++ finalizedBy peer chunk.filePath }

/- The peer scans; an empty snapshot is not announced. -/
def floodStep
    (H : Host)
    (sys : System) : Option System :=
  let scanned := scanDirectory H sys.peer
  let files := getAllFiles scanned
  let dirs := getLocalDirectories scanned
  if !sys.connected then
    none
  else if files.isEmpty && dirs.isEmpty then
    some { sys with peer := scanned }
  else
    some { sys with
      peer := scanned
      announced := sys.announced ++ files
      held := sys.held ++
        files.map (fun info => (info.path, info.hash))
      snapshots := sys.snapshots ++
        [⟨files, dirs, sys.held⟩] }

def reconcileStep
    (L : Link)
    (H : Host)
    (i : ℕ)
    (sys : System) : Option System :=
  match sys.snapshots[i]? with
  | none => none
  | some snap =>
      some { sys with
        node := runTask H L.peerId
          (.floodComplete snap.files snap.dirs) sys.node
        snapshots := sys.snapshots.eraseIdx i }

def step
    (L : Link)
    (sys : System) : Event → Option System
| .nodeEdits disk =>
    some { sys with node := { sys.node with disk := disk } }
| .nodeScans H =>
    some { sys with node := scanDirectory H sys.node }
| .peerEdits disk =>
    some { sys with peer := { sys.peer with disk := disk } }
| .peerProcesses H info =>
    some { sys with
      peer := updateBatch H L.nodeId [info] sys.peer }
| .startUpload H request =>
    (startUpload H L.chunkDataSize request sys.node).map
      (fun ctx =>
        { sys with uploads := sys.uploads ++ [ctx] })
| .sendChunk H i => sendStep L H i sys
| .finishUpload H i => finishStep L H i sys
| .deliver H => deliverStep L H sys
| .disconnect =>
    some { sys with connected := false, channel := [] }
| .reconnect => some { sys with connected := true }
| .flood H => floodStep H sys
| .process H info =>
    if info ∈ sys.announced then
      some { sys with
        node := updateBatch H L.peerId [info] sys.node }
    else
      none
| .reconcile H i => reconcileStep L H i sys

------------------------------------------------------------
-- Which Rows A Task Writes
------------------------------------------------------------

/-
  Each row for the peer in `s'` is one of `s`, or a new one
  that satisfies `p`.
-/
def GainsRows
    (peerId : String)
    (p : String → String → Prop)
    (s s' : LocalState) : Prop :=
  ∀ path row, s'.history peerId path = some row →
    s.history peerId path = some row ∨ p path row.hash

theorem GainsRows.of_history_eq
    {peerId : String}
    {p : String → String → Prop}
    {s s' : LocalState}
    (hHistory : s'.history = s.history) :
    GainsRows peerId p s s' := by
  intro path row hRow
  rw [hHistory] at hRow
  exact Or.inl hRow

theorem GainsRows.trans
    {peerId : String}
    {p : String → String → Prop}
    {s s' s'' : LocalState}
    (hFirst : GainsRows peerId p s s')
    (hSecond : GainsRows peerId p s' s'') :
    GainsRows peerId p s s'' := by
  intro path row hRow
  rcases hSecond path row hRow with hRow | hNew
  · exact hFirst path row hRow
  · exact Or.inr hNew

theorem GainsRows.foldl
    {α : Type}
    {peerId : String}
    {p : String → String → Prop}
    {step : LocalState → α → LocalState}
    (items : List α)
    (s : LocalState)
    (hStep : ∀ s item, GainsRows peerId p s (step s item)) :
    GainsRows peerId p s (items.foldl step s) :=
  List.foldlRecOn items step
    (GainsRows.of_history_eq rfl)
    (fun s' hGains item _ => hGains.trans (hStep s' item))

/- Recording one digest. -/
theorem gainsRows_recordSyncSuccess
    (H : Host)
    (peerId path hash : String)
    (s : LocalState) :
    GainsRows peerId
      (fun key value => key = path ∧ value = hash) s
      (recordSyncSuccess H peerId path hash s) := by
  intro key row hRow
  unfold recordSyncSuccess at hRow
  rw [updateSyncHistory_history] at hRow
  by_cases hKey : key = path
  · rw [if_pos ⟨rfl, hKey⟩] at hRow
    rw [← Option.some.inj hRow]
    exact Or.inr ⟨hKey, rfl⟩
  · rw [if_neg (fun hBoth => hKey hBoth.2)] at hRow
    exact Or.inl hRow

/- Deleting only ever forgets rows. -/
theorem gainsRows_deleteFile
    (H : Host)
    (peerId : String)
    (s : LocalState)
    (path : String) :
    GainsRows peerId (fun _ _ => False) s
      (deleteFile H s path) := by
  unfold deleteFile
  split
  · intro key row hRow
    left
    have hForgot : (if key = path then none
        else s.history peerId key) = some row := hRow
    split at hForgot
    · cases hForgot
    · exact hForgot
  · exact GainsRows.of_history_eq rfl

theorem history_syncDeleteDir
    (H : Host)
    (mode : SyncMode)
    (s : LocalState)
    (path : String) :
    (syncDeleteDir H mode s path).history = s.history := by
  unfold syncDeleteDir
  cases mode with
  | oneWay =>
      dsimp only
      unfold deleteTree
      dsimp only
      split <;> rfl
  | biDirectional =>
      dsimp only
      split
      · rfl
      · split <;> rfl

theorem history_syncCreateDir
    (H : Host)
    (s : LocalState)
    (path : String) :
    (syncCreateDir H s path).history = s.history := by
  unfold syncCreateDir
  split <;> rfl

theorem gainsRows_floodComplete
    (H : Host)
    (peerId : String)
    (files : List FileInfo)
    (dirs : List String)
    (s : LocalState) :
    GainsRows peerId (fun _ _ => False) s
      (runTask H peerId (.floodComplete files dirs) s) := by
  have hScan : GainsRows peerId (fun _ _ => False) s
      (scanDirectory H s) :=
    GainsRows.of_history_eq (scanDirectory_history H s)
  refine hScan.trans (GainsRows.trans
    (GainsRows.foldl _ _ (gainsRows_deleteFile H peerId))
    (GainsRows.trans
      (GainsRows.foldl _ _ (fun s dir => ?_))
      (GainsRows.foldl _ _ (fun s dir => ?_))))
  · exact GainsRows.of_history_eq
      (history_syncDeleteDir H _ s dir)
  · exact GainsRows.of_history_eq
      (history_syncCreateDir H s dir)

/-
  The decision on a file that is no echo records it at most
  under its announced digest, and only when the local file
  is known to equal it.
-/
theorem gainsRows_resolveConflict
    {H : Host}
    {peerId : String}
    {info : FileInfo}
    {s : LocalState}
    (hEcho : shouldIgnoreEcho s peerId info.path info.hash =
      false) :
    GainsRows peerId
      (fun path hash => path = info.path ∧
        hash = info.hash ∧ knownEqual H info s = true)
      s (resolveConflict H peerId info s).2 := by
  rcases resolveConflict_cases H peerId info s with
    ⟨-, hEq⟩ | ⟨-, hEqual, hEq⟩ | ⟨-, -, -, hEq⟩ |
    ⟨-, -, hBase, -, hRemote, -⟩ | ⟨-, -, -, -, -, hEq⟩
  · rw [hEq]
    exact GainsRows.of_history_eq rfl
  · rw [hEq]
    intro path row hRow
    rcases gainsRows_recordSyncSuccess H peerId info.path
      info.hash s path row hRow with
      hOld | ⟨hPath, hHash⟩
    · exact Or.inl hOld
    · exact Or.inr ⟨hPath, hHash, hEqual⟩
  · rw [hEq]
    exact GainsRows.of_history_eq rfl
  · -- an announcement of the base is an echo
    rw [Bool.eq_false_iff, ne_eq,
      shouldIgnoreEcho_iff] at hEcho
    exact absurd ⟨hBase, hRemote.symm⟩ hEcho
  · rw [hEq]
    apply GainsRows.of_history_eq
    unfold renameConflict
    dsimp only
    split <;> rfl

theorem gainsRows_processSingleFile
    (H : Host)
    (peerId : String)
    (info : FileInfo)
    (s : LocalState) :
    GainsRows peerId
      (fun path hash => path = info.path ∧
        hash = info.hash ∧
          knownEqual H info (checkedState H info s) = true)
      s (processSingleFile H peerId info s).2 := by
  have hChecked := checkResumeEligibility_checked H
    info.path info.hash info.size s
  refine GainsRows.trans
    (GainsRows.of_history_eq hChecked.history) ?_
  unfold processSingleFile checkedState
  dsimp only
  cases hResume : (checkResumeEligibility H info.path
      info.hash info.size s).1 with
  | some resume => exact GainsRows.of_history_eq rfl
  | none =>
      dsimp only
      generalize (checkResumeEligibility H info.path
        info.hash info.size s).2 = s'
      cases hEcho : shouldIgnoreEcho s' peerId info.path
          info.hash with
      | true => exact GainsRows.of_history_eq rfl
      | false =>
          have hGains :=
            gainsRows_resolveConflict (H := H) hEcho
          simp only [Bool.false_eq_true, if_false]
          generalize resolveConflict H peerId info s' =
            decided at hGains ⊢
          rcases decided with ⟨_ | _ | _, s''⟩ <;>
            exact hGains

theorem history_requestFile
    (H : Host)
    (peerId : String)
    (s : LocalState)
    (info : FileInfo) :
    (requestFile H peerId s info).history = s.history := by
  have hChecked := checkResumeEligibility_checked H
    info.path info.hash info.size s
  unfold requestFile buildFileRequest
  dsimp only
  split
  · exact hChecked.history
  · change (registerExpectedMetadata _ _ _ _ _).history = _
    rw [registerExpectedMetadata_history]
    exact hChecked.history

theorem gainsRows_updateBatch
    (H : Host)
    (peerId : String)
    (info : FileInfo)
    (s : LocalState) :
    GainsRows peerId
      (fun path hash => path = info.path ∧
        hash = info.hash ∧
          knownEqual H info (checkedState H info s) = true)
      s (updateBatch H peerId [info] s) := by
  refine (gainsRows_processSingleFile H peerId info s).trans
    (GainsRows.foldl _ _ (fun s item => ?_))
  exact GainsRows.of_history_eq
    (history_requestFile H peerId s item)

------------------------------------------------------------
-- Rows That The Peer Has Held
------------------------------------------------------------

/-
  No snapshot under way is staler than this content: each
  one that lacks the path was taken after the peer had held
  the path with that digest.
-/
def NoneStaler
    (sys : System)
    (path hash : String) : Prop :=
  ∀ snap ∈ sys.snapshots,
    hasKey (snap.files.map FileInfo.path) path = false →
      (path, hash) ∈ snap.held

/-
  The invariant: what a row for the peer says and what the
  peer announced it has held, and no snapshot under way is
  staler than a row.
-/
structure RowsHeld
    (L : Link)
    (sys : System) : Prop where
  rows : ∀ path row,
    sys.node.history L.peerId path = some row →
      (path, row.hash) ∈ sys.held
  fresh : ∀ path row,
    sys.node.history L.peerId path = some row →
      NoneStaler sys path row.hash
  announced : ∀ info ∈ sys.announced,
    (info.path, info.hash) ∈ sys.held

/-
  Before a run no flood is under way, and what the rows for
  the peer say it has held.
-/
structure Settled
    (L : Link)
    (sys : System) : Prop where
  snapshots : sys.snapshots = []
  announced : sys.announced = []
  rows : ∀ path row,
    sys.node.history L.peerId path = some row →
      (path, row.hash) ∈ sys.held

/-
  A file is recorded in time: an upload not before the peer
  has finalized it, and neither an upload nor an announced
  file while a staler snapshot waits to be reconciled.
-/
def InTime (sys : System) : Event → Prop
| .finishUpload _ i =>
    ∀ ctx, sys.uploads[i]? = some ctx → ctx.fileHash ≠ "" →
      (ctx.path, ctx.fileHash) ∈ sys.held ∧
        NoneStaler sys ctx.path ctx.fileHash
| .process H info =>
    knownEqual H info (checkedState H info sys.node) =
        true →
      NoneStaler sys info.path info.hash
| _ => True

theorem Settled.rowsHeld
    {L : Link}
    {sys : System}
    (hSettled : Settled L sys) :
    RowsHeld L sys where
  rows := hSettled.rows
  fresh := by
    intro path row hRow snap hSnap
    rw [hSettled.snapshots] at hSnap
    cases hSnap
  announced := by
    intro info hInfo
    rw [hSettled.announced] at hInfo
    cases hInfo

/-
  A step that announces nothing, takes no snapshot and adds
  only rows of contents that the peer has held in time.
-/
theorem RowsHeld.of_gainsRows
    {L : Link}
    {sys sys' : System}
    {p : String → String → Prop}
    (hInv : RowsHeld L sys)
    (hSnapshots : ∀ snap ∈ sys'.snapshots,
      snap ∈ sys.snapshots)
    (hAnnounced : sys'.announced = sys.announced)
    (hHeld : ∀ pair ∈ sys.held, pair ∈ sys'.held)
    (hGains : GainsRows L.peerId p sys.node sys'.node)
    (hNew : ∀ path hash, p path hash →
      (path, hash) ∈ sys.held ∧
        NoneStaler sys path hash) :
    RowsHeld L sys' where
  rows := by
    intro path row hRow
    apply hHeld
    rcases hGains path row hRow with hOld | hGained
    · exact hInv.rows path row hOld
    · exact (hNew path row.hash hGained).1
  fresh := by
    intro path row hRow snap hSnap hAbsent
    have hSnap' := hSnapshots snap hSnap
    rcases hGains path row hRow with hOld | hGained
    · exact hInv.fresh path row hOld snap hSnap' hAbsent
    · exact (hNew path row.hash hGained).2 snap hSnap'
        hAbsent
  announced := by
    intro info hInfo
    rw [hAnnounced] at hInfo
    exact hHeld _ (hInv.announced info hInfo)

/- One that writes no row and takes no snapshot at all. -/
theorem RowsHeld.of_quiet
    {L : Link}
    {sys sys' : System}
    (hInv : RowsHeld L sys)
    (hHistory : sys'.node.history = sys.node.history)
    (hSnapshots : sys'.snapshots = sys.snapshots)
    (hAnnounced : sys'.announced = sys.announced)
    (hHeld : sys.held ⊆ sys'.held) :
    RowsHeld L sys' :=
  hInv.of_gainsRows (p := fun _ _ => False)
    (fun _ hSnap => hSnapshots ▸ hSnap) hAnnounced
    (fun _ hPair => hHeld hPair)
    (GainsRows.of_history_eq hHistory)
    (fun _ _ hFalse => hFalse.elim)

/-
  A flood needs no condition: what the rows say has been
  held by the time its snapshot is taken.
-/
theorem RowsHeld.flood
    {L : Link}
    {H : Host}
    {sys sys' : System}
    (hInv : RowsHeld L sys)
    (hStep : floodStep H sys = some sys') :
    RowsHeld L sys' := by
  unfold floodStep at hStep
  dsimp only at hStep
  split at hStep
  · cases hStep
  · split at hStep
    · cases hStep
      exact ⟨hInv.rows, hInv.fresh, hInv.announced⟩
    · cases hStep
      constructor
      · intro path row hRow
        exact List.mem_append_left _
          (hInv.rows path row hRow)
      · intro path row hRow snap hSnap hAbsent
        rcases List.mem_append.mp hSnap with hOld | hNew
        · exact hInv.fresh path row hRow snap hOld hAbsent
        · rw [List.mem_singleton] at hNew
          subst hNew
          exact hInv.rows path row hRow
      · intro info hInfo
        rcases List.mem_append.mp hInfo with hOld | hNew
        · exact List.mem_append_left _
            (hInv.announced info hOld)
        · exact List.mem_append_right _
            (List.mem_map.mpr ⟨info, hNew, rfl⟩)

theorem gainsRows_finishUpload
    (H : Host)
    (peerId : String)
    (ctx : UploadContext)
    (s : LocalState) :
    GainsRows peerId
      (fun path hash => ctx.fileHash ≠ "" ∧
        path = ctx.path ∧ hash = ctx.fileHash)
      s (finishUpload H peerId ctx s) := by
  unfold finishUpload
  by_cases hHash : ctx.fileHash = ""
  · rw [if_pos hHash]
    exact GainsRows.of_history_eq rfl
  · rw [if_neg hHash]
    intro path row hRow
    rcases gainsRows_recordSyncSuccess H peerId ctx.path
      ctx.fileHash s path row hRow with hOld | hNew
    · exact Or.inl hOld
    · exact Or.inr ⟨hHash, hNew⟩

/- Finishing an upload changes the node and the queue. -/
theorem finishStep_eq_some
    {L : Link}
    {H : Host}
    {i : ℕ}
    {sys sys' : System}
    (hStep : finishStep L H i sys = some sys') :
    ∃ ctx, sys.uploads[i]? = some ctx ∧
      sys' = { sys with
        node := finishUpload H L.peerId ctx sys.node
        uploads := sys.uploads.eraseIdx i } := by
  unfold finishStep at hStep
  split at hStep
  next => cases hStep
  next ctx hCtx =>
    split at hStep
    · cases hStep
    · cases hStep
      exact ⟨ctx, hCtx, rfl⟩

theorem RowsHeld.finishUpload
    {L : Link}
    {H : Host}
    {i : ℕ}
    {sys sys' : System}
    (hInv : RowsHeld L sys)
    (hInTime : InTime sys (.finishUpload H i))
    (hStep : finishStep L H i sys = some sys') :
    RowsHeld L sys' := by
  rcases finishStep_eq_some hStep with ⟨ctx, hCtx, hEq⟩
  subst hEq
  refine hInv.of_gainsRows (fun _ hSnap => hSnap) rfl
    (fun _ hPair => hPair)
    (gainsRows_finishUpload H L.peerId ctx sys.node) ?_
  intro path hash hNew
  rcases hNew with ⟨hHash, hPath, hEq⟩
  rw [hPath, hEq]
  exact hInTime ctx hCtx hHash

/- An announced file was held when it was announced. -/
theorem RowsHeld.process
    {L : Link}
    {H : Host}
    {info : FileInfo}
    {sys sys' : System}
    (hInv : RowsHeld L sys)
    (hInTime : InTime sys (.process H info))
    (hStep : step L sys (.process H info) = some sys') :
    RowsHeld L sys' := by
  rw [step] at hStep
  split at hStep
  next hInfo =>
    cases hStep
    refine hInv.of_gainsRows (fun _ hSnap => hSnap) rfl
      (fun _ hPair => hPair)
      (gainsRows_updateBatch H L.peerId info sys.node) ?_
    intro path hash hNew
    rcases hNew with ⟨hPath, hEq, hEqual⟩
    rw [hPath, hEq]
    exact ⟨hInv.announced info hInfo, hInTime hEqual⟩
  next => cases hStep

/- One step that records in time keeps the rows held. -/
theorem rowsHeld_step
    (L : Link)
    (sys : System)
    (event : Event)
    (sys' : System)
    (hInv : RowsHeld L sys)
    (hInTime : InTime sys event)
    (hStep : step L sys event = some sys') :
    RowsHeld L sys' := by
  cases event with
  | nodeEdits disk =>
      cases hStep
      exact hInv.of_quiet rfl rfl rfl (List.Subset.refl _)
  | nodeScans H =>
      cases hStep
      exact hInv.of_quiet (scanDirectory_history H sys.node)
        rfl rfl (List.Subset.refl _)
  | peerEdits disk =>
      cases hStep
      exact hInv.of_quiet rfl rfl rfl (List.Subset.refl _)
  | peerProcesses H info =>
      cases hStep
      exact hInv.of_quiet rfl rfl rfl (List.Subset.refl _)
  | startUpload H request =>
      rw [step, Option.map_eq_some_iff] at hStep
      rcases hStep with ⟨ctx, -, hEq⟩
      subst hEq
      exact hInv.of_quiet rfl rfl rfl (List.Subset.refl _)
  | sendChunk H i =>
      rw [step, sendStep] at hStep
      split at hStep
      · cases hStep
      · split at hStep
        · cases hStep
        · split at hStep <;> cases hStep
          all_goals
            exact hInv.of_quiet rfl rfl rfl
              (List.Subset.refl _)
  | finishUpload H i => exact hInv.finishUpload hInTime hStep
  | deliver H =>
      rw [step, deliverStep] at hStep
      split at hStep
      · cases hStep
      · cases hStep
        exact hInv.of_quiet rfl rfl rfl
          (List.subset_append_left _ _)
  | disconnect =>
      cases hStep
      exact hInv.of_quiet rfl rfl rfl (List.Subset.refl _)
  | reconnect =>
      cases hStep
      exact hInv.of_quiet rfl rfl rfl (List.Subset.refl _)
  | flood H => exact hInv.flood hStep
  | process H info => exact hInv.process hInTime hStep
  | reconcile H i =>
      rw [step, reconcileStep] at hStep
      split at hStep
      next => cases hStep
      next snap hSnap =>
        cases hStep
        exact hInv.of_gainsRows
          (fun _ hKept => List.mem_of_mem_eraseIdx hKept)
          rfl (fun _ hPair => hPair)
          (gainsRows_floodComplete H L.peerId snap.files
            snap.dirs sys.node)
          (fun _ _ hFalse => hFalse.elim)

------------------------------------------------------------
-- Deletions After A Flood
------------------------------------------------------------

/-
  Reconciling with a snapshot deletes a tracked file whose
  digest is the recorded one only if the peer had held it
  with that digest before it took the snapshot.
-/
def DeletesOnlyHeld
    (L : Link)
    (H : Host)
    (snap : Snapshot)
    (sys : System) : Prop :=
  let scanned := scanDirectory H sys.node
  ∀ info ∈ getAllFiles scanned,
    info.path ∈ (fileActions L.peerId snap.files
        scanned).filesToDelete →
      (∃ row, sys.node.history L.peerId info.path =
        some row ∧ row.hash = info.hash) →
        (info.path, info.hash) ∈ snap.held

/-
  In every run that records in time, no reconciliation that
  can come next deletes a file which the peer had not held
  before its snapshot.
-/
theorem deletesOnlyHeld_of_run
    (L : Link)
    (start sys : System)
    (events : List Event)
    (hSettled : Settled L start)
    (hInTime : Transition.Meets (step L) InTime start
      events)
    (hRun : Transition.run (step L) start events = some sys)
    (H : Host)
    (snap : Snapshot)
    (hSnap : snap ∈ sys.snapshots) :
    DeletesOnlyHeld L H snap sys := by
  have hHeld : RowsHeld L sys :=
    Transition.invariant_of_run (rowsHeld_step L)
      hSettled.rowsHeld hInTime hRun
  intro info hInfo hDeleted hRecorded
  rcases hRecorded with ⟨row, hRow, hHash⟩
  rcases mem_filesToDelete_iff.mp hDeleted with
    ⟨other, hOther, hDelete, hPath⟩
  have hAbsent := hasKey_of_needsDelete hDelete
  rw [hPath] at hAbsent
  rw [← hHash]
  exact hHeld.fresh info.path row hRow snap hSnap hAbsent

------------------------------------------------------------
-- Examples
------------------------------------------------------------

def sampleLink : Link where
  nodeId := "node"
  peerId := "peer"
  chunkDataSize := 4

/-
  The node has scanned a new file, the peer has another one,
  and neither has recorded anything.
-/
def newFile : System where
  node := scanDirectory Host.plain
    ((LocalState.empty Host.plain .source
      .biDirectional).userWrites Host.plain "a.txt" [97])
  peer := (LocalState.empty Host.plain .destination
    .biDirectional).userWrites Host.plain "b.txt" [98]
  connected := true
  uploads := []
  channel := []
  announced := []
  held := []
  snapshots := []

/-
  The upload is recorded once it has arrived; the peer then
  deletes the file and floods.
-/
def deliveredUpload : List Event :=
  [.startUpload Host.plain ⟨"a.txt", none⟩,
    .sendChunk Host.plain 0, .deliver Host.plain,
    .finishUpload Host.plain 0,
    .peerEdits newFile.peer.disk, .flood Host.plain]

/- The upload is recorded and then lost. -/
def lostUpload : List Event :=
  [.startUpload Host.plain ⟨"a.txt", none⟩,
    .sendChunk Host.plain 0, .finishUpload Host.plain 0,
    .disconnect, .reconnect, .flood Host.plain]

theorem inTime_deliveredUpload :
    Transition.Meets (step sampleLink) InTime newFile
      deliveredUpload := by
  refine .cons trivial rfl (.cons trivial rfl
    (.cons trivial rfl (.cons ?_ rfl
      (.cons trivial rfl (.cons trivial rfl trivial)))))
  intro ctx hCtx hHash
  constructor
  · -- the delivered chunk was the whole file
    cases hCtx
    decide
  · -- no snapshot is under way yet
    intro snap hSnap
    cases hSnap

theorem settled_newFile : Settled sampleLink newFile where
  snapshots := rfl
  announced := rfl
  rows := by
    intro path row hRow
    cases hRow

/-
  Reconciling with the flood deletes the file, which the
  peer had held.
-/
theorem deletesOnlyHeld_of_deliveredUpload :
    ∃ sys,
      Transition.run (step sampleLink) newFile
          deliveredUpload = some sys ∧
        (∃ snap ∈ sys.snapshots,
          DeletesOnlyHeld sampleLink Host.plain snap sys) ∧
        (step sampleLink sys
          (.reconcile Host.plain 0)).map (fun sys' =>
            sys'.node.disk.lookup
              (Host.plain.locate "a.txt")) =
          some none := by
  refine ⟨_, rfl, ⟨_, List.mem_cons_self, ?_⟩, by decide⟩
  exact deletesOnlyHeld_of_run sampleLink newFile _
    deliveredUpload settled_newFile inTime_deliveredUpload
    rfl Host.plain _ List.mem_cons_self

/-
  The upload was recorded when its chunk was handed over,
  and the chunk was lost with the connection: reconciling
  with the next flood deletes the only copy.
-/
theorem not_deletesOnlyHeld_of_lostUpload :
    ∃ sys,
      Transition.run (step sampleLink) newFile lostUpload =
          some sys ∧
        (∃ snap ∈ sys.snapshots,
          ¬DeletesOnlyHeld sampleLink Host.plain snap sys) ∧
        sys.peer.disk.lookup (Host.plain.locate "a.txt") =
          none ∧
        (step sampleLink sys
          (.reconcile Host.plain 0)).map (fun sys' =>
            sys'.node.disk.lookup
              (Host.plain.locate "a.txt")) =
          some none := by
  refine ⟨_, rfl, ⟨_, List.mem_cons_self, ?_⟩,
    by decide, by decide⟩
  intro hHeld
  have hOnly := hHeld
    ⟨"a.txt", Digest.sampleHash [97], 0, 1⟩
    (by decide) (by decide)
    ⟨⟨Digest.sampleHash [97], 0⟩, rfl, rfl⟩
  exact absurd hOnly (by decide)

end UploadSafety

end VeritasSync
