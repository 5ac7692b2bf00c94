import Mathlib.Data.List.Nodup
import VeritasSync.Library.ThreeWay
import VeritasSync.Sync.UpdateDecision

/-
  The two ways in which a remote list arrives, compared: as
  one full state, or split into incremental batches.

  Main declarations:
    * `SyncHandler.SameDecisions`
    * `SyncHandler.PassedOver`, `SyncHandler.RuleHolds`
    * `SyncHandler.sameDecisions_iff`
-/

namespace VeritasSync

namespace SyncHandler

open LocalState StateManager SyncManager TransferManager

------------------------------------------------------------
-- The Property
------------------------------------------------------------

/- The digest recorded with the peer, if there is one. -/
def baseDigest
    (s : LocalState)
    (peerId path : String) : Option String :=
  if getBaseHash s peerId path = "" then
    none
  else
    some (getBaseHash s peerId path)

/- The documented rule on a path present on both sides. -/
def verdict
    (H : Host)
    (peerId : String)
    (s : LocalState)
    (info : FileInfo)
    (file : File) : ThreeWay.Verdict :=
  ThreeWay.classify (baseDigest s peerId info.path)
    (H.digest.hash file.content) info.hash

/- The effects of a list that arrives as one state. -/
def stateEffects
    (H : Host)
    (peerId : String)
    (files : List FileInfo)
    (dirs : List String)
    (s : LocalState) : List Action :=
  newActions s (runTask H peerId (.shareState files dirs) s)

/- The effects of a list that arrives in batches. -/
def updateEffects
    (H : Host)
    (peerId : String)
    (batches : List (List FileInfo))
    (s : LocalState) : List Action :=
  newActions s (updateBatches H peerId batches s)

/-
  Both ways request the same paths, and both follow the
  three-way rule on every path present on both sides.
-/
structure SameDecisions
    (H : Host)
    (peerId : String)
    (files : List FileInfo)
    (dirs : List String)
    (batches : List (List FileInfo))
    (s : LocalState) : Prop where
  requests : ∀ path,
    Requests (stateEffects H peerId files dirs s) path ↔
      Requests (updateEffects H peerId batches s) path
  stateRule : ∀ info ∈ files, ∀ file,
    s.disk.lookup (H.locate info.path) =
        some (.file file) →
      (verdict H peerId s info file).Follows
        (Requests (stateEffects H peerId files dirs s)
          info.path)
        (info.path ∈ (fileActions peerId files
          (scanDirectory H s)).filesToConflictRename)
  updateRule : ∀ info ∈ files, ∀ file,
    s.disk.lookup (H.locate info.path) =
        some (.file file) →
      (verdict H peerId s info file).Follows
        (Requests (updateEffects H peerId batches s)
          info.path)
        (∃ copy, .renamed info.path copy ∈
          updateEffects H peerId batches s)

/- The digest that a fresh scan lists for a path. -/
def scannedHash
    (H : Host)
    (s : LocalState)
    (path : String) : Option String :=
  localFileHash (getAllFiles (scanDirectory H s)) path

/-
  A batch passes over a path where something is: its recorded
  digest is announced again, or what is there is taken for
  the announced file, or it was changed on both sides and
  cannot be renamed.
-/
def PassedOver
    (H : Host)
    (peerId : String)
    (s : LocalState)
    (info : FileInfo) : Prop :=
  shouldIgnoreEcho s peerId info.path info.hash = true ∨
    knownEqual H info s = true ∨
      getBaseHash s peerId info.path ≠ "" ∧
        calculateSHA256 H s.disk (H.locate info.path) ≠
          getBaseHash s peerId info.path ∧
        renameWorks H info.path s = false

/-
  Where the two ways agree on one path.  The scan lists the
  announced digest just where a batch asks for nothing, and
  for a changed file what the rule needs: both versions kept
  for a conflict need a recorded digest, an entry of the list
  with neither digest, and a rename that works.
-/
def RuleHolds
    (H : Host)
    (peerId : String)
    (s : LocalState)
    (info : FileInfo) : Prop :=
  match s.disk.lookup (H.locate info.path) with
  | none =>
      scannedHash H s info.path = some info.hash ↔
        shouldIgnoreEcho s peerId info.path info.hash = true
  | some .dir =>
      scannedHash H s info.path = some info.hash ↔
        PassedOver H peerId s info
  | some (.file file) =>
      match verdict H peerId s info file with
      | .same =>
          scannedHash H s info.path = some info.hash ↔
            PassedOver H peerId s info
      | .keep => scannedHash H s info.path = some info.hash
      | .fetch =>
          scannedHash H s info.path ≠ some info.hash ∧
            ¬PassedOver H peerId s info
      | .conflict =>
          getBaseHash s peerId info.path ≠ "" ∧
            ¬PassedOver H peerId s info ∧
            ∃ localHash,
              scannedHash H s info.path = some localHash ∧
                localHash ≠ info.hash ∧
                localHash ≠ getBaseHash s peerId info.path

------------------------------------------------------------
-- The Two Ways, Path By Path
------------------------------------------------------------

theorem stateEffects_requests_iff
    (H : Host)
    (peerId : String)
    (files : List FileInfo)
    (dirs : List String)
    (s : LocalState)
    (path : String) :
    Requests (stateEffects H peerId files dirs s) path ↔
      ∃ info ∈ files,
        localFileHash (getAllFiles (scanDirectory H s))
          info.path ≠ some info.hash ∧ info.path = path := by
  rcases reconcile_actions H peerId files dirs s with
    ⟨pruning, requests, hPruning, hPaths, hActions⟩
  have hNone : ¬Requests pruning path :=
    not_requests_of_forall
      (fun request hMem => hPruning _ hMem)
  unfold stateEffects runTask
  rw [hActions, requests_append, requests_map_requested,
    hPaths]
  simp only [hNone, false_or]
  exact mem_filesToRequest_iff

/- In a list of separate entries a path occurs once. -/
theorem exists_path_iff
    {H : Host}
    {files : List FileInfo}
    (hApart : files.Pairwise (Separate H))
    {info : FileInfo}
    (hMem : info ∈ files)
    (p : FileInfo → Prop) :
    (∃ other ∈ files, p other ∧ other.path = info.path) ↔
      p info := by
  have hNodup : (files.map FileInfo.path).Nodup :=
    List.pairwise_map.mpr
      (hApart.imp (fun hSeparate => hSeparate.path))
  constructor
  · rintro ⟨other, hOther, hHolds, hPath⟩
    have hEq := List.inj_on_of_nodup_map hNodup hOther hMem
      hPath
    exact hEq ▸ hHolds
  · exact fun hHolds => ⟨info, hMem, hHolds, rfl⟩

/-
  What both ways must decide about one entry, and the
  conflict that the full state must list.
-/
structure EntryAgrees
    (H : Host)
    (peerId : String)
    (s : LocalState)
    (info : FileInfo) : Prop where
  requests :
    scannedHash H s info.path ≠ some info.hash ↔
      asksFor H peerId s info = true
  rule : ∀ file,
    s.disk.lookup (H.locate info.path) =
        some (.file file) →
      (verdict H peerId s info file).Follows
        (asksFor H peerId s info = true)
        (setsAside H peerId s info = true)
  listed : ∀ file,
    s.disk.lookup (H.locate info.path) =
        some (.file file) →
      verdict H peerId s info file = .conflict →
      ∃ localHash,
        scannedHash H s info.path = some localHash ∧
          localHash ≠ info.hash ∧
          detectConflict localHash
            (s.history peerId info.path) = true

section Entry

variable
  {H : Host}
  {peerId : String}
  {s : LocalState}
  {info : FileInfo}
  {file : File}

/- A batch asks for what is there unless it passes over it. -/
theorem asksFor_iff_of_present
    (hNode : s.disk.lookup (H.locate info.path) ≠ none) :
    asksFor H peerId s info = true ↔
      ¬PassedOver H peerId s info := by
  unfold asksFor PassedOver
  dsimp only
  cases shouldIgnoreEcho s peerId info.path info.hash <;>
    cases knownEqual H info s <;>
    cases renameWorks H info.path s <;>
    simp [hNode, or_iff_not_imp_left]

/- It sets aside what it asks for and has changed too. -/
theorem setsAside_iff_of_present
    (hNode : s.disk.lookup (H.locate info.path) ≠ none) :
    setsAside H peerId s info = true ↔
      ¬PassedOver H peerId s info ∧
        getBaseHash s peerId info.path ≠ "" ∧
        calculateSHA256 H s.disk (H.locate info.path) ≠
          getBaseHash s peerId info.path := by
  unfold setsAside PassedOver
  dsimp only
  cases shouldIgnoreEcho s peerId info.path info.hash <;>
    cases knownEqual H info s <;>
    cases renameWorks H info.path s <;>
    simp [hNode, and_comm]

/- A path that no verdict is about, or that is the same. -/
theorem entryAgrees_iff_requests
    (hFree : ∀ file,
      s.disk.lookup (H.locate info.path) =
          some (.file file) →
        verdict H peerId s info file = .same) :
    EntryAgrees H peerId s info ↔
      (scannedHash H s info.path ≠ some info.hash ↔
        asksFor H peerId s info = true) := by
  constructor
  · exact fun hAgrees => hAgrees.requests
  · intro hRequests
    refine ⟨hRequests, ?_, ?_⟩
    · intro file hFile
      rw [hFree file hFile]
      trivial
    · intro file hFile hConflict
      rw [hFree file hFile] at hConflict
      cases hConflict

theorem entryAgrees_iff_of_present
    (hNode : s.disk.lookup (H.locate info.path) ≠ none)
    (hFree : ∀ file,
      s.disk.lookup (H.locate info.path) =
          some (.file file) →
        verdict H peerId s info file = .same) :
    EntryAgrees H peerId s info ↔
      (scannedHash H s info.path = some info.hash ↔
        PassedOver H peerId s info) := by
  rw [entryAgrees_iff_requests hFree,
    asksFor_iff_of_present hNode]
  exact not_iff_not

theorem entryAgrees_iff_of_missing
    (hNode : s.disk.lookup (H.locate info.path) = none) :
    EntryAgrees H peerId s info ↔
      (scannedHash H s info.path = some info.hash ↔
        shouldIgnoreEcho s peerId info.path info.hash =
          true) := by
  have hAsks : asksFor H peerId s info = true ↔
      ¬shouldIgnoreEcho s peerId info.path info.hash =
        true := by
    simp [asksFor, hNode]
  have hFree : ∀ file,
      s.disk.lookup (H.locate info.path) =
          some (.file file) →
        verdict H peerId s info file = .same := by
    intro file hFile
    rw [hNode] at hFile
    cases hFile
  rw [entryAgrees_iff_requests hFree, hAsks]
  exact not_iff_not

/- The rule on one file, with its verdict. -/
theorem entryAgrees_iff_of_verdict
    {v : ThreeWay.Verdict}
    (hNode : s.disk.lookup (H.locate info.path) =
      some (.file file))
    (hVerdict : verdict H peerId s info file = v) :
    EntryAgrees H peerId s info ↔
      (scannedHash H s info.path ≠ some info.hash ↔
          asksFor H peerId s info = true) ∧
        v.Follows (asksFor H peerId s info = true)
          (setsAside H peerId s info = true) ∧
        (v = .conflict →
          ∃ localHash,
            scannedHash H s info.path = some localHash ∧
              localHash ≠ info.hash ∧
              detectConflict localHash
                (s.history peerId info.path) = true) := by
  constructor
  · intro hAgrees
    have hRule := hAgrees.rule file hNode
    have hListed := hAgrees.listed file hNode
    rw [hVerdict] at hRule hListed
    exact ⟨hAgrees.requests, hRule, hListed⟩
  · rintro ⟨hRequests, hRule, hListed⟩
    refine ⟨hRequests, ?_, ?_⟩
    · intro other hOther
      rw [hNode] at hOther
      cases hOther
      rw [hVerdict]
      exact hRule
    · intro other hOther hConflict
      rw [hNode] at hOther
      cases hOther
      exact hListed (hVerdict ▸ hConflict)

/- The recorded digest is announced, and so passed over. -/
theorem passedOver_of_keep
    (hVerdict : verdict H peerId s info file = .keep) :
    PassedOver H peerId s info := by
  have hBase : baseDigest s peerId info.path =
      some info.hash := by
    unfold verdict ThreeWay.classify at hVerdict
    split_ifs at hVerdict with hSame hKeep
    exact hKeep
  unfold baseDigest at hBase
  split at hBase
  · cases hBase
  next hSome =>
    apply Or.inl
    have hEq := Option.some.inj hBase
    simp [shouldIgnoreEcho, hSome, ← hEq]

/- The digest of a conflict row is the recorded one. -/
theorem detectConflict_iff_of_base
    {localHash : String}
    (hBase : getBaseHash s peerId info.path ≠ "") :
    detectConflict localHash
        (s.history peerId info.path) = true ↔
      localHash ≠ getBaseHash s peerId info.path := by
  unfold getBaseHash at hBase ⊢
  unfold detectConflict
  cases hRow : s.history peerId info.path with
  | none =>
      rw [hRow] at hBase
      exact absurd rfl hBase
  | some row => simp

/- A file that differs from the recorded digest, as read. -/
theorem calculateSHA256_ne_base
    (hNode : s.disk.lookup (H.locate info.path) =
      some (.file file))
    (hBase : getBaseHash s peerId info.path ≠ "")
    (hMine : H.digest.hash file.content ≠
      getBaseHash s peerId info.path) :
    calculateSHA256 H s.disk (H.locate info.path) ≠
      getBaseHash s peerId info.path := by
  cases hOpen : H.openFails (H.locate info.path) with
  | false =>
      rw [calculateSHA256_of_file hNode hOpen]
      exact hMine
  | true =>
      have hEmpty : calculateSHA256 H s.disk
          (H.locate info.path) = "" := by
        simp only [calculateSHA256, hOpen, if_true]
        split <;> rfl
      rw [hEmpty]
      exact Ne.symm hBase

theorem entryAgrees_iff_of_keep
    (hNode : s.disk.lookup (H.locate info.path) =
      some (.file file))
    (hVerdict : verdict H peerId s info file = .keep) :
    EntryAgrees H peerId s info ↔
      scannedHash H s info.path = some info.hash := by
  have hPresent :
      s.disk.lookup (H.locate info.path) ≠ none := by
    simp [hNode]
  have hPassed := passedOver_of_keep hVerdict
  rw [entryAgrees_iff_of_verdict hNode hVerdict,
    asksFor_iff_of_present hPresent]
  simp [ThreeWay.Verdict.Follows, hPassed]

theorem entryAgrees_iff_of_fetch
    (hNode : s.disk.lookup (H.locate info.path) =
      some (.file file))
    (hVerdict : verdict H peerId s info file = .fetch) :
    EntryAgrees H peerId s info ↔
      scannedHash H s info.path ≠ some info.hash ∧
        ¬PassedOver H peerId s info := by
  have hPresent :
      s.disk.lookup (H.locate info.path) ≠ none := by
    simp [hNode]
  rw [entryAgrees_iff_of_verdict hNode hVerdict,
    asksFor_iff_of_present hPresent]
  simp only [ThreeWay.Verdict.Follows, reduceCtorEq,
    false_imp_iff, and_true]
  constructor
  · exact fun hBoth => ⟨hBoth.1.mpr hBoth.2, hBoth.2⟩
  · exact fun hBoth => ⟨iff_of_true hBoth.1 hBoth.2, hBoth.2⟩

theorem entryAgrees_iff_of_conflict
    (hNode : s.disk.lookup (H.locate info.path) =
      some (.file file))
    (hVerdict : verdict H peerId s info file = .conflict) :
    EntryAgrees H peerId s info ↔
      getBaseHash s peerId info.path ≠ "" ∧
        ¬PassedOver H peerId s info ∧
        ∃ localHash,
          scannedHash H s info.path = some localHash ∧
            localHash ≠ info.hash ∧
            localHash ≠ getBaseHash s peerId info.path := by
  have hPresent :
      s.disk.lookup (H.locate info.path) ≠ none := by
    simp [hNode]
  rw [entryAgrees_iff_of_verdict hNode hVerdict,
    asksFor_iff_of_present hPresent]
  simp only [ThreeWay.Verdict.Follows, forall_const,
    setsAside_iff_of_present hPresent]
  constructor
  · rintro ⟨-, ⟨hNot, hBase, -⟩, hListed⟩
    simp only [detectConflict_iff_of_base hBase] at hListed
    exact ⟨hBase, hNot, hListed⟩
  · rintro ⟨hBase, hNot, hListed⟩
    have hMine : H.digest.hash file.content ≠
        getBaseHash s peerId info.path := by
      have hDiffers := ((ThreeWay.classify_eq_conflict_iff
        _ _ _).mp hVerdict).2.2
      simpa [baseDigest, hBase, eq_comm] using hDiffers
    simp only [detectConflict_iff_of_base hBase]
    refine ⟨?_, ⟨hNot, hBase,
      calculateSHA256_ne_base hNode hBase hMine⟩, hListed⟩
    rcases hListed with ⟨localHash, hScanned, hOther, -⟩
    apply iff_of_true _ hNot
    simpa [hScanned] using hOther

theorem entryAgrees_iff :
    EntryAgrees H peerId s info ↔
      RuleHolds H peerId s info := by
  unfold RuleHolds
  cases hNode : s.disk.lookup (H.locate info.path) with
  | none => exact entryAgrees_iff_of_missing hNode
  | some node =>
      cases node with
      | dir =>
          apply entryAgrees_iff_of_present
          · simp [hNode]
          · intro file hFile
            rw [hNode] at hFile
            cases hFile
      | file file =>
          dsimp only
          cases hVerdict : verdict H peerId s info file with
          | same =>
              apply entryAgrees_iff_of_present
              · simp [hNode]
              · intro other hOther
                rw [hNode] at hOther
                cases hOther
                exact hVerdict
          | keep =>
              exact entryAgrees_iff_of_keep hNode hVerdict
          | fetch =>
              exact entryAgrees_iff_of_fetch hNode hVerdict
          | conflict =>
              exact entryAgrees_iff_of_conflict hNode hVerdict

end Entry

------------------------------------------------------------
-- The Two Ways Compared
------------------------------------------------------------

/- The conflicts that the comparison lists. -/
theorem mem_filesToConflictRename_iff
    {H : Host}
    {peerId : String}
    {s : LocalState}
    {files : List FileInfo}
    {info : FileInfo}
    (hMode : s.mode = .biDirectional)
    (hApart : files.Pairwise (Separate H))
    (hMem : info ∈ files) :
    info.path ∈ (fileActions peerId files
        (scanDirectory H s)).filesToConflictRename ↔
      ∃ localHash,
        scannedHash H s info.path = some localHash ∧
          localHash ≠ info.hash ∧
          detectConflict localHash
            (s.history peerId info.path) = true := by
  have hUnique := exists_path_iff hApart hMem
    (fun other => needsConflictRename
      (getAllFiles (scanDirectory H s))
      (getFullHistory s peerId) s.mode other = true)
  have hHistory : getFullHistory (scanDirectory H s) peerId =
      getFullHistory s peerId := by
    funext path
    simp [getFullHistory]
  have hListed : info.path ∈ (fileActions peerId files
      (scanDirectory H s)).filesToConflictRename ↔
        ∃ other ∈ files, needsConflictRename
          (getAllFiles (scanDirectory H s))
          (getFullHistory s peerId) s.mode other = true ∧
            other.path = info.path := by
    simp [fileActions, compareStatesAndGetRequests,
      hHistory, and_assoc]
  rw [hListed, hUnique]
  unfold needsConflictRename
  change _ ↔ ∃ localHash, localFileHash
    (getAllFiles (scanDirectory H s)) info.path =
      some localHash ∧ _
  cases localFileHash (getAllFiles (scanDirectory H s))
      info.path with
  | none => simp
  | some localHash => simp [hMode, getFullHistory]

section Comparison

variable
  {H : Host}
  {peerId : String}
  {s : LocalState}
  {files : List FileInfo}
  {dirs : List String}
  {batches : List (List FileInfo)}

/- The batches request and rename what the state tells. -/
theorem updateEffects_iff
    (peerId : String)
    (hIdle : Idle s)
    (hSplit : batches.flatten = files)
    (hApart : files.Pairwise (Separate H)) :
    (∀ path,
      Requests (updateEffects H peerId batches s) path ↔
        ∃ info ∈ files, asksFor H peerId s info = true ∧
          info.path = path) ∧
      ∀ info ∈ files,
        (∃ copy, .renamed info.path copy ∈
            updateEffects H peerId batches s) ↔
          setsAside H peerId s info = true := by
  have hPending : Pending H peerId s batches.flatten s :=
    ⟨hIdle, fun info _ => SameView.refl s⟩
  rcases updateBatches_actions batches s
    (hSplit ▸ hApart) hPending with
    ⟨extra, hActions, hRequests, hRenames⟩
  have hEffects : updateEffects H peerId batches s =
      extra := by
    rw [updateEffects, newActions, hActions, List.drop_left]
  rw [hEffects]
  rw [hSplit] at hRequests hRenames
  refine ⟨hRequests, ?_⟩
  intro info hMem
  have hUnique := exists_path_iff hApart hMem
    (fun other => setsAside H peerId s other = true)
  rw [← hUnique]
  constructor
  · rintro ⟨copy, hCopy⟩
    rcases (hRenames _ _).mp hCopy with
      ⟨other, hOther, hAside, hEq⟩
    exact ⟨other, hOther, hAside,
      (Action.renamed.inj hEq).1⟩
  · rintro ⟨other, hOther, hAside, hPath⟩
    refine ⟨conflictPath H other.path,
      (hRenames _ _).mpr ⟨other, hOther, hAside, ?_⟩⟩
    rw [asideAction, hPath]

theorem sameDecisions_iff_entryAgrees
    (hMode : s.mode = .biDirectional)
    (hIdle : Idle s)
    (hApart : files.Pairwise (Separate H))
    (hSplit : batches.flatten = files) :
    SameDecisions H peerId files dirs batches s ↔
      ∀ info ∈ files, EntryAgrees H peerId s info := by
  rcases updateEffects_iff peerId hIdle hSplit
    hApart with ⟨hUpdates, hRenames⟩
  have hStates :=
    stateEffects_requests_iff H peerId files dirs s
  -- each way's requests, for one entry of the list
  have hState : ∀ info ∈ files,
      (Requests (stateEffects H peerId files dirs s)
          info.path ↔
        scannedHash H s info.path ≠ some info.hash) := by
    intro info hMem
    rw [hStates]
    exact exists_path_iff hApart hMem _
  have hUpdate : ∀ info ∈ files,
      (Requests (updateEffects H peerId batches s)
          info.path ↔ asksFor H peerId s info = true) := by
    intro info hMem
    rw [hUpdates]
    exact exists_path_iff hApart hMem _
  constructor
  · intro hSame info hMem
    refine ⟨?_, ?_, ?_⟩
    · rw [← hState info hMem, ← hUpdate info hMem]
      exact hSame.requests info.path
    · intro file hNode
      exact (ThreeWay.Verdict.follows_congr
        (hUpdate info hMem) (hRenames info hMem)).mp
          (hSame.updateRule info hMem file hNode)
    · intro file hNode hConflict
      have hRule := hSame.stateRule info hMem file hNode
      rw [hConflict] at hRule
      exact (mem_filesToConflictRename_iff hMode hApart
        hMem).mp hRule
  · intro hAgrees
    refine ⟨?_, ?_, ?_⟩
    · intro path
      rw [hStates, hUpdates]
      constructor
      · rintro ⟨info, hMem, hAsks, hPath⟩
        exact ⟨info, hMem,
          (hAgrees info hMem).requests.mp hAsks, hPath⟩
      · rintro ⟨info, hMem, hAsks, hPath⟩
        exact ⟨info, hMem,
          (hAgrees info hMem).requests.mpr hAsks, hPath⟩
    · intro info hMem file hNode
      have hRule := (hAgrees info hMem).rule file hNode
      have hAsks := (hState info hMem).trans
        (hAgrees info hMem).requests
      cases hVerdict : verdict H peerId s info file with
      | same => trivial
      | keep =>
          rw [hVerdict] at hRule
          exact fun hAsked => hRule (hAsks.mp hAsked)
      | fetch =>
          rw [hVerdict] at hRule
          exact hAsks.mpr hRule
      | conflict =>
          exact (mem_filesToConflictRename_iff hMode hApart
            hMem).mpr ((hAgrees info hMem).listed file hNode
              hVerdict)
    · intro info hMem file hNode
      exact (ThreeWay.Verdict.follows_congr
        (hUpdate info hMem) (hRenames info hMem)).mpr
          ((hAgrees info hMem).rule file hNode)

/-
  For a list of separate entries, both ways decide alike and
  by the rule, however the list is split, exactly when the
  rule's condition holds of every entry.
-/
theorem sameDecisions_iff
    (hMode : s.mode = .biDirectional)
    (hIdle : Idle s)
    (hApart : files.Pairwise (Separate H)) :
    (∀ batches : List (List FileInfo),
      batches.flatten = files →
        SameDecisions H peerId files dirs batches s) ↔
      ∀ info ∈ files, RuleHolds H peerId s info := by
  have hRules :
      (∀ info ∈ files, EntryAgrees H peerId s info) ↔
        ∀ info ∈ files, RuleHolds H peerId s info :=
    forall₂_congr (fun _ _ => entryAgrees_iff)
  rw [← hRules]
  constructor
  · intro hSame
    exact (sameDecisions_iff_entryAgrees hMode hIdle
      hApart (by simp)).mp (hSame [files] (by simp))
  · intro hAgrees batches hSplit
    exact (sameDecisions_iff_entryAgrees hMode hIdle
      hApart hSplit).mpr hAgrees

end Comparison

/- A file changed on the other side only is requested. -/
theorem sameDecisions_on_remote_change :
    SameDecisions Host.plain "peer"
      [⟨"a.txt", Digest.sampleHash [98], 1, 1⟩] []
      [[⟨"a.txt", Digest.sampleHash [98], 1, 1⟩], []]
      (scanDirectory Host.plain
        (recordSyncSuccess Host.plain "peer" "a.txt"
          (Digest.sampleHash [97])
          ((LocalState.empty Host.plain .destination
            .biDirectional).userWrites Host.plain
              "a.txt" [97]))) := by
  refine (sameDecisions_iff rfl ?_ ?_).mpr ?_ _ rfl
  · intro path entry hEntry
    exact absurd hEntry (by simp [recordSyncSuccess,
      updateSyncHistory, userWrites, LocalState.empty])
  · exact List.pairwise_singleton _ _
  · intro info hMem
    cases List.mem_singleton.mp hMem
    refine ⟨by decide, ?_⟩
    rintro (hEcho | hKnown | hChanged)
    · exact absurd hEcho (by decide)
    · exact absurd hKnown (by decide)
    · exact absurd hChanged.2.1 (by decide)

/-
  A file changed on this side only is requested when the
  other side's unchanged version arrives as a full state.
-/
theorem not_sameDecisions_on_local_change :
    ¬SameDecisions Host.plain "peer"
      [⟨"a.txt", Digest.sampleHash [98], 1, 1⟩] []
      [[⟨"a.txt", Digest.sampleHash [98], 1, 1⟩]]
      (scanDirectory Host.plain
        (recordSyncSuccess Host.plain "peer" "a.txt"
          (Digest.sampleHash [98])
          ((LocalState.empty Host.plain .destination
            .biDirectional).userWrites Host.plain
              "a.txt" [97]))) := by
  intro hSame
  have hKeep := hSame.stateRule
    ⟨"a.txt", Digest.sampleHash [98], 1, 1⟩ (by simp)
    ⟨[97], 0⟩ (by decide)
  have hVerdict : verdict Host.plain "peer"
      (scanDirectory Host.plain
        (recordSyncSuccess Host.plain "peer" "a.txt"
          (Digest.sampleHash [98])
          ((LocalState.empty Host.plain .destination
            .biDirectional).userWrites Host.plain
              "a.txt" [97])))
      ⟨"a.txt", Digest.sampleHash [98], 1, 1⟩
      ⟨[97], 0⟩ = .keep := by
    decide
  rw [hVerdict] at hKeep
  exact hKeep ⟨⟨"a.txt", none⟩, by decide, rfl⟩

end SyncHandler

end VeritasSync
