import VeritasSync.Sync.SyncHandler

/-
  Local edits on the incremental update path: when one
  announced file is requested, what happens to the file
  that the download will replace.

  Main declarations:
    * `SyncHandler.NoLostEdit`
    * `SyncHandler.overwritesUnsaved`
    * `SyncHandler.noLostEdit_iff`
-/

namespace VeritasSync

namespace SyncHandler

open StateManager TransferManager

------------------------------------------------------------
-- The Property
------------------------------------------------------------

/-
  A step renamed the file at `path`, and its copy is still
  there.
-/
def KeptAside
    (H : Host)
    (s s' : LocalState)
    (path : String)
    (file : File) : Prop :=
  ∃ copy,
    .renamed path copy ∈ LocalState.newActions s s' ∧
      s'.disk.lookup (H.locate copy) = some (.file file)

/-
  A requested file either had no local file, or the local
  file is the one recorded with the peer, or it was set
  aside first.
-/
def NoLostEdit
    (H : Host)
    (peerId : String)
    (remoteInfo : FileInfo)
    (s : LocalState) : Prop :=
  let result := processSingleFile H peerId remoteInfo s
  result.1.isSome = true →
    ∀ file,
      s.disk.lookup (H.locate remoteInfo.path) =
          some (.file file) →
        MatchesBase H s peerId remoteInfo.path
            file.content ∨
          KeptAside H s result.2 remoteInfo.path file

/-
  The local file itself is thrown away as the stale partial
  content of an earlier download.
-/
def discardsOwnFile
    (H : Host)
    (remoteInfo : FileInfo)
    (s : LocalState) : Bool :=
  let loc := H.locate remoteInfo.path
  discardedTemp H remoteInfo.path remoteInfo.hash
      remoteInfo.size s == some loc &&
    !H.removeFails loc

/-
  The request replaces the local file without asking the
  conflict rule: a download is resumed, or no digest is
  recorded and the two files are not known to be equal.
-/
def overwritesUnsaved
    (H : Host)
    (peerId : String)
    (remoteInfo : FileInfo)
    (s : LocalState) : Bool :=
  resumable H remoteInfo.path remoteInfo.hash
      remoteInfo.size s ||
    (!shouldIgnoreEcho s peerId remoteInfo.path
        remoteInfo.hash &&
      (discardsOwnFile H remoteInfo s ||
        (getBaseHash s peerId remoteInfo.path == "" &&
          !knownEqual H remoteInfo s)))

------------------------------------------------------------
-- The Disk After The Resume Check
------------------------------------------------------------

theorem lookup_discardedTemp
    {H : Host}
    {remoteInfo : FileInfo}
    {s : LocalState}
    {file : File}
    (hFile : s.disk.lookup (H.locate remoteInfo.path) =
      some (.file file)) :
    (dropTemp H s.disk (discardedTemp H remoteInfo.path
        remoteInfo.hash remoteInfo.size s)).lookup
        (H.locate remoteInfo.path) =
      if discardsOwnFile H remoteInfo s then
        none
      else
        some (.file file) := by
  unfold discardsOwnFile
  by_cases hTemp :
      discardedTemp H remoteInfo.path remoteInfo.hash
        remoteInfo.size s = some (H.locate remoteInfo.path)
  · cases hRefuse :
        H.removeFails (H.locate remoteInfo.path) <;>
      simp [hTemp, hRefuse, hFile, dropTemp,
        Filesystem.remove, FileTree.remove_of_file hFile]
  · rw [lookup_dropTemp H s.disk _ _ hTemp, hFile]
    simp [hTemp]

------------------------------------------------------------
-- When No Edit Is Lost
------------------------------------------------------------

/- A successful conflict rename keeps the file. -/
theorem keptAside_of_renameConflict
    {H : Host}
    {path : String}
    {s s' : LocalState}
    {file : File}
    (hFile : s.disk.lookup (H.locate path) =
      some (.file file))
    (hRename : renameConflict H path s =
      (.requestRemote, s')) :
    KeptAside H s s' path file := by
  cases hMove : Filesystem.rename H s.disk (H.locate path)
      (H.locate (conflictPath H path)) with
  | none =>
      rw [renameConflict_of_none hMove] at hRename
      cases hRename
  | some disk =>
      rw [renameConflict_of_some hMove] at hRename
      cases hRename
      refine ⟨conflictPath H path, ?_, ?_⟩
      · simp [LocalState.newActions, LocalState.act]
      · exact (Filesystem.lookup_rename_target hMove).trans
          hFile

/- A step without new effects keeps nothing aside. -/
theorem not_keptAside_of_actions_eq
    {H : Host}
    {s s' : LocalState}
    {path : String}
    {file : File}
    (hActions : s'.actions = s.actions) :
    ¬KeptAside H s s' path file := by
  rintro ⟨copy, hMem, -⟩
  simp [LocalState.newActions, hActions] at hMem

section Decisions

variable
  {H : Host}
  {peerId : String}
  {remoteInfo : FileInfo}
  {s : LocalState}
  {file : File}

/- A request that bypasses the rule loses an edit. -/
theorem not_noLostEdit_of_overwritesUnsaved
    (hFile : s.disk.lookup (H.locate remoteInfo.path) =
      some (.file file))
    (hEdited : ¬MatchesBase H s peerId remoteInfo.path
      file.content)
    (hOverwrites :
      overwritesUnsaved H peerId remoteInfo s = true) :
    ¬NoLostEdit H peerId remoteInfo s := by
  intro hSafe
  -- it is enough that the answer is a request that acts not
  have hLost :
      ∀ s', s'.actions = s.actions →
        processSingleFile H peerId remoteInfo s ≠
          (some remoteInfo, s') := by
    intro s' hActions hResult
    rw [NoLostEdit, hResult] at hSafe
    rcases hSafe rfl file hFile with hBase | hAside
    · exact hEdited hBase
    · exact not_keptAside_of_actions_eq hActions hAside
  rcases processSingleFile_cases H peerId remoteInfo s with
    ⟨-, hResult⟩ |
      ⟨hResume, s', hChecked, ⟨hEcho, -⟩ | ⟨hEcho, hResult⟩⟩
  · exact hLost s rfl hResult
  · simp [overwritesUnsaved, hResume, hEcho] at hOverwrites
  have hDisk := lookup_discardedTemp hFile
  rw [← hChecked.disk] at hDisk
  have hBase' := getBaseHash_congr peerId remoteInfo.path
    hChecked.history
  simp only [overwritesUnsaved, hResume, hEcho,
    Bool.false_or, Bool.not_false, Bool.true_and,
    Bool.or_eq_true] at hOverwrites
  cases hOwn : discardsOwnFile H remoteInfo s with
  | true =>
      -- the file is gone, so it counts as missing
      simp only [hOwn, if_true] at hDisk
      rcases resolveConflict_cases H peerId remoteInfo s'
        with ⟨-, hDecided⟩ | ⟨hThere, -⟩ | ⟨hThere, -⟩ |
          ⟨hThere, -⟩ | ⟨hThere, -⟩
      · rw [hDecided] at hResult
        exact hLost s' hChecked.actions hResult
      all_goals exact absurd hDisk hThere
  | false =>
      simp only [hOwn, Bool.false_eq_true, if_false,
        false_or, Bool.and_eq_true, beq_iff_eq,
        Bool.not_eq_true'] at hDisk hOverwrites
      rcases hOverwrites with ⟨hBase, hUnequal⟩
      rw [← hBase'] at hBase
      rcases resolveConflict_cases H peerId remoteInfo s'
        with ⟨hGone, -⟩ | ⟨-, hKnown, -⟩ |
          ⟨-, -, -, hDecided⟩ | ⟨-, -, hSome, -⟩ |
          ⟨-, -, hSome, -⟩
      · simp [hDisk] at hGone
      · rw [knownEqual_congr hChecked.fileMap
          (hDisk.trans hFile.symm), hUnequal] at hKnown
        cases hKnown
      · rw [hDecided] at hResult
        exact hLost s' hChecked.actions hResult
      · exact absurd hBase hSome
      · exact absurd hBase hSome

/- A request under the rule keeps the edited file. -/
theorem keptAside_of_not_overwritesUnsaved
    (hFile : s.disk.lookup (H.locate remoteInfo.path) =
      some (.file file))
    (hEdited : ¬MatchesBase H s peerId remoteInfo.path
      file.content)
    (hAsks :
      overwritesUnsaved H peerId remoteInfo s = false)
    (hRequest : (processSingleFile H peerId remoteInfo
      s).1.isSome = true) :
    KeptAside H s (processSingleFile H peerId remoteInfo
      s).2 remoteInfo.path file := by
  simp only [overwritesUnsaved, Bool.or_eq_false_iff,
    Bool.and_eq_false_iff, Bool.not_eq_false'] at hAsks
  rcases hAsks with ⟨hNoResume, hRest⟩
  rcases processSingleFile_cases H peerId remoteInfo s with
    ⟨hResume, -⟩ |
      ⟨-, s', hChecked, ⟨-, hResult⟩ | ⟨hEcho, hResult⟩⟩
  · rw [hResume] at hNoResume
    cases hNoResume
  · rw [hResult] at hRequest
    cases hRequest
  have hDisk := lookup_discardedTemp hFile
  rw [← hChecked.disk] at hDisk
  have hBase' := getBaseHash_congr peerId remoteInfo.path
    hChecked.history
  rw [hEcho] at hRest
  rcases hRest with hTrue | ⟨hOwn, hRest⟩
  · cases hTrue
  simp only [hOwn, Bool.false_eq_true, if_false] at hDisk
  have hSameNode := hDisk.trans hFile.symm
  rw [hResult] at hRequest ⊢
  rcases resolveConflict_cases H peerId remoteInfo s' with
    ⟨hGone, -⟩ | ⟨-, -, hDecided⟩ |
      ⟨-, hUnequal, hBase, -⟩ | ⟨-, -, -, -, -, hDecided⟩ |
      ⟨-, -, -, -, -, hDecided⟩
  · simp [hDisk] at hGone
  · simp [hDecided] at hRequest
  · rw [knownEqual_congr hChecked.fileMap hSameNode]
      at hUnequal
    rw [hBase'] at hBase
    exfalso
    by_cases hEmpty :
        getBaseHash s peerId remoteInfo.path = ""
    · simp [hEmpty, hUnequal] at hRest
    · -- the digest that was computed is the recorded one
      rcases hBase with hEmpty' | ⟨hLocal, -⟩
      · exact hEmpty hEmpty'
      rw [calculateSHA256_congr H hSameNode] at hLocal
      apply hEdited
      rw [matchesBase_iff_getBaseHash, ← hLocal]
      exact calculateSHA256_eq_of_ne_empty hFile
        (hLocal ▸ hEmpty)
  · simp [hDecided] at hRequest
  · rw [hDecided] at hRequest ⊢
    cases hRename : renameConflict H remoteInfo.path s' with
    | mk outcome s'' =>
        cases outcome with
        | requestRemote =>
            have hAside := keptAside_of_renameConflict
              hDisk hRename
            rcases hAside with ⟨copy, hMem, hCopy⟩
            refine ⟨copy, ?_, hCopy⟩
            rw [LocalState.newActions, hChecked.actions]
              at hMem
            exact hMem
        | skip => simp [hRename] at hRequest
        | noAction => simp [hRename] at hRequest

end Decisions

/-
  An edit survives the update path exactly when the request
  does not bypass the conflict rule on an edited file.
-/
theorem noLostEdit_iff
    (H : Host)
    (peerId : String)
    (remoteInfo : FileInfo)
    (s : LocalState) :
    NoLostEdit H peerId remoteInfo s ↔
      ∀ file,
        s.disk.lookup (H.locate remoteInfo.path) =
            some (.file file) →
          ¬MatchesBase H s peerId remoteInfo.path
              file.content →
            overwritesUnsaved H peerId remoteInfo s =
              false := by
  constructor
  · intro hSafe file hFile hEdited
    by_contra hOverwrites
    exact not_noLostEdit_of_overwritesUnsaved hFile hEdited
      (Bool.eq_true_of_not_eq_false hOverwrites) hSafe
  · intro hAsks hRequest file hFile
    by_cases hBase :
        MatchesBase H s peerId remoteInfo.path file.content
    · exact Or.inl hBase
    · exact Or.inr (keptAside_of_not_overwritesUnsaved
        hFile hBase (hAsks file hFile hBase) hRequest)

/-
  A file written here, and announced with another content by
  a peer with which nothing was recorded yet, is replaced
  without a copy.
-/
theorem not_noLostEdit_without_base :
    ¬NoLostEdit Host.plain "peer"
      ⟨"a.txt", Digest.sampleHash [98], 1, 1⟩
      ((LocalState.empty Host.plain .destination
        .biDirectional).userWrites Host.plain "a.txt"
          [97]) := by
  intro hSafe
  rcases hSafe (by decide) ⟨[97], 0⟩ (by decide) with
    ⟨row, hRow, -⟩ | ⟨copy, hMem, -⟩
  · exact absurd hRow (by simp [LocalState.empty,
      LocalState.userWrites])
  · have hNoEffect :
        Action.renamed "a.txt" copy ∈ ([] : List Action) :=
      hMem
    cases hNoEffect

end SyncHandler

end VeritasSync
