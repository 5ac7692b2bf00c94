import VeritasSync.Sync.FileRemoval

/-
  Remote deletions and unsynchronised local edits: which
  regular files a deletion message removes, and whether the
  peer ever had them.

  Main declarations:
    * `SyncHandler.Removes`
    * `SyncHandler.lookup_runTask_of_isDeletion`
    * `SyncHandler.keepsUnsynced_iff`
-/

namespace VeritasSync

namespace SyncHandler

open LocalState PathUtils StateManager

------------------------------------------------------------
-- The Files A Deletion Reaches
------------------------------------------------------------

/- The task of a deletion message. -/
def IsDeletion : Task → Prop
| .deleteBatch _ => True
| .deleteDir _ => True
| .dirBatch _ _ => True
| _ => False

/- A listed path passes the check and names the file. -/
def RemovesFile
    (H : Host)
    (path : String)
    (loc : Loc) : Prop :=
  isPathSafeWithCanonicalRoot H path = true ∧
    H.locate path = loc ∧ H.removeFails loc = false

/- A listed path passes the check and is above the file. -/
def RemovesBelow
    (H : Host)
    (path : String)
    (loc : Loc) : Prop :=
  isPathSafeWithCanonicalRoot H path = true ∧
    H.locate path <+: loc ∧
      H.survives (H.locate path) loc = false

/- The task takes a regular file at `loc` off the disk. -/
def Removes
    (H : Host) : Task → Loc → Prop
| .deleteBatch paths, loc =>
    H.canonicalFails "" = false ∧
      ∃ path ∈ paths, RemovesFile H path loc
| .deleteDir path, loc =>
    H.canonicalFails "" = false ∧ RemovesBelow H path loc
| .dirBatch _ deletes, loc =>
    H.canonicalFails "" = false ∧
      ∃ path ∈ deletes, RemovesBelow H path loc
| _, _ => False

------------------------------------------------------------
-- The Steps Of The Handlers
------------------------------------------------------------

theorem deleteSafeFile_removesWhen
    (H : Host)
    (loc : Loc)
    (s : LocalState)
    (path : String) :
    RemovesWhen loc (RemovesFile H path loc) s
      (deleteSafeFile H s path) :=
  (deleteFile_removesWhen H loc s path).guard _

theorem deleteSafeTree_removesWhen
    (H : Host)
    (loc : Loc)
    (s : LocalState)
    (path : String) :
    RemovesWhen loc (RemovesBelow H path loc) s
      (deleteSafeTree H s path) :=
  (deleteTree_removesWhen H loc s path).guard _

/- Creating directories keeps every file. -/
theorem lookup_createBatchDir
    {H : Host}
    {s : LocalState}
    {loc : Loc}
    {node : Node File}
    (path : String)
    (hNode : s.disk.lookup loc = some node) :
    (createBatchDir H s path).disk.lookup loc =
      some node := by
  unfold createBatchDir
  dsimp only
  split
  · split
    next disk hCreate =>
      change disk.lookup loc = some node
      rw [Filesystem.lookup_createDirectories hCreate]
      simp [hNode]
    next =>
      split <;> exact hNode
  · exact hNode

theorem lookup_foldl_createBatchDir
    {H : Host}
    {s : LocalState}
    {loc : Loc}
    {node : Node File}
    (creates : List String)
    (hNode : s.disk.lookup loc = some node) :
    (creates.foldl (createBatchDir H) s).disk.lookup loc =
      some node :=
  List.foldlRecOn
    (motive := fun s' => s'.disk.lookup loc = some node)
    creates (createBatchDir H) hNode
    (fun _ hNode path _ => lookup_createBatchDir path hNode)

------------------------------------------------------------
-- When Only Synchronised Files Go
------------------------------------------------------------

/- What a deletion message does to a regular file. -/
theorem lookup_runTask_of_isDeletion
    {H : Host}
    (peerId : String)
    {task : Task}
    {s : LocalState}
    {loc : Loc}
    {file : File}
    (hTask : IsDeletion task)
    (hFile : s.disk.lookup loc = some (.file file)) :
    (Removes H task loc →
        (runTask H peerId task s).disk.lookup loc = none) ∧
      (¬Removes H task loc →
        (runTask H peerId task s).disk.lookup loc =
          some (.file file)) := by
  cases task with
  | deleteBatch paths =>
      unfold runTask deleteBatch Removes
      cases hRoot : H.canonicalFails "" with
      | true => simp [hFile]
      | false =>
          simpa using (RemovesWhen.foldl
            (deleteSafeFile_removesWhen H loc) paths s).2
              file hFile
  | deleteDir path =>
      have hStep := (deleteSafeTree_removesWhen H loc s
        path).2 file hFile
      unfold runTask deleteDir Removes isPathSafe
      cases hRoot : H.canonicalFails "" with
      | true => simp [hFile]
      | false =>
          unfold deleteSafeTree at hStep
          by_cases hSafe :
              isPathSafeWithCanonicalRoot H path = true
          · simpa [hSafe] using hStep
          · simpa [hSafe] using hStep
  | dirBatch creates deletes =>
      unfold runTask dirBatch Removes
      cases hRoot : H.canonicalFails "" with
      | true => simp [hFile]
      | false =>
          have hSorted : ∀ path,
              path ∈ sortByLength deletes ↔
                path ∈ deletes :=
            fun path => List.mem_insertionSort _
          simpa [hSorted] using (RemovesWhen.foldl
            (deleteSafeTree_removesWhen H loc)
            (sortByLength deletes) _).2 file
              (lookup_foldl_createBatchDir creates hFile)
  | shareState files dirs => cases hTask
  | updateBatch files => cases hTask
  | createDir path => cases hTask
  | floodComplete files dirs => cases hTask

/-
  Every regular file that the task removes has the digest
  recorded with the peer.
-/
def KeepsUnsynced
    (H : Host)
    (peerId : String)
    (task : Task)
    (s : LocalState) : Prop :=
  ∀ loc file,
    s.disk.lookup loc = some (.file file) →
      (runTask H peerId task s).disk.lookup loc = none →
        MatchesBase H s peerId (H.relative loc) file.content

/-
  No unsynchronised edit is destroyed exactly when every
  file that the message reaches is unchanged since it was
  last synchronised with the peer.
-/
theorem keepsUnsynced_iff
    {H : Host}
    {peerId : String}
    {task : Task}
    {s : LocalState}
    (hTask : IsDeletion task) :
    KeepsUnsynced H peerId task s ↔
      ∀ loc file,
        s.disk.lookup loc = some (.file file) →
          Removes H task loc →
            MatchesBase H s peerId (H.relative loc)
              file.content := by
  constructor
  · intro hKeeps loc file hFile hRemoves
    exact hKeeps loc file hFile
      ((lookup_runTask_of_isDeletion peerId hTask hFile).1
        hRemoves)
  · intro hSynced loc file hFile hGone
    by_cases hRemoves : Removes H task loc
    · exact hSynced loc file hFile hRemoves
    · have hKept := (lookup_runTask_of_isDeletion
        peerId hTask hFile).2 hRemoves
      rw [hGone] at hKept
      cases hKept

/- A deletion of a file as the peer last had it. -/
theorem keepsUnsynced_on_synced_file :
    KeepsUnsynced Host.plain "peer" (.deleteBatch ["a.txt"])
      (recordSyncSuccess Host.plain "peer" "a.txt"
        (Digest.sampleHash [97])
        ((LocalState.empty Host.plain .destination
          .biDirectional).userWrites Host.plain "a.txt"
            [97])) := by
  have hTask : IsDeletion (.deleteBatch ["a.txt"]) := trivial
  refine (keepsUnsynced_iff hTask).mpr ?_
  rintro loc file hFile ⟨-, path, hPath, -, hLoc, -⟩
  cases List.mem_singleton.mp hPath
  subst hLoc
  have hContent : file = ⟨[97], 0⟩ := by
    have hNode : some (Node.file file) =
        some (.file ⟨[97], 0⟩) :=
      hFile.symm
    cases hNode
    rfl
  rw [hContent]
  exact ⟨⟨Digest.sampleHash [97], 0⟩, by decide, rfl⟩

/- A file edited here goes with the peer's deletion. -/
theorem not_keepsUnsynced_on_edited_file :
    ¬KeepsUnsynced Host.plain "peer"
      (.deleteBatch ["a.txt"])
      (recordSyncSuccess Host.plain "peer" "a.txt"
        (Digest.sampleHash [98])
        ((LocalState.empty Host.plain .destination
          .biDirectional).userWrites Host.plain "a.txt"
            [97])) := by
  intro hKeeps
  rcases hKeeps ["r", "a.txt"] ⟨[97], 0⟩ (by decide)
    (by decide) with ⟨row, hRow, hHash⟩
  have hBase : some row =
      some ⟨Digest.sampleHash [98], 0⟩ := hRow.symm
  cases hBase
  exact absurd hHash (by decide)

end SyncHandler

end VeritasSync
