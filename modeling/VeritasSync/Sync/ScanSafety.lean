import VeritasSync.P2p.BroadcastManager
import VeritasSync.Sync.FileRemoval

/-
  Read failures on the sending side: which failures of a
  scan let the flood after it delete a file that is still
  there.

  Main declarations:
    * `ScanSafety.StillThere`, `ScanSafety.Synchronised`
    * `ScanSafety.reaches_iff`
    * `ScanSafety.keptByFlood_iff`
-/

namespace VeritasSync

namespace ScanSafety

open PathUtils StateManager SyncManager SyncHandler

------------------------------------------------------------
-- The Two Sides
------------------------------------------------------------

/- A directory below the root and above the file. -/
def Above
    (H : Host)
    (loc above : Loc) : Prop :=
  H.Inside above ∧ above ≠ H.root ∧
    above <+: loc ∧ above ≠ loc

/-
  On the sending side the file is on the disk, was tracked
  before the scan and is not ignored.
-/
structure StillThere
    (H : Host)
    (src : LocalState)
    (loc : Loc)
    (path : String) : Prop where
  inside : H.Inside loc
  file : ∃ file, src.disk.lookup loc = some (.file file)
  relative : H.relative loc = path
  tracked : path ∈ (getAllFiles src).map FileInfo.path
  notIgnored : H.scan.ignores path = false
  notPruned : pruned H src.disk loc = false

/-
  The receiving side has the file as well, tracked and, in
  the bidirectional mode, recorded with its present digest,
  and it tracks the same directories above the file.  Other
  tracked paths name other places.
-/
structure Synchronised
    (H : Host)
    (loc : Loc)
    (path sourceId : String)
    (H' : Host)
    (dst : LocalState) : Prop where
  file : ∃ file,
    dst.disk.lookup (H'.locate path) = some (.file file)
  removable : H'.removeFails (H'.locate path) = false
  tracked : path ∈
    (getAllFiles (scanDirectory H' dst)).map FileInfo.path
  recorded : dst.mode = .biDirectional →
    ∀ info ∈ getAllFiles (scanDirectory H' dst),
      info.path = path →
        ∃ row, dst.history sourceId path = some row ∧
          row.hash = info.hash
  ownPlace : ∀ info ∈ getAllFiles (scanDirectory H' dst),
    H'.locate info.path = H'.locate path →
      key info.path = key path
  notDir : ∀ dir ∈ getLocalDirectories
      (scanDirectory H' dst),
    H'.locate dir ≠ H'.locate path
  dirsAbove : ∀ above, Above H loc above →
    ∃ dir ∈ getLocalDirectories (scanDirectory H' dst),
      key dir = key (H.relative above) ∧
        H'.locate dir <+: H'.locate path ∧
        H'.survives (H'.locate dir) (H'.locate path) = false
  onlyAbove : ∀ dir ∈ getLocalDirectories
      (scanDirectory H' dst),
    H'.locate dir <+: H'.locate path →
      ∃ above, Above H loc above ∧
        key dir = key (H.relative above)

def SameEntries
    {α : Type}
    (got announced : List α) : Prop :=
  ∀ entry, entry ∈ got ↔ entry ∈ announced

/-
  The flood after the scan leaves the file alone: if it is
  announced at all, its completion with the announced
  entries (as `FloodSafety.mem_completion_floodArrivals`
  has them) does not change the file's place.
-/
def KeptByFlood
    (H : Host)
    (sessionId : ℕ)
    (src : LocalState)
    (sourceId : String)
    (H' : Host)
    (dst : LocalState)
    (path : String) : Prop :=
  let flood := BroadcastManager.performFloodSync H sessionId
    src
  ∀ files dirs,
    flood.1 ≠ [] →
      SameEntries files (getAllFiles flood.2) →
      SameEntries dirs (getLocalDirectories flood.2) →
        (runTask H' sourceId (.floodComplete files dirs)
            dst).disk.lookup (H'.locate path) =
          dst.disk.lookup (H'.locate path)

------------------------------------------------------------
-- What The Reconciliation Reaches
------------------------------------------------------------

theorem hasKey_congr
    (paths : List String)
    {path path' : String}
    (hKey : key path = key path') :
    hasKey paths path = hasKey paths path' := by
  unfold hasKey
  rw [hKey]

theorem hasKey_eq_true_iff
    (paths : List String)
    (path : String) :
    hasKey paths path = true ↔
      ∃ other ∈ paths, key other = key path := by
  simp [hasKey]

theorem hasKey_of_sameEntries
    {got announced : List String}
    (hSame : SameEntries got announced)
    (path : String) :
    hasKey got path = hasKey announced path := by
  rw [Bool.eq_iff_iff, hasKey_eq_true_iff,
    hasKey_eq_true_iff]
  simp only [hSame _]

section Peer

variable
  {H H' : Host}
  {loc : Loc}
  {path sourceId : String}
  {dst : LocalState}

/-
  The file is reached when its path was not announced, or
  when a directory above it was not announced and goes with
  everything below it.
-/
theorem reaches_iff
    (hSync : Synchronised H loc path sourceId H' dst)
    (files : List FileInfo)
    (dirs : List String) :
    Reaches H'
        (fileActions sourceId files (scanDirectory H' dst))
        (dirActions dirs (scanDirectory H' dst)) dst.mode
        (H'.locate path) ↔
      hasKey (files.map FileInfo.path) path = false ∨
        (dst.mode = .oneWay ∧ ∃ above,
          Above H loc above ∧
            hasKey dirs (H.relative above) = false) := by
  constructor
  · intro hReaches
    rcases hReaches with ⟨other, hOther, hPlace, -⟩ |
      ⟨dir, hDir, hReached⟩
    · left
      rcases mem_filesToDelete_iff.mp hOther with
        ⟨info, hInfo, hDelete, hPath⟩
      rw [← hPath] at hPlace
      have hKey := hSync.ownPlace info hInfo hPlace
      rw [← hasKey_congr _ hKey]
      exact hasKey_of_needsDelete hDelete
    · right
      rcases mem_dirsToDelete_iff.mp hDir with
        ⟨hTracked, hAbsent⟩
      unfold DirReaches at hReached
      cases hMode : dst.mode with
      | oneWay =>
          rw [hMode] at hReached
          rcases hSync.onlyAbove dir hTracked hReached.1 with
            ⟨above, hAbove, hKey⟩
          refine ⟨rfl, above, hAbove, ?_⟩
          rw [← hasKey_congr _ hKey]
          exact hAbsent
      | biDirectional =>
          rw [hMode] at hReached
          exact absurd hReached.1
            (hSync.notDir dir hTracked)
  · intro hLost
    rcases hLost with hAbsent |
      ⟨hMode, above, hAbove, hAbsent⟩
    · left
      rcases List.mem_map.mp hSync.tracked with
        ⟨info, hInfo, hPath⟩
      refine ⟨path, ?_, rfl, hSync.removable⟩
      refine mem_filesToDelete_iff.mpr
        ⟨info, hInfo, ?_, hPath⟩
      rw [scanDirectory_mode]
      cases hMode : dst.mode with
      | oneWay =>
          rw [needsDelete_oneWay_iff, hPath]
          exact hAbsent
      | biDirectional =>
          rw [needsDelete_biDirectional_iff, hPath]
          refine ⟨hAbsent, ?_⟩
          unfold getFullHistory
          rw [scanDirectory_history]
          exact hSync.recorded hMode info hInfo hPath
    · right
      rcases hSync.dirsAbove above hAbove with
        ⟨dir, hTracked, hKey, hBelow, hGoes⟩
      refine ⟨dir, mem_dirsToDelete_iff.mpr
        ⟨hTracked, ?_⟩, ?_⟩
      · rw [hasKey_congr _ hKey]
        exact hAbsent
      · rw [hMode]
        exact ⟨hBelow, hGoes⟩

/- A completion keeps the file unless it reaches it. -/
theorem lookup_floodComplete_iff
    (hSync : Synchronised H loc path sourceId H' dst)
    (files : List FileInfo)
    (dirs : List String) :
    (runTask H' sourceId (.floodComplete files dirs)
        dst).disk.lookup (H'.locate path) =
          dst.disk.lookup (H'.locate path) ↔
      hasKey (files.map FileInfo.path) path = true ∧
        (dst.mode = .oneWay → ∀ above,
          Above H loc above →
            hasKey dirs (H.relative above) = true) := by
  rcases hSync.file with ⟨file, hFile⟩
  have hScanned : (scanDirectory H' dst).disk.lookup
      (H'.locate path) = some (.file file) := by
    rw [scanDirectory_disk]
    exact hFile
  rw [hFile]
  refine (lookup_pruning hScanned).trans ?_
  rw [reaches_iff hSync]
  simp only [not_or, Bool.not_eq_false, not_and, not_exists]

end Peer

------------------------------------------------------------
-- When A Scan Keeps The File
------------------------------------------------------------

/-
  What keeps the file at a peer of this mode.  If the walk
  cannot start, the old maps are announced.  Otherwise the
  scan finds nothing at all, or it finds the file (or one
  whose path differs only in case) and, for a one-way peer,
  each directory above it.
-/
def ScanKeeps
    (H : Host)
    (src : LocalState)
    (loc : Loc)
    (path : String)
    (mode : SyncMode) : Prop :=
  if H.scan.walkFails = true then
    mode = .oneWay → ∀ above, Above H loc above →
      hasKey src.dirMap (H.relative above) = true
  else
    (∀ found, ¬FoundFile H src found ∧
        ¬FoundDir H src found) ∨
      ((∃ found, FoundFile H src found ∧
          key found = key path) ∧
        (mode = .oneWay → ∀ above, Above H loc above →
          ∃ found, FoundDir H src found ∧
            key found = key (H.relative above)))

theorem floodMessages_eq_nil_iff
    (sessionId : ℕ)
    (files : List FileInfo)
    (dirs : List String) :
    BroadcastManager.floodMessages sessionId files dirs =
        [] ↔
      files = [] ∧ dirs = [] := by
  unfold BroadcastManager.floodMessages
  cases files with
  | nil => cases dirs <;> simp
  | cons file files => simp

/- The file stays exactly when its announcement says so. -/
theorem keptByFlood_iff_announced
    {H H' : Host}
    {sessionId : ℕ}
    {src dst : LocalState}
    {loc : Loc}
    {path sourceId : String}
    (hSync : Synchronised H loc path sourceId H' dst) :
    KeptByFlood H sessionId src sourceId H' dst path ↔
      (getAllFiles (scanDirectory H src) = [] ∧
          getLocalDirectories (scanDirectory H src) = []) ∨
        (hasKey ((getAllFiles (scanDirectory H src)).map
            FileInfo.path) path = true ∧
          (dst.mode = .oneWay → ∀ above, Above H loc above →
            hasKey (getLocalDirectories
              (scanDirectory H src)) (H.relative above) =
                true)) := by
  unfold KeptByFlood BroadcastManager.performFloodSync
  dsimp only
  rw [← floodMessages_eq_nil_iff sessionId]
  constructor
  · intro hKept
    by_cases hEmpty : BroadcastManager.floodMessages
        sessionId (getAllFiles (scanDirectory H src))
        (getLocalDirectories (scanDirectory H src)) = []
    · exact Or.inl hEmpty
    · right
      exact (lookup_floodComplete_iff hSync _ _).mp
        (hKept _ _ hEmpty (fun _ => Iff.rfl)
          (fun _ => Iff.rfl))
  · intro hSafe files dirs hSent hFiles hDirs
    rcases hSafe with hEmpty | hAnnounced
    · exact absurd hEmpty hSent
    · have hPaths : SameEntries (files.map FileInfo.path)
          ((getAllFiles (scanDirectory H src)).map
            FileInfo.path) := by
        intro entry
        simp only [List.mem_map, hFiles _]
      rw [lookup_floodComplete_iff hSync,
        hasKey_of_sameEntries hPaths]
      refine ⟨hAnnounced.1, ?_⟩
      intro hMode above hAbove
      rw [hasKey_of_sameEntries hDirs]
      exact hAnnounced.2 hMode above hAbove

/-
  A file that is still there stays at a synchronised peer
  exactly when no failure of the scan hides it or, in the
  one-way mode, a directory above it.
-/
theorem keptByFlood_iff
    {H H' : Host}
    {sessionId : ℕ}
    {src dst : LocalState}
    {loc : Loc}
    {path sourceId : String}
    (hStill : StillThere H src loc path)
    (hSync : Synchronised H loc path sourceId H' dst) :
    KeptByFlood H sessionId src sourceId H' dst path ↔
      ScanKeeps H src loc path dst.mode := by
  rw [keptByFlood_iff_announced hSync]
  unfold ScanKeeps
  cases hWalk : H.scan.walkFails with
  | true =>
      have hSame : scanDirectory H src = src := by
        simp [scanDirectory, hWalk]
      have hTracked := hasKey_of_mem hStill.tracked
      have hSome : getAllFiles src ≠ [] := by
        intro hNone
        have hMem := hStill.tracked
        rw [hNone] at hMem
        cases hMem
      rw [hSame, if_pos rfl, hTracked]
      simp only [hSome, false_and, false_or, true_and]
      rfl
  | false =>
      rw [if_neg Bool.false_ne_true]
      have hNothing :
          (getAllFiles (scanDirectory H src) = [] ∧
            getLocalDirectories (scanDirectory H src) =
              []) ↔
            ∀ found, ¬FoundFile H src found ∧
              ¬FoundDir H src found := by
        rw [← List.map_eq_nil_iff (f := FileInfo.path),
          List.eq_nil_iff_forall_not_mem,
          List.eq_nil_iff_forall_not_mem, ← forall_and]
        simp only [mem_scannedFiles_iff hWalk,
          mem_scannedDirs_iff hWalk]
      rw [hNothing]
      simp only [hasKey_eq_true_iff,
        mem_scannedFiles_iff hWalk,
        mem_scannedDirs_iff hWalk]

------------------------------------------------------------
-- Examples
------------------------------------------------------------

/- Nothing lies between the root and its own entries. -/
theorem not_above_of_length_le
    {H : Host}
    {loc above : Loc}
    (hLength : loc.length ≤ H.root.length + 1) :
    ¬Above H loc above := by
  rintro ⟨hInside, hRoot, hAbove, hLoc⟩
  have hMore : H.root.length < above.length := by
    have hLe := hInside.length_le
    have hNe : H.root.length ≠ above.length := by
      intro hEq
      exact hRoot (hInside.eq_of_length hEq).symm
    omega
  have hLess : above.length < loc.length := by
    have hLe := hAbove.length_le
    have hNe : above.length ≠ loc.length := by
      intro hEq
      exact hLoc (hAbove.eq_of_length hEq)
    omega
  omega

/- Two tracked files, of which `a.txt` was then edited. -/
def sampleSource : LocalState :=
  (scanDirectory Host.plain
    (((LocalState.empty Host.plain .source
      .oneWay).userWrites Host.plain "a.txt"
        []).userWrites Host.plain "b.txt" [98])).userWrites
          { Host.plain with now := 1 } "a.txt" [97]

/- A one-way peer with the same two files. -/
def samplePeer : LocalState :=
  ((LocalState.empty Host.plain .destination
    .oneWay).userWrites Host.plain "a.txt" []).userWrites
      Host.plain "b.txt" [98]

/- The edited file cannot be opened for hashing. -/
def lockedHost : Host :=
  { Host.plain with
    scan := { ScanConditions.plain with
      hashFails := fun loc => loc == ["r", "a.txt"] } }

theorem stillThere_sampleSource
    (H : Host)
    (hRoot : H.root = ["r"])
    (hIgnores : H.scan.ignores = fun _ => false) :
    StillThere H sampleSource ["r", "a.txt"] "a.txt" where
  inside := by
    unfold Host.Inside
    rw [hRoot]
    decide
  file := ⟨⟨[97], 1⟩, by decide⟩
  relative := by
    unfold Host.relative
    rw [hRoot]
    decide
  tracked := by decide
  notIgnored := by rw [hIgnores]
  notPruned := by
    unfold pruned
    rw [hIgnores]
    simp

theorem synchronised_samplePeer
    (H : Host)
    (hRoot : H.root = ["r"]) :
    Synchronised H ["r", "a.txt"] "a.txt" "source"
      Host.plain samplePeer where
  file := ⟨⟨[], 0⟩, by decide⟩
  removable := rfl
  tracked := by decide
  recorded := by
    intro hMode
    cases hMode
  ownPlace := by decide
  notDir := by decide
  dirsAbove := by
    intro above hAbove
    refine absurd hAbove (not_above_of_length_le ?_)
    rw [hRoot]
    decide
  onlyAbove := by
    intro dir hDir
    cases hDir

/- A scan that can read everything keeps the file. -/
theorem keptByFlood_sample :
    KeptByFlood Host.plain 1 sampleSource "source"
      Host.plain samplePeer "a.txt" := by
  refine (keptByFlood_iff
    (stillThere_sampleSource Host.plain rfl rfl)
    (synchronised_samplePeer Host.plain rfl)).mpr
      (Or.inr ⟨⟨"a.txt", ?_, rfl⟩, ?_⟩)
  · have hVisits : Visits Host.plain sampleSource
        (["r", "a.txt"], .file ⟨[97], 1⟩) :=
      (visits_iff _).mpr (by decide)
    have hReadable : ReadableFile Host.plain
        sampleSource.fileStore ["r", "a.txt"] ⟨[97], 1⟩ :=
      ⟨rfl, by decide, rfl, rfl, rfl, rfl⟩
    exact ⟨_, _, by decide, hVisits, hReadable⟩
  · intro hMode above hAbove
    exact absurd hAbove
      (not_above_of_length_le (by decide))

/-
  The edited file is locked while the scan hashes it: the
  flood announces only the other file, and the peer deletes
  the locked one.
-/
theorem not_keptByFlood_of_locked_file :
    StillThere lockedHost sampleSource ["r", "a.txt"]
        "a.txt" ∧
      Synchronised lockedHost ["r", "a.txt"] "a.txt"
        "source" Host.plain samplePeer ∧
      ¬KeptByFlood lockedHost 1 sampleSource "source"
        Host.plain samplePeer "a.txt" := by
  refine ⟨stillThere_sampleSource lockedHost rfl rfl,
    synchronised_samplePeer lockedHost rfl, ?_⟩
  intro hKept
  have hSame := hKept
    (getAllFiles (scanDirectory lockedHost sampleSource))
    (getLocalDirectories
      (scanDirectory lockedHost sampleSource))
    (by decide) (fun _ => Iff.rfl) (fun _ => Iff.rfl)
  exact absurd hSame (by decide)

end ScanSafety

end VeritasSync
