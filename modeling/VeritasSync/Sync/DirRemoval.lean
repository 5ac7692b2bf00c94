import VeritasSync.Sync.FileRemoval

/-
  What a directory that a peer deletes leaves in the books:
  the map of directories, the file map and the file store.

  Main declarations:
    * `SyncHandler.Under`, `SyncHandler.under_iff_names`
    * `SyncHandler.NothingTracked`
    * `SyncHandler.deletion_leaves_nothing_iff`
-/

namespace VeritasSync

namespace SyncHandler

open LocalState PathUtils StateManager

------------------------------------------------------------
-- Below a Directory
------------------------------------------------------------

/- The path leads to the directory or to below it. -/
def Under
    (H : Host)
    (dir path : String) : Prop :=
  H.locate dir <+: H.locate path

instance
    (H : Host)
    (dir path : String) :
    Decidable (Under H dir path) := by
  unfold Under
  infer_instance

/- The names of a path, without the ones for "here". -/
def names (path : String) : List String :=
  (components path).filter (fun name => name != ".")

/- Without links a plain path leads where its names say. -/
theorem locate_of_isPlain
    {H : Host}
    (hLinks : ∀ loc, H.follow loc = loc)
    {path : String}
    (hPlain : IsPlain path) :
    H.locate path = H.root ++ names path := by
  have hWalk : ∀ (parts : List String) (loc : Loc),
      ".." ∉ parts →
        parts.foldl H.enter loc =
          loc ++ parts.filter (fun name => name != ".") := by
    intro parts
    induction parts with
    | nil => simp
    | cons part parts ih =>
        intro loc hParts
        simp only [List.mem_cons, not_or] at hParts
        rw [List.foldl_cons, ih _ hParts.2, Host.enter,
          if_neg (Ne.symm hParts.1)]
        by_cases hHere : part = "."
        · simp [hHere]
        · simp [hHere, hLinks]
  rw [Host.locate, hPlain.1, names]
  exact hWalk _ _ hPlain.2

/- Below a directory is what continues its names. -/
theorem under_iff_names
    {H : Host}
    (hLinks : ∀ loc, H.follow loc = loc)
    {dir path : String}
    (hDir : IsPlain dir)
    (hPath : IsPlain path) :
    Under H dir path ↔ names dir <+: names path := by
  rw [Under, locate_of_isPlain hLinks hDir,
    locate_of_isPlain hLinks hPath,
    List.prefix_append_right_inj]

/- Nothing at or below the directory refuses to go. -/
def Removable
    (H : Host)
    (dir : String) : Prop :=
  ∀ top loc, H.locate dir <+: top → top <+: loc →
    H.survives top loc = false

------------------------------------------------------------
-- One Deletion after the Other
------------------------------------------------------------

section Deletions

variable
  {H : Host}
  {dir path : String}

theorem survivor_of_removable
    (hGoes : Removable H dir)
    (disk : Disk)
    {top loc : Loc}
    (hTop : H.locate dir <+: top)
    (hLoc : top <+: loc) :
    Filesystem.survivor H disk top loc = false := by
  unfold Filesystem.survivor
  rw [hGoes top loc hTop hLoc, Bool.false_or,
    Bool.and_eq_false_iff]
  right
  rw [List.any_eq_false]
  intro below _
  by_cases hBelow : loc <+: below
  · simp [hGoes top below hTop (hLoc.trans hBelow)]
  · simp [hBelow]

/- The path itself goes, whatever is on the disk. -/
theorem mem_dirMap_deleteTree
    (hGoes : Removable H dir)
    (hUnder : Under H dir path)
    (s : LocalState)
    (other : String) :
    path ∈ (deleteTree H s other).dirMap ↔
      path ∈ s.dirMap ∧ path ≠ other := by
  unfold deleteTree
  dsimp only
  split
  next hFails =>
    have hOther : path ≠ other := by
      rintro rfl
      rw [Filesystem.removeAllFails, Bool.and_eq_true,
        survivor_of_removable hGoes _ hUnder
          (List.prefix_refl _)] at hFails
      cases hFails.2
    exact (and_iff_left hOther).symm
  next => simp [removeDirFromMap, act]

theorem mem_dirMap_foldl_deleteSafeTree
    (hGoes : Removable H dir)
    (hUnder : Under H dir path)
    (deletes : List String)
    (s : LocalState) :
    path ∈ (deletes.foldl (deleteSafeTree H) s).dirMap ↔
      path ∈ s.dirMap ∧
        ¬(path ∈ deletes ∧
          isPathSafeWithCanonicalRoot H path = true) := by
  induction deletes generalizing s with
  | nil => simp
  | cons first rest ih =>
      have hFirst : path ∈
          (deleteSafeTree H s first).dirMap ↔
            path ∈ s.dirMap ∧ ¬(path = first ∧
              isPathSafeWithCanonicalRoot H path = true) := by
        unfold deleteSafeTree
        split
        next hSafe =>
          rw [mem_dirMap_deleteTree hGoes hUnder]
          refine and_congr_right (fun _ => not_congr ?_)
          exact ⟨fun hEq => ⟨hEq, hEq ▸ hSafe⟩, And.left⟩
        next hUnsafe =>
          refine (and_iff_left ?_).symm
          rintro ⟨rfl, hSafe⟩
          exact hUnsafe hSafe
      rw [List.foldl_cons, ih, hFirst, List.mem_cons]
      tauto

/- What is only in the books about files stays there. -/
theorem foldl_deleteSafeTree_files
    (deletes : List String)
    (s : LocalState) :
    (deletes.foldl (deleteSafeTree H) s).fileMap =
        s.fileMap ∧
      (deletes.foldl (deleteSafeTree H) s).fileStore =
        s.fileStore := by
  refine List.foldlRecOn
    (motive := fun s' => s'.fileMap = s.fileMap ∧
      s'.fileStore = s.fileStore) deletes (deleteSafeTree H)
    ⟨rfl, rfl⟩ (fun s' hSame other _ => ?_)
  rw [← hSame.1, ← hSame.2]
  unfold deleteSafeTree deleteTree
  dsimp only
  split
  · split <;> exact ⟨rfl, rfl⟩
  · exact ⟨rfl, rfl⟩

/- What a deletion has emptied stays empty. -/
theorem lookup_foldl_deleteSafeTree
    {loc : Loc}
    (deletes : List String)
    {s : LocalState}
    (hGone : s.disk.lookup loc = none) :
    (deletes.foldl (deleteSafeTree H) s).disk.lookup loc =
      none := by
  refine List.foldlRecOn
    (motive := fun s' => s'.disk.lookup loc = none) deletes
    (deleteSafeTree H) hGone (fun s' hNone other _ => ?_)
  unfold deleteSafeTree
  split
  · rw [deleteTree_disk, Filesystem.lookup_removeAll, hNone,
      ite_self]
  · exact hNone

theorem lookup_deleteTree_of_removable
    (hGoes : Removable H dir)
    (s : LocalState)
    {loc : Loc}
    (hBelow : H.locate dir <+: loc) :
    (deleteTree H s dir).disk.lookup loc = none := by
  rw [deleteTree_disk, Filesystem.lookup_removeAll,
    if_pos ⟨hBelow, survivor_of_removable hGoes _
      (List.prefix_refl _) hBelow⟩]

end Deletions

------------------------------------------------------------
-- What Is Left
------------------------------------------------------------

/- No book mentions the directory or a path below it. -/
def NothingTracked
    (H : Host)
    (dir : String)
    (s : LocalState) : Prop :=
  ∀ path, Under H dir path →
    path ∉ s.dirMap ∧ path ∉ s.fileMap ∧
      path ∉ s.fileStore

/-
  No file below the directory is tracked, and whatever
  directory is tracked there is one of those to delete.
-/
def OnlyListedDirs
    (H : Host)
    (dir : String)
    (deletes : List String)
    (s : LocalState) : Prop :=
  ∀ path, Under H dir path →
    path ∉ s.fileMap ∧ path ∉ s.fileStore ∧
      (path ∈ s.dirMap → path ∈ deletes ∧
        isPathSafeWithCanonicalRoot H path = true)

section Left

variable
  {H : Host}
  {dir : String}

/- The deletions of a list of directories. -/
theorem nothingTracked_foldl_deleteSafeTree_iff
    (hGoes : Removable H dir)
    (deletes : List String)
    (s : LocalState) :
    NothingTracked H dir
        (deletes.foldl (deleteSafeTree H) s) ↔
      OnlyListedDirs H dir deletes s := by
  rcases foldl_deleteSafeTree_files (H := H) deletes s with
    ⟨hMap, hStore⟩
  refine forall₂_congr (fun path hUnder => ?_)
  rw [mem_dirMap_foldl_deleteSafeTree hGoes hUnder, hMap,
    hStore]
  tauto

/- A directory that is on the list is gone from the disk. -/
theorem lookup_of_mem_deletes
    (hSafe : isPathSafeWithCanonicalRoot H dir = true)
    (hGoes : Removable H dir)
    {deletes : List String}
    (hMem : dir ∈ deletes)
    (s : LocalState)
    {loc : Loc}
    (hBelow : H.locate dir <+: loc) :
    (deletes.foldl (deleteSafeTree H) s).disk.lookup loc =
      none := by
  rcases List.append_of_mem hMem with
    ⟨before, after, rfl⟩
  rw [List.foldl_append, List.foldl_cons]
  apply lookup_foldl_deleteSafeTree
  rw [deleteSafeTree, if_pos hSafe]
  exact lookup_deleteTree_of_removable hGoes _ hBelow

/-
  After either message has deleted the directory, the disk
  has nothing left of it.  Nothing of it is tracked either
  exactly when no file below it was, and no directory that
  the message does not list.
-/
theorem deletion_leaves_nothing_iff
    (hSafe : isPathSafe H dir = true)
    (hGoes : Removable H dir)
    (peerId : String)
    (s : LocalState) :
    let single := runTask H peerId (.deleteDir dir) s
    ((∀ loc, H.locate dir <+: loc →
        single.disk.lookup loc = none) ∧
      (NothingTracked H dir single ↔
        OnlyListedDirs H dir [dir] s)) ∧
    ∀ creates deletes, dir ∈ deletes →
      let batch :=
        runTask H peerId (.dirBatch creates deletes) s
      (∀ loc, H.locate dir <+: loc →
        batch.disk.lookup loc = none) ∧
      (NothingTracked H dir batch ↔
        OnlyListedDirs H dir deletes
          (creates.foldl (createBatchDir H) s)) := by
  have hPath :=
    isPathSafeWithCanonicalRoot_of_isPathSafe hSafe
  have hSingle : runTask H peerId (.deleteDir dir) s =
      [dir].foldl (deleteSafeTree H) s := by
    simp [runTask, deleteDir, hSafe, deleteSafeTree, hPath]
  have hRoot : H.canonicalFails "" = false := by
    simp only [isPathSafe, Bool.and_eq_true,
      Bool.not_eq_true'] at hSafe
    exact hSafe.1
  have hBatch : ∀ creates deletes,
      runTask H peerId (.dirBatch creates deletes) s =
        (sortByLength deletes).foldl (deleteSafeTree H)
          (creates.foldl (createBatchDir H) s) := by
    intro creates deletes
    simp [runTask, dirBatch, hRoot]
  have hSorted : ∀ (deletes : List String) path,
      path ∈ sortByLength deletes ↔ path ∈ deletes :=
    fun _ _ => List.mem_insertionSort _
  refine ⟨⟨?_, ?_⟩, ?_⟩
  · intro loc hBelow
    rw [hSingle]
    exact lookup_of_mem_deletes hPath hGoes
      List.mem_cons_self s hBelow
  · rw [hSingle]
    exact nothingTracked_foldl_deleteSafeTree_iff hGoes _ s
  · intro creates deletes hMem
    dsimp only
    rw [hBatch]
    refine ⟨fun loc hBelow => lookup_of_mem_deletes hPath
      hGoes ((hSorted _ _).mpr hMem) _ hBelow, ?_⟩
    rw [nothingTracked_foldl_deleteSafeTree_iff hGoes]
    simp only [OnlyListedDirs, hSorted]

end Left

/- Every directory to go is listed; "dx" is not below "d". -/
theorem deletion_leaves_nothing_of_listed :
    let s : LocalState :=
      { LocalState.empty .plain .destination .oneWay with
        dirMap := ["d", "d/sub", "dx"] }
    NothingTracked .plain "d"
      (runTask .plain "peer"
        (.dirBatch [] ["d", "d/sub"]) s) := by
  intro s
  refine ((@deletion_leaves_nothing_iff .plain "d"
    (by decide) (fun _ _ _ _ => rfl) "peer" s).2 []
      ["d", "d/sub"] (by decide)).2.mpr ?_
  intro path hUnder
  refine ⟨AList.notMem_empty _, AList.notMem_empty _, ?_⟩
  intro hMem
  have hDirs : path = "d" ∨ path = "d/sub" ∨ path = "dx" := by
    simpa [s] using hMem
  rcases hDirs with rfl | rfl | rfl
  · exact ⟨by decide, by decide⟩
  · exact ⟨by decide, by decide⟩
  · exact absurd hUnder (by decide)

/- A scanned file and a directory below the one that goes. -/
theorem descendants_stay_tracked :
    let s := scanDirectory .plain
      ((LocalState.empty .plain .destination
        .oneWay).userWrites .plain "d/sub/x.txt" [97])
    let single := runTask .plain "peer" (.deleteDir "d") s
    let batch :=
      runTask .plain "peer" (.dirBatch [] ["d"]) s
    (single.disk.lookup ["r", "d", "sub", "x.txt"] = none ∧
      "d/sub" ∈ single.dirMap ∧
      "d/sub/x.txt" ∈ single.fileMap ∧
      "d/sub/x.txt" ∈ single.fileStore) ∧
    batch.disk.lookup ["r", "d", "sub", "x.txt"] = none ∧
      "d/sub" ∈ batch.dirMap ∧
      "d/sub/x.txt" ∈ batch.fileMap ∧
      "d/sub/x.txt" ∈ batch.fileStore := by
  decide +kernel

end SyncHandler

end VeritasSync
