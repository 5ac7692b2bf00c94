import VeritasSync.Storage.ScanAgreement
import VeritasSync.Sync.DirRemoval

/-
  What the reconciliation of a bidirectional task removes:
  the listed directories that hold nothing else, and nothing
  besides them.

  Main declarations:
    * `EmptyDirs.IsTracked`, `EmptyDirs.isTracked_relative`
    * `EmptyDirs.OnlyListed`,
      `EmptyDirs.not_under_of_parentsListed`
    * `EmptyDirs.biDirectional_removes_exactly`
-/

namespace VeritasSync

namespace EmptyDirs

open LocalState ScanAgreement StateManager SyncHandler

------------------------------------------------------------
-- Tracked Paths
------------------------------------------------------------

/-
  The path of a place below the root, as a scan records it:
  it is written from the names of the place it leads to.
-/
structure IsTracked
    (H : Host)
    (path : String) : Prop where
  inside : H.Inside (H.locate path)
  below : H.locate path ≠ H.root
  relative : H.relative (H.locate path) = path

/- A name does not begin like an absolute path. -/
theorem isAbsolute_intercalate
    {names : List String}
    (hNames : ∀ name ∈ names,
      name ≠ "" ∧ '/' ∉ name.toList) :
    isAbsolute ("/".intercalate names) = false := by
  cases names with
  | nil => rfl
  | cons first rest =>
      have hFirst := hNames first List.mem_cons_self
      have hText : ∃ after, ("/".intercalate
          (first :: rest)).toList = first.toList ++ after := by
        by_cases hRest : rest = []
        · exact ⟨[], by simp [hRest]⟩
        · rw [String.intercalate_cons_of_ne_nil hRest]
          exact ⟨_, by
            rw [String.toList_append, String.toList_append,
              List.append_assoc]⟩
      rcases hText with ⟨after, hText⟩
      rcases List.exists_cons_of_ne_nil (by
        simpa using hFirst.1 : first.toList ≠ []) with
        ⟨c, cs, hChars⟩
      have hSlash : c ≠ '/' := by
        rintro rfl
        exact hFirst.2 (by rw [hChars]; exact
          List.mem_cons_self)
      simp [isAbsolute, hText, hChars, hSlash]

/- Without links the paths that a scan records are such. -/
theorem isTracked_relative
    {H : Host}
    (hLinks : ∀ loc, H.follow loc = loc)
    {tree : Tree}
    {loc : Loc}
    (hBelow : IsBelow H tree.disk loc)
    (hDots : "." ∉ loc ∧ ".." ∉ loc) :
    IsTracked H (H.relative loc) := by
  rcases Option.ne_none_iff_exists'.mp hBelow.2.2 with
    ⟨node, hNode⟩
  have hPlain : PathUtils.IsPlain (H.relative loc) := by
    refine ⟨isAbsolute_intercalate (fun name hName =>
      tree.names loc node hNode name
        (List.mem_of_mem_drop hName)), ?_⟩
    rw [components_relative hBelow]
    exact fun hMem => hDots.2 (List.mem_of_mem_drop hMem)
  have hNames : names (H.relative loc) =
      loc.drop H.root.length := by
    rw [names, components_relative hBelow, List.filter_eq_self]
    intro name hName
    have hDot : name ≠ "." := by
      intro hEq
      exact hDots.1 (hEq ▸ List.mem_of_mem_drop hName)
    simp [hDot]
  have hLocate : H.locate (H.relative loc) = loc := by
    rw [locate_of_isPlain hLinks hPlain, hNames]
    exact List.prefix_iff_eq_append.mp hBelow.1
  refine ⟨?_, ?_, ?_⟩
  · rw [hLocate]
    exact hBelow.1
  · rw [hLocate]
    exact hBelow.2.1
  · rw [hLocate]

section Tracked

variable
  {H : Host}
  {first second : String}

/- Different tracked paths lead to different places. -/
theorem eq_of_locate_eq
    (hFirst : IsTracked H first)
    (hSecond : IsTracked H second)
    (hSame : H.locate first = H.locate second) :
    first = second := by
  rw [← hFirst.relative, ← hSecond.relative, hSame]

/- A path is longer than the paths of what is above it. -/
theorem utf8ByteSize_lt_of_under
    (hFirst : IsTracked H first)
    (hSecond : IsTracked H second)
    (hUnder : Under H first second)
    (hNe : H.locate first ≠ H.locate second) :
    first.utf8ByteSize < second.utf8ByteSize := by
  rcases hFirst.inside with ⟨names, hNames⟩
  rcases hUnder with ⟨rest, hRest⟩
  have hSome : names ≠ [] := by
    rintro rfl
    exact hFirst.below (by rw [← hNames, List.append_nil])
  have hMore : rest ≠ [] := by
    rintro rfl
    exact hNe (by rw [← hRest, List.append_nil])
  have hShort : first = "/".intercalate names := by
    rw [← hFirst.relative, Host.relative, ← hNames,
      List.drop_left]
  have hLong : second = "/".intercalate (names ++ rest) := by
    rw [← hSecond.relative, Host.relative, ← hRest, ← hNames,
      List.append_assoc, List.drop_left]
  rw [hLong, String.intercalate_append_of_ne_nil hSome hMore,
    ← hShort]
  simp only [String.utf8ByteSize_append]
  have hSlash : "/".utf8ByteSize = 1 := rfl
  omega

/- Longest first, no place comes before one below it. -/
theorem pairwise_locate_sortByLength
    {dirs : List String}
    (hTracked : ∀ path ∈ dirs, IsTracked H path) :
    ((sortByLength dirs).map H.locate).Pairwise
      (fun first second => first <+: second →
        first = second) := by
  rw [List.pairwise_map]
  have hSorted : (sortByLength dirs).Pairwise
      (fun a b => b.utf8ByteSize ≤ a.utf8ByteSize) :=
    List.pairwise_insertionSort _ _
  refine hSorted.imp_of_mem ?_
  intro first second hFirst hSecond hLe hUnder
  rw [sortByLength, List.mem_insertionSort] at hFirst hSecond
  by_contra hNe
  have hLt := utf8ByteSize_lt_of_under
    (hTracked _ hFirst) (hTracked _ hSecond) hUnder hNe
  omega

end Tracked

------------------------------------------------------------
-- One Deletion after the Other
------------------------------------------------------------

section Deletions

variable
  {H : Host}
  {path : String}

/- A path that leads nowhere is not in the map. -/
def Settled
    (H : Host)
    (path : String)
    (s : LocalState) : Prop :=
  s.disk.lookup (H.locate path) = none → path ∉ s.dirMap

theorem syncDeleteDir_disk
    (hRemoves : H.removeFails (H.locate path) = false)
    (s : LocalState) :
    (syncDeleteDir H .biDirectional s path).disk =
      (FileTree.remove s.disk (H.locate path)).getD
        s.disk := by
  have hRemove :
      Filesystem.remove H s.disk (H.locate path) =
        FileTree.remove s.disk (H.locate path) := by
    simp [Filesystem.remove, hRemoves]
  unfold syncDeleteDir
  dsimp only
  rw [hRemove]
  cases FileTree.remove s.disk (H.locate path) with
  | some disk => rfl
  | none =>
      dsimp only
      split <;> rfl

theorem foldl_syncDeleteDir_disk
    {dirs : List String}
    (hRemoves : ∀ path ∈ dirs,
      H.removeFails (H.locate path) = false)
    (s : LocalState) :
    (dirs.foldl (syncDeleteDir H .biDirectional) s).disk =
      FileTree.sweep s.disk (dirs.map H.locate) := by
  induction dirs generalizing s with
  | nil => rfl
  | cons path dirs ih =>
      rw [List.forall_mem_cons] at hRemoves
      rw [List.foldl_cons, ih hRemoves.2,
        syncDeleteDir_disk hRemoves.1]
      rfl

/- The step of a path settles it. -/
theorem settled_syncDeleteDir_self
    (s : LocalState) :
    Settled H path
      (syncDeleteDir H .biDirectional s path) := by
  intro hNone
  unfold syncDeleteDir at hNone ⊢
  dsimp only at hNone ⊢
  split
  · simp [removeDirFromMap, act]
  next hRemove =>
    simp only [hRemove] at hNone
    split
    next hExists =>
      rw [if_pos hExists] at hNone
      simp [Filesystem.exists?, hNone] at hExists
    next => simp [removeDirFromMap]

/- The step of another place leaves a path settled. -/
theorem Settled.syncDeleteDir
    {s : LocalState}
    (hSettled : Settled H path s)
    {other : String}
    (hOther : H.locate path ≠ H.locate other) :
    Settled H path
      (syncDeleteDir H .biDirectional s other) := by
  intro hNone
  unfold SyncHandler.syncDeleteDir at hNone ⊢
  dsimp only at hNone ⊢
  split
  next disk hRemove =>
    simp only [hRemove] at hNone
    have hBefore : s.disk.lookup (H.locate path) = none := by
      have hLookup :=
        Filesystem.lookup_remove hRemove (H.locate path)
      rw [if_neg hOther] at hLookup
      exact hLookup ▸ hNone
    have hAbsent := hSettled hBefore
    simp [removeDirFromMap, act, hAbsent]
  next hRemove =>
    simp only [hRemove] at hNone
    split
    next hExists =>
      rw [if_pos hExists] at hNone
      exact hSettled hNone
    next hExists =>
      rw [if_neg hExists] at hNone
      have hAbsent := hSettled hNone
      simp [removeDirFromMap, hAbsent]

theorem settled_foldl_syncDeleteDir
    {dirs : List String}
    (hTracked : ∀ path ∈ dirs, IsTracked H path)
    (hMem : path ∈ dirs)
    (s : LocalState) :
    Settled H path
      (dirs.foldl (syncDeleteDir H .biDirectional) s) := by
  have hPath := hTracked path hMem
  have hStays : ∀ (rest : List String) (s' : LocalState),
      (∀ other ∈ rest, IsTracked H other) →
        Settled H path s' → Settled H path
          (rest.foldl (SyncHandler.syncDeleteDir H
            .biDirectional) s') := by
    intro rest
    induction rest with
    | nil => exact fun _ _ hSettled => hSettled
    | cons other rest ih =>
        intro s' hRest hSettled
        rw [List.forall_mem_cons] at hRest
        apply ih _ hRest.2
        by_cases hSame : H.locate path = H.locate other
        · rw [eq_of_locate_eq hPath hRest.1 hSame]
          exact settled_syncDeleteDir_self s'
        · exact hSettled.syncDeleteDir hSame
  rcases List.append_of_mem hMem with ⟨before, after, rfl⟩
  rw [List.foldl_append, List.foldl_cons]
  refine hStays after _ (fun other hOther => ?_)
    (settled_syncDeleteDir_self _)
  exact hTracked other (List.mem_append_right _
    (List.mem_cons_of_mem _ hOther))

end Deletions

------------------------------------------------------------
-- Creations Afterwards
------------------------------------------------------------

section Creations

variable
  {H : Host}

/- Whatever exists is left as it is. -/
theorem lookup_foldl_syncCreateDir
    (creates : List String)
    {s : LocalState}
    {loc : Loc}
    {node : Node File}
    (hNode : s.disk.lookup loc = some node) :
    (creates.foldl (syncCreateDir H) s).disk.lookup loc =
      some node := by
  refine List.foldlRecOn
    (motive := fun s' => s'.disk.lookup loc = some node)
    creates (syncCreateDir H) hNode
    (fun s' hSome create _ => ?_)
  unfold syncCreateDir
  split
  next disk hCreate =>
    have hLookup :=
      Filesystem.lookup_createDirectories hCreate loc
    rw [hSome] at hLookup
    simpa [addDirToMap, act] using hLookup
  next => exact hSome

/- A path comes back only with one at or below it. -/
theorem gone_foldl_syncCreateDir
    {path : String}
    {creates : List String}
    (hApart : ∀ create ∈ creates, ¬ Under H path create)
    {s : LocalState}
    (hGone : s.disk.lookup (H.locate path) = none ∧
      path ∉ s.dirMap) :
    let after := creates.foldl (syncCreateDir H) s
    after.disk.lookup (H.locate path) = none ∧
      path ∉ after.dirMap := by
  refine List.foldlRecOn
    (motive := fun s' : LocalState =>
      s'.disk.lookup (H.locate path) = none ∧
        path ∉ s'.dirMap)
    creates (syncCreateDir H) hGone
    (fun s' hBefore create hCreate => ?_)
  have hAway := hApart create hCreate
  have hNe : path ≠ create := by
    rintro rfl
    exact hAway (List.prefix_refl _)
  unfold syncCreateDir
  split
  next disk hDisk =>
    have hLookup := Filesystem.lookup_createDirectories hDisk
      (H.locate path)
    rw [if_neg (fun hBoth => hAway hBoth.1),
      hBefore.1] at hLookup
    refine ⟨hLookup, ?_⟩
    simp [addDirToMap, act, hNe, hBefore.2]
  next => exact hBefore

end Creations

------------------------------------------------------------
-- What Is Removed
------------------------------------------------------------

/- Some path of the list leads to the place. -/
def IsListed
    (H : Host)
    (dirs : List String)
    (loc : Loc) : Prop :=
  ∃ path ∈ dirs, H.locate path = loc

/- Whatever exists at or below the place is listed. -/
def OnlyListed
    (H : Host)
    (disk : Disk)
    (dirs : List String)
    (top : Loc) : Prop :=
  ∀ loc, top <+: loc → disk.lookup loc ≠ none →
    IsListed H dirs loc

section Removed

variable
  {H : Host}
  {actions : DirSyncActions}
  {s : LocalState}

/- The disk after the deletions, place by place. -/
theorem lookup_deletions
    (hTracked : ∀ path ∈ actions.dirsToDelete,
      IsTracked H path)
    (hDirs : ∀ path ∈ actions.dirsToDelete,
      s.disk.lookup (H.locate path) = none ∨
        s.disk.lookup (H.locate path) = some .dir)
    (hRemoves : ∀ path ∈ actions.dirsToDelete,
      H.removeFails (H.locate path) = false)
    (loc : Loc) :
    let pruned := (sortByLength actions.dirsToDelete).foldl
      (syncDeleteDir H .biDirectional) s
    (IsListed H actions.dirsToDelete loc ∧
        OnlyListed H s.disk actions.dirsToDelete loc →
      pruned.disk.lookup loc = none) ∧
    (¬ (IsListed H actions.dirsToDelete loc ∧
        OnlyListed H s.disk actions.dirsToDelete loc) →
      pruned.disk.lookup loc = s.disk.lookup loc) := by
  have hMem : ∀ path,
      path ∈ sortByLength actions.dirsToDelete ↔
        path ∈ actions.dirsToDelete :=
    fun _ => List.mem_insertionSort _
  have hListed : ∀ other,
      other ∈ (sortByLength actions.dirsToDelete).map
          H.locate ↔
        IsListed H actions.dirsToDelete other := by
    intro other
    simp only [List.mem_map, hMem, IsListed]
  have hSweep := FileTree.lookup_sweep
    (pairwise_locate_sortByLength hTracked) s.disk
    (fun other hOther => by
      rcases (hListed other).mp hOther with
        ⟨path, hPath, rfl⟩
      exact hDirs path hPath) loc
  dsimp only
  rw [foldl_syncDeleteDir_disk (fun path hPath =>
    hRemoves path ((hMem path).mp hPath))]
  simpa only [FileTree.Covered, hListed, OnlyListed] using
    hSweep

/- A scan that lists a directory has listed its parents. -/
def ParentsListed
    (H : Host)
    (dirs : List String) : Prop :=
  ∀ dir ∈ dirs, ∀ parent, IsTracked H parent →
    Under H parent dir → parent ∈ dirs

/- Then nothing is created where a directory is to go. -/
theorem not_under_of_parentsListed
    {localDirs remoteDirs : List String}
    (hParents : ParentsListed H remoteDirs)
    {path create : String}
    (hTracked : IsTracked H path)
    (hDelete : path ∈ (SyncManager.compareDirStates localDirs
      remoteDirs).dirsToDelete)
    (hCreate : create ∈ (SyncManager.compareDirStates
      localDirs remoteDirs).dirsToCreate) :
    ¬ Under H path create := by
  intro hUnder
  rw [SyncManager.mem_dirsToDelete_iff] at hDelete
  rw [SyncManager.mem_dirsToCreate_iff] at hCreate
  have hRemote := hParents create hCreate.1 path hTracked
    hUnder
  have hKey := SyncManager.hasKey_of_mem hRemote
  rw [hDelete.2] at hKey
  cases hKey

/-
  A listed directory with nothing but listed directories
  below it goes, from the disk and from the map.  One with
  anything else below it stays, and so does every file and
  every directory that is not listed.
-/
theorem biDirectional_removes_exactly
    (hTracked : ∀ path ∈ actions.dirsToDelete,
      IsTracked H path)
    (hDirs : ∀ path ∈ actions.dirsToDelete,
      s.disk.lookup (H.locate path) = none ∨
        s.disk.lookup (H.locate path) = some .dir)
    (hRemoves : ∀ path ∈ actions.dirsToDelete,
      H.removeFails (H.locate path) = false) :
    let after :=
      syncDirectoryActions H actions .biDirectional s
    (∀ path ∈ actions.dirsToDelete,
      OnlyListed H s.disk actions.dirsToDelete
        (H.locate path) →
      (∀ create ∈ actions.dirsToCreate,
        ¬ Under H path create) →
      after.disk.lookup (H.locate path) = none ∧
        path ∉ after.dirMap) ∧
    (∀ path ∈ actions.dirsToDelete,
      s.disk.lookup (H.locate path) = some .dir →
      ∀ loc node, H.locate path <+: loc →
        s.disk.lookup loc = some node →
        node.isFile = true ∨
          ¬ IsListed H actions.dirsToDelete loc →
        after.disk.lookup (H.locate path) = some .dir) ∧
    ∀ loc node, s.disk.lookup loc = some node →
      node.isFile = true ∨
        ¬ IsListed H actions.dirsToDelete loc →
      after.disk.lookup loc = some node := by
  have hLookup := lookup_deletions hTracked hDirs hRemoves
  -- a file is never listed
  have hOutside : ∀ {loc node},
      s.disk.lookup loc = some node →
        node.isFile = true ∨
          ¬ IsListed H actions.dirsToDelete loc →
        ¬ IsListed H actions.dirsToDelete loc := by
    intro loc node hNode hHolds hListed
    rcases hHolds with hFile | hNot
    · rcases hListed with ⟨path, hPath, rfl⟩
      rcases hDirs path hPath with hNone | hDir
      · rw [hNone] at hNode
        cases hNode
      · rw [hDir] at hNode
        cases hNode
        cases hFile
    · exact hNot hListed
  refine ⟨?_, ?_, ?_⟩
  · intro path hPath hOnly hApart
    have hListed : IsListed H actions.dirsToDelete
        (H.locate path) := ⟨path, hPath, rfl⟩
    have hNone := (hLookup (H.locate path)).1 ⟨hListed, hOnly⟩
    have hSorted : ∀ other,
        other ∈ sortByLength actions.dirsToDelete →
          IsTracked H other :=
      fun other hOther => hTracked other
        ((List.mem_insertionSort _).mp hOther)
    have hSettled := settled_foldl_syncDeleteDir hSorted
      ((List.mem_insertionSort _).mpr hPath) s
    exact gone_foldl_syncCreateDir hApart
      ⟨hNone, hSettled hNone⟩
  · intro path _ hDir loc node hBelow hNode hHolds
    apply lookup_foldl_syncCreateDir
    rw [← hDir]
    refine (hLookup _).2 (fun hBoth => ?_)
    exact hOutside hNode hHolds
      (hBoth.2 loc hBelow (by rw [hNode]; simp))
  · intro loc node hNode hHolds
    apply lookup_foldl_syncCreateDir
    rw [← hNode]
    exact (hLookup loc).2 (fun hBoth =>
      hOutside hNode hHolds hBoth.1)

end Removed

/- A directory in another, and one that holds a file. -/
def photosDisk : Disk :=
  [⟨["r"], .dir⟩, ⟨["r", "old"], .dir⟩,
    ⟨["r", "old", "raw"], .dir⟩,
    ⟨["r", "kept"], .dir⟩,
    ⟨["r", "kept", "a.jpg"], textFile "a"⟩].toAList

theorem biDirectional_removes_photos :
    let dirs := ["old", "kept", "old/raw"]
    let s : LocalState :=
      { LocalState.empty .plain .destination
          .biDirectional with
        disk := photosDisk
        dirMap := dirs }
    let after := syncDirectoryActions .plain ⟨[], dirs⟩
      .biDirectional s
    (after.disk.lookup ["r", "old"] = none ∧
      "old" ∉ after.dirMap) ∧
    after.disk.lookup ["r", "kept"] = some .dir ∧
    after.disk.lookup ["r", "kept", "a.jpg"] =
      some (textFile "a") := by
  intro dirs s after
  have hTracked : ∀ path ∈ dirs, IsTracked .plain path := by
    intro path hPath
    have hEach : ∀ path ∈ dirs,
        Host.plain.Inside (Host.plain.locate path) ∧
        Host.plain.locate path ≠ Host.plain.root ∧
        Host.plain.relative (Host.plain.locate path) =
          path := by
      decide
    rcases hEach path hPath with ⟨hInside, hBelow, hSame⟩
    exact ⟨hInside, hBelow, hSame⟩
  have hExact := @biDirectional_removes_exactly .plain
    ⟨[], dirs⟩ s hTracked (by decide) (fun _ _ => rfl)
  have hOnly : OnlyListed .plain photosDisk dirs
      ["r", "old"] := by
    intro loc hBelow hSome
    have hKeys : ∀ loc ∈ photosDisk.keys,
        ["r", "old"] <+: loc →
          ∃ path ∈ dirs, Host.plain.locate path = loc := by
      decide
    refine hKeys loc ?_ hBelow
    by_contra hAbsent
    exact hSome (AList.lookup_eq_none.mpr hAbsent)
  refine ⟨?_, ?_, ?_⟩
  · exact hExact.1 "old" (by decide) hOnly
      (fun _ hNone => absurd hNone List.not_mem_nil)
  · exact hExact.2.1 "kept" (by decide) (by decide)
      ["r", "kept", "a.jpg"] (textFile "a") (by decide)
      (by decide) (Or.inl rfl)
  · exact hExact.2.2 ["r", "kept", "a.jpg"] (textFile "a")
      (by decide) (Or.inl rfl)

end EmptyDirs

end VeritasSync
