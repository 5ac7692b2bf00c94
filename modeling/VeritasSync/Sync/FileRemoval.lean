import VeritasSync.Sync.SyncHandler

/-
  When a step, or a loop of steps, takes a regular file off
  the disk.

  Main declarations:
    * `SyncHandler.RemovesWhen` and its rules
    * `SyncHandler.lookup_pruning`
-/

namespace VeritasSync

namespace SyncHandler

open LocalState PathUtils StateManager SyncManager

------------------------------------------------------------
-- Conditional Removal
------------------------------------------------------------

/-
  A step that removes the file at `loc` exactly under a
  condition, and otherwise leaves it alone.
-/
def RemovesWhen
    (loc : Loc)
    (condition : Prop)
    (s s' : LocalState) : Prop :=
  (s.disk.lookup loc = none → s'.disk.lookup loc = none) ∧
    ∀ file, s.disk.lookup loc = some (.file file) →
      (condition → s'.disk.lookup loc = none) ∧
        (¬condition →
          s'.disk.lookup loc = some (.file file))

namespace RemovesWhen

variable {loc : Loc}

theorem congr
    {condition condition' : Prop}
    {s s' : LocalState}
    (hStep : RemovesWhen loc condition s s')
    (hIff : condition ↔ condition') :
    RemovesWhen loc condition' s s' := by
  refine ⟨hStep.1, ?_⟩
  intro file hFile
  rw [← hIff]
  exact hStep.2 file hFile

/- A loop removes the file when one of its steps does. -/
theorem foldl
    {α : Type}
    {step : LocalState → α → LocalState}
    {condition : α → Prop}
    (hStep : ∀ s item,
      RemovesWhen loc (condition item) s (step s item))
    (items : List α)
    (s : LocalState) :
    RemovesWhen loc (∃ item ∈ items, condition item) s
      (items.foldl step s) := by
  induction items generalizing s with
  | nil =>
      refine ⟨id, fun file hFile => ⟨?_, fun _ => hFile⟩⟩
      rintro ⟨item, hMem, -⟩
      cases hMem
  | cons item items ih =>
      rcases hStep s item with ⟨hNone, hFirst⟩
      rcases ih (step s item) with ⟨hNones, hRest⟩
      refine ⟨fun hGone => hNones (hNone hGone), ?_⟩
      intro file hFile
      rw [List.foldl_cons]
      by_cases hNow : condition item
      · have hGone := hNones ((hFirst file hFile).1 hNow)
        refine ⟨fun _ => hGone, fun hNever => ?_⟩
        exact absurd ⟨item, List.mem_cons_self, hNow⟩ hNever
      · have hStill := (hFirst file hFile).2 hNow
        have hLater := hRest file hStill
        simpa [hNow] using hLater

/- A guarded step removes the file when it also runs. -/
theorem guard
    {condition : Prop}
    {s s' : LocalState}
    (hStep : RemovesWhen loc condition s s')
    (runs : Bool) :
    RemovesWhen loc (runs = true ∧ condition) s
      (if runs then s' else s) := by
  cases runs with
  | true => exact hStep.congr (by simp)
  | false =>
      refine ⟨id, fun file hFile => ⟨?_, fun _ => hFile⟩⟩
      rintro ⟨hRuns, -⟩
      cases hRuns

end RemovesWhen

------------------------------------------------------------
-- The Deleting Steps
------------------------------------------------------------

theorem deleteFile_removesWhen
    (H : Host)
    (loc : Loc)
    (s : LocalState)
    (path : String) :
    RemovesWhen loc
      (H.locate path = loc ∧ H.removeFails loc = false) s
      (deleteFile H s path) := by
  unfold deleteFile
  cases hRemove : Filesystem.remove H s.disk
      (H.locate path) with
  | none =>
      refine ⟨id, fun file hFile => ⟨?_, fun _ => hFile⟩⟩
      rintro ⟨rfl, hRemovable⟩
      simp [Filesystem.remove, hRemovable,
        FileTree.remove_of_file hFile] at hRemove
  | some disk =>
      have hLookup := Filesystem.lookup_remove hRemove loc
      refine ⟨?_, fun file hFile => ⟨?_, ?_⟩⟩
      · intro hGone
        change disk.lookup loc = none
        rw [hLookup, hGone, ite_self]
      · rintro ⟨rfl, -⟩
        change disk.lookup _ = none
        rw [hLookup, if_pos rfl]
      · intro hKept
        change disk.lookup loc = _
        rw [hLookup, if_neg, hFile]
        rintro rfl
        apply hKept
        refine ⟨rfl, ?_⟩
        by_contra hFails
        simp [Filesystem.remove, hFails] at hRemove

theorem deleteTree_disk
    (H : Host)
    (s : LocalState)
    (path : String) :
    (deleteTree H s path).disk =
      Filesystem.removeAll H s.disk (H.locate path) := by
  unfold deleteTree
  dsimp only
  split <;> rfl

theorem deleteTree_removesWhen
    (H : Host)
    (loc : Loc)
    (s : LocalState)
    (path : String) :
    RemovesWhen loc
      (H.locate path <+: loc ∧
        H.survives (H.locate path) loc = false) s
      (deleteTree H s path) := by
  have hLookup := Filesystem.lookup_removeAll H s.disk
    (H.locate path) loc
  rw [← deleteTree_disk] at hLookup
  refine ⟨?_, fun file hFile => ?_⟩
  · intro hGone
    rw [hLookup, hGone, ite_self]
  · rw [hLookup, Filesystem.survivor_of_file hFile, hFile]
    exact ⟨fun hRemoves => if_pos hRemoves,
      fun hKept => if_neg hKept⟩

/- Deleting one directory reaches the file at `loc`. -/
def DirReaches
    (H : Host)
    (mode : SyncMode)
    (loc : Loc)
    (dir : String) : Prop :=
  match mode with
  | .oneWay =>
      H.locate dir <+: loc ∧
        H.survives (H.locate dir) loc = false
  | .biDirectional =>
      H.locate dir = loc ∧ H.removeFails loc = false

/-
  In the bidirectional mode a directory is removed like a
  file, so only the disk of the two steps can differ.
-/
theorem syncDeleteDir_biDirectional_disk
    (H : Host)
    (s : LocalState)
    (dir : String) :
    (syncDeleteDir H .biDirectional s dir).disk =
      (deleteFile H s dir).disk := by
  unfold syncDeleteDir deleteFile
  dsimp only
  cases Filesystem.remove H s.disk (H.locate dir) with
  | some disk => rfl
  | none =>
      dsimp only
      split <;> rfl

theorem syncDeleteDir_removesWhen
    (H : Host)
    (mode : SyncMode)
    (loc : Loc)
    (s : LocalState)
    (dir : String) :
    RemovesWhen loc (DirReaches H mode loc dir) s
      (syncDeleteDir H mode s dir) := by
  cases mode with
  | oneWay => exact deleteTree_removesWhen H loc s dir
  | biDirectional =>
      have hStep := deleteFile_removesWhen H loc s dir
      unfold RemovesWhen at hStep ⊢
      rw [syncDeleteDir_biDirectional_disk]
      exact hStep

------------------------------------------------------------
-- A Whole Reconciliation
------------------------------------------------------------

/- Creating directories keeps nodes and makes no file. -/
theorem lookup_syncCreateDir
    (H : Host)
    (s : LocalState)
    (dir : String)
    (loc : Loc) :
    (syncCreateDir H s dir).disk.lookup loc =
        s.disk.lookup loc ∨
      (s.disk.lookup loc = none ∧
        (syncCreateDir H s dir).disk.lookup loc =
          some .dir) := by
  unfold syncCreateDir
  split
  next disk hCreate =>
    have hLookup := Filesystem.lookup_createDirectories
      hCreate loc
    change disk.lookup loc = _ ∨ _ ∧ disk.lookup loc = _
    by_cases hNew : loc <+: H.locate dir ∧
        s.disk.lookup loc = none
    · rw [if_pos hNew] at hLookup
      exact Or.inr ⟨hNew.2, hLookup⟩
    · rw [if_neg hNew] at hLookup
      exact Or.inl hLookup
  next => exact Or.inl rfl

theorem lookup_foldl_syncCreateDir
    (H : Host)
    (dirs : List String)
    (s : LocalState)
    (loc : Loc)
    (file : File) :
    (dirs.foldl (syncCreateDir H) s).disk.lookup loc =
        some (.file file) ↔
      s.disk.lookup loc = some (.file file) := by
  induction dirs generalizing s with
  | nil => exact Iff.rfl
  | cons dir dirs ih =>
      rw [List.foldl_cons, ih]
      rcases lookup_syncCreateDir H s dir loc with
        hSame | ⟨hNone, hDir⟩
      · rw [hSame]
      · rw [hNone, hDir]
        simp

/- The action lists reach the regular file at `loc`. -/
def Reaches
    (H : Host)
    (files : SyncActions)
    (dirs : DirSyncActions)
    (mode : SyncMode)
    (loc : Loc) : Prop :=
  (∃ path ∈ files.filesToDelete,
      H.locate path = loc ∧ H.removeFails loc = false) ∨
    ∃ dir ∈ dirs.dirsToDelete, DirReaches H mode loc dir

/- A file stays exactly when the lists do not reach it. -/
theorem lookup_pruning
    {H : Host}
    {files : SyncActions}
    {dirs : DirSyncActions}
    {mode : SyncMode}
    {s : LocalState}
    {loc : Loc}
    {file : File}
    (hFile : s.disk.lookup loc = some (.file file)) :
    (syncDirectoryActions H dirs mode
        (files.filesToDelete.foldl (deleteFile H) s)).disk.lookup
          loc = some (.file file) ↔
      ¬Reaches H files dirs mode loc := by
  unfold syncDirectoryActions
  rw [lookup_foldl_syncCreateDir]
  have hFiles := RemovesWhen.foldl
    (deleteFile_removesWhen H loc) files.filesToDelete s
  have hDirs := RemovesWhen.foldl
    (syncDeleteDir_removesWhen H mode loc)
    (sortByLength dirs.dirsToDelete)
    (files.filesToDelete.foldl (deleteFile H) s)
  have hSorted : ∀ dir,
      dir ∈ sortByLength dirs.dirsToDelete ↔
        dir ∈ dirs.dirsToDelete :=
    fun dir => List.mem_insertionSort _
  simp only [hSorted] at hDirs
  unfold Reaches
  by_cases hFirst : ∃ path ∈ files.filesToDelete,
      H.locate path = loc ∧ H.removeFails loc = false
  · have hGone := hDirs.1 ((hFiles.2 file hFile).1 hFirst)
    rw [hGone]
    simp [hFirst]
  · have hStill := (hFiles.2 file hFile).2 hFirst
    by_cases hSecond : ∃ dir ∈ dirs.dirsToDelete,
        DirReaches H mode loc dir
    · have hGone := (hDirs.2 file hStill).1 hSecond
      rw [hGone]
      simp [hSecond]
    · have hKept := (hDirs.2 file hStill).2 hSecond
      rw [hKept]
      simp only [hFirst, hSecond, or_self, not_false_eq_true]

end SyncHandler

end VeritasSync
