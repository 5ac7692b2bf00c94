import VeritasSync.Storage.PipelineSafety

/-
  What a round of the pipeline reads of one path and what its
  commit makes of that.

  A round whose readings about the path all tell what is on
  the disk puts that into the maps; a round without the path
  leaves its entries alone; and a path that is looked at is
  found as it is.

  Main declarations:
    * `ChangePipeline.Agrees`, `ChangePipeline.Fresh`
    * `ChangePipeline.agrees_commit_fresh`,
      `ChangePipeline.agrees_commit_other`
    * `ChangePipeline.fresh_inspectChange`,
      `ChangePipeline.fresh_hashReading`
-/

namespace VeritasSync

namespace ChangePipeline

open StateManager WatchedRun

------------------------------------------------------------
-- One Path in a Commit
------------------------------------------------------------

section OnePath

variable
  {path : String}
  {acc : Committed × LocalState}

theorem fileMap_foldl_commitFile
    (infos : List FileInfo) :
    (infos.foldl commitFile acc).2.fileMap =
      infos.foldl insertInfo acc.2.fileMap := by
  induction infos generalizing acc with
  | nil => rfl
  | cons info infos ih =>
      rw [List.foldl_cons, ih, fileMap_commitFile]
      rfl

/- Files of other paths leave the entry alone. -/
theorem lookup_foldl_insertInfo_other
    {files : AList (fun _ : String => FileInfo)}
    {infos : List FileInfo}
    (hOther : ∀ info ∈ infos, info.path ≠ path) :
    (infos.foldl insertInfo files).lookup path =
      files.lookup path := by
  induction infos generalizing files with
  | nil => rfl
  | cons info infos ih =>
      rw [List.foldl_cons, ih (fun later hLater =>
        hOther later (List.mem_cons_of_mem info hLater))]
      exact AList.lookup_insert_ne
        (Ne.symm (hOther info List.mem_cons_self))

/- Files of the path that all tell the same are told. -/
theorem lookup_foldl_insertInfo_same
    {files : AList (fun _ : String => FileInfo)}
    {infos : List FileInfo}
    {info : FileInfo}
    (hMem : info ∈ infos)
    (hPath : info.path = path)
    (hSame : ∀ other ∈ infos, other.path = path →
      other = info) :
    (infos.foldl insertInfo files).lookup path =
      some info := by
  induction infos generalizing files with
  | nil => cases hMem
  | cons first infos ih =>
      have hLaterSame : ∀ other ∈ infos,
          other.path = path → other = info :=
        fun other hOther =>
          hSame other (List.mem_cons_of_mem first hOther)
      rw [List.foldl_cons]
      by_cases hLater : ∃ other ∈ infos, other.path = path
      · rcases hLater with ⟨other, hOther, hOtherPath⟩
        have hInfo := hLaterSame other hOther hOtherPath
        exact ih (hInfo ▸ hOther) hLaterSame
      · have hNone : ∀ other ∈ infos, other.path ≠ path :=
          fun other hOther hOtherPath =>
            hLater ⟨other, hOther, hOtherPath⟩
        rw [lookup_foldl_insertInfo_other hNone]
        rcases List.mem_cons.mp hMem with rfl | hIn
        · rw [insertInfo, hPath]
          exact AList.lookup_insert _
        · exact absurd hPath (hNone info hIn)

/- Deleting other paths leaves both entries alone. -/
theorem commitDelete_other
    {deletes : List String}
    (hOther : path ∉ deletes) :
    (deletes.foldl commitDelete acc).2.fileMap.lookup
        path = acc.2.fileMap.lookup path ∧
      (path ∈ (deletes.foldl commitDelete acc).2.dirMap ↔
        path ∈ acc.2.dirMap) := by
  induction deletes generalizing acc with
  | nil => exact ⟨rfl, Iff.rfl⟩
  | cons deleted deletes ih =>
      rw [List.mem_cons, not_or] at hOther
      rcases @ih (commitDelete acc deleted) hOther.2 with
        ⟨hFile, hDir⟩
      rw [List.foldl_cons, hFile, hDir]
      unfold commitDelete
      split
      · exact ⟨AList.lookup_erase_ne hOther.1, Iff.rfl⟩
      · split
        · refine ⟨rfl, ?_⟩
          unfold removeDirFromMap
          simp [hOther.1]
        · exact ⟨rfl, Iff.rfl⟩

theorem dirMap_foldl_commitFile
    (infos : List FileInfo) :
    (infos.foldl commitFile acc).2.dirMap =
      acc.2.dirMap := by
  induction infos generalizing acc with
  | nil => rfl
  | cons info infos ih =>
      rw [List.foldl_cons, ih]
      rcases commitFile_cases acc info with
        ⟨-, hEq⟩ | ⟨-, hEq⟩
      · rw [hEq]
      · rw [hEq]

theorem mem_dirMap_foldl_commitDir
    (dirs : List String) :
    path ∈ (dirs.foldl commitDir acc).2.dirMap ↔
      path ∈ acc.2.dirMap ∨ path ∈ dirs := by
  induction dirs generalizing acc with
  | nil => simp
  | cons dir dirs ih =>
      rw [List.foldl_cons, ih, List.mem_cons, ← or_assoc]
      apply or_congr_left
      unfold commitDir
      split
      next hMem =>
        constructor
        · exact Or.inl
        · rintro (hOld | rfl)
          · exact hOld
          · exact hMem
      next => simp [addDirToMap, or_comm]

/- The row that a file of a round is stored as. -/
def storedRow (info : FileInfo) : FileMetadata :=
  ⟨info.hash, (info.modifiedTime : Int).bmod (2 ^ 64)⟩

theorem row_of_foldl_insertRow
    {infos : List FileInfo}
    {store : AList (fun _ : String => FileMetadata)}
    {row : FileMetadata}
    (hRow : (infos.foldl insertRow store).lookup path =
      some row) :
    store.lookup path = some row ∨
      ∃ info ∈ infos, info.path = path ∧
        storedRow info = row := by
  induction infos generalizing store with
  | nil => exact Or.inl hRow
  | cons info infos ih =>
      rcases ih hRow with hFirst | ⟨later, hLater, hOwn⟩
      · unfold insertRow at hFirst
        by_cases hSame : path = info.path
        · rw [hSame, AList.lookup_insert] at hFirst
          exact Or.inr ⟨info, List.mem_cons_self, hSame.symm,
            Option.some.inj hFirst⟩
        · rw [AList.lookup_insert_ne hSame] at hFirst
          exact Or.inl hFirst
      · exact Or.inr
          ⟨later, List.mem_cons_of_mem _ hLater, hOwn⟩

variable
  {scanned : ScannedChanges}
  {node : LocalState}

theorem row_of_commitScanned
    {row : FileMetadata}
    (hRow : (commitScanned scanned node).2.fileStore.lookup
      path = some row) :
    node.fileStore.lookup path = some row ∨
      ∃ info ∈ scanned.fileUpdateResults,
        info.path = path ∧ storedRow info = row := by
  rcases mapsOnly_commitLoops (.empty, node)
    scanned.fileUpdateResults scanned.deleteCheckResults
    scanned.dirCreateResults with ⟨_, _, _, hEq⟩
  unfold commitScanned commitChanges at hRow
  dsimp only at hRow
  rw [hEq] at hRow
  apply row_of_foldl_insertRow
  rw [commitRows, AList.lookup_foldl_erase] at hRow
  split at hRow
  next => cases hRow
  next => exact hRow

/- The file entry of a path that the round did not delete. -/
theorem fileMap_commitScanned
    (hDeletes : path ∉ scanned.deleteCheckResults) :
    (commitScanned scanned node).2.fileMap.lookup path =
      (scanned.fileUpdateResults.foldl insertInfo
        node.fileMap).lookup path := by
  unfold commitScanned commitChanges
  dsimp only
  rw [(commitDelete_other hDeletes).1,
    fileMap_foldl_commitDir, fileMap_foldl_commitFile]

theorem dirMap_commitScanned
    (hDeletes : path ∉ scanned.deleteCheckResults) :
    path ∈ (commitScanned scanned node).2.dirMap ↔
      path ∈ node.dirMap ∨
        path ∈ scanned.dirCreateResults := by
  unfold commitScanned commitChanges
  dsimp only
  rw [(commitDelete_other hDeletes).2,
    mem_dirMap_foldl_commitDir, dirMap_foldl_commitFile]

theorem fileMap_commitScanned_deleted
    (hDeletes : path ∈ scanned.deleteCheckResults) :
    (commitScanned scanned node).2.fileMap.lookup path =
      none := by
  rw [AList.lookup_eq_none]
  intro hMem
  exact (mem_fileMap_commitChanges_iff.mp hMem).2 hDeletes

end OnePath

------------------------------------------------------------
-- Readings of One Path
------------------------------------------------------------

/- The path that a changed path is recorded under. -/
def recorded
    (H : Host)
    (change : String) : String :=
  H.relative (H.locate change)

/- What the maps should say of a file. -/
def entryOf
    (H : Host)
    (path : String)
    (file : File) : FileInfo where
  path := path
  hash := H.digest.hash file.content
  modifiedTime := (file.mtime % 2 ^ 64).toNat
  size := file.content.length

/- The maps have under the path what is on the disk. -/
def Agrees
    (H : Host)
    (change : String)
    (node : LocalState) : Prop :=
  match node.disk.lookup (H.locate change) with
  | some (.file file) =>
      node.fileMap.lookup (recorded H change) =
        some (entryOf H (recorded H change) file)
  | some .dir => recorded H change ∈ node.dirMap
  | none => node.fileMap.lookup (recorded H change) = none

/- Another spelling of the path, of the same place. -/
def Names
    (H : Host)
    (change other : String) : Prop :=
  H.locate other = H.locate change ∧
    isRootPath H other = false

/- What is recorded under the same path is the same place. -/
def Unambiguous
    (H : Host)
    (change other : String) : Prop :=
  recorded H other = recorded H change →
    Names H change other

/-
  The digest is the given one, or it is still to come, or it
  could not be computed.
-/
def Hashed
    (digest : String)
    (entry : Reading × Bool)
    (pending : PendingFile) : Prop :=
  pending.needCalc = true ∧
      (entry.2 = true ∨ entry.1.hash = "") ∨
    entry.2 = false ∧ entry.1.hash = digest

/- The reading tells what is on the disk, or has failed. -/
def Fresh
    (H : Host)
    (change : String)
    (found : Option (Node File))
    (entry : Reading × Bool) : Prop :=
  match found with
  | some (.file file) =>
      entry.1.check = .failed ∨
        ∃ pending, entry.1.check = .file pending ∧
          pending.relPathStr = recorded H change ∧
          pending.modifiedTime = file.mtime ∧
          pending.fileSize = file.content.length ∧
          Hashed (H.digest.hash file.content) entry pending
  | some .dir => entry.1.check = .dir (recorded H change)
  | none => entry.1.check = .deleted (recorded H change)

/- The rows have the file's digest under its time stamp. -/
def RowsTell
    (H : Host)
    (change : String)
    (node : LocalState)
    (file : File) : Prop :=
  ∀ row,
    node.fileStore.lookup (recorded H change) = some row →
      row.mtime = file.mtime →
        row.hash = H.digest.hash file.content

/- A reading with the file's time stamp has its digest. -/
def StampTells
    (H : Host)
    (file : File)
    (entry : Reading × Bool) : Prop :=
  ∀ pending, entry.1.check = .file pending →
    pending.modifiedTime % 2 ^ 64 = file.mtime % 2 ^ 64 →
      Hashed (H.digest.hash file.content) entry pending

/- A reading is about the path it was made for. -/
structure WellRead
    (H : Host)
    (entry : Reading × Bool) : Prop where
  file : ∀ pending, entry.1.check = .file pending →
    pending.loc = H.locate entry.1.change ∧
      pending.relPathStr = recorded H entry.1.change
  dir : ∀ path, entry.1.check = .dir path →
    path = recorded H entry.1.change
  deleted : ∀ path, entry.1.check = .deleted path →
    path = recorded H entry.1.change
  unhashed : entry.2 = true → entry.1.needsHash = true

------------------------------------------------------------
-- A Round That Is Committed
------------------------------------------------------------

section Commit

variable
  {H : Host}
  {change : String}
  {readings : List Reading}
  {node : LocalState}

/- The reading is about the path. -/
def About
    (H : Host)
    (change : String)
    (r : Reading) : Prop :=
  recorded H r.change = recorded H change

theorem mem_of_mem_hashed
    {r : Reading}
    (hMem : r ∈ hashed readings) :
    r ∈ readings := by
  unfold hashed at hMem
  split at hMem
  · exact List.mem_of_mem_filter hMem
  · exact hMem

theorem mem_hashed_of_hash
    {r : Reading}
    (hMem : r ∈ readings)
    (hHash : r.hash ≠ "") :
    r ∈ hashed readings := by
  unfold hashed
  split
  · exact List.mem_filter.mpr ⟨hMem, by simpa using hHash⟩
  · exact hMem

/- A file that had to be hashed and is handed over has a hash. -/
theorem hash_of_mem_hashed
    {r : Reading}
    (hMem : r ∈ hashed readings)
    (hNeeds : r.needsHash = true) :
    r.hash ≠ "" := by
  have hAny : readings.any Reading.needsHash = true :=
    List.any_eq_true.mpr
      ⟨r, mem_of_mem_hashed hMem, hNeeds⟩
  unfold hashed at hMem
  rw [if_pos hAny] at hMem
  simpa using (List.mem_filter.mp hMem).2

theorem info?_eq_some
    {r : Reading}
    {info : FileInfo}
    (hInfo : r.info? = some info) :
    ∃ pending, r.check = .file pending ∧
      info =
        { path := pending.relPathStr
          hash := r.hash
          modifiedTime :=
            (pending.modifiedTime % 2 ^ 64).toNat
          size := pending.fileSize } := by
  unfold Reading.info? at hInfo
  cases hCheck : r.check with
  | file pending =>
      rw [hCheck] at hInfo
      exact ⟨pending, rfl, (Option.some.inj hInfo).symm⟩
  | skipped =>
      rw [hCheck] at hInfo
      cases hInfo
  | failed =>
      rw [hCheck] at hInfo
      cases hInfo
  | dir path =>
      rw [hCheck] at hInfo
      cases hInfo
  | deleted path =>
      rw [hCheck] at hInfo
      cases hInfo

theorem info?_of_file
    {r : Reading}
    {pending : PendingFile}
    (hCheck : r.check = .file pending) :
    r.info? = some
      { path := pending.relPathStr
        hash := r.hash
        modifiedTime := (pending.modifiedTime % 2 ^ 64).toNat
        size := pending.fileSize } := by
  unfold Reading.info?
  rw [hCheck]
  rfl

theorem mem_fileUpdateResults
    {info : FileInfo}
    (hMem : info ∈ (collect readings).fileUpdateResults) :
    ∃ r ∈ hashed readings, r.info? = some info :=
  List.mem_filterMap.mp hMem

theorem mem_deleteCheckResults
    {path : String} :
    path ∈ (collect readings).deleteCheckResults ↔
      ∃ r ∈ readings, r.check = .deleted path := by
  unfold collect
  rw [List.mem_filterMap]
  apply exists_congr
  intro r
  apply and_congr_right
  intro _
  cases r.check <;> simp [ChangeCheck.deleted?]

theorem mem_dirCreateResults
    {path : String} :
    path ∈ (collect readings).dirCreateResults ↔
      ∃ r ∈ readings, r.check = .dir path := by
  unfold collect
  rw [List.mem_filterMap]
  apply exists_congr
  intro r
  apply and_congr_right
  intro _
  cases r.check <;> simp [ChangeCheck.dir?]

/- What failed is pending again. -/
theorem pending_of_fails
    {r : Reading}
    (hMem : r ∈ readings)
    (hFails : r.fails = true) :
    r.change ∈ (commitScanned (collect readings)
      node).2.pendingChanges := by
  rw [pendingChanges_commitScanned, List.mem_append]
  by_cases hOld : r.change ∈ node.pendingChanges
  · exact Or.inl hOld
  · right
    rw [List.mem_filter]
    refine ⟨?_, by simpa using hOld⟩
    exact List.mem_map.mpr
      ⟨r, List.mem_filter.mpr ⟨hMem, hFails⟩, rfl⟩

/- A reading that has not failed is in the round's results. -/
theorem mem_results_of_fresh
    {file : File}
    {r : Reading}
    (hMem : r ∈ readings)
    (hFresh : Fresh H change (some (.file file)) (r, false))
    (hOk : r.fails = false) :
    ∃ pending, r.check = .file pending ∧
      r ∈ hashed readings ∧
      r.info? =
        some (entryOf H (recorded H change) file) := by
  have hParts : (r.check == .failed) = false ∧
      (r.needsHash && r.hash == "") = false := by
    unfold Reading.fails at hOk
    exact Bool.or_eq_false_iff.mp hOk
  rcases hFresh with hFailed | ⟨pending, hCheck, hPath,
    hTime, hSize, hHashed⟩
  · have hSame := hParts.1
    dsimp only at hFailed
    rw [hFailed] at hSame
    cases hSame
  have hHash : r.hash = H.digest.hash file.content := by
    rcases hHashed with ⟨hCalc, hFlag | hEmpty⟩ | ⟨-, hHash⟩
    · cases hFlag
    · have hNeeds : r.needsHash = true := by
        unfold Reading.needsHash
        dsimp only at hCheck
        rw [hCheck]
        exact hCalc
      have hNot := hParts.2
      dsimp only at hEmpty
      rw [hNeeds, hEmpty] at hNot
      cases hNot
    · exact hHash
  refine ⟨pending, hCheck, ?_, ?_⟩
  · apply mem_hashed_of_hash hMem
    rw [hHash]
    exact H.digest.hash_ne_empty file.content
  · rw [info?_of_file hCheck, hHash, hPath, hTime, hSize]
    rfl

variable
  (hWell : ∀ r ∈ readings, WellRead H (r, false))

include hWell

/- An entry of the round is of a reading about its path. -/
theorem about_of_mem_fileUpdateResults
    {info : FileInfo}
    (hMem : info ∈ (collect readings).fileUpdateResults)
    (hPath : info.path = recorded H change) :
    ∃ r ∈ hashed readings, About H change r ∧
      r.info? = some info := by
  rcases mem_fileUpdateResults hMem with ⟨r, hR, hInfo⟩
  rcases info?_eq_some hInfo with ⟨pending, hCheck, hEq⟩
  refine ⟨r, hR, ?_, hInfo⟩
  have hOwn := (hWell r (mem_of_mem_hashed hR)).file pending
    hCheck
  rw [hEq] at hPath
  exact hOwn.2.symm.trans hPath

theorem about_of_mem_deleteCheckResults
    (hMem : recorded H change ∈
      (collect readings).deleteCheckResults) :
    ∃ r ∈ readings, About H change r ∧
      r.check = .deleted (recorded H change) := by
  rcases mem_deleteCheckResults.mp hMem with ⟨r, hR, hCheck⟩
  exact ⟨r, hR, ((hWell r hR).deleted _ hCheck).symm, hCheck⟩

/- A round without the path leaves its entries alone. -/
theorem agrees_commit_other
    (hNone : ∀ r ∈ readings, ¬ About H change r)
    (hAgrees : Agrees H change node) :
    Agrees H change
      (commitScanned (collect readings) node).2 := by
  have hDeletes : recorded H change ∉
      (collect readings).deleteCheckResults := by
    intro hMem
    rcases about_of_mem_deleteCheckResults hWell hMem with
      ⟨r, hR, hAbout, -⟩
    exact hNone r hR hAbout
  have hOther : ∀ info ∈ (collect readings).fileUpdateResults,
      info.path ≠ recorded H change := by
    intro info hMem hPath
    rcases about_of_mem_fileUpdateResults hWell hMem hPath
      with ⟨r, hR, hAbout, -⟩
    exact hNone r (mem_of_mem_hashed hR) hAbout
  have hFile : (commitScanned _ node).2.fileMap.lookup _ =
      _ := fileMap_commitScanned hDeletes
  rw [lookup_foldl_insertInfo_other hOther] at hFile
  unfold Agrees at hAgrees ⊢
  rw [disk_commitScanned, hFile,
    dirMap_commitScanned hDeletes]
  split
  next hNode =>
    rw [hNode] at hAgrees
    exact hAgrees
  next hNode =>
    rw [hNode] at hAgrees
    exact Or.inl hAgrees
  next hNode =>
    rw [hNode] at hAgrees
    exact hAgrees

/-
  A round whose readings about the path all tell what is on
  the disk, none of them failed, puts that into the maps.
-/
theorem agrees_commit_fresh
    (hFresh : ∀ r ∈ readings, About H change r →
      Fresh H change (node.disk.lookup (H.locate change))
        (r, false))
    (hOk : ∀ r ∈ readings, About H change r →
      r.fails = false)
    {first : Reading}
    (hFirst : first ∈ readings)
    (hAbout : About H change first) :
    Agrees H change
      (commitScanned (collect readings) node).2 := by
  have hTells := hFresh first hFirst hAbout
  unfold Agrees
  rw [disk_commitScanned]
  cases hNode : node.disk.lookup (H.locate change) with
  | none =>
      rw [hNode] at hTells
      exact fileMap_commitScanned_deleted
        (mem_deleteCheckResults.mpr ⟨first, hFirst, hTells⟩)
  | some found =>
  have hDeletes : recorded H change ∉
      (collect readings).deleteCheckResults := by
    intro hMem
    rcases about_of_mem_deleteCheckResults hWell hMem with
      ⟨r, hR, hOwn, hCheck⟩
    have hOther := hFresh r hR hOwn
    rw [hNode] at hOther
    cases found with
    | dir =>
        have hDir : r.check = .dir (recorded H change) :=
          hOther
        rw [hDir] at hCheck
        cases hCheck
    | file file =>
        rcases hOther with hFailed | ⟨pending, hFile, -⟩
        · dsimp only at hFailed
          rw [hFailed] at hCheck
          cases hCheck
        · dsimp only at hFile
          rw [hFile] at hCheck
          cases hCheck
  cases found with
  | dir =>
      rw [hNode] at hTells
      rw [dirMap_commitScanned hDeletes]
      exact Or.inr (mem_dirCreateResults.mpr
        ⟨first, hFirst, hTells⟩)
  | file file =>
      rw [hNode] at hFresh
      have hEntry := mem_results_of_fresh hFirst
        (hFresh first hFirst hAbout) (hOk first hFirst hAbout)
      rcases hEntry with ⟨pending, -, hHashed, hInfo⟩
      dsimp only
      rw [fileMap_commitScanned hDeletes]
      apply lookup_foldl_insertInfo_same
      · exact List.mem_filterMap.mpr ⟨first, hHashed, hInfo⟩
      · rfl
      · intro other hOther hPath
        rcases about_of_mem_fileUpdateResults hWell hOther
          hPath with ⟨r, hR, hOwn, hOtherInfo⟩
        have hMem := mem_of_mem_hashed hR
        rcases mem_results_of_fresh hMem
          (hFresh r hMem hOwn) (hOk r hMem hOwn) with
          ⟨-, -, -, hSame⟩
        rw [hSame] at hOtherInfo
        exact (Option.some.inj hOtherInfo).symm

/- A row that the round stores has a digest that fits. -/
theorem row_commit
    {file : File}
    (hTells : ∀ r ∈ readings, About H change r →
      StampTells H file (r, false))
    (hRows : RowsTell H change node file)
    {row : FileMetadata}
    (hRow : (commitScanned (collect readings)
      node).2.fileStore.lookup (recorded H change) = some row)
    (hTime : row.mtime = file.mtime) :
    row.hash = H.digest.hash file.content := by
  rcases row_of_commitScanned hRow with
    hOld | ⟨info, hInfo, hPath, rfl⟩
  · exact hRows row hOld hTime
  rcases about_of_mem_fileUpdateResults hWell hInfo hPath with
    ⟨r, hR, hAbout, hOwn⟩
  rcases info?_eq_some hOwn with ⟨pending, hCheck, rfl⟩
  have hStamp : pending.modifiedTime % 2 ^ 64 =
      file.mtime % 2 ^ 64 := by
    rw [← hTime]
    unfold storedRow
    dsimp only
    have hNonneg : 0 ≤ pending.modifiedTime % 2 ^ 64 :=
      Int.emod_nonneg _ (by decide)
    have hBack : Int.bmod (pending.modifiedTime % 2 ^ 64)
        (2 ^ 64) % ((2 ^ 64 : ℕ) : Int) =
          pending.modifiedTime % 2 ^ 64 %
            ((2 ^ 64 : ℕ) : Int) := Int.bmod_emod
    rw [Int.toNat_of_nonneg hNonneg]
    exact_mod_cast (hBack.trans
      (Int.emod_emod _ _)).symm
  rcases hTells r (mem_of_mem_hashed hR) hAbout pending hCheck
    hStamp with ⟨hCalc, hFlag | hEmpty⟩ | ⟨-, hHash⟩
  · cases hFlag
  · have hNeeds : r.needsHash = true := by
      unfold Reading.needsHash
      rw [hCheck]
      exact hCalc
    exact absurd hEmpty (hash_of_mem_hashed hR hNeeds)
  · exact hHash

end Commit

------------------------------------------------------------
-- Looking at the Path
------------------------------------------------------------

/-
  The host answers what it is asked about the place; it may
  only refuse the time stamp.
-/
structure Answers
    (faults : Faults)
    (loc : Loc) : Prop where
  existence : faults.existsFails loc = false
  relative : faults.scan.relativeFails loc = false
  fileCheck : faults.scan.fileCheckFails loc = false
  dirCheck : faults.scan.dirCheckFails loc = false
  size : faults.scan.sizeFails loc = false

section Look

variable
  {H : Host}
  {change other : String}
  {s : System}
  {faults : Faults}

/- The check that an inspection makes. -/
def checkOf
    (H : Host)
    (faults : Faults)
    (change : String)
    (s : System) : ChangeCheck :=
  checkChange (hostAt H s faults.scan) faults.existsFails
    s.node change

theorem inspectChange_cases :
    (inspectChange H faults other s).1.change = other ∧
    (inspectChange H faults other s).1.check =
      checkOf H faults other s ∧
    ((inspectChange H faults other s).2 = true ∧
        (checkOf H faults other s).file?.any
          PendingFile.needCalc = true ∨
      (inspectChange H faults other s).2 = false ∧
        (checkOf H faults other s).file?.any
          PendingFile.needCalc = false ∧
        (inspectChange H faults other s).1.hash =
          match (checkOf H faults other s).file? with
          | some pending =>
              finalHash (hostAt H s faults.scan)
                s.node.disk pending
          | none => "") := by
  unfold inspectChange
  dsimp only
  split
  next hNeeds => exact ⟨rfl, rfl, Or.inl ⟨rfl, hNeeds⟩⟩
  next hNeeds =>
    rw [Bool.not_eq_true] at hNeeds
    exact ⟨rfl, rfl, Or.inr ⟨rfl, hNeeds, rfl⟩⟩

theorem file_of_checkOf
    {pending : PendingFile}
    (hCheck : checkOf H faults other s = .file pending) :
    ∃ file, s.node.disk.lookup (H.locate other) =
        some (.file file) ∧
      inspectFile (hostAt H s faults.scan) s.node.fileStore
        (H.locate other) file = pending := by
  have hFile : (checkOf H faults other s).file? =
      some pending := by
    rw [hCheck]
    rfl
  rcases file?_checkChange_iff.mp hFile with
    ⟨file, hNode, hInspect, -⟩
  exact ⟨file, hNode, hInspect⟩

/- What is found is named after the path looked at. -/
theorem recorded_of_checkOf
    {path : String}
    (hCheck : checkOf H faults other s = .dir path ∨
      checkOf H faults other s = .deleted path) :
    path = recorded H other := by
  unfold checkOf checkChange at hCheck
  dsimp only at hCheck
  split at hCheck
  · simp at hCheck
  split at hCheck
  · simp at hCheck
  split at hCheck
  · simp at hCheck
  split at hCheck
  · split at hCheck
    · simp at hCheck
    · split at hCheck <;> simp at hCheck
  · split at hCheck
    · simp at hCheck
    · rcases hCheck with hDir | hDeleted
      · exact (ChangeCheck.dir.inj hDir).symm
      · cases hDeleted
  · rcases hCheck with hDir | hDeleted
    · cases hDir
    · exact (ChangeCheck.deleted.inj hDeleted).symm

theorem wellRead_inspectChange :
    WellRead H (inspectChange H faults other s) := by
  have hCases : (inspectChange H faults other s).1.change =
      other ∧ _ := inspectChange_cases
  rcases hCases with ⟨hChange, hCheck, hFlag⟩
  constructor
  · intro pending hFile
    rw [hCheck] at hFile
    rcases file_of_checkOf hFile with ⟨file, -, rfl⟩
    rw [hChange]
    exact ⟨rfl, rfl⟩
  · intro path hDir
    rw [hCheck] at hDir
    rw [hChange]
    exact recorded_of_checkOf (Or.inl hDir)
  · intro path hDeleted
    rw [hCheck] at hDeleted
    rw [hChange]
    exact recorded_of_checkOf (Or.inr hDeleted)
  · intro hUnhashed
    rcases hFlag with ⟨-, hNeeds⟩ | ⟨hHashed, -⟩
    · unfold Reading.needsHash
      rw [hCheck]
      exact hNeeds
    · rw [hHashed] at hUnhashed
      cases hUnhashed

theorem checkOf_eq
    (hNames : Names H change other)
    (hAnswers : Answers faults (H.locate change))
    (hRules : s.filter.shouldIgnore
      (bytes (recorded H change)) = false) :
    checkOf H faults other s =
      match s.node.disk.lookup (H.locate change) with
      | some (.file file) =>
          if faults.scan.mtimeFails (H.locate change) then
            .failed
          else
            .file (inspectFile (hostAt H s faults.scan)
              s.node.fileStore (H.locate change) file)
      | some .dir => .dir (recorded H change)
      | none => .deleted (recorded H change) := by
  have hRoot : isRootPath (hostAt H s faults.scan) other =
      false := hNames.2
  have hLocate : (hostAt H s faults.scan).locate other =
      H.locate change := hNames.1
  have hIgnores : (hostAt H s faults.scan).scan.ignores
      ((hostAt H s faults.scan).relative
        (H.locate change)) = false := hRules
  have hRelative : (hostAt H s
      faults.scan).scan.relativeFails (H.locate change) =
        false := hAnswers.relative
  unfold checkOf checkChange
  dsimp only
  rw [hRoot, hLocate, hRelative, hIgnores,
    hAnswers.existence]
  simp only [Bool.false_eq_true, if_false]
  cases s.node.disk.lookup (H.locate change) with
  | none => rfl
  | some found =>
      cases found with
      | dir =>
          have hDir : (hostAt H s
              faults.scan).scan.dirCheckFails
                (H.locate change) = false :=
            hAnswers.dirCheck
          simp only [hDir, Bool.false_eq_true, if_false]
          rfl
      | file file =>
          have hFile : (hostAt H s
              faults.scan).scan.fileCheckFails
                (H.locate change) = false :=
            hAnswers.fileCheck
          simp only [hFile, Bool.false_eq_true, if_false]
          rfl

/- A look at the path finds what is there. -/
theorem fresh_inspectChange
    (hNames : Names H change other)
    (hAnswers : Answers faults (H.locate change))
    (hRules : s.filter.shouldIgnore
      (bytes (recorded H change)) = false)
    (hRows : ∀ file,
      s.node.disk.lookup (H.locate change) =
          some (.file file) →
        RowsTell H change s.node file) :
    Fresh H change (s.node.disk.lookup (H.locate change))
      (inspectChange H faults other s) := by
  have hCheck := checkOf_eq (s := s) hNames hAnswers hRules
  have hCases : (inspectChange H faults other s).1.change =
      other ∧ _ := inspectChange_cases
  rcases hCases with ⟨-, hSame, hFlag⟩
  unfold Fresh
  rw [hSame]
  cases hNode : s.node.disk.lookup (H.locate change) with
  | none =>
      rw [hNode] at hCheck
      exact hCheck
  | some found =>
  rw [hNode] at hCheck
  cases found with
  | dir => exact hCheck
  | file file =>
      dsimp only at hCheck ⊢
      split at hCheck
      · exact Or.inl hCheck
      right
      refine ⟨_, hCheck, rfl, rfl, ?_, ?_⟩
      · have hSize : (hostAt H s faults.scan).scan.sizeFails
            (H.locate change) = false := hAnswers.size
        unfold inspectFile
        simp only [hSize, Bool.false_eq_true, if_false]
      · rw [hCheck] at hFlag
        rcases hFlag with ⟨hUnhashed, hCalc⟩ |
          ⟨hHashed, hCalc, hHash⟩
        · exact Or.inl ⟨hCalc, Or.inl hUnhashed⟩
        · right
          refine ⟨hHashed, ?_⟩
          rw [hHash]
          dsimp only [ChangeCheck.file?, Option.any_some]
            at hCalc ⊢
          unfold finalHash
          rw [hCalc, if_neg (by simp)]
          unfold inspectFile at hCalc ⊢
          dsimp only at hCalc ⊢
          rw [Option.isNone_eq_false_iff,
            Option.isSome_iff_exists] at hCalc
          rcases hCalc with ⟨row, hRow⟩
          rw [hRow]
          rcases cachedMeta_eq_some_iff.mp hRow with
            ⟨hStored, hTime⟩
          exact hRows file hNode row hStored hTime

end Look

------------------------------------------------------------
-- Hashing the File
------------------------------------------------------------

section Digest

variable
  {H : Host}
  {change : String}
  {s : System}
  {conditions : ScanConditions}
  {entry : Reading × Bool}

theorem wellRead_hashReading
    (hWell : WellRead H entry) :
    WellRead H (hashReading H conditions s entry) where
  file := hWell.file
  dir := hWell.dir
  deleted := hWell.deleted
  unhashed := by
    intro hFlag
    cases hFlag

/- A worker takes the digest of what is there by then. -/
theorem hashed_hashReading
    {file : File}
    {pending : PendingFile}
    (hWell : WellRead H entry)
    (hFlag : entry.2 = true)
    (hNames : Names H change entry.1.change)
    (hNode : s.node.disk.lookup (H.locate change) =
      some (.file file))
    (hCheck : entry.1.check = .file pending) :
    Hashed (H.digest.hash file.content)
      (hashReading H conditions s entry) pending := by
  have hNeeds := hWell.unhashed hFlag
  unfold Reading.needsHash at hNeeds
  rw [hCheck] at hNeeds
  have hCalc : pending.needCalc = true := hNeeds
  have hLoc : pending.loc = H.locate change := by
    rw [(hWell.file pending hCheck).1]
    exact hNames.1
  have hPayload : s.node.disk.payload? (H.locate change) =
      some file :=
    (FileTree.payload?_eq_some_iff _ _ _).mpr hNode
  unfold hashReading
  rw [hCheck]
  dsimp only [ChangeCheck.file?]
  unfold finalHash scanHash
  rw [hCalc, if_pos rfl, hLoc, hPayload]
  dsimp only
  split
  · exact Or.inl ⟨hCalc, Or.inr rfl⟩
  · exact Or.inr ⟨rfl, rfl⟩

theorem fresh_hashReading
    (hWell : WellRead H entry)
    (hFlag : entry.2 = true)
    (hNames : Names H change entry.1.change)
    (hFresh : Fresh H change
      (s.node.disk.lookup (H.locate change)) entry) :
    Fresh H change (s.node.disk.lookup (H.locate change))
      (hashReading H conditions s entry) := by
  cases hNode : s.node.disk.lookup (H.locate change) with
  | none =>
      rw [hNode] at hFresh
      exact hFresh
  | some found =>
  rw [hNode] at hFresh
  cases found with
  | dir => exact hFresh
  | file file =>
      rcases hFresh with hFailed | ⟨pending, hCheck, hPath,
        hTime, hSize, -⟩
      · exact Or.inl hFailed
      · exact Or.inr ⟨pending, hCheck, hPath, hTime, hSize,
          hashed_hashReading hWell hFlag hNames hNode hCheck⟩

/- What tells the file's digest under its time stamp. -/
theorem stampTells_of_fresh
    {file : File}
    (hFresh : Fresh H change (some (.file file)) entry) :
    StampTells H file entry := by
  intro pending hCheck _
  rcases hFresh with hFailed | ⟨found, hFile, -, -, -,
    hHashed⟩
  · rw [hFailed] at hCheck
    cases hCheck
  · rw [hFile] at hCheck
    cases hCheck
    exact hHashed

end Digest

end ChangePipeline

end VeritasSync
