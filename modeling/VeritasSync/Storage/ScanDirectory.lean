import Mathlib.Data.List.Dedup
import VeritasSync.Storage.StateManager

/-
  The directory scan that rebuilds the in-memory maps.

  The walk inspects one entry after another and stops once
  too many of them failed.  Files whose time stamp matches
  their database row keep the stored digest; the others are
  hashed.  Whatever ends up without a digest is left out of
  the new map and put on the retry list.  The trees are those
  without symbolic links; a walk that comes upon links is
  `StateManager.scanLinked`.

  Main declarations:
    * `StateManager.inspect`, `StateManager.reached`
    * `StateManager.scanDirectory`
    * `StateManager.mem_scannedFiles_iff`
    * `StateManager.mem_scannedDirs_iff`
-/

namespace VeritasSync

namespace StateManager

------------------------------------------------------------
-- Inspecting One Entry
------------------------------------------------------------

/- A directory entry: its location and its node. -/
abbrev Entry := Loc × Node File

/- A file that the walk found. -/
structure PendingFile where
  loc : Loc
  relPathStr : String
  modifiedTime : Int
  cachedHash : String
  needCalc : Bool
  isDirty : Bool
  fileSize : ℕ
deriving DecidableEq, Repr

/-
  What becomes of one entry.  A failed entry counts as an
  error and may be put on the retry list.
-/
inductive Inspection where
| skipped : Inspection
| failed : Option String → Inspection
| file : PendingFile → Inspection
| dir : String → Inspection
deriving DecidableEq, Repr

/- The stored digest, when the time stamp still matches. -/
def cachedMeta
    (store : AList (fun _ : String => FileMetadata))
    (path : String)
    (mtime : Int) : Option FileMetadata :=
  match store.lookup path with
  | none => none
  | some row => if row.mtime = mtime then some row else none

theorem cachedMeta_eq_some_iff
    {rows : AList (fun _ : String => FileMetadata)}
    {path : String}
    {mtime : Int}
    {row : FileMetadata} :
    cachedMeta rows path mtime = some row ↔
      rows.lookup path = some row ∧ row.mtime = mtime := by
  unfold cachedMeta
  cases hRow : rows.lookup path with
  | none => simp
  | some stored =>
      by_cases hTime : stored.mtime = mtime
      · simp only [if_pos hTime, Option.some.injEq]
        constructor
        · rintro rfl
          exact ⟨rfl, hTime⟩
        · exact And.left
      · simp only [if_neg hTime, Option.some.injEq]
        constructor
        · intro hNone
          cases hNone
        · rintro ⟨rfl, hSame⟩
          exact absurd hSame hTime

def inspectFile
    (H : Host)
    (store : AList (fun _ : String => FileMetadata))
    (loc : Loc)
    (file : File) : PendingFile :=
  let cached := cachedMeta store (H.relative loc) file.mtime
  { loc := loc
    relPathStr := H.relative loc
    modifiedTime := file.mtime
    cachedHash := (cached.map FileMetadata.hash).getD ""
    needCalc := cached.isNone
    isDirty := cached.isNone
    fileSize :=
      if H.scan.sizeFails loc then
        0
      else
        file.content.length }

def inspect
    (H : Host)
    (store : AList (fun _ : String => FileMetadata))
    (entry : Entry) : Inspection :=
  let loc := entry.1
  if H.scan.relativeFails loc then
    .failed none
  else if (H.relative loc).isEmpty then
    .skipped
  else if H.scan.ignores (H.relative loc) then
    .skipped
  else
    match entry.2 with
    | .file file =>
        -- a failed type check answers "not a file"
        if H.scan.fileCheckFails loc then
          .skipped
        else if H.scan.mtimeFails loc then
          .failed (some (pathString loc))
        else
          .file (inspectFile H store loc file)
    | .dir =>
        if H.scan.dirCheckFails loc then
          .skipped
        else
          .dir (H.relative loc)

namespace Inspection

def file? : Inspection → Option PendingFile
| .file pending => some pending
| _ => none

def dir? : Inspection → Option String
| .dir path => some path
| _ => none

def retry? : Inspection → Option String
| .failed path => path
| _ => none

def isFailed : Inspection → Bool
| .failed _ => true
| _ => false

end Inspection

------------------------------------------------------------
-- The Walk
------------------------------------------------------------

/- The walk does not descend into ignored directories. -/
def pruned
    (H : Host)
    (disk : Disk)
    (loc : Loc) : Bool :=
  loc.inits.any (fun above =>
    H.root <+: above && above != H.root && above != loc &&
      disk.lookup above == some .dir &&
      !H.scan.relativeFails above &&
      H.scan.ignores (H.relative above) &&
      !H.scan.dirCheckFails above)

/- The entries below the root that the walk would visit. -/
def walkEntries
    (H : Host)
    (disk : Disk) : List Entry :=
  (disk.entries.map (fun node => (node.1, node.2))).filter
    (fun entry =>
      H.root <+: entry.1 && entry.1 != H.root &&
        !pruned H disk entry.1)

def maxErrorCount : ℕ := 100

/- The entries visited before the error limit stops it. -/
def reached
    (H : Host)
    (store : AList (fun _ : String => FileMetadata)) :
    ℕ → List Entry → List Entry
| _, [] => []
| errorCount, entry :: rest =>
    if errorCount ≥ maxErrorCount then
      []
    else if (inspect H store entry).isFailed then
      entry :: reached H store (errorCount + 1) rest
    else
      entry :: reached H store errorCount rest

def walked
    (H : Host)
    (s : LocalState) : List Inspection :=
  (reached H s.fileStore 0 (walkEntries H s.disk)).map
    (inspect H s.fileStore)

------------------------------------------------------------
-- Hashing And The New Maps
------------------------------------------------------------

/- The digest of one file, empty when it cannot be read. -/
def scanHash
    (H : Host)
    (disk : Disk)
    (loc : Loc) : String :=
  match disk.payload? loc with
  | none => ""
  | some file =>
      if H.scan.hashFails loc then
        ""
      else
        H.digest.hash file.content

/- The digest a found file ends up with. -/
def finalHash
    (H : Host)
    (disk : Disk)
    (pending : PendingFile) : String :=
  if pending.needCalc then
    scanHash H disk pending.loc
  else
    pending.cachedHash

def pendingInfo
    (H : Host)
    (disk : Disk)
    (pending : PendingFile) : FileInfo where
  path := pending.relPathStr
  hash := finalHash H disk pending
  modifiedTime := (pending.modifiedTime % 2 ^ 64).toNat
  size := pending.fileSize

/- The found files that have a digest. -/
def hashedFiles
    (H : Host)
    (s : LocalState) : List PendingFile :=
  ((walked H s).filterMap Inspection.file?).filter
    (fun pending => finalHash H s.disk pending != "")

/- The retry list: failed entries, then failed digests. -/
def retryList
    (H : Host)
    (s : LocalState) : List String :=
  (walked H s).filterMap Inspection.retry? ++
    (((walked H s).filterMap Inspection.file?).filter
      (fun pending =>
        pending.needCalc &&
          finalHash H s.disk pending == "")).map
      (fun pending => pathString pending.loc)

def insertInfo
    (files : AList (fun _ : String => FileInfo))
    (info : FileInfo) :
    AList (fun _ : String => FileInfo) :=
  files.insert info.path info

def newFileMap
    (H : Host)
    (s : LocalState) :
    AList (fun _ : String => FileInfo) :=
  ((hashedFiles H s).map (pendingInfo H s.disk)).foldl
    insertInfo ∅

/- Write one dirty entry back to its row. -/
def storeInfo
    (H : Host)
    (disk : Disk)
    (store : AList (fun _ : String => FileMetadata))
    (pending : PendingFile) :
    AList (fun _ : String => FileMetadata) :=
  if pending.isDirty then
    store.insert pending.relPathStr
      ⟨finalHash H disk pending, pending.modifiedTime⟩
  else
    store

/- Dirty rows are written, then rows without a file go. -/
def newFileStore
    (H : Host)
    (s : LocalState) :
    AList (fun _ : String => FileMetadata) :=
  ((hashedFiles H s).foldl (storeInfo H s.disk)
    s.fileStore).filterKeys
      (fun path => (newFileMap H s).keys.contains path)

def scanDirectory
    (H : Host)
    (s : LocalState) : LocalState :=
  if H.scan.walkFails then
    s
  else
    { s with
      fileMap := newFileMap H s
      dirMap := ((walked H s).filterMap Inspection.dir?).dedup
      fileStore := newFileStore H s
      pendingChanges :=
        s.pendingChanges ++
          (retryList H s).filter
            (fun path => !s.pendingChanges.contains path) }

------------------------------------------------------------
-- What A Scan Leaves Alone
------------------------------------------------------------

section Frame

variable (H : Host) (s : LocalState)

@[simp] theorem scanDirectory_role :
    (scanDirectory H s).role = s.role := by
  unfold scanDirectory
  split <;> rfl

@[simp] theorem scanDirectory_mode :
    (scanDirectory H s).mode = s.mode := by
  unfold scanDirectory
  split <;> rfl

@[simp] theorem scanDirectory_disk :
    (scanDirectory H s).disk = s.disk := by
  unfold scanDirectory
  split <;> rfl

@[simp] theorem scanDirectory_history :
    (scanDirectory H s).history = s.history := by
  unfold scanDirectory
  split <;> rfl

@[simp] theorem scanDirectory_receiving :
    (scanDirectory H s).receiving = s.receiving := by
  unfold scanDirectory
  split <;> rfl

@[simp] theorem scanDirectory_receivedFiles :
    (scanDirectory H s).receivedFiles =
      s.receivedFiles := by
  unfold scanDirectory
  split <;> rfl

@[simp] theorem scanDirectory_actions :
    (scanDirectory H s).actions = s.actions := by
  unfold scanDirectory
  split <;> rfl

end Frame

------------------------------------------------------------
-- What A Scan Finds
------------------------------------------------------------

/- Errors among the first entries, as the walk counts. -/
def failures
    (H : Host)
    (store : AList (fun _ : String => FileMetadata))
    (entries : List Entry) : ℕ :=
  entries.countP (fun entry =>
    (inspect H store entry).isFailed)

/-
  The walk reaches an entry exactly when fewer errors than
  the limit came before it.
-/
theorem mem_reached_iff
    (H : Host)
    (store : AList (fun _ : String => FileMetadata))
    (entries : List Entry)
    (errorCount : ℕ)
    (entry : Entry) :
    entry ∈ reached H store errorCount entries ↔
      ∃ before after,
        entries = before ++ entry :: after ∧
          errorCount + failures H store before <
            maxErrorCount := by
  induction entries generalizing errorCount with
  | nil => simp [reached]
  | cons first rest ih =>
      unfold reached
      by_cases hLimit : errorCount ≥ maxErrorCount
      · simp only [if_pos hLimit, List.not_mem_nil,
          false_iff]
        rintro ⟨before, after, -, hFew⟩
        omega
      · rw [if_neg hLimit]
        -- the count carried on, whatever the first entry is
        have hStep :
            entry ∈ (if (inspect H store first).isFailed then
                first :: reached H store (errorCount + 1) rest
              else
                first :: reached H store errorCount rest) ↔
              entry = first ∨ ∃ before after,
                rest = before ++ entry :: after ∧
                  errorCount +
                    failures H store (first :: before) <
                      maxErrorCount := by
          split
          next hFailed =>
            rw [List.mem_cons, ih]
            simp [failures, hFailed, Nat.add_assoc,
              Nat.add_comm 1]
          next hFine =>
            rw [List.mem_cons, ih]
            simp [failures, hFine]
        rw [hStep]
        constructor
        · rintro (rfl | ⟨before, after, rfl, hFew⟩)
          · refine ⟨[], rest, rfl, ?_⟩
            simp only [failures, List.countP_nil]
            omega
          · exact ⟨first :: before, after, rfl, hFew⟩
        · rintro ⟨before, after, hSplit, hFew⟩
          cases before with
          | nil =>
              left
              exact (List.cons.inj hSplit).1.symm
          | cons head before =>
              obtain ⟨rfl, rfl⟩ := List.cons.inj hSplit
              exact Or.inr ⟨before, after, rfl, hFew⟩

/-
  No failure keeps the walk from taking the file, and its
  digest is stored under its time stamp or can be computed.
-/
def ReadableFile
    (H : Host)
    (store : AList (fun _ : String => FileMetadata))
    (loc : Loc)
    (file : File) : Prop :=
  H.scan.relativeFails loc = false ∧
    H.relative loc ≠ "" ∧
    H.scan.ignores (H.relative loc) = false ∧
    H.scan.fileCheckFails loc = false ∧
    H.scan.mtimeFails loc = false ∧
    match cachedMeta store (H.relative loc) file.mtime with
    | some row => row.hash ≠ ""
    | none => H.scan.hashFails loc = false

/- No failure keeps the walk from taking the directory. -/
def ReadableDir
    (H : Host)
    (loc : Loc) : Prop :=
  H.scan.relativeFails loc = false ∧
    H.relative loc ≠ "" ∧
    H.scan.ignores (H.relative loc) = false ∧
    H.scan.dirCheckFails loc = false

/- The walk visits the entry before its error limit. -/
def Visits
    (H : Host)
    (s : LocalState)
    (entry : Entry) : Prop :=
  ∃ before after,
    walkEntries H s.disk = before ++ entry :: after ∧
      failures H s.fileStore before < maxErrorCount

/- The scan finds a file under this path. -/
def FoundFile
    (H : Host)
    (s : LocalState)
    (path : String) : Prop :=
  ∃ loc file,
    H.relative loc = path ∧
      Visits H s (loc, .file file) ∧
      ReadableFile H s.fileStore loc file

/- The scan finds a directory under this path. -/
def FoundDir
    (H : Host)
    (s : LocalState)
    (path : String) : Prop :=
  ∃ loc,
    H.relative loc = path ∧
      Visits H s (loc, .dir) ∧ ReadableDir H loc

section Found

variable
  {H : Host}
  {s : LocalState}

theorem visits_iff
    (entry : Entry) :
    Visits H s entry ↔
      entry ∈ reached H s.fileStore 0
        (walkEntries H s.disk) := by
  rw [mem_reached_iff]
  simp [Visits]

theorem mem_walkEntries_iff
    {loc : Loc}
    {node : Node File} :
    (loc, node) ∈ walkEntries H s.disk ↔
      s.disk.lookup loc = some node ∧ H.Inside loc ∧
        loc ≠ H.root ∧ pruned H s.disk loc = false := by
  have hNode : (loc, node) ∈ s.disk.entries.map
      (fun entry => (entry.1, entry.2)) ↔
        s.disk.lookup loc = some node := by
    change _ ↔ node ∈ s.disk.lookup loc
    rw [AList.mem_lookup_iff]
    constructor
    · intro hMem
      rcases List.mem_map.mp hMem with ⟨entry, hEntry, hEq⟩
      cases hEq
      exact hEntry
    · exact fun hMem => List.mem_map.mpr ⟨_, hMem, rfl⟩
  unfold walkEntries
  rw [List.mem_filter, hNode]
  simp only [Bool.and_eq_true, decide_eq_true_eq,
    bne_iff_ne, Bool.not_eq_true', Host.Inside, and_assoc]

theorem mem_walkEntries_of_visits
    {entry : Entry}
    (hVisits : Visits H s entry) :
    entry ∈ walkEntries H s.disk := by
  rcases hVisits with ⟨before, after, hSplit, -⟩
  rw [hSplit]
  simp

/- A visited entry lies inside the root. -/
theorem inside_of_visits
    {entry : Entry}
    (hVisits : Visits H s entry) :
    H.Inside entry.1 :=
  (mem_walkEntries_iff.mp
    (mem_walkEntries_of_visits hVisits)).2.1

/- A visited entry is a node of the disk. -/
theorem lookup_of_visits
    {entry : Entry}
    (hVisits : Visits H s entry) :
    s.disk.lookup entry.1 = some entry.2 :=
  (mem_walkEntries_iff.mp
    (mem_walkEntries_of_visits hVisits)).1

theorem file?_inspect_iff
    {loc : Loc}
    {node : Node File}
    {pending : PendingFile} :
    (inspect H s.fileStore (loc, node)).file? =
        some pending ↔
      ∃ file, node = .file file ∧
        inspectFile H s.fileStore loc file = pending ∧
        H.scan.relativeFails loc = false ∧
        H.relative loc ≠ "" ∧
        H.scan.ignores (H.relative loc) = false ∧
        H.scan.fileCheckFails loc = false ∧
        H.scan.mtimeFails loc = false := by
  unfold inspect
  dsimp only
  by_cases hRelative : H.scan.relativeFails loc = true
  · simp [hRelative, Inspection.file?]
  by_cases hEmpty : H.relative loc = ""
  · simp [hRelative, hEmpty, Inspection.file?]
  by_cases hIgnores :
      H.scan.ignores (H.relative loc) = true
  · simp [hRelative, hEmpty, hIgnores, Inspection.file?]
  cases node with
  | dir =>
      cases H.scan.dirCheckFails loc <;>
        simp [hRelative, hEmpty, hIgnores,
          Inspection.file?]
  | file file =>
      by_cases hCheck : H.scan.fileCheckFails loc = true
      · simp [hRelative, hEmpty, hIgnores, hCheck,
          Inspection.file?]
      by_cases hMtime : H.scan.mtimeFails loc = true
      · simp [hRelative, hEmpty, hIgnores, hCheck, hMtime,
          Inspection.file?]
      · simp [hRelative, hEmpty, hIgnores, hCheck, hMtime,
          Inspection.file?]

theorem dir?_inspect_iff
    {loc : Loc}
    {node : Node File}
    {path : String} :
    (inspect H s.fileStore (loc, node)).dir? = some path ↔
      node = .dir ∧ H.relative loc = path ∧
        ReadableDir H loc := by
  unfold inspect ReadableDir
  dsimp only
  by_cases hRelative : H.scan.relativeFails loc = true
  · simp [hRelative, Inspection.dir?]
  by_cases hEmpty : H.relative loc = ""
  · simp [hRelative, hEmpty, Inspection.dir?]
  by_cases hIgnores :
      H.scan.ignores (H.relative loc) = true
  · simp [hRelative, hEmpty, hIgnores, Inspection.dir?]
  cases node with
  | dir =>
      cases H.scan.dirCheckFails loc <;>
        simp [hRelative, hEmpty, hIgnores,
          Inspection.dir?]
  | file file =>
      by_cases hCheck : H.scan.fileCheckFails loc = true
      · simp [hRelative, hEmpty, hIgnores, hCheck,
          Inspection.dir?]
      by_cases hMtime : H.scan.mtimeFails loc = true
      · simp [hRelative, hEmpty, hIgnores, hCheck, hMtime,
          Inspection.dir?]
      · simp [hRelative, hEmpty, hIgnores, hCheck, hMtime,
          Inspection.dir?]

/- The digest of a found file, unless hashing fails. -/
theorem finalHash_ne_empty_iff
    {loc : Loc}
    {file : File}
    (hFile : s.disk.lookup loc = some (.file file)) :
    finalHash H s.disk
        (inspectFile H s.fileStore loc file) ≠ "" ↔
      match cachedMeta s.fileStore (H.relative loc)
          file.mtime with
      | some row => row.hash ≠ ""
      | none => H.scan.hashFails loc = false := by
  have hPayload : s.disk.payload? loc = some file :=
    (FileTree.payload?_eq_some_iff _ _ _).mpr hFile
  unfold finalHash inspectFile
  dsimp only
  cases hCached : cachedMeta s.fileStore (H.relative loc)
      file.mtime with
  | some row => simp
  | none =>
      unfold scanHash
      rw [hPayload]
      cases hFails : H.scan.hashFails loc with
      | true => simp
      | false => simp [H.digest.hash_ne_empty file.content]

/- The paths of the hashed files are the found ones. -/
theorem exists_hashedFile_iff
    (path : String) :
    (∃ pending ∈ hashedFiles H s,
        pending.relPathStr = path) ↔
      FoundFile H s path := by
  unfold hashedFiles walked
  constructor
  · rintro ⟨pending, hPending, hPath⟩
    rw [List.mem_filter, List.mem_filterMap] at hPending
    rcases hPending with ⟨⟨inspection, hIn, hFound⟩, hHash⟩
    rcases List.mem_map.mp hIn with ⟨entry, hEntry, hEq⟩
    rcases entry with ⟨loc, node⟩
    rw [← hEq] at hFound
    rcases file?_inspect_iff.mp hFound with
      ⟨file, hNode, hInfo, hChecks⟩
    subst hNode
    subst hInfo
    have hVisits : Visits H s (loc, .file file) :=
      (visits_iff _).mpr hEntry
    have hFile : s.disk.lookup loc = some (.file file) :=
      lookup_of_visits hVisits
    have hDigest := (finalHash_ne_empty_iff hFile).mp
      (by simpa using hHash)
    rcases hChecks with
      ⟨hRelative, hEmpty, hIgnores, hCheck, hMtime⟩
    exact ⟨loc, file, hPath, hVisits, hRelative, hEmpty,
      hIgnores, hCheck, hMtime, hDigest⟩
  · rintro ⟨loc, file, hPath, hVisits, hRelative, hEmpty,
      hIgnores, hCheck, hMtime, hDigest⟩
    refine ⟨inspectFile H s.fileStore loc file, ?_, hPath⟩
    rw [List.mem_filter, List.mem_filterMap]
    refine ⟨⟨inspect H s.fileStore (loc, .file file), ?_, ?_⟩,
      ?_⟩
    · exact List.mem_map_of_mem ((visits_iff _).mp hVisits)
    · exact file?_inspect_iff.mpr ⟨file, rfl, rfl,
        hRelative, hEmpty, hIgnores, hCheck, hMtime⟩
    · have hFile : s.disk.lookup loc =
          some (.file file) := lookup_of_visits hVisits
      simpa using (finalHash_ne_empty_iff hFile).mpr hDigest

/- Each entry of the map is filed under its own path. -/
def OwnPaths
    (files : AList (fun _ : String => FileInfo)) : Prop :=
  ∀ path info, files.lookup path = some info →
    info.path = path

theorem ownPaths_foldl_insertInfo
    (infos : List FileInfo)
    {files : AList (fun _ : String => FileInfo)}
    (hOwn : OwnPaths files) :
    OwnPaths (infos.foldl insertInfo files) := by
  induction infos generalizing files with
  | nil => exact hOwn
  | cons info infos ih =>
      apply ih
      intro path other hLookup
      unfold insertInfo at hLookup
      by_cases hPath : path = info.path
      · subst hPath
        rw [AList.lookup_insert] at hLookup
        rw [← Option.some.inj hLookup]
      · rw [AList.lookup_insert_ne hPath] at hLookup
        exact hOwn path other hLookup

theorem mem_foldl_insertInfo_iff
    (infos : List FileInfo)
    (files : AList (fun _ : String => FileInfo))
    (path : String) :
    path ∈ infos.foldl insertInfo files ↔
      path ∈ files ∨ path ∈ infos.map FileInfo.path := by
  induction infos generalizing files with
  | nil => simp
  | cons info infos ih =>
      rw [List.foldl_cons, ih, insertInfo, AList.mem_insert,
        List.map_cons, List.mem_cons]
      tauto

/- The listed paths are the keys of the map. -/
theorem mem_map_path_iff
    {files : AList (fun _ : String => FileInfo)}
    (hOwn : OwnPaths files)
    (path : String) :
    path ∈ (files.entries.map Sigma.snd).map
        FileInfo.path ↔
      path ∈ files := by
  constructor
  · intro hMem
    rcases List.mem_map.mp hMem with ⟨info, hInfo, hPath⟩
    rcases List.mem_map.mp hInfo with ⟨entry, hEntry, hEq⟩
    have hLookup : entry.2 ∈ files.lookup entry.1 :=
      AList.mem_lookup_iff.mpr hEntry
    rw [← hPath, ← hEq, hOwn entry.1 entry.2 hLookup]
    exact AList.lookup_isSome.mp
      (Option.isSome_iff_exists.mpr ⟨_, hLookup⟩)
  · intro hMem
    rcases Option.isSome_iff_exists.mp
      (AList.lookup_isSome.mpr hMem) with ⟨info, hLookup⟩
    refine List.mem_map.mpr
      ⟨info, ?_, hOwn path info hLookup⟩
    exact List.mem_map.mpr
      ⟨⟨path, info⟩, AList.mem_lookup_iff.mp hLookup, rfl⟩

/- The keys of the new map are the found paths. -/
theorem mem_newFileMap_iff
    (path : String) :
    path ∈ newFileMap H s ↔ FoundFile H s path := by
  rw [← exists_hashedFile_iff]
  unfold newFileMap
  rw [mem_foldl_insertInfo_iff, List.map_map]
  simp [pendingInfo]

/- A scan that can walk lists exactly what it finds. -/
theorem mem_scannedFiles_iff
    (hWalk : H.scan.walkFails = false)
    (path : String) :
    path ∈ (getAllFiles (scanDirectory H s)).map
        FileInfo.path ↔
      FoundFile H s path := by
  have hOwn : OwnPaths (newFileMap H s) :=
    ownPaths_foldl_insertInfo _ (fun path info hLookup => by
      cases hLookup)
  rw [← mem_newFileMap_iff]
  unfold getAllFiles scanDirectory
  rw [hWalk]
  simp only [Bool.false_eq_true, if_false]
  rw [mem_map_path_iff hOwn]

theorem mem_scannedDirs_iff
    (hWalk : H.scan.walkFails = false)
    (path : String) :
    path ∈ getLocalDirectories (scanDirectory H s) ↔
      FoundDir H s path := by
  unfold getLocalDirectories scanDirectory walked FoundDir
  rw [hWalk]
  simp only [Bool.false_eq_true, if_false, List.mem_dedup,
    List.mem_filterMap, List.mem_map]
  constructor
  · rintro ⟨inspection, ⟨⟨loc, node⟩, hEntry, rfl⟩, hDir⟩
    rcases dir?_inspect_iff.mp hDir with
      ⟨rfl, hPath, hReadable⟩
    exact ⟨loc, hPath, (visits_iff _).mpr hEntry, hReadable⟩
  · rintro ⟨loc, hPath, hVisits, hReadable⟩
    exact ⟨_, ⟨(loc, .dir), (visits_iff _).mp hVisits, rfl⟩,
      dir?_inspect_iff.mpr ⟨rfl, hPath, hReadable⟩⟩

end Found

end StateManager

end VeritasSync
