import VeritasSync.Storage.ScanChanges

/-
  The two ways in which a tree comes to be tracked: the full
  scan, and rounds of changes that report all of its paths.
  They agree unless an ignored directory hides a file that
  is not ignored itself.

  Main declarations:
    * `ScanAgreement.Tree`, `ScanAgreement.Reports`
    * `ScanAgreement.NothingHidden`
    * `ScanAgreement.mem_scanned_iff`
    * `ScanAgreement.mem_processed_iff`
    * `ScanAgreement.fullScan_agrees_iff`
-/

namespace VeritasSync

namespace ScanAgreement

open StateManager

------------------------------------------------------------
-- Trees and Reports
------------------------------------------------------------

/- A disk with names as a file system allows them. -/
structure Tree where
  disk : Disk
  names : ∀ loc node, disk.lookup loc = some node →
    ∀ name ∈ loc, name ≠ "" ∧ '/' ∉ name.toList

/- The same host, on which no call of a scan fails. -/
def quiet (H : Host) : Host :=
  { H with scan := .plain }

def noneFails (_ : Loc) : Bool := false

/- Nothing is tracked, and the rules have been loaded. -/
def fresh
    (H : Host)
    (role : SyncRole)
    (mode : SyncMode)
    (disk : Disk) : Watching where
  filter := rulesOn H disk
  node := { LocalState.empty H role mode with disk := disk }

def IsBelow
    (H : Host)
    (disk : Disk)
    (loc : Loc) : Prop :=
  H.Inside loc ∧ loc ≠ H.root ∧ disk.lookup loc ≠ none

/- Every path of the tree is reported, and no other one. -/
structure Reports
    (H : Host)
    (disk : Disk)
    (changes : List String) : Prop where
  sound : ∀ change ∈ changes,
    isRootPath H change = true ∨
      IsBelow H disk (H.locate change)
  complete : ∀ loc, IsBelow H disk loc →
    ∃ change ∈ changes,
      isRootPath H change = false ∧ H.locate change = loc

def IsIgnored
    (H : Host)
    (disk : Disk)
    (loc : Loc) : Prop :=
  (rulesOn H disk).shouldIgnore (bytes (H.relative loc)) =
    true

/- A regular file that the rules let through. -/
def Kept
    (H : Host)
    (disk : Disk)
    (loc : Loc) : Prop :=
  (∃ file, disk.lookup loc = some (.file file)) ∧
    IsBelow H disk loc ∧ ¬ IsIgnored H disk loc

/- An ignored directory lies above the place. -/
def Hidden
    (H : Host)
    (disk : Disk)
    (loc : Loc) : Prop :=
  ∃ above, above <+: loc ∧ above ≠ loc ∧
    H.Inside above ∧ above ≠ H.root ∧
    disk.lookup above = some .dir ∧ IsIgnored H disk above

/- No file that is not ignored is below an ignored one. -/
def NothingHidden
    (H : Host)
    (disk : Disk) : Prop :=
  ∀ loc, Kept H disk loc → ¬ Hidden H disk loc

------------------------------------------------------------
-- Paths and Places
------------------------------------------------------------

section Places

variable
  {H : Host}
  {tree : Tree}
  {loc loc' : Loc}

/- A relative path has the names that led to it. -/
theorem components_intercalate
    {names : List String}
    (hNames : ∀ name ∈ names,
      name ≠ "" ∧ '/' ∉ name.toList) :
    components ("/".intercalate names) = names := by
  unfold components
  rw [String.toList_intercalate]
  cases names with
  | nil => rfl
  | cons first rest =>
      have hSplit : (['/'].intercalate
          ((first :: rest).map String.toList)).splitOn '/' =
            (first :: rest).map String.toList := by
        apply List.splitOn_intercalate
        · intro chars hChars
          rcases List.mem_map.mp hChars with
            ⟨name, hName, rfl⟩
          exact (hNames name hName).2
        · simp
      have hKept : ((first :: rest).map
          String.toList).filter (fun name => !name.isEmpty) =
            (first :: rest).map String.toList := by
        rw [List.filter_eq_self]
        intro chars hChars
        rcases List.mem_map.mp hChars with ⟨name, hName, rfl⟩
        simpa using (hNames name hName).1
      change (((['/'].intercalate _).splitOn '/').filter
        _).map _ = _
      rw [hSplit, hKept, List.map_map]
      simp [Function.comp_def]

theorem components_relative
    (hBelow : IsBelow H tree.disk loc) :
    components (H.relative loc) =
      loc.drop H.root.length := by
  rcases Option.ne_none_iff_exists'.mp hBelow.2.2 with
    ⟨node, hNode⟩
  exact components_intercalate (fun name hName =>
    tree.names loc node hNode name
      (List.mem_of_mem_drop hName))

/- Different places of a tree have different paths. -/
theorem eq_of_relative_eq
    (hBelow : IsBelow H tree.disk loc)
    (hBelow' : IsBelow H tree.disk loc')
    (hSame : H.relative loc = H.relative loc') :
    loc = loc' := by
  have hRest := components_relative hBelow
  rw [hSame, components_relative hBelow'] at hRest
  rcases hBelow.1 with ⟨rest, hRoot⟩
  rcases hBelow'.1 with ⟨rest', hRoot'⟩
  rw [← hRoot, ← hRoot', List.drop_left,
    List.drop_left] at hRest
  rw [← hRoot, ← hRoot', hRest]

theorem relative_ne_empty
    (hBelow : IsBelow H tree.disk loc) :
    H.relative loc ≠ "" := by
  intro hEmpty
  have hRest := components_relative hBelow
  rcases hBelow.1 with ⟨rest, hRoot⟩
  rw [hEmpty, ← hRoot, List.drop_left] at hRest
  apply hBelow.2.1
  rw [← hRoot, ← hRest]
  exact List.append_nil _

end Places

------------------------------------------------------------
-- The Full Scan
------------------------------------------------------------

section Scan

variable
  {H : Host}
  {role : SyncRole}
  {mode : SyncMode}

/- The host of a scan that has loaded the rules. -/
def ruled
    (H : Host)
    (disk : Disk) : Host :=
  withRules (quiet H) (rulesOn H disk)

/- Nothing that is walked counts as an error. -/
theorem failures_ruled
    (disk : Disk)
    (store : AList (fun _ : String => FileMetadata))
    (entries : List Entry) :
    failures (ruled H disk) store entries = 0 := by
  unfold failures
  rw [List.countP_eq_zero]
  intro entry _
  unfold inspect ruled withRules quiet ScanConditions.plain
  dsimp only
  split
  next hFails => cases hFails
  next =>
    split
    · simp [Inspection.isFailed]
    · split
      · simp [Inspection.isFailed]
      · split <;> simp [Inspection.isFailed]

theorem visits_ruled_iff
    {s : LocalState}
    {entry : Entry} :
    Visits (ruled H s.disk) s entry ↔
      entry ∈ walkEntries (ruled H s.disk) s.disk := by
  constructor
  · exact mem_walkEntries_of_visits
  · intro hMem
    rcases List.append_of_mem hMem with
      ⟨before, after, hSplit⟩
    refine ⟨before, after, hSplit, ?_⟩
    rw [failures_ruled]
    decide

theorem pruned_ruled_iff
    {disk : Disk}
    {loc : Loc} :
    pruned (ruled H disk) disk loc = true ↔
      Hidden H disk loc := by
  unfold pruned Hidden IsIgnored
  rw [List.any_eq_true]
  simp only [List.mem_inits, Bool.and_eq_true,
    decide_eq_true_eq, bne_iff_ne, beq_iff_eq,
    Bool.not_eq_true']
  constructor
  · rintro ⟨above, hAbove, ⟨⟨⟨⟨⟨hInside, hRoot⟩, hProper⟩,
      hDir⟩, -⟩, hIgnored⟩, -⟩
    exact ⟨above, hAbove, hProper, hInside, hRoot, hDir,
      hIgnored⟩
  · rintro ⟨above, hAbove, hProper, hInside, hRoot, hDir,
      hIgnored⟩
    exact ⟨above, hAbove, ⟨⟨⟨⟨⟨hInside, hRoot⟩, hProper⟩,
      hDir⟩, rfl⟩, hIgnored⟩, rfl⟩

/- The scan tracks the kept files that nothing hides. -/
theorem mem_scanned_iff
    (tree : Tree)
    (path : String) :
    path ∈ (scanWithRules (quiet H)
        (fresh H role mode tree.disk)).node.fileMap ↔
      ∃ loc, Kept H tree.disk loc ∧
        ¬ Hidden H tree.disk loc ∧
          H.relative loc = path := by
  let s := (fresh H role mode tree.disk).node
  have hScan : (scanWithRules (quiet H)
      (fresh H role mode tree.disk)).node.fileMap =
        newFileMap (ruled H s.disk) s := rfl
  rw [hScan, mem_newFileMap_iff]
  constructor
  · rintro ⟨loc, file, hPath, hVisits, hReadable⟩
    have hWalk := mem_walkEntries_of_visits hVisits
    rcases mem_walkEntries_iff.mp hWalk with
      ⟨hFile, hInside, hRoot, hPruned⟩
    rcases hReadable with ⟨-, -, hIgnores, -⟩
    have hBelow : IsBelow H tree.disk loc := by
      refine ⟨hInside, hRoot, ?_⟩
      rw [show tree.disk.lookup loc = _ from hFile]
      exact Option.some_ne_none _
    refine ⟨loc, ⟨⟨file, hFile⟩, hBelow, ?_⟩, ?_, hPath⟩
    · exact Bool.eq_false_iff.mp hIgnores
    · intro hHidden
      have hYes : pruned (ruled H s.disk) s.disk loc =
          true :=
        pruned_ruled_iff.mpr hHidden
      rw [hYes] at hPruned
      cases hPruned
  · rintro ⟨loc, ⟨⟨file, hFile⟩, hBelow, hKept⟩, hSeen,
      hPath⟩
    have hPruned :
        pruned (ruled H s.disk) s.disk loc = false := by
      rw [Bool.eq_false_iff]
      exact fun hPruned => hSeen (pruned_ruled_iff.mp hPruned)
    have hWalk : (loc, .file file) ∈
        walkEntries (ruled H s.disk) s.disk :=
      mem_walkEntries_iff.mpr
        ⟨hFile, hBelow.1, hBelow.2.1, hPruned⟩
    refine ⟨loc, file, hPath, visits_ruled_iff.mpr hWalk,
      rfl, relative_ne_empty hBelow, ?_, rfl, rfl, ?_⟩
    · exact Bool.eq_false_iff.mpr hKept
    · rfl

end Scan

------------------------------------------------------------
-- The Rounds of Changes
------------------------------------------------------------

section Rounds

variable
  {H : Host}
  {tree : Tree}
  {w : Watching}
  {changes : List String}
  {path : String}

/- A kept file of the tree is reported under the path. -/
def Finds
    (H : Host)
    (disk : Disk)
    (changes : List String)
    (path : String) : Prop :=
  ∃ change ∈ changes, isRootPath H change = false ∧
    Kept H disk (H.locate change) ∧
      H.relative (H.locate change) = path

/-
  What the rounds leave alone: the tree and its rules.  No
  row is without a digest.
-/
structure Steady
    (H : Host)
    (disk : Disk)
    (w : Watching) : Prop where
  filter : w.filter = rulesOn H disk
  disk : w.node.disk = disk
  rows : RowsHashed w.node.fileStore

def Sound
    (H : Host)
    (disk : Disk)
    (changes : List String) : Prop :=
  ∀ change ∈ changes, isRootPath H change = true ∨
    IsBelow H disk (H.locate change)

/- What a round scans, with the rules of the tree. -/
def scanned
    (H : Host)
    (w : Watching)
    (changes : List String) : ScannedChanges :=
  scanAndHashChanges (ruled H w.node.disk) noneFails changes
    w.node

theorem processDebouncedChanges_eq
    (hSteady : Steady H tree.disk w)
    (hChanges : changes ≠ []) :
    processDebouncedChanges (quiet H) noneFails w changes =
      ⟨rulesOn H tree.disk,
        (commitScanned (scanned H w changes) w.node).2⟩ := by
  have hRules : (if changes.any reloadsRules then
      rulesOn (quiet H) w.node.disk else w.filter) =
        rulesOn H w.node.disk := by
    split
    · rfl
    · rw [hSteady.filter, hSteady.disk]
  unfold processDebouncedChanges
  rw [if_neg hChanges]
  dsimp only
  rw [hRules, ← hSteady.disk]
  rfl

/- Every file of a round gets a digest. -/
theorem hash_ne_empty_of_check
    (hRows : RowsHashed w.node.fileStore)
    {change : String}
    {pending : PendingFile}
    (hCheck : (checkChange (ruled H w.node.disk) noneFails
      w.node change).file? = some pending) :
    finalHash (ruled H w.node.disk) w.node.disk pending ≠
      "" := by
  rcases file?_checkChange_iff.mp hCheck with
    ⟨file, hFile, hPending, -⟩
  rw [← hPending, finalHash_ne_empty_iff hFile]
  split
  next row hRow =>
    exact hRows _ row (cachedMeta_eq_some_iff.mp hRow).1
  next => rfl

theorem mem_scanned_fileUpdateResults_iff
    (hRows : RowsHashed w.node.fileStore)
    {info : FileInfo} :
    info ∈ (scanned H w changes).fileUpdateResults ↔
      ∃ change ∈ changes, ∃ pending,
        (checkChange (ruled H w.node.disk) noneFails w.node
          change).file? = some pending ∧
        pendingInfo (ruled H w.node.disk) w.node.disk
          pending = info := by
  have hAll : ∀ info, info ∈ ((changes.map (checkChange
      (ruled H w.node.disk) noneFails w.node)).filterMap
        ChangeCheck.file?).map (pendingInfo
          (ruled H w.node.disk) w.node.disk) ↔
      ∃ change ∈ changes, ∃ pending,
        (checkChange (ruled H w.node.disk) noneFails w.node
          change).file? = some pending ∧
        pendingInfo (ruled H w.node.disk) w.node.disk
          pending = info := by
    intro info
    simp only [List.mem_map, List.mem_filterMap]
    constructor
    · rintro ⟨pending, ⟨_, ⟨change, hChange, rfl⟩, hCheck⟩,
        hInfo⟩
      exact ⟨change, hChange, pending, hCheck, hInfo⟩
    · rintro ⟨change, hChange, pending, hCheck, hInfo⟩
      exact ⟨pending, ⟨_, ⟨change, hChange, rfl⟩, hCheck⟩,
        hInfo⟩
  unfold scanned scanAndHashChanges
  dsimp only
  split
  next =>
    rw [List.mem_filter, hAll, and_iff_left_iff_imp]
    rintro ⟨change, -, pending, hCheck, rfl⟩
    simpa [pendingInfo] using
      hash_ne_empty_of_check hRows hCheck
  next => exact hAll info

/- The paths of a round's files are the reported ones. -/
theorem mem_scanned_paths_iff
    (hSteady : Steady H tree.disk w)
    (hSound : Sound H tree.disk changes) :
    path ∈ (scanned H w changes).fileUpdateResults.map
        FileInfo.path ↔
      Finds H tree.disk changes path := by
  rw [List.mem_map]
  constructor
  · rintro ⟨info, hInfo, hPath⟩
    rcases (mem_scanned_fileUpdateResults_iff
      hSteady.rows).mp hInfo with
      ⟨change, hChange, pending, hCheck, rfl⟩
    rcases file?_checkChange_iff.mp hCheck with
      ⟨file, hFile, rfl, ⟨hRoot, -, hIgnores⟩, -⟩
    rw [hSteady.disk] at hFile hIgnores
    refine ⟨change, hChange, hRoot, ⟨⟨file, hFile⟩, ?_,
      Bool.eq_false_iff.mp hIgnores⟩, hPath⟩
    rcases hSound change hChange with hIsRoot | hBelow
    · rw [show isRootPath H change = false from hRoot]
        at hIsRoot
      cases hIsRoot
    · exact hBelow
  · rintro ⟨change, hChange, hRoot,
      ⟨⟨file, hFile⟩, -, hKept⟩, hPath⟩
    rw [← hSteady.disk] at hFile hKept
    refine ⟨_, (mem_scanned_fileUpdateResults_iff
      hSteady.rows).mpr ⟨change, hChange, _,
        file?_checkChange_iff.mpr ⟨file, hFile, rfl,
          ⟨hRoot, rfl, Bool.eq_false_iff.mpr hKept⟩, rfl,
          rfl, rfl⟩, rfl⟩, hPath⟩

/- No reported path of the tree counts as deleted. -/
theorem deleteCheckResults_scanned
    (hSteady : Steady H tree.disk w)
    (hSound : Sound H tree.disk changes) :
    (scanned H w changes).deleteCheckResults = [] := by
  unfold scanned scanAndHashChanges
  dsimp only
  rw [List.filterMap_eq_nil_iff]
  intro check hCheck
  rcases List.mem_map.mp hCheck with ⟨change, hChange, rfl⟩
  rcases hSound change hChange with hRoot | hBelow
  · unfold checkChange
    dsimp only
    rw [if_pos (show isRootPath (ruled H w.node.disk)
      change = true from hRoot)]
    rfl
  · apply deleted?_checkChange_eq_none
    · rw [hSteady.disk]
      exact hBelow.2.2
    · rfl

/- One round tracks what it reports. -/
theorem mem_fileMap_round_iff
    (hSteady : Steady H tree.disk w)
    (hSound : Sound H tree.disk changes) :
    path ∈ (processDebouncedChanges (quiet H) noneFails w
        changes).node.fileMap ↔
      path ∈ w.node.fileMap ∨
        Finds H tree.disk changes path := by
  by_cases hChanges : changes = []
  · rw [hChanges]
    simp [processDebouncedChanges, Finds]
  · rw [processDebouncedChanges_eq hSteady hChanges]
    unfold commitScanned
    dsimp only
    rw [mem_fileMap_commitChanges_iff,
      mem_scanned_paths_iff hSteady hSound,
      deleteCheckResults_scanned hSteady hSound]
    simp

theorem steady_round
    (hSteady : Steady H tree.disk w) :
    Steady H tree.disk (processDebouncedChanges (quiet H)
      noneFails w changes) := by
  by_cases hChanges : changes = []
  · rw [hChanges]
    exact hSteady
  · rw [processDebouncedChanges_eq hSteady hChanges]
    refine ⟨rfl, ?_, ?_⟩
    · unfold commitScanned
      dsimp only
      rw [disk_commitChanges]
      exact hSteady.disk
    · apply hSteady.rows.commitChanges
      intro info hInfo
      rcases (mem_scanned_fileUpdateResults_iff
        hSteady.rows).mp hInfo with
        ⟨change, -, pending, hCheck, rfl⟩
      exact hash_ne_empty_of_check hSteady.rows hCheck

/- All rounds together track what they report. -/
theorem mem_fileMap_rounds_iff
    (rounds : List (List String))
    (hSteady : Steady H tree.disk w)
    (hSound : Sound H tree.disk rounds.flatten) :
    path ∈ (rounds.foldl (processDebouncedChanges (quiet H)
        noneFails) w).node.fileMap ↔
      path ∈ w.node.fileMap ∨
        Finds H tree.disk rounds.flatten path := by
  induction rounds generalizing w with
  | nil => simp [Finds]
  | cons changes rounds ih =>
      rw [List.flatten_cons] at hSound
      have hFirst : Sound H tree.disk changes :=
        fun change hIn => hSound change
          (List.mem_append_left _ hIn)
      have hRest : Sound H tree.disk rounds.flatten :=
        fun change hIn => hSound change
          (List.mem_append_right _ hIn)
      rw [List.foldl_cons, ih (steady_round hSteady) hRest,
        mem_fileMap_round_iff hSteady hFirst, or_assoc,
        List.flatten_cons]
      simp only [Finds, List.mem_append, or_and_right,
        exists_or]

theorem steady_fresh
    (role : SyncRole)
    (mode : SyncMode)
    (disk : Disk) :
    Steady H disk (fresh H role mode disk) := by
  refine ⟨rfl, rfl, ?_⟩
  intro path row hRow
  cases hRow

/- The rounds track every kept file of the tree. -/
theorem mem_processed_iff
    {role : SyncRole}
    {mode : SyncMode}
    {rounds : List (List String)}
    (hReports : Reports H tree.disk rounds.flatten) :
    path ∈ (rounds.foldl (processDebouncedChanges (quiet H)
        noneFails)
          (fresh H role mode tree.disk)).node.fileMap ↔
      ∃ loc, Kept H tree.disk loc ∧
        H.relative loc = path := by
  rw [mem_fileMap_rounds_iff rounds
    (steady_fresh role mode tree.disk) hReports.sound]
  constructor
  · rintro (hNone | ⟨change, -, -, hKept, hPath⟩)
    · cases hNone
    · exact ⟨_, hKept, hPath⟩
  · rintro ⟨loc, hKept, hPath⟩
    rcases hReports.complete loc hKept.2.1 with
      ⟨change, hChange, hRoot, rfl⟩
    exact Or.inr ⟨change, hChange, hRoot, hKept, hPath⟩

end Rounds

------------------------------------------------------------
-- When They Agree
------------------------------------------------------------

/-
  From nothing, the scan and the rounds track the same files
  exactly when no ignored directory hides a kept file.
-/
theorem fullScan_agrees_iff
    {H : Host}
    {role : SyncRole}
    {mode : SyncMode}
    {tree : Tree}
    {rounds : List (List String)}
    (hReports : Reports H tree.disk rounds.flatten) :
    (∀ path,
      path ∈ (scanWithRules (quiet H)
          (fresh H role mode tree.disk)).node.fileMap ↔
        path ∈ (rounds.foldl (processDebouncedChanges
          (quiet H) noneFails)
            (fresh H role mode tree.disk)).node.fileMap) ↔
      NothingHidden H tree.disk := by
  simp only [mem_scanned_iff, mem_processed_iff hReports]
  constructor
  · intro hAgree loc hKept hHidden
    rcases (hAgree (H.relative loc)).mpr ⟨loc, hKept, rfl⟩
      with ⟨other, hOther, hSeen, hSame⟩
    rw [eq_of_relative_eq hOther.2.1 hKept.2.1 hSame]
      at hSeen
    exact hSeen hHidden
  · intro hNothing path
    constructor
    · rintro ⟨loc, hKept, -, hPath⟩
      exact ⟨loc, hKept, hPath⟩
    · rintro ⟨loc, hKept, hPath⟩
      exact ⟨loc, hKept, hNothing loc hKept, hPath⟩

/- A tree of few nodes. -/
def treeOf
    (disk : Disk)
    (hNames : ∀ entry ∈ disk.entries, ∀ name ∈ entry.1,
      name ≠ "" ∧ '/' ∉ name.toList) : Tree where
  disk := disk
  names loc node hNode :=
    hNames ⟨loc, node⟩
      (AList.mem_lookup_iff.mp (Option.mem_def.mpr hNode))

theorem mem_keys_of_isBelow
    {H : Host}
    {disk : Disk}
    {loc : Loc}
    (hBelow : IsBelow H disk loc) :
    loc ∈ disk.keys := by
  by_contra hAbsent
  exact hBelow.2.2 (AList.lookup_eq_none.mpr hAbsent)

/- Each node is reported under the text of its place. -/
theorem reports_pathStrings
    {H : Host}
    {disk : Disk}
    {changes : List String}
    (hSound : ∀ change ∈ changes,
      H.Inside (H.locate change) ∧
        H.locate change ≠ H.root ∧
          H.locate change ∈ disk.keys)
    (hComplete : ∀ loc ∈ disk.keys, loc ≠ H.root →
      ∃ change ∈ changes,
        isRootPath H change = false ∧
          H.locate change = loc) :
    Reports H disk changes where
  sound change hChange := by
    rcases hSound change hChange with
      ⟨hInside, hRoot, hKey⟩
    refine Or.inr ⟨hInside, hRoot, ?_⟩
    exact fun hNone => AList.lookup_eq_none.mp hNone hKey
  complete loc hBelow :=
    hComplete loc (mem_keys_of_isBelow hBelow) hBelow.2.1

def textFile (text : String) : Node File :=
  .file ⟨text.toUTF8.data.toList, 0⟩

/- A directory with notes, and a rule about another file. -/
def notesDisk : Disk :=
  [⟨["r"], .dir⟩, ⟨["r", "notes"], .dir⟩,
    ⟨["r", "notes", "a.txt"], textFile "a"⟩,
    ⟨["r", "b.log"], textFile "b"⟩,
    ⟨["r", ".veritasignore"],
      textFile "*.log"⟩].toAList

def notesTree : Tree :=
  treeOf notesDisk (by decide)

def notesRounds : List (List String) :=
  [["/r/notes/a.txt", "/r/b.log"],
    ["/r/notes", "/r/.veritasignore"]]

/- Only the directory with the notes is below the root. -/
theorem not_hidden_notes
    (loc : Loc) :
    ¬ Hidden .plain notesDisk loc := by
  rintro ⟨above, -, -, hInside, hRoot, hDir, hIgnored⟩
  have hKey := mem_keys_of_isBelow
    ⟨hInside, hRoot, by rw [hDir]; exact nofun⟩
  have hOnly : ∀ key ∈ notesDisk.keys,
      key ≠ ["r"] → notesDisk.lookup key = some .dir →
        (rulesOn .plain notesDisk).shouldIgnore
          (bytes (Host.plain.relative key)) = false := by
    decide +kernel
  have hNot := hOnly above hKey hRoot hDir
  rw [IsIgnored] at hIgnored
  exact absurd (hIgnored.symm.trans hNot) (by decide)

theorem fullScan_agrees_notes :
    "notes/a.txt" ∈ (scanWithRules (quiet .plain) (fresh
        .plain .source .oneWay notesDisk)).node.fileMap ∧
      ∀ path,
        path ∈ (scanWithRules (quiet .plain) (fresh .plain
            .source .oneWay notesDisk)).node.fileMap ↔
          path ∈ (notesRounds.foldl (processDebouncedChanges
            (quiet .plain) noneFails) (fresh .plain .source
              .oneWay notesDisk)).node.fileMap := by
  have hReports : Reports .plain notesTree.disk
      notesRounds.flatten :=
    reports_pathStrings (by decide) (by decide)
  exact ⟨by decide +kernel,
    (fullScan_agrees_iff hReports).mpr
      (fun loc _ => not_hidden_notes loc)⟩

/- The logs are ignored, but for one of them. -/
def logsDisk : Disk :=
  [⟨["r"], .dir⟩, ⟨["r", "logs"], .dir⟩,
    ⟨["r", "logs", "critical.log"], textFile "a"⟩,
    ⟨["r", ".veritasignore"],
      textFile "logs/\n!logs/critical.log\n"⟩].toAList

def logsRounds : List (List String) :=
  [["/r/.veritasignore"],
    ["/r/logs", "/r/logs/critical.log"]]

/- A repository inside, and no rule of the user. -/
def nestedDisk : Disk :=
  [⟨["r"], .dir⟩, ⟨["r", "lib"], .dir⟩,
    ⟨["r", "lib", ".git"], .dir⟩,
    ⟨["r", "lib", ".git", "config"],
      textFile "a"⟩].toAList

def nestedRounds : List (List String) :=
  [["/r/lib", "/r/lib/.git", "/r/lib/.git/config"]]

theorem not_agree_logs :
    (Reports .plain logsDisk logsRounds.flatten ∧
      "logs/critical.log" ∉ (scanWithRules (quiet .plain)
        (fresh .plain .source .oneWay
          logsDisk)).node.fileMap ∧
      "logs/critical.log" ∈ (logsRounds.foldl
        (processDebouncedChanges (quiet .plain) noneFails)
          (fresh .plain .source .oneWay
            logsDisk)).node.fileMap) ∧
    Reports .plain nestedDisk nestedRounds.flatten ∧
      "lib/.git/config" ∉ (scanWithRules (quiet .plain)
        (fresh .plain .source .oneWay
          nestedDisk)).node.fileMap ∧
      "lib/.git/config" ∈ (nestedRounds.foldl
        (processDebouncedChanges (quiet .plain) noneFails)
          (fresh .plain .source .oneWay
            nestedDisk)).node.fileMap := by
  refine ⟨⟨?_, ?_, ?_⟩, ?_, ?_, ?_⟩
  · exact reports_pathStrings (by decide) (by decide)
  · decide +kernel
  · decide +kernel
  · exact reports_pathStrings (by decide) (by decide)
  · decide +kernel
  · decide +kernel

end ScanAgreement

end VeritasSync
