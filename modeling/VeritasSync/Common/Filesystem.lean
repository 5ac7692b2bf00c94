import VeritasSync.Host

/-
  The standard library's file system calls, on the host's
  disk.  A call that reports an error code is `none` here.

  Main declarations:
    * `Filesystem.createDirectories`
    * `Filesystem.remove`, `Filesystem.removeAll`
    * `Filesystem.rename`, `Filesystem.copyFile`
    * `Filesystem.stem`, `Filesystem.extension`
-/

namespace VeritasSync

namespace Filesystem

------------------------------------------------------------
-- Creating And Removing
------------------------------------------------------------

def exists?
    (disk : Disk)
    (loc : Loc) : Bool :=
  (disk.lookup loc).isSome

def createDirectories
    (H : Host)
    (disk : Disk)
    (loc : Loc) : Option Disk :=
  if H.createFails loc then
    none
  else
    FileTree.createDirectories disk loc

/- Remove a regular file or an empty directory. -/
def remove
    (H : Host)
    (disk : Disk)
    (loc : Loc) : Option Disk :=
  if H.removeFails loc then
    none
  else
    FileTree.remove disk loc

/- A node that stays keeps the directories above it. -/
def survivor
    (H : Host)
    (disk : Disk)
    (top loc : Loc) : Bool :=
  H.survives top loc ||
    (disk.lookup loc == some .dir &&
      disk.keys.any (fun below =>
        loc <+: below && H.survives top below))

def removeAll
    (H : Host)
    (disk : Disk)
    (top : Loc) : Disk :=
  FileTree.removeAll (survivor H disk top) disk top

/- A recursive removal reports an error. -/
def removeAllFails
    (H : Host)
    (disk : Disk)
    (top : Loc) : Bool :=
  (disk.lookup top).isSome && survivor H disk top top

theorem survivor_of_file
    {H : Host}
    {disk : Disk}
    {top loc : Loc}
    {file : File}
    (hFile : disk.lookup loc = some (.file file)) :
    survivor H disk top loc = H.survives top loc := by
  simp [survivor, hFile]

theorem lookup_createDirectories
    {H : Host}
    {disk disk' : Disk}
    {loc : Loc}
    (hCreate : createDirectories H disk loc = some disk')
    (key : Loc) :
    disk'.lookup key =
      if key <+: loc ∧ disk.lookup key = none then
        some .dir
      else
        disk.lookup key := by
  unfold createDirectories at hCreate
  split at hCreate
  · cases hCreate
  · exact FileTree.lookup_createDirectories hCreate key

/- What decides whether directories can be created. -/
theorem createDirectories_eq_none_congr
    {H : Host}
    {disk disk' : Disk}
    {loc : Loc}
    (hAbove : ∀ key, key <+: loc →
      disk'.lookup key = disk.lookup key) :
    createDirectories H disk' loc = none ↔
      createDirectories H disk loc = none := by
  unfold createDirectories FileTree.createDirectories
  rw [FileTree.blocked_congr hAbove]
  by_cases hFails : H.createFails loc = true
  · simp [hFails]
  · cases FileTree.blocked disk loc with
    | true => simp [hFails]
    | false => simp [hFails]

theorem lookup_remove
    {H : Host}
    {disk disk' : Disk}
    {loc : Loc}
    (hRemove : remove H disk loc = some disk')
    (key : Loc) :
    disk'.lookup key =
      if key = loc then none else disk.lookup key := by
  unfold remove at hRemove
  split at hRemove
  · cases hRemove
  · exact FileTree.lookup_remove hRemove key

/- Only an existing node can be removed. -/
theorem lookup_ne_none_of_remove
    {H : Host}
    {disk disk' : Disk}
    {loc : Loc}
    (hRemove : remove H disk loc = some disk') :
    disk.lookup loc ≠ none := by
  intro hNone
  simp [remove, FileTree.remove, hNone] at hRemove

theorem lookup_removeAll
    (H : Host)
    (disk : Disk)
    (top key : Loc) :
    (removeAll H disk top).lookup key =
      if top <+: key ∧ survivor H disk top key = false then
        none
      else
        disk.lookup key :=
  FileTree.lookup_removeAll _ disk top key

------------------------------------------------------------
-- Moving And Copying
------------------------------------------------------------

/-
  A rename is possible when the source exists, the target's
  parent is a directory and the target is not below the
  source; a file replaces a file and a directory replaces
  an empty directory.
-/
def renamePossible
    (disk : Disk)
    (source target : Loc) : Bool :=
  disk.lookup target.dropLast == some .dir &&
    !(source <+: target && source != target) &&
    match disk.lookup source, disk.lookup target with
    | none, _ => false
    | some _, none => true
    | some (.file _), some (.file _) => true
    | some .dir, some .dir =>
        source == target || !FileTree.hasChild disk target
    | some _, some _ => false

def rename
    (H : Host)
    (disk : Disk)
    (source target : Loc) : Option Disk :=
  if H.renameFails source target then
    none
  else if renamePossible disk source target then
    some (FileTree.rename source target disk)
  else
    none

/- Write a regular file at a location. -/
def writeFile
    (H : Host)
    (disk : Disk)
    (loc : Loc)
    (content : Content) : Disk :=
  disk.insert loc (.file ⟨content, H.now⟩)

/- A regular file can be created or overwritten there. -/
def writable
    (disk : Disk)
    (loc : Loc) : Bool :=
  disk.lookup loc.dropLast == some .dir &&
    disk.lookup loc != some .dir

/-
  Copy a regular file, overwriting the target.  The second
  component tells whether the call succeeded; a failed copy
  may leave part of the content behind.
-/
def copyFile
    (H : Host)
    (disk : Disk)
    (source target : Loc) : Disk × Bool :=
  match disk.payload? source with
  | none => (disk, false)
  | some file =>
      if !writable disk target then
        (disk, false)
      else if H.copyFails source target then
        match H.partialCopy source target with
        | none => (disk, false)
        | some content =>
            (writeFile H disk target content, false)
      else
        (writeFile H disk target file.content, true)

/- A copy that succeeded wrote the source's bytes. -/
theorem exists_of_copyFile
    {H : Host}
    {disk : Disk}
    {source target : Loc}
    (hCopied : (copyFile H disk source target).2 = true) :
    ∃ file, disk.payload? source = some file ∧
      (copyFile H disk source target).1 =
        writeFile H disk target file.content := by
  unfold copyFile at hCopied ⊢
  cases hSource : disk.payload? source with
  | none =>
      rw [hSource] at hCopied
      cases hCopied
  | some file =>
      rw [hSource] at hCopied
      dsimp only at hCopied ⊢
      by_cases hWritable : (!writable disk target) = true
      · rw [if_pos hWritable] at hCopied
        cases hCopied
      · rw [if_neg hWritable] at hCopied ⊢
        by_cases hFails : H.copyFails source target = true
        · rw [if_pos hFails] at hCopied
          split at hCopied <;> cases hCopied
        · rw [if_neg hFails]
          exact ⟨file, rfl, rfl⟩

theorem rename_eq_some
    {H : Host}
    {disk disk' : Disk}
    {source target : Loc}
    (hRename : rename H disk source target = some disk') :
    renamePossible disk source target = true ∧
      disk' = FileTree.rename source target disk := by
  unfold rename at hRename
  split at hRename
  · cases hRename
  · split at hRename
    next hPossible =>
      exact ⟨hPossible, (Option.some.inj hRename).symm⟩
    next => cases hRename

/- What decides whether a rename works. -/
theorem rename_isSome_congr
    {H : Host}
    {disk disk' : Disk}
    {source target : Loc}
    (hSource : disk'.lookup source = disk.lookup source)
    (hParent : disk'.lookup target.dropLast =
      disk.lookup target.dropLast)
    (hTarget : ∀ key, target <+: key →
      disk'.lookup key = disk.lookup key) :
    (rename H disk' source target).isSome =
      (rename H disk source target).isSome := by
  have hPossible :
      renamePossible disk' source target =
        renamePossible disk source target := by
    unfold renamePossible
    rw [hSource, hParent, hTarget target (List.prefix_refl _),
      FileTree.hasChild_congr hTarget]
  unfold rename
  rw [hPossible]
  by_cases hFails : H.renameFails source target = true
  · simp [hFails]
  · by_cases hMove : renamePossible disk source target = true
    · simp [hFails, hMove]
    · simp [hFails, hMove]

/- The moved node is found at the target. -/
theorem lookup_rename_target
    {H : Host}
    {disk disk' : Disk}
    {source target : Loc}
    (hRename : rename H disk source target = some disk') :
    disk'.lookup target = disk.lookup source := by
  rw [(rename_eq_some hRename).2]
  exact FileTree.lookup_rename_target source target disk

theorem lookup_rename
    {H : Host}
    {disk disk' : Disk}
    {source target : Loc}
    (hRename : rename H disk source target = some disk')
    (key : Loc) :
    disk'.lookup key =
      if target <+: key then
        disk.lookup (FileTree.rebase target source key)
      else if source <+: key then
        none
      else
        disk.lookup key := by
  rw [(rename_eq_some hRename).2]
  exact FileTree.lookup_rename source target disk key

@[simp] theorem lookup_writeFile
    (H : Host)
    (disk : Disk)
    (loc key : Loc)
    (content : Content) :
    (writeFile H disk loc content).lookup key =
      if key = loc then
        some (.file ⟨content, H.now⟩)
      else
        disk.lookup key := by
  unfold writeFile
  by_cases hKey : key = loc
  · subst hKey
    simp
  · rw [if_neg hKey]
    exact AList.lookup_insert_ne hKey

------------------------------------------------------------
-- Names
------------------------------------------------------------

/- The text of a path up to its last separator. -/
def parentText (path : String) : String :=
  String.ofList
    (path.toList.reverse.dropWhile (· != '/')).reverse

/- The text of a path after its last separator. -/
def filename (path : String) : String :=
  String.ofList
    (path.toList.reverse.takeWhile (· != '/')).reverse

/-
  A file name's last dot begins its extension, unless the
  name begins there or is one of the two special names.
-/
def extension (name : String) : String :=
  let dotted := name.toList.reverse.takeWhile (· != '.')
  if name = "." ∨ name = ".." ∨
      dotted.length + 1 ≥ name.toList.length then
    ""
  else
    String.ofList ('.' :: dotted.reverse)

def stem (name : String) : String :=
  String.ofList
    (name.toList.take
      (name.toList.length - (extension name).toList.length))

example :
    stem "a.b.txt" = "a.b" ∧ extension "a.b.txt" = ".txt" ∧
      extension ".profile" = "" ∧ stem "x" = "x" := by
  decide

end Filesystem

end VeritasSync
