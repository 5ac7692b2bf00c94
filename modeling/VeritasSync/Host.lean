import Mathlib.Data.Nat.Notation
import VeritasSync.Library.FileTree

/-
  The machine the program runs on: its file tree, the way it
  resolves paths, the digest function, its clock, and the
  operations it may refuse.

  Paths below the sync root are strings, as in the program.
  `Host.locate` is the place where `root / path` ends up
  once the host has resolved dots and symbolic links.

  Key definitions include:
    * `Digest`
    * `Host`, `Host.locate`, `Host.during`
    * `Disk`, `calculateSHA256`
-/

namespace VeritasSync

------------------------------------------------------------
-- Digests
------------------------------------------------------------

/- The bytes of a file. -/
abbrev Content := List UInt8

/-
  A file digest in hexadecimal.  It is never the empty
  string, which the program uses for a failed computation,
  and it tells some contents apart.
-/
structure Digest where
  hash : Content → String
  hash_ne_empty : ∀ content, hash content ≠ ""
  nonconstant : ∀ value, ∃ content, hash content ≠ value

namespace Digest

/- SHA-256 of the few contents that the examples use. -/
def sampleHash : Content → String
| [] =>
    "e3b0c44298fc1c149afbf4c8996fb924" ++
      "27ae41e4649b934ca495991b7852b855"
| [97] =>
    "ca978112ca1bbdcafac231b39a23dc4d" ++
      "a786eff8147c4e72b9807785afee48bb"
| [98] =>
    "3e23e8160039594a33894f6564e1b134" ++
      "8bbd7a0088d42c4acb73eeaed59c009d"
| _ =>
    "2e7d2c03a9507ae265ecf5b5356885a5" ++
      "3393a2029d241394997265a1a25aefc6"

def sample : Digest where
  hash := sampleHash
  hash_ne_empty := by
    intro content
    unfold sampleHash
    split <;> decide
  nonconstant := by
    intro value
    by_cases hEmpty : sampleHash [] = value
    · refine ⟨[97], ?_⟩
      rw [← hEmpty]
      decide
    · exact ⟨[], hEmpty⟩

end Digest

------------------------------------------------------------
-- Locations
------------------------------------------------------------

/- An absolute location: the names from the top. -/
abbrev Loc := List String

/- The names in a path string, without empty ones. -/
def components (path : String) : List String :=
  ((path.toList.splitOn '/').filter
    (fun name => !name.isEmpty)).map String.ofList

/- A path string names an absolute path. -/
def isAbsolute (path : String) : Bool :=
  path.toList.head? == some '/'

/- The text of an absolute location. -/
def pathString : Loc → String
| [] => "/"
| names =>
    String.join (names.map (fun name => "/" ++ name))

------------------------------------------------------------
-- The Host
------------------------------------------------------------

/-
  What can go wrong, entry by entry, while the program walks
  the sync root, and which paths the loaded rules ignore.
-/
structure ScanConditions where
  ignores : String → Bool
  walkFails : Bool
  relativeFails : Loc → Bool
  fileCheckFails : Loc → Bool
  dirCheckFails : Loc → Bool
  mtimeFails : Loc → Bool
  sizeFails : Loc → Bool
  hashFails : Loc → Bool

namespace ScanConditions

/- No rule ignores anything and no call fails. -/
def plain : ScanConditions where
  ignores := fun _ => false
  walkFails := false
  relativeFails := fun _ => false
  fileCheckFails := fun _ => false
  dirCheckFails := fun _ => false
  mtimeFails := fun _ => false
  sizeFails := fun _ => false
  hashFails := fun _ => false

end ScanConditions

/-
  The host's fixed behaviour while one task runs.

  `follow` sends the location of a symbolic link to where
  the link leads and fixes every other location.  The
  `Fails` fields are the operations that the host refuses;
  `survives top` tells which nodes a recursive removal of
  `top` cannot remove, and `partialCopy` what a failed copy
  leaves at its target.
-/
structure Host where
  root : Loc
  follow : Loc → Loc
  digest : Digest
  now : ℕ
  canonicalFails : String → Bool
  openFails : Loc → Bool
  createFails : Loc → Bool
  removeFails : Loc → Bool
  renameFails : Loc → Loc → Bool
  writeFails : Loc → Bool
  copyFails : Loc → Loc → Bool
  partialCopy : Loc → Loc → Option Content
  survives : Loc → Loc → Bool
  scan : ScanConditions

namespace Host

/- Resolve one more name from a resolved location. -/
def enter
    (H : Host)
    (loc : Loc)
    (name : String) : Loc :=
  if name = "." then
    loc
  else if name = ".." then
    loc.dropLast
  else
    H.follow (loc ++ [name])

/- Where `root / path` resolves to. -/
def locate
    (H : Host)
    (path : String) : Loc :=
  (components path).foldl H.enter
    (if isAbsolute path then [] else H.root)

/-
  The path string of a resolved location below the root; one
  outside has that of `StateManager.relativeTo`.
-/
def relative
    (H : Host)
    (loc : Loc) : String :=
  "/".intercalate (loc.drop H.root.length)

/- A location at or below the sync root. -/
def Inside
    (H : Host)
    (loc : Loc) : Prop :=
  H.root <+: loc

instance
    (H : Host)
    (loc : Loc) :
    Decidable (H.Inside loc) := by
  unfold Inside
  infer_instance

/-
  A host that refuses nothing, has no symbolic links, and
  syncs the directory `/r`.
-/
def plain : Host where
  root := ["r"]
  follow := id
  digest := Digest.sample
  now := 0
  canonicalFails := fun _ => false
  openFails := fun _ => false
  createFails := fun _ => false
  removeFails := fun _ => false
  renameFails := fun _ _ => false
  writeFails := fun _ => false
  copyFails := fun _ _ => false
  partialCopy := fun _ _ => none
  survives := fun _ _ => false
  scan := ScanConditions.plain

end Host

/-
  What a host refuses for a while, and its clock: calls that
  went through may fail later, and the other way round.
-/
structure Refusals where
  now : ℕ
  openFails : Loc → Bool
  createFails : Loc → Bool
  removeFails : Loc → Bool
  writeFails : Loc → Bool
  renameFails : Loc → Loc → Bool
  copyFails : Loc → Loc → Bool
  partialCopy : Loc → Loc → Option Content

namespace Refusals

def none : Refusals where
  now := 0
  openFails := fun _ => false
  createFails := fun _ => false
  removeFails := fun _ => false
  writeFails := fun _ => false
  renameFails := fun _ _ => false
  copyFails := fun _ _ => false
  partialCopy := fun _ _ => Option.none

end Refusals

namespace Host

/- The host while it refuses other calls. -/
def during
    (H : Host)
    (refusals : Refusals) : Host :=
  { H with
    now := refusals.now
    openFails := refusals.openFails
    createFails := refusals.createFails
    removeFails := refusals.removeFails
    writeFails := refusals.writeFails
    renameFails := refusals.renameFails
    copyFails := refusals.copyFails
    partialCopy := refusals.partialCopy }

/- Refusals move nothing. -/
@[simp] theorem locate_during
    (H : Host)
    (refusals : Refusals)
    (path : String) :
    (H.during refusals).locate path = H.locate path := rfl

end Host

------------------------------------------------------------
-- The Disk
------------------------------------------------------------

/- A regular file: its bytes and its modification time. -/
structure File where
  content : Content
  mtime : Int
deriving DecidableEq, Repr

abbrev Disk := FileTree String File

/-
  The hexadecimal digest of the file at a location, or the
  empty string when there is no regular file there or it
  cannot be opened.
-/
def calculateSHA256
    (H : Host)
    (disk : Disk)
    (loc : Loc) : String :=
  match disk.payload? loc with
  | none => ""
  | some file =>
      if H.openFails loc then
        ""
      else
        H.digest.hash file.content

/- A digest that was computed is the digest of a file. -/
theorem exists_file_of_calculateSHA256_ne_empty
    {H : Host}
    {disk : Disk}
    {loc : Loc}
    (hHash : calculateSHA256 H disk loc ≠ "") :
    ∃ file,
      disk.lookup loc = some (.file file) ∧
        calculateSHA256 H disk loc =
          H.digest.hash file.content := by
  unfold calculateSHA256 at hHash ⊢
  cases hFile : disk.payload? loc with
  | none => simp [hFile] at hHash
  | some file =>
      refine ⟨file,
        (FileTree.payload?_eq_some_iff _ _ _).mp hFile, ?_⟩
      by_cases hOpen : H.openFails loc
      · simp [hFile, hOpen] at hHash
      · simp [hOpen]

theorem calculateSHA256_eq_of_ne_empty
    {H : Host}
    {disk : Disk}
    {loc : Loc}
    {file : File}
    (hFile : disk.lookup loc = some (.file file))
    (hHash : calculateSHA256 H disk loc ≠ "") :
    calculateSHA256 H disk loc =
      H.digest.hash file.content := by
  rcases exists_file_of_calculateSHA256_ne_empty hHash with
    ⟨file', hFile', hEq⟩
  rw [hFile] at hFile'
  cases hFile'
  exact hEq

theorem calculateSHA256_congr
    (H : Host)
    {disk disk' : Disk}
    {loc : Loc}
    (hLookup : disk.lookup loc = disk'.lookup loc) :
    calculateSHA256 H disk loc =
      calculateSHA256 H disk' loc := by
  unfold calculateSHA256
  rw [FileTree.payload?_congr hLookup]

/- The digest of a readable regular file. -/
theorem calculateSHA256_of_file
    {H : Host}
    {disk : Disk}
    {loc : Loc}
    {file : File}
    (hFile : disk.lookup loc = some (.file file))
    (hOpen : H.openFails loc = false) :
    calculateSHA256 H disk loc =
      H.digest.hash file.content := by
  unfold calculateSHA256
  rw [(FileTree.payload?_eq_some_iff _ _ _).mpr hFile]
  simp [hOpen]

end VeritasSync
