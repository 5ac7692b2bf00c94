import VeritasSync.Common.Json
import VeritasSync.Host

/-
  The records and messages that peers exchange.

  A message arrives as parsed JSON.  Reading a field follows
  the JSON library: a missing field takes its default, and a
  field of the wrong type throws, which is `none` here.

  Key definitions include:
    * `FileInfo`, `SyncHistory`, `FileMetadata`
    * `FileInfo.ofJson`
-/

namespace VeritasSync

------------------------------------------------------------
-- Records
------------------------------------------------------------

inductive SyncRole where
| source
| destination
deriving DecidableEq, Repr

inductive SyncMode where
| oneWay
| biDirectional
deriving DecidableEq, Repr

/- One file of a snapshot. -/
structure FileInfo where
  path : String
  hash : String
  modifiedTime : ℕ
  size : ℕ
deriving DecidableEq, Repr

/- The digest last agreed on with one peer for one path. -/
structure SyncHistory where
  hash : String
  ts : ℕ
deriving DecidableEq, Repr

/- One row of the `files` table. -/
structure FileMetadata where
  hash : String
  mtime : Int
deriving DecidableEq, Repr

/-
  A `request_file` payload.  A resumed download also names
  its first missing chunk and the announced digest and size.
-/
structure FileRequest where
  path : String
  resume : Option (ℕ × String × ℕ)
deriving DecidableEq, Repr

------------------------------------------------------------
-- Snapshot Entries
------------------------------------------------------------

namespace FileInfo

/- Read one entry of a `files` array. -/
def ofJson (json : Json) : Option FileInfo := do
  let path ← json.strD "path"
  let mtime ← json.uint64D "mtime"
  let hash ← json.strD "hash"
  let size ← json.uint64D "size"
  return ⟨path, hash, mtime, size⟩

/- Read a `files` array; entries without a path go. -/
def listOfJson (files : Json) : Option (List FileInfo) := do
  let infos ← files.items.mapM ofJson
  return infos.filter (fun info => !info.path.isEmpty)

end FileInfo

/- Read the snapshot of a `share_state` payload. -/
def parseShareState
    (payload : Json) :
    Option (List FileInfo × List String) := do
  let files ←
    match payload.find? "files" with
    | none => some []
    | some files => FileInfo.listOfJson files
  let dirs ← payload.strings "directories"
  return (files, dirs)

end VeritasSync
