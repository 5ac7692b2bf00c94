import Mathlib.Logic.Function.Basic
import VeritasSync.Library.Transition
import VeritasSync.Sync.Protocol

/-
  The cache in front of the `files` table, used by several
  threads.  A database call is one step, and so is an access
  to the cache.

  Main declarations:
    * `Database`, `CachedFileStore`
    * `CachedFileStore.Event`, `CachedFileStore.step`
-/

namespace VeritasSync

/- The rows of `files` by path; also what the cache holds. -/
abbrev FileTable := String → Option FileMetadata

/- An update, or without a value a removal. -/
structure FileWrite where
  path : String
  value : Option FileMetadata
deriving DecidableEq

namespace FileWrite

def apply
    (table : FileTable)
    (w : FileWrite) : FileTable :=
  Function.update table w.path w.value

def applyAll
    (table : FileTable)
    (writes : List FileWrite) : FileTable :=
  writes.foldl apply table

end FileWrite

------------------------------------------------------------
-- The Database
------------------------------------------------------------

/-
  `saved` is the table that a rollback of the transaction
  under way brings back, and `owner` the thread that holds
  the recursive mutex across calls.
-/
structure Database where
  files : FileTable
  saved : Option FileTable
  owner : Option ℕ

namespace Database

variable
  (db : Database)

/- The mutex is free, or the thread has it already. -/
def admits (thread : ℕ) : Bool :=
  db.owner == none || db.owner == some thread

def write (w : FileWrite) : Database :=
  { db with files := w.apply db.files }

/- There are no transactions inside transactions. -/
def beginTransaction (ok : Bool) : Database :=
  if ok ∧ db.saved.isNone then
    { db with saved := some db.files }
  else
    db

/- Without a transaction there is nothing to commit. -/
def commitTransaction? (ok : Bool) : Option Database :=
  if ok ∧ db.saved.isSome then
    some { db with saved := none }
  else
    none

def rollbackTransaction : Database :=
  match db.saved with
  | none => db
  | some table => { db with files := table, saved := none }

/- The table without what is not committed. -/
def base : FileTable :=
  db.saved.getD db.files

end Database

------------------------------------------------------------
-- Threads
------------------------------------------------------------

/- `dbCommitted` is the flag of the guard inside this one. -/
structure CacheAwareGuard where
  localPendingOps : List FileWrite
  committed : Bool
  dbCommitted : Bool

/- What a thread is in the middle of. -/
inductive StorePhase where
| idle : StorePhase
| writing (w : FileWrite) : StorePhase
| committing : StorePhase
deriving DecidableEq

/-
  The guards of a thread, the innermost first.  While the
  thread is registered its writes are kept by that one.
-/
structure StoreThread where
  guards : List CacheAwareGuard
  registered : Bool
  phase : StorePhase

namespace StoreThread

def start : StoreThread := ⟨[], false, .idle⟩

end StoreThread

structure CachedFileStore where
  db : Database
  cache : FileTable
  threads : ℕ → StoreThread

namespace CachedFileStore

/- The cache has been loaded from the table. -/
def start (table : FileTable) : CachedFileStore where
  db := ⟨table, none, none⟩
  cache := table
  threads := fun _ => .start

section Operations

variable
  (s : CachedFileStore)
  (thread : ℕ)

def withThread (state : StoreThread) : CachedFileStore :=
  { s with
    threads := Function.update s.threads thread state }

/- A thread reads what it has written in its guard. -/
def get (path : String) : Option FileMetadata :=
  let own : Option FileWrite :=
    match s.threads thread with
    | ⟨guard :: _, true, _⟩ =>
        guard.localPendingOps.reverse.find?
          (fun w => w.path == path)
    | _ => none
  match own with
  | some w => w.value
  | none => s.cache path

/- The first half of `update` and `remove`. -/
def writeDb
    (w : FileWrite)
    (ok : Bool) : CachedFileStore :=
  if ok then
    { s with db := s.db.write w }.withThread thread
      { s.threads thread with phase := .writing w }
  else
    s

/- The second half, which a registered thread puts off. -/
def writeCache (w : FileWrite) : CachedFileStore :=
  match s.threads thread with
  | ⟨guard :: guards, true, _⟩ =>
      s.withThread thread
        ⟨{ guard with
            localPendingOps := guard.localPendingOps ++ [w]
          } :: guards, true, .idle⟩
  | state =>
      { s with cache := w.apply s.cache }.withThread thread
        { state with phase := .idle }

/- Whether the transaction has begun is not looked at. -/
def beginGuard (ok : Bool) : CachedFileStore :=
  let db := s.db.beginTransaction ok
  { s with db := { db with owner := some thread } }.withThread
    thread
    { s.threads thread with
      guards := ⟨[], false, false⟩ ::
        (s.threads thread).guards
      registered := true }

/- The first half of `commit`, when there is one. -/
def commitDb
    (guard : CacheAwareGuard)
    (guards : List CacheAwareGuard)
    (ok : Bool) : CachedFileStore :=
  if guard.committed then
    s
  else
    let committed :=
      if guard.dbCommitted then
        some s.db
      else
        s.db.commitTransaction? ok
    match committed with
    | none => s
    | some db =>
        { s with db := db }.withThread thread
          { s.threads thread with
            guards := { guard with dbCommitted := true } ::
              guards
            phase := .committing }

/-
  The second half.  The updates are moved into the cache;
  only the removals are still found in the guard.
-/
def commitCache
    (guard : CacheAwareGuard)
    (guards : List CacheAwareGuard) : CachedFileStore :=
  { s with
    cache := FileWrite.applyAll s.cache
      guard.localPendingOps
  }.withThread thread
    { s.threads thread with
      guards := { guard with
        localPendingOps := guard.localPendingOps.filter
          (fun w => w.value == none)
        committed := true } :: guards
      phase := .idle }

/- What is not committed is rolled back. -/
def dropGuard
    (guard : CacheAwareGuard)
    (guards : List CacheAwareGuard) : CachedFileStore :=
  let db :=
    if guard.dbCommitted then
      s.db
    else
      s.db.rollbackTransaction
  { s with
    db := { db with
      owner := if guards.isEmpty then none else db.owner }
  }.withThread thread
    { s.threads thread with
      guards := guards
      registered := false }

end Operations

------------------------------------------------------------
-- Steps
------------------------------------------------------------

/- Database calls may fail, and then they change nothing. -/
inductive Event where
| get (thread : ℕ) (path : String) : Event
| writeDb
    (thread : ℕ)
    (w : FileWrite)
    (ok : Bool) : Event
| writeCache (thread : ℕ) : Event
| beginGuard (thread : ℕ) (ok : Bool) : Event
| commitDb (thread : ℕ) (ok : Bool) : Event
| commitCache (thread : ℕ) : Event
| dropGuard (thread : ℕ) : Event

def step
    (s : CachedFileStore) : Event → Option CachedFileStore
| .get thread _ =>
    if (s.threads thread).phase = .idle then
      some s
    else
      none
| .writeDb thread w ok =>
    if (s.threads thread).phase = .idle ∧
        s.db.admits thread then
      some (s.writeDb thread w ok)
    else
      none
| .writeCache thread =>
    match (s.threads thread).phase with
    | .writing w => some (s.writeCache thread w)
    | _ => none
| .beginGuard thread ok =>
    if (s.threads thread).phase = .idle ∧
        s.db.admits thread then
      some (s.beginGuard thread ok)
    else
      none
| .commitDb thread ok =>
    match s.threads thread with
    | ⟨guard :: guards, _, .idle⟩ =>
        some (s.commitDb thread guard guards ok)
    | _ => none
| .commitCache thread =>
    match s.threads thread with
    | ⟨guard :: guards, _, .committing⟩ =>
        some (s.commitCache thread guard guards)
    | _ => none
| .dropGuard thread =>
    match s.threads thread with
    | ⟨guard :: guards, _, .idle⟩ =>
        some (s.dropGuard thread guard guards)
    | _ => none

/- No operation and no guard is in progress. -/
def AtRest (s : CachedFileStore) : Prop :=
  ∀ thread, (s.threads thread).phase = .idle ∧
    (s.threads thread).guards = []

/- The cache has exactly what the table has. -/
def Coherent (s : CachedFileStore) : Prop :=
  ∀ path, s.cache path = s.db.files path

end CachedFileStore

end VeritasSync
