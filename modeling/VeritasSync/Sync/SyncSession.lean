import VeritasSync.Sync.SyncHandler

/-
  The arrival of messages from one connected peer: which
  tasks a handler posts to the worker pool, and how the
  announced snapshot of a flood is gathered until its
  completion is posted.

  Main declarations:
    * `FloodSyncAccumulator`, `PeerSession`
    * `SyncHandler.checkAndRunCompletion`
    * `SyncSession.handleSyncBegin`
    * `MessageRouter.dispatch`
-/

namespace VeritasSync

------------------------------------------------------------
-- Messages And Sessions
------------------------------------------------------------

/-
  The messages that only a receiving node handles, with
  their payloads read.
-/
inductive Message where
| shareState : List FileInfo → List String → Message
| dirCreate : String → Message
| dirDelete : String → Message
| fileUpdateBatch : List FileInfo → Message
| fileDeleteBatch : List String → Message
| dirBatch : List String → List String → Message
| syncBegin : ℕ → ℕ → ℕ → Message
deriving DecidableEq, Repr

/- The remote entries gathered during one flood. -/
structure FloodSyncAccumulator where
  sessionId : ℕ
  remoteFiles : List FileInfo
  remoteDirs : List String
  expectedFiles : ℕ
  expectedDirs : ℕ
  receivedFiles : ℕ
  receivedDirs : ℕ
  completed : Bool
deriving DecidableEq, Repr

/-
  What a node keeps for one connected peer.  `posted` lists
  the tasks handed to the worker pool, oldest first.
-/
structure PeerSession where
  role : SyncRole
  mode : SyncMode
  offerSide : Bool
  sessionId : ℕ
  accumulator : Option FloodSyncAccumulator
  posted : List SyncHandler.Task
deriving DecidableEq, Repr

namespace PeerSession

/- A connection on which nothing happened yet. -/
def fresh
    (role : SyncRole)
    (mode : SyncMode)
    (offerSide : Bool) : PeerSession where
  role := role
  mode := mode
  offerSide := offerSide
  sessionId := 0
  accumulator := none
  posted := []

def post
    (task : SyncHandler.Task)
    (p : PeerSession) : PeerSession :=
  { p with posted := p.posted ++ [task] }

end PeerSession

def canReceive
    (role : SyncRole)
    (mode : SyncMode) : Bool :=
  role == .destination || mode == .biDirectional

------------------------------------------------------------
-- The Accumulator
------------------------------------------------------------

namespace SyncHandler

/-
  Once both counters reach the announced totals, the
  accumulator goes and its completion is posted.
-/
def checkAndRunCompletion (p : PeerSession) : PeerSession :=
  match p.accumulator with
  | none => p
  | some acc =>
      if acc.completed then
        p
      else if acc.receivedFiles < acc.expectedFiles then
        p
      else if acc.receivedDirs < acc.expectedDirs then
        p
      else
        { p with accumulator := none }.post
          (.floodComplete acc.remoteFiles acc.remoteDirs)

/- Nothing more arrives for an empty snapshot. -/
def beginFloodSyncAccumulation
    (sessionId expectedFiles expectedDirs : ℕ)
    (p : PeerSession) : PeerSession :=
  let p := { p with
    accumulator := some
      { sessionId := sessionId
        remoteFiles := []
        remoteDirs := []
        expectedFiles := expectedFiles
        expectedDirs := expectedDirs
        receivedFiles := 0
        receivedDirs := 0
        completed := false } }
  if expectedFiles = 0 ∧ expectedDirs = 0 then
    checkAndRunCompletion p
  else
    p

/-
  Entries count while an accumulator of the peer's present
  session is open, whoever on the peer's side sent them.
-/
def accumulate
    (update : FloodSyncAccumulator → FloodSyncAccumulator)
    (p : PeerSession) : PeerSession :=
  match p.accumulator with
  | none => p
  | some acc =>
      if p.sessionId ≠ 0 ∧ acc.sessionId = p.sessionId then
        { p with accumulator := some (update acc) }
      else
        p

def addFiles
    (files : List FileInfo)
    (acc : FloodSyncAccumulator) : FloodSyncAccumulator :=
  { acc with
    remoteFiles := acc.remoteFiles ++ files
    receivedFiles := acc.receivedFiles + files.length }

/- Deletes count, but only creates are gathered. -/
def addDirs
    (creates deletes : List String)
    (acc : FloodSyncAccumulator) : FloodSyncAccumulator :=
  { acc with
    remoteDirs := creates.foldl
      (fun dirs dir => dirs.insert dir) acc.remoteDirs
    receivedDirs :=
      acc.receivedDirs + (creates.length + deletes.length) }

/- Outside a session nothing can have completed. -/
def checkInSession (p : PeerSession) : PeerSession :=
  if p.sessionId ≠ 0 then
    checkAndRunCompletion p
  else
    p

------------------------------------------------------------
-- Handlers
------------------------------------------------------------

/- Reading the payload drops entries without a path. -/
def namedFiles (files : List FileInfo) : List FileInfo :=
  files.filter (fun info => !info.path.isEmpty)

def handleFileUpdateBatch
    (files : List FileInfo)
    (p : PeerSession) : PeerSession :=
  let files := namedFiles files
  checkInSession
    ((accumulate (addFiles files) p).post
      (.updateBatch files))

def handleDirBatch
    (creates deletes : List String)
    (p : PeerSession) : PeerSession :=
  checkInSession
    ((accumulate (addDirs creates deletes) p).post
      (.dirBatch creates deletes))

end SyncHandler

namespace SyncSession

open SyncHandler

/-
  While a flood of our own is under way, the offering side
  ignores the one the peer begins.
-/
def handleSyncBegin
    (sessionId fileCount dirCount : ℕ)
    (p : PeerSession) : PeerSession :=
  if p.sessionId ≠ 0 ∧ p.offerSide = true then
    p
  else
    beginFloodSyncAccumulation sessionId fileCount dirCount
      { p with sessionId := sessionId }

end SyncSession

namespace MessageRouter

open SyncHandler SyncSession

/- Route one message to its handler. -/
def dispatch
    (p : PeerSession)
    (message : Message) : PeerSession :=
  if canReceive p.role p.mode then
    match message with
    | .shareState files dirs =>
        p.post (.shareState (namedFiles files) dirs)
    | .dirCreate path => p.post (.createDir path)
    | .dirDelete path => p.post (.deleteDir path)
    | .fileUpdateBatch files =>
        handleFileUpdateBatch files p
    | .fileDeleteBatch paths => p.post (.deleteBatch paths)
    | .dirBatch creates deletes =>
        handleDirBatch creates deletes p
    | .syncBegin sessionId fileCount dirCount =>
        handleSyncBegin sessionId fileCount dirCount p
  else
    p

end MessageRouter

end VeritasSync
