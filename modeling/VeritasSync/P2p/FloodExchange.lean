import VeritasSync.Library.Transition
import VeritasSync.P2p.BroadcastManager

/-
  Two connected peers that flood each other: the session id
  that both directions share, the paced sending of a flood,
  the receiver's timeout, and the acknowledgement that asks
  for the flood to be sent again.

  Main declarations:
    * `PeerController.Side`
    * `BroadcastManager.runFloodTask`
    * `SyncSession.receive`, `SyncSession.fireTimeout`
    * `FloodExchange.Exchange`, `FloodExchange.step`
-/

namespace VeritasSync

------------------------------------------------------------
-- One Side Of The Connection
------------------------------------------------------------

namespace PeerController

/- The next task of a flood, with the flood's session id. -/
inductive FloodTask where
| scan : ℕ → FloodTask
| announce : ℕ → List FileInfo → List String → FloodTask
| send : ℕ → List FileInfo → ℕ → FloodTask
deriving DecidableEq, Repr

/-
  What one peer keeps for the other.  `timer` is the session
  whose timeout is waiting, `fired` are expired timeouts that
  are still to run, `refreshes` are the postponed extensions,
  and `tasks` the posted parts of floods.
-/
structure Side where
  session : PeerSession
  connected : Bool
  expectedFiles : ℕ
  expectedDirs : ℕ
  receivedFiles : ℕ
  receivedDirs : ℕ
  timer : Option ℕ
  fired : List ℕ
  refreshes : List ℕ
  tasks : List FloodTask
deriving DecidableEq, Repr

namespace Side

def fresh
    (role : SyncRole)
    (mode : SyncMode)
    (offerSide : Bool) : Side where
  session := PeerSession.fresh role mode offerSide
  connected := false
  expectedFiles := 0
  expectedDirs := 0
  receivedFiles := 0
  receivedDirs := 0
  timer := none
  fired := []
  refreshes := []
  tasks := []

def syncSessionId (side : Side) : ℕ :=
  side.session.sessionId

def setSyncSessionId
    (id : ℕ)
    (side : Side) : Side :=
  { side with session := { side.session with
      sessionId := id } }

def post
    (task : FloodTask)
    (side : Side) : Side :=
  { side with tasks := side.tasks ++ [task] }

end Side

end PeerController

open PeerController

------------------------------------------------------------
-- Sending A Flood
------------------------------------------------------------

/- What a scan of one side finds. -/
structure Snapshot where
  files : List FileInfo
  dirs : List String
deriving DecidableEq, Repr

namespace BroadcastManager

/- One batch of the files to announce. -/
def fileBatch
    (files : List FileInfo)
    (index : ℕ) : List FileInfo :=
  (files.drop (index * fileUpdateBatchSize)).take
    fileUpdateBatchSize

def totalBatches (files : List FileInfo) : ℕ :=
  (files.length + fileUpdateBatchSize - 1) /
    fileUpdateBatchSize

/- Schedule one more batch while the session is the same. -/
def paceAndSendFileBatches
    (side : Side)
    (id : ℕ)
    (files : List FileInfo)
    (index : ℕ) : List FloodTask :=
  if index ≥ totalBatches files then
    []
  else if side.syncSessionId ≠ id then
    []
  else
    [.send id files index]

/-
  Run one posted part of a flood: what it sends, and what it
  posts next.  `found` is what a scan finds.
-/
def runFloodTask
    (found : Snapshot)
    (side : Side) :
    FloodTask → List Message × List FloodTask
| .scan id =>
    if side.syncSessionId ≠ id then
      ([], [])
    else if found.files.isEmpty && found.dirs.isEmpty then
      ([], [])
    else
      ([], [.announce id found.files found.dirs])
| .announce id files dirs =>
    (.syncBegin id files.length dirs.length ::
        (broadcastDirChangesBatch dirs []).map Batch.message,
      paceAndSendFileBatches side id files 0)
| .send id files index =>
    if side.syncSessionId ≠ id then
      ([], [])
    else
      ([.fileUpdateBatch (fileBatch files index)],
        paceAndSendFileBatches side id files (index + 1))

end BroadcastManager

------------------------------------------------------------
-- Receiving And Timing Out
------------------------------------------------------------

namespace SyncSession

open SyncHandler

/- Put off the timeout of the present session. -/
def refreshPeerTimeout (side : Side) : Side :=
  { side with
    refreshes := side.refreshes ++ [side.syncSessionId] }

def countFiles
    (count : ℕ)
    (side : Side) : Side :=
  refreshPeerTimeout
    { side with receivedFiles := side.receivedFiles + count }

def countDirs
    (count : ℕ)
    (side : Side) : Side :=
  refreshPeerTimeout
    { side with receivedDirs := side.receivedDirs + count }

/- The offering side keeps to its own session. -/
def ignoresSyncBegin (side : Side) : Bool :=
  side.syncSessionId ≠ 0 && side.session.offerSide

/-
  Handle one message: count its entries, and start counting
  anew when a flood is announced.
-/
def receive
    (side : Side)
    (message : Message) : Side :=
  if !canReceive side.session.role side.session.mode then
    side
  else
    let session :=
      MessageRouter.dispatch side.session message
    match message with
    | .syncBegin id fileCount dirCount =>
        if ignoresSyncBegin side then
          side
        else
          { side with
            session := session
            expectedFiles := fileCount
            expectedDirs := dirCount
            receivedFiles := 0
            receivedDirs := 0
            timer := some id }
    | .fileUpdateBatch files =>
        countFiles (namedFiles files).length
          { side with session := session }
    | .fileDeleteBatch paths =>
        countFiles paths.length
          { side with session := session }
    | .dirBatch creates deletes =>
        countDirs (creates.length + deletes.length)
          { side with session := session }
    | .dirCreate _ =>
        countDirs 1 { side with session := session }
    | .dirDelete _ =>
        countDirs 1 { side with session := session }
    | .shareState _ _ => { side with session := session }

/-
  Run a postponed extension.  Moving the expiry of a timer
  cancels the wait on it, and nothing waits again.  A timeout
  that has already expired is not taken back.
-/
def runRefresh
    (id : ℕ)
    (side : Side) : Side :=
  if side.syncSessionId = id then
    { side with timer := none }
  else
    side

/- An acknowledgement of a session. -/
structure Ack where
  sessionId : ℕ
  receivedFiles : ℕ
  receivedDirs : ℕ
deriving DecidableEq, Repr

/- The timeout of a session that is still the present one. -/
def fireTimeout
    (id : ℕ)
    (side : Side) : Option Ack × Side :=
  if side.syncSessionId ≠ id then
    (none, side)
  else
    (some ⟨id, side.receivedFiles, side.receivedDirs⟩,
      side.setSyncSessionId 0)

/-
  An acknowledgement of the present session starts another
  flood under a new id.  The flag tells whether it did.
-/
def handleSyncAck
    (ack : Ack)
    (newId : ℕ)
    (side : Side) : Bool × Side :=
  if ack.sessionId ≠ side.syncSessionId then
    (false, side)
  else
    (true, (side.setSyncSessionId newId).post (.scan newId))

end SyncSession

------------------------------------------------------------
-- The Exchange
------------------------------------------------------------

namespace FloodExchange

open BroadcastManager SyncSession

inductive Wire where
| message : Message → Wire
| ack : Ack → Wire
deriving DecidableEq, Repr

/- A flood that an acknowledgement started again. -/
structure Resync where
  sender : Bool
  ack : Ack
deriving DecidableEq, Repr

/-
  Both sides, the ordered channel to each of them, all that
  was ever sent to each of them, and the resyncs so far.
  `true` is the offering side.
-/
structure Exchange where
  side : Bool → Side
  channel : Bool → List Wire
  sent : Bool → List Message
  resyncs : List Resync

/-
  `deliver` names the id that a resync would get, and `run`
  which task is run and what a scan would find.
-/
inductive Event where
| connect : Bool → ℕ → Event
| reconcile : Bool → ℕ → Event
| run : Bool → ℕ → Snapshot → Event
| broadcast : Bool → Batch → Event
| deliver : Bool → ℕ → Event
| refresh : Bool → Event
| expire : Bool → Event
| timeout : Bool → Event

/- Nothing has happened on the connection yet. -/
def start
    (role : Bool → SyncRole)
    (mode : SyncMode) : Exchange where
  side := fun b => Side.fresh (role b) mode b
  channel := fun _ => []
  sent := fun _ => []
  resyncs := []

def setSide
    (b : Bool)
    (side : Side)
    (x : Exchange) : Exchange :=
  { x with side := Function.update x.side b side }

/- Hand messages to the channel away from a side. -/
def transmit
    (b : Bool)
    (messages : List Message)
    (x : Exchange) : Exchange :=
  { x with
    channel := Function.update x.channel (!b)
      (x.channel (!b) ++ messages.map .message)
    sent := Function.update x.sent (!b)
      (x.sent (!b) ++ messages) }

/-
  A new session id and the flood posted under it, on a side
  that may broadcast.
-/
def beginFlood
    (id : ℕ)
    (side : Side) : Side :=
  if canBroadcast side.session.role side.session.mode then
    (side.setSyncSessionId id).post (.scan id)
  else
    side

def runStep
    (b : Bool)
    (k : ℕ)
    (found : Snapshot)
    (x : Exchange) : Option Exchange :=
  match (x.side b).tasks[k]? with
  | none => none
  | some task =>
      let result := runFloodTask found (x.side b) task
      some
        (transmit b result.1
          (setSide b
            { x.side b with
              tasks := (x.side b).tasks.eraseIdx k ++
                result.2 } x))

def deliverStep
    (b : Bool)
    (newId : ℕ)
    (x : Exchange) : Option Exchange :=
  match x.channel b with
  | [] => none
  | wire :: rest =>
      let x := { x with
        channel := Function.update x.channel b rest }
      match wire with
      | .message message =>
          some (setSide b (receive (x.side b) message) x)
      | .ack ack =>
          let result := handleSyncAck ack newId (x.side b)
          some { setSide b result.2 x with
            resyncs :=
              if result.1 then
                x.resyncs ++ [⟨b, ack⟩]
              else
                x.resyncs }

def refreshStep
    (b : Bool)
    (x : Exchange) : Option Exchange :=
  match (x.side b).refreshes with
  | [] => none
  | id :: rest =>
      some (setSide b
        (runRefresh id
          { x.side b with refreshes := rest }) x)

def expireStep
    (b : Bool)
    (x : Exchange) : Option Exchange :=
  match (x.side b).timer with
  | none => none
  | some id =>
      some (setSide b
        { x.side b with
          timer := none
          fired := (x.side b).fired ++ [id] } x)

def timeoutStep
    (b : Bool)
    (x : Exchange) : Option Exchange :=
  match (x.side b).fired with
  | [] => none
  | id :: rest =>
      let result :=
        fireTimeout id { x.side b with fired := rest }
      let x := setSide b result.2 x
      some { x with
        channel := Function.update x.channel (!b)
          (x.channel (!b) ++
            (result.1.map Wire.ack).toList) }

def step
    (x : Exchange) : Event → Option Exchange
| .connect b id =>
    if (x.side b).connected then
      none
    else
      some (setSide b
        { beginFlood id (x.side b) with connected := true }
        x)
| .reconcile b id =>
    if (x.side b).connected then
      some (setSide b (beginFlood id (x.side b)) x)
    else
      none
| .run b k found => runStep b k found x
| .broadcast b batch => some (transmit b [batch.message] x)
| .deliver b newId => deliverStep b newId x
| .refresh b => refreshStep b x
| .expire b => expireStep b x
| .timeout b => timeoutStep b x

end FloodExchange

end VeritasSync
