import VeritasSync.P2p.FloodExchange
import VeritasSync.Sync.ChunkFrames
import VeritasSync.Sync.DownloadTasks
import VeritasSync.Sync.UploadLoop

/-
  What a node does with the bytes of a message: the type
  byte, the JSON text behind it, the table of handlers, and
  what each of them reads from its payload.

  Main declarations:
    * `MessageRouter.Demand`, `MessageRouter.route`
    * `P2PManager.Node`
    * `P2PManager.handleKcpMessage`
-/

namespace VeritasSync

namespace Json

/- `at(name).get<uint64_t>()`. -/
def uint64At?
    (json : Json)
    (name : String) : Option ℕ :=
  (json.find? name).bind uint64?

end Json

open PeerController SyncSession

------------------------------------------------------------
-- Payloads
------------------------------------------------------------

namespace SyncHandler

/- A payload without files is refused. -/
def parseFileUpdateBatch
    (payload : Json) : Option (List FileInfo) :=
  (payload.find? "files").bind FileInfo.listOfJson

def parseFileDeleteBatch
    (payload : Json) : Option (List String) :=
  (payload.find? "paths").bind (fun paths =>
    paths.items.mapM Json.str?)

/- A missing list is an empty one. -/
def parseDirBatch
    (payload : Json) :
    Option (List String × List String) := do
  let creates ← payload.strings "creates"
  let deletes ← payload.strings "deletes"
  return (creates, deletes)

end SyncHandler

namespace SyncSession

def parseSyncBegin (payload : Json) : Option Message := do
  let sessionId ← payload.uint64At? "session_id"
  let fileCount ← payload.uint64At? "file_count"
  let dirCount ← payload.uint64At? "dir_count"
  return .syncBegin sessionId fileCount dirCount

def parseSyncAck (payload : Json) : Option Ack := do
  let sessionId ← payload.uint64At? "session_id"
  let receivedFiles ← payload.uint64At? "received_files"
  let receivedDirs ← payload.uint64At? "received_dirs"
  return ⟨sessionId, receivedFiles, receivedDirs⟩

end SyncSession

------------------------------------------------------------
-- The Table of Handlers
------------------------------------------------------------

namespace MessageRouter

open SyncHandler

/-
  What a message asks of the node.  A directory whose path
  cannot be read is counted before the path is looked at.
-/
inductive Demand where
| message : Message → Demand
| unreadDir : Demand
| ack : Ack → Demand
| request : Json → Demand
| goodbye : Demand

/- The handler of a type: what it reads from its payload. -/
structure Route where
  receiveOnly : Bool
  read : Json → Option Demand

/- A message that names one directory. -/
def dirRoute (message : String → Message) : Route where
  receiveOnly := true
  read payload :=
    match payload.strAt? "path" with
    | some path => some (.message (message path))
    | none => some .unreadDir

/- `register_message_handlers`. -/
def route : String → Option Route
| "share_state" => some
    { receiveOnly := true
      read := fun payload => (parseShareState payload).map
        (fun state => .message
          (.shareState state.1 state.2)) }
| "request_file" => some ⟨false, fun payload =>
    some (.request payload)⟩
| "dir_create" => some (dirRoute .dirCreate)
| "dir_delete" => some (dirRoute .dirDelete)
| "file_update_batch" => some ⟨true, fun payload =>
    (parseFileUpdateBatch payload).map
      (fun files => .message (.fileUpdateBatch files))⟩
| "file_delete_batch" => some ⟨true, fun payload =>
    (parseFileDeleteBatch payload).map
      (fun paths => .message (.fileDeleteBatch paths))⟩
| "dir_batch" => some ⟨true, fun payload =>
    (parseDirBatch payload).map (fun dirs =>
      .message (.dirBatch dirs.1 dirs.2))⟩
| "sync_begin" => some ⟨true, fun payload =>
    (parseSyncBegin payload).map .message⟩
| "sync_ack" => some ⟨false, fun payload =>
    (parseSyncAck payload).map .ack⟩
| "goodbye" => some ⟨false, fun _ => some .goodbye⟩
| _ => none

/- A type without a handler, or not for this role. -/
def demandOf
    (type : String)
    (payload : Json)
    (canReceive : Bool) : Option Demand :=
  (route type).bind (fun route =>
    if route.receiveOnly && !canReceive then
      none
    else
      route.read payload)

end MessageRouter

------------------------------------------------------------
-- The Node
------------------------------------------------------------

namespace P2PManager

open MessageRouter TransferManager

/-
  What a node keeps for one peer, its files, the uploads to
  the peer, and the chunks that wait for a worker.  `closed`
  is set once the peer has said goodbye.
-/
structure Node where
  side : Side
  files : LocalState
  uploads : List Upload
  chunks : List (List UInt8)
  closed : Bool

namespace Node

def fresh
    (offerSide : Bool)
    (files : LocalState) : Node where
  side := Side.fresh files.role files.mode offerSide
  files := files
  uploads := []
  chunks := []
  closed := false

def canReceive (n : Node) : Bool :=
  VeritasSync.canReceive n.side.session.role
    n.side.session.mode

/- Only who announces files serves them. -/
def canServe (n : Node) : Bool :=
  BroadcastManager.canBroadcast n.side.session.role
    n.side.session.mode

end Node

section Handling

variable
  (H : Host)
  (parse : List UInt8 → Option Json)
  (peerId : String)

def handleRequest
    (payload : Json)
    (n : Node) : Node :=
  if n.canServe then
    match queueUpload H peerId payload n.files with
    | none => n
    | some upload =>
        { n with uploads := n.uploads ++ [upload] }
  else
    n

/- The peer's downloads wait for it, its uploads are gone. -/
def handleGoodbye (n : Node) : Node :=
  { n with
    files := { n.files with
      receiving := n.files.receiving.entries.foldl
        (fun receiving recv => storeEntry recv.1
          (cancelledEntry peerId recv.2) receiving)
        n.files.receiving }
    uploads := []
    closed := true }

/- `newId` is the id that a resync gets. -/
def handleDemand
    (newId : ℕ)
    (n : Node) : Demand → Node
| .message message =>
    { n with side := receive n.side message }
| .unreadDir => { n with side := countDirs 1 n.side }
| .ack ack =>
    { n with side := (handleSyncAck ack newId n.side).2 }
| .request payload => handleRequest H peerId payload n
| .goodbye => handleGoodbye peerId n

/- The type and the payload of a JSON message. -/
def readMessage
    (text : List UInt8) : Option (String × Json) := do
  let json ← parse text
  let type ← json.strAt? "type"
  let payload ← json.find? "payload"
  return (type, payload)

/-
  The bytes of one message.  Pings and types that are not
  known are dropped, and nothing comes from a closed peer.
-/
def handleKcpMessage
    (newId : ℕ)
    (msg : List UInt8)
    (n : Node) : Node :=
  if n.closed then
    n
  else
    match msg with
    | [] => n
    | type :: payload =>
        if type = Outgoing.msgTypeJson then
          match (readMessage parse payload).bind
              (fun read => demandOf read.1 read.2
                n.canReceive) with
          | none => n
          | some demand =>
              handleDemand H peerId newId n demand
        else if type = Outgoing.msgTypeBinaryChunk then
          if n.canReceive then
            { n with chunks := n.chunks ++ [payload] }
          else
            n
        else
          n

end Handling

------------------------------------------------------------
-- The Workers
------------------------------------------------------------

/- A chunk whose path is not a text is not modelled. -/
def ofWire (hdr : WireHeader) : Option ChunkHeader :=
  (String.fromUTF8? ⟨hdr.filePath.toArray⟩).map
    (fun path =>
      { filePath := path
        chunkIndex := hdr.chunkIndex
        totalChunks := hdr.totalChunks
        uncompressedData := hdr.uncompressedData
        valid := hdr.valid })

section Workers

variable
  (H : Host)
  (S : Snappy)
  (chunkDataSize : ℕ)
  (peerId : String)

/- A worker takes the task with the given number. -/
def runPosted
    (k : ℕ)
    (n : Node) : Option Node :=
  (n.side.session.posted[k]?).map (fun task =>
    { n with
      files := SyncHandler.runTask H peerId task n.files
      side := { n.side with session :=
        { n.side.session with
          posted := n.side.session.posted.eraseIdx k } } })

def runChunk
    (k : ℕ)
    (n : Node) : Option Node :=
  (n.chunks[k]?).map (fun payload =>
    { n with
      chunks := n.chunks.eraseIdx k
      files :=
        match ofWire (parseChunkPayload S payload).1 with
        | none => n.files
        | some hdr =>
            handleChunk H chunkDataSize hdr peerId
              n.files })

end Workers

end P2PManager

end VeritasSync
