import VeritasSync.Library.Simulation
import VeritasSync.P2p.KcpMessages

/-
  The exchange of two peers as bytes: what one of them hands
  to the transport, and what the other reads from it.

  The exchange of packets refines the exchange of messages:
  each of its runs is one of the latter, with the packets
  that are none of a flood's left out, and nothing else.

  Main declarations:
    * `Packet`, `Packet.encode`, `Packet.wire?`
    * `PacketExchange.carriesFlood`
    * `PacketExchange.step`, `PacketExchange.seen`
    * `PacketExchange.side_handleKcpMessage`
    * `PacketExchange.Represents`
    * `PacketExchange.refines_messages`
-/

namespace VeritasSync

open PeerController SyncSession FloodExchange
open P2PManager (Node handleKcpMessage)

------------------------------------------------------------
-- Packets
------------------------------------------------------------

namespace Batch

/- The times and sizes are those of 64 bits. -/
def Sized : Batch → Prop
| .fileUpdates files => ∀ info ∈ files,
    info.modifiedTime < 2 ^ 64 ∧ info.size < 2 ^ 64
| _ => True

end Batch

/- `send_sync_ack`. -/
def SyncSession.Ack.toJson (ack : Ack) : Json :=
  protocolMessage "sync_ack"
    [("received_dirs", .num ack.receivedDirs),
      ("received_files", .num ack.receivedFiles),
      ("session_id", .num ack.sessionId)]

/- The message of `build_file_request`. -/
def FileRequest.message (request : FileRequest) : Json :=
  .obj [("payload", request.toJson),
    ("type", .str "request_file")]

/- What the two peers send to each other. -/
inductive Packet where
| out : Outgoing → Packet
| ack : Ack → Packet
| request : FileRequest → Packet

namespace Packet

/- The JSON of a packet that has one. -/
def json? : Packet → Option Json
| .out (.syncBegin sessionId fileCount dirCount) =>
    some (protocolMessage "sync_begin"
      [("dir_count", .num dirCount),
        ("file_count", .num fileCount),
        ("session_id", .num sessionId)])
| .out (.batch b) => some b.toJson
| .out .goodbye => some (protocolMessage "goodbye" [])
| .out (.chunk _) => none
| .ack reply => some reply.toJson
| .request wish => some wish.message

/- The bytes of a packet. -/
def encode
    (dump : Json → List UInt8)
    (compress : List UInt8 → List UInt8) :
    Packet → List UInt8
| .out message => message.encode dump compress
| .ack reply => Outgoing.jsonPacket dump reply.toJson
| .request wish => Outgoing.jsonPacket dump wish.message

/- The message of a flood, or its acknowledgement. -/
def wire? : Packet → Option Wire
| .out (.syncBegin sessionId fileCount dirCount) =>
    some (.message (.syncBegin sessionId fileCount dirCount))
| .out (.batch b) => some (.message b.message)
| .ack reply => some (.ack reply)
| _ => none

/- Its numbers fit their types, and it is no farewell. -/
def Sized : Packet → Prop
| .out (.syncBegin sessionId fileCount dirCount) =>
    sessionId < 2 ^ 64 ∧ fileCount < 2 ^ 64 ∧
      dirCount < 2 ^ 64
| .out (.batch b) => b.Sized
| .out .goodbye => False
| .ack reply =>
    reply.sessionId < 2 ^ 64 ∧
      reply.receivedFiles < 2 ^ 64 ∧
      reply.receivedDirs < 2 ^ 64
| _ => True

/- The text of the packet is read as it was written. -/
def Readable
    (dump : Json → List UInt8)
    (parse : List UInt8 → Option Json)
    (p : Packet) : Prop :=
  p.Sized ∧
    ∀ json, p.json? = some json →
      parse (dump json) = some json

end Packet

/- How a message of a flood or a broadcast is packed. -/
def Message.outgoing? : Message → Option Outgoing
| .syncBegin sessionId fileCount dirCount =>
    some (.syncBegin sessionId fileCount dirCount)
| .fileUpdateBatch files => some (.batch (.fileUpdates files))
| .fileDeleteBatch paths => some (.batch (.fileDeletes paths))
| .dirBatch creates deletes =>
    some (.batch (.dirs creates deletes))
| _ => none

------------------------------------------------------------
-- What Is Read Back
------------------------------------------------------------

theorem mapM_map_eq_some
    {α β : Type}
    {f : α → β}
    {g : β → Option α}
    {items : List α}
    (hEach : ∀ item ∈ items, g (f item) = some item) :
    (items.map f).mapM g = some items := by
  induction items with
  | nil => rfl
  | cons item rest ih =>
      rw [List.map_cons, List.mapM_cons,
        hEach item List.mem_cons_self,
        ih (fun other hMem =>
          hEach other (List.mem_cons_of_mem _ hMem))]
      rfl

theorem strings_of_find
    {json : Json}
    {name : String}
    {texts : List String}
    (hFind : json.find? name = some (.arr (texts.map .str))) :
    json.strings name = some texts := by
  unfold Json.strings
  rw [hFind]
  exact mapM_map_eq_some (fun _ _ => rfl)

theorem read_fileDeletes (paths : List String) :
    SyncHandler.parseFileDeleteBatch (.obj
      [("paths", .arr (paths.map .str))]) = some paths :=
  mapM_map_eq_some (fun _ _ => rfl)

theorem read_dirs (creates deletes : List String) :
    SyncHandler.parseDirBatch (.obj
        [("creates", .arr (creates.map .str)),
          ("deletes", .arr (deletes.map .str))]) =
      some (creates, deletes) := by
  let payload : Json := .obj
    [("creates", .arr (creates.map .str)),
      ("deletes", .arr (deletes.map .str))]
  have hCreates : payload.strings "creates" =
      some creates := strings_of_find rfl
  have hDeletes : payload.strings "deletes" =
      some deletes := strings_of_find rfl
  simp [SyncHandler.parseDirBatch, payload, hCreates,
    hDeletes]

theorem read_syncBegin
    {sessionId fileCount dirCount : ℕ}
    (hSession : sessionId < 2 ^ 64)
    (hFiles : fileCount < 2 ^ 64)
    (hDirs : dirCount < 2 ^ 64) :
    SyncSession.parseSyncBegin (.obj
        [("dir_count", .num dirCount),
          ("file_count", .num fileCount),
          ("session_id", .num sessionId)]) =
      some (.syncBegin sessionId fileCount dirCount) := by
  have hSession' := Json.uint64?_num hSession
  have hFiles' := Json.uint64?_num hFiles
  have hDirs' := Json.uint64?_num hDirs
  simp [SyncSession.parseSyncBegin, Json.uint64At?,
    Json.find?, hSession', hFiles', hDirs']

theorem read_syncAck
    {ack : Ack}
    (hSized : (Packet.ack ack).Sized) :
    SyncSession.parseSyncAck (.obj
        [("received_dirs", .num ack.receivedDirs),
          ("received_files", .num ack.receivedFiles),
          ("session_id", .num ack.sessionId)]) =
      some ack := by
  have hSession := Json.uint64?_num hSized.1
  have hFiles := Json.uint64?_num hSized.2.1
  have hDirs := Json.uint64?_num hSized.2.2
  simp [SyncSession.parseSyncAck, Json.uint64At?,
    Json.find?, hSession, hFiles, hDirs]

/- An acknowledgement is for every role. -/
theorem demandOf_ack
    {ack : Ack}
    (hSized : (Packet.ack ack).Sized)
    (canReceive : Bool) :
    MessageRouter.demandOf "sync_ack" (.obj
        [("received_dirs", .num ack.receivedDirs),
          ("received_files", .num ack.receivedFiles),
          ("session_id", .num ack.sessionId)])
        canReceive =
      some (.ack ack) := by
  have hRoute : MessageRouter.route "sync_ack" = some
      ⟨false, fun payload =>
        (SyncSession.parseSyncAck payload).map .ack⟩ := rfl
  simp [MessageRouter.demandOf, hRoute, read_syncAck hSized]

namespace FileInfo

theorem ofJson_toJson
    {info : FileInfo}
    (hTime : info.modifiedTime < 2 ^ 64)
    (hSize : info.size < 2 ^ 64) :
    ofJson info.toJson = some info := by
  have hTime' := Json.uint64?_num hTime
  have hSize' := Json.uint64?_num hSize
  simp [ofJson, toJson, Json.strD, Json.uint64D, Json.find?,
    Json.isObj, Json.str?, hTime', hSize']

theorem listOfJson_toJson
    {files : List FileInfo}
    (hSized : (Batch.fileUpdates files).Sized) :
    listOfJson (.arr (files.map toJson)) =
      some (SyncHandler.namedFiles files) := by
  have hRead : (files.map toJson).mapM ofJson = some files :=
    mapM_map_eq_some (fun info hMem =>
      ofJson_toJson (hSized info hMem).1 (hSized info hMem).2)
  unfold listOfJson
  change ((files.map toJson).mapM ofJson).bind _ = _
  rw [hRead]
  rfl

end FileInfo

------------------------------------------------------------
-- Handling a Packet
------------------------------------------------------------

namespace PacketExchange

/- What a flood makes of a message on the wire. -/
def effect
    (newId : ℕ)
    (side : Side) : Option Wire → Side
| some (.message message) => receive side message
| some (.ack reply) => (handleSyncAck reply newId side).2
| none => side

section Handling

variable
  {H : Host}
  {dump : Json → List UInt8}
  {parse : List UInt8 → Option Json}
  {compress : List UInt8 → List UInt8}
  {peerId : String}
  {newId : ℕ}
  {n : Node}

/- A text with a type and a payload reaches the router. -/
theorem handleKcpMessage_of_text
    {text : List UInt8}
    {type : String}
    {json payload : Json}
    (hOpen : n.closed = false)
    (hText : parse text = some json)
    (hType : json.strAt? "type" = some type)
    (hPayload : json.find? "payload" = some payload) :
    handleKcpMessage H parse peerId newId
        (Outgoing.msgTypeJson :: text) n =
      match MessageRouter.demandOf type payload
        n.canReceive with
      | none => n
      | some demand => P2PManager.handleDemand H peerId
          newId n demand := by
  have hRead : P2PManager.readMessage parse text =
      some (type, payload) := by
    simp [P2PManager.readMessage, hText, hType, hPayload]
  cases hDemand :
      MessageRouter.demandOf type payload n.canReceive with
  | none => simp [handleKcpMessage, hOpen, hRead, hDemand]
  | some demand =>
      simp [handleKcpMessage, hOpen, hRead, hDemand]

/- A message for receiving nodes only. -/
theorem side_of_message
    {text : List UInt8}
    {type : String}
    {json payload : Json}
    {r : MessageRouter.Route}
    {message : Message}
    (hOpen : n.closed = false)
    (hText : parse text = some json)
    (hType : json.strAt? "type" = some type)
    (hPayload : json.find? "payload" = some payload)
    (hRoute : MessageRouter.route type = some r)
    (hOnly : r.receiveOnly = true)
    (hRead : r.read payload = some (.message message)) :
    let n' := handleKcpMessage H parse peerId newId
      (Outgoing.msgTypeJson :: text) n
    n'.side = receive n.side message ∧
      n'.closed = false := by
  intro n'
  have hHandled : n' = _ := handleKcpMessage_of_text hOpen
    hText hType hPayload
  cases hReceives : n.canReceive with
  | false =>
      have hNone : MessageRouter.demandOf type payload
          false = none := by
        simp [MessageRouter.demandOf, hRoute, hOnly]
      have hDeaf : canReceive n.side.session.role
          n.side.session.mode = false := hReceives
      rw [hReceives, hNone] at hHandled
      rw [hHandled]
      refine ⟨?_, hOpen⟩
      simp [receive, hDeaf]
  | true =>
      have hSome : MessageRouter.demandOf type payload
          true = some (.message message) := by
        simp [MessageRouter.demandOf, hRoute, hRead]
      rw [hReceives, hSome] at hHandled
      rw [hHandled]
      exact ⟨rfl, hOpen⟩

/- Reading a batch once more drops nothing more. -/
theorem receive_namedFiles
    (side : Side)
    (files : List FileInfo) :
    receive side
        (.fileUpdateBatch (SyncHandler.namedFiles files)) =
      receive side (.fileUpdateBatch files) := by
  have hNamed : SyncHandler.namedFiles
      (SyncHandler.namedFiles files) =
        SyncHandler.namedFiles files := by
    simp [SyncHandler.namedFiles]
  simp only [receive, MessageRouter.dispatch,
    SyncHandler.handleFileUpdateBatch, hNamed]

theorem side_of_batch
    {b : Batch}
    (hSized : b.Sized)
    (hOpen : n.closed = false)
    (hText : parse (dump b.toJson) = some b.toJson) :
    let n' := handleKcpMessage H parse peerId newId
      (Outgoing.msgTypeJson :: dump b.toJson) n
    n'.side = receive n.side b.message ∧
      n'.closed = false := by
  cases b with
  | fileUpdates files =>
      rw [Batch.message, ← receive_namedFiles]
      exact side_of_message hOpen hText rfl rfl rfl rfl
        (congrArg (Option.map _)
          (FileInfo.listOfJson_toJson hSized))
  | fileDeletes paths =>
      exact side_of_message hOpen hText rfl rfl rfl rfl
        (congrArg (Option.map _) (read_fileDeletes paths))
  | dirs creates deletes =>
      exact side_of_message hOpen hText rfl rfl rfl rfl
        (congrArg (Option.map _) (read_dirs creates deletes))

theorem side_of_syncBegin
    {sessionId fileCount dirCount : ℕ}
    (hSession : sessionId < 2 ^ 64)
    (hFiles : fileCount < 2 ^ 64)
    (hDirs : dirCount < 2 ^ 64)
    (hOpen : n.closed = false)
    {text : List UInt8}
    (hText : parse text = some (protocolMessage "sync_begin"
      [("dir_count", .num dirCount),
        ("file_count", .num fileCount),
        ("session_id", .num sessionId)])) :
    let n' := handleKcpMessage H parse peerId newId
      (Outgoing.msgTypeJson :: text) n
    n'.side = receive n.side
        (.syncBegin sessionId fileCount dirCount) ∧
      n'.closed = false := by
  exact side_of_message hOpen hText rfl rfl rfl rfl
    (congrArg (Option.map _)
      (read_syncBegin hSession hFiles hDirs))

theorem side_of_ack
    {ack : Ack}
    (hSized : (Packet.ack ack).Sized)
    (hOpen : n.closed = false)
    (hText : parse (dump ack.toJson) = some ack.toJson) :
    let n' := handleKcpMessage H parse peerId newId
      (Outgoing.msgTypeJson :: dump ack.toJson) n
    n'.side = (handleSyncAck ack newId n.side).2 ∧
      n'.closed = false := by
  intro n'
  have hHandled : n' = _ := handleKcpMessage_of_text hOpen
    hText rfl rfl
  rw [demandOf_ack hSized] at hHandled
  rw [hHandled]
  exact ⟨rfl, hOpen⟩

/- A request for a file is none of a flood's business. -/
theorem side_of_request
    {request : FileRequest}
    (hOpen : n.closed = false)
    {text : List UInt8}
    (hText : parse text = some request.message) :
    let n' := handleKcpMessage H parse peerId newId
      (Outgoing.msgTypeJson :: text) n
    n'.side = n.side ∧ n'.closed = false := by
  intro n'
  have hDemand : MessageRouter.demandOf "request_file"
      request.toJson n.canReceive =
        some (.request request.toJson) := by
    simp [MessageRouter.demandOf, MessageRouter.route]
  have hHandled : n' = _ := handleKcpMessage_of_text hOpen
    hText rfl rfl
  rw [hDemand] at hHandled
  rw [hHandled]
  unfold P2PManager.handleDemand P2PManager.handleRequest
  dsimp only
  split
  · split <;> exact ⟨rfl, hOpen⟩
  · exact ⟨rfl, hOpen⟩

/- Chunks are kept for the workers, and nothing else. -/
theorem side_of_chunk
    (payload : List UInt8)
    (hOpen : n.closed = false) :
    let n' := handleKcpMessage H parse peerId newId
      (Outgoing.msgTypeBinaryChunk :: payload) n
    n'.side = n.side ∧ n'.closed = false := by
  intro n'
  have hOther : ¬ Outgoing.msgTypeBinaryChunk =
      Outgoing.msgTypeJson := by decide
  simp only [n', handleKcpMessage, hOpen, if_neg hOther,
    Bool.false_eq_true, if_false, if_true]
  split
  · exact ⟨rfl, rfl⟩
  · exact ⟨rfl, hOpen⟩

/- A packet does to the flood what its message does. -/
theorem side_handleKcpMessage
    {p : Packet}
    (hReadable : p.Readable dump parse)
    (hOpen : n.closed = false) :
    let n' := handleKcpMessage H parse peerId newId
      (p.encode dump compress) n
    n'.side = effect newId n.side p.wire? ∧
      n'.closed = false := by
  rcases hReadable with ⟨hSized, hText⟩
  cases p with
  | out message =>
      cases message with
      | syncBegin sessionId fileCount dirCount =>
          exact side_of_syncBegin hSized.1 hSized.2.1
            hSized.2.2 hOpen (hText _ rfl)
      | batch b =>
          exact side_of_batch hSized hOpen (hText _ rfl)
      | goodbye => exact hSized.elim
      | chunk hdr => exact side_of_chunk _ hOpen
  | ack reply =>
      exact side_of_ack hSized hOpen (hText _ rfl)
  | request wish =>
      exact side_of_request hOpen (hText _ rfl)

end Handling

------------------------------------------------------------
-- What Is a Flood's
------------------------------------------------------------

/- Requests and farewells are none of a flood's. -/
def isFloods : MessageRouter.Demand → Bool
| .request _ => false
| .goodbye => false
| _ => true

/- A node that receives reads something of a flood's. -/
def carriesFlood
    (parse : List UInt8 → Option Json) :
    List UInt8 → Bool
| [] => false
| type :: text =>
    type == Outgoing.msgTypeJson &&
      ((P2PManager.readMessage parse text).bind
        (fun read => MessageRouter.demandOf read.1 read.2
          true)).any isFloods

section Carried

variable
  {dump : Json → List UInt8}
  {parse : List UInt8 → Option Json}
  {compress : List UInt8 → List UInt8}

theorem carriesFlood_of_text
    {text : List UInt8}
    {type : String}
    {json payload : Json}
    {demand : MessageRouter.Demand}
    (hText : parse text = some json)
    (hType : json.strAt? "type" = some type)
    (hPayload : json.find? "payload" = some payload)
    (hDemand : MessageRouter.demandOf type payload true =
      some demand) :
    carriesFlood parse (Outgoing.msgTypeJson :: text) =
      isFloods demand := by
  have hRead : P2PManager.readMessage parse text =
      some (type, payload) := by
    simp [P2PManager.readMessage, hText, hType, hPayload]
  simp [carriesFlood, hRead, hDemand]

theorem carriesFlood_of_message
    {text : List UInt8}
    {type : String}
    {json payload : Json}
    {r : MessageRouter.Route}
    {message : Message}
    (hText : parse text = some json)
    (hType : json.strAt? "type" = some type)
    (hPayload : json.find? "payload" = some payload)
    (hRoute : MessageRouter.route type = some r)
    (hRead : r.read payload = some (.message message)) :
    carriesFlood parse (Outgoing.msgTypeJson :: text) =
      true := by
  have hDemand : MessageRouter.demandOf type payload true =
      some (.message message) := by
    simp [MessageRouter.demandOf, hRoute, hRead]
  exact carriesFlood_of_text hText hType hPayload hDemand

/- The bytes of a packet tell whether it is a flood's. -/
theorem carriesFlood_encode
    {p : Packet}
    (hReadable : p.Readable dump parse) :
    carriesFlood parse (p.encode dump compress) =
      p.wire?.isSome := by
  rcases hReadable with ⟨hSized, hText⟩
  cases p with
  | out message =>
      cases message with
      | syncBegin sessionId fileCount dirCount =>
          exact carriesFlood_of_message (hText _ rfl) rfl rfl
            rfl (congrArg (Option.map _)
              (read_syncBegin hSized.1 hSized.2.1 hSized.2.2))
      | batch b =>
          cases b with
          | fileUpdates files =>
              exact carriesFlood_of_message (hText _ rfl) rfl
                rfl rfl (congrArg (Option.map _)
                  (FileInfo.listOfJson_toJson hSized))
          | fileDeletes paths =>
              exact carriesFlood_of_message (hText _ rfl) rfl
                rfl rfl (congrArg (Option.map _)
                  (read_fileDeletes paths))
          | dirs creates deletes =>
              exact carriesFlood_of_message (hText _ rfl) rfl
                rfl rfl (congrArg (Option.map _)
                  (read_dirs creates deletes))
      | goodbye => exact hSized.elim
      | chunk hdr => rfl
  | ack reply =>
      exact carriesFlood_of_text (hText _ rfl) rfl rfl
        (demandOf_ack hSized true)
  | request wish =>
      exact carriesFlood_of_text (hText _ rfl) rfl rfl rfl

end Carried

------------------------------------------------------------
-- The Exchange of Packets
------------------------------------------------------------

/- Both nodes, and the ordered bytes on the way to each. -/
structure Network where
  node : Bool → Node
  channel : Bool → List (List UInt8)

/-
  A step of the floods, a packet that is none of a flood's,
  or what workers and users do to the files, the uploads and
  the waiting chunks of a node.
-/
inductive Event where
| flood : FloodExchange.Event → Event
| request : Bool → FileRequest → Event
| chunk : Bool → TransferManager.ChunkHeader → Event
| work : Bool → LocalState → List TransferManager.Upload →
    List (List UInt8) → Event

/- Two nodes that have just met. -/
def start
    (files : Bool → LocalState) : Network where
  node := fun b => Node.fresh b (files b)
  channel := fun _ => []

def setNode
    (b : Bool)
    (n : Node)
    (w : Network) : Network :=
  { w with node := Function.update w.node b n }

def setSide
    (b : Bool)
    (side : Side)
    (w : Network) : Network :=
  setNode b { w.node b with side := side } w

section Steps

variable
  (H : Bool → Host)
  (dump : Json → List UInt8)
  (parse : List UInt8 → Option Json)
  (compress : List UInt8 → List UInt8)
  (peerId : Bool → String)

/- Hand packets to the channel away from a node. -/
def transmit
    (b : Bool)
    (packets : List Packet)
    (w : Network) : Network :=
  { w with
    channel := Function.update w.channel (!b)
      (w.channel (!b) ++
        packets.map (Packet.encode dump compress)) }

/- The packets of the messages that a flood task sends. -/
def packetsOf (messages : List Message) : List Packet :=
  (messages.filterMap Message.outgoing?).map .out

/- The packets that a step hands over, and who does so. -/
def handed
    (w : Network) : Event → Bool × List Packet
| .flood (.run b k found) =>
    match (w.node b).side.tasks[k]? with
    | none => (b, [])
    | some task => (b, packetsOf
        (BroadcastManager.runFloodTask found (w.node b).side
          task).1)
| .flood (.broadcast b batch) =>
    (b, packetsOf [batch.message])
| .flood (.timeout b) =>
    match (w.node b).side.fired with
    | [] => (b, [])
    | id :: rest => (b,
        ((fireTimeout id { (w.node b).side with
          fired := rest }).1.map Packet.ack).toList)
| .request b request => (b, [.request request])
| .chunk b hdr => (b, [.out (.chunk hdr)])
| _ => (true, [])

/- What a step does to the node that takes it. -/
def turn
    (w : Network) : Event → Option Network
| .flood (.connect b id) =>
    if (w.node b).side.connected then
      none
    else
      some (setSide b { beginFlood id (w.node b).side with
        connected := true } w)
| .flood (.reconcile b id) =>
    if (w.node b).side.connected then
      some (setSide b (beginFlood id (w.node b).side) w)
    else
      none
| .flood (.run b k found) =>
    (w.node b).side.tasks[k]?.map (fun task =>
      setSide b { (w.node b).side with
        tasks := (w.node b).side.tasks.eraseIdx k ++
          (BroadcastManager.runFloodTask found
            (w.node b).side task).2 } w)
| .flood (.broadcast _ _) => some w
| .flood (.deliver b newId) =>
    match w.channel b with
    | [] => none
    | packet :: rest =>
        some (setNode b
          (handleKcpMessage (H b) parse (peerId b) newId
            packet (w.node b))
          { w with
            channel := Function.update w.channel b rest })
| .flood (.refresh b) =>
    match (w.node b).side.refreshes with
    | [] => none
    | id :: rest =>
        some (setSide b (runRefresh id
          { (w.node b).side with refreshes := rest }) w)
| .flood (.expire b) =>
    (w.node b).side.timer.map (fun id =>
      setSide b { (w.node b).side with
        timer := none
        fired := (w.node b).side.fired ++ [id] } w)
| .flood (.timeout b) =>
    match (w.node b).side.fired with
    | [] => none
    | id :: rest =>
        some (setSide b (fireTimeout id
          { (w.node b).side with fired := rest }).2 w)
| .request _ _ => some w
| .chunk _ _ => some w
| .work b files uploads chunks =>
    some (setNode b { w.node b with
      files := files
      uploads := uploads
      chunks := chunks } w)

def step
    (w : Network)
    (e : Event) : Option Network :=
  (turn H parse peerId w e).map
    (transmit dump compress (handed w e).1 (handed w e).2)

/- Every packet is read as it was written. -/
def ReadsBack
    (w : Network)
    (e : Event) : Prop :=
  ∀ p ∈ (handed w e).2, p.Readable dump parse

/-
  The step of the floods that an event stands for.  Only the
  delivery of a packet that is none of a flood's is left out.
-/
def seen
    (w : Network) : Event → List FloodExchange.Event
| .flood (.deliver b newId) =>
    if (w.channel b).head?.any (carriesFlood parse) then
      [.deliver b newId]
    else
      []
| .flood e => [e]
| _ => []

end Steps

------------------------------------------------------------
-- The Refinement
------------------------------------------------------------

/-
  The packets on the way carry the messages on the way, and
  both nodes are where the two sides are.
-/
structure Represents
    (dump : Json → List UInt8)
    (parse : List UInt8 → Option Json)
    (compress : List UInt8 → List UInt8)
    (x : Exchange)
    (w : Network) : Prop where
  side : ∀ b, (w.node b).side = x.side b
  opened : ∀ b, (w.node b).closed = false
  channel : ∀ b, ∃ packets : List Packet,
    w.channel b =
        packets.map (Packet.encode dump compress) ∧
      x.channel b = packets.filterMap Packet.wire? ∧
      ∀ p ∈ packets, p.Readable dump parse

section Refinement

variable
  {H : Bool → Host}
  {dump : Json → List UInt8}
  {parse : List UInt8 → Option Json}
  {compress : List UInt8 → List UInt8}
  {peerId : Bool → String}
  {x : Exchange}
  {w w' : Network}

/- The packets of a flood's messages carry just them. -/
theorem wires_packetsOf
    {messages : List Message}
    (hPacked : ∀ message ∈ messages,
      message.outgoing? ≠ none) :
    (packetsOf messages).filterMap Packet.wire? =
      messages.map Wire.message := by
  induction messages with
  | nil => rfl
  | cons message rest ih =>
      have hRest := ih (fun other hMem =>
        hPacked other (List.mem_cons_of_mem _ hMem))
      have hFirst := hPacked message List.mem_cons_self
      unfold packetsOf at hRest ⊢
      cases message with
      | syncBegin id files dirs =>
          simpa [Message.outgoing?, Packet.wire?] using hRest
      | fileUpdateBatch files =>
          simpa [Message.outgoing?, Packet.wire?,
            Batch.message] using hRest
      | fileDeleteBatch paths =>
          simpa [Message.outgoing?, Packet.wire?,
            Batch.message] using hRest
      | dirBatch creates deletes =>
          simpa [Message.outgoing?, Packet.wire?,
            Batch.message] using hRest
      | shareState files dirs => exact absurd rfl hFirst
      | dirCreate path => exact absurd rfl hFirst
      | dirDelete path => exact absurd rfl hFirst

theorem outgoing_message (b : Batch) :
    b.message.outgoing? ≠ none := by
  cases b <;> simp [Batch.message, Message.outgoing?]

theorem outgoing_runFloodTask
    {found : Snapshot}
    {side : Side}
    {task : FloodTask} :
    ∀ message ∈
        (BroadcastManager.runFloodTask found side task).1,
      message.outgoing? ≠ none := by
  intro message hMem
  cases task with
  | scan id =>
      simp only [BroadcastManager.runFloodTask] at hMem
      split at hMem
      · cases hMem
      · split at hMem <;> cases hMem
  | announce id files dirs =>
      rcases List.mem_cons.mp hMem with rfl | hBatch
      · simp [Message.outgoing?]
      · rcases List.mem_map.mp hBatch with ⟨b, -, rfl⟩
        exact outgoing_message b
  | send id files index =>
      simp only [BroadcastManager.runFloodTask] at hMem
      split at hMem
      · cases hMem
      · rw [List.mem_singleton.mp hMem]
        simp [Message.outgoing?]

/- The packets of an acknowledgement, if there is one. -/
theorem wires_ack (reply : Option Ack) :
    (reply.map Packet.ack).toList.filterMap Packet.wire? =
      (reply.map Wire.ack).toList := by
  cases reply <;> rfl

namespace Represents

/- Only the sides and the channels are looked at. -/
theorem congr
    {x' : Exchange}
    (hRep : Represents dump parse compress x w)
    (hSide : x'.side = x.side)
    (hChannel : x'.channel = x.channel) :
    Represents dump parse compress x' w where
  side := by
    rw [hSide]
    exact hRep.side
  opened := hRep.opened
  channel := by
    rw [hChannel]
    exact hRep.channel

theorem setNode
    {n : Node}
    {side : Side}
    (b : Bool)
    (hRep : Represents dump parse compress x w)
    (hSide : n.side = side)
    (hOpen : n.closed = false) :
    Represents dump parse compress
      (FloodExchange.setSide b side x)
      (PacketExchange.setNode b n w) where
  side c := by
    by_cases hHere : c = b
    · subst hHere
      simpa [FloodExchange.setSide, PacketExchange.setNode]
        using hSide
    · simpa [FloodExchange.setSide, PacketExchange.setNode,
        hHere] using hRep.side c
  opened c := by
    by_cases hHere : c = b
    · subst hHere
      simpa [PacketExchange.setNode] using hOpen
    · simpa [PacketExchange.setNode, hHere] using
        hRep.opened c
  channel := hRep.channel

theorem setSide
    {b : Bool}
    (side : Side)
    (hRep : Represents dump parse compress x w) :
    Represents dump parse compress
      (FloodExchange.setSide b side x)
      (PacketExchange.setSide b side w) :=
  hRep.setNode b rfl (hRep.opened b)

/- Packets on their way carry their messages. -/
theorem transmit
    {b : Bool}
    {packets : List Packet}
    {wires : List Wire}
    {x' : Exchange}
    (hRep : Represents dump parse compress x w)
    (hRead : ∀ p ∈ packets, p.Readable dump parse)
    (hWires : packets.filterMap Packet.wire? = wires)
    (hSide : x'.side = x.side)
    (hChannel : x'.channel =
      Function.update x.channel (!b)
        (x.channel (!b) ++ wires)) :
    Represents dump parse compress x'
      (PacketExchange.transmit dump compress b packets w)
      where
  side := by
    rw [hSide]
    exact hRep.side
  opened := hRep.opened
  channel c := by
    rcases hRep.channel c with ⟨before, hBytes, hCarried, hOk⟩
    by_cases hThere : c = !b
    · subst hThere
      refine ⟨before ++ packets, ?_, ?_, ?_⟩
      · simp [PacketExchange.transmit, hBytes]
      · simp [hChannel, hCarried, hWires]
      · intro p hMem
        rcases List.mem_append.mp hMem with hOld | hNew
        · exact hOk p hOld
        · exact hRead p hNew
    · refine ⟨before, ?_, ?_, hOk⟩
      · simpa [PacketExchange.transmit, hThere] using hBytes
      · simpa [hChannel, hThere] using hCarried

/- Packets that are none of a flood's. -/
theorem transmit_unseen
    {b : Bool}
    {packets : List Packet}
    (hRep : Represents dump parse compress x w)
    (hRead : ∀ p ∈ packets, p.Readable dump parse)
    (hUnseen : packets.filterMap Packet.wire? = []) :
    Represents dump parse compress x
      (PacketExchange.transmit dump compress b packets w) :=
  hRep.transmit hRead hUnseen rfl (by simp)

/- The first packet leaves the channel. -/
theorem pop
    {b : Bool}
    {packet : List UInt8}
    {rest : List (List UInt8)}
    (hRep : Represents dump parse compress x w)
    (hChannel : w.channel b = packet :: rest) :
    ∃ p wires, packet = Packet.encode dump compress p ∧
      p.Readable dump parse ∧
      x.channel b = p.wire?.toList ++ wires ∧
      Represents dump parse compress
        { x with
          channel := Function.update x.channel b wires }
        { w with
          channel := Function.update w.channel b rest } := by
  rcases hRep.channel b with ⟨packets, hBytes, hCarried, hOk⟩
  rw [hChannel] at hBytes
  cases packets with
  | nil => cases hBytes
  | cons p ps =>
      rcases List.cons.inj hBytes with ⟨hPacket, hRest⟩
      have hOkRest : ∀ q ∈ ps, q.Readable dump parse :=
        fun q hMem => hOk q (List.mem_cons_of_mem p hMem)
      refine ⟨p, ps.filterMap Packet.wire?, hPacket,
        hOk p List.mem_cons_self, ?_, hRep.side,
        hRep.opened, ?_⟩
      · rw [hCarried]
        cases hWire : p.wire? with
        | none => exact List.filterMap_cons_none hWire
        | some wire => exact List.filterMap_cons_some hWire
      · intro c
        by_cases hHere : c = b
        · subst hHere
          exact ⟨ps, by simpa using hRest, by simp, hOkRest⟩
        · simpa [hHere] using hRep.channel c

end Represents

/- What a step of the packets has to be matched by. -/
def Matched
    (dump : Json → List UInt8)
    (parse : List UInt8 → Option Json)
    (compress : List UInt8 → List UInt8)
    (x : Exchange)
    (labels : List FloodExchange.Event)
    (w' : Network) : Prop :=
  ∃ x', Transition.run FloodExchange.step x labels = some x' ∧
    Represents dump parse compress x' w'

theorem Matched.made
    {e : FloodExchange.Event}
    {x' : Exchange}
    (hStep : FloodExchange.step x e = some x')
    (hRep : Represents dump parse compress x' w') :
    Matched dump parse compress x [e] w' := by
  refine ⟨x', ?_, hRep⟩
  rw [Transition.run, hStep]
  rfl

theorem Matched.unseen
    (hRep : Represents dump parse compress x w') :
    Matched dump parse compress x [] w' :=
  ⟨x, rfl, hRep⟩

/- Nothing is handed over. -/
theorem transmit_nil (b : Bool) :
    transmit dump compress b [] w = w := by
  simp [transmit]

/- A side that changes, and nothing handed over. -/
theorem matched_side
    {e : FloodExchange.Event}
    {b : Bool}
    {side : Side}
    (hRep : Represents dump parse compress x w)
    (hStep : FloodExchange.step x e =
      some (FloodExchange.setSide b side x)) :
    Matched dump parse compress x [e]
      (transmit dump compress true []
        (setSide b side w)) := by
  rw [transmit_nil]
  exact .made hStep (hRep.setSide side)

theorem matched_run
    {b : Bool}
    {k : ℕ}
    {found : Snapshot}
    {m : Network}
    (hRep : Represents dump parse compress x w)
    (hRead : ReadsBack dump parse w
      (.flood (.run b k found)))
    (hTurn : turn H parse peerId w
      (.flood (.run b k found)) = some m) :
    Matched dump parse compress x [.run b k found]
      (transmit dump compress
        (handed w (.flood (.run b k found))).1
        (handed w (.flood (.run b k found))).2 m) := by
  rcases Option.map_eq_some_iff.mp hTurn with
    ⟨task, hTask, rfl⟩
  rw [hRep.side b] at hTask
  have hHanded : handed w (.flood (.run b k found)) =
      (b, packetsOf (BroadcastManager.runFloodTask found
        (x.side b) task).1) := by
    simp only [handed, hRep.side b, hTask]
  unfold ReadsBack at hRead
  rw [hHanded] at hRead ⊢
  rw [hRep.side b]
  apply Matched.made
  · simp only [FloodExchange.step, runStep, hTask]
    rfl
  · exact (hRep.setSide _).transmit hRead
      (wires_packetsOf outgoing_runFloodTask) rfl rfl

theorem matched_broadcast
    {b : Bool}
    {batch : Batch}
    (hRep : Represents dump parse compress x w)
    (hRead : ReadsBack dump parse w
      (.flood (.broadcast b batch))) :
    Matched dump parse compress x [.broadcast b batch]
      (transmit dump compress b (packetsOf [batch.message])
        w) := by
  have hWires : (packetsOf [batch.message]).filterMap
      Packet.wire? = [.message batch.message] := by
    apply wires_packetsOf
    intro message hMem
    rw [List.mem_singleton.mp hMem]
    exact outgoing_message batch
  exact .made rfl (hRep.transmit hRead hWires rfl rfl)

theorem matched_timeout
    {b : Bool}
    {m : Network}
    (hRep : Represents dump parse compress x w)
    (hRead : ReadsBack dump parse w (.flood (.timeout b)))
    (hTurn : turn H parse peerId w
      (.flood (.timeout b)) = some m) :
    Matched dump parse compress x [.timeout b]
      (transmit dump compress
        (handed w (.flood (.timeout b))).1
        (handed w (.flood (.timeout b))).2 m) := by
  simp only [turn, hRep.side b] at hTurn
  split at hTurn
  · cases hTurn
  next id rest hFired =>
    rw [← Option.some.inj hTurn]
    have hHanded : handed w (.flood (.timeout b)) =
        (b, ((fireTimeout id { x.side b with
          fired := rest }).1.map Packet.ack).toList) := by
      simp only [handed, hRep.side b, hFired]
    unfold ReadsBack at hRead
    rw [hHanded] at hRead ⊢
    apply Matched.made
    · simp only [FloodExchange.step, timeoutStep, hFired]
      rfl
    · exact (hRep.setSide _).transmit hRead (wires_ack _)
        rfl rfl

/- Delivering a message changes the side it reaches. -/
theorem deliver_wire
    {b : Bool}
    {newId : ℕ}
    {wire : Wire}
    {rest : List Wire}
    (hChannel : x.channel b = wire :: rest) :
    ∃ x', FloodExchange.step x (.deliver b newId) =
        some x' ∧
      x'.side = Function.update x.side b
        (effect newId (x.side b) (some wire)) ∧
      x'.channel = Function.update x.channel b rest := by
  simp only [FloodExchange.step, deliverStep, hChannel]
  cases wire with
  | message message => exact ⟨_, rfl, rfl, rfl⟩
  | ack reply => exact ⟨_, rfl, rfl, rfl⟩

/- A packet that is none of a flood's is not seen. -/
theorem matched_deliver
    {b : Bool}
    {newId : ℕ}
    {m : Network}
    (hRep : Represents dump parse compress x w)
    (hTurn : turn H parse peerId w
      (.flood (.deliver b newId)) = some m) :
    Matched dump parse compress x
      (seen parse w (.flood (.deliver b newId)))
      (transmit dump compress true [] m) := by
  rw [transmit_nil]
  simp only [turn] at hTurn
  split at hTurn
  · cases hTurn
  next packet rest hChannel =>
    rw [← Option.some.inj hTurn]
    rcases hRep.pop hChannel with
      ⟨p, wires, rfl, hReadable, hTyped, hPopped⟩
    have hHandled :
        let n := handleKcpMessage (H b) parse (peerId b)
          newId (p.encode dump compress) (w.node b)
        n.side = effect newId (x.side b) p.wire? ∧
          n.closed = false := by
      rw [← hRep.side b]
      exact side_handleKcpMessage hReadable (hRep.opened b)
    have hNext := hPopped.setNode b hHandled.1 hHandled.2
    have hCarries :
        carriesFlood parse (p.encode dump compress) =
          p.wire?.isSome := carriesFlood_encode hReadable
    simp only [seen, hChannel, List.head?_cons,
      Option.any_some, hCarries]
    cases hWire : p.wire? with
    | none =>
        rw [hWire] at hTyped hNext
        apply Matched.unseen
        apply hNext.congr
        · simp [effect, FloodExchange.setSide]
        · have hHere : x.channel b = wires := hTyped
          rw [← hHere]
          simp [FloodExchange.setSide]
    | some wire =>
        rw [hWire] at hTyped hNext
        rcases deliver_wire hTyped with
          ⟨x', hStep, hSide, hRest⟩
        exact .made hStep (hNext.congr hSide hRest)

/- What a step of the floods does to the packets. -/
theorem matched_flood
    {e : FloodExchange.Event}
    (hRep : Represents dump parse compress x w)
    (hRead : ReadsBack dump parse w (.flood e))
    (hStep : step H dump parse compress peerId w
      (.flood e) = some w') :
    Matched dump parse compress x (seen parse w (.flood e))
      w' := by
  rcases Option.map_eq_some_iff.mp hStep with
    ⟨m, hTurn, rfl⟩
  cases e with
  | connect b id =>
      simp only [turn, hRep.side b] at hTurn
      split at hTurn
      · cases hTurn
      next hClosed =>
        rw [← Option.some.inj hTurn]
        exact matched_side hRep (if_neg hClosed)
  | reconcile b id =>
      simp only [turn, hRep.side b] at hTurn
      split at hTurn
      next hOpen =>
        rw [← Option.some.inj hTurn]
        exact matched_side hRep (if_pos hOpen)
      · cases hTurn
  | run b k found => exact matched_run hRep hRead hTurn
  | broadcast b batch =>
      rw [← Option.some.inj hTurn]
      exact matched_broadcast hRep hRead
  | deliver b newId =>
      exact matched_deliver hRep hTurn
  | refresh b =>
      simp only [turn, hRep.side b] at hTurn
      split at hTurn
      · cases hTurn
      next id rest hRefreshes =>
        rw [← Option.some.inj hTurn]
        apply matched_side hRep
        simp only [FloodExchange.step, refreshStep,
          hRefreshes]
  | expire b =>
      rcases Option.map_eq_some_iff.mp hTurn with
        ⟨id, hTimer, rfl⟩
      rw [hRep.side b] at hTimer ⊢
      apply matched_side hRep
      simp only [FloodExchange.step, expireStep, hTimer]
  | timeout b => exact matched_timeout hRep hRead hTurn

/- Each step of the packets is the one of the messages. -/
theorem simulates :
    Transition.Simulates
      (step H dump parse compress peerId)
      FloodExchange.step (ReadsBack dump parse) (seen parse)
      (Represents dump parse compress) := by
  intro x w e w' hRep hRead hStep
  cases e with
  | flood e => exact matched_flood hRep hRead hStep
  | request b request =>
      rcases Option.map_eq_some_iff.mp hStep with
        ⟨m, hTurn, rfl⟩
      rw [← Option.some.inj hTurn]
      exact Matched.unseen (hRep.transmit_unseen hRead rfl)
  | chunk b hdr =>
      rcases Option.map_eq_some_iff.mp hStep with
        ⟨m, hTurn, rfl⟩
      rw [← Option.some.inj hTurn]
      exact Matched.unseen (hRep.transmit_unseen hRead rfl)
  | work b files uploads chunks =>
      rcases Option.map_eq_some_iff.mp hStep with
        ⟨m, hTurn, rfl⟩
      rw [← Option.some.inj hTurn]
      change Matched dump parse compress x []
        (transmit dump compress true [] _)
      rw [transmit_nil]
      apply Matched.unseen
      have hSame : FloodExchange.setSide b (x.side b) x =
          x := by
        simp [FloodExchange.setSide]
      rw [← hSame]
      exact hRep.setNode b (hRep.side b) (hRep.opened b)

end Refinement

theorem represents_start
    {dump : Json → List UInt8}
    {parse : List UInt8 → Option Json}
    {compress : List UInt8 → List UInt8}
    {files : Bool → LocalState}
    {mode : SyncMode}
    (hMode : ∀ b, (files b).mode = mode) :
    Represents dump parse compress
      (FloodExchange.start (fun b => (files b).role) mode)
      (start files) where
  side b := by
    simp [start, FloodExchange.start, Node.fresh, hMode]
  opened _ := rfl
  channel _ := ⟨[], rfl, rfl, by simp⟩

/-
  Two nodes that exchange bytes go through the states of two
  sides that exchange messages: every event of the floods
  happens, in the same order, but for the deliveries of what
  is none of a flood's, and the packets on the way carry the
  messages on the way.
-/
theorem refines_messages
    (H : Bool → Host)
    (dump : Json → List UInt8)
    (parse : List UInt8 → Option Json)
    (compress : List UInt8 → List UInt8)
    (peerId : Bool → String)
    {files : Bool → LocalState}
    {mode : SyncMode}
    {events : List Event}
    {w : Network}
    (hMode : ∀ b, (files b).mode = mode)
    (hRead : Transition.Meets
      (step H dump parse compress peerId)
      (ReadsBack dump parse) (start files) events)
    (hRun : Transition.run
      (step H dump parse compress peerId) (start files)
      events = some w) :
    ∃ x, Transition.run FloodExchange.step
        (FloodExchange.start (fun b => (files b).role) mode)
        (Transition.labels
          (step H dump parse compress peerId) (seen parse)
          (start files) events) = some x ∧
      Represents dump parse compress x w :=
  simulates.run (represents_start hMode) hRead hRun

/- A source and a destination that have nothing yet. -/
def sampleFiles (b : Bool) : LocalState :=
  LocalState.empty Host.plain
    (if b then .source else .destination) .oneWay

/- A flood of one file is announced. -/
def sampleBegin : Json :=
  protocolMessage "sync_begin"
    [("dir_count", .num 0), ("file_count", .num 1),
      ("session_id", .num 5)]

def sampleBeginText : List UInt8 :=
  ("\x7b\"payload\":\x7b\"dir_count\":0,\"file_count\":1," ++
    "\"session_id\":5\x7d,\"type\":\"sync_begin\"\x7d"
    ).toUTF8.data.toList

def readSampleBegin
    (text : List UInt8) : Option Json :=
  if text = sampleBeginText then some sampleBegin else none

/- The announcement arrives, and a request goes back. -/
def sampleEvents : List Event :=
  [.flood (.connect true 5),
    .flood (.run true 0 ⟨[⟨"a.txt", "h", 1, 1⟩], []⟩),
    .flood (.run true 0 ⟨[], []⟩),
    .flood (.deliver false 0)]

theorem refines_messages_begin :
    ∃ w, Transition.run
        (step (fun _ => Host.plain) (fun _ => sampleBeginText)
          readSampleBegin id (fun _ => "p"))
        (start sampleFiles) sampleEvents = some w ∧
      (w.node false).side.expectedFiles = 1 ∧
      ∃ x, Transition.run FloodExchange.step
          (FloodExchange.start
            (fun b => (sampleFiles b).role) .oneWay)
          (Transition.labels
            (step (fun _ => Host.plain)
              (fun _ => sampleBeginText) readSampleBegin id
              (fun _ => "p"))
            (seen readSampleBegin) (start sampleFiles)
            sampleEvents) = some x ∧
        Represents (fun _ => sampleBeginText)
          readSampleBegin id x w := by
  have hRead : Transition.Meets
      (step (fun _ => Host.plain) (fun _ => sampleBeginText)
        readSampleBegin id (fun _ => "p"))
      (ReadsBack (fun _ => sampleBeginText) readSampleBegin)
      (start sampleFiles) sampleEvents := by
    refine .cons (fun p hMem => ?_) rfl ?_
    · cases hMem
    refine .cons (fun p hMem => ?_) rfl ?_
    · cases hMem
    refine .cons (fun p hMem => ?_) rfl ?_
    · rw [List.mem_singleton.mp hMem]
      refine ⟨⟨by decide, by decide, by decide⟩, ?_⟩
      intro json hJson
      rw [← Option.some.inj hJson]
      rfl
    refine .cons (fun p hMem => ?_) rfl trivial
    · cases hMem
  have hRun : ∃ w, Transition.run
        (step (fun _ => Host.plain) (fun _ => sampleBeginText)
          readSampleBegin id (fun _ => "p"))
        (start sampleFiles) sampleEvents = some w ∧
      (w.node false).side.expectedFiles = 1 := ⟨_, rfl, rfl⟩
  rcases hRun with ⟨w, hRun, hExpected⟩
  refine ⟨w, hRun, hExpected, ?_⟩
  exact refines_messages (fun _ => Host.plain)
    (fun _ => sampleBeginText) readSampleBegin id
    (fun _ => "p") (fun _ => rfl) hRead hRun

end PacketExchange

end VeritasSync
