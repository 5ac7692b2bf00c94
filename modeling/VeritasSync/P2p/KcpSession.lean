import VeritasSync.Common.Json
import VeritasSync.Library.Framing
import VeritasSync.P2p.BroadcastManager
import VeritasSync.Sync.Upload

/-
  How messages reach the transport: what the managers emit,
  and the layers that hand it down to KCP.

  Main declarations:
    * `Ikcp`, `KcpSession`, `PeerController`
    * `PeerController.sendMessage`
    * `Outgoing`, `Outgoing.encode`
-/

namespace VeritasSync

------------------------------------------------------------
-- KCP
------------------------------------------------------------

/- The fragments that a message is cut into. -/
def fragments (fragmentSize length : ℕ) : ℕ :=
  if length ≤ fragmentSize then
    1
  else
    (length + fragmentSize - 1) / fragmentSize

/- `IKCP_WND_RCV`. -/
def fragmentLimit : ℕ := 128

/-
  What the program relies on.  A message of too many
  fragments is refused; any other joins the send queue.  The
  size of a fragment is set once.
-/
structure Ikcp (κ : Type) where
  fragmentSize : κ → ℕ
  sendQueue : κ → List (List UInt8)
  send : κ → List UInt8 → ℤ × κ
  waitsnd : κ → ℕ
  send_refused : ∀ kcp data,
    fragmentLimit ≤
        fragments (fragmentSize kcp) data.length →
      (send kcp data).1 < 0 ∧
        sendQueue (send kcp data).2 = sendQueue kcp
  send_queued : ∀ kcp data,
    fragments (fragmentSize kcp) data.length <
        fragmentLimit →
      0 ≤ (send kcp data).1 ∧
        sendQueue (send kcp data).2 = sendQueue kcp ++ [data]
  fragmentSize_send : ∀ kcp data,
    fragmentSize (send kcp data).2 = fragmentSize kcp

/- The control block is gone once the session is. -/
structure KcpSession (κ : Type) where
  kcp : Option κ

structure PeerController (κ : Type) where
  connected : Bool
  closed : Bool
  kcp : Option (KcpSession κ)

section Sending

variable {κ : Type}
variable
  (K : Ikcp κ)

namespace KcpSession

def intMax : ℕ := 2 ^ 31 - 1

def send
    (session : KcpSession κ)
    (data : List UInt8) : ℤ × KcpSession κ :=
  if intMax < data.length then
    (-1, session)
  else
    match session.kcp with
    | none => (-1, session)
    | some kcp =>
        ((K.send kcp data).1, ⟨some (K.send kcp data).2⟩)

def getWaitSendCount (session : KcpSession κ) : ℤ :=
  match session.kcp with
  | none => 0
  | some kcp => K.waitsnd kcp

def sendQueue (session : KcpSession κ) : List (List UInt8) :=
  match session.kcp with
  | none => []
  | some kcp => K.sendQueue kcp

end KcpSession

namespace PeerController

/- What the session returns is not looked at. -/
def sendMessage
    (controller : PeerController κ)
    (data : List UInt8) : ℤ × PeerController κ :=
  match controller.kcp with
  | none => (-1, controller)
  | some session =>
      let sent := session.send K data
      (sent.2.getWaitSendCount K,
        { controller with kcp := some sent.2 })

def isValid (controller : PeerController κ) : Bool :=
  !controller.closed

def sendQueue
    (controller : PeerController κ) : List (List UInt8) :=
  match controller.kcp with
  | none => []
  | some session => session.sendQueue K

end PeerController

namespace P2PManager

/-
  The send callback of the transfers.  They may outlive the
  manager, and are then told that nothing is pending.
-/
def sendCallback
    (alive : Bool)
    (controller : Option (PeerController κ))
    (data : List UInt8) : ℤ × Option (PeerController κ) :=
  if !alive then
    (0, controller)
  else
    match controller with
    | none => (-1, none)
    | some controller =>
        if controller.connected && controller.isValid then
          let sent := controller.sendMessage K data
          (sent.1, some sent.2)
        else
          (-1, some controller)

/- Nothing is reported to who sends to one peer. -/
def sendOverKcpPeer
    (peer : PeerController κ)
    (packet : List UInt8) : PeerController κ :=
  if peer.connected then
    (peer.sendMessage K packet).2
  else
    peer

end P2PManager

end Sending

------------------------------------------------------------
-- What Is Sent
------------------------------------------------------------

namespace FileInfo

def toJson (info : FileInfo) : Json :=
  .obj
    [("hash", .str info.hash),
      ("mtime", .num info.modifiedTime),
      ("path", .str info.path), ("size", .num info.size)]

end FileInfo

/- A message has its type and its payload. -/
def protocolMessage
    (type : String)
    (payload : List (String × Json)) : Json :=
  .obj [("payload", .obj payload), ("type", .str type)]

namespace Batch

def toJson : Batch → Json
| .fileUpdates files =>
    protocolMessage "file_update_batch"
      [("files", .arr (files.map FileInfo.toJson))]
| .fileDeletes paths =>
    protocolMessage "file_delete_batch"
      [("paths", .arr (paths.map .str))]
| .dirs creates deletes =>
    protocolMessage "dir_batch"
      [("creates", .arr (creates.map .str)),
        ("deletes", .arr (deletes.map .str))]

end Batch

/- What the broadcasts and the transfers hand to KCP. -/
inductive Outgoing where
| syncBegin
    (sessionId fileCount dirCount : ℕ) : Outgoing
| batch (b : Batch) : Outgoing
| goodbye : Outgoing
| chunk (header : TransferManager.ChunkHeader) : Outgoing

namespace Outgoing

def msgTypeJson : UInt8 := 1

def msgTypeBinaryChunk : UInt8 := 128

section Encoding

variable
  (dump : Json → List UInt8)
  (compress : List UInt8 → List UInt8)

def jsonPacket (msg : Json) : List UInt8 :=
  msgTypeJson :: dump msg

/- The length of the path is kept in 16 bits. -/
def binaryPacket
    (header : TransferManager.ChunkHeader) : List UInt8 :=
  let path := header.filePath.toUTF8.data.toList
  [msgTypeBinaryChunk, UInt8.ofNat (path.length / 2 ^ 8),
      UInt8.ofNat path.length] ++
    path ++ Framing.header header.chunkIndex ++
      Framing.header header.totalChunks ++
        compress header.uncompressedData

def encode : Outgoing → List UInt8
| .syncBegin sessionId fileCount dirCount =>
    jsonPacket dump (protocolMessage "sync_begin"
      [("dir_count", .num dirCount),
        ("file_count", .num fileCount),
        ("session_id", .num sessionId)])
| .batch b => jsonPacket dump b.toJson
| .goodbye => jsonPacket dump (protocolMessage "goodbye" [])
| .chunk header => binaryPacket compress header

end Encoding

end Outgoing

end VeritasSync
