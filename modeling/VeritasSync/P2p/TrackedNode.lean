import VeritasSync.P2p.PeerConnections
import VeritasSync.P2p.TrackerClient
import VeritasSync.Tracker.TrackerServer

/-
  A node that follows its tracker: the client of the tracker
  together with the manager of the peer connections, which it
  calls for each message.

  Main declarations:
    * `Notice.message`
    * `TrackedNode`, `TrackedNode.handleMessage`
    * `TrackedNode.Event`, `TrackedNode.step`
-/

namespace VeritasSync

open Transition

/- The text of what the tracker sends. -/
def Notice.message : Notice → Json
| .regAck selfId peers =>
    .obj
      [("payload", .obj
        [("peers", .arr (peers.map .str)),
          ("self_id", .str selfId)]),
        ("type", .str "REG_ACK")]
| .peerJoin peerId =>
    .obj
      [("payload", .obj [("peer_id", .str peerId)]),
        ("type", .str "PEER_JOIN")]
| .peerLeave peerId =>
    .obj
      [("payload", .obj [("peer_id", .str peerId)]),
        ("type", .str "PEER_LEAVE")]
| .signal msg => msg

/- The callback of a node connects to the peers it is given. -/
def TrackerClient.Call.event
    (created : ℕ → Bool)
    (now : ℤ) :
    TrackerClient.Call → Connections.Event
| .ready _ peers => .connectToPeers peers false created now
| .connectToPeers peers force =>
    .connectToPeers peers force created now
| .handlePeerLeave peerId => .peerLeave peerId
| .handleSignalingMessage fromId signalType sdp =>
    .signal fromId signalType sdp

structure TrackedNode where
  client : TrackerClient
  manager : Connections.System

namespace TrackedNode

/- The client is started with the manager set. -/
def start
    (deviceId : String)
    (role : SyncRole)
    (mode : SyncMode) : TrackedNode where
  client := { TrackerClient.start with
    hasP2pManager := true
    deviceId := deviceId }
  manager := Connections.start deviceId true role mode

/- What the client asks of the manager for a message. -/
def callsFor
    (client : TrackerClient)
    (msg : Json) : List TrackerClient.Call :=
  (client.handleMessage msg).calls.drop client.calls.length

/-
  The manager sees the id that the client has by then.
  `created k` tells which controllers can be made in the call
  at `k`.
-/
def eventsFor
    (client : TrackerClient)
    (msg : Json)
    (created : ℕ → ℕ → Bool)
    (now : ℤ) : List Connections.Event :=
  .selfId (client.handleMessage msg).selfId ::
    (callsFor client msg).zipIdx.map
      (fun call => call.1.event (created call.2) now)

def handleMessage
    (msg : Json)
    (created : ℕ → ℕ → Bool)
    (now : ℤ)
    (n : TrackedNode) : Option TrackedNode :=
  (run Connections.step n.manager
    (eventsFor n.client msg created now)).map
      (fun manager =>
        ⟨n.client.handleMessage msg, manager⟩)

/- What the manager hears from elsewhere. -/
def isOwn : Connections.Event → Bool
| .selfId _ | .connectToPeers _ _ _ _ => false
| .peerLeave _ | .signal _ _ _ => false
| _ => true

/-
  The node wants to connect to its tracker; the tracker tells
  it something; the manager hears from the local network, a
  peer or a transport.
-/
inductive Event where
| connect (syncKey : String) (onReady : Option ℕ) : Event
| notice
    (notice : Notice)
    (created : ℕ → ℕ → Bool)
    (now : ℤ) : Event
| manager : Connections.Event → Event

def step
    (n : TrackedNode) : Event → Option TrackedNode
| .connect syncKey onReady =>
    some { n with
      client := n.client.connectCall syncKey onReady }
| .notice notice created now =>
    n.handleMessage notice.message created now
| .manager e =>
    if isOwn e then
      (Connections.step n.manager e).map
        (fun manager => { n with manager := manager })
    else
      none

/- The notices that the node has handled in a run. -/
def told (events : List Event) : List Notice :=
  events.filterMap (fun e =>
    match e with
    | .notice notice _ _ => some notice
    | _ => none)

end TrackedNode

end VeritasSync
