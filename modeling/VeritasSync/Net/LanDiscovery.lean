import VeritasSync.Common.Json
import VeritasSync.Library.FileTree

/-
  Discovery of peers in the local network: heartbeats sent to
  a multicast group, and the peers heard of.

  A heartbeat is the JSON value that its text stands for.
  The channels for signals are left out: they open and close
  with the peers and decide nothing about them.

  Main declarations:
    * `LanPeerInfo`, `LanDiscovery`
    * `LanDiscovery.makeHeartbeatPayload`,
      `LanDiscovery.parseHeartbeat`
    * `LanDiscovery.handleHeartbeat`,
      `LanDiscovery.doSendHeartbeat`,
      `LanDiscovery.checkTimeouts`
-/

namespace VeritasSync

/- What is known of a peer found in the local network. -/
structure LanPeerInfo where
  deviceId : String
  lanIp : String
  signalingPort : UInt16
  kcpPort : UInt16
  lastSeenMs : ℤ
deriving DecidableEq

structure LanDiscovery where
  deviceId : String
  syncKey : String
  kcpUdpPort : UInt16
  signalingPort : UInt16
  peers : AList (fun _ : String => LanPeerInfo)
  lastActivityTime : ℤ
  running : Bool
deriving DecidableEq

namespace LanDiscovery

/- A device that has not been started. -/
def create
    (deviceId syncKey : String)
    (kcpUdpPort signalingPort : UInt16) : LanDiscovery where
  deviceId := deviceId
  syncKey := syncKey
  kcpUdpPort := kcpUdpPort
  signalingPort := signalingPort
  peers := ∅
  lastActivityTime := 0
  running := false

def heartbeatIntervalMs : ℤ := 2000

def heartbeatIdleThresholdMs : ℤ := 5000

def peerTimeoutMs : ℤ := 120000

def timeoutCheckIntervalMs : ℤ := 5000

------------------------------------------------------------
-- Heartbeats
------------------------------------------------------------

def makeHeartbeatPayload
    (deviceId syncKey : String)
    (signalingPort kcpPort : UInt16) : Json :=
  .obj
    [("device_id", .str deviceId),
      ("sync_key", .str syncKey),
      ("signaling_port", .num signalingPort.toNat),
      ("kcp_port", .num kcpPort.toNat)]

/- What `parse_heartbeat` reads from the message. -/
structure Heartbeat where
  deviceId : String
  syncKey : String
  signalingPort : UInt16
  kcpPort : UInt16

/-
  A message without a member that is asked for, or with one
  of another type, is dropped.  A missing KCP port is 0.
-/
def parseHeartbeat (payload : Json) : Option Heartbeat := do
  let deviceId ← payload.strAt? "device_id"
  let syncKey ← payload.strAt? "sync_key"
  let signalingPort ←
    (payload.find? "signaling_port").bind Json.uint16?
  let kcpPort ← match payload.find? "kcp_port" with
    | none => some 0
    | some member => member.uint16?
  some ⟨deviceId, syncKey, signalingPort, kcpPort⟩

/- A heartbeat is read as it was made. -/
@[simp]
theorem parseHeartbeat_makeHeartbeatPayload
    (deviceId syncKey : String)
    (signalingPort kcpPort : UInt16) :
    parseHeartbeat (makeHeartbeatPayload deviceId syncKey
      signalingPort kcpPort) =
        some ⟨deviceId, syncKey, signalingPort, kcpPort⟩ := by
  simp [parseHeartbeat, makeHeartbeatPayload, Json.strAt?,
    Json.find?, Json.str?]

------------------------------------------------------------
-- The Peers Heard Of
------------------------------------------------------------

/-
  A heartbeat from another device with the same key counts as
  activity.  The peer is reported when it is new or has
  another address.
-/
def handleHeartbeat
    (data : Json)
    (sender : String)
    (nowMs : ℤ)
    (d : LanDiscovery) :
    LanDiscovery × Option LanPeerInfo :=
  match parseHeartbeat data with
  | none => (d, none)
  | some heartbeat =>
      if heartbeat.deviceId = d.deviceId then
        (d, none)
      else if heartbeat.syncKey ≠ d.syncKey then
        (d, none)
      else
        let known := d.peers.lookup heartbeat.deviceId
        let info : LanPeerInfo :=
          ⟨heartbeat.deviceId, sender,
            heartbeat.signalingPort, heartbeat.kcpPort,
            nowMs⟩
        let unchanged := known.any (fun info =>
          info.lanIp == sender &&
            info.signalingPort == heartbeat.signalingPort)
        ({ d with
            peers := d.peers.insert heartbeat.deviceId info
            lastActivityTime := nowMs },
          if unchanged then none else some info)

/- What a message leaves as it is. -/
theorem handleHeartbeat_frame
    (data : Json)
    (sender : String)
    (nowMs : ℤ)
    (d : LanDiscovery) :
    (d.handleHeartbeat data sender nowMs).1.deviceId =
        d.deviceId ∧
      (d.handleHeartbeat data sender nowMs).1.syncKey =
        d.syncKey ∧
      (d.handleHeartbeat data sender nowMs).1.running =
        d.running := by
  unfold handleHeartbeat
  split
  next => exact ⟨rfl, rfl, rfl⟩
  next =>
    split
    next => exact ⟨rfl, rfl, rfl⟩
    next =>
      split
      next => exact ⟨rfl, rfl, rfl⟩
      next => exact ⟨rfl, rfl, rfl⟩

/- The heartbeat of the device. -/
def heartbeat (d : LanDiscovery) : Json :=
  makeHeartbeatPayload d.deviceId d.syncKey d.signalingPort
    d.kcpUdpPort

/- What is known of a device once its heartbeat arrived. -/
def heard
    (e : LanDiscovery)
    (sender : String)
    (nowMs : ℤ) : LanPeerInfo :=
  ⟨e.deviceId, sender, e.signalingPort, e.kcpUdpPort, nowMs⟩

/- The heartbeat of another device with the same key. -/
theorem handleHeartbeat_heartbeat
    {d e : LanDiscovery}
    (hOther : e.deviceId ≠ d.deviceId)
    (hKey : e.syncKey = d.syncKey)
    (sender : String)
    (nowMs : ℤ) :
    d.handleHeartbeat e.heartbeat sender nowMs =
      ({ d with
          peers :=
            d.peers.insert e.deviceId (e.heard sender nowMs)
          lastActivityTime := nowMs },
        if (d.peers.lookup e.deviceId).any (fun info =>
            info.lanIp == sender &&
              info.signalingPort == e.signalingPort) then
          none
        else
          some (e.heard sender nowMs)) := by
  simp [handleHeartbeat, heartbeat, hOther, hKey, heard]

/- Any other heartbeat leaves the device as it was. -/
theorem handleHeartbeat_heartbeat_of_unrelated
    {d e : LanDiscovery}
    (hUnrelated :
      e.deviceId = d.deviceId ∨ e.syncKey ≠ d.syncKey)
    (sender : String)
    (nowMs : ℤ) :
    d.handleHeartbeat e.heartbeat sender nowMs =
      (d, none) := by
  rcases hUnrelated with hOwn | hKey
  · simp [handleHeartbeat, heartbeat, hOwn]
  · simp [handleHeartbeat, heartbeat, hKey]

/- What is known of a device after a heartbeat. -/
theorem lookup_peers_handleHeartbeat
    (d e : LanDiscovery)
    (sender : String)
    (nowMs : ℤ)
    (id : String) :
    (d.handleHeartbeat e.heartbeat sender
        nowMs).1.peers.lookup id =
      if id = e.deviceId ∧ e.deviceId ≠ d.deviceId ∧
          e.syncKey = d.syncKey then
        some (e.heard sender nowMs)
      else
        d.peers.lookup id := by
  by_cases hRelated :
      e.deviceId ≠ d.deviceId ∧ e.syncKey = d.syncKey
  · rw [handleHeartbeat_heartbeat hRelated.1 hRelated.2]
    dsimp only
    by_cases hId : id = e.deviceId
    · rw [if_pos ⟨hId, hRelated⟩, hId]
      exact AList.lookup_insert _
    · rw [if_neg (fun hAll => hId hAll.1)]
      exact AList.lookup_insert_ne hId
  · rw [handleHeartbeat_heartbeat_of_unrelated (by tauto),
      if_neg (fun hAll => hRelated hAll.2)]

def hasRecentActivity
    (nowMs : ℤ)
    (d : LanDiscovery) : Bool :=
  decide (nowMs - d.lastActivityTime <
    heartbeatIdleThresholdMs)

/- What the timer sends: nothing after recent activity. -/
def doSendHeartbeat
    (nowMs : ℤ)
    (d : LanDiscovery) : Option Json :=
  if d.running && !d.hasRecentActivity nowMs then
    some d.heartbeat
  else
    none

def isStale
    (nowMs : ℤ)
    (info : LanPeerInfo) : Bool :=
  decide (nowMs - info.lastSeenMs > peerTimeoutMs)

/- The peers that are left, and those reported as lost. -/
def checkTimeouts
    (nowMs : ℤ)
    (d : LanDiscovery) : LanDiscovery × List String :=
  if d.running then
    let stalePeers := (d.peers.entries.filter
      (fun entry => isStale nowMs entry.2)).map
        Sigma.fst
    ({ d with
        peers := stalePeers.foldl
          (fun peers id => peers.erase id) d.peers },
      stalePeers)
  else
    (d, [])

/- The peers that a check reports. -/
theorem mem_checkTimeouts_iff
    {d : LanDiscovery}
    {nowMs : ℤ}
    {id : String}
    (hRunning : d.running = true) :
    id ∈ (d.checkTimeouts nowMs).2 ↔
      ∃ info, d.peers.lookup id = some info ∧
        isStale nowMs info = true := by
  rw [checkTimeouts, if_pos hRunning]
  constructor
  · intro hMem
    rcases List.mem_map.mp hMem with ⟨entry, hEntry, rfl⟩
    rcases List.mem_filter.mp hEntry with ⟨hIn, hStale⟩
    exact ⟨entry.2,
      AList.mem_lookup_iff.mpr hIn, hStale⟩
  · rintro ⟨info, hLookup, hStale⟩
    exact List.mem_map.mpr ⟨⟨id, info⟩,
      List.mem_filter.mpr
        ⟨AList.mem_lookup_iff.mp hLookup, hStale⟩, rfl⟩

/- They are the ones that it removes. -/
theorem lookup_checkTimeouts
    (d : LanDiscovery)
    (nowMs : ℤ)
    (id : String) :
    (d.checkTimeouts nowMs).1.peers.lookup id =
      if id ∈ (d.checkTimeouts nowMs).2 then none
      else d.peers.lookup id := by
  unfold checkTimeouts
  split
  next => exact AList.lookup_foldl_erase ..
  next => rfl

/- What a check leaves as it is. -/
theorem checkTimeouts_frame
    (nowMs : ℤ)
    (d : LanDiscovery) :
    ∃ peers, (d.checkTimeouts nowMs).1 =
        { d with peers := peers } ∧
      (d.running = false → peers = d.peers) := by
  unfold checkTimeouts
  split
  next hRunning =>
    refine ⟨_, rfl, ?_⟩
    intro hIdle
    rw [hRunning] at hIdle
    cases hIdle
  next => exact ⟨d.peers, rfl, fun _ => rfl⟩

/- The sockets are open and the timers are set. -/
def start (d : LanDiscovery) : LanDiscovery :=
  { d with running := true }

def stop (d : LanDiscovery) : LanDiscovery :=
  if d.running then
    { d with running := false, peers := ∅ }
  else
    d

theorem stop_cases
    (d : LanDiscovery) :
    d.stop = { d with running := false, peers := ∅ } ∨
      d.running = false ∧ d.stop = d := by
  unfold stop
  split
  next => exact Or.inl rfl
  next hIdle => exact Or.inr ⟨by simpa using hIdle, rfl⟩

end LanDiscovery

end VeritasSync
