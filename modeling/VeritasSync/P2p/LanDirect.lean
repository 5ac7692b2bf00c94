import VeritasSync.Net.LanDiscovery

/-
  Direct sessions in the local network: the manager's socket,
  whose port the heartbeat carries, and the socket of each
  controller, which the session's datagrams leave from and
  arrive at.

  Every machine has one address.  The system gives a port to
  each socket that is bound, or refuses to.

  Main declarations:
    * `LanController`, `LanController.EndpointsAgree`
    * `P2PManager.startLanDiscovery`, `P2PManager.hear`
    * `P2PManager.Awaits`, `P2PManager.Awaits.hear_other`
    * `P2PManager.endpoints_agree_iff`
-/

namespace VeritasSync

------------------------------------------------------------
-- Controllers
------------------------------------------------------------

@[ext]
structure Endpoint where
  address : String
  port : UInt16
deriving DecidableEq

structure Datagram where
  source : Endpoint
  destination : Endpoint
  payload : List UInt8
deriving DecidableEq

/- A controller without ICE, and where its socket is bound. -/
structure LanController where
  selfId : String
  peerId : String
  lanUdpSocket : Endpoint
  lanPeerEndpoint : Endpoint
  disconnected : Bool
deriving DecidableEq

namespace LanController

/- The controller's socket is bound to a port of its own. -/
def initLanDirect
    (selfId peerId selfIp : String)
    (bound : Option UInt16)
    (peerIp : String)
    (peerKcpPort : UInt16) : Option LanController :=
  bound.map (fun port =>
    { selfId := selfId
      peerId := peerId
      lanUdpSocket := ⟨selfIp, port⟩
      lanPeerEndpoint := ⟨peerIp, peerKcpPort⟩
      disconnected := true })

def initiateConnection (c : LanController) : LanController :=
  { c with disconnected := false }

/- What the session sends, unless its encryption fails. -/
def onLanKcpOutput
    (encrypt : List UInt8 → List UInt8)
    (data : List UInt8)
    (c : LanController) : Option Datagram :=
  let ciphertext := encrypt data
  if c.disconnected || ciphertext.isEmpty then
    none
  else
    some ⟨c.lanUdpSocket, c.lanPeerEndpoint, ciphertext⟩

/- The check of the source of a datagram that was read. -/
def expectsSource
    (c : LanController)
    (source : Endpoint) : Bool :=
  source.address == c.lanPeerEndpoint.address &&
    source.port == c.lanPeerEndpoint.port

/-
  Whatever one controller sends is addressed to the socket
  that the other reads, and comes from where it expects it.
-/
def EndpointsAgree
    (encrypt : List UInt8 → List UInt8)
    (sender receiver : LanController) : Prop :=
  ∀ data datagram,
    sender.onLanKcpOutput encrypt data = some datagram →
      datagram.destination = receiver.lanUdpSocket ∧
        receiver.expectsSource datagram.source = true

theorem expectsSource_iff
    (c : LanController)
    (source : Endpoint) :
    c.expectsSource source = true ↔
      source = c.lanPeerEndpoint := by
  simp [expectsSource, Endpoint.ext_iff]

/- One datagram shows where all of them go. -/
theorem endpointsAgree_iff
    {encrypt : List UInt8 → List UInt8}
    (hEncrypts : ∃ data, encrypt data ≠ [])
    {sender receiver : LanController}
    (hConnected : sender.disconnected = false) :
    EndpointsAgree encrypt sender receiver ↔
      sender.lanPeerEndpoint = receiver.lanUdpSocket ∧
        sender.lanUdpSocket = receiver.lanPeerEndpoint := by
  constructor
  · rcases hEncrypts with ⟨data, hData⟩
    intro hAgree
    have hSent := hAgree data
      ⟨sender.lanUdpSocket, sender.lanPeerEndpoint,
        encrypt data⟩
      (by simp [onLanKcpOutput, hConnected, hData])
    rw [expectsSource_iff] at hSent
    exact hSent
  · intro hMeet data datagram hSent
    simp only [onLanKcpOutput, hConnected] at hSent
    split at hSent
    next => cases hSent
    next =>
      rw [← Option.some.inj hSent, expectsSource_iff]
      exact hMeet

end LanController

------------------------------------------------------------
-- The Manager
------------------------------------------------------------

/- A registered peer: in the local network, or over ICE. -/
inductive Controller where
| lanDirect : LanController → Controller
| ice : Controller
deriving DecidableEq

/- The part of the manager that finds peers in the LAN. -/
structure P2PManager where
  deviceId : String
  trackerSelfId : String
  ip : String
  lanDiscoveryEnabled : Bool
  lanKcpUdpPort : UInt16
  lanDiscovery : Option LanDiscovery
  peerRegistry : AList (fun _ : String => Controller)
deriving DecidableEq

namespace P2PManager

/-
  `bound` is the port of the shared KCP socket, if it could
  be opened and bound.  The heartbeats carry it.
-/
def startLanDiscovery
    (deviceId syncKey : String)
    (bound : Option UInt16)
    (signalingPort : UInt16)
    (m : P2PManager) : P2PManager :=
  if !m.lanDiscoveryEnabled || m.lanDiscovery.isSome then
    m
  else
    let port := bound.getD 0
    let discovery := LanDiscovery.create deviceId syncKey
      port signalingPort
    { m with
      lanKcpUdpPort := port
      lanDiscovery := some discovery.start }

def selfId (m : P2PManager) : String :=
  if m.deviceId = "" then m.trackerSelfId else m.deviceId

/-
  A direct controller when the peer has a KCP port, else one
  over ICE.  `bound` is the port of the controller's socket.
-/
def onLanPeerFound
    (bound : Option UInt16)
    (peer : LanPeerInfo)
    (m : P2PManager) : P2PManager :=
  if m.selfId = "" ∨ peer.deviceId = m.selfId ∨
      (m.peerRegistry.lookup peer.deviceId).isSome then
    m
  else if peer.kcpPort ≠ 0 then
    match LanController.initLanDirect m.selfId peer.deviceId
        m.ip bound peer.lanIp peer.kcpPort with
    | none => m
    | some controller =>
        { m with
          peerRegistry := m.peerRegistry.insert peer.deviceId
            (.lanDirect controller.initiateConnection) }
  else
    { m with
      peerRegistry :=
        m.peerRegistry.insert peer.deviceId .ice }

/- A heartbeat arrives, with the address it came from. -/
def hear
    (data : Json)
    (sender : String)
    (nowMs : ℤ)
    (bound : Option UInt16)
    (m : P2PManager) : P2PManager :=
  match m.lanDiscovery with
  | none => m
  | some d =>
      if d.running then
        let heard := d.handleHeartbeat data sender nowMs
        let m := { m with lanDiscovery := some heard.1 }
        match heard.2 with
        | none => m
        | some peer => m.onLanPeerFound bound peer
      else
        m

/-
  The manager has not found the peer yet, and knows itself.
-/
structure Awaits
    (m : P2PManager)
    (d : LanDiscovery)
    (peerId : String) : Prop where
  discovery : m.lanDiscovery = some d
  running : d.running = true
  advertised : d.kcpUdpPort = m.lanKcpUdpPort
  named : m.selfId ≠ ""
  other : peerId ≠ m.selfId
  unheard : d.peers.lookup peerId = none
  unregistered : m.peerRegistry.lookup peerId = none

/- So it is when the discovery starts. -/
theorem awaits_startLanDiscovery
    {m : P2PManager}
    {peerId : String}
    (hEnabled : m.lanDiscoveryEnabled = true)
    (hFirst : m.lanDiscovery = none)
    (hNamed : m.selfId ≠ "")
    (hOther : peerId ≠ m.selfId)
    (hUnregistered : m.peerRegistry.lookup peerId = none)
    (deviceId syncKey : String)
    (bound : Option UInt16)
    (signalingPort : UInt16) :
    (m.startLanDiscovery deviceId syncKey bound
      signalingPort).Awaits
        (LanDiscovery.create deviceId syncKey
          (bound.getD 0) signalingPort).start peerId := by
  rw [startLanDiscovery, if_neg (by simp [hEnabled, hFirst])]
  exact {
    discovery := rfl
    running := rfl
    advertised := rfl
    named := hNamed
    other := hOther
    unheard := rfl
    unregistered := hUnregistered }

/- What a found peer leaves unchanged. -/
theorem onLanPeerFound_frame
    (bound : Option UInt16)
    (peer : LanPeerInfo)
    (m : P2PManager) :
    ∃ registry, m.onLanPeerFound bound peer =
        { m with peerRegistry := registry } ∧
      ∀ id, id ≠ peer.deviceId →
        registry.lookup id = m.peerRegistry.lookup id := by
  unfold onLanPeerFound
  split
  next => exact ⟨m.peerRegistry, rfl, fun _ _ => rfl⟩
  next =>
    split
    next =>
      split
      next => exact ⟨m.peerRegistry, rfl, fun _ _ => rfl⟩
      next =>
        exact ⟨_, rfl, fun _ hId => AList.lookup_insert_ne hId⟩
    next =>
      exact ⟨_, rfl, fun _ hId => AList.lookup_insert_ne hId⟩

/- Another peer that is found is not this one. -/
theorem Awaits.onLanPeerFound
    {m : P2PManager}
    {d : LanDiscovery}
    {peerId : String}
    {peer : LanPeerInfo}
    (hAwaits : m.Awaits d peerId)
    (hOther : peerId ≠ peer.deviceId)
    (bound : Option UInt16) :
    (m.onLanPeerFound bound peer).Awaits d peerId := by
  rcases onLanPeerFound_frame bound peer m with
    ⟨registry, hRegistry, hFrame⟩
  rw [hRegistry]
  exact { hAwaits with
    unregistered := by
      rw [hFrame peerId hOther, hAwaits.unregistered] }

/- A heartbeat of some other peer does not find this one. -/
theorem Awaits.hear_other
    {m : P2PManager}
    {d e : LanDiscovery}
    {peerId : String}
    (hAwaits : m.Awaits d peerId)
    (hOther : peerId ≠ e.deviceId)
    (sender : String)
    (nowMs : ℤ)
    (bound : Option UInt16) :
    (m.hear e.heartbeat sender nowMs bound).Awaits
      (d.handleHeartbeat e.heartbeat sender nowMs).1
      peerId := by
  simp only [P2PManager.hear, hAwaits.discovery,
    hAwaits.running, if_true]
  by_cases hRelated :
      e.deviceId ≠ d.deviceId ∧ e.syncKey = d.syncKey
  · rw [LanDiscovery.handleHeartbeat_heartbeat hRelated.1
      hRelated.2]
    have hUnheard : (d.peers.insert e.deviceId
        (e.heard sender nowMs)).lookup peerId = none := by
      rw [AList.lookup_insert_ne hOther, hAwaits.unheard]
    dsimp only
    split
    next =>
      exact { hAwaits with
        discovery := rfl
        unheard := hUnheard }
    next peer hPeer =>
      have hFound : peer = e.heard sender nowMs := by
        split at hPeer
        next => cases hPeer
        next => exact (Option.some.inj hPeer).symm
      refine Awaits.onLanPeerFound ?_ (hFound ▸ hOther) bound
      exact { hAwaits with
        discovery := rfl
        unheard := hUnheard }
  · rw [LanDiscovery.handleHeartbeat_heartbeat_of_unrelated
      (by tauto)]
    exact { hAwaits with discovery := rfl }

/- A new peer with a KCP port gets a direct controller. -/
theorem onLanPeerFound_lanDirect
    {m : P2PManager}
    {peer : LanPeerInfo}
    (hNamed : m.selfId ≠ "")
    (hOther : peer.deviceId ≠ m.selfId)
    (hUnregistered :
      m.peerRegistry.lookup peer.deviceId = none)
    (hDirect : peer.kcpPort ≠ 0)
    (port : UInt16) :
    m.onLanPeerFound (some port) peer =
      { m with
        peerRegistry := m.peerRegistry.insert peer.deviceId
          (.lanDirect
            { selfId := m.selfId
              peerId := peer.deviceId
              lanUdpSocket := ⟨m.ip, port⟩
              lanPeerEndpoint := ⟨peer.lanIp, peer.kcpPort⟩
              disconnected := false }) } := by
  rw [onLanPeerFound, if_neg, if_pos hDirect]
  · rfl
  · simp [hNamed, hOther, hUnregistered]

/- The heartbeat of the peer leads to such a controller. -/
theorem Awaits.hear
    {m : P2PManager}
    {d e : LanDiscovery}
    (hAwaits : m.Awaits d e.deviceId)
    (hOther : e.deviceId ≠ d.deviceId)
    (hKey : e.syncKey = d.syncKey)
    (hDirect : e.kcpUdpPort ≠ 0)
    (sender : String)
    (nowMs : ℤ)
    (port : UInt16) :
    (m.hear e.heartbeat sender nowMs
        (some port)).peerRegistry.lookup e.deviceId =
      some (.lanDirect
        { selfId := m.selfId
          peerId := e.deviceId
          lanUdpSocket := ⟨m.ip, port⟩
          lanPeerEndpoint := ⟨sender, e.kcpUdpPort⟩
          disconnected := false }) := by
  simp only [P2PManager.hear, hAwaits.discovery,
    hAwaits.running, if_true,
    LanDiscovery.handleHeartbeat_heartbeat hOther hKey,
    hAwaits.unheard, Option.any_none, Bool.false_eq_true,
    if_false]
  refine (congrArg
    (fun found : P2PManager =>
      found.peerRegistry.lookup e.deviceId)
    (onLanPeerFound_lanDirect ?_ ?_ ?_ hDirect port)).trans
      (AList.lookup_insert _)
  · exact hAwaits.named
  · exact hAwaits.other
  · exact hAwaits.unregistered

/-
  Two managers find each other from their heartbeats.  Their
  direct controllers agree exactly when on both machines the
  controller's socket has the port of the manager's socket.
-/
theorem endpoints_agree_iff
    {encrypt : List UInt8 → List UInt8}
    (hEncrypts : ∃ data, encrypt data ≠ [])
    {mA mB : P2PManager}
    {dA dB : LanDiscovery}
    (hA : mA.Awaits dA dB.deviceId)
    (hB : mB.Awaits dB dA.deviceId)
    (hIds : dA.deviceId ≠ dB.deviceId)
    (hKey : dA.syncKey = dB.syncKey)
    (hBoundA : mA.lanKcpUdpPort ≠ 0)
    (hBoundB : mB.lanKcpUdpPort ≠ 0)
    (nowA nowB : ℤ)
    (portA portB : UInt16) :
    let foundA :=
      mA.hear dB.heartbeat mB.ip nowA (some portA)
    let foundB :=
      mB.hear dA.heartbeat mA.ip nowB (some portB)
    ∃ a b : LanController,
      foundA.peerRegistry.lookup dB.deviceId =
          some (.lanDirect a) ∧
        foundB.peerRegistry.lookup dA.deviceId =
          some (.lanDirect b) ∧
        (a.EndpointsAgree encrypt b ∧
            b.EndpointsAgree encrypt a ↔
          portA = mA.lanKcpUdpPort ∧
            portB = mB.lanKcpUdpPort) := by
  intro foundA foundB
  have hFoundA := hA.hear hIds.symm hKey.symm
    (hB.advertised ▸ hBoundB) mB.ip nowA portA
  have hFoundB := hB.hear hIds hKey
    (hA.advertised ▸ hBoundA) mA.ip nowB portB
  refine ⟨_, _, hFoundA, hFoundB, ?_⟩
  rw [LanController.endpointsAgree_iff hEncrypts rfl,
    LanController.endpointsAgree_iff hEncrypts rfl]
  simp only [Endpoint.mk.injEq, true_and, hA.advertised,
    hB.advertised]
  tauto

/- A manager that has not started its discovery. -/
def idle
    (deviceId ip : String) : P2PManager where
  deviceId := deviceId
  trackerSelfId := ""
  ip := ip
  lanDiscoveryEnabled := true
  lanKcpUdpPort := 0
  lanDiscovery := none
  peerRegistry := ∅

/- With the ports that the sockets really get. -/
theorem endpoints_agree_iff_distinct :
    let mA := (idle "a" "10.0.0.1").startLanDiscovery "a" "k"
      (some 40001) 7001
    let mB := (idle "b" "10.0.0.2").startLanDiscovery "b" "k"
      (some 50001) 7002
    let dA := (LanDiscovery.create "a" "k" 40001 7001).start
    let dB := (LanDiscovery.create "b" "k" 50001 7002).start
    let foundA :=
      mA.hear dB.heartbeat mB.ip 9000 (some 40002)
    let foundB :=
      mB.hear dA.heartbeat mA.ip 9500 (some 50002)
    ∃ a b : LanController,
      foundA.peerRegistry.lookup "b" =
          some (.lanDirect a) ∧
        foundB.peerRegistry.lookup "a" =
          some (.lanDirect b) ∧
        (a.EndpointsAgree id b ∧ b.EndpointsAgree id a ↔
          (40002 : UInt16) = mA.lanKcpUdpPort ∧
            (50002 : UInt16) = mB.lanKcpUdpPort) :=
  endpoints_agree_iff ⟨[1], by decide⟩
    (awaits_startLanDiscovery rfl rfl (by decide) (by decide)
      rfl "a" "k" (some 40001) 7001)
    (awaits_startLanDiscovery rfl rfl (by decide) (by decide)
      rfl "b" "k" (some 50001) 7002)
    (by decide) rfl (by decide) (by decide)
    9000 9500 40002 50002

/-
  The datagram goes to the manager's socket of the other
  machine, which nobody reads, and comes from a port that the
  other controller does not expect.
-/
theorem endpoints_disagree :
    let mA := (idle "a" "10.0.0.1").startLanDiscovery "a" "k"
      (some 40001) 7001
    let mB := (idle "b" "10.0.0.2").startLanDiscovery "b" "k"
      (some 50001) 7002
    let dA := (LanDiscovery.create "a" "k" 40001 7001).start
    let dB := (LanDiscovery.create "b" "k" 50001 7002).start
    let foundA :=
      mA.hear dB.heartbeat mB.ip 9000 (some 40002)
    let foundB :=
      mB.hear dA.heartbeat mA.ip 9500 (some 50002)
    ∃ a b : LanController,
      foundA.peerRegistry.lookup "b" =
          some (.lanDirect a) ∧
        foundB.peerRegistry.lookup "a" =
          some (.lanDirect b) ∧
        a.onLanKcpOutput id [1] =
          some ⟨⟨"10.0.0.1", 40002⟩, ⟨"10.0.0.2", 50001⟩,
            [1]⟩ ∧
        b.lanUdpSocket = ⟨"10.0.0.2", 50002⟩ ∧
        b.expectsSource ⟨"10.0.0.1", 40002⟩ = false ∧
        ¬ a.EndpointsAgree id b := by
  refine ⟨_, _, rfl, rfl, rfl, rfl, by decide, ?_⟩
  intro hAgree
  have hReached := (hAgree [1] _ rfl).1
  revert hReached
  decide

end P2PManager

end VeritasSync
