import Mathlib.Data.List.AList
import VeritasSync.P2p.IceConnection
import VeritasSync.Sync.Protocol

/-
  The peers that a node is connected to or tries to reach.

  The manager keeps one controller for each peer in its
  registry.  It makes controllers when the tracker or the
  local network tells it of peers, closes them when a peer
  leaves or says goodbye, and pushes the state of the node to
  a peer that gets connected.

  A controller may outlive its entry, since a task can still
  hold it, and events that its transport has posted can still
  come then.

  Main declarations:
    * `Connections.DirectSession`, `Connections.Controller`
    * `Connections.System`, `Connections.connectToPeers`,
      `Connections.onLanPeerFound`
    * `Connections.Event`, `Connections.handle`,
      `Connections.step`
-/

namespace VeritasSync

namespace Connections

------------------------------------------------------------
-- Controllers
------------------------------------------------------------

/- A session over a socket of its own, without ICE. -/
structure DirectSession where
  socketOpen : Bool
  state : PeerState
  closed : Bool
  hasKcp : Bool
  connectedAt : ℤ
  stateChanges : List PeerState
deriving DecidableEq

namespace DirectSession

def create : DirectSession where
  socketOpen := true
  state := .disconnected
  closed := false
  hasKcp := false
  connectedAt := 0
  stateChanges := []

/- It is connected as soon as it is set up. -/
def initiateConnection
    (d : DirectSession)
    (now : ℤ) : DirectSession :=
  if d.socketOpen then
    { d with
      hasKcp := d.hasKcp || !d.closed
      state := .connected
      connectedAt := now
      stateChanges := d.stateChanges ++ [.connected] }
  else
    d

def close (d : DirectSession) : DirectSession :=
  { d with
    closed := true
    state := .disconnected
    hasKcp := false
    socketOpen := false }

end DirectSession

inductive Link where
| ice : IceConnection → Link
| direct : DirectSession → Link
deriving DecidableEq

structure Controller where
  peerId : String
  link : Link
  gracefulShutdown : Bool
  syncSessionId : ℕ
deriving DecidableEq

namespace Controller

def create (selfId peerId : String) : Controller where
  peerId := peerId
  link := .ice (.create selfId peerId)
  gracefulShutdown := false
  syncSessionId := 0

def createLanDirect (peerId : String) : Controller where
  peerId := peerId
  link := .direct .create
  gracefulShutdown := false
  syncSessionId := 0

def getState (c : Controller) : PeerState :=
  match c.link with
  | .ice ice => ice.state
  | .direct session => session.state

def isClosed (c : Controller) : Bool :=
  match c.link with
  | .ice ice => ice.closed
  | .direct session => session.closed

/- The states that the manager was told of. -/
def stateChanges (c : Controller) : List PeerState :=
  match c.link with
  | .ice ice => ice.stateChanges
  | .direct session => session.stateChanges

def isOfferSide (c : Controller) : Bool :=
  match c.link with
  | .ice ice => ice.isOfferSide
  | .direct _ => false

def initiateConnection
    (c : Controller)
    (now : ℤ) : Controller :=
  match c.link with
  | .ice ice => { c with link := .ice ice.initiateConnection }
  | .direct session =>
      { c with
        link := .direct (session.initiateConnection now) }

/- Without ICE there is nothing to signal. -/
def handleSignaling
    (c : Controller)
    (signalType payload : String) : Controller :=
  match c.link with
  | .ice ice =>
      { c with
        link := .ice (ice.handleSignaling signalType payload) }
  | .direct _ => c

def close (c : Controller) : Controller :=
  match c.link with
  | .ice ice => { c with link := .ice ice.close }
  | .direct session =>
      { c with link := .direct session.close }

/- What the transport tells; only ICE tells anything. -/
def onIce
    (c : Controller)
    (told : IceConnection → IceConnection) :
    Controller :=
  match c.link with
  | .ice ice => { c with link := .ice (told ice) }
  | .direct _ => c

end Controller

------------------------------------------------------------
-- The Registry
------------------------------------------------------------

/-
  The manager.  Controllers are numbered in the order in which
  they are made.  `selfId` is the id of the tracker client, if
  there is one; `floods` are the pushes that were posted, with
  the controller and its session; `cancelled` the peers whose
  transfers were cancelled; `signalled` what was handed to
  the tracker client for a peer; and `gone` tells that the
  manager has been destroyed.
-/
structure System where
  deviceId : String
  selfId : Option String
  role : SyncRole
  mode : SyncMode
  registry : AList (fun _ : String => ℕ)
  controllers : List Controller
  answerTimers : List ℕ
  floods : List (ℕ × ℕ)
  cancelled : List String
  signalled : List (String × String × String)
  gone : Bool

def start
    (deviceId : String)
    (hasTracker : Bool)
    (role : SyncRole)
    (mode : SyncMode) : System where
  deviceId := deviceId
  selfId := if hasTracker then some "" else none
  role := role
  mode := mode
  registry := ∅
  controllers := []
  answerTimers := []
  floods := []
  cancelled := []
  signalled := []
  gone := false

namespace System

variable (s : System)

def find (peerId : String) : Option ℕ :=
  s.registry.lookup peerId

/- Change one controller. -/
def modify
    (i : ℕ)
    (f : Controller → Controller) : System :=
  { s with controllers := s.controllers.modify i f }

/- A new controller is not in the registry yet. -/
def make (c : Controller) : ℕ × System :=
  (s.controllers.length,
    { s with controllers := s.controllers ++ [c] })

def stateOf (i : ℕ) : PeerState :=
  ((s.controllers[i]?).map Controller.getState).getD
    .disconnected

/- `true` when the controller has been put in. -/
def tryAdd
    (peerId : String)
    (i : ℕ) : Bool × System :=
  if (s.find peerId).isSome then
    (false, s)
  else
    (true,
      { s with registry := s.registry.insert peerId i })

def remove (peerId : String) : System :=
  { s with registry := s.registry.erase peerId }

/- `true` when the peer is to be left as it is. -/
def tryReuseOrEvict
    (peerId : String)
    (force : Bool) : Bool × System :=
  match s.find peerId with
  | none => (false, s)
  | some i =>
      if force = false ∧ (s.stateOf i = .connected ∨
          s.stateOf i = .connecting) then
        (true, s)
      else
        (false, (s.modify i .close).remove peerId)

/- What the destructor does. -/
def closeAll : System :=
  { s with
    controllers := (s.registry.entries.map Sigma.snd).foldl
      (fun controllers i =>
        controllers.modify i .close) s.controllers
    registry := ∅
    gone := true }

end System

------------------------------------------------------------
-- Connecting
------------------------------------------------------------

/- The peers that need a controller. -/
def choosePeers
    (selfId : String)
    (force : Bool) :
    List String → System → List String × System
| [], s => ([], s)
| peerId :: peers, s =>
    if peerId = selfId then
      choosePeers selfId force peers s
    else
      match s.tryReuseOrEvict peerId force with
      | (true, s) => choosePeers selfId force peers s
      | (false, s) =>
          let rest := choosePeers selfId force peers s
          (peerId :: rest.1, rest.2)

/- A controller for each, where it can be made. -/
def createPeers
    (selfId : String) :
    List (String × Bool) → System →
      List (String × ℕ) × System
| [], s => ([], s)
| (_, false) :: peers, s => createPeers selfId peers s
| (peerId, true) :: peers, s =>
    let made := s.make (.create selfId peerId)
    let rest := createPeers selfId peers made.2
    ((peerId, made.1) :: rest.1, rest.2)

def offers (s : System) (i : ℕ) : Bool :=
  (s.controllers[i]?).any Controller.isOfferSide

/- One side makes the offer and the other waits for it. -/
def offerOrWait
    (i : ℕ)
    (now : ℤ)
    (s : System) : System :=
  if offers s i then
    s.modify i (fun c => c.initiateConnection now)
  else
    { s with answerTimers := s.answerTimers ++ [i] }

def addPeer
    (now : ℤ)
    (s : System)
    (fresh : String × ℕ) : System :=
  match s.tryAdd fresh.1 fresh.2 with
  | (false, s) => s.modify fresh.2 .close
  | (true, s) => offerOrWait fresh.2 now s

/-
  `created` tells for each of the chosen peers whether its
  controller can be made.
-/
def connectToPeers
    (peers : List String)
    (force : Bool)
    (created : ℕ → Bool)
    (now : ℤ)
    (s : System) : System :=
  match s.selfId with
  | none => s
  | some selfId =>
      if selfId = "" then
        s
      else
        let chosen := choosePeers selfId force peers s
        let fresh := createPeers selfId
          (chosen.1.zipIdx.map
            (fun peer => (peer.1, created peer.2))) chosen.2
        fresh.1.foldl (addPeer now) fresh.2

/- What a node does when a controller reports its state. -/
def handlePeerStateChanged
    (peerId : String)
    (state : PeerState)
    (sessionId : ℕ)
    (s : System) : System :=
  if state = .connected ∧
      (s.role = .source ∨ s.mode = .biDirectional) then
    match s.find peerId with
    | none => s
    | some i =>
        { s.modify i (fun c =>
            { c with syncSessionId := sessionId }) with
          floods := s.floods ++ [(i, sessionId)] }
  else
    s

/-
  A call to a controller, and the callback for each state that
  it reports.
-/
def withCallback
    (i : ℕ)
    (f : Controller → Controller)
    (sessionId : ℕ)
    (s : System) : System :=
  match s.controllers[i]? with
  | none => s
  | some c =>
      ((f c).stateChanges.drop c.stateChanges.length).foldl
        (fun s state =>
          handlePeerStateChanged c.peerId state sessionId s)
        (s.modify i f)

/- The id that the local network knows the node by. -/
def lanSelfId (s : System) : String :=
  if s.deviceId = "" then
    s.selfId.getD ""
  else
    s.deviceId

/-
  A peer that tells the port of its session socket is reached
  directly, any other over ICE.
-/
def onLanPeerFound
    (deviceId : String)
    (kcpPort : ℕ)
    (created : Bool)
    (now : ℤ)
    (sessionId : ℕ)
    (s : System) : System :=
  if lanSelfId s = "" ∨ deviceId = lanSelfId s ∨
      (s.find deviceId).isSome = true then
    s
  else if created = false then
    s
  else if kcpPort ≠ 0 then
    let made := s.make (.createLanDirect deviceId)
    match made.2.tryAdd deviceId made.1 with
    | (false, s) => s.modify made.1 .close
    | (true, s) =>
        withCallback made.1
          (fun c => c.initiateConnection now) sessionId s
  else
    let made := s.make (.create (lanSelfId s) deviceId)
    addPeer now made.2 (deviceId, made.1)

------------------------------------------------------------
-- Leaving
------------------------------------------------------------

def handlePeerLeave
    (peerId : String)
    (s : System) : System :=
  match s.find peerId with
  | none => s
  | some i =>
      { (s.modify i .close).remove peerId with
        cancelled := s.cancelled ++ [peerId] }

/- A message of a peer is taken for its controller's. -/
def handleGoodbye
    (peerId : String)
    (s : System) : System :=
  match s.find peerId with
  | none => s
  | some i =>
      { (s.modify i (fun c =>
          { c with gracefulShutdown := true }.close)).remove
            peerId with
        cancelled := s.cancelled ++ [peerId] }

------------------------------------------------------------
-- Signals
------------------------------------------------------------

/- A signal of a peer without controller is dropped. -/
def handleSignalingMessage
    (fromId signalType payload : String)
    (s : System) : System :=
  match s.find fromId with
  | none => s
  | some i =>
      s.modify i (fun c =>
        c.handleSignaling signalType payload)

/- The signals that an ICE controller asks to be sent. -/
def signalsNeeded (c : Controller) :
    List (String × String) :=
  match c.link with
  | .ice ice => ice.signalsNeeded
  | .direct _ => []

def withSignals
    (i : ℕ)
    (told : IceConnection → IceConnection)
    (s : System) : System :=
  match s.controllers[i]? with
  | none => s
  | some c =>
      let new := (signalsNeeded (c.onIce told)).drop
        (signalsNeeded c).length
      let s' := s.modify i (fun c => c.onIce told)
      if s.selfId.isSome then
        { s' with
          signalled := s'.signalled ++
            new.map (fun signal => (c.peerId, signal)) }
      else
        s'

------------------------------------------------------------
-- Runs
------------------------------------------------------------

/-
  The tracker client learns its id, or passes a notice on; the
  local network finds or loses a peer; a peer says goodbye;
  the transport of a controller tells something; a wait for
  an offer ends; the manager goes away.
-/
inductive Event where
| selfId : String → Event
| connectToPeers
    (peers : List String)
    (force : Bool)
    (created : ℕ → Bool)
    (now : ℤ) : Event
| peerLeave : String → Event
| signal (fromId signalType payload : String) : Event
| lanFound
    (deviceId : String)
    (kcpPort : ℕ)
    (created : Bool)
    (now : ℤ)
    (sessionId : ℕ) : Event
| lanLost : String → Event
| goodbye : String → Event
| iceState
    (i : ℕ)
    (state : IceState)
    (now : ℤ)
    (sessionId : ℕ) : Event
| localCandidate (i : ℕ) (candidate : String) : Event
| gatheringDone (i : ℕ) (localDesc : String) : Event
| answerTimeout : ℕ → Event
| closeAll : Event

def handle
    (s : System) : Event → Option System
| .selfId id =>
    some { s with selfId := s.selfId.map (fun _ => id) }
| .connectToPeers peers force created now =>
    some (connectToPeers peers force created now s)
| .peerLeave peerId => some (handlePeerLeave peerId s)
| .signal fromId signalType payload =>
    some (handleSignalingMessage fromId signalType payload s)
| .lanFound deviceId kcpPort created now sessionId =>
    some (onLanPeerFound deviceId kcpPort created now
      sessionId s)
| .lanLost deviceId => some (handlePeerLeave deviceId s)
| .goodbye peerId => some (handleGoodbye peerId s)
| .iceState i state now sessionId =>
    some (withCallback i
      (fun c => c.onIce (fun ice =>
        ice.onIceStateChanged state now)) sessionId s)
| .localCandidate i candidate =>
    some (withSignals i
      (fun ice => ice.onIceLocalCandidate candidate) s)
| .gatheringDone i localDesc =>
    some (withSignals i
      (fun ice => ice.onIceGatheringDone localDesc) s)
| .answerTimeout i =>
    -- a wait that is over is only logged
    if i ∈ s.answerTimers then
      some { s with answerTimers := s.answerTimers.erase i }
    else
      none
| .closeAll => some s.closeAll

/-
  The callbacks hold the manager weakly: once it is gone,
  nothing runs.
-/
def step
    (s : System)
    (e : Event) : Option System :=
  if s.gone then none else handle s e

theorem step_eq_some_iff
    {s s' : System}
    {e : Event} :
    step s e = some s' ↔
      s.gone = false ∧ handle s e = some s' := by
  unfold step
  cases s.gone with
  | true => simp
  | false => simp

end Connections

end VeritasSync
