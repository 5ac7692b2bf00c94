import VeritasSync.Library.Transition
import VeritasSync.Library.WriteQueue
import VeritasSync.P2p.TrackerFrames
import Mathlib.Logic.Function.Iterate

/-
  The client of the tracker on the event loop of the peer
  connections: one thread runs the handlers whose operations
  have completed, one after the other.

  Main declarations:
    * `TrackerClient`, `TrackerClient.Pending`
    * `TrackerClient.handle`
    * `TrackerClient.Event`, `TrackerClient.step`
-/

namespace VeritasSync

namespace TrackerClient

inductive State where
| disconnected : State
| connecting : State
| registering : State
| connected : State
| stopping : State
deriving DecidableEq

------------------------------------------------------------
-- Operations
------------------------------------------------------------

/- A framed message in the queue. -/
abbrev Packet := WriteQueue.Queued (List UInt8)

/- An operation is aborted when its socket is closed. -/
inductive Outcome where
| success : Outcome
| aborted : Outcome
| failure : Outcome
deriving DecidableEq

/- A write names the connection it was started on. -/
inductive Op where
| resolve : Op
| connect : Op
| readHeader : Op
| readBody : Op
| write (connection : ℕ) (packet : Packet) : Op
| timer (delay : ℕ) : Op
| connectCall
    (syncKey : String)
    (onReady : Option ℕ) : Op
| writeCall (msg : List UInt8) : Op
| stopImpl : Op
deriving DecidableEq

def Op.usesSocket : Op → Bool
| .connect | .readHeader | .readBody | .write _ _ => true
| _ => false

def Op.isRead : Op → Bool
| .readHeader | .readBody => true
| _ => false

def Op.isTimer : Op → Bool
| .timer _ => true
| _ => false

/- What ends an operation that nobody has cancelled. -/
def Op.canEnd : Op → Outcome → Bool
| .readHeader, .failure => true
| .readBody, .failure => true
| .timer _, .success => true
| .resolve, outcome => outcome != .aborted
| .connect, outcome => outcome != .aborted
| .write _ _, outcome => outcome != .aborted
| _, _ => false

/-
  An operation whose handler has not run.  It has an outcome
  once it has completed; `missing` is what a read waits for.
-/
structure Pending where
  op : Op
  missing : ℕ
  outcome : Option Outcome
deriving DecidableEq

namespace Pending

/- An operation that has completed stays as it is. -/
def abort
    (cancelled : Op → Bool)
    (p : Pending) : Pending :=
  if cancelled p.op then
    { p with outcome := p.outcome.or (some .aborted) }
  else
    p

def finish
    (outcome : Outcome)
    (p : Pending) : Pending :=
  { p with outcome := some outcome }

def receive
    (count : ℕ)
    (p : Pending) : Pending :=
  { p with
    missing := p.missing - count
    outcome :=
      if p.missing ≤ count then some .success else none }

def restart (p : Pending) : Pending :=
  { p with outcome := none }

end Pending

/- What the client has asked of the peer connections. -/
inductive Call where
| ready (callback : ℕ) (peers : List String) : Call
| connectToPeers (peers : List String) (force : Bool) : Call
| handlePeerLeave (peerId : String) : Call
| handleSignalingMessage
    (fromId signalType sdp : String) : Call
deriving DecidableEq

end TrackerClient

open TrackerClient in
/-
  The members of the client, the operations it has begun, and
  what it has done so far.  `connection` counts the times the
  socket was closed or opened, `nextSerial` the packets,
  `attempts` the resolutions and connections begun, and
  `armed` the reconnect timers set.
-/
structure TrackerClient where
  state : TrackerClient.State
  socketOpen : Bool
  syncKey : String
  selfId : String
  deviceId : String
  onReadyCallback : Option ℕ
  pendingReadyCallbacks : List ℕ
  hasP2pManager : Bool
  readBuffer : List UInt8
  writeQueue : List Packet
  reconnectAttempts : ℕ
  pending : List Pending
  connection : ℕ
  nextSerial : ℕ
  attempts : ℕ
  armed : ℕ
  calls : List Call
  queueLog : List (WriteQueue.Event (List UInt8))

namespace TrackerClient

def start : TrackerClient where
  state := .disconnected
  socketOpen := false
  syncKey := ""
  selfId := ""
  deviceId := ""
  onReadyCallback := none
  pendingReadyCallbacks := []
  hasP2pManager := false
  readBuffer := []
  writeQueue := []
  reconnectAttempts := 0
  pending := []
  connection := 0
  nextSerial := 0
  attempts := 0
  armed := 0
  calls := []
  queueLog := []

------------------------------------------------------------
-- The Socket, The Timer And The Queue
------------------------------------------------------------

section Basics

variable
  (c : TrackerClient)

def await (p : Pending) : TrackerClient :=
  { c with pending := c.pending ++ [p] }

/- Every operation on the socket that is under way ends. -/
def closeSocket : TrackerClient :=
  { c with
    socketOpen := false
    connection := c.connection + 1
    pending := c.pending.map (Pending.abort Op.usesSocket) }

def openSocket : TrackerClient :=
  { c.closeSocket with socketOpen := true }

def cancelTimer : TrackerClient :=
  { c with
    pending := c.pending.map (Pending.abort Op.isTimer) }

/- A new expiry cancels the wait for the old one. -/
def armTimer (delay : ℕ) : TrackerClient :=
  { c.cancelTimer.await ⟨.timer delay, 0, none⟩ with
    armed := c.armed + 1 }

/- On a closed socket an operation fails at once. -/
def onSocket (c : TrackerClient) : Option Outcome :=
  if c.socketOpen then none else some .failure

/- To read nothing succeeds at once, also when closed. -/
def asyncRead
    (op : Op)
    (count : ℕ) : TrackerClient :=
  c.await ⟨op, count,
    if count = 0 then some .success else c.onSocket⟩

/- The packet at the front is written on the socket. -/
def startWriteNext : TrackerClient :=
  match c.writeQueue with
  | [] => c
  | packet :: _ =>
      { c.await ⟨.write c.connection packet, 0,
          c.onSocket⟩ with
        queueLog := c.queueLog ++
          [.started c.connection packet] }

/- A write is started when none is in progress. -/
def doWrite (msg : List UInt8) : TrackerClient :=
  let packet : Packet :=
    ⟨Framing.frame msg, c.nextSerial, c.connection⟩
  let queued := { c with
    writeQueue := c.writeQueue ++ [packet]
    nextSerial := c.nextSerial + 1 }
  if c.writeQueue = [] then
    queued.startWriteNext
  else
    queued

------------------------------------------------------------
-- Connecting And Stopping
------------------------------------------------------------

def reconnectBase : ℕ := 5

def reconnectMax : ℕ := 60

/- The delay doubles up to its limit. -/
def reconnectDelay (reconnectAttempts : ℕ) : ℕ :=
  (fun delay => min (delay * 2) reconnectMax)^[
    reconnectAttempts - 1] reconnectBase

def scheduleReconnect : TrackerClient :=
  if c.state = .stopping then
    c
  else
    { c.closeSocket with
      state := .disconnected
      writeQueue := []
      reconnectAttempts := c.reconnectAttempts + 1 }
      |>.armTimer (reconnectDelay (c.reconnectAttempts + 1))

def stopImpl : TrackerClient :=
  { c.cancelTimer.closeSocket with
    onReadyCallback := none
    pendingReadyCallbacks := []
    writeQueue := [] }

/- The host is resolved first. -/
def doConnect : TrackerClient :=
  if c.state = .stopping then
    { c with state := .disconnected }
  else
    { c.await ⟨.resolve, 0, none⟩ with
      state := .connecting
      attempts := c.attempts + 1 }

/- The socket is opened anew for the first endpoint. -/
def asyncConnect : TrackerClient :=
  { c.openSocket.await ⟨.connect, 0, none⟩ with
    attempts := c.attempts + 1 }

/-
  The posted part of `connect`.  While it is connecting with
  the same key, another callback is put with the first one.
-/
def connectCall
    (syncKey : String)
    (onReady : Option ℕ) : TrackerClient :=
  if c.hasP2pManager = false then
    c
  else if c.state ≠ .disconnected ∧ c.state ≠ .stopping then
    if (c.state = .connecting ∨ c.state = .registering) ∧
        c.syncKey = syncKey then
      { c with
        pendingReadyCallbacks :=
          c.pendingReadyCallbacks ++ onReady.toList }
    else
      c
  else
    { c with
      state := .disconnected
      pendingReadyCallbacks := []
      syncKey := syncKey
      onReadyCallback := onReady }.doConnect

------------------------------------------------------------
-- Messages
------------------------------------------------------------

def registerMessage : Json :=
  .obj
    [("payload", .obj
      ((if c.deviceId = "" then [] else
        [("device_id", .str c.deviceId)]) ++
        [("sync_key", .str c.syncKey)])),
      ("type", .str "REGISTER")]

def signalMessage
    (toPeerId type sdp : String) : Json :=
  .obj
    [("payload", .obj
      [("from", .str c.selfId), ("sdp", .str sdp),
        ("signal_type", .str type), ("to", .str toPeerId)]),
      ("type", .str "SIGNAL")]

def doRegister (dump : Json → List UInt8) : TrackerClient :=
  if c.state = .stopping then
    c
  else
    { c with state := .registering }.doWrite
      (dump c.registerMessage)

def call (made : List Call) : TrackerClient :=
  if c.hasP2pManager then
    { c with calls := c.calls ++ made }
  else
    c

/- Without a callback this is taken for a reconnection. -/
def reportReady (peers : List String) : TrackerClient :=
  let callbacks :=
    c.onReadyCallback.toList ++ c.pendingReadyCallbacks
  let told := { c with
    onReadyCallback := none
    pendingReadyCallbacks := []
    calls := c.calls ++
      callbacks.map (fun callback => .ready callback peers) }
  if callbacks = [] ∧ peers ≠ [] then
    told.call [.connectToPeers peers true]
  else
    told

/- `at("peers").get<std::vector<std::string>>()`. -/
def peersOf? (payload : Json) : Option (List String) :=
  match payload.find? "peers" with
  | some (.arr values) => values.mapM Json.str?
  | _ => none

/- The state is stored before the payload is looked at. -/
def handleRegAck (payload : Json) : TrackerClient :=
  let c := { c with
    state := .connected
    reconnectAttempts := 0 }
  match payload.strAt? "self_id" with
  | none => c
  | some selfId =>
      let c := { c with selfId := selfId }
      match peersOf? payload with
      | none => c
      | some peers => c.reportReady peers

def handlePeerJoin (payload : Json) : TrackerClient :=
  match payload.strAt? "peer_id" with
  | none => c
  | some peerId => c.call [.connectToPeers [peerId] true]

def handlePeerLeave (payload : Json) : TrackerClient :=
  match payload.strAt? "peer_id" with
  | none => c
  | some peerId => c.call [.handlePeerLeave peerId]

def handleSignal (payload : Json) : TrackerClient :=
  match payload.strAt? "from", payload.strAt? "signal_type",
    payload.strAt? "sdp" with
  | some fromId, some signalType, some sdp =>
      c.call [.handleSignalingMessage fromId signalType sdp]
  | _, _, _ => c

/- What is not as expected is logged, and nothing is done. -/
def handleMessage (msg : Json) : TrackerClient :=
  match msg.strAt? "type", msg.find? "payload" with
  | some type, some payload =>
      if type = "REG_ACK" then
        c.handleRegAck payload
      else if type = "PEER_JOIN" then
        c.handlePeerJoin payload
      else if type = "PEER_LEAVE" then
        c.handlePeerLeave payload
      else if type = "SIGNAL" then
        c.handleSignal payload
      else
        c
  | _, _ => c

theorem scheduleReconnect_of_stopping
    (hStopping : c.state = .stopping) :
    c.scheduleReconnect = c := by
  rw [scheduleReconnect, if_pos hStopping]

/- A registration is acknowledged, in whatever words. -/
def isRegAck (msg : Json) : Bool :=
  match msg.strAt? "type", msg.find? "payload" with
  | some type, some _ => type == "REG_ACK"
  | _, _ => false

------------------------------------------------------------
-- What a Message Changes
------------------------------------------------------------

theorem call_eq (made : List Call) :
    ∃ calls, c.call made = { c with calls := calls } := by
  unfold call
  split
  next => exact ⟨_, rfl⟩
  next => exact ⟨c.calls, rfl⟩

theorem reportReady_eq (peers : List String) :
    ∃ calls, c.reportReady peers = { c with
      onReadyCallback := none
      pendingReadyCallbacks := []
      calls := calls } := by
  simp only [reportReady]
  split
  next => exact call_eq { c with
    onReadyCallback := none
    pendingReadyCallbacks := []
    calls := _ } _
  next => exact ⟨_, rfl⟩

theorem handleRegAck_eq (payload : Json) :
    ∃ selfId onReady pendingReady calls,
      c.handleRegAck payload = { c with
        state := .connected
        reconnectAttempts := 0
        selfId := selfId
        onReadyCallback := onReady
        pendingReadyCallbacks := pendingReady
        calls := calls } := by
  simp only [handleRegAck]
  split
  next => exact ⟨_, _, _, _, rfl⟩
  next selfId _ =>
    split
    next => exact ⟨_, _, _, _, rfl⟩
    next peers _ =>
      rcases reportReady_eq { c with
        state := .connected
        reconnectAttempts := 0
        selfId := selfId } peers with ⟨calls, hReady⟩
      exact ⟨_, _, _, _, hReady⟩

theorem handlePeerJoin_eq (payload : Json) :
    ∃ calls,
      c.handlePeerJoin payload =
        { c with calls := calls } := by
  unfold handlePeerJoin
  split
  next => exact ⟨c.calls, rfl⟩
  next => exact call_eq c _

theorem handlePeerLeave_eq (payload : Json) :
    ∃ calls,
      c.handlePeerLeave payload =
        { c with calls := calls } := by
  unfold handlePeerLeave
  split
  next => exact ⟨c.calls, rfl⟩
  next => exact call_eq c _

theorem handleSignal_eq (payload : Json) :
    ∃ calls,
      c.handleSignal payload =
        { c with calls := calls } := by
  unfold handleSignal
  split
  next => exact call_eq c _
  next => exact ⟨c.calls, rfl⟩

/-
  A message does nothing to the socket, the timer, the queue
  or the operations; the state changes on acknowledgement.
-/
theorem handleMessage_eq (msg : Json) :
    ∃ reconnectAttempts selfId onReady pendingReady calls,
      c.handleMessage msg = { c with
        state := if isRegAck msg then .connected else c.state
        reconnectAttempts := reconnectAttempts
        selfId := selfId
        onReadyCallback := onReady
        pendingReadyCallbacks := pendingReady
        calls := calls } := by
  unfold handleMessage isRegAck
  split
  next type payload _ _ =>
    by_cases hRegAck : type = "REG_ACK"
    · rcases handleRegAck_eq c payload with
        ⟨selfId, onReady, pendingReady, calls, hHandled⟩
      refine ⟨0, selfId, onReady, pendingReady, calls, ?_⟩
      simp [hRegAck, hHandled]
    · have hCalls : ∃ calls,
          (if type = "PEER_JOIN" then
            c.handlePeerJoin payload
          else if type = "PEER_LEAVE" then
            c.handlePeerLeave payload
          else if type = "SIGNAL" then
            c.handleSignal payload
          else c) = { c with calls := calls } := by
        split
        next => exact handlePeerJoin_eq c payload
        next =>
          split
          next => exact handlePeerLeave_eq c payload
          next =>
            split
            next => exact handleSignal_eq c payload
            next => exact ⟨c.calls, rfl⟩
      rcases hCalls with ⟨calls, hCalls⟩
      refine ⟨c.reconnectAttempts, c.selfId,
        c.onReadyCallback, c.pendingReadyCallbacks,
        calls, ?_⟩
      rw [if_neg hRegAck, hCalls]
      simp [hRegAck]
  next => exact ⟨_, _, _, _, _, rfl⟩

end Basics

------------------------------------------------------------
-- Handlers
------------------------------------------------------------

section Handlers

variable
  (dump : Json → List UInt8)
  (P : JsonParser)
  (c : TrackerClient)

def onResolved : Outcome → TrackerClient
| .success => c.asyncConnect
| _ => c.scheduleReconnect

/- Also an aborted connection is tried again. -/
def onConnected : Outcome → TrackerClient
| .success =>
    (c.doRegister dump).asyncRead .readHeader 4
| _ => c.scheduleReconnect

def onHeaderRead : Outcome → TrackerClient
| .aborted => c
| .failure => c.scheduleReconnect
| .success =>
    let length := Framing.headerLength (c.readBuffer.take 4)
    let c := { c with readBuffer := c.readBuffer.drop 4 }
    if maxPacketSize < length then
      c.scheduleReconnect
    else
      c.asyncRead .readBody length

/- The next header is read whatever the message did. -/
def onBodyRead : Outcome → TrackerClient
| .aborted => c
| .failure => c.scheduleReconnect
| .success =>
    let parsed := parseBody P c.readBuffer
    let c := { c with readBuffer := parsed.2 }
    let handled :=
      match parsed.1 with
      | some msg => c.handleMessage msg
      | none => c
    handled.asyncRead .readHeader 4

/- Nothing tells on which connection the packet went out. -/
def onWritten
    (connection : ℕ)
    (packet : Packet) : Outcome → TrackerClient
| .aborted => c
| .failure =>
    if c.state = .stopping then
      c.scheduleReconnect
    else
      { c with
        queueLog := c.queueLog ++
          [WriteQueue.Event.dropped connection c.writeQueue]
      }.scheduleReconnect
| .success =>
    { c with
      writeQueue := c.writeQueue.tail
      queueLog := c.queueLog ++
        [WriteQueue.Event.popped packet c.writeQueue.head?]
    }.startWriteNext

def onTimer : Outcome → TrackerClient
| .success =>
    if c.state = .stopping then c else c.doConnect
| _ => c

/- The handler of an operation that has completed. -/
def handle
    (op : Op)
    (outcome : Outcome) : TrackerClient :=
  match op with
  | .resolve => c.onResolved outcome
  | .connect => c.onConnected dump outcome
  | .readHeader => c.onHeaderRead outcome
  | .readBody => c.onBodyRead P outcome
  | .write connection packet =>
      c.onWritten connection packet outcome
  | .timer _ => c.onTimer outcome
  | .connectCall syncKey onReady =>
      c.connectCall syncKey onReady
  | .writeCall msg => c.doWrite msg
  | .stopImpl => c.stopImpl

------------------------------------------------------------
-- Steps
------------------------------------------------------------

/- A posted call has completed from the start. -/
def post (op : Op) : TrackerClient :=
  c.await ⟨op, 0, some .success⟩

/- The state is stored at once, from whatever thread. -/
def stop (inThread : Bool) : TrackerClient :=
  let stopped := { c with state := .stopping }
  if inThread then stopped.stopImpl else stopped.post .stopImpl

def sendSignalingMessage
    (toPeerId type sdp : String) : TrackerClient :=
  if c.state = .connected ∨ c.state = .registering then
    c.post (.writeCall
      (dump (c.signalMessage toPeerId type sdp)))
  else
    c

end Handlers

/- The operation whose handler runs is no longer waiting. -/
def taken
    (c : TrackerClient)
    (i : ℕ) : TrackerClient :=
  { c with pending := c.pending.eraseIdx i }

/-
  The calls from outside, what the system does for the
  operations that wait, and the handlers, in any order.
-/
inductive Event where
| connect (syncKey : String) (onReady : Option ℕ) : Event
| stop (inThread : Bool) : Event
| send (toPeerId type sdp : String) : Event
| setP2pManager (present : Bool) : Event
| setDeviceId (deviceId : String) : Event
| receive (i : ℕ) (bytes : List UInt8) : Event
| finish (i : ℕ) (outcome : Outcome) : Event
| nextEndpoint (i : ℕ) : Event
| run (i : ℕ) : Event

section Steps

variable
  (dump : Json → List UInt8)
  (P : JsonParser)

def step
    (c : TrackerClient) : Event → Option TrackerClient
| .connect syncKey onReady =>
    some (c.post (.connectCall syncKey onReady))
| .stop inThread => some (c.stop inThread)
| .send toPeerId type sdp =>
    some (c.sendSignalingMessage dump toPeerId type sdp)
| .setP2pManager present =>
    some { c with hasP2pManager := present }
| .setDeviceId deviceId =>
    some { c with deviceId := deviceId }
| .receive i bytes =>
    match c.pending[i]? with
    | none => none
    | some p =>
        if p.op.isRead ∧ p.outcome = none ∧ bytes ≠ [] ∧
            bytes.length ≤ p.missing then
          some { c with
            readBuffer := c.readBuffer ++ bytes
            pending := c.pending.set i
              (p.receive bytes.length) }
        else
          none
| .finish i outcome =>
    match c.pending[i]? with
    | none => none
    | some p =>
        if p.outcome = none ∧ p.op.canEnd outcome then
          some { c with
            pending := c.pending.set i (p.finish outcome) }
        else
          none
-- a connection that failed goes on with the next address
| .nextEndpoint i =>
    match c.pending[i]? with
    | none => none
    | some p =>
        if p.op = .connect ∧ p.outcome ≠ some .success ∧
            c.socketOpen then
          some { c.openSocket with
            pending := c.openSocket.pending.set i p.restart }
        else
          none
| .run i =>
    match c.pending[i]? with
    | none => none
    | some p =>
        match p.outcome with
        | none => none
        | some outcome =>
            some ((c.taken i).handle dump P p.op outcome)

/- A read gets no more than it still waits for. -/
theorem step_receive_eq_some_iff
    {c c' : TrackerClient}
    {i : ℕ}
    {bytes : List UInt8} :
    step dump P c (.receive i bytes) = some c' ↔
      ∃ p, c.pending[i]? = some p ∧
        (p.op.isRead ∧ p.outcome = none ∧ bytes ≠ [] ∧
          bytes.length ≤ p.missing) ∧
        { c with
          readBuffer := c.readBuffer ++ bytes
          pending := c.pending.set i
            (p.receive bytes.length) } = c' := by
  simp only [step]
  cases c.pending[i]? with
  | none => simp
  | some p => simp

theorem step_finish_eq_some_iff
    {c c' : TrackerClient}
    {i : ℕ}
    {outcome : Outcome} :
    step dump P c (.finish i outcome) = some c' ↔
      ∃ p, c.pending[i]? = some p ∧
        (p.outcome = none ∧ p.op.canEnd outcome) ∧
        { c with
          pending := c.pending.set i
            (p.finish outcome) } = c' := by
  simp only [step]
  cases c.pending[i]? with
  | none => simp
  | some p => simp

theorem step_nextEndpoint_eq_some_iff
    {c c' : TrackerClient}
    {i : ℕ} :
    step dump P c (.nextEndpoint i) = some c' ↔
      ∃ p, c.pending[i]? = some p ∧
        (p.op = .connect ∧ p.outcome ≠ some .success ∧
          c.socketOpen) ∧
        { c.openSocket with
          pending := c.openSocket.pending.set i
            p.restart } = c' := by
  simp only [step]
  cases c.pending[i]? with
  | none => simp
  | some p => simp

/- What runs, and what it has completed with. -/
theorem step_run_eq_some_iff
    {c c' : TrackerClient}
    {i : ℕ} :
    step dump P c (.run i) = some c' ↔
      ∃ p outcome, c.pending[i]? = some p ∧
        p.outcome = some outcome ∧
        (c.taken i).handle dump P p.op outcome = c' := by
  simp only [step]
  cases hAt : c.pending[i]? with
  | none => simp
  | some p =>
      cases hOutcome : p.outcome with
      | none => simp [hOutcome]
      | some outcome => simp [hOutcome]

end Steps

end TrackerClient

end VeritasSync
