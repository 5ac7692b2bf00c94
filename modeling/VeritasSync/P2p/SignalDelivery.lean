import VeritasSync.P2p.RegisteredPeers
import VeritasSync.P2p.TrackedNode
import VeritasSync.Tracker.Acknowledged

/-
  Signals between the members of a group.

  A node that has handled what the tracker sent to it so far
  has an open controller for every other member of its group,
  so that a signal which the tracker passes on from one of
  them is taken, and by that very controller.

  Main declarations:
    * `TrackedNode.WellKept`, `TrackedNode.Follows`
    * `TrackedNode.follows_of_run`
    * `TrackedNode.signal_reaches_peer`
-/

namespace VeritasSync

namespace TrackedNode

open Transition Connections

------------------------------------------------------------
-- What the Client Asks For
------------------------------------------------------------

section Calls

variable
  {c : TrackerClient}

theorem calls_call
    (hManager : c.hasP2pManager = true)
    (made : List TrackerClient.Call) :
    (c.call made).calls = c.calls ++ made ∧
      (c.call made).selfId = c.selfId := by
  unfold TrackerClient.call
  rw [if_pos hManager]
  exact ⟨rfl, rfl⟩

theorem callsFor_of_calls
    {msg : Json}
    {made : List TrackerClient.Call}
    (hCalls : (c.handleMessage msg).calls = c.calls ++ made) :
    callsFor c msg = made := by
  unfold callsFor
  rw [hCalls, List.drop_left]

theorem hasP2pManager_handleMessage
    (c : TrackerClient)
    (msg : Json) :
    (c.handleMessage msg).hasP2pManager =
      c.hasP2pManager := by
  rcases c.handleMessage_eq msg with
    ⟨attempts, selfId, onReady, pendingReady, calls, hEq⟩
  rw [hEq]

theorem mapM_str (texts : List String) :
    (texts.map Json.str).mapM Json.str? = some texts := by
  induction texts with
  | nil => rfl
  | cons text texts ih =>
      rw [List.map_cons, List.mapM_cons, ih]
      rfl

/- Every callback is given the peers, and else the manager. -/
theorem calls_reportReady
    (hManager : c.hasP2pManager = true)
    (peers : List String) :
    ∃ made, (c.reportReady peers).calls = c.calls ++ made ∧
      (c.reportReady peers).selfId = c.selfId ∧
      (peers ≠ [] → made ≠ []) ∧
      ∀ call ∈ made, (∃ callback,
        call = .ready callback peers) ∨
          call = .connectToPeers peers true := by
  unfold TrackerClient.reportReady
  dsimp only
  split
  case isTrue hBoth =>
    rw [hBoth.1, List.map_nil, List.append_nil]
    have hCalls := calls_call (c := { c with
      onReadyCallback := none
      pendingReadyCallbacks := [] }) hManager
      [.connectToPeers peers true]
    refine ⟨_, hCalls.1, hCalls.2, ?_, ?_⟩
    · intro _ hNil
      cases hNil
    · intro call hMem
      exact Or.inr (List.mem_singleton.mp hMem)
  case isFalse hNot =>
    refine ⟨_, rfl, rfl, ?_, ?_⟩
    · intro hPeers hNil
      exact hNot ⟨List.map_eq_nil_iff.mp hNil, hPeers⟩
    · intro call hMem
      rcases List.mem_map.mp hMem with ⟨callback, -, rfl⟩
      exact Or.inl ⟨callback, rfl⟩

theorem handleMessage_regAck
    (hManager : c.hasP2pManager = true)
    (selfId : String)
    (peers : List String) :
    (c.handleMessage (Notice.regAck selfId
        peers).message).selfId = selfId ∧
      (peers ≠ [] → callsFor c (Notice.regAck selfId
        peers).message ≠ []) ∧
      ∀ call ∈ callsFor c (Notice.regAck selfId
          peers).message, (∃ callback,
        call = .ready callback peers) ∨
          call = .connectToPeers peers true := by
  have hHandled : c.handleMessage (Notice.regAck selfId
      peers).message = { c with
        state := .connected
        reconnectAttempts := 0
        selfId := selfId }.reportReady peers := by
    change c.handleRegAck (.obj
      [("peers", .arr (peers.map .str)),
        ("self_id", .str selfId)]) = _
    have hPeers : TrackerClient.peersOf? (.obj
        [("peers", .arr (peers.map .str)),
          ("self_id", .str selfId)]) = some peers :=
      mapM_str peers
    have hSelf : Json.strAt? (.obj
        [("peers", .arr (peers.map .str)),
          ("self_id", .str selfId)]) "self_id" =
            some selfId := rfl
    unfold TrackerClient.handleRegAck
    rw [hSelf]
    dsimp only
    rw [hPeers]
  rcases calls_reportReady (c := { c with
    state := .connected
    reconnectAttempts := 0
    selfId := selfId }) hManager peers with
    ⟨made, hCalls, hSelf, hSome, hEach⟩
  rw [← hHandled] at hCalls hSelf
  rw [callsFor_of_calls hCalls]
  exact ⟨hSelf, hSome, hEach⟩

theorem handleMessage_peerJoin
    (hManager : c.hasP2pManager = true)
    (peerId : String) :
    (c.handleMessage (Notice.peerJoin
        peerId).message).selfId = c.selfId ∧
      callsFor c (Notice.peerJoin peerId).message =
        [.connectToPeers [peerId] true] := by
  have hCalls := calls_call hManager
    [.connectToPeers [peerId] true]
  exact ⟨hCalls.2, callsFor_of_calls hCalls.1⟩

theorem handleMessage_peerLeave
    (hManager : c.hasP2pManager = true)
    (peerId : String) :
    (c.handleMessage (Notice.peerLeave
        peerId).message).selfId = c.selfId ∧
      callsFor c (Notice.peerLeave peerId).message =
        [.handlePeerLeave peerId] := by
  have hCalls := calls_call hManager [.handlePeerLeave peerId]
  exact ⟨hCalls.2, callsFor_of_calls hCalls.1⟩

/- What is not as expected in a signal, nobody hears of. -/
theorem handleMessage_signal
    {msg : Json}
    (hManager : c.hasP2pManager = true)
    (hType : msg.strAt? "type" = some "SIGNAL") :
    (c.handleMessage msg).selfId = c.selfId ∧
      (callsFor c msg = [] ∨ ∃ fromId signalType sdp,
        callsFor c msg =
          [.handleSignalingMessage fromId signalType sdp]) := by
  have hHandled : c.handleMessage msg = c ∨
      ∃ fromId signalType sdp, c.handleMessage msg =
        c.call [.handleSignalingMessage fromId signalType
          sdp] := by
    unfold TrackerClient.handleMessage
    rw [hType]
    cases msg.find? "payload" with
    | none => exact Or.inl rfl
    | some payload =>
        change c.handleSignal payload = c ∨ ∃ _ _ _,
          c.handleSignal payload = _
        unfold TrackerClient.handleSignal
        split
        · exact Or.inr ⟨_, _, _, rfl⟩
        · exact Or.inl rfl
  rcases hHandled with hSame | ⟨fromId, signalType, sdp, hCall⟩
  · refine ⟨by rw [hSame], Or.inl ?_⟩
    apply callsFor_of_calls
    rw [hSame, List.append_nil]
  · have hCalls := calls_call hManager
      [.handleSignalingMessage fromId signalType sdp]
    rw [← hCall] at hCalls
    exact ⟨hCalls.2, Or.inr ⟨fromId, signalType, sdp,
      callsFor_of_calls hCalls.1⟩⟩

theorem connectCall_eq
    (c : TrackerClient)
    (syncKey : String)
    (onReady : Option ℕ) :
    (c.connectCall syncKey onReady).hasP2pManager =
        c.hasP2pManager ∧
      (c.connectCall syncKey onReady).selfId = c.selfId := by
  unfold TrackerClient.connectCall
  split
  · exact ⟨rfl, rfl⟩
  · split
    · split
      · exact ⟨rfl, rfl⟩
      · exact ⟨rfl, rfl⟩
    · unfold TrackerClient.doConnect
      exact ⟨rfl, rfl⟩

end Calls

------------------------------------------------------------
-- What Every Run Keeps
------------------------------------------------------------

/- The client calls the manager, whose controllers are kept. -/
structure WellKept (n : TrackedNode) : Prop where
  hasManager : n.client.hasP2pManager = true
  hasTracker : n.manager.selfId.isSome = true
  placed : Placed n.manager []
  pushed : Pushed n.manager

theorem wellKept_start
    (deviceId : String)
    (role : SyncRole)
    (mode : SyncMode) :
    WellKept (start deviceId role mode) where
  hasManager := rfl
  hasTracker := rfl
  placed := placed_start deviceId true role mode
  pushed := pushed_start deviceId true role mode

theorem isSome_selfId_run
    {s s' : System}
    {events : List Connections.Event}
    (hRun : run Connections.step s events = some s') :
    s'.selfId.isSome = s.selfId.isSome := by
  induction events generalizing s with
  | nil =>
      cases hRun
      rfl
  | cons e events ih =>
      rw [run, Option.bind_eq_some_iff] at hRun
      rcases hRun with ⟨next, hNext, hRest⟩
      exact (ih hRest).trans (sameNode_step hNext).1

theorem wellKept_step
    {n n' : TrackedNode}
    {e : Event}
    (hKept : WellKept n)
    (hStep : step n e = some n') :
    WellKept n' := by
  rcases hKept with ⟨hManager, hTracker, hPlaced, hPushed⟩
  cases e with
  | connect syncKey onReady =>
      cases hStep
      refine ⟨?_, hTracker, hPlaced, hPushed⟩
      exact (connectCall_eq n.client syncKey onReady).1.trans
        hManager
  | notice notice created now =>
      rw [step, handleMessage, Option.map_eq_some_iff] at hStep
      rcases hStep with ⟨manager, hRun, rfl⟩
      rcases placed_of_run hPlaced hPushed hRun with
        ⟨hPlaced', hPushed'⟩
      refine ⟨?_, ?_, hPlaced', hPushed'⟩
      · exact (hasP2pManager_handleMessage _ _).trans hManager
      · exact (isSome_selfId_run hRun).trans hTracker
  | manager e =>
      rw [step] at hStep
      split at hStep
      · rw [Option.map_eq_some_iff] at hStep
        rcases hStep with ⟨manager, hNext, rfl⟩
        exact ⟨hManager, (sameNode_step hNext).1.trans
          hTracker, placed_step hPlaced hNext,
          pushed_step hPlaced hPushed hNext⟩
      · cases hStep

theorem wellKept_of_run
    {n n' : TrackedNode}
    {events : List Event}
    (hKept : WellKept n)
    (hRun : run step n events = some n') :
    WellKept n' := by
  have hMeets : Meets step (fun _ _ => True) n events :=
    meets_of_forall (fun _ _ => trivial)
  exact invariant_of_run
    (fun _ _ _ hKept _ hStep => wellKept_step hKept hStep)
    hKept hMeets hRun

------------------------------------------------------------
-- The Members of the Group
------------------------------------------------------------

/-
  After the given notices the node knows its id, and has a
  controller for the peer if it was told of it.
-/
structure Follows
    (peerId : String)
    (notices : List Notice)
    (n : TrackedNode) : Prop where
  selfId : ∀ id,
    notices.foldl Tracker.applyAck none = some id →
      n.client.selfId = id
  registered :
    peerId ∈ notices.foldl Tracker.applyNotice ∅ →
      n.client.selfId ≠ "" → peerId ≠ n.client.selfId →
        (n.manager.find peerId).isSome = true

/-
  Controllers can be made, and the peer does not leave other
  than through the tracker.
-/
def Stays (peerId : String) : Event → Prop
| .connect _ _ => True
| .notice _ created _ => ∀ k i, created k i = true
| .manager e => Keeps peerId e

/- What is passed on as a signal is one. -/
def AreSignals (notices : List Notice) : Prop :=
  ∀ msg, Notice.signal msg ∈ notices →
    msg.strAt? "type" = some "SIGNAL"

section Following

variable
  {peerId : String}
  {created : ℕ → ℕ → Bool}
  {now : ℤ}

/- What a call other than for a leave takes away. -/
theorem keeps_event
    {call : TrackerClient.Call}
    (k : ℕ)
    (hCreated : ∀ k i, created k i = true)
    (hNot : call ≠ .handlePeerLeave peerId) :
    Keeps peerId (call.event (created k) now) := by
  cases call with
  | ready callback peers => exact hCreated k
  | connectToPeers peers force => exact hCreated k
  | handlePeerLeave other =>
      intro hSame
      exact hNot (congrArg _ hSame)
  | handleSignalingMessage fromId signalType sdp =>
      exact trivial

theorem isSome_find_run
    {s s' : System}
    {events : List Connections.Event}
    (hKeeps : ∀ e ∈ events, Keeps peerId e)
    (hFind : (s.find peerId).isSome = true)
    (hRun : run Connections.step s events = some s') :
    (s'.find peerId).isSome = true := by
  have hMeets : Meets Connections.step
      (fun _ e => Keeps peerId e) s events :=
    meets_of_forall hKeeps
  exact invariant_of_run
    (fun _ _ _ hFind hKeeps hStep =>
      isSome_find_step hKeeps hFind hStep)
    hFind hMeets hRun

/- The events of calls, none of which is for the leave. -/
theorem keeps_events
    {calls : List TrackerClient.Call}
    (hCreated : ∀ k i, created k i = true)
    (hNot : .handlePeerLeave peerId ∉ calls)
    (k : ℕ) :
    ∀ e ∈ (calls.zipIdx k).map
        (fun call => call.1.event (created call.2) now),
      Keeps peerId e := by
  intro e hMem
  rcases List.mem_map.mp hMem with ⟨⟨call, i⟩, hCall, rfl⟩
  apply keeps_event i hCreated
  rintro rfl
  exact hNot (List.fst_mem_of_mem_zipIdx hCall)

/- A message about others leaves the peer its controller. -/
theorem isSome_find_handleMessage
    {n n' : TrackedNode}
    {msg : Json}
    (hCreated : ∀ k i, created k i = true)
    (hNot : .handlePeerLeave peerId ∉ callsFor n.client msg)
    (hFind : (n.manager.find peerId).isSome = true)
    (hHandled : n.handleMessage msg created now = some n') :
    (n'.manager.find peerId).isSome = true := by
  rw [handleMessage, Option.map_eq_some_iff] at hHandled
  rcases hHandled with ⟨manager, hRun, rfl⟩
  apply isSome_find_run _ hFind hRun
  intro e hMem
  rcases List.mem_cons.mp hMem with rfl | hMem
  · exact trivial
  · exact keeps_events hCreated hNot 0 e hMem

/- A message for which the peer is connected to. -/
theorem isSome_find_of_connect
    {n n' : TrackedNode}
    {msg : Json}
    {peers : List String}
    (hTracker : n.manager.selfId.isSome = true)
    (hCreated : ∀ k i, created k i = true)
    (hSome : callsFor n.client msg ≠ [])
    (hEach : ∀ call ∈ callsFor n.client msg, (∃ callback,
      call = .ready callback peers) ∨
        call = .connectToPeers peers true)
    (hKnown : n'.client.selfId ≠ "")
    (hApart : peerId ≠ n'.client.selfId)
    (hMem : peerId ∈ peers)
    (hHandled : n.handleMessage msg created now = some n') :
    (n'.manager.find peerId).isSome = true := by
  rw [handleMessage, Option.map_eq_some_iff] at hHandled
  rcases hHandled with ⟨manager, hRun, rfl⟩
  unfold eventsFor at hRun
  revert hSome hEach hRun
  cases callsFor n.client msg with
  | nil =>
      intro hSome
      exact absurd rfl hSome
  | cons call calls =>
      intro _ hEach hRun
      rw [List.zipIdx_cons, List.map_cons, run,
        Option.bind_eq_some_iff] at hRun
      rcases hRun with ⟨known, hKnows, hRun⟩
      rcases step_eq_some_iff.mp hKnows with ⟨-, hKnows⟩
      cases hKnows
      rw [run, Option.bind_eq_some_iff] at hRun
      rcases hRun with ⟨next, hNext, hRest⟩
      rcases step_eq_some_iff.mp hNext with ⟨-, hNext⟩
      have hSelf : ({ n.manager with
          selfId := n.manager.selfId.map (fun _ =>
            (n.client.handleMessage msg).selfId) } :
              System).selfId =
            some (n.client.handleMessage msg).selfId := by
        cases hId : n.manager.selfId with
        | none =>
            rw [hId] at hTracker
            cases hTracker
        | some id => rfl
      have hFirst : ∃ force, call.event (created 0) now =
          .connectToPeers peers force (created 0) now := by
        rcases hEach call List.mem_cons_self with
          ⟨callback, rfl⟩ | rfl
        · exact ⟨false, rfl⟩
        · exact ⟨true, rfl⟩
      rcases hFirst with ⟨force, hFirst⟩
      rw [hFirst] at hNext
      have hFind : (next.find peerId).isSome = true := by
        rw [← Option.some.inj hNext]
        apply isSome_find_connectToPeers force now (hCreated 0)
        exact Or.inr ⟨_, hSelf, hKnown, hMem, hApart⟩
      apply isSome_find_run _ hFind hRest
      apply keeps_events hCreated
      intro hLeave
      rcases hEach _ (List.mem_cons_of_mem _ hLeave) with
        ⟨callback, hCall⟩ | hCall
      · cases hCall
      · cases hCall

/- The id and the peers that were told of are the same. -/
theorem follows_of_same
    {notices : List Notice}
    {notice : Notice}
    {n n' : TrackedNode}
    (hFollows : Follows peerId notices n)
    (hAck : ∀ known, Tracker.applyAck known notice = known)
    (hKnown : ∀ known, peerId ∈
      Tracker.applyNotice known notice → peerId ∈ known)
    (hSelf : n'.client.selfId = n.client.selfId)
    (hFind : (n.manager.find peerId).isSome = true →
      (n'.manager.find peerId).isSome = true) :
    Follows peerId (notices ++ [notice]) n' := by
  refine ⟨?_, ?_⟩
  · intro id hId
    rw [List.foldl_append, List.foldl_cons, List.foldl_nil,
      hAck] at hId
    rw [hSelf]
    exact hFollows.selfId id hId
  · intro hMem hNamed hApart
    rw [List.foldl_append, List.foldl_cons,
      List.foldl_nil] at hMem
    rw [hSelf] at hNamed hApart
    exact hFind (hFollows.registered (hKnown _ hMem)
      hNamed hApart)

theorem client_of_handled
    {n n' : TrackedNode}
    {msg : Json}
    (hHandled : n.handleMessage msg created now = some n') :
    n'.client = n.client.handleMessage msg := by
  rw [handleMessage, Option.map_eq_some_iff] at hHandled
  rcases hHandled with ⟨manager, -, rfl⟩
  rfl

/- One case for each notice. -/
theorem follows_notice
    {notices : List Notice}
    {notice : Notice}
    {n n' : TrackedNode}
    (hKept : WellKept n)
    (hFollows : Follows peerId notices n)
    (hCreated : ∀ k i, created k i = true)
    (hSignal : ∀ msg, notice = .signal msg →
      msg.strAt? "type" = some "SIGNAL")
    (hHandled : n.handleMessage notice.message created now =
      some n') :
    Follows peerId (notices ++ [notice]) n' := by
  have hClient := client_of_handled hHandled
  cases notice with
  | regAck selfId peers =>
      rcases handleMessage_regAck hKept.hasManager selfId peers
        with ⟨hSelf, hSome, hEach⟩
      rw [← hClient] at hSelf
      refine ⟨?_, ?_⟩
      · intro id hId
        rw [List.foldl_append] at hId
        rw [hSelf]
        exact Option.some.inj hId
      · intro hMem hNamed hApart
        rw [List.foldl_append] at hMem
        have hPeer : peerId ∈ peers := List.mem_toFinset.mp hMem
        exact isSome_find_of_connect hKept.hasTracker hCreated
          (hSome (List.ne_nil_of_mem hPeer)) hEach hNamed
          hApart hPeer hHandled
  | peerJoin joined =>
      rcases handleMessage_peerJoin hKept.hasManager joined
        with ⟨hSelf, hCalls⟩
      rw [← hClient] at hSelf
      by_cases hSame : peerId = joined
      · subst hSame
        refine ⟨?_, ?_⟩
        · intro id hId
          rw [List.foldl_append] at hId
          rw [hSelf]
          exact hFollows.selfId id hId
        · intro _ hNamed hApart
          apply isSome_find_of_connect hKept.hasTracker
            hCreated _ _ hNamed hApart
            (List.mem_singleton.mpr rfl) hHandled
          · rw [hCalls]
            exact List.cons_ne_nil _ _
          · rw [hCalls]
            intro call hMem
            exact Or.inr (List.mem_singleton.mp hMem)
      · apply follows_of_same hFollows (fun _ => rfl) _ hSelf
        · intro hFind
          apply isSome_find_handleMessage hCreated _ hFind
            hHandled
          rw [hCalls]
          intro hMem
          cases List.mem_singleton.mp hMem
        · intro known hMem
          exact (Finset.mem_insert.mp hMem).resolve_left hSame
  | peerLeave left =>
      rcases handleMessage_peerLeave hKept.hasManager left
        with ⟨hSelf, hCalls⟩
      rw [← hClient] at hSelf
      by_cases hSame : peerId = left
      · subst hSame
        refine ⟨?_, ?_⟩
        · intro id hId
          rw [List.foldl_append] at hId
          rw [hSelf]
          exact hFollows.selfId id hId
        · intro hMem
          rw [List.foldl_append] at hMem
          exact absurd hMem (Finset.notMem_erase _ _)
      · apply follows_of_same hFollows (fun _ => rfl) _ hSelf
        · intro hFind
          apply isSome_find_handleMessage hCreated _ hFind
            hHandled
          rw [hCalls]
          intro hMem
          cases List.mem_singleton.mp hMem
          exact hSame rfl
        · intro known hMem
          exact (Finset.mem_erase.mp hMem).2
  | signal msg =>
      rcases handleMessage_signal hKept.hasManager
        (hSignal msg rfl) with ⟨hSelf, hCalls⟩
      have hClient' : n'.client = n.client.handleMessage msg :=
        hClient
      rw [← hClient'] at hSelf
      apply follows_of_same hFollows (fun _ => rfl)
        (fun _ => id) hSelf
      intro hFind
      apply isSome_find_handleMessage hCreated _ hFind hHandled
      change _ ∉ callsFor n.client msg
      rcases hCalls with hNone | ⟨fromId, type, sdp, hOne⟩
      · rw [hNone]
        exact List.not_mem_nil
      · rw [hOne]
        intro hMem
        cases List.mem_singleton.mp hMem

theorem follows_step
    {notices : List Notice}
    {n n' : TrackedNode}
    {e : Event}
    (hKept : WellKept n)
    (hFollows : Follows peerId notices n)
    (hStays : Stays peerId e)
    (hSignals : AreSignals (told [e]))
    (hStep : step n e = some n') :
    Follows peerId (notices ++ told [e]) n' := by
  cases e with
  | connect syncKey onReady =>
      cases hStep
      change Follows peerId (notices ++ []) _
      rw [List.append_nil]
      have hSelf := (connectCall_eq n.client syncKey onReady).2
      refine ⟨?_, ?_⟩
      · intro id hId
        exact hSelf.trans (hFollows.selfId id hId)
      · intro hMem hNamed hApart
        rw [hSelf] at hNamed hApart
        exact hFollows.registered hMem hNamed hApart
  | notice notice created now =>
      apply follows_notice hKept hFollows hStays _ hStep
      rintro msg rfl
      exact hSignals msg List.mem_cons_self
  | manager e =>
      change Follows peerId (notices ++ []) _
      rw [List.append_nil]
      rw [step] at hStep
      split at hStep
      · rw [Option.map_eq_some_iff] at hStep
        rcases hStep with ⟨manager, hNext, rfl⟩
        refine ⟨hFollows.selfId, ?_⟩
        intro hMem hNamed hApart
        exact isSome_find_step hStays
          (hFollows.registered hMem hNamed hApart) hNext
      · cases hStep

theorem told_cons
    (e : Event)
    (events : List Event) :
    told (e :: events) = told [e] ++ told events := by
  unfold told
  rw [← List.filterMap_append]
  rfl

theorem follows_of_run
    {notices : List Notice}
    {n n' : TrackedNode}
    {events : List Event}
    (hKept : WellKept n)
    (hFollows : Follows peerId notices n)
    (hStays : ∀ e ∈ events, Stays peerId e)
    (hSignals : AreSignals (told events))
    (hRun : run step n events = some n') :
    Follows peerId (notices ++ told events) n' := by
  induction events generalizing n notices with
  | nil =>
      cases hRun
      have hNil : notices ++ told [] = notices :=
        List.append_nil notices
      rw [hNil]
      exact hFollows
  | cons e events ih =>
      rw [run, Option.bind_eq_some_iff] at hRun
      rcases hRun with ⟨next, hNext, hRest⟩
      rw [told_cons] at hSignals ⊢
      rw [← List.append_assoc]
      apply ih (wellKept_step hKept hNext) _ _ _ hRest
      · exact follows_step hKept hFollows
          (hStays e List.mem_cons_self)
          (fun msg hMem =>
            hSignals msg (List.mem_append_left _ hMem)) hNext
      · exact fun e hMem =>
          hStays e (List.mem_cons_of_mem _ hMem)
      · exact fun msg hMem =>
          hSignals msg (List.mem_append_right _ hMem)

/- A manager that has just handled something is there. -/
theorem alive_run
    {s s' : System}
    {events : List Connections.Event}
    (hSome : events ≠ [] ∨ s.gone = false)
    (hNot : .closeAll ∉ events)
    (hRun : run Connections.step s events = some s') :
    s'.gone = false := by
  induction events generalizing s with
  | nil =>
      cases hRun
      exact hSome.resolve_left (fun hNil => hNil rfl)
  | cons e events ih =>
      rw [run, Option.bind_eq_some_iff] at hRun
      rcases hRun with ⟨next, hNext, hRest⟩
      apply ih (Or.inr _)
        (fun hMem => hNot (List.mem_cons_of_mem _ hMem)) hRest
      apply (sameNode_step hNext).2
      rintro rfl
      exact hNot List.mem_cons_self

theorem closeAll_notMem_eventsFor
    (client : TrackerClient)
    (msg : Json) :
    .closeAll ∉ eventsFor client msg created now := by
  intro hMem
  rcases List.mem_cons.mp hMem with hSelf | hMem
  · cases hSelf
  · rcases List.mem_map.mp hMem with ⟨⟨call, i⟩, -, hCall⟩
    cases call <;> cases hCall

theorem alive_step
    {n n' : TrackedNode}
    {e : Event}
    (hStays : Stays peerId e)
    (hAlive : told [e] ≠ [] ∨ n.manager.gone = false)
    (hStep : step n e = some n') :
    n'.manager.gone = false := by
  cases e with
  | connect syncKey onReady =>
      cases hStep
      exact hAlive.resolve_left (fun hNil => hNil rfl)
  | notice notice created now =>
      rw [step, handleMessage, Option.map_eq_some_iff] at hStep
      rcases hStep with ⟨manager, hRun, rfl⟩
      exact alive_run (Or.inl (List.cons_ne_nil _ _))
        (closeAll_notMem_eventsFor _ _) hRun
  | manager e =>
      rw [step] at hStep
      split at hStep
      · rw [Option.map_eq_some_iff] at hStep
        rcases hStep with ⟨manager, hNext, rfl⟩
        apply (sameNode_step hNext).2
        rintro rfl
        exact hStays
      · cases hStep

/- So is that of a node that was told of something. -/
theorem alive_of_told
    {n n' : TrackedNode}
    {events : List Event}
    (hStays : ∀ e ∈ events, Stays peerId e)
    (hRun : run step n events = some n')
    (hTold : told events ≠ []) :
    n'.manager.gone = false := by
  have hAlive : told events ≠ [] ∨ n.manager.gone = false :=
    Or.inl hTold
  clear hTold
  induction events generalizing n with
  | nil =>
      cases hRun
      exact hAlive.resolve_left (fun hNil => hNil rfl)
  | cons e events ih =>
      rw [run, Option.bind_eq_some_iff] at hRun
      rcases hRun with ⟨next, hNext, hRest⟩
      have hLater := fun e hMem =>
        hStays e (List.mem_cons_of_mem _ hMem)
      have hFirst := hStays e List.mem_cons_self
      apply ih hLater hRest
      rw [told_cons] at hAlive
      by_cases hNil : told [e] = []
      · rw [hNil, List.nil_append] at hAlive
        refine hAlive.imp_right fun hAlive => ?_
        exact alive_step hFirst (Or.inr hAlive) hNext
      · exact Or.inr (alive_step hFirst (Or.inl hNil) hNext)

end Following

------------------------------------------------------------
-- From Member to Member
------------------------------------------------------------

/- The tracker passes the message on, to one session only. -/
def PassedOn
    (sys : Tracker.System)
    (sender client : SessionRef)
    (msg : Json) : Prop :=
  ∃ sys', Tracker.step sys (.frame sender (some msg)) =
      some sys' ∧
    sys'.server.sent =
      sys.server.sent ++ [⟨client, .signal msg⟩]

/- The node gives it to the open controller of the peer. -/
def TakenBy
    (n : TrackedNode)
    (peerId : String)
    (msg : Json)
    (signalType sdp : String) : Prop :=
  ∃ i c, n.manager.find peerId = some i ∧
    n.manager.controllers[i]? = some c ∧
    c.peerId = peerId ∧ c.isClosed = false ∧
    ∀ created now, ∃ n',
      step n (.notice (.signal msg) created now) = some n' ∧
      n'.manager.controllers =
        n.manager.controllers.modify i
          (fun c => c.handleSignaling signalType sdp)

section Delivery

variable
  {sys : Tracker.System}
  {client sender : SessionRef}
  {own reg : Registration}

theorem viewsAgree_and_sound
    {events : List Tracker.Event}
    (hCareful : Meets Tracker.step Tracker.Careful
      Tracker.start events)
    (hRun : run Tracker.step Tracker.start events =
      some sys) :
    Tracker.Sound sys ∧ Tracker.ViewsAgree sys := by
  have hStep : ∀ s e s',
      Tracker.Sound s ∧ Tracker.ViewsAgree s →
        Tracker.Careful s e → Tracker.step s e = some s' →
          Tracker.Sound s' ∧ Tracker.ViewsAgree s' := by
    rintro s e s' ⟨hSound, hViews⟩ hCareful hStep
    exact ⟨Tracker.sound_of_step hSound hCareful hStep,
      Tracker.viewsAgree_of_step hSound hViews hCareful
        hStep⟩
  exact invariant_of_run hStep
    ⟨Tracker.sound_start, Tracker.viewsAgree_start⟩
    hCareful hRun

/- No two registered sessions have one id. -/
theorem id_ne_of_sound
    (hSound : Tracker.Sound sys)
    (hOwn : sys.roster client = some own)
    (hReg : sys.roster sender = some reg)
    (hApart : sender ≠ client) :
    reg.id ≠ own.id := by
  intro hSame
  have hFirst := (hSound.byId reg.id sender).mpr
    ⟨reg, hReg, rfl⟩
  have hSecond := (hSound.byId reg.id client).mpr
    ⟨own, hOwn, hSame.symm⟩
  rw [hFirst] at hSecond
  exact hApart (Option.some.inj hSecond)

theorem passedOn_of_lookup
    {msg : Json}
    {payload : Json}
    {toPeerId : String}
    (hType : msg.strAt? "type" = some "SIGNAL")
    (hPayload : msg.find? "payload" = some payload)
    (hTo : payload.strAt? "to" = some toPeerId)
    (hNamed : toPeerId ≠ "")
    (hReading : (sys.server.sessions sender).phase = .reading)
    (hLookup : sys.server.peersById.lookup toPeerId =
      some client) :
    PassedOn sys sender client msg := by
  refine ⟨_, if_pos hReading, ?_⟩
  have hForward : Session.handleMessage msg sender
      sys.server = sys.server.forward toPeerId msg := by
    unfold Session.handleMessage
    rw [hType, hPayload]
    change Session.handleSignal msg payload sys.server = _
    unfold Session.handleSignal
    rw [hTo]
    exact if_neg hNamed
  dsimp only
  rw [hForward, Tracker.sent_forward, hLookup]
  rfl

/- A signal of a peer that has an open controller. -/
theorem takenBy_of_find
    {n : TrackedNode}
    {msg payload : Json}
    {peerId signalType sdp : String}
    (hKept : WellKept n)
    (hType : msg.strAt? "type" = some "SIGNAL")
    (hPayload : msg.find? "payload" = some payload)
    (hFrom : payload.strAt? "from" = some peerId)
    (hSignal : payload.strAt? "signal_type" =
      some signalType)
    (hSdp : payload.strAt? "sdp" = some sdp)
    (hFind : (n.manager.find peerId).isSome = true)
    (hAlive : n.manager.gone = false) :
    TakenBy n peerId msg signalType sdp := by
  rcases Option.isSome_iff_exists.mp hFind with ⟨i, hAt⟩
  rcases hKept.placed.registered peerId i hAt with
    ⟨c, hGet, hPeer, hOpen⟩
  refine ⟨i, c, hAt, hGet, hPeer, hOpen, ?_⟩
  intro created now
  have hHandled : n.client.handleMessage msg = n.client.call
      [.handleSignalingMessage peerId signalType sdp] := by
    unfold TrackerClient.handleMessage
    rw [hType, hPayload]
    change n.client.handleSignal payload = _
    unfold TrackerClient.handleSignal
    rw [hFrom, hSignal, hSdp]
  have hCalls := (calls_call hKept.hasManager
    [.handleSignalingMessage peerId signalType sdp]).1
  rw [← hHandled] at hCalls
  have hFor := callsFor_of_calls hCalls
  refine ⟨⟨n.client.handleMessage msg,
    handleSignalingMessage peerId signalType sdp
      { n.manager with
        selfId := n.manager.selfId.map (fun _ =>
          (n.client.handleMessage msg).selfId) }⟩, ?_, ?_⟩
  · have hTaken : Connections.step { n.manager with
          selfId := n.manager.selfId.map (fun _ =>
            (n.client.handleMessage msg).selfId) }
        (.signal peerId signalType sdp) = some _ :=
      step_eq_some_iff.mpr ⟨hAlive, rfl⟩
    change n.handleMessage msg created now = _
    unfold handleMessage eventsFor
    rw [hFor, run, step_eq_some_iff.mpr ⟨hAlive, rfl⟩,
      Option.bind_some]
    change Option.map _ (run Connections.step _
      [.signal peerId signalType sdp]) = _
    rw [run, hTaken]
    rfl
  · unfold handleSignalingMessage
    have hAt' : System.find { n.manager with
        selfId := n.manager.selfId.map (fun _ =>
          (n.client.handleMessage msg).selfId) } peerId =
        some i := hAt
    rw [hAt']
    rfl

end Delivery

/-
  Two members of a group, in a careful run of the tracker,
  and the node of one of them, which has handled what the
  tracker sent to it in this session, whatever else happened
  in between and before.  A signal that the client of the
  other sends is passed on to this node alone, and it is taken
  by the one open controller that the node has for the sender.
-/
theorem signal_reaches_peer
    (trackerEvents : List Tracker.Event)
    (sys : Tracker.System)
    (client sender : SessionRef)
    (own reg : Registration)
    (deviceId : String)
    (role : SyncRole)
    (mode : SyncMode)
    (earlier session : List Event)
    (n : TrackedNode)
    (c : TrackerClient)
    (signalType sdp : String)
    (hCareful : Meets Tracker.step Tracker.Careful
      Tracker.start trackerEvents)
    (hTracker : run Tracker.step Tracker.start
      trackerEvents = some sys)
    (hOwn : sys.roster client = some own)
    (hReg : sys.roster sender = some reg)
    (hApart : sender ≠ client)
    (hKey : reg.syncKey = own.syncKey)
    (hReading : (sys.server.sessions sender).phase = .reading)
    (hNode : run step (start deviceId role mode)
      (earlier ++ session) = some n)
    (hTold : told session =
      Tracker.noticesTo client sys.server.sent)
    (hStays : ∀ e ∈ session, Stays reg.id e)
    (hSelf : c.selfId = reg.id) :
    PassedOn sys sender client
        (c.signalMessage own.id signalType sdp) ∧
      TakenBy n reg.id
        (c.signalMessage own.id signalType sdp)
        signalType sdp := by
  rcases viewsAgree_and_sound hCareful hTracker with
    ⟨hSound, hViews⟩
  have hServed := Tracker.served_of_run hTracker
  constructor
  · apply passedOn_of_lookup rfl rfl rfl
      (hServed.ids client own hOwn) hReading
    exact (hSound.byId own.id client).mpr ⟨own, hOwn, rfl⟩
  · rw [run_append, Option.bind_eq_some_iff] at hNode
    rcases hNode with ⟨before, hBefore, hSession⟩
    have hKept := wellKept_of_run
      (wellKept_start deviceId role mode) hBefore
    have hNew : Follows reg.id [] before := by
      refine ⟨?_, ?_⟩
      · intro id hId
        cases hId
      · intro hMem
        exact absurd hMem (Finset.notMem_empty _)
    have hSignals : AreSignals (told session) := by
      intro msg hMem
      rw [hTold, Tracker.mem_noticesTo] at hMem
      rcases hMem with ⟨d, hD, -, hNotice⟩
      exact hServed.signals d hD msg hNotice
    have hFollows := follows_of_run hKept hNew hStays
      hSignals hSession
    rw [List.nil_append, hTold] at hFollows
    have hId : n.client.selfId = own.id :=
      hFollows.selfId own.id (hServed.told client own hOwn)
    have hMember : reg.id ∈ Tracker.view sys.server client :=
      (hViews client own hOwn reg.id).mpr
        ⟨sender, reg, hApart, hReg, hKey, rfl⟩
    have hFrom : Json.strAt? (.obj
        [("from", .str c.selfId), ("sdp", .str sdp),
          ("signal_type", .str signalType),
          ("to", .str own.id)]) "from" = some reg.id :=
      congrArg some hSelf
    apply takenBy_of_find (wellKept_of_run hKept hSession)
      rfl rfl hFrom rfl rfl
    · apply hFollows.registered hMember
      · rw [hId]
        exact hServed.ids client own hOwn
      · rw [hId]
        exact id_ne_of_sound hSound hOwn hReg hApart
    · apply alive_of_told hStays hSession
      rw [hTold]
      intro hNil
      have hAck := hServed.told client own hOwn
      rw [Tracker.ownId, hNil] at hAck
      cases hAck

/- What the node of the first of two members handles. -/
def sampleSession : List Event :=
  [.notice (.regAck "a" []) (fun _ _ => true) 1,
    .notice (.peerJoin "b") (fun _ _ => true) 2]

theorem careful_metInTurn :
    Meets Tracker.step Tracker.Careful Tracker.start
      Tracker.metInTurn := by
  refine .cons trivial rfl ?_
  refine .cons ?_ rfl ?_
  · intro msg own hMsg hOwn
    refine ⟨?_, ?_⟩
    · intro old hOld
      cases hOld
    · intro other reg hReg
      cases hReg
  refine .cons trivial rfl ?_
  refine .cons ?_ rfl trivial
  intro msg own hMsg hOwn
  cases hMsg
  cases hOwn
  refine ⟨?_, ?_⟩
  · intro old hOld
    cases hOld
  · intro other reg hReg hId
    rcases eq_or_ne other 0 with rfl | hOther
    · cases hReg
      rfl
    · cases (Tracker.Roster.register_of_ne _ _
        hOther).symm.trans hReg

theorem signal_reaches_sampleSession :
    ∃ sys n, run Tracker.step Tracker.start
        Tracker.metInTurn = some sys ∧
      run step (start "a" .source .oneWay)
        ([.connect "k" (some 0)] ++ sampleSession) = some n ∧
      PassedOn sys 1 0
        ({ TrackerClient.start with
          selfId := "b" }.signalMessage "a" "sdp_offer" "v=0") ∧
      TakenBy n "b"
        ({ TrackerClient.start with
          selfId := "b" }.signalMessage "a" "sdp_offer" "v=0")
        "sdp_offer" "v=0" := by
  refine ⟨_, _, rfl, rfl, ?_⟩
  apply signal_reaches_peer Tracker.metInTurn _ 0 1
    ⟨"a", "k"⟩ ⟨"b", "k"⟩ "a" .source .oneWay
    [.connect "k" (some 0)] sampleSession
  · exact careful_metInTurn
  · rfl
  · rfl
  · rfl
  · decide
  · rfl
  · rfl
  · rfl
  · rfl
  · intro e hMem
    rcases List.mem_cons.mp hMem with rfl | hMem
    · exact fun _ _ => rfl
    · cases List.mem_singleton.mp hMem
      exact fun _ _ => rfl
  · rfl

end TrackedNode

end VeritasSync
