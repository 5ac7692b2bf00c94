import Mathlib.Data.Int.Notation
import VeritasSync.Library.Transition

/-
  The state of a controller that reaches its peer over ICE,
  and when it is the one that ICE reports.

  Main declarations:
    * `IceConnection`, `IceConnection.handleSignaling`,
      `IceConnection.onIceStateChanged`,
      `IceConnection.close`
    * `WatchedIce`, `WatchedIce.step`
    * `WatchedIce.FollowsIce`, `WatchedIce.Timely`
    * `WatchedIce.followsIce_iff_timely`
-/

namespace VeritasSync

------------------------------------------------------------
-- The Controller
------------------------------------------------------------

inductive PeerState where
| disconnected : PeerState
| connecting : PeerState
| connected : PeerState
| failed : PeerState
deriving DecidableEq

inductive IceState where
| new : IceState
| gathering : IceState
| connecting : IceState
| connected : IceState
| completed : IceState
| failed : IceState
| disconnected : IceState
deriving DecidableEq

/- What the transport is asked to do. -/
inductive IceRequest where
| gatherCandidates : IceRequest
| addRemoteCandidate : String → IceRequest
| setRemoteDescription : String → IceRequest
| setRemoteGatheringDone : IceRequest
deriving DecidableEq

/-
  There is a transport until the controller is closed.  The
  callbacks are kept as the lists of what they were given.
-/
structure IceConnection where
  isOfferSide : Bool
  state : PeerState
  closed : Bool
  ice : Option (List IceRequest)
  hasKcp : Bool
  kcpInitialized : Bool
  connectedAt : ℤ
  stateChanges : List PeerState
  signalsNeeded : List (String × String)
deriving DecidableEq

namespace IceConnection

/- The side with the smaller id makes the offer. -/
def create (selfId peerId : String) : IceConnection where
  isOfferSide := selfId < peerId
  state := .disconnected
  closed := false
  ice := some []
  hasKcp := false
  kcpInitialized := false
  connectedAt := 0
  stateChanges := []
  signalsNeeded := []

def initiateConnection (c : IceConnection) : IceConnection :=
  match c.ice with
  | none => c
  | some asked =>
      { c with
        state := .connecting
        ice := some (asked ++ [.gatherCandidates]) }

def handleSignaling
    (c : IceConnection)
    (signalType payload : String) : IceConnection :=
  match c.ice with
  | none => c
  | some asked =>
      if signalType = "ice_candidate" then
        { c with
          ice := some (asked ++
            [.addRemoteCandidate payload]) }
      else if signalType = "sdp_offer" then
        { c with
          state := .connecting
          ice := some (asked ++
            [.setRemoteDescription payload,
              .gatherCandidates]) }
      else if signalType = "sdp_answer" then
        { c with
          ice := some (asked ++
            [.setRemoteDescription payload]) }
      else if signalType = "ice_gathering_done" then
        { c with
          ice := some (asked ++ [.setRemoteGatheringDone]) }
      else
        c

def close (c : IceConnection) : IceConnection :=
  { c with
    closed := true
    state := .disconnected
    hasKcp := false
    ice := none
    kcpInitialized := false }

def setupKcpSession (c : IceConnection) : IceConnection :=
  if c.hasKcp || c.closed then
    c
  else
    { c with hasKcp := true }

/- A new state, and the callback that is told of it. -/
def enter
    (c : IceConnection)
    (state : PeerState) : IceConnection :=
  { c with
    state := state
    stateChanges := c.stateChanges ++ [state] }

/- The session is set up once. -/
def initializeKcp
    (c : IceConnection)
    (now : ℤ) : IceConnection :=
  if c.kcpInitialized then
    c
  else
    { setupKcpSession { c with kcpInitialized := true } with
      connectedAt := now }

def onIceStateChanged
    (c : IceConnection)
    (state : IceState)
    (now : ℤ) : IceConnection :=
  if state = .connected ∨ state = .completed then
    let c := c.initializeKcp now
    -- compare and exchange
    if c.state = .connecting then
      c.enter .connected
    else
      c
  else if state = .failed then
    c.enter .failed
  else if state = .disconnected then
    c.enter .disconnected
  else
    c

def onIceLocalCandidate
    (c : IceConnection)
    (candidate : String) : IceConnection :=
  { c with
    signalsNeeded :=
      c.signalsNeeded ++ [("ice_candidate", candidate)] }

def onIceGatheringDone
    (c : IceConnection)
    (localDesc : String) : IceConnection :=
  let signalType :=
    if c.isOfferSide then "sdp_offer" else "sdp_answer"
  { c with
    signalsNeeded := c.signalsNeeded ++
      [(signalType, localDesc), ("ice_gathering_done", "")] }

------------------------------------------------------------
-- What Each Call Does to the State
------------------------------------------------------------

section Calls

variable
  (c : IceConnection)

/- An attempt to connect, while there is a transport. -/
theorem initiateConnection_spec :
    c.initiateConnection.closed = c.closed ∧
      c.initiateConnection.ice.isSome = c.ice.isSome ∧
      c.initiateConnection.state =
        if c.ice.isSome then .connecting else c.state := by
  unfold initiateConnection
  cases hIce : c.ice with
  | none => exact ⟨rfl, by rw [hIce], rfl⟩
  | some asked => exact ⟨rfl, rfl, rfl⟩

theorem handleSignaling_spec
    (signalType payload : String) :
    (c.handleSignaling signalType payload).closed =
        c.closed ∧
      (c.handleSignaling signalType payload).ice.isSome =
        c.ice.isSome ∧
      (c.handleSignaling signalType payload).state =
        if signalType = "sdp_offer" ∧ c.ice.isSome then
          .connecting
        else
          c.state := by
  unfold handleSignaling
  cases hIce : c.ice with
  | none =>
      refine ⟨rfl, by rw [hIce], ?_⟩
      rw [if_neg (by simp)]
  | some asked =>
      by_cases hCandidate : signalType = "ice_candidate"
      · subst hCandidate
        exact ⟨rfl, rfl, by simp⟩
      · by_cases hOffer : signalType = "sdp_offer"
        · subst hOffer
          exact ⟨rfl, rfl, by simp⟩
        · by_cases hAnswer : signalType = "sdp_answer"
          · subst hAnswer
            exact ⟨rfl, rfl, by simp⟩
          · by_cases hDone : signalType = "ice_gathering_done"
            · subst hDone
              exact ⟨rfl, rfl, by simp⟩
            · simp [hCandidate, hOffer, hAnswer, hDone, hIce]

theorem initializeKcp_spec (now : ℤ) :
    (c.initializeKcp now).closed = c.closed ∧
      (c.initializeKcp now).ice = c.ice ∧
      (c.initializeKcp now).state = c.state := by
  unfold initializeKcp setupKcpSession
  split
  · exact ⟨rfl, rfl, rfl⟩
  · split
    · exact ⟨rfl, rfl, rfl⟩
    · exact ⟨rfl, rfl, rfl⟩

/- The state that is entered when ICE tells its own. -/
def entered
    (before : PeerState)
    (state : IceState) : PeerState :=
  match state with
  | .connected | .completed =>
      if before = .connecting then .connected else before
  | .failed => .failed
  | .disconnected => .disconnected
  | .new | .gathering | .connecting => before

theorem onIceStateChanged_spec
    (state : IceState)
    (now : ℤ) :
    (c.onIceStateChanged state now).closed = c.closed ∧
      (c.onIceStateChanged state now).ice = c.ice ∧
      (c.onIceStateChanged state now).state =
        entered c.state state := by
  have hKcp := c.initializeKcp_spec now
  have hUp : ∀ after,
      after = (if (c.initializeKcp now).state = .connecting
        then (c.initializeKcp now).enter .connected
        else c.initializeKcp now) →
      after.closed = c.closed ∧ after.ice = c.ice ∧
        after.state = if c.state = .connecting then
          .connected else c.state := by
    rintro after rfl
    rw [hKcp.2.2]
    by_cases hConnecting : c.state = .connecting
    · rw [if_pos hConnecting, if_pos hConnecting]
      exact ⟨hKcp.1, hKcp.2.1, rfl⟩
    · rw [if_neg hConnecting, if_neg hConnecting]
      exact hKcp
  cases state with
  | connected => exact hUp _ rfl
  | completed => exact hUp _ rfl
  | failed => exact ⟨rfl, rfl, rfl⟩
  | disconnected => exact ⟨rfl, rfl, rfl⟩
  | new => exact ⟨rfl, rfl, rfl⟩
  | gathering => exact ⟨rfl, rfl, rfl⟩
  | connecting => exact ⟨rfl, rfl, rfl⟩

end Calls

end IceConnection

------------------------------------------------------------
-- Runs
------------------------------------------------------------

/-
  A controller together with the last of the events that it
  was told of and that speak of the connection, and whether
  it ever went on to connect.
-/
structure WatchedIce where
  controller : IceConnection
  lastIce : Option IceState
  announced : Bool
deriving DecidableEq

namespace WatchedIce

open IceConnection

inductive Event where
| initiateConnection : Event
| signal (signalType payload : String) : Event
| iceState (state : IceState) (now : ℤ) : Event
| localCandidate (candidate : String) : Event
| gatheringDone (localDesc : String) : Event
| close : Event

def create (selfId peerId : String) : WatchedIce where
  controller := IceConnection.create selfId peerId
  lastIce := none
  announced := false

/- The events that the state is to follow. -/
def decides (state : IceState) : Bool :=
  state = .connected || state = .completed ||
    state = .failed || state = .disconnected

def isUp (state : IceState) : Bool :=
  state = .connected || state = .completed

def step
    (w : WatchedIce) : Event → Option WatchedIce
| .initiateConnection =>
    some { w with
      controller := w.controller.initiateConnection
      announced := true }
| .signal signalType payload =>
    some { w with
      controller :=
        w.controller.handleSignaling signalType payload
      announced := w.announced ||
        (signalType = "sdp_offer" &&
          w.controller.ice.isSome) }
| .iceState state now =>
    some { w with
      controller := w.controller.onIceStateChanged state now
      lastIce :=
        if decides state then some state else w.lastIce }
| .localCandidate candidate =>
    some { w with
      controller :=
        w.controller.onIceLocalCandidate candidate }
| .gatheringDone localDesc =>
    some { w with
      controller :=
        w.controller.onIceGatheringDone localDesc }
| .close =>
    some { w with controller := w.controller.close }

def Event.isConnected : Event → Bool
| .iceState .connected _ => true
| _ => false

/- No connection comes before anyone asks for one. -/
def Announced (w : WatchedIce) (e : Event) : Prop :=
  e.isConnected = true → w.announced = true

instance decidableAnnounced
    (w : WatchedIce)
    (e : Event) : Decidable (Announced w e) :=
  inferInstanceAs
    (Decidable (e.isConnected = true → w.announced = true))

/-
  The controller is connected as long as ICE is and it has
  not been closed, and after that it is at rest.
-/
structure FollowsIce (w : WatchedIce) : Prop where
  connected_iff :
    w.controller.state = .connected ↔
      w.controller.closed = false ∧
        w.lastIce.any isUp = true
  rests_of_closed :
    w.controller.closed = true →
      w.controller.state ≠ .connected ∧
        w.controller.state ≠ .connecting

/-
  On a controller that is not closed an attempt to connect
  comes only while it is not connected, and a connection only
  while it connects or is connected.
-/
def Timely (w : WatchedIce) : Event → Prop
| .initiateConnection =>
    w.controller.closed = true ∨
      w.controller.state ≠ .connected
| .signal signalType _ =>
    signalType = "sdp_offer" →
      w.controller.closed = true ∨
        w.controller.state ≠ .connected
| .iceState state _ =>
    isUp state = true →
      w.controller.closed = true ∨
        w.controller.state = .connecting ∨
          w.controller.state = .connected
| _ => True

/- The transport is there until the controller is closed. -/
structure Tracks (w : WatchedIce) : Prop where
  follows : FollowsIce w
  ice_iff : w.controller.ice.isSome = !w.controller.closed

theorem tracks_create (selfId peerId : String) :
    Tracks (create selfId peerId) := by
  refine ⟨⟨?_, ?_⟩, rfl⟩
  · refine iff_of_false PeerState.noConfusion ?_
    rintro ⟨_, hUp⟩
    cases hUp
  · intro hClosed
    cases hClosed

section Steps

variable
  {w w' : WatchedIce}
  {e : Event}

/- A step that leaves everything that counts as it was. -/
theorem tracks_of_same
    (hTracks : Tracks w)
    (hClosed : w'.controller.closed = w.controller.closed)
    (hIce : w'.controller.ice.isSome =
      w.controller.ice.isSome)
    (hState : w'.controller.state = w.controller.state)
    (hLast : w'.lastIce = w.lastIce) :
    Tracks w' := by
  rcases hTracks with ⟨⟨hConnected, hRests⟩, hAlive⟩
  refine ⟨⟨?_, ?_⟩, ?_⟩
  · rw [hState, hClosed, hLast]
    exact hConnected
  · rw [hState, hClosed]
    exact hRests
  · rw [hIce, hClosed]
    exact hAlive

/- An attempt to connect that comes at the right time. -/
theorem tracks_of_attempt
    (hTracks : Tracks w)
    (hClosed : w'.controller.closed = w.controller.closed)
    (hIce : w'.controller.ice.isSome =
      w.controller.ice.isSome)
    (hState : w'.controller.state =
      if w.controller.ice.isSome then .connecting
      else w.controller.state)
    (hLast : w'.lastIce = w.lastIce)
    (hTimely : w.controller.closed = true ∨
      w.controller.state ≠ .connected) :
    Tracks w' := by
  cases hOpen : w.controller.closed with
  | true =>
      have hNoIce : w.controller.ice.isSome = false := by
        rw [hTracks.ice_iff, hOpen]
        rfl
      rw [hNoIce, if_neg Bool.false_ne_true] at hState
      exact tracks_of_same hTracks hClosed hIce hState hLast
  | false =>
      have hSomeIce : w.controller.ice.isSome = true := by
        rw [hTracks.ice_iff, hOpen]
        rfl
      rw [hSomeIce, if_pos rfl] at hState
      have hNotUp : ¬ w.lastIce.any isUp = true := by
        intro hUp
        rcases hTimely with hShut | hApart
        · rw [hOpen] at hShut
          cases hShut
        · exact hApart (hTracks.follows.connected_iff.mpr
            ⟨hOpen, hUp⟩)
      refine ⟨⟨?_, ?_⟩, ?_⟩
      · rw [hState, hLast]
        exact iff_of_false (by decide)
          (fun hBoth => hNotUp hBoth.2)
      · intro hShut
        rw [hClosed, hOpen] at hShut
        cases hShut
      · rw [hIce, hClosed]
        exact hTracks.ice_iff

/- A controller at rest does not connect. -/
theorem entered_of_rest
    {before : PeerState}
    (state : IceState)
    (hRest : before ≠ .connected ∧ before ≠ .connecting) :
    entered before state ≠ .connected ∧
      entered before state ≠ .connecting := by
  cases state <;> simp [entered, hRest.1, hRest.2]

theorem entered_eq_connected_iff
    {before : PeerState}
    {state : IceState}
    (hTimely : isUp state = true →
      before = .connecting ∨ before = .connected) :
    entered before state = .connected ↔
      isUp state = true ∨
        (decides state = false ∧ before = .connected) := by
  cases state with
  | connected =>
      rcases hTimely rfl with rfl | rfl
      · decide
      · decide
  | completed =>
      rcases hTimely rfl with rfl | rfl
      · decide
      · decide
  | failed => simp [entered, isUp, decides]
  | disconnected => simp [entered, isUp, decides]
  | new => simp [entered, isUp, decides]
  | gathering => simp [entered, isUp, decides]
  | connecting => simp [entered, isUp, decides]

/- What ICE tells is the state, if it is told in time. -/
theorem tracks_of_iceState
    {state : IceState}
    (hTracks : Tracks w)
    (hClosed : w'.controller.closed = w.controller.closed)
    (hIce : w'.controller.ice = w.controller.ice)
    (hState : w'.controller.state =
      entered w.controller.state state)
    (hLast : w'.lastIce =
      if decides state then some state else w.lastIce)
    (hTimely : isUp state = true →
      w.controller.closed = true ∨
        w.controller.state = .connecting ∨
          w.controller.state = .connected) :
    Tracks w' := by
  rcases hTracks with ⟨⟨hConnected, hRests⟩, hAlive⟩
  have hAlive' : w'.controller.ice.isSome =
      !w'.controller.closed := by
    rw [hIce, hClosed]
    exact hAlive
  refine ⟨?_, hAlive'⟩
  cases hOpen : w.controller.closed with
  | true =>
      have hStays := entered_of_rest state (hRests hOpen)
      rw [← hState] at hStays
      refine ⟨iff_of_false hStays.1 ?_, fun _ => hStays⟩
      rintro ⟨hOpen', _⟩
      rw [hClosed, hOpen] at hOpen'
      cases hOpen'
  | false =>
      refine ⟨?_, ?_⟩
      · rw [hState, hClosed, hOpen, hLast]
        rw [hOpen] at hConnected hTimely
        rw [entered_eq_connected_iff (fun hUp =>
          (hTimely hUp).resolve_left Bool.false_ne_true)]
        cases state <;> simp [decides, isUp, hConnected]
      · intro hShut
        rw [hClosed, hOpen] at hShut
        cases hShut

theorem tracks_step
    (hTracks : Tracks w)
    (hTimely : Timely w e)
    (hStep : step w e = some w') :
    Tracks w' := by
  cases e with
  | initiateConnection =>
      cases hStep
      have hSpec := w.controller.initiateConnection_spec
      exact tracks_of_attempt hTracks hSpec.1 hSpec.2.1
        hSpec.2.2 rfl hTimely
  | signal signalType payload =>
      cases hStep
      have hSpec := w.controller.handleSignaling_spec
        signalType payload
      by_cases hOffer : signalType = "sdp_offer"
      · refine tracks_of_attempt hTracks hSpec.1 hSpec.2.1
          ?_ rfl (hTimely hOffer)
        simpa [hOffer] using hSpec.2.2
      · refine tracks_of_same hTracks hSpec.1 hSpec.2.1
          ?_ rfl
        simpa [hOffer] using hSpec.2.2
  | iceState state now =>
      cases hStep
      have hSpec := w.controller.onIceStateChanged_spec
        state now
      exact tracks_of_iceState hTracks hSpec.1 hSpec.2.1
        hSpec.2.2 rfl hTimely
  | localCandidate candidate =>
      cases hStep
      exact tracks_of_same hTracks rfl rfl rfl rfl
  | gatheringDone localDesc =>
      cases hStep
      exact tracks_of_same hTracks rfl rfl rfl rfl
  | close =>
      cases hStep
      refine ⟨⟨?_, ?_⟩, rfl⟩
      · refine iff_of_false PeerState.noConfusion ?_
        rintro ⟨hOpen, _⟩
        cases hOpen
      · intro _
        exact ⟨PeerState.noConfusion, PeerState.noConfusion⟩

/- An attempt to connect where there is a connection. -/
theorem not_followsIce_of_attempt
    (hTracks : Tracks w)
    (hClosed : w'.controller.closed = w.controller.closed)
    (hState : w'.controller.state =
      if w.controller.ice.isSome then .connecting
      else w.controller.state)
    (hLast : w'.lastIce = w.lastIce)
    (hOpen : w.controller.closed = false)
    (hConnected : w.controller.state = .connected) :
    ¬ FollowsIce w' := by
  intro hFollows
  have hUp := hTracks.follows.connected_iff.mp hConnected
  have hConnected' := hFollows.connected_iff.mpr (by
    rw [hClosed, hLast]
    exact hUp)
  rw [hTracks.ice_iff, hOpen] at hState
  rw [hState] at hConnected'
  cases hConnected'

/- ICE is up where the controller does not wait for it. -/
theorem not_followsIce_of_iceState
    {state : IceState}
    (hClosed : w'.controller.closed = w.controller.closed)
    (hState : w'.controller.state =
      entered w.controller.state state)
    (hLast : w'.lastIce =
      if decides state then some state else w.lastIce)
    (hUp : isUp state = true)
    (hOpen : w.controller.closed = false)
    (hApart : w.controller.state ≠ .connecting ∧
      w.controller.state ≠ .connected) :
    ¬ FollowsIce w' := by
  intro hFollows
  have hDecides : decides state = true := by
    cases state <;> first | rfl | cases hUp
  have hConnected := hFollows.connected_iff.mpr (by
    rw [hClosed, hLast, if_pos hDecides]
    exact ⟨hOpen, hUp⟩)
  rw [hState] at hConnected
  exact (entered_of_rest state
    ⟨hApart.2, hApart.1⟩).1 hConnected

theorem not_followsIce_step
    (hTracks : Tracks w)
    (hTimely : ¬ Timely w e)
    (hStep : step w e = some w') :
    ¬ FollowsIce w' := by
  cases e with
  | initiateConnection =>
      cases hStep
      rw [Timely, not_or] at hTimely
      have hSpec := w.controller.initiateConnection_spec
      exact not_followsIce_of_attempt hTracks hSpec.1
        hSpec.2.2 rfl (Bool.eq_false_iff.mpr hTimely.1)
        (Classical.not_not.mp hTimely.2)
  | signal signalType payload =>
      cases hStep
      rw [Timely, Classical.not_imp, not_or] at hTimely
      rcases hTimely with ⟨hOffer, hOpen, hConnected⟩
      have hSpec := w.controller.handleSignaling_spec
        signalType payload
      refine not_followsIce_of_attempt hTracks hSpec.1
        ?_ rfl (Bool.eq_false_iff.mpr hOpen)
        (Classical.not_not.mp hConnected)
      simpa [hOffer] using hSpec.2.2
  | iceState state now =>
      cases hStep
      rw [Timely, Classical.not_imp, not_or, not_or] at hTimely
      rcases hTimely with ⟨hUp, hOpen, hApart⟩
      have hSpec := w.controller.onIceStateChanged_spec
        state now
      exact not_followsIce_of_iceState hSpec.1 hSpec.2.2 rfl
        hUp (Bool.eq_false_iff.mpr hOpen) hApart
  | localCandidate candidate => exact absurd trivial hTimely
  | gatheringDone localDesc => exact absurd trivial hTimely
  | close => exact absurd trivial hTimely


end Steps

/-
  The state of a controller is the one of ICE in every state
  of a run exactly when every step of it is a timely one.
-/
theorem followsIce_iff_timely
    (selfId peerId : String)
    (events : List Event) :
    Transition.Always step FollowsIce
        (create selfId peerId) events ↔
      Transition.Meets step Timely
        (create selfId peerId) events := by
  apply Transition.always_iff_meets
  · intro w hTracks
    exact Tracks.follows hTracks
  · intro w e w' hTracks hTimely hStep
    exact tracks_step hTracks hTimely hStep
  · intro w e w' hTracks hTimely hStep
    exact not_followsIce_step hTracks hTimely hStep
  · intro w e hIdle
    cases e <;> cases hIdle
  · exact tracks_create selfId peerId

/-
  No connection comes unasked, and yet: a second offer takes
  a live connection for one that is still to come, and one
  that ICE brought back is not taken up.
-/
theorem not_followsIce_reoffer :
    (Transition.Meets step Announced (create "A" "B")
        [.initiateConnection, .iceState .connected 0,
          .signal "sdp_offer" "v=0"] ∧
      ¬ Transition.Always step FollowsIce (create "A" "B")
        [.initiateConnection, .iceState .connected 0,
          .signal "sdp_offer" "v=0"]) ∧
    (Transition.Meets step Announced (create "A" "B")
        [.initiateConnection, .iceState .connected 0,
          .iceState .disconnected 0,
          .iceState .connected 0] ∧
      ¬ Transition.Always step FollowsIce (create "A" "B")
        [.initiateConnection, .iceState .connected 0,
          .iceState .disconnected 0,
          .iceState .connected 0]) := by
  refine ⟨⟨by decide, ?_⟩, ⟨by decide, ?_⟩⟩
  · intro hAlways
    have hLast := (hAlways.2 _ rfl).2 _ rfl |>.2 _ rfl
    have hState := hLast.connected_iff.mpr (by decide)
    revert hState
    decide
  · intro hAlways
    have hLast := ((hAlways.2 _ rfl).2 _ rfl |>.2 _ rfl).2 _ rfl
    have hState := hLast.connected_iff.mpr (by decide)
    revert hState
    decide

end WatchedIce

end VeritasSync
