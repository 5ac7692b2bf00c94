import VeritasSync.P2p.PeerConnections

/-
  What each call to a controller leaves of it, and what it
  reports to the manager.

  Main declarations:
    * `Connections.Controller.Rests`
    * `Connections.Controller.Reports`,
      `Connections.Controller.reports_iceState`
    * `Connections.Controller.Shuts`
-/

namespace VeritasSync

namespace Connections

------------------------------------------------------------
-- Controllers at Rest
------------------------------------------------------------

namespace Controller

/- Nothing is left that could connect. -/
def Rests (c : Controller) : Prop :=
  match c.link with
  | .ice ice =>
      ice.ice = none ∧ ice.state ≠ .connecting ∧
        ice.state ≠ .connected
  | .direct session =>
      session.socketOpen = false ∧
        session.state ≠ .connecting ∧
          session.state ≠ .connected

/-
  A call that reports the given states leaves a controller
  that is at rest so; such a one reports no connection.
-/
structure Reports
    (c c' : Controller)
    (new : List PeerState) : Prop where
  peerId : c'.peerId = c.peerId
  isClosed : c'.isClosed = c.isClosed
  rests : c.Rests → c'.Rests
  stateChanges : c'.stateChanges = c.stateChanges ++ new
  quiet : c.Rests → .connected ∉ new
  atMostOne : new.length ≤ 1

theorem peerId_close (c : Controller) :
    c.close.peerId = c.peerId := by
  rcases c with ⟨peerId, link, graceful, sessionId⟩
  cases link <;> rfl

theorem isClosed_close (c : Controller) :
    c.close.isClosed = true := by
  rcases c with ⟨peerId, link, graceful, sessionId⟩
  cases link <;> rfl

theorem stateChanges_close (c : Controller) :
    c.close.stateChanges = c.stateChanges := by
  rcases c with ⟨peerId, link, graceful, sessionId⟩
  cases link <;> rfl

theorem rests_close (c : Controller) :
    c.close.Rests := by
  rcases c with ⟨peerId, link, graceful, sessionId⟩
  cases link with
  | ice ice =>
      exact ⟨rfl, PeerState.noConfusion,
        PeerState.noConfusion⟩
  | direct session =>
      exact ⟨rfl, PeerState.noConfusion,
        PeerState.noConfusion⟩

/- A signal for ICE that leads to no callback. -/
theorem stateChanges_handleSignaling
    (ice : IceConnection)
    (signalType payload : String) :
    (ice.handleSignaling signalType payload).stateChanges =
      ice.stateChanges := by
  unfold IceConnection.handleSignaling
  cases ice.ice with
  | none => rfl
  | some asked =>
      dsimp only
      split
      · rfl
      · split
        · rfl
        · split
          · rfl
          · split <;> rfl

theorem stateChanges_initiateConnection
    (ice : IceConnection) :
    ice.initiateConnection.stateChanges =
      ice.stateChanges := by
  unfold IceConnection.initiateConnection
  cases ice.ice <;> rfl

/- The states that ICE's own states lead to. -/
def reported
    (before : PeerState)
    (state : IceState) : List PeerState :=
  match state with
  | .connected | .completed =>
      if before = .connecting then [.connected] else []
  | .failed => [.failed]
  | .disconnected => [.disconnected]
  | .new | .gathering | .connecting => []

theorem stateChanges_initializeKcp
    (ice : IceConnection)
    (now : ℤ) :
    (ice.initializeKcp now).stateChanges =
      ice.stateChanges := by
  unfold IceConnection.initializeKcp
    IceConnection.setupKcpSession
  split
  · rfl
  · split <;> rfl

theorem stateChanges_onIceStateChanged
    (ice : IceConnection)
    (state : IceState)
    (now : ℤ) :
    (ice.onIceStateChanged state now).stateChanges =
      ice.stateChanges ++ reported ice.state state := by
  have hState := (ice.initializeKcp_spec now).2.2
  have hSame := stateChanges_initializeKcp ice now
  have hUp : (if (ice.initializeKcp now).state = .connecting
      then (ice.initializeKcp now).enter .connected
      else ice.initializeKcp now).stateChanges =
        ice.stateChanges ++
          if ice.state = .connecting then [.connected]
          else [] := by
    rw [hState]
    split
    · unfold IceConnection.enter
      rw [hSame]
    · rw [hSame, List.append_nil]
  cases state with
  | connected => exact hUp
  | completed => exact hUp
  | failed => rfl
  | disconnected => rfl
  | new => exact (List.append_nil _).symm
  | gathering => exact (List.append_nil _).symm
  | connecting => exact (List.append_nil _).symm

/- What a call to the transport reports. -/
def ofIce
    (new : IceConnection → List PeerState)
    (c : Controller) : List PeerState :=
  match c.link with
  | .ice ice => new ice
  | .direct _ => []

/- A call to the transport, or what the transport tells. -/
theorem reports_onIce
    {told : IceConnection → IceConnection}
    {new : IceConnection → List PeerState}
    (hClosed : ∀ ice, (told ice).closed = ice.closed)
    (hRests : ∀ ice, ice.ice = none →
      ice.state ≠ .connecting → ice.state ≠ .connected →
        (told ice).ice = none ∧
          (told ice).state ≠ .connecting ∧
            (told ice).state ≠ .connected)
    (hChanges : ∀ ice,
      (told ice).stateChanges = ice.stateChanges ++ new ice)
    (hQuiet : ∀ ice, ice.state ≠ .connecting →
      .connected ∉ new ice)
    (hOne : ∀ ice, (new ice).length ≤ 1)
    (c : Controller) :
    Reports c (c.onIce told) (c.ofIce new) := by
  rcases c with ⟨peerId, link, graceful, sessionId⟩
  cases link with
  | ice ice =>
      refine ⟨rfl, hClosed ice, ?_, hChanges ice, ?_,
        hOne ice⟩
      · rintro ⟨hIce, hWait, hUp⟩
        exact hRests ice hIce hWait hUp
      · rintro ⟨-, hWait, -⟩
        exact hQuiet ice hWait
  | direct session =>
      exact ⟨rfl, rfl, id, (List.append_nil _).symm,
        fun _ => List.not_mem_nil, Nat.zero_le _⟩

/- One that no state comes of. -/
theorem reports_nothing
    {told : IceConnection → IceConnection}
    (hClosed : ∀ ice, (told ice).closed = ice.closed)
    (hRests : ∀ ice, ice.ice = none →
      (told ice).ice = none ∧
        (told ice).state = ice.state)
    (hChanges : ∀ ice,
      (told ice).stateChanges = ice.stateChanges)
    (c : Controller) :
    Reports c (c.onIce told) [] := by
  have hNothing : c.ofIce (fun _ => []) = [] := by
    unfold ofIce
    cases c.link <;> rfl
  rw [← hNothing]
  apply reports_onIce hClosed
  · intro ice hIce hWait hUp
    rcases hRests ice hIce with ⟨hNone, hState⟩
    rw [hState]
    exact ⟨hNone, hWait, hUp⟩
  · intro ice
    rw [hChanges ice, List.append_nil]
  · intro ice hWait
    exact List.not_mem_nil
  · intro ice
    exact Nat.zero_le _

theorem reports_handleSignaling
    (signalType payload : String)
    (c : Controller) :
    Reports c (c.handleSignaling signalType payload) [] := by
  have hReports := reports_nothing
    (fun ice =>
      (ice.handleSignaling_spec signalType payload).1)
    ?_
    (fun ice =>
      stateChanges_handleSignaling ice signalType payload) c
  · rcases c with ⟨peerId, link, graceful, sessionId⟩
    cases link with
    | ice ice => exact hReports
    | direct session => exact hReports
  · intro ice hIce
    have hSame : ice.handleSignaling signalType payload =
        ice := by
      unfold IceConnection.handleSignaling
      rw [hIce]
    rw [hSame]
    exact ⟨hIce, rfl⟩

/- Without ICE the connection is there at once. -/
def reportedAtOnce (c : Controller) : List PeerState :=
  match c.link with
  | .ice _ => []
  | .direct session =>
      if session.socketOpen then [.connected] else []

theorem reports_initiateConnection
    (now : ℤ)
    (c : Controller) :
    Reports c (c.initiateConnection now)
      c.reportedAtOnce := by
  rcases c with ⟨peerId, link, graceful, sessionId⟩
  cases link with
  | ice ice =>
      refine reports_nothing
        (fun ice => ice.initiateConnection_spec.1) ?_
        stateChanges_initiateConnection
        ⟨peerId, .ice ice, graceful, sessionId⟩
      intro ice hNone
      have hSame : ice.initiateConnection = ice := by
        unfold IceConnection.initiateConnection
        rw [hNone]
      rw [hSame]
      exact ⟨hNone, rfl⟩
  | direct session =>
      unfold Controller.initiateConnection reportedAtOnce
        DirectSession.initiateConnection
      dsimp only
      split
      case isTrue hOpen =>
        refine ⟨rfl, rfl, ?_, rfl, ?_, Nat.le_refl 1⟩
        · rintro ⟨hShut, -⟩
          exact absurd (hOpen.symm.trans hShut) (by decide)
        · rintro ⟨hShut, -⟩
          exact absurd (hOpen.symm.trans hShut) (by decide)
      case isFalse =>
        exact ⟨rfl, rfl, id, (List.append_nil _).symm,
          fun _ => List.not_mem_nil, Nat.zero_le _⟩

theorem reports_iceState
    (state : IceState)
    (now : ℤ)
    (c : Controller) :
    Reports c
      (c.onIce (fun ice => ice.onIceStateChanged state now))
      (c.ofIce (fun ice => reported ice.state state)) := by
  apply reports_onIce
  · intro ice
    exact (ice.onIceStateChanged_spec state now).1
  · intro ice hNone hWait hUp
    rcases ice.onIceStateChanged_spec state now with
      ⟨-, hIce, hState⟩
    refine ⟨hIce.trans hNone, ?_⟩
    rw [hState, and_comm]
    exact WatchedIce.entered_of_rest state ⟨hUp, hWait⟩
  · intro ice
    exact stateChanges_onIceStateChanged ice state now
  · intro ice hWait
    unfold reported
    cases state <;> simp [hWait]
  · intro ice
    unfold reported
    cases state <;> dsimp only <;>
      first | exact Nat.zero_le _ | exact Nat.le_refl 1 | split
    all_goals first | exact Nat.le_refl 1 | exact Nat.zero_le _

theorem reports_syncSessionId
    (sessionId : ℕ)
    (c : Controller) :
    Reports c { c with syncSessionId := sessionId } [] :=
  ⟨rfl, rfl, id, (List.append_nil _).symm,
    fun _ => List.not_mem_nil, Nat.zero_le _⟩

theorem close_close (c : Controller) :
    c.close.close = c.close := by
  rcases c with ⟨peerId, link, graceful, sessionId⟩
  cases link <;> rfl

/- The call closes the controller. -/
structure Shuts
    (f : Controller → Controller) : Prop where
  peerId : ∀ c, (f c).peerId = c.peerId
  isClosed : ∀ c, (f c).isClosed = true
  rests : ∀ c, (f c).Rests
  stateChanges : ∀ c, (f c).stateChanges = c.stateChanges

theorem shuts_close : Shuts close where
  peerId := peerId_close
  isClosed := isClosed_close
  rests := rests_close
  stateChanges := stateChanges_close

theorem shuts_goodbye :
    Shuts (fun c =>
      { c with gracefulShutdown := true }.close) where
  peerId _ := peerId_close _
  isClosed _ := isClosed_close _
  rests _ := rests_close _
  stateChanges _ := stateChanges_close _

end Controller

end Connections

end VeritasSync
