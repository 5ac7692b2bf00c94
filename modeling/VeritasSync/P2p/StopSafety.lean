import VeritasSync.P2p.TrackerClient

/-
  What happens to a client of the tracker after it has been
  stopped, and which of the handlers that are still waiting
  bring it back to life.

  Main declarations:
    * `TrackerClient.Stopped`, `TrackerClient.Quiet`
    * `TrackerClient.stopped_iff_quiet`
-/

namespace VeritasSync

namespace TrackerClient

open Transition

/- Nothing has been begun since the client was stopped. -/
structure Stopped (atStop c : TrackerClient) : Prop where
  state : c.state = .stopping
  attempts : c.attempts = atStop.attempts
  armed : c.armed = atStop.armed

/-
  No host has been resolved, no acknowledgement has been read,
  and no posted call of `connect` is waiting to be run.
-/
def Quiet
    (P : JsonParser)
    (c : TrackerClient) : Event → Prop
| .run i =>
    match c.pending[i]? with
    | some ⟨.resolve, _, some .success⟩ => False
    | some ⟨.readBody, _, some .success⟩ =>
        ∀ msg, P.parse c.readBuffer = some msg →
          isRegAck msg = false
    | some ⟨.connectCall _ _, _, some _⟩ =>
        c.hasP2pManager = false
    | _ => True
| _ => True

------------------------------------------------------------
-- What Keeps the Client Stopped
------------------------------------------------------------

section Handlers

variable
  {dump : Json → List UInt8}
  {P : JsonParser}
  {atStop c : TrackerClient}

theorem Stopped.scheduleReconnect
    (hStopped : Stopped atStop c) :
    Stopped atStop c.scheduleReconnect := by
  rw [scheduleReconnect_of_stopping c hStopped.state]
  exact hStopped

theorem Stopped.startWriteNext
    (hStopped : Stopped atStop c) :
    Stopped atStop c.startWriteNext := by
  unfold TrackerClient.startWriteNext
  split
  next => exact hStopped
  next => exact ⟨hStopped.state, hStopped.attempts,
    hStopped.armed⟩

theorem Stopped.doWrite
    (hStopped : Stopped atStop c)
    (msg : List UInt8) :
    Stopped atStop (c.doWrite msg) := by
  have hQueued : Stopped atStop { c with
      writeQueue := c.writeQueue ++
        [⟨Framing.frame msg, c.nextSerial, c.connection⟩]
      nextSerial := c.nextSerial + 1 } :=
    ⟨hStopped.state, hStopped.attempts, hStopped.armed⟩
  unfold TrackerClient.doWrite
  split
  next => exact hQueued.startWriteNext
  next => exact hQueued

theorem Stopped.asyncRead
    (hStopped : Stopped atStop c)
    (op : Op)
    (count : ℕ) :
    Stopped atStop (c.asyncRead op count) :=
  ⟨hStopped.state, hStopped.attempts, hStopped.armed⟩

/- A connection made after the stop is not registered. -/
theorem Stopped.onConnected
    (hStopped : Stopped atStop c)
    (outcome : Outcome) :
    Stopped atStop (c.onConnected dump outcome) := by
  cases outcome with
  | success =>
      rw [TrackerClient.onConnected, doRegister,
        if_pos hStopped.state]
      exact hStopped.asyncRead _ _
  | aborted => exact hStopped.scheduleReconnect
  | failure => exact hStopped.scheduleReconnect

theorem Stopped.onHeaderRead
    (hStopped : Stopped atStop c)
    (outcome : Outcome) :
    Stopped atStop (c.onHeaderRead outcome) := by
  cases outcome with
  | success =>
      have hRead : Stopped atStop
          { c with readBuffer := c.readBuffer.drop 4 } :=
        ⟨hStopped.state, hStopped.attempts, hStopped.armed⟩
      simp only [TrackerClient.onHeaderRead]
      split
      next => exact hRead.scheduleReconnect
      next => exact hRead.asyncRead _ _
  | aborted => exact hStopped
  | failure => exact hStopped.scheduleReconnect

theorem Stopped.onWritten
    (hStopped : Stopped atStop c)
    (connection : ℕ)
    (packet : Packet)
    (outcome : Outcome) :
    Stopped atStop
      (c.onWritten connection packet outcome) := by
  cases outcome with
  | success =>
      exact Stopped.startWriteNext
        ⟨hStopped.state, hStopped.attempts, hStopped.armed⟩
  | aborted => exact hStopped
  | failure =>
      rw [TrackerClient.onWritten, if_pos hStopped.state]
      exact hStopped.scheduleReconnect

/- A timer that has expired before the stop does nothing. -/
theorem Stopped.onTimer
    (hStopped : Stopped atStop c)
    (outcome : Outcome) :
    Stopped atStop (c.onTimer outcome) := by
  cases outcome with
  | success =>
      rw [TrackerClient.onTimer, if_pos hStopped.state]
      exact hStopped
  | aborted => exact hStopped
  | failure => exact hStopped

theorem Stopped.stopImpl
    (hStopped : Stopped atStop c) :
    Stopped atStop c.stopImpl :=
  ⟨hStopped.state, hStopped.attempts, hStopped.armed⟩

theorem Stopped.post
    (hStopped : Stopped atStop c)
    (op : Op) :
    Stopped atStop (c.post op) :=
  ⟨hStopped.state, hStopped.attempts, hStopped.armed⟩

------------------------------------------------------------
-- What Brings It Back
------------------------------------------------------------

/- Only a resolution that failed is harmless. -/
theorem stopped_onResolved_iff
    (hStopped : Stopped atStop c)
    (outcome : Outcome) :
    Stopped atStop (c.onResolved outcome) ↔
      outcome ≠ .success := by
  cases outcome with
  | success =>
      have hMore : (c.onResolved .success).attempts =
          c.attempts + 1 := rfl
      refine iff_of_false ?_ (fun hNot => hNot rfl)
      intro hStill
      have hSame := hStill.attempts
      rw [hMore, hStopped.attempts] at hSame
      omega
  | aborted =>
      exact iff_of_true hStopped.scheduleReconnect
        Outcome.noConfusion
  | failure =>
      exact iff_of_true hStopped.scheduleReconnect
        Outcome.noConfusion

/- The state is stored without a look at what it was. -/
theorem stopped_onBodyRead_iff
    (hStopped : Stopped atStop c) :
    Stopped atStop (c.onBodyRead P .success) ↔
      ∀ msg, P.parse c.readBuffer = some msg →
        isRegAck msg = false := by
  simp only [onBodyRead, parseBody]
  cases hParse : P.parse c.readBuffer with
  | none =>
      refine iff_of_true ?_ ?_
      · exact ⟨hStopped.state, hStopped.attempts,
          hStopped.armed⟩
      · intro _ hNone
        cases hNone
  | some msg =>
      rcases handleMessage_eq { c with readBuffer := [] } msg
        with ⟨_, _, _, _, _, hHandled⟩
      simp only [hHandled, Option.some.injEq, forall_eq']
      cases hRegAck : isRegAck msg with
      | false =>
          refine iff_of_true ?_ rfl
          exact ⟨hStopped.state, hStopped.attempts,
            hStopped.armed⟩
      | true =>
          refine iff_of_false ?_ Bool.noConfusion
          intro hStill
          cases hStill.state

/- A posted call ends the stop, whenever it was made. -/
theorem stopped_connectCall_iff
    (hStopped : Stopped atStop c)
    (syncKey : String)
    (onReady : Option ℕ) :
    Stopped atStop (c.connectCall syncKey onReady) ↔
      c.hasP2pManager = false := by
  unfold connectCall
  split
  next hNone => exact iff_of_true hStopped hNone
  next hSome =>
    refine iff_of_false ?_ hSome
    rw [if_neg (fun hBusy => hBusy.2 hStopped.state)]
    exact fun hStill => nomatch hStill.state

end Handlers

------------------------------------------------------------
-- Whole Runs
------------------------------------------------------------

section Runs

variable
  (dump : Json → List UInt8)
  (P : JsonParser)
  {atStop c c' : TrackerClient}

/- The handler that is run decides whether it stays stopped. -/
theorem stopped_run_iff
    {i : ℕ}
    (hStopped : Stopped atStop c)
    (hStep : step dump P c (.run i) = some c') :
    Stopped atStop c' ↔ Quiet P c (.run i) := by
  rcases (step_run_eq_some_iff dump P).mp hStep with
    ⟨⟨op, missing, _⟩, outcome, hAt, rfl, rfl⟩
  have hTaken : Stopped atStop (c.taken i) :=
    ⟨hStopped.state, hStopped.attempts, hStopped.armed⟩
  simp only [Quiet, hAt]
  cases op with
  | resolve =>
      rw [handle, stopped_onResolved_iff hTaken]
      cases outcome <;> simp
  | connect => exact iff_of_true (hTaken.onConnected _) trivial
  | readHeader =>
      exact iff_of_true (hTaken.onHeaderRead _) trivial
  | readBody =>
      cases outcome with
      | success => exact stopped_onBodyRead_iff hTaken
      | aborted => exact iff_of_true hTaken trivial
      | failure =>
          exact iff_of_true hTaken.scheduleReconnect trivial
  | write connection packet =>
      exact iff_of_true (hTaken.onWritten _ _ _) trivial
  | timer delay => exact iff_of_true (hTaken.onTimer _) trivial
  | connectCall syncKey onReady =>
      exact stopped_connectCall_iff hTaken syncKey onReady
  | writeCall msg => exact iff_of_true (hTaken.doWrite _) trivial
  | stopImpl => exact iff_of_true hTaken.stopImpl trivial

/- Nothing but a handler can end the stop. -/
theorem stopped_of_step_of_not_run
    {e : Event}
    (hStopped : Stopped atStop c)
    (hNot : ∀ i, e ≠ .run i)
    (hStep : step dump P c e = some c') :
    Stopped atStop c' := by
  cases e with
  | connect syncKey onReady =>
      rw [← Option.some.inj hStep]
      exact hStopped.post _
  | stop inThread =>
      have hState : Stopped atStop
          { c with state := .stopping } :=
        ⟨rfl, hStopped.attempts, hStopped.armed⟩
      rw [← Option.some.inj hStep, stop]
      split
      next => exact hState.stopImpl
      next => exact hState.post _
  | send toPeerId type sdp =>
      rw [← Option.some.inj hStep, sendSignalingMessage]
      split
      next => exact hStopped.post _
      next => exact hStopped
  | setP2pManager present =>
      rw [← Option.some.inj hStep]
      exact ⟨hStopped.state, hStopped.attempts,
        hStopped.armed⟩
  | setDeviceId deviceId =>
      rw [← Option.some.inj hStep]
      exact ⟨hStopped.state, hStopped.attempts,
        hStopped.armed⟩
  | receive i bytes =>
      rcases (step_receive_eq_some_iff dump P).mp hStep with
        ⟨-, -, -, rfl⟩
      exact ⟨hStopped.state, hStopped.attempts,
        hStopped.armed⟩
  | finish i outcome =>
      rcases (step_finish_eq_some_iff dump P).mp hStep with
        ⟨-, -, -, rfl⟩
      exact ⟨hStopped.state, hStopped.attempts,
        hStopped.armed⟩
  | nextEndpoint i =>
      rcases (step_nextEndpoint_eq_some_iff dump P).mp hStep with
        ⟨-, -, -, rfl⟩
      exact ⟨hStopped.state, hStopped.attempts,
        hStopped.armed⟩
  | run i => exact absurd rfl (hNot i)

theorem stopped_step_iff
    {e : Event}
    (hStopped : Stopped atStop c)
    (hStep : step dump P c e = some c') :
    Stopped atStop c' ↔ Quiet P c e := by
  by_cases hRun : ∃ i, e = .run i
  · rcases hRun with ⟨i, rfl⟩
    exact stopped_run_iff dump P hStopped hStep
  · have hNot : ∀ i, e ≠ .run i := fun i hEq => hRun ⟨i, hEq⟩
    refine iff_of_true (stopped_of_step_of_not_run dump P
      hStopped hNot hStep) ?_
    cases e with
    | run i => exact absurd rfl (hNot i)
    | _ => trivial

/- What cannot happen needs no condition. -/
theorem quiet_of_step_eq_none
    {e : Event}
    (hNone : step dump P c e = none) :
    Quiet P c e := by
  cases e with
  | run i =>
      simp only [Quiet]
      split
      next hAt => simp [step, hAt] at hNone
      next hAt => simp [step, hAt] at hNone
      next hAt => simp [step, hAt] at hNone
      next => trivial
  | _ => trivial

theorem stopped_stop
    (c : TrackerClient)
    (inThread : Bool) :
    Stopped c (c.stop inThread) := by
  unfold stop
  cases inThread <;> exact ⟨rfl, rfl, rfl⟩

/-
  From any state, a stopped client stays stopped throughout a
  run exactly when every handler that is run is quiet.
-/
theorem stopped_iff_quiet
    (c : TrackerClient)
    (inThread : Bool)
    (events : List Event) :
    Always (step dump P) (Stopped c)
        (c.stop inThread) events ↔
      Meets (step dump P) (Quiet P)
        (c.stop inThread) events := by
  apply always_iff_meets (fun _ => id)
  · exact fun _ _ _ hStopped hQuiet hStep =>
      (stopped_step_iff dump P hStopped hStep).mpr hQuiet
  · exact fun _ _ _ hStopped hNot hStep hStill =>
      hNot ((stopped_step_iff dump P hStopped hStep).mp
        hStill)
  · exact fun _ _ hNone => quiet_of_step_eq_none dump P hNone
  · exact stopped_stop c inThread

end Runs

------------------------------------------------------------
-- An Acknowledgement That Has Been Read
------------------------------------------------------------

def regAckParser : JsonParser where
  parse := fun bytes =>
    if bytes = [123, 125] then
      some (.obj [("payload", .obj []),
        ("type", .str "REG_ACK")])
    else
      none
  unread := fun _ => []

/- The client registers, and the acknowledgement arrives. -/
def acknowledged : List Event :=
  [.setP2pManager true, .connect "key" none, .run 0,
    .finish 0 .success, .run 0, .finish 0 .success, .run 0,
    .finish 0 .success, .run 0, .receive 0 [0, 0, 0, 2],
    .run 0, .receive 0 [123, 125]]

/-
  Stopped before its handler runs: the client is connected
  again, fails to read, and sets the timer and connects.
-/
theorem not_stopped_acknowledged :
    ∃ c c',
      run (step (fun _ => []) regAckParser) start
          acknowledged = some c ∧
        run (step (fun _ => []) regAckParser) (c.stop true)
          [.run 0, .run 0, .finish 0 .success, .run 0] =
            some c' ∧
        c'.state = .connecting ∧
        c'.attempts = c.attempts + 1 ∧
        c'.armed = c.armed + 1 ∧
        ¬ Always (step (fun _ => []) regAckParser)
          (Stopped c) (c.stop true) [.run 0] := by
  refine ⟨_, _, rfl, rfl, rfl, rfl, rfl, ?_⟩
  intro hAlways
  cases (hAlways.2 _ rfl).state

end TrackerClient

end VeritasSync
