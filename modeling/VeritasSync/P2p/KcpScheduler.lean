import VeritasSync.Library.WrapClock
import VeritasSync.P2p.SendSafety

/-
  The thread that drives the KCP sessions of all peers, and
  how long it sleeps between two rounds.

  Main declarations:
    * `IkcpTimer`, `KcpScheduler.Turn`
    * `KcpScheduler.drivePeers`,
      `KcpScheduler.updateAllKcps`
    * `KcpScheduler.nextUpdates`
    * `KcpScheduler.interval_le_forward`
-/

namespace VeritasSync

------------------------------------------------------------
-- Driving a Session
------------------------------------------------------------

/- The clock of KCP.  A time it answers is any number. -/
structure IkcpTimer (κ : Type) where
  update : κ → BitVec 32 → κ
  check : κ → BitVec 32 → BitVec 32

section Driving

variable {κ : Type}
variable
  (T : IkcpTimer κ)
  (currentMs : BitVec 32)

namespace KcpSession

def update (session : KcpSession κ) : KcpSession κ :=
  match session.kcp with
  | none => session
  | some kcp => ⟨some (T.update kcp currentMs)⟩

def check (session : KcpSession κ) : BitVec 32 :=
  match session.kcp with
  | none => currentMs
  | some kcp => T.check kcp currentMs

end KcpSession

namespace PeerController

/- An update is skipped while the mutex is taken. -/
def updateKcp
    (controller : PeerController κ)
    (taken : Bool) : PeerController κ :=
  if taken then
    controller
  else
    match controller.kcp with
    | none => controller
    | some session =>
        { controller with
          kcp := some (session.update T currentMs) }

def checkKcp (controller : PeerController κ) : BitVec 32 :=
  match controller.kcp with
  | none => currentMs
  | some session => session.check T currentMs

end PeerController

end Driving

------------------------------------------------------------
-- A Round
------------------------------------------------------------

structure KcpScheduler where
  intervalMs : BitVec 32
  lastKeepaliveTime : ℕ

namespace KcpScheduler

def intervalMinMs : BitVec 32 := 1#32

def intervalMaxMs : BitVec 32 := 100#32

/- Times are in nanoseconds. -/
def keepaliveInterval : ℕ := 15 * 10 ^ 9

def msgTypePing : UInt8 := 3

/- What a 32-bit clock shows. -/
def currentTimeMs (now : ℕ) : BitVec 32 :=
  BitVec.ofNat 32 (now / 10 ^ 6)

section Round

variable {ι κ : Type}
variable [DecidableEq ι]

/-
  One controller of the list, and what goes on around it:
  what the other threads did to the peers before its turn,
  whether its mutex is taken, and what they and the messages
  that the update hands out do before the check.
-/
structure Turn (ι κ : Type) where
  id : ι
  earlier :
    (ι → PeerController κ) → (ι → PeerController κ)
  taken : Bool
  meanwhile :
    (ι → PeerController κ) → (ι → PeerController κ)

variable
  (K : Ikcp κ)
  (T : IkcpTimer κ)
  (currentMs : BitVec 32)

/- The peers when the controller is asked for its time. -/
def Turn.drive
    (turn : Turn ι κ)
    (peers : ι → PeerController κ) :
    ι → PeerController κ :=
  turn.meanwhile (Function.update peers turn.id
    ((peers turn.id).updateKcp T currentMs turn.taken))

/- The loop over the controllers. -/
def drivePeers :
    (ι → PeerController κ) → BitVec 32 → List (Turn ι κ) →
      (ι → PeerController κ) × BitVec 32
| peers, nextWakeup, [] => (peers, nextWakeup)
| peers, nextWakeup, turn :: turns =>
    let found := turn.earlier peers
    if (found turn.id).isValid then
      let driven := turn.drive T currentMs found
      let kcpNext := (driven turn.id).checkKcp T currentMs
      drivePeers driven
        (if kcpNext < nextWakeup then kcpNext
          else nextWakeup)
        turns
    else
      drivePeers found nextWakeup turns

/- A ping goes to every peer that is connected. -/
def sendPings
    (peers : ι → PeerController κ) :
    List ι → (ι → PeerController κ)
| [] => peers
| id :: ids =>
    if (peers id).isValid && (peers id).connected then
      sendPings (Function.update peers id
        ((peers id).sendMessage K [msgTypePing]).2) ids
    else
      sendPings peers ids

def updateAllKcps
    (scheduler : KcpScheduler)
    (now : ℕ)
    (peers : ι → PeerController κ)
    (controllers : List (Turn ι κ)) :
    KcpScheduler × (ι → PeerController κ) :=
  let currentMs := currentTimeMs now
  if controllers.isEmpty then
    (scheduler, peers)
  else
    let driven := drivePeers T currentMs peers
      (currentMs + intervalMaxMs) controllers
    let elapsed :=
      if currentMs < driven.2 then
        driven.2 - currentMs
      else
        0#32
    let interval :=
      WrapClock.clamp intervalMinMs intervalMaxMs elapsed
    if keepaliveInterval ≤
        now - scheduler.lastKeepaliveTime then
      (⟨interval, now⟩,
        sendPings K driven.1 (controllers.map Turn.id))
    else
      (⟨interval, scheduler.lastKeepaliveTime⟩, driven.1)

------------------------------------------------------------
-- The Interval
------------------------------------------------------------

/- What the valid peers answer, one after another. -/
def nextUpdates :
    (ι → PeerController κ) → List (Turn ι κ) →
      List (BitVec 32)
| _, [] => []
| peers, turn :: turns =>
    let found := turn.earlier peers
    if (found turn.id).isValid then
      let driven := turn.drive T currentMs found
      (driven turn.id).checkKcp T currentMs ::
        nextUpdates driven turns
    else
      nextUpdates found turns

section Interval

variable
  {scheduler : KcpScheduler}
  {now : ℕ}
  {peers : ι → PeerController κ}
  {controllers : List (Turn ι κ)}

/- The loop finds the smallest number of all. -/
theorem drivePeers_snd
    (nextWakeup : BitVec 32) :
    (drivePeers T currentMs peers nextWakeup
        controllers).2 =
      WrapClock.earliest nextWakeup
        (nextUpdates T currentMs peers controllers) := by
  induction controllers generalizing peers nextWakeup with
  | nil => rfl
  | cons turn turns ih =>
      by_cases hValid :
          (turn.earlier peers turn.id).isValid
      · simp only [drivePeers, nextUpdates, hValid, if_true,
          WrapClock.earliest]
        exact ih _
      · simp only [drivePeers, nextUpdates, hValid,
          if_false, Bool.false_eq_true]
        exact ih _

theorem intervalMs_updateAllKcps
    (hPeers : controllers ≠ []) :
    (updateAllKcps K T scheduler now peers
        controllers).1.intervalMs =
      WrapClock.clamp intervalMinMs intervalMaxMs
        (WrapClock.ahead (currentTimeMs now)
          (WrapClock.earliest
            (currentTimeMs now + intervalMaxMs)
            (nextUpdates T (currentTimeMs now) peers
              controllers))) := by
  have hSome : controllers.isEmpty = false :=
    List.isEmpty_eq_false_iff.mpr hPeers
  simp only [updateAllKcps, hSome, Bool.false_eq_true,
    if_false, drivePeers_snd, WrapClock.ahead]
  split
  · rfl
  · rfl

/-
  However the clock and the times have wrapped, the thread
  sleeps for a time within its bounds, and past the next
  update of no peer but for the least it must sleep.
-/
theorem interval_le_forward
    (hPeers : controllers ≠ []) :
    intervalMinMs ≤ (updateAllKcps K T scheduler now peers
        controllers).1.intervalMs ∧
      (updateAllKcps K T scheduler now peers
        controllers).1.intervalMs ≤ intervalMaxMs ∧
      ∀ due ∈ nextUpdates T (currentTimeMs now) peers
          controllers,
        (updateAllKcps K T scheduler now peers
            controllers).1.intervalMs.toNat ≤
          max intervalMinMs.toNat
            (WrapClock.forward (currentTimeMs now) due) := by
  have hRange : intervalMinMs ≤ intervalMaxMs := by
    decide
  rw [intervalMs_updateAllKcps K T hPeers]
  refine ⟨(WrapClock.clamp_bounds hRange).1,
    (WrapClock.clamp_bounds hRange).2, ?_⟩
  intro due hDue
  exact WrapClock.clamp_ahead_earliest_le hDue

end Interval

end Round

/- A session with an empty queue waits the longer. -/
def sampleTimer : IkcpTimer (List (List UInt8)) where
  update := fun queue _ => queue
  check := fun queue now =>
    if queue.isEmpty then now + 9#32 else now + 3#32

def samplePeers
    (busy : Bool) : PeerController (List (List UInt8)) :=
  { connected := true
    closed := false
    kcp := some ⟨some (if busy then [[1]] else [])⟩ }

/- Nothing else goes on. -/
def quietTurn {ι κ : Type} (id : ι) : Turn ι κ :=
  { id := id
    earlier := fun peers => peers
    taken := false
    meanwhile := fun peers => peers }

/-
  The clock is about to start over: the first peer is due
  after that, the second before.
-/
theorem interval_le_forward_before_wrap :
    nextUpdates sampleTimer
        (currentTimeMs (4294967290 * 10 ^ 6)) samplePeers
        [quietTurn false, quietTurn true] =
      [3#32, 4294967293#32] ∧
    intervalMinMs ≤
      (updateAllKcps PeerController.sampleKcp sampleTimer
        ⟨20#32, 0⟩ (4294967290 * 10 ^ 6) samplePeers
        [quietTurn false, quietTurn true]).1.intervalMs :=
  ⟨by decide,
    (interval_le_forward PeerController.sampleKcp
      sampleTimer (List.cons_ne_nil _ _)).1⟩

end KcpScheduler

end VeritasSync
