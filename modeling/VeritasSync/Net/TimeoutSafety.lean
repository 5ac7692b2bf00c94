import VeritasSync.Library.Transition
import VeritasSync.Net.LanDiscovery

/-
  A local network in discrete time.  Every heartbeat that a
  device sends is delivered at once to all that are running,
  and time passes no timer that is due.

  A device that hears the others keeps quiet itself, so one
  that is running may be taken for gone.

  Main declarations:
    * `LanDevice`, `Lan`, `Lan.step`
    * `Lan.NoLivePeerLost`, `Lan.SkipsOnlyIfHeard`
    * `Lan.Sound`, `Lan.sound_step`
    * `Lan.noLivePeerLost_of_run`, `Lan.live_peer_lost`
-/

namespace VeritasSync

open Transition

------------------------------------------------------------
-- The Network
------------------------------------------------------------

/-
  A device, how far its steady clock is ahead, and when its
  timers fire.
-/
structure LanDevice where
  discovery : LanDiscovery
  ip : String
  clockOffset : ℤ
  nextHeartbeat : ℤ
  nextCheck : ℤ
deriving DecidableEq

structure Lan where
  nowMs : ℤ
  devices : List LanDevice
deriving DecidableEq

namespace LanDevice

def clock
    (nowMs : ℤ)
    (dev : LanDevice) : ℤ :=
  nowMs + dev.clockOffset

/- A heartbeat that was sent reaches a running device. -/
def hear
    (sent : Option Json)
    (sender : String)
    (nowMs : ℤ)
    (dev : LanDevice) : LanDevice :=
  match sent with
  | none => dev
  | some payload =>
      if dev.discovery.running then
        { dev with
          discovery := (dev.discovery.handleHeartbeat payload
            sender (dev.clock nowMs)).1 }
      else
        dev

/- Both timers are due when the device starts. -/
def start
    (nowMs : ℤ)
    (dev : LanDevice) : LanDevice :=
  { dev with
    discovery := dev.discovery.start
    nextHeartbeat := nowMs
    nextCheck := nowMs }

def stop (dev : LanDevice) : LanDevice :=
  { dev with discovery := dev.discovery.stop }

def scheduleHeartbeat
    (nowMs : ℤ)
    (dev : LanDevice) : LanDevice :=
  { dev with
    nextHeartbeat :=
      nowMs + LanDiscovery.heartbeatIntervalMs }

def checkTimeouts
    (nowMs : ℤ)
    (dev : LanDevice) : LanDevice :=
  { dev with
    discovery :=
      (dev.discovery.checkTimeouts (dev.clock nowMs)).1
    nextCheck :=
      nowMs + LanDiscovery.timeoutCheckIntervalMs }

end LanDevice

namespace Lan

inductive Event where
| join : LanDevice → Event
| start : ℕ → Event
| stop : ℕ → Event
| heartbeat : ℕ → Event
| check : ℕ → Event
| advance : ℕ → Event

/- `do_send_heartbeat` of one device. -/
def sendHeartbeat
    (i : ℕ)
    (s : Lan) : Lan :=
  match s.devices[i]? with
  | none => s
  | some dev =>
      let sent :=
        dev.discovery.doSendHeartbeat (dev.clock s.nowMs)
      { s with
        devices := (s.devices.map
          (LanDevice.hear sent dev.ip s.nowMs)).modify i
            (LanDevice.scheduleHeartbeat s.nowMs) }

def checkTimeouts
    (i : ℕ)
    (s : Lan) : Lan :=
  { s with
    devices :=
      s.devices.modify i (LanDevice.checkTimeouts s.nowMs) }

def startDevice
    (i : ℕ)
    (s : Lan) : Lan :=
  { s with
    devices := s.devices.modify i (LanDevice.start s.nowMs) }

/-
  A device joins as it was created.  Timers fire when they
  are due, in any order, and time stops at the next one.
-/
def step
    (s : Lan) : Event → Option Lan
| .join dev =>
    let discovery := LanDiscovery.create
      dev.discovery.deviceId dev.discovery.syncKey
      dev.discovery.kcpUdpPort dev.discovery.signalingPort
    some { s with
      devices := s.devices ++
        [{ dev with discovery := discovery }] }
| .start i => do
    let dev ← s.devices[i]?
    if dev.discovery.running then
      none
    else
      some (((s.startDevice i).sendHeartbeat i).checkTimeouts
        i)
| .stop i =>
    some { s with devices := s.devices.modify i .stop }
| .heartbeat i => do
    let dev ← s.devices[i]?
    if dev.discovery.running ∧
        dev.nextHeartbeat = s.nowMs then
      some (s.sendHeartbeat i)
    else
      none
| .check i => do
    let dev ← s.devices[i]?
    if dev.discovery.running ∧ dev.nextCheck = s.nowMs then
      some (s.checkTimeouts i)
    else
      none
| .advance ms =>
    if ∀ dev ∈ s.devices, dev.discovery.running →
        s.nowMs + ms ≤ dev.nextHeartbeat ∧
          s.nowMs + ms ≤ dev.nextCheck then
      some { s with nowMs := s.nowMs + ms }
    else
      none

/- No device is in the network yet. -/
def empty : Lan := ⟨0, []⟩

/-
  A check by a running device neither reports nor removes a
  peer that is running, too.
-/
def NoLivePeerLost (s : Lan) : Prop :=
  ∀ tracker ∈ s.devices, ∀ peer ∈ s.devices,
    tracker.discovery.running = true →
    peer.discovery.running = true →
    peer.discovery.syncKey = tracker.discovery.syncKey →
      let checked := tracker.discovery.checkTimeouts
        (tracker.clock s.nowMs)
      peer.discovery.deviceId ∉ checked.2 ∧
        (peer.discovery.deviceId ∈
            tracker.discovery.peers →
          peer.discovery.deviceId ∈ checked.1.peers)

/- Everyone who tracks the device has heard it lately. -/
def HeardLately
    (s : Lan)
    (dev : LanDevice) : Prop :=
  ∀ tracker ∈ s.devices,
    tracker.discovery.running = true →
    dev.discovery.syncKey = tracker.discovery.syncKey →
    ∀ info ∈ tracker.discovery.peers.lookup
        dev.discovery.deviceId,
      tracker.clock s.nowMs - info.lastSeenMs ≤
        LanDiscovery.peerTimeoutMs -
          LanDiscovery.heartbeatIntervalMs

instance
    (s : Lan)
    (dev : LanDevice) : Decidable (s.HeardLately dev) := by
  unfold HeardLately
  infer_instance

/- A device that skips its heartbeat was heard lately. -/
def SkipsOnlyIfHeard
    (s : Lan) : Event → Prop
| .start i | .heartbeat i =>
    ∀ dev ∈ s.devices[i]?,
      dev.discovery.hasRecentActivity
          (dev.clock s.nowMs) = true →
        s.HeardLately dev
| _ => True

instance
    (s : Lan)
    (e : Event) : Decidable (s.SkipsOnlyIfHeard e) := by
  cases e <;>
    unfold SkipsOnlyIfHeard <;>
    infer_instance

end Lan

------------------------------------------------------------
-- The Invariant
------------------------------------------------------------

namespace LanDevice

/- A device by itself, and when its heartbeat is due. -/
structure SoundAt
    (nowMs : ℤ)
    (dev : LanDevice) : Prop where
  idle : dev.discovery.running = false →
    dev.discovery.peers = ∅
  own : dev.discovery.peers.lookup
    dev.discovery.deviceId = none
  due : dev.discovery.running = true →
    nowMs ≤ dev.nextHeartbeat
  soon : dev.discovery.running = true →
    dev.nextHeartbeat ≤
      nowMs + LanDiscovery.heartbeatIntervalMs

/-
  When its next heartbeat is due, the device has not been
  silent for too long.
-/
def HeardInTime
    (tracker dev : LanDevice) : Prop :=
  tracker.discovery.running = true →
  dev.discovery.running = true →
  dev.discovery.syncKey = tracker.discovery.syncKey →
  ∀ info, tracker.discovery.peers.lookup
      dev.discovery.deviceId = some info →
    tracker.clock dev.nextHeartbeat - info.lastSeenMs ≤
      LanDiscovery.peerTimeoutMs

section Hear

variable
  (sent : Option Json)
  (sender : String)
  (nowMs : ℤ)
  (dev : LanDevice)

theorem hear_frame :
    ∃ discovery, dev.hear sent sender nowMs =
        { dev with discovery := discovery } ∧
      discovery.deviceId = dev.discovery.deviceId ∧
      discovery.syncKey = dev.discovery.syncKey ∧
      discovery.running = dev.discovery.running := by
  unfold hear
  split
  next => exact ⟨dev.discovery, rfl, rfl, rfl, rfl⟩
  next payload =>
    split
    next =>
      exact ⟨_, rfl, LanDiscovery.handleHeartbeat_frame
        payload sender (dev.clock nowMs) dev.discovery⟩
    next => exact ⟨dev.discovery, rfl, rfl, rfl, rfl⟩

@[simp] theorem hear_none :
    dev.hear none sender nowMs = dev := rfl

theorem hear_of_not_running
    (hIdle : dev.discovery.running = false) :
    dev.hear sent sender nowMs = dev := by
  unfold hear
  split
  next => rfl
  next => simp [hIdle]

@[simp] theorem deviceId_hear :
    (dev.hear sent sender nowMs).discovery.deviceId =
      dev.discovery.deviceId := by
  rcases hear_frame sent sender nowMs dev with
    ⟨_, hEq, hId, _⟩
  rw [hEq, hId]

@[simp] theorem syncKey_hear :
    (dev.hear sent sender nowMs).discovery.syncKey =
      dev.discovery.syncKey := by
  rcases hear_frame sent sender nowMs dev with
    ⟨_, hEq, _, hKey, _⟩
  rw [hEq, hKey]

@[simp] theorem running_hear :
    (dev.hear sent sender nowMs).discovery.running =
      dev.discovery.running := by
  rcases hear_frame sent sender nowMs dev with
    ⟨_, hEq, _, _, hRunning⟩
  rw [hEq, hRunning]

@[simp] theorem nextHeartbeat_hear :
    (dev.hear sent sender nowMs).nextHeartbeat =
      dev.nextHeartbeat := by
  rcases hear_frame sent sender nowMs dev with ⟨_, hEq, _⟩
  rw [hEq]

@[simp] theorem clock_hear
    (time : ℤ) :
    (dev.hear sent sender nowMs).clock time =
      dev.clock time := by
  rcases hear_frame sent sender nowMs dev with ⟨_, hEq, _⟩
  rw [hEq]
  rfl

/-
  After the heartbeat of a device of the group, what a
  running device knows of that one is new.
-/
theorem lookup_peers_hear
    {source : LanDevice}
    (hSent : sent = some source.discovery.heartbeat)
    (id : String) :
    (dev.hear sent sender nowMs).discovery.peers.lookup id =
      if dev.discovery.running = true ∧
          id = source.discovery.deviceId ∧
          source.discovery.deviceId ≠
            dev.discovery.deviceId ∧
          source.discovery.syncKey =
            dev.discovery.syncKey then
        some (source.discovery.heard sender
          (dev.clock nowMs))
      else
        dev.discovery.peers.lookup id := by
  subst hSent
  unfold hear
  dsimp only
  by_cases hRunning : dev.discovery.running = true
  · rw [if_pos hRunning]
    exact (LanDiscovery.lookup_peers_handleHeartbeat ..).trans
      (by simp only [hRunning, true_and])
  · rw [if_neg hRunning,
      if_neg (fun hAll => hRunning hAll.1)]

end Hear

end LanDevice

namespace Lan

/-
  Whoever tracks a running device has heard it in time.  A
  device that has just been started is not announced yet.
-/
structure Sound
    (announced : ℕ → Prop)
    (s : Lan) : Prop where
  device : ∀ (j : ℕ) (dev : LanDevice),
    s.devices[j]? = some dev → dev.SoundAt s.nowMs
  heard : ∀ (t : ℕ) (tracker : LanDevice)
      (j : ℕ) (dev : LanDevice),
    s.devices[t]? = some tracker →
    s.devices[j]? = some dev →
    announced j →
      tracker.HeardInTime dev

/- One device is changed, and the others are not. -/
theorem getElem?_modify_cases
    {devices : List LanDevice}
    {f : LanDevice → LanDevice}
    {i j : ℕ}
    {dev : LanDevice}
    (hDev : (devices.modify i f)[j]? = some dev) :
    (j = i ∧ ∃ old, devices[i]? = some old ∧ dev = f old) ∨
      (j ≠ i ∧ devices[j]? = some dev) := by
  rw [List.getElem?_modify] at hDev
  cases hOld : devices[j]? with
  | none => simp [hOld] at hDev
  | some old =>
      rw [hOld] at hDev
      have hEq : (if i = j then f old else old) = dev :=
        Option.some.inj hDev
      by_cases hSame : i = j
      · subst hSame
        exact Or.inl ⟨rfl, old, hOld, by simpa using hEq.symm⟩
      · rw [if_neg hSame] at hEq
        exact Or.inr ⟨Ne.symm hSame, congrArg some hEq⟩

section Steps

variable
  {announced : ℕ → Prop}
  {s : Lan}
  {i : ℕ}

/-
  A change of one device that keeps it sound, leaves its name
  and its heartbeat alone, and makes it know and run no more.
-/
theorem Sound.modify
    (hSound : s.Sound announced)
    {f : LanDevice → LanDevice}
    (hDevice : ∀ old, s.devices[i]? = some old →
      old.SoundAt s.nowMs → (f old).SoundAt s.nowMs)
    (hTracker : ∀ old dev, s.devices[i]? = some old →
      old.HeardInTime dev → (f old).HeardInTime dev)
    (hHeard : announced i → ∀ old tracker,
      s.devices[i]? = some old →
      LanDevice.HeardInTime tracker old →
        tracker.HeardInTime (f old)) :
    Sound announced
      { s with devices := s.devices.modify i f } := by
  constructor
  · intro j dev hDev
    rcases getElem?_modify_cases hDev with
      ⟨hSame, old, hOld, hNew⟩ | ⟨hOther, hOld⟩
    · rw [hNew]
      exact hDevice old hOld (hSound.device i old hOld)
    · exact hSound.device j dev hOld
  · intro t tracker j dev hTrackerAt hDevAt hAnnounced
    have hAny : ∀ old, s.devices[t]? = some old ∨
        (t = i ∧ ∃ was, s.devices[i]? = some was ∧
          old = f was) →
        ∀ was, s.devices[j]? = some was →
          LanDevice.HeardInTime old was := by
      intro old hOld was hWas
      rcases hOld with hOld | ⟨hSame, before, hBefore, hNew⟩
      · exact hSound.heard t old j was hOld hWas hAnnounced
      · rw [hNew]
        apply hTracker before was hBefore
        exact hSound.heard i before j was hBefore hWas
          hAnnounced
    have hTrackerCases : s.devices[t]? = some tracker ∨
        (t = i ∧ ∃ was, s.devices[i]? = some was ∧
          tracker = f was) := by
      rcases getElem?_modify_cases hTrackerAt with
        hChanged | ⟨_, hSame⟩
      · exact Or.inr hChanged
      · exact Or.inl hSame
    rcases getElem?_modify_cases hDevAt with
      ⟨hSame, old, hOld, hNew⟩ | ⟨_, hOld⟩
    · rw [hNew]
      apply hHeard (hSame ▸ hAnnounced) old tracker hOld
      exact hAny tracker hTrackerCases old (hSame ▸ hOld)
    · exact hAny tracker hTrackerCases dev hOld

theorem Sound.stop
    (hSound : s.Sound announced) :
    Sound announced
      { s with devices := s.devices.modify i .stop } := by
  have hStopped : ∀ old : LanDevice,
      ¬ old.stop.discovery.running = true := by
    intro old
    rcases old.discovery.stop_cases with hEq | ⟨hIdle, hEq⟩
    · simp [LanDevice.stop, hEq]
    · simp [LanDevice.stop, hEq, hIdle]
  apply hSound.modify
  · intro old _ hOld
    rcases old.discovery.stop_cases with hEq | ⟨_, hEq⟩
    · exact {
        idle := fun _ => by simp [LanDevice.stop, hEq]
        own := by simp [LanDevice.stop, hEq]
        due := fun hRunning => absurd hRunning (hStopped old)
        soon := fun hRunning =>
          absurd hRunning (hStopped old) }
    · rw [LanDevice.stop, hEq]
      exact hOld
  · intro old dev _ _ hRunning
    exact absurd hRunning (hStopped old)
  · intro _ old tracker _ _ _ hRunning
    exact absurd hRunning (hStopped old)

/- A check forgets peers and learns of none. -/
theorem Sound.checkTimeouts
    (hSound : s.Sound announced) :
    (s.checkTimeouts i).Sound announced := by
  apply hSound.modify
  · intro old _ hOld
    rcases LanDiscovery.checkTimeouts_frame
        (old.clock s.nowMs) old.discovery with
      ⟨peers, hEq, hIdle⟩
    have hOwn := LanDiscovery.lookup_checkTimeouts
      old.discovery (old.clock s.nowMs)
      old.discovery.deviceId
    rw [hOld.own, ite_self, hEq] at hOwn
    rw [LanDevice.checkTimeouts, hEq]
    exact {
      idle := fun hStopped =>
        (hIdle hStopped).trans (hOld.idle hStopped)
      own := hOwn
      due := hOld.due
      soon := hOld.soon }
  · intro old dev _ hHeard hTracks hRuns hKey info hInfo
    rcases LanDiscovery.checkTimeouts_frame
        (old.clock s.nowMs) old.discovery with
      ⟨peers, hEq, _⟩
    have hLookup := LanDiscovery.lookup_checkTimeouts
      old.discovery (old.clock s.nowMs)
      dev.discovery.deviceId
    rw [LanDevice.checkTimeouts] at hTracks hKey hInfo
    rw [hInfo] at hLookup
    rw [hEq] at hTracks hKey
    split at hLookup
    next => cases hLookup
    next => exact hHeard hTracks hRuns hKey info hLookup.symm
  · intro _ old tracker _ hHeard
    rcases LanDiscovery.checkTimeouts_frame
        (old.clock s.nowMs) old.discovery with
      ⟨peers, hEq, _⟩
    rw [LanDevice.checkTimeouts, hEq]
    exact hHeard

/- A device that starts knows nobody. -/
theorem Sound.startDevice
    (hSound : s.Sound (· ≠ i))
    {dev : LanDevice}
    (hDev : s.devices[i]? = some dev)
    (hIdle : dev.discovery.running = false) :
    (s.startDevice i).Sound (· ≠ i) := by
  apply hSound.modify
  · intro old _ hOld
    exact {
      idle := fun hStopped => nomatch hStopped
      own := hOld.own
      due := fun _ => Int.le_refl s.nowMs
      soon := fun _ =>
        Int.le_add_of_nonneg_right (by decide) }
  · intro old other hOld _ _ _ _ info hInfo
    have hSame : dev = old :=
      Option.some.inj (hDev.symm.trans hOld)
    have hNobody :=
      (hSound.device i dev hDev).idle hIdle
    rw [hSame] at hNobody
    simp only [LanDevice.start, LanDiscovery.start, hNobody,
      AList.lookup_empty] at hInfo
    cases hInfo
  · exact fun hNew => absurd rfl hNew

/- What a heartbeat of the device leaves of each of them. -/
theorem getElem?_sendHeartbeat
    {source dev : LanDevice}
    {j : ℕ}
    (hSource : s.devices[i]? = some source)
    (hDev : (s.sendHeartbeat i).devices[j]? = some dev) :
    ∃ old, s.devices[j]? = some old ∧
      dev.discovery = (old.hear
        (source.discovery.doSendHeartbeat
          (source.clock s.nowMs))
        source.ip s.nowMs).discovery ∧
      dev.clockOffset = old.clockOffset ∧
      dev.nextHeartbeat =
        if j = i then
          s.nowMs + LanDiscovery.heartbeatIntervalMs
        else
          old.nextHeartbeat := by
  rw [sendHeartbeat, hSource] at hDev
  have hOffset : ∀ old : LanDevice,
      (old.hear (source.discovery.doSendHeartbeat
          (source.clock s.nowMs))
        source.ip s.nowMs).clockOffset = old.clockOffset := by
    intro old
    rcases LanDevice.hear_frame
        (source.discovery.doSendHeartbeat
          (source.clock s.nowMs))
        source.ip s.nowMs old with ⟨_, hEq, _⟩
    rw [hEq]
  rcases getElem?_modify_cases hDev with
    ⟨hSame, heard, hHeard, hEq⟩ | ⟨hOther, hHeard⟩
  · rw [List.getElem?_map, hSource] at hHeard
    refine ⟨source, hSame ▸ hSource, ?_⟩
    rw [hEq, ← Option.some.inj hHeard, if_pos hSame]
    exact ⟨rfl, hOffset source, rfl⟩
  · rw [List.getElem?_map, Option.map_eq_some_iff] at hHeard
    rcases hHeard with ⟨old, hOld, hEq⟩
    refine ⟨old, hOld, ?_⟩
    rw [← hEq, if_neg hOther]
    exact ⟨rfl, hOffset old,
      LanDevice.nextHeartbeat_hear ..⟩

/- A running device sends its heartbeat or skips it. -/
theorem doSendHeartbeat_cases
    {d : LanDiscovery}
    {nowMs : ℤ}
    (hRunning : d.running = true) :
    d.doSendHeartbeat nowMs = some d.heartbeat ∨
      d.doSendHeartbeat nowMs = none ∧
        d.hasRecentActivity nowMs = true := by
  rw [LanDiscovery.doSendHeartbeat, hRunning]
  cases hRecent : d.hasRecentActivity nowMs with
  | false => exact Or.inl (by simp)
  | true => exact Or.inr ⟨by simp, rfl⟩

/- A device never hears of itself. -/
theorem soundAt_sendHeartbeat
    {announced : ℕ → Prop}
    (hSound : s.Sound announced)
    {source dev : LanDevice}
    {j : ℕ}
    (hSource : s.devices[i]? = some source)
    (hRunning : source.discovery.running = true)
    (hDev : (s.sendHeartbeat i).devices[j]? = some dev) :
    dev.SoundAt s.nowMs := by
  rcases getElem?_sendHeartbeat hSource hDev with
    ⟨old, hOld, hDiscovery, _, hNext⟩
  have hSoundOld := hSound.device j old hOld
  have hRuns : dev.discovery.running =
      old.discovery.running := by
    rw [hDiscovery, LanDevice.running_hear]
  constructor
  · intro hIdle
    rw [hRuns] at hIdle
    rw [hDiscovery, LanDevice.hear_of_not_running _ _ _ _
      hIdle]
    exact hSoundOld.idle hIdle
  · rw [hDiscovery, LanDevice.deviceId_hear]
    rcases doSendHeartbeat_cases hRunning with
      hBeat | ⟨hNone, _⟩
    · rw [LanDevice.lookup_peers_hear _ _ _ _ hBeat,
        if_neg (fun hAll => hAll.2.2.1 hAll.2.1.symm)]
      exact hSoundOld.own
    · rw [hNone, LanDevice.hear_none]
      exact hSoundOld.own
  · intro hNewRuns
    rw [hNext]
    split
    next => exact Int.le_add_of_nonneg_right (by decide)
    next => exact hSoundOld.due (hRuns ▸ hNewRuns)
  · intro hNewRuns
    rw [hNext]
    split
    next => exact Int.le_refl _
    next => exact hSoundOld.soon (hRuns ▸ hNewRuns)

/-
  A heartbeat that is sent makes the device known anew, and
  one that is skipped was not needed.
-/
theorem Sound.sendHeartbeat
    (hSound : s.Sound (· ≠ i))
    {source : LanDevice}
    (hSource : s.devices[i]? = some source)
    (hRunning : source.discovery.running = true)
    (hSkip : source.discovery.hasRecentActivity
        (source.clock s.nowMs) = true →
      s.HeardLately source) :
    (s.sendHeartbeat i).Sound (fun _ => True) := by
  have hNow : (s.sendHeartbeat i).nowMs = s.nowMs := by
    rw [Lan.sendHeartbeat, hSource]
  constructor
  · intro j dev hDev
    rw [hNow]
    exact soundAt_sendHeartbeat hSound hSource hRunning hDev
  · intro t tracker j dev hTracker hDev _ hTracks hRuns hKey
      info hInfo
    have hSoon := (soundAt_sendHeartbeat hSound hSource
      hRunning hDev).soon hRuns
    rcases getElem?_sendHeartbeat hSource hTracker with
      ⟨oldTracker, hOldTracker, hTrackerEq, hOffset, _⟩
    rcases getElem?_sendHeartbeat hSource hDev with
      ⟨old, hOld, hDevEq, _, hNext⟩
    have hClock : ∀ time,
        tracker.clock time = oldTracker.clock time := by
      intro time
      rw [LanDevice.clock, hOffset, LanDevice.clock]
    have hSender : j = i → source = old := by
      rintro rfl
      exact Option.some.inj (hSource.symm.trans hOld)
    rw [hTrackerEq, LanDevice.running_hear] at hTracks
    rw [hDevEq, LanDevice.running_hear] at hRuns
    rw [hTrackerEq, hDevEq, LanDevice.syncKey_hear,
      LanDevice.syncKey_hear] at hKey
    rw [hTrackerEq, hDevEq, LanDevice.deviceId_hear] at hInfo
    rw [hClock]
    rw [hNext] at hSoon ⊢
    rcases doSendHeartbeat_cases hRunning with
      hBeat | ⟨hNone, hRecent⟩
    · rw [LanDevice.lookup_peers_hear _ _ _ _ hBeat] at hInfo
      split at hInfo
      next =>
        rw [← Option.some.inj hInfo]
        simp only [LanDiscovery.heard, LanDevice.clock]
        simp only [LanDiscovery.heartbeatIntervalMs,
          LanDiscovery.peerTimeoutMs] at hSoon ⊢
        omega
      next hNot =>
        have hOther : j ≠ i := by
          intro hSame
          have hSelf := hSender hSame
          subst hSelf
          have hOwn :
              source.discovery.deviceId =
                oldTracker.discovery.deviceId := by
            by_contra hDistinct
            exact hNot ⟨hTracks, rfl, hDistinct, hKey⟩
          rw [hOwn, (hSound.device t oldTracker
            hOldTracker).own] at hInfo
          cases hInfo
        rw [if_neg hOther]
        exact hSound.heard t oldTracker j old hOldTracker hOld
          hOther hTracks hRuns hKey info hInfo
    · rw [hNone, LanDevice.hear_none] at hInfo
      by_cases hSame : j = i
      · have hSelf := hSender hSame
        subst hSelf
        have hBound := hSkip hRecent oldTracker
          (List.mem_of_getElem? hOldTracker) hTracks hKey
          info hInfo
        rw [if_pos hSame]
        simp only [LanDevice.clock,
          LanDiscovery.heartbeatIntervalMs,
          LanDiscovery.peerTimeoutMs] at hBound ⊢
        omega
      · rw [if_neg hSame]
        exact hSound.heard t oldTracker j old hOldTracker hOld
          hSame hTracks hRuns hKey info hInfo

end Steps

section Run

variable {s s' : Lan}

theorem sound_empty :
    Sound (fun _ => True) empty := by
  constructor
  · intro j dev hDev
    cases hDev
  · intro t tracker j dev hTracker
    cases hTracker

theorem Sound.weaken
    (hSound : Sound (fun _ => True) s)
    (announced : ℕ → Prop) :
    s.Sound announced where
  device := hSound.device
  heard := fun t tracker j dev hTracker hDev _ =>
    hSound.heard t tracker j dev hTracker hDev trivial

/- Who joins knows nobody and does not run. -/
theorem sound_join
    (hSound : Sound (fun _ => True) s)
    (dev : LanDevice)
    (hStep : s.step (.join dev) = some s') :
    Sound (fun _ => True) s' := by
  rw [← Option.some.inj hStep]
  have hOld : ∀ (j : ℕ) (other : LanDevice),
      (s.devices ++ [{ dev with
          discovery := LanDiscovery.create
            dev.discovery.deviceId dev.discovery.syncKey
            dev.discovery.kcpUdpPort
            dev.discovery.signalingPort }])[j]? =
        some other →
      s.devices[j]? = some other ∨
        other.discovery.running = false ∧
          other.discovery.peers = ∅ := by
    intro j other hOther
    rw [List.getElem?_append] at hOther
    split at hOther
    next => exact Or.inl hOther
    next =>
      have hNew := List.mem_of_getElem? hOther
      rw [List.mem_singleton] at hNew
      rw [hNew]
      exact Or.inr ⟨rfl, rfl⟩
  constructor
  · intro j other hOther
    rcases hOld j other hOther with hWas | ⟨hIdle, hNobody⟩
    · exact hSound.device j other hWas
    · exact {
        idle := fun _ => hNobody
        own := by rw [hNobody, AList.lookup_empty]
        due := fun hRuns => by simp [hIdle] at hRuns
        soon := fun hRuns => by simp [hIdle] at hRuns }
  · intro t tracker j other hTracker hOther _ hTracks hRuns
    rcases hOld t tracker hTracker with hT | ⟨hIdle, _⟩
    · rcases hOld j other hOther with hO | ⟨hIdle, _⟩
      · exact hSound.heard t tracker j other hT hO trivial
          hTracks hRuns
      · rw [hIdle] at hRuns
        cases hRuns
    · rw [hIdle] at hTracks
      cases hTracks

/- Time stops at the next heartbeat. -/
theorem sound_advance
    (hSound : Sound (fun _ => True) s)
    {ms : ℕ}
    (hStep : s.step (.advance ms) = some s') :
    Sound (fun _ => True) s' := by
  rw [step, Option.ite_none_right_eq_some] at hStep
  rcases hStep with ⟨hFree, hEq⟩
  rw [← Option.some.inj hEq]
  constructor
  · intro j dev hDev
    have hOld := hSound.device j dev hDev
    exact {
      idle := hOld.idle
      own := hOld.own
      due := fun hRuns =>
        (hFree dev (List.mem_of_getElem? hDev) hRuns).1
      soon := fun hRuns => by
        have hSoon := hOld.soon hRuns
        show dev.nextHeartbeat ≤ s.nowMs + ms + _
        omega }
  · exact hSound.heard

theorem sound_start
    (hSound : Sound (fun _ => True) s)
    {i : ℕ}
    (hSkips : s.SkipsOnlyIfHeard (.start i))
    (hStep : s.step (.start i) = some s') :
    Sound (fun _ => True) s' := by
  simp only [step, Option.bind_eq_bind,
    Option.bind_eq_some_iff] at hStep
  rcases hStep with ⟨dev, hDev, hStarts⟩
  split at hStarts
  next => cases hStarts
  next hIdle =>
    rw [Bool.not_eq_true] at hIdle
    rw [← Option.some.inj hStarts]
    have hStarted : (s.startDevice i).devices[i]? =
        some (dev.start s.nowMs) := by
      rw [startDevice, List.getElem?_modify_eq, hDev]
      rfl
    apply Sound.checkTimeouts
    apply ((hSound.weaken (· ≠ i)).startDevice hDev
      hIdle).sendHeartbeat hStarted rfl
    intro hRecent tracker hTracker hTracks hKey info hInfo
    rcases List.mem_iff_getElem?.mp hTracker with ⟨t, hAt⟩
    rcases getElem?_modify_cases hAt with
      ⟨_, old, hOld, hEq⟩ | ⟨_, hOld⟩
    · have hSame : dev = old :=
        Option.some.inj (hDev.symm.trans hOld)
      have hNobody := (hSound.device i dev hDev).idle hIdle
      rw [hSame] at hNobody
      simp only [hEq, LanDevice.start, LanDiscovery.start,
        hNobody, AList.lookup_empty] at hInfo
      cases hInfo
    · exact hSkips dev hDev hRecent tracker
        (List.mem_of_getElem? hOld) hTracks hKey info hInfo

/- One step keeps the network sound. -/
theorem sound_step
    {e : Event}
    (hSound : Sound (fun _ => True) s)
    (hSkips : s.SkipsOnlyIfHeard e)
    (hStep : s.step e = some s') :
    Sound (fun _ => True) s' := by
  cases e with
  | join dev => exact sound_join hSound dev hStep
  | start i => exact sound_start hSound hSkips hStep
  | stop i =>
      rw [← Option.some.inj hStep]
      exact hSound.stop
  | heartbeat i =>
      simp only [step, Option.bind_eq_bind,
        Option.bind_eq_some_iff] at hStep
      rcases hStep with ⟨dev, hDev, hSends⟩
      split at hSends
      next hDue =>
        rw [← Option.some.inj hSends]
        exact (hSound.weaken (· ≠ i)).sendHeartbeat hDev
          hDue.1 (hSkips dev hDev)
      next => cases hSends
  | check i =>
      simp only [step, Option.bind_eq_bind,
        Option.bind_eq_some_iff] at hStep
      rcases hStep with ⟨dev, hDev, hChecks⟩
      split at hChecks
      next =>
        rw [← Option.some.inj hChecks]
        exact hSound.checkTimeouts
      next => cases hChecks
  | advance ms => exact sound_advance hSound hStep

/- A sound network takes no running device for gone. -/
theorem noLivePeerLost_of_sound
    (hSound : Sound (fun _ => True) s) :
    s.NoLivePeerLost := by
  intro tracker hTracker peer hPeer hTracks hRuns hKey
    checked
  rcases List.mem_iff_getElem?.mp hTracker with ⟨t, hAt⟩
  rcases List.mem_iff_getElem?.mp hPeer with ⟨j, hPeerAt⟩
  have hNotLost :
      peer.discovery.deviceId ∉ checked.2 := by
    intro hLost
    rcases (LanDiscovery.mem_checkTimeouts_iff hTracks).mp
        hLost with ⟨info, hInfo, hStale⟩
    have hInTime := hSound.heard t tracker j peer hAt hPeerAt
      trivial hTracks hRuns hKey info hInfo
    have hDue := (hSound.device j peer hPeerAt).due hRuns
    have hSilent := of_decide_eq_true hStale
    simp only [LanDevice.clock] at hInTime hSilent
    omega
  refine ⟨hNotLost, ?_⟩
  intro hKnown
  rw [← AList.lookup_isSome, LanDiscovery.lookup_checkTimeouts,
    if_neg hNotLost]
  exact AList.lookup_isSome.mpr hKnown

/-
  In a run in which every device that skips a heartbeat was
  heard lately, no running device is ever taken for gone.
-/
theorem noLivePeerLost_of_run
    {events : List Event}
    (hSkips : Meets step SkipsOnlyIfHeard empty events)
    (hRun : run step empty events = some s) :
    s.NoLivePeerLost :=
  noLivePeerLost_of_sound
    (invariant_of_run
      (fun _ _ _ hSound hSkips hStep =>
        sound_step hSound hSkips hStep)
      sound_empty hSkips hRun)

end Run

/- Three devices of a group, started one after another. -/
def joined : List Event :=
  [("a", "10.0.0.1"), ("b", "10.0.0.2"),
    ("c", "10.0.0.3")].map (fun names =>
      .join
        { discovery :=
            LanDiscovery.create names.1 "k" 50000 7000
          ip := names.2
          clockOffset := 9000
          nextHeartbeat := 0
          nextCheck := 0 }) ++
    [.start 0, .advance 1000, .start 1, .advance 500,
      .start 2]

/- The timers of the three that are due after `k` halves. -/
def dueAt (k : ℕ) : List Event :=
  (if k % 4 = 0 then [.heartbeat 0] else []) ++
    (if k % 4 = 2 then [.heartbeat 1] else []) ++
    (if k % 4 = 3 then [.heartbeat 2] else []) ++
    (if k % 10 = 0 then [.check 0] else []) ++
    (if k % 10 = 2 then [.check 1] else []) ++
    (if k % 10 = 3 then [.check 2] else [])

/- Half a second after another, from two seconds on. -/
def halfSeconds (count : ℕ) : List Event :=
  (List.range count).flatMap (fun k =>
    .advance 500 :: dueAt (k + 4))

theorem noLivePeerLost_after_ten_seconds :
    ∃ s, run step empty (joined ++ halfSeconds 17) =
        some s ∧
      s.NoLivePeerLost := by
  have hDefined :
      (run step empty
        (joined ++ halfSeconds 17)).isSome = true := by
    decide +kernel
  rcases Option.isSome_iff_exists.mp hDefined with ⟨s, hRun⟩
  exact ⟨s, hRun,
    noLivePeerLost_of_run (by decide +kernel) hRun⟩

/-
  The third device sends every two seconds, which keeps the
  second one silent, and the first one gives the second up
  after two minutes.
-/
theorem live_peer_lost :
    ∃ s ∈ run step empty
        (joined ++ halfSeconds 246 ++ [.advance 500]),
      (∃ tracker ∈ s.devices[0]?, ∃ peer ∈ s.devices[1]?,
        tracker.nextCheck = s.nowMs ∧
          tracker.discovery.running = true ∧
          peer.discovery.running = true ∧
          peer.discovery.syncKey =
            tracker.discovery.syncKey ∧
          peer.discovery.deviceId ∈
            (tracker.discovery.checkTimeouts
              (tracker.clock s.nowMs)).2) ∧
      ¬ s.NoLivePeerLost := by
  have hLost : ∃ s ∈ run step empty
      (joined ++ halfSeconds 246 ++ [.advance 500]),
      ∃ tracker ∈ s.devices[0]?, ∃ peer ∈ s.devices[1]?,
        tracker.nextCheck = s.nowMs ∧
          tracker.discovery.running = true ∧
          peer.discovery.running = true ∧
          peer.discovery.syncKey =
            tracker.discovery.syncKey ∧
          peer.discovery.deviceId ∈
            (tracker.discovery.checkTimeouts
              (tracker.clock s.nowMs)).2 := by
    decide +kernel
  rcases hLost with ⟨s, hRun, tracker, hTracker, peer, hPeer,
    hDue, hTracks, hRuns, hKey, hReported⟩
  refine ⟨s, hRun, ⟨tracker, hTracker, peer, hPeer, hDue,
    hTracks, hRuns, hKey, hReported⟩, ?_⟩
  intro hNone
  exact (hNone tracker (List.mem_of_getElem? hTracker) peer
    (List.mem_of_getElem? hPeer) hTracks hRuns hKey).1
      hReported

end Lan

end VeritasSync
