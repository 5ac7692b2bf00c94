import Mathlib.Algebra.GroupWithZero.Nat
import VeritasSync.P2p.KcpSession
import VeritasSync.Sync.UploadLoop

/-
  Which messages are lost on the way to the transport while
  their sender is told that they were sent.

  Main declarations:
    * `PeerController.NoSilentLoss`,
      `PeerController.Sendable`
    * `PeerController.noSilentLoss_iff_sendable`
    * `PeerController.dropped_without_manager`
-/

namespace VeritasSync

namespace PeerController

open KcpSession

section Sending

variable {κ : Type}
variable
  (K : Ikcp κ)
  (controller : PeerController κ)
  (packet : List UInt8)

/-
  Neither the controller nor, while the manager is there,
  the callback of the transfers reports success for a packet
  that is not in the queue.
-/
structure NoSilentLoss : Prop where
  reported :
    0 ≤ (controller.sendMessage K packet).1 →
      (controller.sendMessage K packet).2.sendQueue K =
        controller.sendQueue K ++ [packet]
  advanced : ∀ after,
    (P2PManager.sendCallback K true (some controller)
        packet).2 = some after →
      0 ≤ (P2PManager.sendCallback K true
        (some controller) packet).1 →
      after.sendQueue K =
        controller.sendQueue K ++ [packet]

/-
  There is no session, or it is a live one and the size is
  one that KCP takes.
-/
def Sendable (size : ℕ) : Prop :=
  match controller.kcp with
  | none => True
  | some session =>
      size ≤ intMax ∧
        ∃ kcp, session.kcp = some kcp ∧
          fragments (K.fragmentSize kcp) size <
            fragmentLimit

theorem getWaitSendCount_nonneg
    (session : KcpSession κ) :
    0 ≤ session.getWaitSendCount K := by
  unfold getWaitSendCount
  split
  next => exact Int.le_refl 0
  next kcp _ => exact Int.natCast_nonneg _

/- A session takes what KCP takes, and nothing else. -/
theorem sendQueue_send_eq_iff
    (session : KcpSession κ) :
    (session.send K packet).2.sendQueue K =
        session.sendQueue K ++ [packet] ↔
      packet.length ≤ intMax ∧
        ∃ kcp, session.kcp = some kcp ∧
          fragments (K.fragmentSize kcp) packet.length <
            fragmentLimit := by
  have hKept : session.sendQueue K ≠
      session.sendQueue K ++ [packet] := by
    intro hSame
    have hLength := congrArg List.length hSame
    rw [List.length_append, List.length_singleton]
      at hLength
    omega
  unfold KcpSession.send
  split
  next hLong =>
    refine iff_of_false hKept ?_
    exact fun hSize => absurd hSize.1 (Nat.not_le.mpr hLong)
  next hShort =>
    rcases session with ⟨_ | kcp⟩
    · refine iff_of_false hKept ?_
      rintro ⟨_, kcp, hNone, _⟩
      cases hNone
    · simp only [KcpSession.sendQueue] at hKept ⊢
      by_cases hFits :
          fragments (K.fragmentSize kcp) packet.length <
            fragmentLimit
      · refine iff_of_true (K.send_queued kcp packet hFits).2
          ⟨Nat.not_lt.mp hShort, kcp, rfl, hFits⟩
      · have hRefused := (K.send_refused kcp packet
          (Nat.not_lt.mp hFits)).2
        rw [hRefused]
        refine iff_of_false hKept ?_
        rintro ⟨_, _, hSame, hSize⟩
        cases hSame
        exact hFits hSize

/- Success is reported whenever there is a session. -/
theorem reported_iff_sendable :
    (0 ≤ (controller.sendMessage K packet).1 →
      (controller.sendMessage K packet).2.sendQueue K =
        controller.sendQueue K ++ [packet]) ↔
      controller.Sendable K packet.length := by
  rcases controller with ⟨connected, closed, _ | session⟩
  · refine iff_of_true ?_ trivial
    intro hReported
    have hNegative : (0 : ℤ) ≤ -1 := hReported
    omega
  · simp only [sendMessage, PeerController.sendQueue,
      Sendable]
    rw [← sendQueue_send_eq_iff]
    exact forall_prop_of_true
      (getWaitSendCount_nonneg K _)

/- The callback says what the controller says. -/
theorem advanced_of_reported
    (hReported :
      0 ≤ (controller.sendMessage K packet).1 →
        (controller.sendMessage K packet).2.sendQueue K =
          controller.sendQueue K ++ [packet])
    {after : PeerController κ}
    (hAfter : (P2PManager.sendCallback K true
      (some controller) packet).2 = some after)
    (hAdvanced : 0 ≤ (P2PManager.sendCallback K true
      (some controller) packet).1) :
    after.sendQueue K =
      controller.sendQueue K ++ [packet] := by
  unfold P2PManager.sendCallback at hAfter hAdvanced
  simp only [Bool.not_true, Bool.false_eq_true, if_false]
    at hAfter hAdvanced
  split at hAdvanced
  next hReady =>
    rw [if_pos hReady] at hAfter
    rw [← Option.some.inj hAfter]
    exact hReported hAdvanced
  next =>
    have hNegative : (0 : ℤ) ≤ -1 := hAdvanced
    omega

/-
  Once the manager is gone, chunks are dropped and the
  uploads go on as if they had been sent.  Nothing comes of
  it: the node has taken the state manager away by then, and
  an upload that ends without one is not recorded.
-/
theorem dropped_without_manager
    {config : TransferManager.TransferConfig}
    {u : TransferManager.Upload}
    {file : Content}
    {stream : TransferManager.ReadStream}
    (peer : Option (PeerController κ)) :
    let sent := P2PManager.sendCallback K false peer packet
    sent.2 = peer ∧
      (u.handChunk config file stream sent.1).currentChunk =
        u.currentChunk + 1 ∧
      (u.handChunk config file stream sent.1).phase =
        u.phase ∧
      (u.finish false).recorded = false := by
  refine ⟨rfl, ?_, rfl, Bool.and_false _⟩
  rw [TransferManager.Upload.currentChunk_handChunk]
  rfl

end Sending

/-
  Exactly the messages that KCP takes are not lost silently,
  whatever they are and however they are encoded.
-/
theorem noSilentLoss_iff_sendable
    {κ : Type}
    (K : Ikcp κ)
    (dump : Json → List UInt8)
    (compress : List UInt8 → List UInt8)
    (controller : PeerController κ)
    (message : Outgoing) :
    controller.NoSilentLoss K
        (message.encode dump compress) ↔
      controller.Sendable K
        (message.encode dump compress).length := by
  rw [← reported_iff_sendable]
  constructor
  · exact NoSilentLoss.reported
  · intro hReported
    exact ⟨hReported, fun _ hAfter hAdvanced =>
      advanced_of_reported K controller _ hReported hAfter
        hAdvanced⟩

/- A connected peer with a session that is alive. -/
def live
    {κ : Type}
    (kcp : κ) : PeerController κ where
  connected := true
  closed := false
  kcp := some ⟨some kcp⟩

/- So a flood of such messages is queued whole. -/
theorem sendQueue_flood
    {κ : Type}
    (K : Ikcp κ)
    (kcp : κ)
    {packets : List (List UInt8)}
    (hFits : ∀ packet ∈ packets, packet.length ≤ intMax ∧
      fragments (K.fragmentSize kcp) packet.length <
        fragmentLimit) :
    (packets.foldl (P2PManager.sendOverKcpPeer K)
        (live kcp)).sendQueue K =
      K.sendQueue kcp ++ packets := by
  induction packets generalizing kcp with
  | nil => exact (List.append_nil _).symm
  | cons packet packets ih =>
      rcases hFits packet List.mem_cons_self with
        ⟨hSize, hFew⟩
      have hSent : P2PManager.sendOverKcpPeer K (live kcp)
          packet = live (K.send kcp packet).2 := by
        simp only [P2PManager.sendOverKcpPeer, live,
          sendMessage, KcpSession.send, if_true,
          if_neg (Nat.not_lt.mpr hSize)]
      rw [List.foldl_cons, hSent, ih, List.append_cons,
        (K.send_queued kcp packet hFew).2]
      intro later hIn
      rw [K.fragmentSize_send]
      exact hFits later (List.mem_cons_of_mem packet hIn)

------------------------------------------------------------
-- A Directory Batch That Is Lost
------------------------------------------------------------

/- A queue of messages, with fragments of 1376 bytes. -/
def sampleKcp : Ikcp (List (List UInt8)) where
  fragmentSize := fun _ => 1376
  sendQueue := id
  send := fun queue data =>
    if fragments 1376 data.length < fragmentLimit then
      (data.length, queue ++ [data])
    else
      (-2, queue)
  waitsnd := fun queue =>
    (queue.map (fun data => fragments 1376 data.length)).sum
  send_refused := by
    intro queue data hMany
    rw [if_neg (Nat.not_lt.mpr hMany)]
    exact ⟨Int.negSucc_lt_zero 1, rfl⟩
  send_queued := by
    intro queue data hFew
    rw [if_pos hFew]
    exact ⟨Int.natCast_nonneg _, rfl⟩
  fragmentSize_send := fun _ _ => rfl

def bytes (text : String) : List UInt8 :=
  text.toUTF8.data.toList

/- The text of a value whose strings need no escapes. -/
mutual

def plainDump : Json → List UInt8
| .null => bytes "null"
| .bool value => bytes (toString value)
| .num value => bytes (toString value)
| .real value => bytes (toString value)
| .str text => 34 :: (bytes text ++ [34])
| .arr values => 91 :: (plainItems values ++ [93])
| .obj fields => 123 :: (plainMembers fields ++ [125])

def plainItems : List Json → List UInt8
| [] => []
| value :: values =>
    plainDump value ++ plainRest values

def plainRest : List Json → List UInt8
| [] => []
| value :: values =>
    44 :: (plainDump value ++ plainRest values)

def plainMembers : List (String × Json) → List UInt8
| [] => []
| (name, value) :: fields =>
    34 :: (bytes name ++ [34, 58] ++ plainDump value ++
      plainMore fields)

def plainMore : List (String × Json) → List UInt8
| [] => []
| (name, value) :: fields =>
    44 :: 34 :: (bytes name ++ [34, 58] ++
      plainDump value ++ plainMore fields)

end

/- A string takes its quotes and its comma at least. -/
theorem length_plainRest
    (texts : List String) :
    3 * texts.length ≤
      (plainRest (texts.map .str)).length := by
  induction texts with
  | nil => exact Nat.zero_le _
  | cons text texts ih =>
      simp only [List.map_cons, plainRest, plainDump,
        List.length_cons, List.length_append]
      omega

theorem length_plainItems
    (texts : List String) :
    3 * texts.length ≤
      (plainItems (texts.map .str)).length + 1 := by
  cases texts with
  | nil => exact Nat.zero_le _
  | cons text texts =>
      have hRest := length_plainRest texts
      simp only [List.map_cons, plainItems, plainDump,
        List.length_cons, List.length_append]
      omega

/- The batch that announces directories in a flood. -/
def dirsPacket (dirs : List String) : List UInt8 :=
  (Outgoing.batch (.dirs dirs [])).encode plainDump id

theorem length_dirsPacket
    (dirs : List String) :
    3 * dirs.length ≤ (dirsPacket dirs).length := by
  have hItems := length_plainItems dirs
  simp only [dirsPacket, Outgoing.encode,
    Outgoing.jsonPacket, Batch.toJson, protocolMessage,
    plainDump, plainMembers, plainMore,
    List.length_cons, List.length_append]
  omega

/- A tree of many directories with short names. -/
def manyDirs : List String :=
  (List.range 60000).map (fun n => "d" ++ toString n)

theorem lt_length_manyDirs :
    127 * 1376 < (dirsPacket manyDirs).length := by
  have hCount : manyDirs.length = 60000 := by
    rw [manyDirs, List.length_map, List.length_range]
  have hLength := length_dirsPacket manyDirs
  rw [hCount] at hLength
  exact Nat.lt_of_lt_of_le (by decide) hLength

/- It is reported as sent whatever becomes of it. -/
theorem refused_of_lt_length
    {packet : List UInt8}
    (hLong : 127 * 1376 < packet.length) :
    0 ≤ ((live []).sendMessage sampleKcp
        packet).1 ∧
      ((live []).sendMessage sampleKcp
        packet).2.sendQueue sampleKcp = [] := by
  have hMany :
      ¬ fragments 1376 packet.length < fragmentLimit := by
    unfold fragments fragmentLimit
    split <;> omega
  refine ⟨getWaitSendCount_nonneg sampleKcp _, ?_⟩
  simp only [sendMessage, live,
    KcpSession.send, PeerController.sendQueue,
    KcpSession.sendQueue, sampleKcp, if_neg hMany]
  by_cases hHuge : intMax < packet.length
  · rw [if_pos hHuge]
    rfl
  · rw [if_neg hHuge]
    rfl

/- The batch is reported as sent, and is in no queue. -/
theorem not_noSilentLoss_manyDirs :
    0 ≤ ((live []).sendMessage sampleKcp
        (dirsPacket manyDirs)).1 ∧
      ((live []).sendMessage sampleKcp
        (dirsPacket manyDirs)).2.sendQueue sampleKcp = [] ∧
      ¬ (live []).NoSilentLoss sampleKcp
        (dirsPacket manyDirs) := by
  rcases refused_of_lt_length lt_length_manyDirs with
    ⟨hReported, hEmpty⟩
  refine ⟨hReported, hEmpty, ?_⟩
  intro hNone
  have hQueued := hNone.reported hReported
  rw [hEmpty] at hQueued
  cases hQueued

end PeerController

end VeritasSync
