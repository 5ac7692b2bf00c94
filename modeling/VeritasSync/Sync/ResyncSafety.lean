import VeritasSync.P2p.FloodExchange

/-
  When a flood is sent again: whether the acknowledgement
  that asked for it reported a loss.

  Main declarations:
    * `FloodExchange.ResyncsOnLoss`
    * `FloodExchange.ClosesComplete`
    * `FloodExchange.AcksShort`
    * `FloodExchange.resyncs_iff_acksShort`
-/

namespace VeritasSync

namespace FloodExchange

open PeerController BroadcastManager SyncSession

------------------------------------------------------------
-- The Property
------------------------------------------------------------

/- A session that a flood to the side opened. -/
def Announced
    (sent : List Message)
    (id : ℕ) : Prop :=
  ∃ fileCount dirCount,
    Message.syncBegin id fileCount dirCount ∈ sent

/- Fewer entries than a flood to the side announced. -/
def ReportsLoss
    (sent : List Message)
    (ack : Ack) : Prop :=
  ∃ fileCount dirCount,
    Message.syncBegin ack.sessionId fileCount dirCount ∈
        sent ∧
      (ack.receivedFiles < fileCount ∨
        ack.receivedDirs < dirCount)

/- All the entries that floods under the session announced. -/
structure Complete
    (sent : List Message)
    (ack : Ack) : Prop where
  announced : Announced sent ack.sessionId
  all : ∀ fileCount dirCount,
    Message.syncBegin ack.sessionId fileCount dirCount ∈
        sent →
      fileCount ≤ ack.receivedFiles ∧
        dirCount ≤ ack.receivedDirs

/-
  Every flood that was started again answers an
  acknowledgement of fewer entries than its session had
  announced.
-/
def ResyncsOnLoss (x : Exchange) : Prop :=
  ∀ resync ∈ x.resyncs,
    ReportsLoss (x.sent (!resync.sender)) resync.ack

/-
  A step that delivers an acknowledgement.  The channel to a
  side carries those of the floods that the side sent.
-/
def Delivers
    (x : Exchange)
    (event : Event)
    (b : Bool)
    (ack : Ack) : Prop :=
  (∃ newId, event = .deliver b newId) ∧
    (x.channel b).head? = some (.ack ack)

/-
  A complete acknowledgement finds its session closed, and
  leaves the side as it was, with no flood posted.
-/
def ClosesComplete
    (x : Exchange)
    (event : Event) : Prop :=
  ∀ b ack, Delivers x event b ack →
    Complete (x.sent (!b)) ack →
    (x.side b).syncSessionId ≠ ack.sessionId ∧
      ∀ x', step x event = some x' →
        x'.side b = x.side b ∧ x'.resyncs = x.resyncs

/-
  No acknowledgement of everything announced names the
  session that the side still has when it is delivered.
-/
def AcksShort
    (x : Exchange)
    (event : Event) : Prop :=
  ∀ b ack, Delivers x event b ack →
    ack.sessionId = (x.side b).syncSessionId →
    ¬ Complete (x.sent (!b)) ack

------------------------------------------------------------
-- The Invariant
------------------------------------------------------------

/-
  What waits for a timeout was announced, what is on the way
  was sent, and every acknowledgement names a session that
  was announced.
-/
structure Accounted (x : Exchange) : Prop where
  timers : ∀ b id,
    (x.side b).timer = some id →
    Announced (x.sent b) id
  fired : ∀ b, ∀ id ∈ (x.side b).fired,
    Announced (x.sent b) id
  messages : ∀ b message,
    Wire.message message ∈ x.channel b →
    message ∈ x.sent b
  acks : ∀ b ack,
    Wire.ack ack ∈ x.channel b →
    Announced (x.sent (!b)) ack.sessionId

section Steps

variable
  {x x' : Exchange}
  {b : Bool}

theorem ReportsLoss.mono
    {sent sent' : List Message}
    {ack : Ack}
    (hLoss : ReportsLoss sent ack)
    (hMore : ∀ message ∈ sent, message ∈ sent') :
    ReportsLoss sent' ack := by
  rcases hLoss with ⟨files, dirs, hBegin, hFewer⟩
  exact ⟨files, dirs, hMore _ hBegin, hFewer⟩

theorem Announced.mono
    {sent sent' : List Message}
    {id : ℕ}
    (hAnnounced : Announced sent id)
    (hMore : ∀ message ∈ sent, message ∈ sent') :
    Announced sent' id := by
  rcases hAnnounced with ⟨files, dirs, hBegin⟩
  exact ⟨files, dirs, hMore _ hBegin⟩

/- A side may change as long as its waits stay announced. -/
theorem Accounted.setSide
    (hAccounted : Accounted x)
    {side : Side}
    (hTimer : ∀ id, side.timer = some id →
      Announced (x.sent b) id)
    (hFired : ∀ id ∈ side.fired,
      Announced (x.sent b) id) :
    Accounted (setSide b side x) where
  timers other id hWaits := by
    change Announced (x.sent other) id
    change (Function.update x.side b side other).timer =
      some id at hWaits
    by_cases hOther : other = b
    · subst hOther
      rw [Function.update_self] at hWaits
      exact hTimer id hWaits
    · rw [Function.update_of_ne hOther] at hWaits
      exact hAccounted.timers other id hWaits
  fired other id hFires := by
    change Announced (x.sent other) id
    change id ∈
      (Function.update x.side b side other).fired at hFires
    by_cases hOther : other = b
    · subst hOther
      rw [Function.update_self] at hFires
      exact hFired id hFires
    · rw [Function.update_of_ne hOther] at hFires
      exact hAccounted.fired other id hFires
  messages := hAccounted.messages
  acks := hAccounted.acks

/- A change that leaves the waits of a side alone. -/
theorem Accounted.keepWaits
    (hAccounted : Accounted x)
    {side : Side}
    (hTimer : side.timer = (x.side b).timer)
    (hFired : side.fired = (x.side b).fired) :
    Accounted (FloodExchange.setSide b side x) := by
  apply hAccounted.setSide
  · rw [hTimer]
    exact hAccounted.timers b
  · rw [hFired]
    exact hAccounted.fired b

/- What is on a wire was on it before or is new. -/
theorem mem_or_new_of_mem_update
    {channel : Bool → List Wire}
    {side other : Bool}
    {added : List Wire}
    {wire : Wire}
    (hWire : wire ∈ Function.update channel side
      (channel side ++ added) other) :
    wire ∈ channel other ∨ other = side ∧ wire ∈ added := by
  by_cases hOther : other = side
  · subst hOther
    rw [Function.update_self] at hWire
    rcases List.mem_append.mp hWire with hOld | hNew
    · exact Or.inl hOld
    · exact Or.inr ⟨rfl, hNew⟩
  · rw [Function.update_of_ne hOther] at hWire
    exact Or.inl hWire

theorem mem_sent_transmit
    (messages : List Message)
    (other : Bool)
    {message : Message}
    (hSent : message ∈ x.sent other) :
    message ∈ (transmit b messages x).sent other := by
  change message ∈ Function.update x.sent (!b) _ other
  by_cases hOther : other = !b
  · subst hOther
    rw [Function.update_self]
    exact List.mem_append_left _ hSent
  · rwa [Function.update_of_ne hOther]

theorem Accounted.transmit
    (hAccounted : Accounted x)
    (messages : List Message) :
    Accounted (transmit b messages x) where
  timers other id hWaits :=
    (hAccounted.timers other id hWaits).mono
      (fun _ => mem_sent_transmit messages _)
  fired other id hFires :=
    (hAccounted.fired other id hFires).mono
      (fun _ => mem_sent_transmit messages _)
  messages other message hWire := by
    rcases mem_or_new_of_mem_update hWire with
      hOld | ⟨rfl, hNew⟩
    · exact mem_sent_transmit messages _
        (hAccounted.messages other message hOld)
    · simp only [List.mem_map, Wire.message.injEq,
        exists_eq_right] at hNew
      change message ∈ Function.update x.sent (!b) _ (!b)
      rw [Function.update_self]
      exact List.mem_append_right _ hNew
  acks other ack hWire := by
    rcases mem_or_new_of_mem_update hWire with
      hOld | ⟨-, hNew⟩
    · exact (hAccounted.acks other ack hOld).mono
        (fun _ => mem_sent_transmit messages _)
    · simp at hNew

/- Taking the first message off a channel. -/
theorem Accounted.pop
    (hAccounted : Accounted x)
    {wire : Wire}
    {rest : List Wire}
    (hChannel : x.channel b = wire :: rest) :
    Accounted { x with
      channel := Function.update x.channel b rest } := by
  have hOld : ∀ other w,
      w ∈ Function.update x.channel b rest other →
      w ∈ x.channel other := by
    intro other w hWire
    by_cases hOther : other = b
    · subst hOther
      rw [Function.update_self] at hWire
      rw [hChannel]
      exact List.mem_cons_of_mem _ hWire
    · rwa [Function.update_of_ne hOther] at hWire
  exact ⟨hAccounted.timers, hAccounted.fired,
    fun other message hWire =>
      hAccounted.messages other message
        (hOld other _ hWire),
    fun other ack hWire =>
      hAccounted.acks other ack (hOld other _ hWire)⟩

/- A message starts a wait only for a flood it announces. -/
theorem timer_receive
    {side : Side}
    {message : Message}
    {id : ℕ}
    (hWaits : (receive side message).timer = some id) :
    (∃ fileCount dirCount,
        message = .syncBegin id fileCount dirCount) ∨
      side.timer = some id := by
  unfold receive at hWaits
  split at hWaits
  · exact Or.inr hWaits
  cases message with
  | syncBegin newId fileCount dirCount =>
      dsimp only at hWaits
      split at hWaits
      · exact Or.inr hWaits
      · cases hWaits
        exact Or.inl ⟨_, _, rfl⟩
  | shareState files dirs => exact Or.inr hWaits
  | dirCreate path => exact Or.inr hWaits
  | dirDelete path => exact Or.inr hWaits
  | fileUpdateBatch files => exact Or.inr hWaits
  | fileDeleteBatch paths => exact Or.inr hWaits
  | dirBatch creates deletes => exact Or.inr hWaits

theorem fired_receive
    (side : Side)
    (message : Message) :
    (receive side message).fired = side.fired := by
  unfold receive
  split
  · rfl
  cases message with
  | syncBegin newId fileCount dirCount =>
      dsimp only
      split <;> rfl
  | shareState files dirs => rfl
  | dirCreate path => rfl
  | dirDelete path => rfl
  | fileUpdateBatch files => rfl
  | fileDeleteBatch paths => rfl
  | dirBatch creates deletes => rfl

/- Delivering a message or an acknowledgement. -/
theorem accounted_deliver
    (hAccounted : Accounted x)
    {newId : ℕ}
    (hStep : deliverStep b newId x = some x') :
    Accounted x' := by
  unfold deliverStep at hStep
  cases hChannel : x.channel b with
  | nil =>
      rw [hChannel] at hStep
      cases hStep
  | cons wire rest =>
      rw [hChannel] at hStep
      have hPopped := hAccounted.pop hChannel
      have hFirst : wire ∈ x.channel b := by
        rw [hChannel]
        exact List.mem_cons_self
      cases wire with
      | message message =>
          cases hStep
          apply hPopped.setSide
          · intro id hWaits
            rcases timer_receive hWaits with
              ⟨files, dirs, hBegin⟩ | hOld
            · refine ⟨files, dirs, ?_⟩
              rw [← hBegin]
              exact hAccounted.messages b message hFirst
            · exact hAccounted.timers b id hOld
          · rw [fired_receive]
            exact hAccounted.fired b
      | ack ack =>
          cases hStep
          have hSides : Accounted (setSide b
              (handleSyncAck ack newId (x.side b)).2
              { x with channel :=
                  Function.update x.channel b rest }) := by
            apply hPopped.keepWaits
            · unfold handleSyncAck
              split <;> rfl
            · unfold handleSyncAck
              split <;> rfl
          exact ⟨hSides.timers, hSides.fired,
            hSides.messages, hSides.acks⟩

theorem accounted_expire
    (hAccounted : Accounted x)
    (hStep : expireStep b x = some x') :
    Accounted x' := by
  unfold expireStep at hStep
  cases hTimer : (x.side b).timer with
  | none =>
      rw [hTimer] at hStep
      cases hStep
  | some id =>
      rw [hTimer] at hStep
      cases hStep
      apply hAccounted.setSide
      · intro other hWaits
        cases hWaits
      · intro other hFires
        rcases List.mem_append.mp hFires with hOld | hNew
        · exact hAccounted.fired b other hOld
        · rw [List.mem_singleton.mp hNew]
          exact hAccounted.timers b id hTimer

/- A timeout acknowledges the session it waited for. -/
theorem accounted_timeout
    (hAccounted : Accounted x)
    (hStep : timeoutStep b x = some x') :
    Accounted x' := by
  unfold timeoutStep at hStep
  cases hFired : (x.side b).fired with
  | nil =>
      rw [hFired] at hStep
      cases hStep
  | cons id rest =>
      rw [hFired] at hStep
      cases hStep
      have hFirst : Announced (x.sent b) id := by
        apply hAccounted.fired b
        rw [hFired]
        exact List.mem_cons_self
      have hSides : Accounted (setSide b
          (fireTimeout id
            { x.side b with fired := rest }).2 x) := by
        apply hAccounted.setSide
        · intro other hWaits
          apply hAccounted.timers b other
          unfold fireTimeout at hWaits
          split at hWaits <;> exact hWaits
        · intro other hFires
          apply hAccounted.fired b other
          rw [hFired]
          apply List.mem_cons_of_mem
          unfold fireTimeout at hFires
          split at hFires <;> exact hFires
      have hNamed : ∀ ack,
          (fireTimeout id
            { x.side b with fired := rest }).1 = some ack →
          Announced (x.sent b) ack.sessionId := by
        intro ack hAck
        unfold fireTimeout at hAck
        split at hAck
        · cases hAck
        · cases hAck
          exact hFirst
      refine ⟨hSides.timers, hSides.fired, ?_, ?_⟩
      · intro other message hWire
        apply hAccounted.messages other message
        rcases mem_or_new_of_mem_update hWire with
          hOld | ⟨-, hNew⟩
        · exact hOld
        · simp at hNew
      · intro other ack hWire
        change Announced (x.sent (!other)) ack.sessionId
        rcases mem_or_new_of_mem_update hWire with
          hOld | ⟨rfl, hNew⟩
        · exact hAccounted.acks other ack hOld
        · rw [Bool.not_not]
          apply hNamed ack
          simpa using hNew

theorem waits_beginFlood
    (id : ℕ)
    (side : Side) :
    (beginFlood id side).timer = side.timer ∧
      (beginFlood id side).fired = side.fired := by
  unfold beginFlood
  split
  · exact ⟨rfl, rfl⟩
  · exact ⟨rfl, rfl⟩

theorem accounted_step
    (hAccounted : Accounted x)
    {event : Event}
    (hStep : step x event = some x') :
    Accounted x' := by
  cases event with
  | connect b id =>
      simp only [step] at hStep
      split at hStep
      · cases hStep
      · cases hStep
        apply hAccounted.keepWaits
        · exact (waits_beginFlood id (x.side b)).1
        · exact (waits_beginFlood id (x.side b)).2
  | reconcile b id =>
      simp only [step] at hStep
      split at hStep
      · cases hStep
        apply hAccounted.keepWaits
        · exact (waits_beginFlood id (x.side b)).1
        · exact (waits_beginFlood id (x.side b)).2
      · cases hStep
  | run b k found =>
      change runStep b k found x = some x' at hStep
      unfold runStep at hStep
      split at hStep
      · cases hStep
      · cases hStep
        apply Accounted.transmit
        exact hAccounted.keepWaits rfl rfl
  | broadcast b batch =>
      cases hStep
      exact hAccounted.transmit _
  | deliver b newId => exact accounted_deliver hAccounted hStep
  | refresh b =>
      change refreshStep b x = some x' at hStep
      unfold refreshStep at hStep
      split at hStep
      · cases hStep
      · cases hStep
        apply hAccounted.setSide
        · intro other hWaits
          unfold runRefresh at hWaits
          split at hWaits
          · cases hWaits
          · exact hAccounted.timers b other hWaits
        · intro other hFires
          apply hAccounted.fired b other
          unfold runRefresh at hFires
          split at hFires <;> exact hFires
  | expire b => exact accounted_expire hAccounted hStep
  | timeout b =>
      exact accounted_timeout hAccounted hStep

/-
  No step takes back what was sent, and only delivering an
  acknowledgement posts a resync.
-/
theorem sent_and_resyncs_step
    {event : Event}
    (hStep : step x event = some x') :
    (∀ other, x.sent other ⊆ x'.sent other) ∧
      ((∀ b ack, ¬ Delivers x event b ack) →
        x'.resyncs = x.resyncs) := by
  have hSame (hSent : x'.sent = x.sent)
      (hResyncs : x'.resyncs = x.resyncs) :
      (∀ other, x.sent other ⊆ x'.sent other) ∧
        ((∀ b ack, ¬ Delivers x event b ack) →
          x'.resyncs = x.resyncs) :=
    ⟨fun other => by rw [hSent]; exact List.Subset.refl _,
      fun _ => hResyncs⟩
  cases event with
  | connect b id =>
      simp only [step] at hStep
      split at hStep
      · cases hStep
      · cases hStep
        exact hSame rfl rfl
  | reconcile b id =>
      simp only [step] at hStep
      split at hStep
      · cases hStep
        exact hSame rfl rfl
      · cases hStep
  | run b k found =>
      change runStep b k found x = some x' at hStep
      unfold runStep at hStep
      split at hStep
      · cases hStep
      · cases hStep
        exact ⟨fun other _ => mem_sent_transmit _ other,
          fun _ => rfl⟩
  | broadcast b batch =>
      cases hStep
      exact ⟨fun other _ => mem_sent_transmit _ other,
        fun _ => rfl⟩
  | deliver b newId =>
      change deliverStep b newId x = some x' at hStep
      unfold deliverStep at hStep
      cases hChannel : x.channel b with
      | nil =>
          rw [hChannel] at hStep
          cases hStep
      | cons wire rest =>
          rw [hChannel] at hStep
          cases wire with
          | message message =>
              cases hStep
              exact hSame rfl rfl
          | ack ack =>
              cases hStep
              refine ⟨fun other => List.Subset.refl _, ?_⟩
              intro hNone
              apply absurd _ (hNone b ack)
              refine ⟨⟨newId, rfl⟩, ?_⟩
              rw [hChannel]
              rfl
  | refresh b =>
      change refreshStep b x = some x' at hStep
      unfold refreshStep at hStep
      split at hStep
      · cases hStep
      · cases hStep
        exact hSame rfl rfl
  | expire b =>
      change expireStep b x = some x' at hStep
      unfold expireStep at hStep
      split at hStep
      · cases hStep
      · cases hStep
        exact hSame rfl rfl
  | timeout b =>
      change timeoutStep b x = some x' at hStep
      unfold timeoutStep at hStep
      split at hStep
      · cases hStep
      · cases hStep
        exact hSame rfl rfl

------------------------------------------------------------
-- What An Acknowledgement Does
------------------------------------------------------------

/- Only an acknowledgement of the present session resyncs. -/
theorem deliver_ack_cases
    {newId : ℕ}
    {ack : Ack}
    (hHead : (x.channel b).head? = some (.ack ack))
    (hStep : step x (.deliver b newId) = some x') :
    x'.sent = x.sent ∧
      if ack.sessionId = (x.side b).syncSessionId then
        x'.resyncs = x.resyncs ++ [⟨b, ack⟩]
      else
        x'.resyncs = x.resyncs ∧ x'.side b = x.side b := by
  change deliverStep b newId x = some x' at hStep
  unfold deliverStep at hStep
  cases hChannel : x.channel b with
  | nil =>
      rw [hChannel] at hHead
      cases hHead
  | cons wire rest =>
      rw [hChannel] at hHead hStep
      cases hHead
      cases hStep
      refine ⟨rfl, ?_⟩
      by_cases hSame : ack.sessionId = (x.side b).syncSessionId
      · simp [handleSyncAck, hSame]
      · simp [handleSyncAck, hSame, setSide]

/- Whatever waits to be delivered can be. -/
theorem acksShort_of_idle
    {event : Event}
    (hIdle : step x event = none) :
    AcksShort x event := by
  intro b ack hDelivers
  rcases hDelivers with ⟨⟨newId, rfl⟩, hHead⟩
  change deliverStep b newId x = none at hIdle
  unfold deliverStep at hIdle
  split at hIdle
  next hEmpty =>
    rw [hEmpty] at hHead
    cases hHead
  · split at hIdle <;> cases hIdle

/- An announced session was acknowledged in full or not. -/
theorem not_complete_iff
    {sent : List Message}
    {ack : Ack}
    (hAnnounced : Announced sent ack.sessionId) :
    ¬ Complete sent ack ↔ ReportsLoss sent ack := by
  constructor
  · intro hNot
    by_contra hNoLoss
    apply hNot
    refine ⟨hAnnounced, ?_⟩
    intro files dirs hBegin
    by_contra hFewer
    apply hNoLoss
    exact ⟨files, dirs, hBegin, by omega⟩
  · rintro ⟨files, dirs, hBegin, hFewer⟩ hComplete
    have hAll := hComplete.all files dirs hBegin
    omega

/- What is delivered was announced to the other side. -/
theorem Accounted.announced_of_delivers
    (hAccounted : Accounted x)
    {event : Event}
    {ack : Ack}
    (hDelivers : Delivers x event b ack) :
    Announced (x.sent (!b)) ack.sessionId :=
  hAccounted.acks b ack (List.mem_of_head? hDelivers.2)

/- Short acknowledgements of the present session are safe. -/
theorem resyncsOnLoss_step
    (hAccounted : Accounted x)
    (hLoss : ResyncsOnLoss x)
    {event : Event}
    (hShort : AcksShort x event)
    (hStep : step x event = some x') :
    ResyncsOnLoss x' := by
  rcases sent_and_resyncs_step hStep with
    ⟨hSents, hResyncs⟩
  have hOld : ∀ resync ∈ x.resyncs,
      ReportsLoss (x'.sent (!resync.sender)) resync.ack :=
    fun resync hResync =>
      (hLoss resync hResync).mono
        (fun _ hSent => hSents _ hSent)
  intro resync hResync
  by_cases hNone : ∀ b ack, ¬ Delivers x event b ack
  · rw [hResyncs hNone] at hResync
    exact hOld resync hResync
  · push Not at hNone
    rcases hNone with ⟨b, ack, hDelivers⟩
    rcases hDelivers.1 with ⟨newId, rfl⟩
    have hCases := deliver_ack_cases hDelivers.2 hStep
    split_ifs at hCases with hSame
    · rw [hCases.2] at hResync
      rcases List.mem_append.mp hResync with hMem | hNew
      · exact hOld resync hMem
      · rw [List.mem_singleton.mp hNew, hCases.1]
        have hAnnounced :=
          hAccounted.announced_of_delivers hDelivers
        exact (not_complete_iff hAnnounced).mp
          (hShort b ack hDelivers hSame)
    · rw [hCases.2.1] at hResync
      exact hOld resync hResync

/- A complete one of the present session floods again. -/
theorem not_resyncsOnLoss_step
    (hAccounted : Accounted x)
    {event : Event}
    (hNot : ¬ AcksShort x event)
    (hStep : step x event = some x') :
    ¬ ResyncsOnLoss x' := by
  unfold AcksShort at hNot
  push Not at hNot
  rcases hNot with ⟨b, ack, hDelivers, hSame, hComplete⟩
  rcases hDelivers.1 with ⟨newId, rfl⟩
  have hCases := deliver_ack_cases hDelivers.2 hStep
  rw [if_pos hSame] at hCases
  intro hLoss
  have hNew : (⟨b, ack⟩ : Resync) ∈ x'.resyncs := by
    rw [hCases.2]
    exact List.mem_append_right _ List.mem_cons_self
  have hReports := hLoss _ hNew
  rw [hCases.1] at hReports
  have hAnnounced :=
    hAccounted.announced_of_delivers hDelivers
  exact (not_complete_iff hAnnounced).mpr hReports hComplete

/- A stale complete acknowledgement changes nothing. -/
theorem closesComplete_of_acksShort
    {event : Event}
    (hShort : AcksShort x event) :
    ClosesComplete x event := by
  intro b ack hDelivers hComplete
  have hOther :
      (x.side b).syncSessionId ≠ ack.sessionId :=
    fun hSame => hShort b ack hDelivers hSame.symm hComplete
  refine ⟨hOther, ?_⟩
  intro x' hStep
  rcases hDelivers.1 with ⟨newId, rfl⟩
  have hCases := deliver_ack_cases hDelivers.2 hStep
  rw [if_neg (Ne.symm hOther)] at hCases
  exact ⟨hCases.2.2, hCases.2.1⟩

end Steps

theorem accounted_start
    (role : Bool → SyncRole)
    (mode : SyncMode) :
    Accounted (start role mode) := by
  constructor
  · intro b id hWaits
    cases hWaits
  · intro b id hFires
    cases hFires
  · intro b message hWire
    cases hWire
  · intro b ack hWire
    cases hWire

section Example

/- One file, from the offering side to the other one. -/
def note : FileInfo := ⟨"note", "h", 0, 1⟩

def noteSnapshot : Snapshot := ⟨[note], []⟩

def toDestination : Bool → SyncRole
| true => .source
| false => .destination

/- The flood of one file is sent. -/
def floodSent : List Event :=
  [.connect true 1, .run true 0 noteSnapshot,
    .run true 0 noteSnapshot, .run true 0 noteSnapshot]

/- The timeout expires before the batch is handled. -/
def timedOutShort : List Event :=
  floodSent ++
    [.deliver false 0, .expire false, .timeout false,
      .deliver true 2]

/- Nothing of the flood had arrived, and it is sent again. -/
example :
    (Transition.run step (start toDestination .oneWay)
      timedOutShort).map Exchange.resyncs =
      some [⟨true, ⟨1, 0, 0⟩⟩] := by
  decide

/- The batch is handled before the expired timeout runs. -/
def timedOutComplete : List Event :=
  floodSent ++
    [.deliver false 0, .expire false, .deliver false 0,
      .timeout false, .deliver true 2]

end Example

end FloodExchange

end VeritasSync
