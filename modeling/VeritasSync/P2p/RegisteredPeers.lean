import VeritasSync.P2p.ConnectionSafety

/-
  Which peers have a controller.

  A peer that is to be connected to has one afterwards, if it
  can be made, whether the old one is kept or replaced; and
  nothing but its leave takes it away.

  Main declarations:
    * `Connections.isSome_find_connectToPeers`
    * `Connections.Keeps`, `Connections.isSome_find_step`
-/

namespace VeritasSync

namespace Connections

------------------------------------------------------------
-- Connecting
------------------------------------------------------------

section Connecting

variable
  {s : System}
  {peerId : String}

theorem find_modify
    (s : System)
    (i : ℕ)
    (f : Controller → Controller)
    (peerId : String) :
    (s.modify i f).find peerId = s.find peerId :=
  rfl

theorem find_remove_of_ne
    {other : String}
    (s : System)
    (hNe : peerId ≠ other) :
    (s.remove other).find peerId = s.find peerId :=
  AList.lookup_erase_ne hNe

/- A peer is left out only while it has a controller. -/
theorem isSome_find_tryReuseOrEvict
    (other : String)
    (force : Bool)
    (hFind : (s.find peerId).isSome = true) :
    ((s.tryReuseOrEvict other force).2.find
        peerId).isSome = true ∨
      ((s.tryReuseOrEvict other force).1 = false ∧
        peerId = other) := by
  unfold System.tryReuseOrEvict
  cases hOther : s.find other with
  | none => exact Or.inl hFind
  | some i =>
      dsimp only
      split
      · exact Or.inl hFind
      · by_cases hSame : peerId = other
        · exact Or.inr ⟨rfl, hSame⟩
        · refine Or.inl ?_
          rw [find_remove_of_ne _ hSame, find_modify]
          exact hFind

theorem isSome_of_reuse
    {other : String}
    {force : Bool}
    (hReuse : (s.tryReuseOrEvict other force).1 = true) :
    ((s.tryReuseOrEvict other force).2.find
      other).isSome = true := by
  unfold System.tryReuseOrEvict at hReuse ⊢
  cases hOther : s.find other with
  | none =>
      rw [hOther] at hReuse
      cases hReuse
  | some i =>
      rw [hOther] at hReuse
      dsimp only at hReuse ⊢
      split
      · rw [hOther]
        rfl
      case isFalse hEvict =>
        rw [if_neg hEvict] at hReuse
        cases hReuse

/- Whoever has none afterwards is among the chosen ones. -/
theorem isSome_find_choosePeers
    (selfId : String)
    (force : Bool)
    (peers : List String)
    (hWanted : (s.find peerId).isSome = true ∨
      (peerId ∈ peers ∧ peerId ≠ selfId)) :
    ((choosePeers selfId force peers s).2.find
        peerId).isSome = true ∨
      peerId ∈ (choosePeers selfId force peers s).1 := by
  induction peers generalizing s with
  | nil =>
      rcases hWanted with hFind | ⟨hMem, -⟩
      · exact Or.inl hFind
      · exact absurd hMem List.not_mem_nil
  | cons other peers ih =>
      unfold choosePeers
      split
      case isTrue hSelf =>
        apply ih
        rcases hWanted with hFind | ⟨hMem, hNotSelf⟩
        · exact Or.inl hFind
        · rcases List.mem_cons.mp hMem with rfl | hMem
          · exact absurd hSelf hNotSelf
          · exact Or.inr ⟨hMem, hNotSelf⟩
      case isFalse =>
        have hKept := fun hFind : (s.find peerId).isSome =>
          isSome_find_tryReuseOrEvict other force hFind
        have hReused := fun hReuse :
            (s.tryReuseOrEvict other force).1 = true =>
          isSome_of_reuse hReuse
        revert hKept hReused
        rcases s.tryReuseOrEvict other force with
          ⟨reuse, next⟩
        intro hKept hReused
        cases reuse with
        | true =>
            apply ih
            rcases hWanted with hFind | ⟨hMem, hNotSelf⟩
            · rcases hKept hFind with hNext | ⟨hNo, -⟩
              · exact Or.inl hNext
              · cases hNo
            · rcases List.mem_cons.mp hMem with rfl | hMem
              · exact Or.inl (hReused rfl)
              · exact Or.inr ⟨hMem, hNotSelf⟩
        | false =>
            dsimp only
            by_cases hSame : peerId = other
            · rw [hSame]
              exact Or.inr List.mem_cons_self
            · have hNext : (next.find peerId).isSome = true ∨
                  (peerId ∈ peers ∧ peerId ≠ selfId) := by
                rcases hWanted with hFind | ⟨hMem, hNotSelf⟩
                · rcases hKept hFind with hNext | ⟨-, hIs⟩
                  · exact Or.inl hNext
                  · exact absurd hIs hSame
                · rcases List.mem_cons.mp hMem with
                    hIs | hMem
                  · exact absurd hIs hSame
                  · exact Or.inr ⟨hMem, hNotSelf⟩
              rcases ih hNext with hFound | hChosen
              · exact Or.inl hFound
              · exact Or.inr (List.mem_cons_of_mem _ hChosen)

/- Nothing is registered while controllers are made. -/
theorem find_createPeers
    (selfId : String)
    (peers : List (String × Bool))
    (s : System)
    (peerId : String) :
    (createPeers selfId peers s).2.find peerId =
      s.find peerId := by
  induction peers generalizing s with
  | nil => rfl
  | cons peer peers ih =>
      rcases peer with ⟨other, created⟩
      cases created with
      | false => exact ih s
      | true => exact ih (s.make _).2

/- Where each can be made, each is. -/
theorem mem_createPeers
    (selfId : String)
    {peers : List (String × Bool)}
    (s : System)
    (hCreated : (peerId, true) ∈ peers) :
    ∃ i, (peerId, i) ∈ (createPeers selfId peers s).1 := by
  induction peers generalizing s with
  | nil => exact absurd hCreated List.not_mem_nil
  | cons peer peers ih =>
      rcases peer with ⟨other, created⟩
      rcases List.mem_cons.mp hCreated with hHead | hTail
      · cases hHead
        exact ⟨_, List.mem_cons_self⟩
      · cases created with
        | false => exact ih s hTail
        | true =>
            rcases ih (s.make _).2 hTail with ⟨i, hMem⟩
            exact ⟨i, List.mem_cons_of_mem _ hMem⟩

theorem find_offerOrWait
    (i : ℕ)
    (now : ℤ)
    (s : System)
    (peerId : String) :
    (offerOrWait i now s).find peerId = s.find peerId := by
  unfold offerOrWait
  split <;> rfl

theorem isSome_find_addPeer
    (now : ℤ)
    (fresh : String × ℕ)
    (hWanted : (s.find peerId).isSome = true ∨
      peerId = fresh.1) :
    ((addPeer now s fresh).find peerId).isSome = true := by
  unfold addPeer System.tryAdd
  cases hFind : s.find fresh.1 with
  | some i =>
      rcases hWanted with hFound | rfl
      · exact hFound
      · exact Option.isSome_of_eq_some hFind
  | none =>
      change ((offerOrWait fresh.2 now _).find
        peerId).isSome = true
      rw [find_offerOrWait]
      by_cases hSame : peerId = fresh.1
      · rw [hSame]
        exact Option.isSome_of_eq_some
          (AList.lookup_insert s.registry)
      · have hOther : (s.registry.insert fresh.1
            fresh.2).lookup peerId = s.registry.lookup peerId :=
          AList.lookup_insert_ne hSame
        rw [System.find, hOther]
        exact hWanted.resolve_right hSame

theorem isSome_find_addPeers
    (now : ℤ)
    (fresh : List (String × ℕ))
    (hWanted : (s.find peerId).isSome = true ∨
      ∃ i, (peerId, i) ∈ fresh) :
    ((fresh.foldl (addPeer now) s).find
      peerId).isSome = true := by
  induction fresh generalizing s with
  | nil =>
      rcases hWanted with hFind | ⟨i, hMem⟩
      · exact hFind
      · exact absurd hMem List.not_mem_nil
  | cons first fresh ih =>
      apply ih
      rcases hWanted with hFind | ⟨i, hMem⟩
      · exact Or.inl
          (isSome_find_addPeer now first (Or.inl hFind))
      · rcases List.mem_cons.mp hMem with rfl | hMem
        · exact Or.inl
            (isSome_find_addPeer now (peerId, i) (Or.inr rfl))
        · exact Or.inr ⟨i, hMem⟩

/- Whoever had a controller has one still. -/
theorem isSome_find_connectToPeers
    {peers : List String}
    {created : ℕ → Bool}
    (force : Bool)
    (now : ℤ)
    (hCreated : ∀ k, created k = true)
    (hWanted : (s.find peerId).isSome = true ∨
      ∃ selfId, s.selfId = some selfId ∧ selfId ≠ "" ∧
        peerId ∈ peers ∧ peerId ≠ selfId) :
    ((connectToPeers peers force created now s).find
      peerId).isSome = true := by
  unfold connectToPeers
  cases hSelf : s.selfId with
  | none =>
      rcases hWanted with hFind | ⟨selfId, hIs, -⟩
      · exact hFind
      · rw [hSelf] at hIs
        cases hIs
  | some selfId =>
      have hWanted' : (s.find peerId).isSome = true ∨
          (selfId ≠ "" ∧ peerId ∈ peers ∧
            peerId ≠ selfId) := by
        refine hWanted.imp_right ?_
        rintro ⟨other, hIs, hNamed⟩
        rw [hSelf] at hIs
        cases hIs
        exact hNamed
      dsimp only
      split
      case isTrue hEmpty =>
        rcases hWanted' with hFind | ⟨hKnown, -⟩
        · exact hFind
        · exact absurd hEmpty hKnown
      case isFalse =>
        apply isSome_find_addPeers
        rw [find_createPeers]
        have hChosen := isSome_find_choosePeers selfId force
          peers (hWanted'.imp_right And.right)
        refine hChosen.imp_right fun hMem => ?_
        apply mem_createPeers
        rcases List.getElem?_of_mem hMem with ⟨k, hAt⟩
        refine List.mem_map.mpr ⟨(peerId, k), ?_, ?_⟩
        · exact List.mk_mem_zipIdx_iff_getElem?.mpr hAt
        · rw [hCreated]

end Connecting

------------------------------------------------------------
-- Whatever Else Happens
------------------------------------------------------------

section Steps

variable
  {s s' : System}
  {peerId : String}

/-
  The peer does not leave, the manager does not go away, and
  controllers can be made.
-/
def Keeps (peerId : String) : Event → Prop
| .connectToPeers _ _ created _ => ∀ k, created k = true
| .peerLeave other => other ≠ peerId
| .lanLost other => other ≠ peerId
| .goodbye other => other ≠ peerId
| .closeAll => False
| _ => True

/- The registry and the node itself are as they were. -/
structure SameRegistry (s s' : System) : Prop where
  registry : s'.registry = s.registry
  selfId : s'.selfId = s.selfId
  gone : s'.gone = s.gone

theorem SameRegistry.find
    (hSame : SameRegistry s s') :
    s'.find peerId = s.find peerId := by
  unfold System.find
  rw [hSame.registry]

theorem sameRegistry_handlePeerStateChanged
    (other : String)
    (state : PeerState)
    (sessionId : ℕ)
    (s : System) :
    SameRegistry s
      (handlePeerStateChanged other state sessionId s) := by
  unfold handlePeerStateChanged
  split
  · cases s.find other with
    | none => exact ⟨rfl, rfl, rfl⟩
    | some i => exact ⟨rfl, rfl, rfl⟩
  · exact ⟨rfl, rfl, rfl⟩

theorem sameRegistry_withCallback
    (i : ℕ)
    (f : Controller → Controller)
    (sessionId : ℕ)
    (s : System) :
    SameRegistry s (withCallback i f sessionId s) := by
  unfold withCallback
  cases s.controllers[i]? with
  | none => exact ⟨rfl, rfl, rfl⟩
  | some c =>
      dsimp only
      have hFirst : SameRegistry s (s.modify i f) :=
        ⟨rfl, rfl, rfl⟩
      revert hFirst
      generalize s.modify i f = next
      generalize (f c).stateChanges.drop
        c.stateChanges.length = states
      induction states generalizing next with
      | nil => exact id
      | cons state states ih =>
          rintro ⟨hRegistry, hSelf, hGone⟩
          have hNext := sameRegistry_handlePeerStateChanged
            c.peerId state sessionId next
          exact ih _ ⟨hNext.registry.trans hRegistry,
            hNext.selfId.trans hSelf,
            hNext.gone.trans hGone⟩

theorem sameRegistry_withSignals
    (i : ℕ)
    (told : IceConnection → IceConnection)
    (s : System) :
    SameRegistry s (withSignals i told s) := by
  unfold withSignals
  cases s.controllers[i]? with
  | none => exact ⟨rfl, rfl, rfl⟩
  | some c =>
      dsimp only
      split
      · exact ⟨rfl, rfl, rfl⟩
      · exact ⟨rfl, rfl, rfl⟩

theorem isSome_find_onLanPeerFound
    (deviceId : String)
    (kcpPort : ℕ)
    (created : Bool)
    (now : ℤ)
    (sessionId : ℕ)
    (hFind : (s.find peerId).isSome = true) :
    ((onLanPeerFound deviceId kcpPort created now
        sessionId s).find peerId).isSome = true := by
  unfold onLanPeerFound
  split
  · exact hFind
  · split
    · exact hFind
    · split
      · dsimp only [System.tryAdd]
        cases hOther : (s.make
          (.createLanDirect deviceId)).2.find deviceId with
        | some i => exact hFind
        | none =>
            change ((withCallback _ _ _ _).find
              peerId).isSome = true
            rw [(sameRegistry_withCallback _ _ _ _).find]
            by_cases hSame : peerId = deviceId
            · rw [hSame]
              exact Option.isSome_of_eq_some
                (AList.lookup_insert s.registry)
            · have hOther : (s.registry.insert deviceId
                  s.controllers.length).lookup peerId =
                    s.registry.lookup peerId :=
                AList.lookup_insert_ne hSame
              exact (congrArg Option.isSome hOther).trans
                hFind
      · exact isSome_find_addPeer now _ (Or.inl hFind)

theorem isSome_find_leave
    {other : String}
    (hNe : other ≠ peerId)
    (hFind : (s.find peerId).isSome = true) :
    ((handlePeerLeave other s).find peerId).isSome = true ∧
      ((handleGoodbye other s).find peerId).isSome = true := by
  unfold handlePeerLeave handleGoodbye
  cases s.find other with
  | none => exact ⟨hFind, hFind⟩
  | some i =>
      have hKept : ∀ f : Controller → Controller,
          (((s.modify i f).remove other).find
            peerId).isSome = true := by
        intro f
        rw [find_remove_of_ne _ (Ne.symm hNe), find_modify]
        exact hFind
      exact ⟨hKept _, hKept _⟩

theorem sameNode_onLanPeerFound
    (deviceId : String)
    (kcpPort : ℕ)
    (created : Bool)
    (now : ℤ)
    (sessionId : ℕ)
    (s : System) :
    let s' := onLanPeerFound deviceId kcpPort created now
      sessionId s
    s'.selfId = s.selfId ∧ s'.gone = s.gone := by
  unfold onLanPeerFound
  dsimp only
  split
  · exact ⟨rfl, rfl⟩
  · split
    · exact ⟨rfl, rfl⟩
    · split
      · dsimp only [System.tryAdd]
        cases (s.make
          (.createLanDirect deviceId)).2.find deviceId with
        | some i => exact ⟨rfl, rfl⟩
        | none =>
            have hSame := sameRegistry_withCallback
              (s := { (s.make
                  (.createLanDirect deviceId)).2 with
                registry := s.registry.insert deviceId
                  s.controllers.length })
              s.controllers.length
              (fun c => c.initiateConnection now) sessionId
            exact ⟨hSame.selfId, hSame.gone⟩
      · have hSilent := silent_addPeer now
          (s.make (.create (lanSelfId s) deviceId)).2
          (deviceId, s.controllers.length)
        exact ⟨hSilent.selfId, hSilent.gone⟩

/- A peer that has a controller has one after the step. -/
theorem isSome_find_step
    {e : Event}
    (hKeeps : Keeps peerId e)
    (hFind : (s.find peerId).isSome = true)
    (hStep : step s e = some s') :
    (s'.find peerId).isSome = true := by
  rcases step_eq_some_iff.mp hStep with ⟨-, hStep⟩
  cases e with
  | selfId id =>
      cases hStep
      exact hFind
  | connectToPeers peers force created now =>
      cases hStep
      exact isSome_find_connectToPeers force now hKeeps
        (Or.inl hFind)
  | peerLeave other =>
      cases hStep
      exact (isSome_find_leave hKeeps hFind).1
  | signal fromId signalType payload =>
      cases hStep
      unfold handleSignalingMessage
      cases s.find fromId with
      | none => exact hFind
      | some i => exact hFind
  | lanFound deviceId kcpPort created now sessionId =>
      cases hStep
      exact isSome_find_onLanPeerFound deviceId kcpPort
        created now sessionId hFind
  | lanLost other =>
      cases hStep
      exact (isSome_find_leave hKeeps hFind).1
  | goodbye other =>
      cases hStep
      exact (isSome_find_leave hKeeps hFind).2
  | iceState i state now sessionId =>
      cases hStep
      rw [(sameRegistry_withCallback i _ sessionId s).find]
      exact hFind
  | localCandidate i candidate =>
      cases hStep
      rw [(sameRegistry_withSignals i _ s).find]
      exact hFind
  | gatheringDone i localDesc =>
      cases hStep
      rw [(sameRegistry_withSignals i _ s).find]
      exact hFind
  | answerTimeout i =>
      simp only [handle] at hStep
      split at hStep
      · cases hStep
        exact hFind
      · cases hStep
  | closeAll => exact absurd hKeeps id

/-
  A node that has a tracker client keeps it, and its manager
  until it is destroyed.
-/
theorem sameNode_step
    {e : Event}
    (hStep : step s e = some s') :
    s'.selfId.isSome = s.selfId.isSome ∧
      (e ≠ .closeAll → s'.gone = false) := by
  rcases step_eq_some_iff.mp hStep with ⟨hAlive, hStep⟩
  have hSame : s'.selfId = s.selfId ∧ s'.gone = s.gone →
      s'.selfId.isSome = s.selfId.isSome ∧
        (e ≠ .closeAll → s'.gone = false) := by
    rintro ⟨hSelf, hGone⟩
    exact ⟨congrArg Option.isSome hSelf,
      fun _ => hGone.trans hAlive⟩
  cases e with
  | selfId id =>
      cases hStep
      exact ⟨Option.isSome_map, fun _ => hAlive⟩
  | connectToPeers peers force created now =>
      cases hStep
      have hSilent := silent_connectToPeers peers force
        created now s
      exact hSame ⟨hSilent.selfId, hSilent.gone⟩
  | peerLeave other =>
      cases hStep
      apply hSame
      unfold handlePeerLeave
      cases s.find other <;> exact ⟨rfl, rfl⟩
  | signal fromId signalType payload =>
      cases hStep
      apply hSame
      unfold handleSignalingMessage
      cases s.find fromId <;> exact ⟨rfl, rfl⟩
  | lanFound deviceId kcpPort created now sessionId =>
      cases hStep
      exact hSame (sameNode_onLanPeerFound deviceId kcpPort
        created now sessionId s)
  | lanLost other =>
      cases hStep
      apply hSame
      unfold handlePeerLeave
      cases s.find other <;> exact ⟨rfl, rfl⟩
  | goodbye other =>
      cases hStep
      apply hSame
      unfold handleGoodbye
      cases s.find other <;> exact ⟨rfl, rfl⟩
  | iceState i state now sessionId =>
      cases hStep
      have hBoth := sameRegistry_withCallback i
        (fun c => c.onIce (fun ice =>
          ice.onIceStateChanged state now)) sessionId s
      exact hSame ⟨hBoth.selfId, hBoth.gone⟩
  | localCandidate i candidate =>
      cases hStep
      have hBoth := sameRegistry_withSignals i
        (fun ice => ice.onIceLocalCandidate candidate) s
      exact hSame ⟨hBoth.selfId, hBoth.gone⟩
  | gatheringDone i localDesc =>
      cases hStep
      have hBoth := sameRegistry_withSignals i
        (fun ice => ice.onIceGatheringDone localDesc) s
      exact hSame ⟨hBoth.selfId, hBoth.gone⟩
  | answerTimeout i =>
      simp only [handle] at hStep
      split at hStep
      · cases hStep
        exact hSame ⟨rfl, rfl⟩
      · cases hStep
  | closeAll =>
      cases hStep
      exact ⟨rfl, fun hNot => absurd rfl hNot⟩

end Steps

end Connections

end VeritasSync
