import VeritasSync.P2p.ConnectionPlaces

/-
  What holds of the registry in every run.

  A peer has at most one open controller, and none that was
  replaced or left can connect any more.  Every connection
  that a controller reports is answered by one push of the
  node's state, to that controller, if the node pushes at all.

  Main declarations:
    * `Connections.Silent`, `Connections.Pushed`
    * `Connections.pushed_step`
    * `Connections.Kept`, `Connections.kept_of_run`
-/

namespace VeritasSync

namespace Connections

open Transition

------------------------------------------------------------
-- Steps That Report Nothing
------------------------------------------------------------

/- Whether the node pushes its state to its peers. -/
def Pushes (s : System) : Prop :=
  s.role = .source ∨ s.mode = .biDirectional

instance decidablePushes
    (s : System) : Decidable (Pushes s) :=
  inferInstanceAs
    (Decidable (s.role = .source ∨ s.mode = .biDirectional))

/-
  Nothing was reported and nothing pushed; controllers may be
  new.
-/
structure Silent (s s' : System) : Prop where
  floods : s'.floods = s.floods
  role : s'.role = s.role
  mode : s'.mode = s.mode
  selfId : s'.selfId = s.selfId
  gone : s'.gone = s.gone
  length : s.controllers.length ≤ s'.controllers.length
  stateChanges : ∀ (i : ℕ) c', s'.controllers[i]? = some c' →
    (∃ c, s.controllers[i]? = some c ∧
      c'.stateChanges = c.stateChanges) ∨
    (s.controllers.length ≤ i ∧ c'.stateChanges = [])

section Steps

variable
  {s s' s'' : System}

/- The controllers are the same. -/
theorem silent_of_same
    (hFloods : s'.floods = s.floods)
    (hRole : s'.role = s.role)
    (hMode : s'.mode = s.mode)
    (hSelfId : s'.selfId = s.selfId)
    (hGone : s'.gone = s.gone)
    (hControllers : s'.controllers = s.controllers) :
    Silent s s' := by
  refine ⟨hFloods, hRole, hMode, hSelfId, hGone, ?_, ?_⟩
  · rw [hControllers]
  · intro i c' hAt
    rw [hControllers] at hAt
    exact Or.inl ⟨c', hAt, rfl⟩

theorem silent_refl (s : System) : Silent s s :=
  silent_of_same rfl rfl rfl rfl rfl rfl

theorem silent_trans
    (hFirst : Silent s s')
    (hSecond : Silent s' s'') :
    Silent s s'' := by
  refine ⟨hSecond.floods.trans hFirst.floods,
    hSecond.role.trans hFirst.role,
    hSecond.mode.trans hFirst.mode,
    hSecond.selfId.trans hFirst.selfId,
    hSecond.gone.trans hFirst.gone,
    hFirst.length.trans hSecond.length, ?_⟩
  intro i c'' hAt''
  rcases hSecond.stateChanges i c'' hAt'' with
    ⟨c', hAt', hSame⟩ | ⟨hNew, hNone⟩
  · rw [hSame]
    exact hFirst.stateChanges i c' hAt'
  · exact Or.inr ⟨hFirst.length.trans hNew, hNone⟩

theorem silent_modify
    (s : System)
    (i : ℕ)
    {f : Controller → Controller}
    (hSame : ∀ c, s.controllers[i]? = some c →
      (f c).stateChanges = c.stateChanges) :
    Silent s (s.modify i f) := by
  refine ⟨rfl, rfl, rfl, rfl, rfl, ?_, ?_⟩
  · exact (List.length_modify ..).ge
  · intro j c' hAt
    rw [get_modify, Option.map_eq_some_iff] at hAt
    rcases hAt with ⟨c, hAt, rfl⟩
    refine Or.inl ⟨c, hAt, ?_⟩
    split
    case isTrue hIndex =>
      subst hIndex
      exact hSame c hAt
    case isFalse => rfl

theorem silent_make
    (s : System)
    {c : Controller}
    (hNew : c.stateChanges = []) :
    Silent s (s.make c).2 := by
  refine ⟨rfl, rfl, rfl, rfl, rfl, ?_, ?_⟩
  · exact Nat.le.intro List.length_append.symm
  · intro i c' hAt
    by_cases hOld : i < s.controllers.length
    · refine Or.inl ⟨c', ?_, rfl⟩
      rwa [← List.getElem?_append_left hOld]
    · refine Or.inr ⟨Nat.le_of_not_lt hOld, ?_⟩
      have hMem := List.mem_of_getElem? hAt
      rcases List.mem_append.mp hMem with hMem | hMem
      · have hLess := (List.getElem?_eq_some_iff.mp hAt).1
        have hLast : i = s.controllers.length := by
          rw [System.make, List.length_append,
            List.length_singleton] at hLess
          omega
        subst hLast
        rw [System.make, List.getElem?_concat_length] at hAt
        rw [← Option.some.inj hAt, hNew]
      · rw [List.mem_singleton.mp hMem, hNew]

theorem silent_tryReuseOrEvict
    (s : System)
    (peerId : String)
    (force : Bool) :
    Silent s (s.tryReuseOrEvict peerId force).2 := by
  unfold System.tryReuseOrEvict
  cases s.find peerId with
  | none => exact silent_refl s
  | some i =>
      dsimp only
      split
      · exact silent_refl s
      · exact silent_trans
          (silent_modify s i
            (fun c _ => c.stateChanges_close))
          (silent_of_same rfl rfl rfl rfl rfl rfl)

theorem silent_choosePeers
    (selfId : String)
    (force : Bool)
    (peers : List String)
    (s : System) :
    Silent s (choosePeers selfId force peers s).2 := by
  induction peers generalizing s with
  | nil => exact silent_refl s
  | cons peerId peers ih =>
      have hNext := silent_tryReuseOrEvict s peerId force
      unfold choosePeers
      split
      · exact ih s
      · revert hNext
        rcases s.tryReuseOrEvict peerId force with
          ⟨leave, next⟩
        intro hNext
        cases leave with
        | true => exact silent_trans hNext (ih next)
        | false => exact silent_trans hNext (ih next)

theorem silent_createPeers
    (selfId : String)
    (peers : List (String × Bool))
    (s : System) :
    Silent s (createPeers selfId peers s).2 := by
  induction peers generalizing s with
  | nil => exact silent_refl s
  | cons peer peers ih =>
      rcases peer with ⟨peerId, created⟩
      cases created with
      | false => exact ih s
      | true => exact silent_trans (silent_make s rfl) (ih _)

/- Only a controller over ICE makes an offer. -/
theorem silent_offerOrWait
    (i : ℕ)
    (now : ℤ)
    (s : System) :
    Silent s (offerOrWait i now s) := by
  unfold offerOrWait
  split
  case isTrue hOffers =>
    apply silent_modify
    intro c hAt
    rw [offers, hAt, Option.any_some] at hOffers
    rcases c with ⟨peerId, link, graceful, sessionId⟩
    cases link with
    | ice ice =>
        exact Controller.stateChanges_initiateConnection ice
    | direct session => cases hOffers
  case isFalse => exact silent_of_same rfl rfl rfl rfl rfl rfl

theorem silent_addPeer
    (now : ℤ)
    (s : System)
    (fresh : String × ℕ) :
    Silent s (addPeer now s fresh) := by
  unfold addPeer System.tryAdd
  cases s.find fresh.1 with
  | some i =>
      exact silent_modify s fresh.2
        (fun c _ => c.stateChanges_close)
  | none =>
      refine silent_trans ?_ (silent_offerOrWait fresh.2 now
        { s with
          registry := s.registry.insert fresh.1 fresh.2 })
      exact silent_of_same rfl rfl rfl rfl rfl rfl

theorem silent_addPeers
    (now : ℤ)
    (fresh : List (String × ℕ))
    (s : System) :
    Silent s (fresh.foldl (addPeer now) s) := by
  induction fresh generalizing s with
  | nil => exact silent_refl s
  | cons first fresh ih =>
      exact silent_trans (silent_addPeer now s first) (ih _)

theorem silent_connectToPeers
    (peers : List String)
    (force : Bool)
    (created : ℕ → Bool)
    (now : ℤ)
    (s : System) :
    Silent s (connectToPeers peers force created now s) := by
  unfold connectToPeers
  cases s.selfId with
  | none => exact silent_refl s
  | some selfId =>
      dsimp only
      split
      · exact silent_refl s
      · exact silent_trans
          (silent_choosePeers selfId force peers s)
          (silent_trans (silent_createPeers selfId _ _)
            (silent_addPeers now _ _))

theorem silent_withSignals
    (i : ℕ)
    {told : IceConnection → IceConnection}
    (hChanges : ∀ ice,
      (told ice).stateChanges = ice.stateChanges)
    (s : System) :
    Silent s (withSignals i told s) := by
  unfold withSignals
  cases s.controllers[i]? with
  | none => exact silent_refl s
  | some c =>
      have hNow := silent_modify s i
        (f := fun c => c.onIce told) ?_
      · dsimp only
        split
        · exact silent_trans hNow
            (silent_of_same rfl rfl rfl rfl rfl rfl)
        · exact hNow
      · rintro ⟨peerId, link, graceful, sessionId⟩ _
        cases link with
        | ice ice => exact hChanges ice
        | direct session => rfl

theorem silent_closeAll (s : System) :
    Silent s { s.closeAll with gone := s.gone } := by
  refine ⟨rfl, rfl, rfl, rfl, rfl, ?_, ?_⟩
  · show s.controllers.length ≤
      s.closeAll.controllers.length
    refine Nat.le_of_not_lt fun hLess => ?_
    have hNone := List.getElem?_eq_none (Nat.le_refl
      s.closeAll.controllers.length)
    rw [get_closeAll, Option.map_eq_none_iff,
      List.getElem?_eq_none_iff] at hNone
    omega
  · intro i c' hAt
    rw [get_closeAll, Option.map_eq_some_iff] at hAt
    rcases hAt with ⟨c, hAt, rfl⟩
    refine Or.inl ⟨c, hAt, ?_⟩
    split
    · exact c.stateChanges_close
    · rfl

/- A peer that leaves, and one that says goodbye. -/
theorem silent_leave
    {f : Controller → Controller}
    (hShuts : Controller.Shuts f)
    (peerId : String)
    (i : ℕ)
    (s : System) :
    Silent s { (s.modify i f).remove peerId with
      cancelled := s.cancelled ++ [peerId] } :=
  silent_trans
    (silent_modify s i (fun c _ => hShuts.stateChanges c))
    (silent_of_same rfl rfl rfl rfl rfl rfl)

end Steps

------------------------------------------------------------
-- One Push for Each Connection
------------------------------------------------------------

/- How often the state was pushed to a controller. -/
def pushesTo (s : System) (i : ℕ) : ℕ :=
  (s.floods.map Prod.fst).count i

structure Pushed (s : System) : Prop where
  counted : ∀ (i : ℕ) c, s.controllers[i]? = some c →
    pushesTo s i =
      if Pushes s then c.stateChanges.count .connected else 0
  posted : ∀ flood ∈ s.floods,
    flood.1 < s.controllers.length

theorem pushed_start
    (deviceId : String)
    (hasTracker : Bool)
    (role : SyncRole)
    (mode : SyncMode) :
    Pushed (start deviceId hasTracker role mode) where
  counted _ _ hAt := by cases hAt
  posted _ hMem := absurd hMem List.not_mem_nil

section Pushing

variable
  {s s' : System}

theorem pushed_of_silent
    (hPushed : Pushed s)
    (hSilent : Silent s s') :
    Pushed s' := by
  have hPushes : Pushes s' ↔ Pushes s := by
    unfold Pushes
    rw [hSilent.role, hSilent.mode]
  have hTo : ∀ i, pushesTo s' i = pushesTo s i := by
    intro i
    unfold pushesTo
    rw [hSilent.floods]
  refine ⟨?_, ?_⟩
  · intro i c' hAt
    rw [hTo]
    simp only [hPushes]
    rcases hSilent.stateChanges i c' hAt with
      ⟨c, hAt', hSame⟩ | ⟨hNew, hNone⟩
    · rw [hSame]
      exact hPushed.counted i c hAt'
    · rw [hNone, List.count_nil, ite_self]
      refine List.count_eq_zero.mpr ?_
      intro hMem
      rcases List.mem_map.mp hMem with ⟨flood, hFlood, hIndex⟩
      have hLess := hPushed.posted flood hFlood
      omega
  · intro flood hMem
    rw [hSilent.floods] at hMem
    exact Nat.lt_of_lt_of_le (hPushed.posted flood hMem)
      hSilent.length

/- A state that is not answered by a push. -/
theorem handlePeerStateChanged_of_not
    {peerId : String}
    {state : PeerState}
    {sessionId : ℕ}
    (hNot : ¬ (state = .connected ∧ Pushes s)) :
    handlePeerStateChanged peerId state sessionId s = s :=
  if_neg hNot

/- A connection of a registered peer. -/
theorem handlePeerStateChanged_of_find
    {peerId : String}
    {sessionId i : ℕ}
    (hPushes : Pushes s)
    (hFind : s.find peerId = some i) :
    handlePeerStateChanged peerId .connected sessionId s =
      { s.modify i (fun c =>
          { c with syncSessionId := sessionId }) with
        floods := s.floods ++ [(i, sessionId)] } := by
  unfold handlePeerStateChanged
  rw [if_pos ⟨rfl, hPushes⟩, hFind]

/- The controller whose connection is reported is there. -/
theorem find_of_reported
    {i : ℕ}
    {c c' : Controller}
    {new : List PeerState}
    (hPlaced : Placed s [])
    (hAt : s.controllers[i]? = some c)
    (hReports : c.Reports c' new)
    (hNew : .connected ∈ new) :
    s.find c.peerId = some i := by
  have hOpen : c.isClosed = false := by
    cases hClosed : c.isClosed with
    | false => rfl
    | true =>
        exact absurd hNew
          (hReports.quiet (hPlaced.rests i c hAt hClosed))
  exact (hPlaced.own i c hAt hOpen).resolve_right
    List.not_mem_nil

/- One more push answers one more connection. -/
theorem pushed_push
    {i sessionId : ℕ}
    {f : Controller → Controller}
    (hPushed : Pushed s)
    (hPushes : Pushes s)
    (hLess : i < s.controllers.length)
    (hChanges : ∀ c, s.controllers[i]? = some c →
      (f c).stateChanges = c.stateChanges ++ [.connected])
    (hRole : s'.role = s.role)
    (hControllers : s'.controllers = (s.modify i f).controllers)
    (hMode : s'.mode = s.mode)
    (hFloods : s'.floods = s.floods ++ [(i, sessionId)]) :
    Pushed s' := by
  have hPushes' : Pushes s' := by
    unfold Pushes
    rw [hRole, hMode]
    exact hPushes
  refine ⟨?_, ?_⟩
  · intro j c' hAt
    rw [hControllers, get_modify, Option.map_eq_some_iff] at hAt
    rcases hAt with ⟨c, hAt, rfl⟩
    have hBefore := hPushed.counted j c hAt
    rw [if_pos hPushes] at hBefore
    have hTo : pushesTo s' j =
        c.stateChanges.count .connected + [i].count j := by
      rw [← hBefore]
      unfold pushesTo
      rw [hFloods, List.map_append, List.count_append]
      rfl
    rw [if_pos hPushes', hTo]
    by_cases hSame : i = j
    · subst hSame
      rw [if_pos rfl, hChanges c hAt, List.count_append,
        List.count_singleton_self, List.count_singleton_self]
    · rw [if_neg hSame, List.count_singleton,
        if_neg (by simpa using hSame)]
      rfl
  · intro flood hMem
    rw [hControllers, System.modify, List.length_modify]
    rw [hFloods] at hMem
    rcases List.mem_append.mp hMem with hMem | hMem
    · exact hPushed.posted flood hMem
    · rw [List.mem_singleton.mp hMem]
      exact hLess

/- What a controller reports without being pushed to. -/
theorem pushed_report
    {i : ℕ}
    {f : Controller → Controller}
    {state : PeerState}
    (hPushed : Pushed s)
    (hNot : ¬ (state = .connected ∧ Pushes s))
    (hChanges : ∀ c, s.controllers[i]? = some c →
      (f c).stateChanges = c.stateChanges ++ [state]) :
    Pushed (s.modify i f) := by
  refine ⟨?_, ?_⟩
  · intro j c' hAt
    rw [get_modify, Option.map_eq_some_iff] at hAt
    rcases hAt with ⟨c, hAt, rfl⟩
    refine (hPushed.counted j c hAt).trans ?_
    by_cases hPushes : Pushes s
    · have hOther : state ≠ .connected :=
        fun hUp => hNot ⟨hUp, hPushes⟩
      have hPushes' : Pushes (s.modify i f) := hPushes
      rw [if_pos hPushes, if_pos hPushes']
      split
      case isTrue hSame =>
        subst hSame
        rw [hChanges c hAt, List.count_append,
          List.count_singleton, if_neg (by simpa using hOther)]
        rfl
      case isFalse => rfl
    · have hPushes' : ¬ Pushes (s.modify i f) := hPushes
      rw [if_neg hPushes, if_neg hPushes']
  · intro flood hMem
    unfold System.modify
    rw [List.length_modify]
    exact hPushed.posted flood hMem

/- A call, with the callback for what it reports. -/
theorem pushed_withCallback
    {i : ℕ}
    {f : Controller → Controller}
    (sessionId : ℕ)
    (hPlaced : Placed s [])
    (hPushed : Pushed s)
    (hReports : ∀ c, s.controllers[i]? = some c →
      ∃ new, c.Reports (f c) new) :
    Pushed (withCallback i f sessionId s) := by
  unfold withCallback
  cases hAt : s.controllers[i]? with
  | none => exact hPushed
  | some c =>
      rcases hReports c hAt with ⟨new, hCall⟩
      have hOnly : ∀ d, s.controllers[i]? = some d →
          (f d).stateChanges = d.stateChanges ++ new := by
        intro d hAt'
        rw [hAt] at hAt'
        cases hAt'
        exact hCall.stateChanges
      dsimp only
      rw [hCall.stateChanges, List.drop_left]
      match new, hCall.atMostOne with
      | [], _ =>
          refine pushed_of_silent hPushed
            (silent_modify s i fun d hAt' => ?_)
          rw [hOnly d hAt', List.append_nil]
      | [state], _ =>
          rw [List.foldl_cons, List.foldl_nil]
          by_cases hBoth : state = .connected ∧ Pushes s
          · rcases hBoth with ⟨rfl, hPushes⟩
            have hFind := find_of_reported hPlaced hAt hCall
              List.mem_cons_self
            have hFind' : (s.modify i f).find c.peerId =
                some i := hFind
            have hPushes' : Pushes (s.modify i f) := hPushes
            rw [handlePeerStateChanged_of_find hPushes'
              hFind']
            have hPosted : Pushed { s.modify i f with
                floods := s.floods ++ [(i, sessionId)] } :=
              pushed_push hPushed hPushes
                (List.getElem?_eq_some_iff.mp hAt).1 hOnly
                rfl rfl rfl rfl
            apply pushed_of_silent hPosted
            exact silent_modify _ i (fun _ _ => rfl)
          · have hBoth' : ¬ (state = .connected ∧
                Pushes (s.modify i f)) := hBoth
            rw [handlePeerStateChanged_of_not hBoth']
            exact pushed_report hPushed hBoth hOnly

end Pushing

/- A new controller that is put in without ICE. -/
theorem pushed_onLanPeerFound
    {s : System}
    (deviceId : String)
    (kcpPort : ℕ)
    (created : Bool)
    (now : ℤ)
    (sessionId : ℕ)
    (hPlaced : Placed s [])
    (hPushed : Pushed s) :
    Pushed (onLanPeerFound deviceId kcpPort created now
      sessionId s) := by
  unfold onLanPeerFound
  split
  · exact hPushed
  · split
    · exact hPushed
    · split
      · dsimp only
        have hMade := placed_make
          (c := .createLanDirect deviceId) hPlaced rfl
        have hQuiet := pushed_of_silent hPushed (silent_make s
          (c := .createLanDirect deviceId) rfl)
        unfold System.tryAdd
        cases hFind : (s.make
          (.createLanDirect deviceId)).2.find deviceId with
        | some i =>
            exact pushed_of_silent hQuiet
              (silent_modify _ _
                (fun c _ => c.stateChanges_close))
        | none =>
            apply pushed_withCallback sessionId
              (placed_insert hMade hFind)
            · exact pushed_of_silent hQuiet
                (silent_of_same rfl rfl rfl rfl rfl rfl)
            · intro c _
              exact ⟨_, c.reports_initiateConnection now⟩
      · exact pushed_of_silent hPushed
          (silent_trans (silent_make s rfl)
            (silent_addPeer now _ _))

theorem pushed_step
    {s s' : System}
    {e : Event}
    (hPlaced : Placed s [])
    (hPushed : Pushed s)
    (hStep : step s e = some s') :
    Pushed s' := by
  rcases step_eq_some_iff.mp hStep with ⟨-, hStep⟩
  cases e with
  | selfId id =>
      cases hStep
      exact ⟨hPushed.counted, hPushed.posted⟩
  | connectToPeers peers force created now =>
      cases hStep
      exact pushed_of_silent hPushed
        (silent_connectToPeers peers force created now s)
  | peerLeave peerId =>
      cases hStep
      unfold handlePeerLeave
      cases s.find peerId with
      | none => exact hPushed
      | some i =>
          exact pushed_of_silent hPushed
            (silent_leave Controller.shuts_close peerId i s)
  | signal fromId signalType payload =>
      cases hStep
      unfold handleSignalingMessage
      cases s.find fromId with
      | none => exact hPushed
      | some i =>
          apply pushed_of_silent hPushed
          apply silent_modify
          intro c _
          have hCall :=
            c.reports_handleSignaling signalType payload
          rw [hCall.stateChanges, List.append_nil]
  | lanFound deviceId kcpPort created now sessionId =>
      cases hStep
      exact pushed_onLanPeerFound deviceId kcpPort created
        now sessionId hPlaced hPushed
  | lanLost deviceId =>
      cases hStep
      unfold handlePeerLeave
      cases s.find deviceId with
      | none => exact hPushed
      | some i =>
          exact pushed_of_silent hPushed
            (silent_leave Controller.shuts_close deviceId i s)
  | goodbye peerId =>
      cases hStep
      unfold handleGoodbye
      cases s.find peerId with
      | none => exact hPushed
      | some i =>
          exact pushed_of_silent hPushed
            (silent_leave Controller.shuts_goodbye peerId i s)
  | iceState i state now sessionId =>
      cases hStep
      apply pushed_withCallback sessionId hPlaced hPushed
      intro c _
      exact ⟨_, c.reports_iceState state now⟩
  | localCandidate i candidate =>
      cases hStep
      apply pushed_of_silent hPushed
      apply silent_withSignals
      intro ice
      rfl
  | gatheringDone i localDesc =>
      cases hStep
      apply pushed_of_silent hPushed
      apply silent_withSignals
      intro ice
      rfl
  | answerTimeout i =>
      simp only [handle] at hStep
      split at hStep
      · cases hStep
        exact pushed_of_silent hPushed
          (silent_of_same rfl rfl rfl rfl rfl rfl)
      · cases hStep
  | closeAll =>
      cases hStep
      have hClosed := pushed_of_silent hPushed
        (silent_closeAll s)
      exact ⟨hClosed.counted, hClosed.posted⟩

------------------------------------------------------------
-- Runs
------------------------------------------------------------

/-
  A controller is open exactly as long as it is registered,
  and under no other id than its peer's.  One that is not can
  neither be connected nor connect, and every connection that
  was reported has been answered by one push, if the node
  pushes.
-/
structure Kept (s : System) : Prop where
  registered : ∀ peerId i, s.find peerId = some i →
    ∃ c, s.controllers[i]? = some c ∧ c.peerId = peerId
  open_iff : ∀ (i : ℕ) c, s.controllers[i]? = some c →
    (c.isClosed = false ↔ s.find c.peerId = some i)
  unique : ∀ (i j : ℕ) c d, s.controllers[i]? = some c →
    s.controllers[j]? = some d → c.isClosed = false →
      d.isClosed = false → c.peerId = d.peerId → i = j
  quiet : ∀ (i : ℕ) c, s.controllers[i]? = some c →
    c.isClosed = true →
      c.getState ≠ .connecting ∧ c.getState ≠ .connected
  counted : ∀ (i : ℕ) c, s.controllers[i]? = some c →
    pushesTo s i =
      if Pushes s then c.stateChanges.count .connected else 0

theorem Controller.getState_of_rests
    {c : Controller}
    (hRests : c.Rests) :
    c.getState ≠ .connecting ∧ c.getState ≠ .connected := by
  rcases c with ⟨peerId, link, graceful, sessionId⟩
  cases link with
  | ice ice => exact hRests.2
  | direct session => exact hRests.2

theorem kept_of_placed
    {s : System}
    (hPlaced : Placed s [])
    (hPushed : Pushed s) :
    Kept s := by
  have hThere : ∀ (i : ℕ) c, s.controllers[i]? = some c →
      c.isClosed = false → s.find c.peerId = some i :=
    fun i c hAt hOpen =>
      (hPlaced.own i c hAt hOpen).resolve_right
        List.not_mem_nil
  refine ⟨?_, ?_, ?_, ?_, hPushed.counted⟩
  · intro peerId i hFind
    rcases hPlaced.registered peerId i hFind with
      ⟨c, hAt, hPeer, -⟩
    exact ⟨c, hAt, hPeer⟩
  · intro i c hAt
    refine ⟨hThere i c hAt, ?_⟩
    intro hFind
    rcases hPlaced.registered _ i hFind with
      ⟨d, hAt', -, hOpen⟩
    rw [hAt] at hAt'
    cases hAt'
    exact hOpen
  · intro i j c d hAt hAt' hOpen hOpen' hPeer
    have hFind := hThere i c hAt hOpen
    rw [hPeer, hThere j d hAt' hOpen'] at hFind
    exact (Option.some.inj hFind).symm
  · intro i c hAt hShut
    exact Controller.getState_of_rests
      (hPlaced.rests i c hAt hShut)

/- What is kept by every step is kept in every run. -/
theorem placed_of_run
    {s s' : System}
    {events : List Event}
    (hPlaced : Placed s [])
    (hPushed : Pushed s)
    (hRun : run step s events = some s') :
    Placed s' [] ∧ Pushed s' := by
  have hMeets : Meets step (fun _ _ => True) s events :=
    meets_of_forall (fun _ _ => trivial)
  have hKeep : ∀ before e after,
      Placed before [] ∧ Pushed before → True →
        step before e = some after →
          Placed after [] ∧ Pushed after := by
    rintro before e after ⟨hPlaced, hPushed⟩ - hStep
    exact ⟨placed_step hPlaced hStep,
      pushed_step hPlaced hPushed hStep⟩
  exact invariant_of_run hKeep ⟨hPlaced, hPushed⟩ hMeets hRun

/-
  Whatever the tracker, the local network, the peers and the
  transport do, in any order: a controller is open exactly
  while it is registered for its peer, so that no peer has
  two, and each connection leads to exactly one push.
-/
theorem kept_of_run
    (deviceId : String)
    (hasTracker : Bool)
    (role : SyncRole)
    (mode : SyncMode)
    (events : List Event)
    (s : System)
    (hRun : run step (start deviceId hasTracker role mode)
      events = some s) :
    Kept s := by
  rcases placed_of_run
    (placed_start deviceId hasTracker role mode)
    (pushed_start deviceId hasTracker role mode) hRun with
    ⟨hPlaced, hPushed⟩
  exact kept_of_placed hPlaced hPushed

/-
  A peer that is named twice, connected, and then connected
  anew: what the old transport still tells is in vain.
-/
def sampleEvents : List Event :=
  [.selfId "A",
    .connectToPeers ["B", "B"] false (fun _ => true) 1,
    .iceState 0 .connected 2 7,
    .connectToPeers ["B"] true (fun _ => true) 3,
    .iceState 0 .connected 4 8,
    .iceState 2 .completed 5 9]

theorem kept_sampleEvents :
    ∃ s, run step (start "" true .source .oneWay)
        sampleEvents = some s ∧
      Kept s ∧ s.find "B" = some 2 ∧
        s.floods = [(0, 7), (2, 9)] := by
  refine ⟨_, rfl, ?_, by decide, by decide⟩
  exact kept_of_run "" true .source .oneWay sampleEvents _ rfl

end Connections

end VeritasSync
