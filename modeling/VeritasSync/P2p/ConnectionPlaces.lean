import VeritasSync.P2p.ControllerCalls

/-
  Where the controllers of a node are.

  A controller is open exactly as long as it is registered,
  and it is registered for its own peer.  While the manager
  makes several at once, some are open and not yet put in.

  Main declarations:
    * `Connections.Placed`
    * `Connections.placed_shut`, `Connections.placed_make`,
      `Connections.placed_insert`
    * `Connections.placed_step`
-/

namespace VeritasSync

namespace Connections

open Connections.Controller (shuts_close shuts_goodbye)

------------------------------------------------------------
-- Where the Controllers Are
------------------------------------------------------------

/-
  An open controller is registered for its own peer, or it is
  one of the loose ones, that were made but not yet put in;
  and only open ones are registered.
-/
structure Placed
    (s : System)
    (loose : List (String × ℕ)) : Prop where
  registered : ∀ peerId i, s.find peerId = some i →
    ∃ c, s.controllers[i]? = some c ∧ c.peerId = peerId ∧
      c.isClosed = false
  own : ∀ (i : ℕ) c, s.controllers[i]? = some c →
    c.isClosed = false →
      s.find c.peerId = some i ∨ (c.peerId, i) ∈ loose
  rests : ∀ (i : ℕ) c, s.controllers[i]? = some c →
    c.isClosed = true → c.Rests
  waiting : ∀ peerId i, (peerId, i) ∈ loose →
    s.find peerId ≠ some i ∧
      ∃ c, s.controllers[i]? = some c ∧ c.peerId = peerId ∧
        c.isClosed = false
  apart : (loose.map Prod.snd).Nodup

theorem placed_start
    (deviceId : String)
    (hasTracker : Bool)
    (role : SyncRole)
    (mode : SyncMode) :
    Placed (start deviceId hasTracker role mode) [] where
  registered _ _ hFind := by cases hFind
  own _ _ hGet := by cases hGet
  rests _ _ hGet := by cases hGet
  waiting _ _ hMem := absurd hMem List.not_mem_nil
  apart := List.nodup_nil

section Moves

variable
  {s : System}
  {loose : List (String × ℕ)}

theorem get_modify
    (s : System)
    (i j : ℕ)
    (f : Controller → Controller) :
    (s.modify i f).controllers[j]? =
      (s.controllers[j]?).map
        (fun c => if i = j then f c else c) :=
  List.getElem?_modify f i s.controllers j

/- A call that neither opens nor closes the controller. -/
theorem placed_modify
    {i : ℕ}
    {f : Controller → Controller}
    (hPlaced : Placed s loose)
    (hReports : ∀ c, s.controllers[i]? = some c →
      ∃ new, c.Reports (f c) new) :
    Placed (s.modify i f) loose := by
  have hGet : ∀ (j : ℕ) c',
      (s.modify i f).controllers[j]? = some c' →
        ∃ c, s.controllers[j]? = some c ∧
          c'.peerId = c.peerId ∧
          c'.isClosed = c.isClosed ∧
          (c.Rests → c'.Rests) := by
    intro j c' hGet'
    rw [get_modify, Option.map_eq_some_iff] at hGet'
    rcases hGet' with ⟨c, hGet, rfl⟩
    refine ⟨c, hGet, ?_⟩
    split
    case isTrue hSame =>
      subst hSame
      rcases hReports c hGet with ⟨new, hCall⟩
      exact ⟨hCall.peerId, hCall.isClosed, hCall.rests⟩
    case isFalse hOther => exact ⟨rfl, rfl, id⟩
  have hStill : ∀ (j : ℕ) c,
      s.controllers[j]? = some c →
        ∃ c', (s.modify i f).controllers[j]? = some c' := by
    intro j c hGet
    rw [get_modify, hGet]
    exact ⟨_, rfl⟩
  have hFound : ∀ (j : ℕ) peerId,
      (∃ c, s.controllers[j]? = some c ∧
        c.peerId = peerId ∧ c.isClosed = false) →
      ∃ c', (s.modify i f).controllers[j]? = some c' ∧
        c'.peerId = peerId ∧ c'.isClosed = false := by
    rintro j peerId ⟨c, hAt, hPeer, hOpen⟩
    rcases hStill j c hAt with ⟨c', hAt'⟩
    rcases hGet j c' hAt' with ⟨d, hD, hPeer', hOpen', -⟩
    rw [hAt] at hD
    cases hD
    exact ⟨c', hAt', hPeer'.trans hPeer,
      hOpen'.trans hOpen⟩
  refine ⟨?_, ?_, ?_, ?_, hPlaced.apart⟩
  · intro peerId j hFind
    exact hFound j peerId (hPlaced.registered peerId j hFind)
  · intro j c' hAt' hOpen'
    rcases hGet j c' hAt' with ⟨c, hAt, hPeer, hClosed, -⟩
    rw [hPeer]
    exact hPlaced.own j c hAt (hClosed.symm.trans hOpen')
  · intro j c' hAt' hShut
    rcases hGet j c' hAt' with ⟨c, hAt, -, hClosed, hRests⟩
    exact hRests
      (hPlaced.rests j c hAt (hClosed.symm.trans hShut))
  · intro peerId j hMem
    rcases hPlaced.waiting peerId j hMem with ⟨hApart, hAt⟩
    exact ⟨hApart, hFound j peerId hAt⟩

/- One controller is closed and is nowhere to be found. -/
theorem placed_shut
    {s' : System}
    {loose' : List (String × ℕ)}
    {i : ℕ}
    {f : Controller → Controller}
    (hPlaced : Placed s loose)
    (hShuts : Controller.Shuts f)
    (hGet : ∀ j : ℕ, s'.controllers[j]? =
      (s.controllers[j]?).map
        (fun c => if i = j then f c else c))
    (hFind : ∀ peerId j, s'.find peerId = some j ↔
      s.find peerId = some j ∧ j ≠ i)
    (hLoose : ∀ entry, entry ∈ loose' ↔
      entry ∈ loose ∧ entry.2 ≠ i)
    (hApart : (loose'.map Prod.snd).Nodup) :
    Placed s' loose' := by
  have hOther : ∀ j : ℕ, j ≠ i →
      s'.controllers[j]? = s.controllers[j]? := by
    intro j hNe
    rw [hGet j]
    simp only [if_neg (Ne.symm hNe), Option.map_id']
  have hSelf : ∀ c', s'.controllers[i]? = some c' →
      c'.isClosed = true ∧ c'.Rests := by
    intro c' hAt
    rw [hGet i, Option.map_eq_some_iff] at hAt
    rcases hAt with ⟨c, -, rfl⟩
    rw [if_pos rfl]
    exact ⟨hShuts.isClosed c, hShuts.rests c⟩
  refine ⟨?_, ?_, ?_, ?_, hApart⟩
  · intro peerId j hFind'
    rcases (hFind peerId j).mp hFind' with ⟨hBefore, hNe⟩
    rw [hOther j hNe]
    exact hPlaced.registered peerId j hBefore
  · intro j c hAt hOpen
    have hNe : j ≠ i := by
      rintro rfl
      rw [(hSelf c hAt).1] at hOpen
      cases hOpen
    rw [hOther j hNe] at hAt
    rw [hFind, hLoose]
    rcases hPlaced.own j c hAt hOpen with hIn | hIn
    · exact Or.inl ⟨hIn, hNe⟩
    · exact Or.inr ⟨hIn, hNe⟩
  · intro j c hAt hShut
    by_cases hSame : j = i
    · subst hSame
      exact (hSelf c hAt).2
    · rw [hOther j hSame] at hAt
      exact hPlaced.rests j c hAt hShut
  · intro peerId j hMem
    rcases (hLoose _).mp hMem with ⟨hBefore, hNe⟩
    rcases hPlaced.waiting peerId j hBefore with
      ⟨hApart', hThere⟩
    rw [hOther j hNe]
    refine ⟨?_, hThere⟩
    intro hFind'
    exact hApart' ((hFind peerId j).mp hFind').1

/- The peer of a registered controller is closed and left. -/
theorem placed_leave
    {peerId : String}
    {i : ℕ}
    {f : Controller → Controller}
    (hPlaced : Placed s loose)
    (hShuts : Controller.Shuts f)
    (hFind : s.find peerId = some i) :
    Placed ((s.modify i f).remove peerId) loose := by
  rcases hPlaced.registered peerId i hFind with
    ⟨c, hAt, hPeer, -⟩
  refine placed_shut hPlaced hShuts
    (fun j => get_modify s i j f) ?_ ?_ hPlaced.apart
  · intro other j
    by_cases hSame : other = peerId
    · subst hSame
      refine iff_of_false ?_ ?_
      · intro hFind'
        have hGone : ((s.modify i f).remove other).find
            other = none := AList.lookup_erase _ s.registry
        rw [hGone] at hFind'
        cases hFind'
      · rintro ⟨hThere, hNe⟩
        rw [hFind] at hThere
        exact hNe (Option.some.inj hThere).symm
    · have hKept : ((s.modify i f).remove peerId).find other =
          s.find other := AList.lookup_erase_ne hSame
      rw [hKept]
      refine ⟨fun hThere => ⟨hThere, ?_⟩, And.left⟩
      rintro rfl
      rcases hPlaced.registered other j hThere with
        ⟨d, hAt', hPeer', -⟩
      rw [hAt] at hAt'
      cases hAt'
      exact hSame (hPeer'.symm.trans hPeer)
  · rintro ⟨other, j⟩
    refine ⟨fun hMem => ⟨hMem, ?_⟩, And.left⟩
    rintro rfl
    rcases hPlaced.waiting other _ hMem with
      ⟨hApart, d, hAt', hPeer', -⟩
    rw [hAt] at hAt'
    cases hAt'
    rw [← hPeer', hPeer] at hApart
    exact hApart hFind

/- A controller that is in nobody's place is closed. -/
theorem placed_drop
    {peerId : String}
    {i : ℕ}
    (hPlaced : Placed s ((peerId, i) :: loose)) :
    Placed (s.modify i .close) loose := by
  rcases hPlaced.waiting peerId i List.mem_cons_self with
    ⟨hApart, c, hAt, hPeer, -⟩
  have hNodup := hPlaced.apart
  rw [List.map_cons, List.nodup_cons] at hNodup
  refine placed_shut hPlaced shuts_close
    (fun j => get_modify s i j _) ?_ ?_ hNodup.2
  · intro other j
    refine ⟨fun hFind => ⟨hFind, ?_⟩, And.left⟩
    rintro rfl
    rcases hPlaced.registered other j hFind with
      ⟨d, hAt', hPeer', -⟩
    rw [hAt] at hAt'
    cases hAt'
    rw [← hPeer', hPeer] at hFind
    exact hApart hFind
  · rintro ⟨other, j⟩
    constructor
    · intro hMem
      refine ⟨List.mem_cons_of_mem _ hMem, ?_⟩
      rintro rfl
      exact hNodup.1 (List.mem_map.mpr ⟨_, hMem, rfl⟩)
    · rintro ⟨hMem, hNe⟩
      rcases List.mem_cons.mp hMem with hHead | hMem
      · cases hHead
        exact absurd rfl hNe
      · exact hMem

/- A new controller is loose. -/
theorem placed_make
    {c : Controller}
    (hPlaced : Placed s loose)
    (hOpen : c.isClosed = false) :
    Placed (s.make c).2
      (loose ++ [(c.peerId, (s.make c).1)]) := by
  have hNew : (s.make c).2.controllers[s.controllers.length]? =
      some c := List.getElem?_concat_length
  have hOld : ∀ j : ℕ, j < s.controllers.length →
      (s.make c).2.controllers[j]? = s.controllers[j]? :=
    fun j hLess => List.getElem?_append_left hLess
  have hBelow : ∀ (j : ℕ) d, s.controllers[j]? = some d →
      j < s.controllers.length := by
    intro j d hAt
    exact (List.getElem?_eq_some_iff.mp hAt).1
  have hEither : ∀ (j : ℕ) d,
      (s.make c).2.controllers[j]? = some d →
        s.controllers[j]? = some d ∨
          (j = s.controllers.length ∧ d = c) := by
    intro j d hAt
    have hLess := (List.getElem?_eq_some_iff.mp hAt).1
    by_cases hSame : j = s.controllers.length
    · rw [hSame, hNew] at hAt
      exact Or.inr ⟨hSame, (Option.some.inj hAt).symm⟩
    · have hLength : (s.make c).2.controllers.length =
          s.controllers.length + 1 := List.length_append
      rw [hOld j (by omega)] at hAt
      exact Or.inl hAt
  refine ⟨?_, ?_, ?_, ?_, ?_⟩
  · intro peerId j hFind
    rcases hPlaced.registered peerId j hFind with
      ⟨d, hAt, hThere⟩
    rw [hOld j (hBelow j d hAt)]
    exact ⟨d, hAt, hThere⟩
  · intro j d hAt hOpen'
    rcases hEither j d hAt with hBefore | ⟨rfl, rfl⟩
    · rcases hPlaced.own j d hBefore hOpen' with hIn | hIn
      · exact Or.inl hIn
      · exact Or.inr (List.mem_append_left _ hIn)
    · exact Or.inr
        (List.mem_append_right _ List.mem_cons_self)
  · intro j d hAt hShut
    rcases hEither j d hAt with hBefore | ⟨-, rfl⟩
    · exact hPlaced.rests j d hBefore hShut
    · rw [hOpen] at hShut
      cases hShut
  · intro peerId j hMem
    rcases List.mem_append.mp hMem with hMem | hMem
    · rcases hPlaced.waiting peerId j hMem with
        ⟨hApart, d, hAt, hThere⟩
      rw [hOld j (hBelow j d hAt)]
      exact ⟨hApart, d, hAt, hThere⟩
    · cases List.mem_singleton.mp hMem
      refine ⟨?_, c, hNew, rfl, hOpen⟩
      intro hFind
      rcases hPlaced.registered _ _ hFind with ⟨d, hAt, -⟩
      exact Nat.lt_irrefl _ (hBelow _ d hAt)
  · rw [List.map_append, List.nodup_append]
    refine ⟨hPlaced.apart, List.nodup_singleton _, ?_⟩
    intro j hMem k hMem' hSame
    rcases List.mem_map.mp hMem with ⟨⟨peerId, j'⟩, hIn, rfl⟩
    cases List.mem_singleton.mp hMem'
    rcases hPlaced.waiting peerId j' hIn with ⟨-, d, hAt, -⟩
    exact Nat.ne_of_lt (hBelow j' d hAt) hSame

/- A loose controller is put in where there is none. -/
theorem placed_insert
    {peerId : String}
    {i : ℕ}
    (hPlaced : Placed s ((peerId, i) :: loose))
    (hFree : s.find peerId = none) :
    Placed { s with registry := s.registry.insert peerId i }
      loose := by
  rcases hPlaced.waiting peerId i List.mem_cons_self with
    ⟨-, c, hAt, hPeer, hOpen⟩
  have hNodup := hPlaced.apart
  rw [List.map_cons, List.nodup_cons] at hNodup
  have hSelf : (s.registry.insert peerId i).lookup peerId =
      some i := AList.lookup_insert s.registry
  have hOther : ∀ other, other ≠ peerId →
      (s.registry.insert peerId i).lookup other =
        s.find other :=
    fun other hNe => AList.lookup_insert_ne hNe
  refine ⟨?_, ?_, hPlaced.rests, ?_, hNodup.2⟩
  · intro other j hFind
    by_cases hSame : other = peerId
    · subst hSame
      cases hSelf.symm.trans hFind
      exact ⟨c, hAt, hPeer, hOpen⟩
    · exact hPlaced.registered other j
        ((hOther other hSame).symm.trans hFind)
  · intro j d hAt' hOpen'
    rcases hPlaced.own j d hAt' hOpen' with hIn | hIn
    · refine Or.inl ((hOther _ ?_).trans hIn)
      intro hSame
      rw [hSame, hFree] at hIn
      cases hIn
    · rcases List.mem_cons.mp hIn with hHead | hIn
      · cases hHead
        exact Or.inl hSelf
      · exact Or.inr hIn
  · intro other j hMem
    rcases hPlaced.waiting other j
      (List.mem_cons_of_mem _ hMem) with ⟨hApart, hThere⟩
    refine ⟨?_, hThere⟩
    intro hFind
    by_cases hSame : other = peerId
    · subst hSame
      cases hSelf.symm.trans hFind
      exact hNodup.1 (List.mem_map.mpr ⟨_, hMem, rfl⟩)
    · exact hApart ((hOther other hSame).symm.trans hFind)

end Moves

------------------------------------------------------------
-- What Each Operation Does
------------------------------------------------------------

section Operations

variable
  {s : System}
  {loose : List (String × ℕ)}

/- Only the controllers and the registry count. -/
theorem placed_congr
    {s' : System}
    (hPlaced : Placed s loose)
    (hControllers : s'.controllers = s.controllers)
    (hRegistry : s'.registry = s.registry) :
    Placed s' loose := by
  have hFind : ∀ peerId, s'.find peerId = s.find peerId := by
    intro peerId
    unfold System.find
    rw [hRegistry]
  refine ⟨?_, ?_, ?_, ?_, hPlaced.apart⟩
  · intro peerId i
    rw [hFind, hControllers]
    exact hPlaced.registered peerId i
  · intro i c
    rw [hFind, hControllers]
    exact hPlaced.own i c
  · intro i c
    rw [hControllers]
    exact hPlaced.rests i c
  · intro peerId i
    rw [hFind, hControllers]
    exact hPlaced.waiting peerId i

theorem placed_tryReuseOrEvict
    (peerId : String)
    (force : Bool)
    (hPlaced : Placed s loose) :
    Placed (s.tryReuseOrEvict peerId force).2 loose := by
  unfold System.tryReuseOrEvict
  cases hFind : s.find peerId with
  | none => exact hPlaced
  | some i =>
      dsimp only
      split
      · exact hPlaced
      · exact placed_leave hPlaced shuts_close hFind

theorem placed_choosePeers
    (selfId : String)
    (force : Bool)
    (peers : List String)
    (hPlaced : Placed s loose) :
    Placed (choosePeers selfId force peers s).2 loose := by
  induction peers generalizing s with
  | nil => exact hPlaced
  | cons peerId peers ih =>
      have hNext :=
        placed_tryReuseOrEvict peerId force hPlaced
      unfold choosePeers
      split
      · exact ih hPlaced
      · revert hNext
        rcases s.tryReuseOrEvict peerId force with
          ⟨leave, next⟩
        intro hNext
        cases leave with
        | true => exact ih hNext
        | false => exact ih hNext

theorem placed_createPeers
    (selfId : String)
    (peers : List (String × Bool))
    (hPlaced : Placed s loose) :
    Placed (createPeers selfId peers s).2
      (loose ++ (createPeers selfId peers s).1) := by
  induction peers generalizing s loose with
  | nil =>
      unfold createPeers
      rw [List.append_nil]
      exact hPlaced
  | cons peer peers ih =>
      rcases peer with ⟨peerId, created⟩
      cases created with
      | false => exact ih hPlaced
      | true =>
          have hMade := ih (placed_make
            (c := .create selfId peerId) hPlaced rfl)
          rw [List.append_assoc] at hMade
          exact hMade

theorem placed_offerOrWait
    (i : ℕ)
    (now : ℤ)
    (hPlaced : Placed s loose) :
    Placed (offerOrWait i now s) loose := by
  unfold offerOrWait
  split
  case isTrue =>
    apply placed_modify hPlaced
    intro c _
    exact ⟨_, c.reports_initiateConnection now⟩
  case isFalse => exact placed_congr hPlaced rfl rfl

theorem placed_addPeer
    (now : ℤ)
    {fresh : String × ℕ}
    (hPlaced : Placed s (fresh :: loose)) :
    Placed (addPeer now s fresh) loose := by
  unfold addPeer System.tryAdd
  cases hFind : s.find fresh.1 with
  | some i => exact placed_drop hPlaced
  | none =>
      exact placed_offerOrWait fresh.2 now
        (placed_insert hPlaced hFind)

theorem placed_addPeers
    (now : ℤ)
    {fresh : List (String × ℕ)}
    (hPlaced : Placed s fresh) :
    Placed (fresh.foldl (addPeer now) s) [] := by
  induction fresh generalizing s with
  | nil => exact hPlaced
  | cons first fresh ih =>
      exact ih (placed_addPeer now hPlaced)

theorem placed_connectToPeers
    (peers : List String)
    (force : Bool)
    (created : ℕ → Bool)
    (now : ℤ)
    (hPlaced : Placed s []) :
    Placed (connectToPeers peers force created now s) [] := by
  unfold connectToPeers
  cases s.selfId with
  | none => exact hPlaced
  | some selfId =>
      dsimp only
      split
      · exact hPlaced
      · apply placed_addPeers
        exact placed_createPeers selfId _
          (placed_choosePeers selfId force peers hPlaced)

theorem placed_handlePeerStateChanged
    (peerId : String)
    (state : PeerState)
    (sessionId : ℕ)
    (hPlaced : Placed s loose) :
    Placed (handlePeerStateChanged peerId state sessionId s)
      loose := by
  unfold handlePeerStateChanged
  split
  · cases s.find peerId with
    | none => exact hPlaced
    | some i =>
        apply placed_congr (s := s.modify i (fun c =>
          { c with syncSessionId := sessionId }))
        · apply placed_modify hPlaced
          intro c _
          exact ⟨[], c.reports_syncSessionId sessionId⟩
        · rfl
        · rfl
  · exact hPlaced

theorem placed_withCallback
    {i : ℕ}
    {f : Controller → Controller}
    (sessionId : ℕ)
    (hPlaced : Placed s loose)
    (hReports : ∀ c, s.controllers[i]? = some c →
      ∃ new, c.Reports (f c) new) :
    Placed (withCallback i f sessionId s) loose := by
  unfold withCallback
  cases hAt : s.controllers[i]? with
  | none => exact hPlaced
  | some c =>
      dsimp only
      have hNow := placed_modify hPlaced hReports
      revert hNow
      generalize s.modify i f = next
      generalize (f c).stateChanges.drop
        c.stateChanges.length = states
      induction states generalizing next with
      | nil => exact id
      | cons state states ih =>
          intro hNow
          exact ih _ (placed_handlePeerStateChanged
            c.peerId state sessionId hNow)

theorem placed_onLanPeerFound
    (deviceId : String)
    (kcpPort : ℕ)
    (created : Bool)
    (now : ℤ)
    (sessionId : ℕ)
    (hPlaced : Placed s []) :
    Placed (onLanPeerFound deviceId kcpPort created now
      sessionId s) [] := by
  unfold onLanPeerFound
  split
  · exact hPlaced
  · split
    · exact hPlaced
    · split
      · dsimp only
        have hMade := placed_make
          (c := .createLanDirect deviceId) hPlaced rfl
        unfold System.tryAdd
        cases hFind : (s.make
          (.createLanDirect deviceId)).2.find deviceId with
        | some i => exact placed_drop hMade
        | none =>
            apply placed_withCallback sessionId
              (placed_insert hMade hFind)
            intro c _
            exact ⟨_, c.reports_initiateConnection now⟩
      · exact placed_addPeer now
          (placed_make (c := .create (lanSelfId s) deviceId)
            hPlaced rfl)

theorem placed_withSignals
    {i : ℕ}
    {told : IceConnection → IceConnection}
    (hPlaced : Placed s loose)
    (hClosed : ∀ ice, (told ice).closed = ice.closed)
    (hRests : ∀ ice, ice.ice = none →
      (told ice).ice = none ∧
        (told ice).state = ice.state)
    (hChanges : ∀ ice,
      (told ice).stateChanges = ice.stateChanges) :
    Placed (withSignals i told s) loose := by
  unfold withSignals
  cases s.controllers[i]? with
  | none => exact hPlaced
  | some c =>
      have hNow := placed_modify (i := i) hPlaced
        (fun c _ => ⟨[], Controller.reports_nothing
          hClosed hRests hChanges c⟩)
      dsimp only
      split
      · exact placed_congr hNow rfl rfl
      · exact hNow

/- Each of the registered controllers is closed. -/
theorem get_closed
    (controllers : List Controller)
    (all : List ℕ)
    (j : ℕ) :
    (all.foldl (fun controllers i =>
        controllers.modify i .close) controllers)[j]? =
      (controllers[j]?).map
        (fun c => if j ∈ all then c.close else c) := by
  induction all generalizing controllers with
  | nil => exact Option.map_id'.symm
  | cons i all ih =>
      rw [List.foldl_cons, ih, List.getElem?_modify,
        Option.map_eq_map, Option.map_map]
      refine congrArg (Option.map · _) (funext fun c => ?_)
      by_cases hSame : i = j
      · subst hSame
        by_cases hMem : i ∈ all
        · simp [hMem, Controller.close_close]
        · simp [hMem]
      · simp [hSame, Ne.symm hSame]

theorem get_closeAll
    (s : System)
    (j : ℕ) :
    s.closeAll.controllers[j]? =
      (s.controllers[j]?).map (fun c =>
        if j ∈ s.registry.entries.map Sigma.snd then c.close
        else c) :=
  get_closed s.controllers _ j

theorem placed_closeAll
    (hPlaced : Placed s []) :
    Placed s.closeAll [] := by
  have hGone : ∀ peerId, s.closeAll.find peerId = none :=
    fun peerId => AList.lookup_empty peerId
  refine ⟨?_, ?_, ?_, ?_, List.nodup_nil⟩
  · intro peerId i hFind
    rw [hGone] at hFind
    cases hFind
  · intro i c hAt hOpen
    rw [get_closeAll, Option.map_eq_some_iff] at hAt
    rcases hAt with ⟨d, hAt, rfl⟩
    split at hOpen
    · rw [Controller.isClosed_close] at hOpen
      cases hOpen
    case isFalse hAway =>
      rcases hPlaced.own i d hAt hOpen with hIn | hIn
      · have hEntry : ⟨d.peerId, i⟩ ∈ s.registry.entries :=
          AList.mem_lookup_iff.mp hIn
        exact absurd (List.mem_map.mpr ⟨_, hEntry, rfl⟩) hAway
      · exact absurd hIn List.not_mem_nil
  · intro i c hAt hShut
    rw [get_closeAll, Option.map_eq_some_iff] at hAt
    rcases hAt with ⟨d, hAt, rfl⟩
    split
    · exact Controller.rests_close d
    case isFalse hAway =>
      rw [if_neg hAway] at hShut
      exact hPlaced.rests i d hAt hShut
  · intro peerId i hMem
    exact absurd hMem List.not_mem_nil

end Operations

/- The controllers stay in their places. -/
theorem placed_step
    {s s' : System}
    {e : Event}
    (hPlaced : Placed s [])
    (hStep : step s e = some s') :
    Placed s' [] := by
  rcases step_eq_some_iff.mp hStep with ⟨-, hStep⟩
  cases e with
  | selfId id =>
      cases hStep
      exact placed_congr hPlaced rfl rfl
  | connectToPeers peers force created now =>
      cases hStep
      exact placed_connectToPeers peers force created now
        hPlaced
  | peerLeave peerId =>
      cases hStep
      unfold handlePeerLeave
      cases hFind : s.find peerId with
      | none => exact hPlaced
      | some i =>
          exact placed_congr
            (placed_leave hPlaced shuts_close hFind) rfl rfl
  | signal fromId signalType payload =>
      cases hStep
      unfold handleSignalingMessage
      cases s.find fromId with
      | none => exact hPlaced
      | some i =>
          apply placed_modify hPlaced
          intro c _
          exact ⟨[],
            c.reports_handleSignaling signalType payload⟩
  | lanFound deviceId kcpPort created now sessionId =>
      cases hStep
      exact placed_onLanPeerFound deviceId kcpPort created
        now sessionId hPlaced
  | lanLost deviceId =>
      cases hStep
      unfold handlePeerLeave
      cases hFind : s.find deviceId with
      | none => exact hPlaced
      | some i =>
          exact placed_congr
            (placed_leave hPlaced shuts_close hFind) rfl rfl
  | goodbye peerId =>
      cases hStep
      unfold handleGoodbye
      cases hFind : s.find peerId with
      | none => exact hPlaced
      | some i =>
          exact placed_congr
            (placed_leave hPlaced shuts_goodbye hFind) rfl rfl
  | iceState i state now sessionId =>
      cases hStep
      apply placed_withCallback sessionId hPlaced
      intro c _
      exact ⟨_, c.reports_iceState state now⟩
  | localCandidate i candidate =>
      cases hStep
      exact placed_withSignals hPlaced
        (fun _ => rfl) (fun _ hNone => ⟨hNone, rfl⟩)
        (fun _ => rfl)
  | gatheringDone i localDesc =>
      cases hStep
      exact placed_withSignals hPlaced
        (fun _ => rfl) (fun _ hNone => ⟨hNone, rfl⟩)
        (fun _ => rfl)
  | answerTimeout i =>
      simp only [handle] at hStep
      split at hStep
      · cases hStep
        exact placed_congr hPlaced rfl rfl
      · cases hStep
  | closeAll =>
      cases hStep
      exact placed_closeAll hPlaced

end Connections

end VeritasSync
