import VeritasSync.Tracker.Session

/-
  The tables of the tracker and the sessions that are
  registered.

  Main declarations:
    * `Tracker.Coherent`, `Tracker.Careful`
    * `Tracker.step_cases`, `Tracker.sound_of_step`
    * `Tracker.coherent_of_run`
-/

namespace VeritasSync

------------------------------------------------------------
-- The Tables After One Operation
------------------------------------------------------------

namespace TrackerServer

variable
  (t : TrackerServer)
  (session peer : SessionRef)
  (syncKey key id : String)

/- Who a newcomer with this id replaces. -/
theorem replaceOld_cases :
    ((∀ old, t.peersById.lookup id = some old →
        old = session) ∧
      t.replaceOld session syncKey id = t) ∨
    ∃ old, t.peersById.lookup id = some old ∧
      old ≠ session ∧
      t.replaceOld session syncKey id =
        { t.sendAll (t.othersIn syncKey id)
            (.peerLeave id) with
          peerGroups := t.peerGroups.insert syncKey
            ((t.peerSet syncKey).filter
              (fun peer => peer != old))
          peersById := t.peersById.erase id } := by
  unfold replaceOld
  split
  next hNone =>
    left
    refine ⟨?_, rfl⟩
    intro old hOld
    rw [hNone] at hOld
    cases hOld
  next old hOld =>
    split
    next hSame =>
      left
      refine ⟨?_, rfl⟩
      intro other hOther
      rw [hOld] at hOther
      exact (Option.some.inj hOther).symm.trans hSame
    next hOther =>
      exact Or.inr ⟨old, hOld, hOther, rfl⟩

@[simp] theorem sessions_replaceOld :
    (t.replaceOld session syncKey id).sessions =
      t.sessions := by
  rcases t.replaceOld_cases session syncKey id with
    ⟨-, hEq⟩ | ⟨old, -, -, hEq⟩
  · rw [hEq]
  · rw [hEq]
    rfl

@[simp] theorem sessions_join :
    (t.join session syncKey).sessions = t.sessions :=
  t.sessions_replaceOld session syncKey (t.getId session)

theorem lookup_join :
    (t.join session syncKey).peersById.lookup id =
      if id = t.getId session then
        some session
      else
        t.peersById.lookup id := by
  unfold join enter
  dsimp only
  split
  next hSame =>
    subst hSame
    exact AList.lookup_insert _
  next hOther =>
    refine (AList.lookup_insert_ne hOther).trans ?_
    rcases t.replaceOld_cases session syncKey
      (t.getId session) with ⟨-, hEq⟩ | ⟨old, -, -, hEq⟩
    · rw [hEq]
      rfl
    · rw [hEq]
      exact AList.lookup_erase_ne hOther

theorem peerSet_insert
    (groups : AList (fun _ : String => List SessionRef))
    (peers : List SessionRef) :
    ((groups.insert syncKey peers).lookup key).getD [] =
      if key = syncKey then
        peers
      else
        (groups.lookup key).getD [] := by
  split
  next hSame =>
    rw [hSame, AList.lookup_insert]
    rfl
  next hOther =>
    rw [AList.lookup_insert_ne hOther]

theorem mem_peerSet_replaceOld :
    peer ∈ (t.replaceOld session syncKey id).peerSet key ↔
      peer ∈ t.peerSet key ∧
        ¬ (key = syncKey ∧ peer ≠ session ∧
          t.peersById.lookup id = some peer) := by
  rcases t.replaceOld_cases session syncKey id with
    ⟨hNone, hEq⟩ | ⟨old, hOld, hOther, hEq⟩
  · rw [hEq, iff_self_and]
    rintro - ⟨-, hPeer, hLookup⟩
    exact hPeer (hNone peer hLookup)
  · rw [hEq, hOld]
    unfold peerSet
    dsimp only
    rw [peerSet_insert]
    split
    next hKey =>
      rw [hKey, List.mem_filter]
      apply and_congr_right
      intro _
      rw [bne_iff_ne, Option.some_inj]
      constructor
      · rintro hDiffers ⟨-, -, hSame⟩
        exact hDiffers hSame.symm
      · rintro hNot hSame
        exact hNot ⟨rfl, hSame ▸ hOther, hSame.symm⟩
    next hKey =>
      rw [iff_self_and]
      exact fun _ hBoth => hKey hBoth.1

theorem mem_peerSet_join :
    peer ∈ (t.join session syncKey).peerSet key ↔
      (peer = session ∧ key = syncKey) ∨
        peer ∈ t.peerSet key ∧
          ¬ (key = syncKey ∧ peer ≠ session ∧
            t.peersById.lookup (t.getId session) =
              some peer) := by
  rw [← mem_peerSet_replaceOld]
  unfold join enter
  dsimp only
  generalize t.replaceOld session syncKey
    (t.getId session) = r
  unfold peerSet
  dsimp only
  rw [peerSet_insert]
  split
  next hKey =>
    subst hKey
    rw [List.mem_insert_iff, and_iff_left rfl]
    rfl
  next hKey =>
    rw [or_iff_right (fun hBoth => hKey hBoth.2)]
    rfl

@[simp] theorem sessions_leave :
    (t.leave session).sessions = t.sessions := by
  unfold leave
  dsimp only
  split
  · rfl
  · split <;> rfl

theorem lookup_leave
    (hKey : t.getSyncKey session ≠ "") :
    (t.leave session).peersById.lookup id =
      if id = t.getId session then
        none
      else
        t.peersById.lookup id := by
  have hErase : (t.peersById.erase
        (t.getId session)).lookup id =
      if id = t.getId session then
        none
      else
        t.peersById.lookup id := by
    split
    next hSame =>
      rw [hSame]
      exact AList.lookup_erase _ _
    next hOther => exact AList.lookup_erase_ne hOther
  unfold leave
  dsimp only
  rw [if_neg hKey]
  split <;> exact hErase

theorem mem_peerSet_leave
    (hKey : t.getSyncKey session ≠ "") :
    peer ∈ (t.leave session).peerSet key ↔
      peer ∈ t.peerSet key ∧
        ¬ (key = t.getSyncKey session ∧
          peer = session) := by
  unfold leave
  dsimp only
  rw [if_neg hKey]
  split
  next hNone =>
    refine iff_self_and.mpr ?_
    rintro hIn ⟨rfl, -⟩
    unfold peerSet at hIn
    rw [hNone] at hIn
    cases hIn
  next peers hPeers =>
    have hRest : ((if (peers.filter
          (fun peer => peer != session)).isEmpty then
            t.peerGroups.erase (t.getSyncKey session)
          else
            t.peerGroups.insert (t.getSyncKey session)
              (peers.filter
                (fun peer => peer != session))).lookup
            key).getD [] =
        if key = t.getSyncKey session then
          peers.filter (fun peer => peer != session)
        else
          t.peerSet key := by
      split
      next hEmpty =>
        split
        next hSame =>
          rw [hSame, AList.lookup_erase]
          exact (List.isEmpty_iff.mp hEmpty).symm
        next hOther =>
          rw [AList.lookup_erase_ne hOther]
          rfl
      next => exact peerSet_insert _ _ _ _
    unfold peerSet at hRest ⊢
    unfold sendAll
    dsimp only at hRest ⊢
    rw [hRest]
    split
    next hSame =>
      rw [hSame, hPeers, Option.getD_some, List.mem_filter,
        bne_iff_ne]
      simp
    next hOther =>
      rw [iff_self_and]
      exact fun _ hBoth => hOther hBoth.1

end TrackerServer

------------------------------------------------------------
-- What A Registration Does
------------------------------------------------------------

namespace Tracker

/- The session with the id and the key it registers. -/
def named
    (session : SessionRef)
    (own : Registration)
    (t : TrackerServer) : TrackerServer :=
  { t with
    sessions := Function.update t.sessions session
      { t.sessions session with
        id := own.id
        syncKey := own.syncKey } }

/- The session with another key, and nothing else. -/
def keyed
    (session : SessionRef)
    (syncKey : String)
    (t : TrackerServer) : TrackerServer :=
  { t with
    sessions := Function.update t.sessions session
      { t.sessions session with syncKey := syncKey } }

theorem keyed_self
    (session : SessionRef)
    (t : TrackerServer) :
    keyed session (t.sessions session).syncKey t = t := by
  unfold keyed
  dsimp only
  rw [Function.update_eq_self]

/- A registration that fails at most stores its key. -/
theorem handleRegister_cases
    (payload : Json)
    (session : SessionRef)
    (t : TrackerServer) :
    (∃ own, accepted? payload = some own ∧
      own.syncKey ≠ "" ∧
      Session.handleRegister payload session t =
        (named session own t).join session own.syncKey) ∨
      accepted? payload = none ∧
        ∃ syncKey,
          Session.handleRegister payload session t =
            keyed session syncKey t := by
  have hSame := (keyed_self session t).symm
  unfold Session.handleRegister accepted?
  cases payload.strAt? "sync_key" with
  | none => exact Or.inr ⟨rfl, _, hSame⟩
  | some syncKey =>
      dsimp only
      by_cases hValid :
          Config.getSyncKeyValidationError syncKey = ""
      · rw [if_neg (not_not.mpr hValid)]
        have hKey : Config.isValidSyncKey syncKey = true :=
          beq_iff_eq.mpr hValid
        cases payload.strAt? "device_id" with
        | none => exact Or.inr ⟨rfl, _, rfl⟩
        | some deviceId =>
            dsimp only
            rw [hKey, Bool.true_and]
            by_cases hId : deviceId = ""
            · rw [if_pos hId, if_neg (by simp [hId])]
              exact Or.inr ⟨rfl, _, rfl⟩
            · rw [if_neg hId, if_pos (bne_iff_ne.mpr hId)]
              left
              refine ⟨_, rfl,
                Config.ne_empty_of_isValidSyncKey hKey, ?_⟩
              rw [Function.update_idem,
                Function.update_self]
              rfl
      · rw [if_pos hValid]
        right
        refine ⟨?_, _, rfl⟩
        cases payload.strAt? "device_id" with
        | none => rfl
        | some deviceId =>
            have hNot : Config.isValidSyncKey syncKey =
                false := beq_eq_false_iff_ne.mpr hValid
            simp [hNot]

/- A message that registers nobody leaves the tables. -/
theorem handleMessage_cases
    (msg : Json)
    (session : SessionRef)
    (t : TrackerServer) :
    (∃ own, registration? msg = some own ∧
      own.syncKey ≠ "" ∧
      Session.handleMessage msg session t =
        (named session own t).join session own.syncKey) ∨
    registration? msg = none ∧
      ((∃ syncKey, Session.handleMessage msg session t =
          keyed session syncKey t) ∨
        ∃ toPeerId, signalTo? msg = some toPeerId ∧
          Session.handleMessage msg session t =
            t.forward toPeerId msg) := by
  have hSame := (keyed_self session t).symm
  unfold Session.handleMessage registration? signalTo?
  cases msg.strAt? "type" with
  | none => exact Or.inr ⟨rfl, Or.inl ⟨_, hSame⟩⟩
  | some type =>
      cases msg.find? "payload" with
      | none => exact Or.inr ⟨rfl, Or.inl ⟨_, hSame⟩⟩
      | some payload =>
          dsimp only
          by_cases hRegister : type = "REGISTER"
          · rw [if_pos hRegister, if_pos hRegister]
            rcases handleRegister_cases payload session t
              with hAccepted | ⟨hNone, hKeyed⟩
            · exact Or.inl hAccepted
            · exact Or.inr ⟨hNone, Or.inl hKeyed⟩
          · rw [if_neg hRegister, if_neg hRegister]
            right
            refine ⟨rfl, ?_⟩
            by_cases hSignal : type = "SIGNAL"
            · rw [if_pos hSignal, if_pos hSignal]
              unfold Session.handleSignal
              cases payload.strAt? "to" with
              | none => exact Or.inl ⟨_, hSame⟩
              | some toPeerId =>
                  dsimp only
                  by_cases hTo : toPeerId = ""
                  · rw [if_pos hTo]
                    exact Or.inl ⟨_, hSame⟩
                  · rw [if_neg hTo]
                    right
                    refine ⟨toPeerId, ?_, rfl⟩
                    rw [Option.filter_some, if_pos
                      (bne_iff_ne.mpr hTo)]
            · rw [if_neg hSignal]
              exact Or.inl ⟨_, hSame⟩

/- Everything one step can do. -/
theorem step_cases
    {sys sys' : System}
    {event : Event}
    (hStep : step sys event = some sys') :
    (∃ session, event = .accept session ∧
        (sys.server.sessions session).phase =
          .unaccepted ∧
        sys' = { sys with
          server := setPhase session .reading sys.server }) ∨
      (∃ session body, event = .frame session body ∧
        (sys.server.sessions session).phase = .reading ∧
        ((body = none ∧ sys' = sys) ∨
          (∃ msg own, body = some msg ∧
            registration? msg = some own ∧
            own.syncKey ≠ "" ∧
            sys' =
              { server := (named session own
                  sys.server).join session own.syncKey
                roster := sys.roster.register session
                  own }) ∨
          (∃ msg syncKey, body = some msg ∧
            registration? msg = none ∧
            sys' = { sys with
              server := keyed session syncKey
                sys.server }) ∨
          (∃ msg toPeerId, body = some msg ∧
            registration? msg = none ∧
            signalTo? msg = some toPeerId ∧
            sys' = { sys with
              server := sys.server.forward toPeerId
                msg }))) ∨
      (∃ session, event = .ended session ∧
        (sys.server.sessions session).phase = .reading ∧
        sys' =
          { server := setPhase session .ended
              (sys.server.leave session)
            roster := sys.roster.leave session }) := by
  cases event with
  | accept session =>
      simp only [step, acceptStep,
        Option.ite_none_right_eq_some, Option.some.injEq]
        at hStep
      exact Or.inl ⟨session, rfl, hStep.1, hStep.2.symm⟩
  | frame session body =>
      simp only [step, frameStep,
        Option.ite_none_right_eq_some] at hStep
      rcases hStep with ⟨hReading, hNext⟩
      refine Or.inr (Or.inl ⟨session, body, rfl, hReading,
        ?_⟩)
      cases body with
      | none =>
          exact Or.inl ⟨rfl, (Option.some.inj hNext).symm⟩
      | some msg =>
          refine Or.inr ?_
          rw [← Option.some.inj hNext]
          rcases handleMessage_cases msg session sys.server
            with ⟨own, hOwn, hKey, hServer⟩ |
              ⟨hNone, ⟨syncKey, hServer⟩ |
                ⟨toPeerId, hTo, hServer⟩⟩
          · rw [hServer, hOwn]
            exact Or.inl ⟨msg, own, rfl, hOwn, hKey, rfl⟩
          · rw [hServer, hNone]
            exact Or.inr (Or.inl ⟨msg, syncKey, rfl, hNone,
              rfl⟩)
          · rw [hServer, hNone]
            exact Or.inr (Or.inr ⟨msg, toPeerId, rfl, hNone,
              hTo, rfl⟩)
  | ended session =>
      simp only [step, endStep,
        Option.ite_none_right_eq_some, Option.some.injEq]
        at hStep
      exact Or.inr (Or.inr ⟨session, rfl, hStep.1,
        hStep.2.symm⟩)

------------------------------------------------------------
-- The Property
------------------------------------------------------------

/-
  The tables hold the registered sessions and no others, each
  under its id and in the group of its key.
-/
structure Coherent (sys : System) : Prop where
  named : ∀ session own, sys.roster session = some own →
    sys.server.getId session = own.id
  byId : ∀ id session,
    sys.server.peersById.lookup id = some session ↔
      ∃ own, sys.roster session = some own ∧ own.id = id
  member : ∀ session own,
    sys.roster session = some own →
    ∀ syncKey, session ∈ sys.server.peerSet syncKey ↔
      syncKey = own.syncKey
  gone : ∀ session, sys.roster session = none →
    (∀ id, sys.server.peersById.lookup id ≠ some session) ∧
      ∀ syncKey, session ∉ sys.server.peerSet syncKey

/-
  A registered session registers again only as before.  An
  id that is in use is reused only with the same key.  When
  the connection of a registered session ends, its stored
  key is the one that it is registered with.  When one ends
  that is not registered, nobody has its id.
-/
def Careful
    (sys : System) : Event → Prop
| .accept _ => True
| .frame session body =>
    ∀ msg own, body = some msg →
      registration? msg = some own →
      (∀ old, sys.roster session = some old → old = own) ∧
        ∀ other reg, sys.roster other = some reg →
          reg.id = own.id → reg.syncKey = own.syncKey
| .ended session =>
    (∀ own, sys.roster session = some own →
      sys.server.getSyncKey session = own.syncKey) ∧
      (sys.roster session = none →
        sys.server.getSyncKey session = "" ∨
          sys.server.peersById.lookup
            (sys.server.getId session) = none)

------------------------------------------------------------
-- What Holds Throughout A Run
------------------------------------------------------------

/- A key that someone is registered with is not empty. -/
structure Sound (sys : System) : Prop where
  ids : ∀ session own, sys.roster session = some own →
    sys.server.getId session = own.id
  keys : ∀ session own, sys.roster session = some own →
    own.syncKey ≠ ""
  byId : ∀ id session,
    sys.server.peersById.lookup id = some session ↔
      ∃ own, sys.roster session = some own ∧ own.id = id
  groups : ∀ syncKey session,
    session ∈ sys.server.peerSet syncKey ↔
      ∃ own, sys.roster session = some own ∧
        own.syncKey = syncKey

theorem Sound.coherent
    {sys : System}
    (hSound : Sound sys) :
    Coherent sys where
  named := hSound.ids
  byId := hSound.byId
  member session own hOwn syncKey := by
    rw [hSound.groups, hOwn]
    simp [eq_comm]
  gone session hNone := by
    constructor
    · intro id hLookup
      rcases (hSound.byId id session).mp hLookup with
        ⟨own, hOwn, -⟩
      rw [hNone] at hOwn
      cases hOwn
    · intro syncKey hIn
      rcases (hSound.groups syncKey session).mp hIn with
        ⟨own, hOwn, -⟩
      rw [hNone] at hOwn
      cases hOwn

theorem sound_start : Sound start where
  ids session own hOwn := by cases hOwn
  keys session own hOwn := by cases hOwn
  byId id session := by simp [start, TrackerServer.start]
  groups syncKey session := by
    simp [start, TrackerServer.start, TrackerServer.peerSet]

section Steps

variable
  {sys sys' : System}
  {session : SessionRef}

/- What leaves the tables and the ids leaves all that. -/
theorem Sound.congr
    (hSound : Sound sys)
    (hRoster : sys'.roster = sys.roster)
    (hIds : ∀ s, sys'.server.getId s = sys.server.getId s)
    (hTable : sys'.server.peersById =
      sys.server.peersById)
    (hGroups : sys'.server.peerGroups =
      sys.server.peerGroups) :
    Sound sys' where
  ids s own hOwn := by
    rw [hRoster] at hOwn
    rw [hIds]
    exact hSound.ids s own hOwn
  keys s own hOwn := by
    rw [hRoster] at hOwn
    exact hSound.keys s own hOwn
  byId := by
    rw [hRoster, hTable]
    exact hSound.byId
  groups := by
    unfold TrackerServer.peerSet
    rw [hRoster, hGroups]
    exact hSound.groups

/- Another field of a session does not matter to its id. -/
theorem getId_update
    {t : TrackerServer}
    {new : Session}
    (hId : new.id = (t.sessions session).id)
    (s : SessionRef) :
    (Function.update t.sessions session new s).id =
      t.getId s := by
  by_cases hSame : s = session
  · rw [hSame, Function.update_self, hId]
    rfl
  · rw [Function.update_of_ne hSame]
    rfl

theorem Roster.register_self
    (roster : Roster)
    (own : Registration) :
    roster.register session own session = some own :=
  if_pos rfl

theorem Roster.register_of_ne
    (roster : Roster)
    (own : Registration)
    {other : SessionRef}
    (hOther : other ≠ session) :
    roster.register session own other =
      (roster other).filter (fun reg => reg.id != own.id) :=
  if_neg hOther

/- The others that stay have another id. -/
theorem Roster.register_eq_some_iff
    {roster : Roster}
    {own reg : Registration}
    {other : SessionRef}
    (hOther : other ≠ session) :
    roster.register session own other = some reg ↔
      roster other = some reg ∧ reg.id ≠ own.id := by
  rw [Roster.register_of_ne roster own hOther,
    Option.filter_eq_some_iff, bne_iff_ne]

theorem getId_named
    (own : Registration)
    (t : TrackerServer) :
    (named session own t).getId session = own.id := by
  unfold named TrackerServer.getId
  dsimp only
  rw [Function.update_self]

theorem getId_named_of_ne
    (own : Registration)
    (t : TrackerServer)
    {other : SessionRef}
    (hOther : other ≠ session) :
    (named session own t).getId other = t.getId other := by
  unfold named TrackerServer.getId
  dsimp only
  rw [Function.update_of_ne hOther]

theorem getId_join
    (syncKey : String)
    (t : TrackerServer)
    (s : SessionRef) :
    (t.join session syncKey).getId s = t.getId s := by
  unfold TrackerServer.getId
  rw [TrackerServer.sessions_join]

/- The one registered is the only one with its id. -/
theorem Sound.lookup_register
    {own : Registration}
    (hSound : Sound sys)
    (hAgain : ∀ old, sys.roster session = some old →
      old = own)
    (id : String)
    (s : SessionRef) :
    ((named session own sys.server).join session
        own.syncKey).peersById.lookup id = some s ↔
      ∃ reg, sys.roster.register session own s = some reg ∧
        reg.id = id := by
  rw [TrackerServer.lookup_join, getId_named]
  have hOld := hSound.byId id s
  by_cases hId : id = own.id
  · rw [if_pos hId, Option.some_inj]
    constructor
    · rintro rfl
      exact ⟨own, Roster.register_self _ _, hId.symm⟩
    · rintro ⟨reg, hReg, hRegId⟩
      by_contra hSame
      rw [Roster.register_eq_some_iff
        (Ne.symm hSame)] at hReg
      exact hReg.2 (hRegId.trans hId)
  · rw [if_neg hId]
    refine hOld.trans ?_
    by_cases hSame : s = session
    · subst hSame
      rw [Roster.register_self]
      constructor
      · rintro ⟨reg, hReg, hRegId⟩
        rw [hAgain reg hReg] at hRegId
        exact absurd hRegId.symm hId
      · rintro ⟨reg, hReg, hRegId⟩
        cases hReg
        exact absurd hRegId.symm hId
    · simp only [Roster.register_eq_some_iff hSame]
      constructor
      · rintro ⟨reg, hReg, hRegId⟩
        exact ⟨reg, ⟨hReg, hRegId ▸ hId⟩, hRegId⟩
      · rintro ⟨reg, ⟨hReg, -⟩, hRegId⟩
        exact ⟨reg, hReg, hRegId⟩

/- The one registered is in its group, the replaced are not. -/
theorem Sound.mem_peerSet_register
    {own : Registration}
    (hSound : Sound sys)
    (hAgain : ∀ old, sys.roster session = some old →
      old = own)
    (hReused : ∀ other reg, sys.roster other = some reg →
      reg.id = own.id → reg.syncKey = own.syncKey)
    (syncKey : String)
    (s : SessionRef) :
    s ∈ ((named session own sys.server).join session
        own.syncKey).peerSet syncKey ↔
      ∃ reg, sys.roster.register session own s = some reg ∧
        reg.syncKey = syncKey := by
  rw [TrackerServer.mem_peerSet_join, getId_named]
  have hOld := hSound.groups syncKey s
  have hIds := hSound.byId own.id s
  by_cases hSame : s = session
  · subst hSame
    rw [Roster.register_self]
    constructor
    · rintro (⟨-, hKey⟩ | ⟨hIn, -⟩)
      · exact ⟨own, rfl, hKey.symm⟩
      · rcases hOld.mp hIn with ⟨reg, hReg, hRegKey⟩
        exact ⟨own, rfl, hAgain reg hReg ▸ hRegKey⟩
    · rintro ⟨reg, hReg, hRegKey⟩
      cases hReg
      exact Or.inl ⟨rfl, hRegKey.symm⟩
  · simp only [Roster.register_eq_some_iff hSame]
    rw [or_iff_right (fun hBoth => hSame hBoth.1)]
    constructor
    · rintro ⟨hIn, hStays⟩
      rcases hOld.mp hIn with ⟨reg, hReg, hRegKey⟩
      refine ⟨reg, ⟨hReg, ?_⟩, hRegKey⟩
      intro hId
      have hSameKey := hReused s reg hReg hId
      exact hStays ⟨hRegKey.symm.trans hSameKey, hSame,
        hIds.mpr ⟨reg, hReg, hId⟩⟩
    · rintro ⟨reg, ⟨hReg, hId⟩, hRegKey⟩
      refine ⟨hOld.mpr ⟨reg, hReg, hRegKey⟩, ?_⟩
      rintro ⟨-, -, hLookup⟩
      rcases hIds.mp hLookup with ⟨reg', hReg', hId'⟩
      rw [hReg] at hReg'
      cases hReg'
      exact hId hId'

/- Who registers takes the place of those with its id. -/
theorem Sound.register
    {own : Registration}
    (hSound : Sound sys)
    (hKey : own.syncKey ≠ "")
    (hAgain : ∀ old, sys.roster session = some old →
      old = own)
    (hReused : ∀ other reg, sys.roster other = some reg →
      reg.id = own.id → reg.syncKey = own.syncKey) :
    Sound
      { server := (named session own sys.server).join
          session own.syncKey
        roster := sys.roster.register session own } where
  ids s reg hReg := by
    refine (getId_join _ _ _).trans ?_
    dsimp only at hReg
    by_cases hSame : s = session
    · subst hSame
      rw [Roster.register_self] at hReg
      cases hReg
      exact getId_named own sys.server
    · rw [getId_named_of_ne own sys.server hSame]
      exact hSound.ids s reg
        ((Roster.register_eq_some_iff hSame).mp hReg).1
  keys s reg hReg := by
    dsimp only at hReg
    by_cases hSame : s = session
    · subst hSame
      rw [Roster.register_self] at hReg
      cases hReg
      exact hKey
    · exact hSound.keys s reg
        ((Roster.register_eq_some_iff hSame).mp hReg).1
  byId id s := hSound.lookup_register hAgain id s
  groups syncKey s :=
    hSound.mem_peerSet_register hAgain hReused syncKey s

/- Nobody else holds the id of a session that leaves. -/
theorem Sound.eq_of_holds
    {s : SessionRef}
    (hSound : Sound sys)
    (hUnused : sys.roster session = none →
      sys.server.getSyncKey session = "" ∨
        sys.server.peersById.lookup
          (sys.server.getId session) = none)
    (hKey : sys.server.getSyncKey session ≠ "")
    (hHolds : sys.server.peersById.lookup
      (sys.server.getId session) = some s) :
    s = session := by
  cases hOwn : sys.roster session with
  | none =>
      have hFree := (hUnused hOwn).resolve_left hKey
      rw [hFree] at hHolds
      cases hHolds
  | some own =>
      have hSelf := (hSound.byId _ session).mpr
        ⟨own, hOwn, (hSound.ids session own hOwn).symm⟩
      exact Option.some.inj (hHolds.symm.trans hSelf)

theorem Roster.leave_eq_some_iff
    {roster : Roster}
    {s : SessionRef}
    {own : Registration} :
    roster.leave session s = some own ↔
      s ≠ session ∧ roster s = some own := by
  unfold Roster.leave
  by_cases hSame : s = session
  · rw [hSame, Function.update_self]
    simp
  · rw [Function.update_of_ne hSame]
    exact (and_iff_right hSame).symm

/- A session without a key is not on the roster. -/
theorem Sound.leave_of_unkeyed
    (hSound : Sound sys)
    (hStored : ∀ own, sys.roster session = some own →
      sys.server.getSyncKey session = own.syncKey)
    (hKey : sys.server.getSyncKey session = "") :
    sys.roster.leave session = sys.roster := by
  have hNone : sys.roster session = none := by
    cases hOwn : sys.roster session with
    | none => rfl
    | some own =>
        have hEmpty := (hStored own hOwn).symm.trans hKey
        exact absurd hEmpty (hSound.keys session own hOwn)
  unfold Roster.leave
  rw [← hNone, Function.update_eq_self]

/- Who leaves is in the tables as registered, or not at all. -/
theorem Sound.leave
    (hSound : Sound sys)
    (hStored : ∀ own, sys.roster session = some own →
      sys.server.getSyncKey session = own.syncKey)
    (hUnused : sys.roster session = none →
      sys.server.getSyncKey session = "" ∨
        sys.server.peersById.lookup
          (sys.server.getId session) = none) :
    Sound
      { server := sys.server.leave session
        roster := sys.roster.leave session } := by
  by_cases hKey : sys.server.getSyncKey session = ""
  · have hServer : sys.server.leave session =
        sys.server := if_pos hKey
    apply hSound.congr
    · exact hSound.leave_of_unkeyed hStored hKey
    · rw [hServer]
      exact fun _ => rfl
    · rw [hServer]
    · rw [hServer]
  · exact
      { ids := by
          intro s own hOwn
          unfold TrackerServer.getId
          rw [TrackerServer.sessions_leave]
          exact hSound.ids s own
            (Roster.leave_eq_some_iff.mp hOwn).2
        keys := fun s own hOwn =>
          hSound.keys s own (Roster.leave_eq_some_iff.mp hOwn).2
        byId := by
          intro id s
          simp only [Roster.leave_eq_some_iff]
          rw [TrackerServer.lookup_leave _ _ _ hKey]
          have hOld := hSound.byId id s
          have hHolder := hSound.byId
            (sys.server.getId session) s
          by_cases hId : id = sys.server.getId session
          · rw [if_pos hId]
            refine iff_of_false (by simp) ?_
            rintro ⟨own, ⟨hOther, hOwn⟩, hOwnId⟩
            have hHolds := hHolder.mpr
              ⟨own, hOwn, hOwnId.trans hId⟩
            exact hOther
              (hSound.eq_of_holds hUnused hKey hHolds)
          · rw [if_neg hId, hOld]
            constructor
            · rintro ⟨own, hOwn, hOwnId⟩
              refine ⟨own, ⟨?_, hOwn⟩, hOwnId⟩
              rintro rfl
              have hSame := hSound.ids s own hOwn
              exact hId (hOwnId.symm.trans hSame.symm)
            · rintro ⟨own, ⟨-, hOwn⟩, hOwnId⟩
              exact ⟨own, hOwn, hOwnId⟩
        groups := by
          intro syncKey s
          simp only [Roster.leave_eq_some_iff]
          rw [TrackerServer.mem_peerSet_leave _ _ _ _ hKey]
          have hOld := hSound.groups syncKey s
          rw [hOld]
          constructor
          · rintro ⟨⟨own, hOwn, hOwnKey⟩, hStays⟩
            refine ⟨own, ⟨?_, hOwn⟩, hOwnKey⟩
            rintro rfl
            have hSame := hStored own hOwn
            exact hStays ⟨hOwnKey.symm.trans hSame.symm, rfl⟩
          · rintro ⟨own, ⟨hOther, hOwn⟩, hOwnKey⟩
            exact ⟨⟨own, hOwn, hOwnKey⟩,
              fun hBoth => hOther hBoth.2⟩ }

/- One careful step keeps the tables in order. -/
theorem sound_of_step
    {event : Event}
    (hSound : Sound sys)
    (hCareful : Careful sys event)
    (hStep : step sys event = some sys') :
    Sound sys' := by
  rcases step_cases hStep with
    ⟨session, rfl, -, rfl⟩ |
    ⟨session, body, rfl, -, hFrame⟩ |
    ⟨session, rfl, -, rfl⟩
  · exact hSound.congr rfl (getId_update rfl) rfl rfl
  · rcases hFrame with ⟨-, rfl⟩ |
      ⟨msg, own, rfl, hOwn, hKey, rfl⟩ |
      ⟨msg, syncKey, -, -, rfl⟩ |
      ⟨msg, toPeerId, -, -, -, rfl⟩
    · exact hSound
    · have hBoth := hCareful msg own rfl hOwn
      exact hSound.register hKey hBoth.1 hBoth.2
    · exact hSound.congr rfl (getId_update rfl) rfl rfl
    · unfold TrackerServer.forward
      split
      · exact hSound.congr rfl (fun _ => rfl) rfl rfl
      · exact hSound
  · have hLeft := hSound.leave hCareful.1 hCareful.2
    exact hLeft.congr rfl (getId_update rfl) rfl rfl

end Steps

------------------------------------------------------------
-- Whole Runs
------------------------------------------------------------

theorem sound_of_run
    {events : List Event}
    {sys : System}
    (hCareful : Transition.Meets step Careful start events)
    (hRun : Transition.run step start events = some sys) :
    Sound sys := by
  refine Transition.invariant_of_run ?_ sound_start hCareful
    hRun
  exact fun _ _ _ => sound_of_step

/- In a careful run the tables are never out of order. -/
theorem coherent_of_run
    (events : List Event)
    (sys : System)
    (hCareful : Transition.Meets step Careful start events)
    (hRun : Transition.run step start events = some sys) :
    Coherent sys :=
  (sound_of_run hCareful hRun).coherent

/- The message that registers an id with a key. -/
def registerMessage
    (id syncKey : String) : Json :=
  .obj
    [("type", .str "REGISTER"),
      ("payload", .obj
        [("sync_key", .str syncKey),
          ("device_id", .str id)])]

/- The peer `a` comes back before its old connection ends. -/
def reconnected : List Event :=
  [.accept 0, .frame 0 (some (registerMessage "a" "k")),
    .accept 1, .frame 1 (some (registerMessage "a" "k"))]

theorem coherent_reconnected :
    ∃ sys, Transition.run step start reconnected =
        some sys ∧
      Coherent sys ∧
      sys.server.peersById.lookup "a" = some 1 := by
  have hRun : Transition.run step start reconnected =
      some _ := rfl
  have hCareful :
      Transition.Meets step Careful start reconnected := by
    refine .cons trivial rfl (.cons ?_ rfl
      (.cons trivial rfl (.cons ?_ rfl trivial)))
    · intro msg own hMsg hOwn
      exact ⟨nofun, nofun⟩
    · intro msg own hMsg hOwn
      cases hMsg
      cases hOwn
      refine ⟨nofun, ?_⟩
      intro other reg hReg hId
      rcases eq_or_ne other 0 with rfl | hOther
      · cases hReg
        rfl
      · cases (Roster.register_of_ne _ _ hOther).symm.trans
          hReg
  exact ⟨_, hRun, coherent_of_run reconnected _ hCareful
    hRun, rfl⟩

/- The old connection ends after that. -/
def leftLate : List Event :=
  reconnected ++ [.ended 0]

theorem not_coherent_leftLate :
    ∃ sys, Transition.run step start leftLate = some sys ∧
      sys.roster 1 = some ⟨"a", "k"⟩ ∧
      sys.server.peersById.lookup "a" = none ∧
      ¬ Coherent sys := by
  refine ⟨_, rfl, rfl, rfl, ?_⟩
  intro hCoherent
  have hHolds := (hCoherent.byId "a" 1).mpr
    ⟨⟨"a", "k"⟩, rfl, rfl⟩
  cases hHolds

end Tracker

end VeritasSync
