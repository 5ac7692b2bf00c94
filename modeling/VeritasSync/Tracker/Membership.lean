import Mathlib.Data.Finset.Basic
import VeritasSync.Tracker.RegistrySafety

/-
  What a client can tell of its group from the notices that
  the tracker sent to it.

  Main declarations:
    * `Tracker.view`, `Tracker.ViewsAgree`
    * `Tracker.viewsAgree_of_run`
-/

namespace VeritasSync

open TrackerServer

namespace Tracker

------------------------------------------------------------
-- The View Of A Client
------------------------------------------------------------

/- An acknowledgement starts over with its list. -/
def applyNotice
    (known : Finset String) : Notice → Finset String
| .regAck _ peers => peers.toFinset
| .peerJoin id => insert id known
| .peerLeave id => known.erase id
| .signal _ => known

def noticesTo
    (session : SessionRef)
    (sent : List Delivery) : List Notice :=
  (sent.filter (fun d => d.recipient == session)).map
    Delivery.notice

/- The ids that a client knows of, from its notices. -/
def view
    (t : TrackerServer)
    (session : SessionRef) : Finset String :=
  (noticesTo session t.sent).foldl applyNotice ∅

/-
  Every registered client knows the ids of the other
  sessions in its group, and no others.
-/
def ViewsAgree (sys : System) : Prop :=
  ∀ client own, sys.roster client = some own →
    ∀ id, id ∈ view sys.server client ↔
      ∃ other reg, other ≠ client ∧
        sys.roster other = some reg ∧
        reg.syncKey = own.syncKey ∧ reg.id = id

------------------------------------------------------------
-- The View After One Operation
------------------------------------------------------------

section Operations

variable
  {t : TrackerServer}
  {session client : SessionRef}
  {syncKey x : String}

theorem applyNotice_idem
    (known : Finset String)
    (notice : Notice) :
    applyNotice (applyNotice known notice) notice =
      applyNotice known notice := by
  cases notice with
  | regAck self peers => rfl
  | peerJoin id => exact Finset.insert_idem id known
  | peerLeave id => exact Finset.erase_idem
  | signal msg => rfl

/- A notice counts once, however often it is repeated. -/
theorem foldl_noticesTo
    (peers : List SessionRef)
    (notice : Notice)
    (known : Finset String) :
    (noticesTo client
        (peers.map (fun peer => ⟨peer, notice⟩))).foldl
        applyNotice known =
      if client ∈ peers then
        applyNotice known notice
      else
        known := by
  induction peers generalizing known with
  | nil => rfl
  | cons peer rest ih =>
      unfold noticesTo at ih ⊢
      rw [List.map_cons]
      by_cases hPeer : peer = client
      · rw [List.filter_cons_of_pos (by simpa using hPeer),
          List.map_cons, List.foldl_cons, ih,
          applyNotice_idem, ite_self,
          if_pos (by simp [hPeer])]
      · rw [List.filter_cons_of_neg (by simpa using hPeer),
          ih]
        have hOther : client ∈ peer :: rest ↔
            client ∈ rest := by
          simp [Ne.symm hPeer]
        simp only [hOther]

theorem view_sendAll
    (t : TrackerServer)
    (client : SessionRef)
    (peers : List SessionRef)
    (notice : Notice) :
    view (t.sendAll peers notice) client =
      if client ∈ peers then
        applyNotice (view t client) notice
      else
        view t client := by
  rw [← foldl_noticesTo]
  unfold view sendAll noticesTo
  rw [List.filter_append, List.map_append,
    List.foldl_append]

/- Only what is sent matters to a view. -/
theorem view_congr
    {t' : TrackerServer}
    (hSent : t'.sent = t.sent) :
    view t' client = view t client := by
  unfold view
  rw [hSent]

theorem view_enter
    (t : TrackerServer)
    (id : String) :
    view (t.enter session syncKey id) client =
      view t client :=
  view_congr rfl

/- The others are told to forget whoever is replaced. -/
theorem view_replaceOld
    (t : TrackerServer)
    (id : String) :
    view (t.replaceOld session syncKey id) client =
        view t client ∨
      client ∈ t.othersIn syncKey id ∧
        view (t.replaceOld session syncKey id) client =
          (view t client).erase id := by
  rcases t.replaceOld_cases session syncKey id with
    ⟨-, hEq⟩ | ⟨old, -, -, hEq⟩
  · rw [hEq]
    exact Or.inl rfl
  · have hView : view (t.replaceOld session syncKey id)
        client =
        view (t.sendAll (t.othersIn syncKey id)
          (.peerLeave id)) client := by
      rw [hEq]
      rfl
    rw [hView, view_sendAll]
    split
    next hIn => exact Or.inr ⟨hIn, rfl⟩
    next => exact Or.inl rfl

/- Whoever is replaced is not among the others. -/
theorem othersIn_replaceOld
    (hHolder : ∀ old,
      t.peersById.lookup x = some old →
      old ≠ session → t.getId old = x) :
    (t.replaceOld session syncKey x).othersIn syncKey x =
      t.othersIn syncKey x := by
  rcases t.replaceOld_cases session syncKey x with
    ⟨-, hEq⟩ | ⟨old, hOld, hOther, hEq⟩
  · rw [hEq]
  · have hId := hHolder old hOld hOther
    rw [hEq]
    unfold othersIn peerSet
    dsimp only
    rw [AList.lookup_insert, Option.getD_some,
      List.filter_filter]
    apply List.filter_congr
    intro peer _
    by_cases hPeer : peer = old
    · subst hPeer
      have hSame : (t.getId peer != x) = false := by
        simp [hId]
      exact (Bool.and_eq_false_imp.mpr
        (fun _ => by simp)).trans hSame.symm
    · have hStays : (peer != old) = true :=
        bne_iff_ne.mpr hPeer
      rw [hStays, Bool.and_true]
      rfl

/- An announcement is a list for one, a join for others. -/
theorem view_announce_self
    (t : TrackerServer)
    {id : String}
    (hAbsent : session ∉ t.othersIn syncKey id) :
    view (t.announce session syncKey id) session =
      ((t.othersIn syncKey id).map t.getId).toFinset := by
  unfold announce
  dsimp only
  rw [view_sendAll, if_neg hAbsent, view_sendAll,
    if_pos List.mem_cons_self]
  rfl

theorem view_announce_of_ne
    (t : TrackerServer)
    (id : String)
    (hOther : client ≠ session) :
    view (t.announce session syncKey id) client =
      if client ∈ t.othersIn syncKey id then
        insert id (view t client)
      else
        view t client := by
  have hNot : client ∉ [session] := by
    simpa using hOther
  unfold announce
  dsimp only
  rw [view_sendAll, view_sendAll]
  simp only [if_neg hNot]
  rfl

/- The newcomer is told of the others. -/
theorem mem_view_join_self
    {id : String}
    (hHolder : ∀ old,
      t.peersById.lookup (t.getId session) = some old →
      old ≠ session → t.getId old = t.getId session) :
    id ∈ view (t.join session syncKey) session ↔
      ∃ peer ∈ t.othersIn syncKey (t.getId session),
        t.getId peer = id := by
  have hAbsent : session ∉
      t.othersIn syncKey (t.getId session) := by
    simp [othersIn]
  have hIds : (t.replaceOld session syncKey
      (t.getId session)).getId = t.getId := by
    funext peer
    unfold getId
    rw [sessions_replaceOld]
  have hOthers : (t.replaceOld session syncKey
      (t.getId session)).othersIn syncKey
        (t.getId session) =
      t.othersIn syncKey (t.getId session) :=
    othersIn_replaceOld hHolder
  unfold join
  dsimp only
  rw [view_enter, view_announce_self _
    (by rw [hOthers]; exact hAbsent), hOthers, hIds]
  simp

/- The others are told of the newcomer. -/
theorem mem_view_join
    {id : String}
    (hHolder : ∀ old,
      t.peersById.lookup (t.getId session) = some old →
      old ≠ session → t.getId old = t.getId session)
    (hOther : client ≠ session) :
    id ∈ view (t.join session syncKey) client ↔
      id ∈ view t client ∨
        id = t.getId session ∧
          client ∈ t.othersIn syncKey (t.getId session) := by
  unfold join
  dsimp only
  rw [view_enter, view_announce_of_ne _ _ hOther,
    othersIn_replaceOld hHolder]
  rcases view_replaceOld t (t.getId session) with
    hEq | ⟨hIn, hEq⟩
  · rw [hEq]
    split
    next hIn => simp [hIn, or_comm]
    next hOut => simp [hOut]
  · rw [hEq, if_pos hIn, Finset.mem_insert,
      Finset.mem_erase, and_iff_left hIn]
    tauto

/- Those that stay are told who left. -/
theorem mem_view_leave
    {id : String}
    (hKey : t.getSyncKey session ≠ "") :
    id ∈ view (t.leave session) client ↔
      id ∈ view t client ∧
        ¬ (id = t.getId session ∧ client ≠ session ∧
          client ∈ t.peerSet (t.getSyncKey session)) := by
  unfold leave
  dsimp only
  rw [if_neg hKey]
  split
  next hNone =>
    refine iff_self_and.mpr ?_
    rintro - ⟨-, -, hIn⟩
    unfold peerSet at hIn
    rw [hNone] at hIn
    cases hIn
  next peers hPeers =>
    have hIn : client ∈ peers.filter
        (fun peer => peer != session) ↔
        client ≠ session ∧
          client ∈ t.peerSet (t.getSyncKey session) := by
      unfold peerSet
      rw [hPeers, Option.getD_some, List.mem_filter,
        bne_iff_ne, and_comm]
    refine (Iff.of_eq (congrArg (id ∈ ·)
      ((view_congr rfl).trans
        (view_sendAll _ client _ _)))).trans ?_
    rw [← hIn]
    split
    next hTold =>
      simp only [applyNotice, Finset.mem_erase, hTold,
        and_true]
      exact and_comm
    next hOut =>
      exact iff_self_and.mpr (fun _ hBoth => hOut hBoth.2)

end Operations

------------------------------------------------------------
-- One Step
------------------------------------------------------------

section Steps

variable
  {sys sys' : System}
  {session : SessionRef}

/- What neither registers nor tells anyone changes nothing. -/
theorem ViewsAgree.congr
    (hViews : ViewsAgree sys)
    (hRoster : sys'.roster = sys.roster)
    (hSame : ∀ client, view sys'.server client =
      view sys.server client) :
    ViewsAgree sys' := by
  unfold ViewsAgree
  rw [hRoster]
  intro client own hOwn id
  rw [hSame]
  exact hViews client own hOwn id

/- The holder of an id in the table has that id. -/
theorem holder_named
    {own : Registration}
    (hSound : Sound sys)
    (old : SessionRef)
    (hLookup : (named session own sys.server).peersById.lookup
      ((named session own sys.server).getId session) =
        some old)
    (hOther : old ≠ session) :
    (named session own sys.server).getId old =
      (named session own sys.server).getId session := by
  rw [getId_named] at hLookup ⊢
  rcases (hSound.byId own.id old).mp hLookup with
    ⟨reg, hReg, hId⟩
  rw [getId_named_of_ne own sys.server hOther,
    hSound.ids old reg hReg, hId]

/- The others of a group are those registered with its key. -/
theorem mem_othersIn_iff
    {own : Registration}
    (hSound : Sound sys)
    {peer : SessionRef} :
    peer ∈ (named session own sys.server).othersIn
      own.syncKey own.id ↔
      peer ≠ session ∧ ∃ reg,
        sys.roster peer = some reg ∧ reg.id ≠ own.id ∧
          reg.syncKey = own.syncKey := by
  unfold othersIn
  rw [List.mem_filter, bne_iff_ne]
  by_cases hSame : peer = session
  · subst hSame
    rw [getId_named]
    simp
  · rw [getId_named_of_ne own sys.server hSame]
    have hGroup := hSound.groups own.syncKey peer
    constructor
    · rintro ⟨hIn, hId⟩
      rcases hGroup.mp hIn with ⟨reg, hReg, hKey⟩
      refine ⟨hSame, reg, hReg, ?_, hKey⟩
      rw [← hSound.ids peer reg hReg]
      exact hId
    · rintro ⟨-, reg, hReg, hId, hKey⟩
      refine ⟨hGroup.mpr ⟨reg, hReg, hKey⟩, ?_⟩
      rw [hSound.ids peer reg hReg]
      exact hId

theorem ViewsAgree.register
    {own : Registration}
    (hViews : ViewsAgree sys)
    (hSound : Sound sys)
    (hAgain : ∀ old, sys.roster session = some old →
      old = own)
    (hReused : ∀ other reg, sys.roster other = some reg →
      reg.id = own.id → reg.syncKey = own.syncKey) :
    ViewsAgree
      { server := (named session own sys.server).join
          session own.syncKey
        roster := sys.roster.register session own } := by
  have hId : (named session own sys.server).getId session =
      own.id :=
    getId_named own sys.server
  intro client reg hReg id
  dsimp only at hReg ⊢
  by_cases hSelf : client = session
  · subst hSelf
    rw [Roster.register_self] at hReg
    cases hReg
    rw [mem_view_join_self (holder_named hSound), hId]
    constructor
    · rintro ⟨peer, hPeer, rfl⟩
      rcases (mem_othersIn_iff hSound).mp hPeer with
        ⟨hOther, reg, hReg, hRegId, hKey⟩
      refine ⟨peer, reg, hOther, ?_, hKey, ?_⟩
      · rw [Roster.register_eq_some_iff hOther]
        exact ⟨hReg, hRegId⟩
      · rw [getId_named_of_ne own sys.server hOther,
          hSound.ids peer reg hReg]
    · rintro ⟨peer, reg, hOther, hReg, hKey, hRegId⟩
      rw [Roster.register_eq_some_iff hOther] at hReg
      refine ⟨peer, (mem_othersIn_iff hSound).mpr
        ⟨hOther, reg, hReg.1, hReg.2, hKey⟩, ?_⟩
      rw [getId_named_of_ne own sys.server hOther,
        hSound.ids peer reg hReg.1, hRegId]
  · rw [Roster.register_eq_some_iff hSelf] at hReg
    rw [mem_view_join (holder_named hSound) hSelf, hId,
      mem_othersIn_iff hSound]
    have hOld := hViews client reg hReg.1 id
    constructor
    · rintro (hIn | ⟨rfl, -, reg', hReg', -, hKey⟩)
      · rcases hOld.mp hIn with
          ⟨other, reg', hOther, hReg', hKey, hRegId⟩
        by_cases hSession : other = session
        · subst hSession
          refine ⟨other, own, hOther,
            Roster.register_self _ _, ?_⟩
          rw [← hAgain reg' hReg']
          exact ⟨hKey, hRegId⟩
        · by_cases hReplaced : reg'.id = own.id
          · have hSameKey := hReused other reg' hReg'
              hReplaced
            exact ⟨session, own, Ne.symm hSelf,
              Roster.register_self _ _,
              hSameKey.symm.trans hKey,
              hReplaced.symm.trans hRegId⟩
          · refine ⟨other, reg', hOther, ?_, hKey, hRegId⟩
            rw [Roster.register_eq_some_iff hSession]
            exact ⟨hReg', hReplaced⟩
      · rw [hReg.1] at hReg'
        cases hReg'
        exact ⟨session, own, Ne.symm hSelf,
          Roster.register_self _ _, hKey.symm, rfl⟩
    · rintro ⟨other, reg', hOther, hReg', hKey, hRegId⟩
      by_cases hSession : other = session
      · subst hSession
        rw [Roster.register_self] at hReg'
        cases hReg'
        exact Or.inr ⟨hRegId.symm, hSelf, reg, hReg.1,
          hReg.2, hKey.symm⟩
      · rw [Roster.register_eq_some_iff hSession] at hReg'
        exact Or.inl (hOld.mpr
          ⟨other, reg', hOther, hReg'.1, hKey, hRegId⟩)

theorem ViewsAgree.leave
    (hViews : ViewsAgree sys)
    (hSound : Sound sys)
    (hStored : ∀ own, sys.roster session = some own →
      sys.server.getSyncKey session = own.syncKey)
    (hUnused : sys.roster session = none →
      sys.server.getSyncKey session = "" ∨
        sys.server.peersById.lookup
          (sys.server.getId session) = none) :
    ViewsAgree
      { server := sys.server.leave session
        roster := sys.roster.leave session } := by
  by_cases hKey : sys.server.getSyncKey session = ""
  · have hServer : sys.server.leave session =
        sys.server := if_pos hKey
    apply hViews.congr
    · exact hSound.leave_of_unkeyed hStored hKey
    · rw [hServer]
      exact fun _ => rfl
  · intro client reg hReg id
    dsimp only at hReg ⊢
    rw [Roster.leave_eq_some_iff] at hReg
    rw [mem_view_leave hKey]
    have hOld := hViews client reg hReg.2 id
    constructor
    · rintro ⟨hIn, hUntold⟩
      rcases hOld.mp hIn with
        ⟨other, reg', hOther, hReg', hRegKey, hRegId⟩
      refine ⟨other, reg', hOther, ?_, hRegKey, hRegId⟩
      rw [Roster.leave_eq_some_iff]
      refine ⟨?_, hReg'⟩
      rintro rfl
      apply hUntold
      rw [hSound.ids other reg' hReg', hStored reg' hReg']
      exact ⟨hRegId.symm, hReg.1,
        (hSound.groups _ client).mpr
          ⟨reg, hReg.2, hRegKey.symm⟩⟩
    · rintro ⟨other, reg', hOther, hReg', hRegKey, hRegId⟩
      rw [Roster.leave_eq_some_iff] at hReg'
      refine ⟨hOld.mpr ⟨other, reg', hOther, hReg'.2,
        hRegKey, hRegId⟩, ?_⟩
      rintro ⟨hLeft, -, -⟩
      have hHolds := (hSound.byId _ other).mpr
        ⟨reg', hReg'.2, hRegId.trans hLeft⟩
      exact hReg'.1 (hSound.eq_of_holds hUnused hKey hHolds)

/- One careful step keeps every view right. -/
theorem viewsAgree_of_step
    {event : Event}
    (hSound : Sound sys)
    (hViews : ViewsAgree sys)
    (hCareful : Careful sys event)
    (hStep : step sys event = some sys') :
    ViewsAgree sys' := by
  rcases step_cases hStep with
    ⟨session, rfl, -, rfl⟩ |
    ⟨session, body, rfl, -, hFrame⟩ |
    ⟨session, rfl, -, rfl⟩
  · exact hViews.congr rfl (fun _ => rfl)
  · rcases hFrame with ⟨-, rfl⟩ |
      ⟨msg, own, rfl, hOwn, -, rfl⟩ |
      ⟨msg, syncKey, -, -, rfl⟩ |
      ⟨msg, toPeerId, -, -, -, rfl⟩
    · exact hViews
    · have hBoth := hCareful msg own rfl hOwn
      exact hViews.register hSound hBoth.1 hBoth.2
    · exact hViews.congr rfl (fun _ => rfl)
    · refine hViews.congr rfl (fun client => ?_)
      unfold forward
      split
      · exact (view_sendAll _ client _ _).trans
          (ite_self _)
      · rfl
  · have hLeft := hViews.leave hSound hCareful.1 hCareful.2
    exact hLeft.congr rfl (fun _ => rfl)

end Steps

theorem viewsAgree_start : ViewsAgree start :=
  fun _ _ hOwn => by cases hOwn

/-
  In a careful run every registered client knows its group
  at any time.
-/
theorem viewsAgree_of_run
    (events : List Event)
    (sys : System)
    (hCareful : Transition.Meets step Careful start events)
    (hRun : Transition.run step start events = some sys) :
    ViewsAgree sys := by
  have hStart : Sound start ∧ ViewsAgree start :=
    ⟨sound_start, viewsAgree_start⟩
  have hStep : ∀ s e s', Sound s ∧ ViewsAgree s →
      Careful s e → step s e = some s' →
      Sound s' ∧ ViewsAgree s' :=
    fun _ _ _ hBoth hCareful hStep =>
      ⟨sound_of_step hBoth.1 hCareful hStep,
        viewsAgree_of_step hBoth.1 hBoth.2 hCareful hStep⟩
  have hBoth := Transition.invariant_of_run hStep hStart
    hCareful hRun
  exact hBoth.2

/- Two peers join one group, one after the other. -/
def metInTurn : List Event :=
  [.accept 0, .frame 0 (some (registerMessage "a" "k")),
    .accept 1, .frame 1 (some (registerMessage "b" "k"))]

theorem viewsAgree_metInTurn :
    ∃ sys, Transition.run step start metInTurn =
        some sys ∧
      ViewsAgree sys ∧
      view sys.server 0 = {"b"} ∧
      view sys.server 1 = {"a"} := by
  have hRun : Transition.run step start metInTurn =
      some _ := rfl
  refine ⟨_, hRun, viewsAgree_of_run metInTurn _ ?_ hRun,
    rfl, rfl⟩
  refine .cons trivial rfl ?_
  refine .cons ?_ rfl ?_
  · intro msg own hMsg hOwn
    exact ⟨nofun, nofun⟩
  refine .cons trivial rfl ?_
  refine .cons ?_ rfl trivial
  intro msg own hMsg hOwn
  cases hMsg
  cases hOwn
  refine ⟨nofun, ?_⟩
  intro other reg hReg hId
  rcases eq_or_ne other 0 with rfl | hOther
  · cases hReg
    exact absurd hId (by decide)
  · cases (Roster.register_of_ne _ _ hOther).symm.trans hReg

/-
  A third peer watches how one comes back and its old
  connection ends late.
-/
def watchedLate : List Event :=
  [.accept 2, .frame 2 (some (registerMessage "c" "k"))] ++
    leftLate

theorem not_viewsAgree_watchedLate :
    ∃ sys, Transition.run step start watchedLate =
        some sys ∧
      sys.roster 1 = some ⟨"a", "k"⟩ ∧
      sys.roster 2 = some ⟨"c", "k"⟩ ∧
      view sys.server 2 = ∅ ∧
      ¬ ViewsAgree sys := by
  refine ⟨_, rfl, rfl, rfl, rfl, ?_⟩
  intro hViews
  have hKnown := (hViews 2 ⟨"c", "k"⟩ rfl "a").mpr
    ⟨1, ⟨"a", "k"⟩, by decide, rfl, rfl, rfl⟩
  cases hKnown

end Tracker

end VeritasSync
