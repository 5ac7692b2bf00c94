import VeritasSync.Tracker.Membership

/-
  Which sessions cause the messages that a session is sent.

  Main declarations:
    * `Tracker.FromGroup`, `Tracker.Isolated`
    * `Tracker.fromGroup_of_run`
-/

namespace VeritasSync

open TrackerServer

namespace Tracker

------------------------------------------------------------
-- The Property
------------------------------------------------------------

/- The peer that a message names as where it is from. -/
def origin : Notice → Option String
| .regAck selfId _ => some selfId
| .peerJoin id => some id
| .peerLeave id => some id
| .signal msg =>
    (msg.find? "payload").bind (fun payload =>
      payload.strAt? "from")

/- The session whose event it is. -/
def Event.session : Event → SessionRef
| .accept session => session
| .frame session _ => session
| .ended session => session

def newDeliveries (sys sys' : System) : List Delivery :=
  sys'.server.sent.drop sys.server.sent.length

/-
  Whoever gets the message is registered with the key of the
  session that caused it, whose id it carries.
-/
def FromGroup
    (sys sys' : System)
    (session : SessionRef)
    (d : Delivery) : Prop :=
  ∀ reg, sys'.roster d.recipient = some reg →
    ∃ own, (sys.roster session = some own ∨
        sys'.roster session = some own) ∧
      own.syncKey = reg.syncKey ∧
      ∀ id, origin d.notice = some id → id = own.id

def Isolated
    (sys : System)
    (event : Event)
    (sys' : System) : Prop :=
  ∀ d ∈ newDeliveries sys sys',
    FromGroup sys sys' event.session d

/- The message is passed on to the holder of an id. -/
def Relays
    (sys : System) : Event → Delivery → Prop
| .frame _ (some msg), d =>
    d.notice = .signal msg ∧ ∃ toPeerId,
      signalTo? msg = some toPeerId ∧
        sys.server.peersById.lookup toPeerId =
          some d.recipient
| _, _ => False

/-
  When a connection ends whose session is not registered,
  its stored key names no group.
-/
def CarefulEnd
    (sys : System)
    (event : Event) : Prop :=
  Careful sys event ∧
    ∀ session, event = .ended session →
      sys.roster session = none →
      sys.server.getSyncKey session = "" ∨
        sys.server.peerSet (sys.server.getSyncKey session) =
          []

------------------------------------------------------------
-- What One Operation Sends
------------------------------------------------------------

section Operations

variable
  {t : TrackerServer}
  {session : SessionRef}
  {syncKey : String}

/- What a list of peers is told of. -/
theorem mem_told_iff
    {peers : List SessionRef}
    {notice : Notice}
    {d : Delivery} :
    d ∈ peers.map (fun peer => Delivery.mk peer notice) ↔
      d.recipient ∈ peers ∧ d.notice = notice := by
  rw [List.mem_map]
  constructor
  · rintro ⟨peer, hPeer, rfl⟩
    exact ⟨hPeer, rfl⟩
  · rintro ⟨hPeer, rfl⟩
    exact ⟨d.recipient, hPeer, rfl⟩

theorem sent_replaceOld
    (t : TrackerServer)
    (session : SessionRef)
    (syncKey id : String) :
    ∃ told, (t.replaceOld session syncKey id).sent =
        t.sent ++ told ∧
      ∀ d ∈ told, d.recipient ∈ t.othersIn syncKey id ∧
        d.notice = .peerLeave id := by
  rcases t.replaceOld_cases session syncKey id with
    ⟨-, hEq⟩ | ⟨old, -, -, hEq⟩
  · rw [hEq]
    exact ⟨[], (List.append_nil _).symm, by simp⟩
  · rw [hEq]
    exact ⟨_, rfl, fun d hTold => mem_told_iff.mp hTold⟩

theorem sent_announce
    (t : TrackerServer)
    (session : SessionRef)
    (syncKey id : String) :
    ∃ peers, (t.announce session syncKey id).sent =
      t.sent ++ ([⟨session, .regAck id peers⟩] ++
        (t.othersIn syncKey id).map
          (fun peer => ⟨peer, .peerJoin id⟩)) := by
  refine ⟨(t.othersIn syncKey id).map t.getId, ?_⟩
  rw [← List.append_assoc]
  rfl

theorem sent_join
    (syncKey : String)
    (hHolder : ∀ old,
      t.peersById.lookup (t.getId session) = some old →
      old ≠ session → t.getId old = t.getId session) :
    ∃ told, (t.join session syncKey).sent =
        t.sent ++ told ∧
      ∀ d ∈ told,
        origin d.notice = some (t.getId session) ∧
          (d.recipient = session ∨ d.recipient ∈
            t.othersIn syncKey (t.getId session)) := by
  rcases sent_replaceOld t session syncKey
    (t.getId session) with ⟨told, hSent, hTold⟩
  have hOthers : (t.replaceOld session syncKey
      (t.getId session)).othersIn syncKey
        (t.getId session) =
      t.othersIn syncKey (t.getId session) :=
    othersIn_replaceOld hHolder
  rcases sent_announce
    (t.replaceOld session syncKey (t.getId session))
    session syncKey (t.getId session) with
    ⟨peers, hAnnounced⟩
  rw [hSent, hOthers, List.append_assoc] at hAnnounced
  refine ⟨_, hAnnounced, ?_⟩
  · intro d hD
    rw [List.mem_append, List.mem_append,
      List.mem_singleton, mem_told_iff] at hD
    rcases hD with hOld | rfl | ⟨hOther, hNotice⟩
    · rcases hTold d hOld with ⟨hOther, hNotice⟩
      rw [hNotice]
      exact ⟨rfl, Or.inr hOther⟩
    · exact ⟨rfl, Or.inl rfl⟩
    · rw [hNotice]
      exact ⟨rfl, Or.inr hOther⟩

theorem sent_leave
    (t : TrackerServer)
    (session : SessionRef) :
    ∃ told, (t.leave session).sent = t.sent ++ told ∧
      ∀ d ∈ told, t.getSyncKey session ≠ "" ∧
        d.recipient ∈ t.peerSet (t.getSyncKey session) ∧
        d.notice = .peerLeave (t.getId session) := by
  unfold leave
  dsimp only
  split
  · exact ⟨[], (List.append_nil _).symm, by simp⟩
  next hKey =>
    split
    · exact ⟨[], (List.append_nil _).symm, by simp⟩
    next peers hPeers =>
      refine ⟨_, rfl, ?_⟩
      intro d hD
      rw [mem_told_iff, List.mem_filter] at hD
      refine ⟨hKey, ?_, hD.2⟩
      unfold peerSet
      rw [hPeers]
      exact hD.1.1

end Operations

------------------------------------------------------------
-- What One Step Sends
------------------------------------------------------------

section Steps

variable
  {sys sys' : System}
  {event : Event}

theorem mem_of_newDeliveries
    {d : Delivery}
    {told : List Delivery}
    (hSent : sys'.server.sent = sys.server.sent ++ told)
    (hNew : d ∈ newDeliveries sys sys') :
    d ∈ told := by
  unfold newDeliveries at hNew
  rw [hSent, List.drop_left] at hNew
  exact hNew

theorem notMem_newDeliveries
    {d : Delivery}
    (hSent : sys'.server.sent = sys.server.sent) :
    d ∉ newDeliveries sys sys' := by
  unfold newDeliveries
  rw [hSent, List.drop_length]
  exact List.not_mem_nil

/- A newcomer and the others of its group are told. -/
theorem fromGroup_register
    {own : Registration}
    {session : SessionRef}
    (hSound : Sound sys)
    {d : Delivery}
    (hNew : d ∈ newDeliveries sys
      { server := (named session own sys.server).join
          session own.syncKey
        roster := sys.roster.register session own }) :
    FromGroup sys
      { server := (named session own sys.server).join
          session own.syncKey
        roster := sys.roster.register session own }
      session d := by
  have hId : (named session own sys.server).getId session =
      own.id :=
    getId_named own sys.server
  rcases sent_join own.syncKey (holder_named hSound) with
    ⟨told, hSent, hTold⟩
  rcases hTold d (mem_of_newDeliveries hSent hNew) with
    ⟨hOrigin, hRecipient⟩
  rw [hId] at hOrigin hRecipient
  intro reg hReg
  dsimp only at hReg ⊢
  refine ⟨own, Or.inr (Roster.register_self _ _), ?_, ?_⟩
  · rcases hRecipient with hSelf | hOther
    · rw [hSelf, Roster.register_self] at hReg
      cases hReg
      rfl
    · rcases (mem_othersIn_iff hSound).mp hOther with
        ⟨hDiffers, reg', hReg', -, hKey⟩
      rw [Roster.register_eq_some_iff hDiffers,
        hReg'] at hReg
      rw [← Option.some.inj hReg.1, hKey]
  · intro id hNamed
    rw [hOrigin] at hNamed
    exact (Option.some.inj hNamed).symm

/- Those that stay are told by one of their group. -/
theorem fromGroup_leave
    {session : SessionRef}
    (hSound : Sound sys)
    (hStored : ∀ own, sys.roster session = some own →
      sys.server.getSyncKey session = own.syncKey)
    (hNoGroup : sys.roster session = none →
      sys.server.getSyncKey session = "" ∨
        sys.server.peerSet (sys.server.getSyncKey session) =
          [])
    (hServer : sys'.server.sent =
      (sys.server.leave session).sent)
    (hRoster : sys'.roster = sys.roster.leave session)
    {d : Delivery}
    (hNew : d ∈ newDeliveries sys sys') :
    FromGroup sys sys' session d := by
  rcases sent_leave sys.server session with
    ⟨told, hSent, hTold⟩
  rcases hTold d (mem_of_newDeliveries
    (hServer.trans hSent) hNew) with ⟨hKey, hIn, hNotice⟩
  intro reg hReg
  rw [hRoster, Roster.leave_eq_some_iff] at hReg
  cases hOwn : sys.roster session with
  | none =>
      have hEmpty := (hNoGroup hOwn).resolve_left hKey
      rw [hEmpty] at hIn
      cases hIn
  | some own =>
      refine ⟨own, Or.inl rfl, ?_, ?_⟩
      · rcases (hSound.groups _ _).mp hIn with
          ⟨reg', hReg', hRegKey⟩
        rw [hReg.2] at hReg'
        rw [Option.some.inj hReg', hRegKey]
        exact (hStored own hOwn).symm
      · intro id hNamed
        rw [hNotice] at hNamed
        rw [← hSound.ids session own hOwn]
        exact (Option.some.inj hNamed).symm

/- What is not a relayed message is from the group. -/
theorem fromGroup_of_step
    {d : Delivery}
    (hSound : Sound sys)
    (hCareful : CarefulEnd sys event)
    (hStep : step sys event = some sys')
    (hNew : d ∈ newDeliveries sys sys') :
    Relays sys event d ∨
      FromGroup sys sys' event.session d := by
  rcases step_cases hStep with
    ⟨session, rfl, -, rfl⟩ |
    ⟨session, body, rfl, -, hFrame⟩ |
    ⟨session, rfl, -, rfl⟩
  · exact absurd hNew (notMem_newDeliveries rfl)
  · rcases hFrame with ⟨-, rfl⟩ |
      ⟨msg, own, rfl, hOwn, -, rfl⟩ |
      ⟨msg, syncKey, -, -, rfl⟩ |
      ⟨msg, toPeerId, rfl, -, hTo, rfl⟩
    · exact absurd hNew (notMem_newDeliveries rfl)
    · exact Or.inr (fromGroup_register hSound hNew)
    · exact absurd hNew (notMem_newDeliveries rfl)
    · left
      unfold forward at hNew
      split at hNew
      next peer hPeer =>
        have hTold : d ∈ [peer].map (fun peer =>
            Delivery.mk peer (.signal msg)) :=
          mem_of_newDeliveries rfl hNew
        rw [mem_told_iff, List.mem_singleton] at hTold
        refine ⟨hTold.2, toPeerId, hTo, ?_⟩
        rw [hPeer, hTold.1]
      next => exact absurd hNew (notMem_newDeliveries rfl)
  · exact Or.inr (fromGroup_leave hSound hCareful.1.1
      (hCareful.2 session rfl) rfl rfl hNew)

end Steps

------------------------------------------------------------
-- Whole Runs
------------------------------------------------------------

/-
  In a careful run every message is relayed as it is to the
  holder of the id that it is for, or comes from the group of
  its recipient, under the id of the session behind it.
-/
theorem fromGroup_of_run
    (events : List Event)
    (event : Event)
    (sys sys' : System)
    (hCareful : Transition.Meets step CarefulEnd start
      events)
    (hRun : Transition.run step start events = some sys)
    (hNext : CarefulEnd sys event)
    (hStep : step sys event = some sys') :
    ∀ d ∈ newDeliveries sys sys',
      Relays sys event d ∨
        FromGroup sys sys' event.session d := by
  have hSound : Sound sys := by
    refine Transition.invariant_of_run ?_ sound_start
      hCareful hRun
    exact fun _ _ _ hSound hCareful hStep =>
      sound_of_step hSound hCareful.1 hStep
  intro d hNew
  exact fromGroup_of_step hSound hNext hStep hNew

/- One peer of the group is there when another one joins. -/
def metFirst : List Event :=
  [.accept 0, .frame 0 (some (registerMessage "a" "k")),
    .accept 1]

def meetSecond : Event :=
  .frame 1 (some (registerMessage "b" "k"))

theorem fromGroup_meetSecond :
    ∃ sys sys',
      Transition.run step start metFirst = some sys ∧
      step sys meetSecond = some sys' ∧
      (newDeliveries sys sys').map Delivery.recipient =
        [1, 0] ∧
      ∀ d ∈ newDeliveries sys sys',
        Relays sys meetSecond d ∨
          FromGroup sys sys' 1 d := by
  have hRun : Transition.run step start metFirst =
      some _ := rfl
  refine ⟨_, _, hRun, rfl, rfl,
    fromGroup_of_run metFirst meetSecond _ _ ?_ hRun ?_
      rfl⟩
  · refine .cons ⟨trivial, nofun⟩ rfl (.cons ⟨?_, nofun⟩ rfl
      (.cons ⟨trivial, nofun⟩ rfl trivial))
    intro msg own hMsg hOwn
    exact ⟨nofun, nofun⟩
  · refine ⟨?_, fun _ h => by cases h⟩
    intro msg own hMsg hOwn
    cases hMsg
    cases hOwn
    constructor
    · intro old hOld
      cases hOld
    · intro other reg hReg hId
      rcases eq_or_ne other 0 with rfl | hOther
      · cases hReg
        exact absurd hId (by decide)
      · cases (Roster.register_of_ne _ _ hOther).symm.trans
          hReg

/- A signal to `b` that claims to be from `c`. -/
def signalMessage : Json :=
  .obj
    [("type", .str "SIGNAL"),
      ("payload", .obj
        [("from", .str "c"), ("to", .str "b")])]

/- Two peers in two groups. -/
def apart : List Event :=
  [.accept 0, .frame 0 (some (registerMessage "a" "k")),
    .accept 1, .frame 1 (some (registerMessage "b" "l"))]

theorem not_isolated_apart :
    ∃ sys sys',
      Transition.run step start apart = some sys ∧
      step sys (.frame 0 (some signalMessage)) =
        some sys' ∧
      newDeliveries sys sys' =
        [⟨1, .signal signalMessage⟩] ∧
      ¬ Isolated sys (.frame 0 (some signalMessage))
        sys' := by
  refine ⟨_, _, rfl, rfl, rfl, ?_⟩
  intro hIsolated
  rcases hIsolated ⟨1, .signal signalMessage⟩
    List.mem_cons_self ⟨"b", "l"⟩ rfl with
    ⟨own, hOwn, hKey, -⟩
  rcases hOwn with hOwn | hOwn
  · cases hOwn
    exact absurd hKey (by decide)
  · cases hOwn
    exact absurd hKey (by decide)

end Tracker

end VeritasSync
