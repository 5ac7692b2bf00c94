import VeritasSync.Tracker.GroupIsolation

/-
  What a client of the tracker knows of itself, and that what
  is passed on to it as a signal is one.

  Main declarations:
    * `Tracker.ownId`, `Tracker.Served`
    * `Tracker.served_of_run`
-/

namespace VeritasSync

open TrackerServer

namespace Tracker

------------------------------------------------------------
-- The Id of a Client
------------------------------------------------------------

/- Only an acknowledgement tells a client its id. -/
def applyAck
    (known : Option String) : Notice → Option String
| .regAck selfId _ => some selfId
| _ => known

/- The id that a client has, from its notices. -/
def ownId
    (t : TrackerServer)
    (session : SessionRef) : Option String :=
  (noticesTo session t.sent).foldl applyAck none

section Operations

variable
  {t t' : TrackerServer}
  {session client : SessionRef}
  {syncKey : String}

theorem noticesTo_append
    (client : SessionRef)
    (sent told : List Delivery) :
    noticesTo client (sent ++ told) =
      noticesTo client sent ++ noticesTo client told := by
  unfold noticesTo
  rw [List.filter_append, List.map_append]

theorem mem_noticesTo
    {sent : List Delivery}
    {notice : Notice} :
    notice ∈ noticesTo client sent ↔
      ∃ d ∈ sent, d.recipient = client ∧
        d.notice = notice := by
  simp [noticesTo, and_assoc]

/- Without an acknowledgement nothing changes. -/
theorem foldl_applyAck
    {notices : List Notice}
    (known : Option String)
    (hQuiet : ∀ notice ∈ notices,
      ∀ selfId peers, notice ≠ .regAck selfId peers) :
    notices.foldl applyAck known = known := by
  induction notices generalizing known with
  | nil => rfl
  | cons notice notices ih =>
      have hSame : applyAck known notice = known := by
        cases notice with
        | regAck selfId peers =>
            exact absurd rfl
              (hQuiet _ List.mem_cons_self selfId peers)
        | peerJoin id => rfl
        | peerLeave id => rfl
        | signal msg => rfl
      rw [List.foldl_cons, hSame]
      exact ih known (fun notice hMem =>
        hQuiet notice (List.mem_cons_of_mem _ hMem))

theorem ownId_of_quiet
    {told : List Delivery}
    (hSent : t'.sent = t.sent ++ told)
    (hQuiet : ∀ d ∈ told, d.recipient = client →
      ∀ selfId peers, d.notice ≠ .regAck selfId peers) :
    ownId t' client = ownId t client := by
  unfold ownId
  rw [hSent, noticesTo_append, List.foldl_append]
  apply foldl_applyAck
  intro notice hMem
  rcases mem_noticesTo.mp hMem with ⟨d, hD, hTo, rfl⟩
  exact hQuiet d hD hTo

theorem ownId_replaceOld
    (t : TrackerServer)
    (session client : SessionRef)
    (syncKey id : String) :
    ownId (t.replaceOld session syncKey id) client =
      ownId t client := by
  rcases sent_replaceOld t session syncKey id with
    ⟨told, hSent, hTold⟩
  apply ownId_of_quiet hSent
  intro d hD _ selfId peers hAck
  rw [(hTold d hD).2] at hAck
  cases hAck

/- The newcomer is told its id. -/
theorem ownId_join_self
    (t : TrackerServer)
    (session : SessionRef)
    (syncKey : String) :
    ownId (t.join session syncKey) session =
      some (t.getId session) := by
  rcases sent_announce
    (t.replaceOld session syncKey (t.getId session))
    session syncKey (t.getId session) with
    ⟨peers, hAnnounced⟩
  have hSent : (t.join session syncKey).sent = _ := hAnnounced
  unfold ownId
  rw [hSent, noticesTo_append, noticesTo_append,
    List.foldl_append, List.foldl_append]
  have hFirst : noticesTo session [⟨session,
      .regAck (t.getId session) peers⟩] =
        [.regAck (t.getId session) peers] := by
    simp [noticesTo]
  rw [hFirst]
  apply foldl_applyAck
  intro notice hMem selfId peers' hAck
  rcases mem_noticesTo.mp hMem with ⟨d, hD, -, rfl⟩
  rw [(mem_told_iff.mp hD).2] at hAck
  cases hAck

theorem ownId_join_of_ne
    (t : TrackerServer)
    (syncKey : String)
    (hOther : client ≠ session) :
    ownId (t.join session syncKey) client =
      ownId t client := by
  rcases sent_announce
    (t.replaceOld session syncKey (t.getId session))
    session syncKey (t.getId session) with
    ⟨peers, hAnnounced⟩
  rw [← ownId_replaceOld t session client syncKey
    (t.getId session)]
  apply ownId_of_quiet hAnnounced
  intro d hD hTo selfId peers' hAck
  rcases List.mem_append.mp hD with hFirst | hJoined
  · rw [List.mem_singleton.mp hFirst] at hTo
    exact hOther hTo.symm
  · rw [(mem_told_iff.mp hJoined).2] at hAck
    cases hAck

theorem ownId_leave
    (t : TrackerServer)
    (session client : SessionRef) :
    ownId (t.leave session) client = ownId t client := by
  rcases sent_leave t session with ⟨told, hSent, hTold⟩
  apply ownId_of_quiet hSent
  intro d hD _ selfId peers hAck
  rw [(hTold d hD).2.2] at hAck
  cases hAck

theorem sent_forward
    (t : TrackerServer)
    (toPeerId : String)
    (msg : Json) :
    (t.forward toPeerId msg).sent = t.sent ++
      (t.peersById.lookup toPeerId).toList.map
        (fun peer => ⟨peer, .signal msg⟩) := by
  unfold forward
  cases t.peersById.lookup toPeerId with
  | none => exact (List.append_nil _).symm
  | some peer => rfl

theorem ownId_forward
    (t : TrackerServer)
    (toPeerId : String)
    (msg : Json)
    (client : SessionRef) :
    ownId (t.forward toPeerId msg) client =
      ownId t client := by
  apply ownId_of_quiet (sent_forward t toPeerId msg)
  intro d hD _ selfId peers hAck
  rcases List.mem_map.mp hD with ⟨peer, -, rfl⟩
  cases hAck

end Operations

------------------------------------------------------------
-- Whole Runs
------------------------------------------------------------

/-
  A registered client has been told its id, which is not
  empty, and what is passed on is a signal.
-/
structure Served (sys : System) : Prop where
  ids : ∀ client own, sys.roster client = some own →
    own.id ≠ ""
  told : ∀ client own, sys.roster client = some own →
    ownId sys.server client = some own.id
  signals : ∀ d ∈ sys.server.sent, ∀ msg,
    d.notice = .signal msg →
      msg.strAt? "type" = some "SIGNAL"

theorem served_start : Served start where
  ids _ _ hOwn := by cases hOwn
  told _ _ hOwn := by cases hOwn
  signals _ hMem := absurd hMem List.not_mem_nil

theorem id_ne_of_registration
    {msg : Json}
    {own : Registration}
    (hOwn : registration? msg = some own) :
    own.id ≠ "" := by
  unfold registration? accepted? at hOwn
  split at hOwn
  · split at hOwn
    · split at hOwn
      · split at hOwn
        case isTrue hValid =>
          cases hOwn
          rw [Bool.and_eq_true] at hValid
          exact bne_iff_ne.mp hValid.2
        · cases hOwn
      · cases hOwn
    · cases hOwn
  · cases hOwn

theorem type_of_signalTo
    {msg : Json}
    {toPeerId : String}
    (hTo : signalTo? msg = some toPeerId) :
    msg.strAt? "type" = some "SIGNAL" := by
  unfold signalTo? at hTo
  split at hTo
  case h_1 type payload hType hPayload =>
    split at hTo
    case isTrue hSignal => rw [hType, hSignal]
    · cases hTo
  · cases hTo

section Steps

variable
  {sys sys' : System}
  {session : SessionRef}

/- Nothing is sent that is passed on from elsewhere. -/
theorem signals_of_append
    {told : List Delivery}
    (hServed : Served sys)
    (hSent : sys'.server.sent = sys.server.sent ++ told)
    (hTold : ∀ d ∈ told, ∀ msg, d.notice = .signal msg →
      msg.strAt? "type" = some "SIGNAL") :
    ∀ d ∈ sys'.server.sent, ∀ msg, d.notice = .signal msg →
      msg.strAt? "type" = some "SIGNAL" := by
  intro d hMem
  rw [hSent] at hMem
  rcases List.mem_append.mp hMem with hOld | hNew
  · exact hServed.signals d hOld
  · exact hTold d hNew

theorem Served.congr
    (hServed : Served sys)
    (hSent : sys'.server.sent = sys.server.sent)
    (hRoster : sys'.roster = sys.roster) :
    Served sys' := by
  have hOwn : ∀ client, ownId sys'.server client =
      ownId sys.server client := by
    intro client
    unfold ownId
    rw [hSent]
  refine ⟨?_, ?_, ?_⟩
  · rw [hRoster]
    exact hServed.ids
  · intro client own hReg
    rw [hOwn]
    rw [hRoster] at hReg
    exact hServed.told client own hReg
  · rw [hSent]
    exact hServed.signals

theorem Served.register
    {own : Registration}
    (hServed : Served sys)
    (hId : own.id ≠ "") :
    Served
      { server := (named session own sys.server).join
          session own.syncKey
        roster := sys.roster.register session own } := by
  have hGetId : (named session own sys.server).getId session =
      own.id := getId_named own sys.server
  refine ⟨?_, ?_, ?_⟩
  · intro client reg hReg
    dsimp only at hReg
    by_cases hSame : client = session
    · subst hSame
      rw [Roster.register_self] at hReg
      cases hReg
      exact hId
    · exact hServed.ids client reg
        ((Roster.register_eq_some_iff hSame).mp hReg).1
  · intro client reg hReg
    dsimp only at hReg
    by_cases hSame : client = session
    · subst hSame
      rw [Roster.register_self] at hReg
      cases hReg
      rw [ownId_join_self, hGetId]
    · rw [ownId_join_of_ne _ _ hSame]
      exact hServed.told client reg
        ((Roster.register_eq_some_iff hSame).mp hReg).1
  · rcases sent_replaceOld (named session own sys.server)
      session own.syncKey
      ((named session own sys.server).getId session) with
      ⟨gone, hGone, hLeft⟩
    rcases sent_announce
      ((named session own sys.server).replaceOld session
        own.syncKey ((named session own
          sys.server).getId session))
      session own.syncKey
      ((named session own sys.server).getId session) with
      ⟨peers, hAnnounced⟩
    rw [hGone, List.append_assoc] at hAnnounced
    apply signals_of_append hServed hAnnounced
    intro d hD msg hSignal
    rcases List.mem_append.mp hD with hOld | hD
    · rw [(hLeft d hOld).2] at hSignal
      cases hSignal
    · rcases List.mem_append.mp hD with hFirst | hJoined
      · rw [List.mem_singleton.mp hFirst] at hSignal
        cases hSignal
      · rw [(mem_told_iff.mp hJoined).2] at hSignal
        cases hSignal

theorem Served.leave
    (hServed : Served sys)
    (session : SessionRef) :
    Served
      { server := sys.server.leave session
        roster := sys.roster.leave session } := by
  refine ⟨?_, ?_, ?_⟩
  · intro client own hReg
    exact hServed.ids client own
      (Roster.leave_eq_some_iff.mp hReg).2
  · intro client own hReg
    rw [ownId_leave]
    exact hServed.told client own
      (Roster.leave_eq_some_iff.mp hReg).2
  · rcases sent_leave sys.server session with
      ⟨told, hSent, hTold⟩
    apply signals_of_append hServed hSent
    intro d hD msg hSignal
    rw [(hTold d hD).2.2] at hSignal
    cases hSignal

theorem served_of_step
    {event : Event}
    (hServed : Served sys)
    (hStep : step sys event = some sys') :
    Served sys' := by
  rcases step_cases hStep with
    ⟨session, rfl, -, rfl⟩ |
    ⟨session, body, rfl, -, hFrame⟩ |
    ⟨session, rfl, -, rfl⟩
  · exact hServed.congr rfl rfl
  · rcases hFrame with ⟨-, rfl⟩ |
      ⟨msg, own, rfl, hOwn, -, rfl⟩ |
      ⟨msg, syncKey, -, -, rfl⟩ |
      ⟨msg, toPeerId, -, -, hTo, rfl⟩
    · exact hServed
    · exact hServed.register (id_ne_of_registration hOwn)
    · exact hServed.congr rfl rfl
    · refine ⟨hServed.ids, ?_, ?_⟩
      · intro client own hReg
        rw [ownId_forward]
        exact hServed.told client own hReg
      · apply signals_of_append hServed
          (sent_forward sys.server toPeerId msg)
        intro d hD msg' hSignal
        rcases List.mem_map.mp hD with ⟨peer, -, rfl⟩
        cases hSignal
        exact type_of_signalTo hTo
  · exact (hServed.leave session).congr rfl rfl

theorem served_of_run
    {events : List Event}
    (hRun : Transition.run step start events = some sys) :
    Served sys := by
  have hMeets : Transition.Meets step (fun _ _ => True)
      start events :=
    Transition.meets_of_forall (fun _ _ => trivial)
  exact Transition.invariant_of_run
    (fun _ _ _ hServed _ hStep =>
      served_of_step hServed hStep)
    served_start hMeets hRun

end Steps

end Tracker

end VeritasSync
