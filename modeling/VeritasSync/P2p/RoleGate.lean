import VeritasSync.Library.Transition
import VeritasSync.P2p.KcpMessages
import VeritasSync.P2p.MutualFlood

/-
  One-way synchronisation at the level of raw messages: a
  source does nothing to its files for a peer, and a
  destination sends none of its own.

  Main declarations:
    * `P2PManager.Node.Event`, `P2PManager.Node.step`
    * `P2PManager.Node.Untouched`
    * `P2PManager.Node.roles_kept`
-/

namespace VeritasSync

namespace P2PManager

open MessageRouter PeerController SyncSession
open TransferManager

namespace Node

------------------------------------------------------------
-- Runs
------------------------------------------------------------

/-
  Bytes that come from the peer, work that a thread of the
  pool takes up, and what the node itself and its user do to
  its files.
-/
inductive Event where
| message : ℕ → List UInt8 → Event
| work : ℕ → Event
| chunk : ℕ → Event
| own : LocalState → Event

section Run

variable
  (H : Host)
  (S : Snappy)
  (chunkDataSize : ℕ)
  (parse : List UInt8 → Option Json)
  (peerId : String)

def step (n : Node) : Event → Option Node
| .message newId msg =>
    some (handleKcpMessage H parse peerId newId msg n)
| .work k => runPosted H peerId k n
| .chunk k => runChunk H S chunkDataSize peerId k n
| .own files => some { n with files := files }

/- The files, if only the node itself changes them. -/
def ownFiles
    (files : LocalState) : List Event → LocalState
| [] => files
| .own files :: rest => ownFiles files rest
| _ :: rest => ownFiles files rest

/- A node that receives nothing has no download. -/
def KeepsClear : Event → Prop
| .own files => files.receiving = ∅
| _ => True

variable
  {H S chunkDataSize parse peerId}
  {n n' : Node}

------------------------------------------------------------
-- Who the Node Is
------------------------------------------------------------

/- The role and the mode of the connection. -/
def Plays
    (role : SyncRole)
    (mode : SyncMode)
    (n : Node) : Prop :=
  n.side.session.role = role ∧ n.side.session.mode = mode

theorem plays_receive
    {role : SyncRole}
    {mode : SyncMode}
    {side : Side}
    (hPlays : side.session.role = role ∧
      side.session.mode = mode)
    (message : Message) :
    (receive side message).session.role = role ∧
      (receive side message).session.mode = mode := by
  rcases receive_session side message with hSame | hNew
  · rw [hSame]
    exact hPlays
  · have hPeers := dispatch_peers side.session message
    rw [hNew, hPeers.1, hPeers.2.1]
    exact hPlays

theorem plays_handleDemand
    {role : SyncRole}
    {mode : SyncMode}
    (hPlays : Plays role mode n)
    (newId : ℕ)
    (a : Demand) :
    Plays role mode (handleDemand H peerId newId n a) := by
  cases a with
  | message message => exact plays_receive hPlays message
  | unreadDir => exact hPlays
  | ack ack =>
      unfold handleDemand handleSyncAck
      dsimp only
      split <;> exact hPlays
  | request payload =>
      unfold handleDemand handleRequest
      dsimp only
      split
      · split <;> exact hPlays
      · exact hPlays
  | goodbye => exact hPlays

/- All that a step can do. -/
theorem step_cases
    {e : Event}
    (hStep : step H S chunkDataSize parse peerId n e =
      some n') :
    (∃ files, e = .own files ∧
        n' = { n with files := files }) ∨
      (∀ files, e ≠ .own files) ∧
        (n' = n ∨
          (∃ newId type payload a,
            demandOf type payload n.canReceive = some a ∧
              n' = handleDemand H peerId newId n a) ∨
          (∃ payload, n.canReceive = true ∧
            n' = { n with
              chunks := n.chunks ++ [payload] }) ∨
          (∃ k, runPosted H peerId k n = some n') ∨
          ∃ k, runChunk H S chunkDataSize peerId k n =
            some n') := by
  cases e with
  | message newId msg =>
      refine Or.inr ⟨fun _ hOwn => (by cases hOwn), ?_⟩
      have hHandled := (Option.some.inj hStep).symm
      simp only [handleKcpMessage] at hHandled
      split at hHandled
      · exact Or.inl hHandled
      split at hHandled
      · exact Or.inl hHandled
      split at hHandled
      · split at hHandled
        · exact Or.inl hHandled
        · next a hRead =>
          rcases Option.bind_eq_some_iff.mp hRead with
            ⟨read, -, hDemand⟩
          exact Or.inr (Or.inl
            ⟨newId, _, _, a, hDemand, hHandled⟩)
      split at hHandled
      · split at hHandled
        · next hReceives =>
          exact Or.inr (Or.inr (Or.inl
            ⟨_, hReceives, hHandled⟩))
        · exact Or.inl hHandled
      · exact Or.inl hHandled
  | work k =>
      exact Or.inr ⟨fun _ hOwn => (by cases hOwn),
        Or.inr (Or.inr (Or.inr (Or.inl ⟨k, hStep⟩)))⟩
  | chunk k =>
      exact Or.inr ⟨fun _ hOwn => (by cases hOwn),
        Or.inr (Or.inr (Or.inr (Or.inr ⟨k, hStep⟩)))⟩
  | own files =>
      exact Or.inl ⟨files, rfl,
        (Option.some.inj hStep).symm⟩

theorem plays_step
    {role : SyncRole}
    {mode : SyncMode}
    (hPlays : Plays role mode n)
    {e : Event}
    (hStep : step H S chunkDataSize parse peerId n e =
      some n') :
    Plays role mode n' := by
  rcases step_cases hStep with ⟨files, -, rfl⟩ |
    ⟨-, rfl | ⟨newId, type, payload, a, -, rfl⟩ |
      ⟨payload, -, rfl⟩ | ⟨k, hRun⟩ | ⟨k, hRun⟩⟩
  · exact hPlays
  · exact hPlays
  · exact plays_handleDemand hPlays newId a
  · exact hPlays
  · rcases Option.map_eq_some_iff.mp hRun with
      ⟨task, -, rfl⟩
    exact hPlays
  · rcases Option.map_eq_some_iff.mp hRun with
      ⟨payload, -, rfl⟩
    exact hPlays

------------------------------------------------------------
-- What Each Role Leaves Alone
------------------------------------------------------------

/- What a node that does not receive still reads. -/
theorem demand_of_deaf
    {type : String}
    {payload : Json}
    {a : Demand}
    (hDemand : demandOf type payload false = some a) :
    (∃ request, a = .request request) ∨
      (∃ ack, a = .ack ack) ∨ a = .goodbye := by
  unfold demandOf at hDemand
  rcases Option.bind_eq_some_iff.mp hDemand with
    ⟨r, hRoute, hRead⟩
  split at hRead
  · cases hRead
  · next hOpen =>
    unfold route at hRoute
    split at hRoute
    all_goals cases hRoute
    all_goals first
      | exact absurd rfl hOpen
      | skip
    · exact Or.inl ⟨payload, (Option.some.inj hRead).symm⟩
    · rcases Option.map_eq_some_iff.mp hRead with
        ⟨ack, -, rfl⟩
      exact Or.inr (Or.inl ⟨ack, rfl⟩)
    · exact Or.inr (Or.inr (Option.some.inj hRead).symm)

/-
  The files are as given, no download is under way, and no
  work for the peer waits.
-/
structure Untouched
    (files : LocalState)
    (n : Node) : Prop where
  same : n.files = files
  receiving : files.receiving = ∅
  posted : n.side.session.posted = []
  chunks : n.chunks = []

theorem untouched_step
    {files : LocalState}
    (hUntouched : Untouched files n)
    (hPlays : Plays .source .oneWay n)
    {e : Event}
    (hKeeps : KeepsClear e)
    (hStep : step H S chunkDataSize parse peerId n e =
      some n') :
    Untouched (ownFiles files [e]) n' := by
  have hDeaf : n.canReceive = false := by
    unfold Node.canReceive
    rw [hPlays.1, hPlays.2]
    rfl
  rcases step_cases hStep with ⟨own, rfl, rfl⟩ |
    ⟨hForeign, hCases⟩
  · exact ⟨rfl, hKeeps, hUntouched.posted,
      hUntouched.chunks⟩
  have hFiles : ownFiles files [e] = files := by
    cases e with
    | own own => exact absurd rfl (hForeign own)
    | message newId msg => rfl
    | work k => rfl
    | chunk k => rfl
  rw [hFiles]
  rcases hCases with rfl |
    ⟨newId, type, payload, a, hDemand, rfl⟩ |
    ⟨payload, hReceives, -⟩ | ⟨k, hRun⟩ | ⟨k, hRun⟩
  · exact hUntouched
  · rw [hDeaf] at hDemand
    rcases demand_of_deaf hDemand with
      ⟨request, rfl⟩ | ⟨ack, rfl⟩ | rfl
    · unfold handleDemand handleRequest
      dsimp only
      split
      · split
        · exact hUntouched
        · exact ⟨hUntouched.same, hUntouched.receiving,
            hUntouched.posted, hUntouched.chunks⟩
      · exact hUntouched
    · unfold handleDemand handleSyncAck
      dsimp only
      split
      · exact hUntouched
      · exact ⟨hUntouched.same, hUntouched.receiving,
          hUntouched.posted, hUntouched.chunks⟩
    · refine ⟨?_, hUntouched.receiving,
        hUntouched.posted, hUntouched.chunks⟩
      have hNone : n.files.receiving = ∅ := by
        rw [hUntouched.same]
        exact hUntouched.receiving
      unfold handleDemand handleGoodbye
      rw [hNone, ← hUntouched.same]
      change { n.files with receiving := ∅ } = n.files
      rw [← hNone]
  · rw [hDeaf] at hReceives
    cases hReceives
  · unfold runPosted at hRun
    rw [hUntouched.posted] at hRun
    cases hRun
  · unfold runChunk at hRun
    rw [hUntouched.chunks] at hRun
    cases hRun

/- A node that does not announce files serves none. -/
theorem noUploads_step
    (hNone : n.uploads = [])
    (hPlays : Plays .destination .oneWay n)
    {e : Event}
    (hStep : step H S chunkDataSize parse peerId n e =
      some n') :
    n'.uploads = [] := by
  have hMute : n.canServe = false := by
    unfold Node.canServe
    rw [hPlays.1, hPlays.2]
    rfl
  rcases step_cases hStep with ⟨files, -, rfl⟩ |
    ⟨-, rfl | ⟨newId, type, payload, a, -, rfl⟩ |
      ⟨payload, -, rfl⟩ | ⟨k, hRun⟩ | ⟨k, hRun⟩⟩
  · exact hNone
  · exact hNone
  · cases a with
    | message message => exact hNone
    | unreadDir => exact hNone
    | ack ack => exact hNone
    | request request =>
        unfold handleDemand handleRequest
        dsimp only
        rw [hMute, if_neg Bool.false_ne_true]
        exact hNone
    | goodbye => rfl
  · exact hNone
  · rcases Option.map_eq_some_iff.mp hRun with
      ⟨task, -, rfl⟩
    exact hNone
  · rcases Option.map_eq_some_iff.mp hRun with
      ⟨payload, -, rfl⟩
    exact hNone

------------------------------------------------------------
-- Whole Runs
------------------------------------------------------------

theorem ownFiles_cons
    (files : LocalState)
    (e : Event)
    (events : List Event) :
    ownFiles files (e :: events) =
      ownFiles (ownFiles files [e]) events := by
  cases e <;> rfl

theorem untouched_run
    {files : LocalState}
    {events : List Event}
    (hUntouched : Untouched files n)
    (hPlays : Plays .source .oneWay n)
    (hKeeps : ∀ e ∈ events, KeepsClear e)
    (hRun : Transition.run
      (step H S chunkDataSize parse peerId) n events =
        some n') :
    Untouched (ownFiles files events) n' := by
  induction events generalizing n files with
  | nil =>
      cases hRun
      exact hUntouched
  | cons e rest ih =>
      rcases Option.bind_eq_some_iff.mp hRun with
        ⟨next, hStep, hRest⟩
      rw [ownFiles_cons]
      apply ih ?_ (plays_step hPlays hStep)
        (fun e hMem => hKeeps e (List.mem_cons_of_mem _ hMem))
        hRest
      exact untouched_step hUntouched hPlays
        (hKeeps e List.mem_cons_self) hStep

theorem noUploads_run
    {events : List Event}
    (hNone : n.uploads = [])
    (hPlays : Plays .destination .oneWay n)
    (hRun : Transition.run
      (step H S chunkDataSize parse peerId) n events =
        some n') :
    n'.uploads = [] := by
  induction events generalizing n with
  | nil =>
      cases hRun
      exact hNone
  | cons e rest ih =>
      rcases Option.bind_eq_some_iff.mp hRun with
        ⟨next, hStep, hRest⟩
      exact ih (noUploads_step hNone hPlays hStep)
        (plays_step hPlays hStep) hRest

/-
  In one-way mode, whatever bytes the peer sends and however
  they are mixed with other work: a source's files are what
  the node itself made of them, and a destination serves no
  file.
-/
theorem roles_kept
    {files : LocalState}
    {offerSide : Bool}
    {events : List Event}
    (hMode : files.mode = .oneWay)
    (hRun : Transition.run
      (step H S chunkDataSize parse peerId)
      (fresh offerSide files) events = some n) :
    (files.role = .source →
        files.receiving = ∅ →
        (∀ e ∈ events, KeepsClear e) →
        n.files = ownFiles files events ∧
          n.side.session.posted = [] ∧ n.chunks = []) ∧
      (files.role = .destination → n.uploads = []) := by
  refine ⟨fun hRole hClear hKeeps => ?_, fun hRole => ?_⟩
  · have hUntouched := untouched_run
      (n := fresh offerSide files) ⟨rfl, hClear, rfl, rfl⟩
      ⟨hRole, hMode⟩ hKeeps hRun
    exact ⟨hUntouched.same, hUntouched.posted,
      hUntouched.chunks⟩
  · exact noUploads_run rfl ⟨hRole, hMode⟩ hRun

end Run

/- A message that asks for the deletion of a file. -/
def deletion : Json :=
  protocolMessage "file_delete_batch"
    [("paths", .arr [.str "a.txt"])]

def deletionText : List UInt8 :=
  ("\x7b\"payload\":\x7b\"paths\":[\"a.txt\"]\x7d," ++
    "\"type\":\"file_delete_batch\"\x7d").toUTF8.data.toList

def readDeletion
    (text : List UInt8) : Option Json :=
  if text = deletionText then some deletion else none

/- A source with one file. -/
def sampleSource : LocalState :=
  (LocalState.empty Host.plain .source .oneWay).userWrites
    Host.plain "a.txt" [97]

/- A deletion and a chunk are sent to a source. -/
theorem roles_kept_deletion :
    ∃ n, Transition.run
        (step Host.plain sampleSnappy 2 readDeletion "p")
        (fresh true sampleSource)
        [.message 0 (Outgoing.msgTypeJson :: deletionText),
          .message 0 (chunkPacket sampleSnappy
            ⟨[97, 46, 116, 120, 116], 0, 1, [98], true⟩)] =
          some n ∧
      n.files = sampleSource ∧ n.chunks = [] := by
  have hRun : ∃ n, Transition.run
      (step Host.plain sampleSnappy 2 readDeletion "p")
      (fresh true sampleSource)
      [.message 0 (Outgoing.msgTypeJson :: deletionText),
        .message 0 (chunkPacket sampleSnappy
          ⟨[97, 46, 116, 120, 116], 0, 1, [98], true⟩)] =
        some n := ⟨_, rfl⟩
  rcases hRun with ⟨n, hRun⟩
  have hKept := (roles_kept rfl hRun).1 rfl rfl
    (by simp [KeepsClear])
  exact ⟨n, hRun, hKept.1, hKept.2.2⟩

end Node

end P2PManager

end VeritasSync
