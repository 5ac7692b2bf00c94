import VeritasSync.Common.Json
import Mathlib.Data.List.AList
import Mathlib.Logic.Function.Basic

/-
  The tracker: its sessions, the two tables that find them,
  and what it sends to them when one joins or leaves a group
  or has a message for another.

  Main declarations:
    * `TrackerServer`
    * `TrackerServer.join`, `TrackerServer.leave`,
      `TrackerServer.forward`
-/

namespace VeritasSync

/- The object of one connection; no other is the same. -/
abbrev SessionRef := ℕ

/- A session reads until its connection ends. -/
inductive Phase where
| unaccepted : Phase
| reading : Phase
| ended : Phase
deriving DecidableEq, Repr

structure Session where
  id : String
  syncKey : String
  phase : Phase
deriving DecidableEq, Repr

namespace Session

/- Nothing is known before a session is registered. -/
def unregistered (phase : Phase) : Session :=
  ⟨"", "", phase⟩

end Session

/- What the tracker sends; a signal is passed on whole. -/
inductive Notice where
| regAck : String → List String → Notice
| peerJoin : String → Notice
| peerLeave : String → Notice
| signal : Json → Notice

structure Delivery where
  recipient : SessionRef
  notice : Notice

/-
  The sessions of a group are a set ordered by address.  The
  addresses are arbitrary; here the order is that of joining.
-/
structure TrackerServer where
  sessions : SessionRef → Session
  peerGroups : AList (fun _ : String => List SessionRef)
  peersById : AList (fun _ : String => SessionRef)
  sent : List Delivery

namespace TrackerServer

def start : TrackerServer where
  sessions := fun _ => .unregistered .unaccepted
  peerGroups := ∅
  peersById := ∅
  sent := []

section Operations

variable
  (t : TrackerServer)

def getId (session : SessionRef) : String :=
  (t.sessions session).id

def getSyncKey (session : SessionRef) : String :=
  (t.sessions session).syncKey

/- The group of a key, which is created when it is missing. -/
def peerSet (syncKey : String) : List SessionRef :=
  (t.peerGroups.lookup syncKey).getD []

/- The sessions of a group that have another id. -/
def othersIn (syncKey id : String) : List SessionRef :=
  (t.peerSet syncKey).filter (fun peer => t.getId peer != id)

def sendAll
    (peers : List SessionRef)
    (notice : Notice) : TrackerServer :=
  { t with
    sent := t.sent ++ peers.map (fun peer => ⟨peer, notice⟩) }

/- Whoever had the id before is replaced. -/
def replaceOld
    (session : SessionRef)
    (syncKey id : String) : TrackerServer :=
  match t.peersById.lookup id with
  | none => t
  | some oldSession =>
      if oldSession = session then
        t
      else
        let told := t.sendAll (t.othersIn syncKey id)
          (.peerLeave id)
        { told with
          peerGroups := t.peerGroups.insert syncKey
            ((t.peerSet syncKey).filter
              (fun peer => peer != oldSession))
          peersById := t.peersById.erase id }

/- The newcomer learns of the others, and they of it. -/
def announce
    (session : SessionRef)
    (syncKey id : String) : TrackerServer :=
  let others := t.othersIn syncKey id
  (t.sendAll [session]
    (.regAck id (others.map t.getId))).sendAll others
      (.peerJoin id)

def enter
    (session : SessionRef)
    (syncKey id : String) : TrackerServer :=
  { t with
    peerGroups := t.peerGroups.insert syncKey
      ((t.peerSet syncKey).insert session)
    peersById := t.peersById.insert id session }

def join
    (session : SessionRef)
    (syncKey : String) : TrackerServer :=
  let newPeerId := t.getId session
  ((t.replaceOld session syncKey newPeerId).announce
    session syncKey newPeerId).enter session syncKey
      newPeerId

/- A session that has no key was never registered. -/
def leave (session : SessionRef) : TrackerServer :=
  let peerId := t.getId session
  let syncKey := t.getSyncKey session
  if syncKey = "" then
    t
  else
    let t := { t with
      peersById := t.peersById.erase peerId }
    match t.peerGroups.lookup syncKey with
    | none => t
    | some peers =>
        let rest := peers.filter (fun peer => peer != session)
        let t := t.sendAll rest (.peerLeave peerId)
        { t with
          peerGroups :=
            if rest.isEmpty then
              t.peerGroups.erase syncKey
            else
              t.peerGroups.insert syncKey rest }

/- A message for an id that nobody has is dropped. -/
def forward
    (toPeerId : String)
    (msg : Json) : TrackerServer :=
  match t.peersById.lookup toPeerId with
  | some peer => t.sendAll [peer] (.signal msg)
  | none => t

end Operations

end TrackerServer

end VeritasSync
